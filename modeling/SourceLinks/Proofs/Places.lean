import SourceLinks.Proofs.Turns

namespace SourceLinks

/-- The way down to a node: the number of a child at each level. -/
abbrev Place := List Nat

namespace Node

/-- What holds of a node whenever it holds of its children holds of all nodes. -/
theorem induct {motive : Node → Prop} (step : ∀ n, (∀ c ∈ n.children, motive c) → motive n)
    (n : Node) : motive n := by
  apply step
  intro c hc
  exact induct step c
termination_by sizeOf n
decreasing_by
  obtain ⟨kind, field, named, missing, start, stop, children⟩ := n
  have hlt := List.sizeOf_lt_of_mem hc
  simp only [Node.mk.sizeOf_spec] at hlt ⊢
  omega

/-- The node at a place below a node that stands under a parent of this kind. -/
def entryAt? (parent : String) (n : Node) : Place → Option Entry
  | [] => some ⟨parent, n⟩
  | i :: π => n.children[i]?.bind fun c => c.entryAt? n.kind π

/-- Places below the children from number `i` on, where `f` gives those below one child. -/
def belowEach (f : Node → List Place) (i : Nat) : List Node → List Place
  | [] => []
  | c :: rest => (f c).map (i :: ·) ++ belowEach f (i + 1) rest

theorem mem_belowEach {f : Node → List Place} {i : Nat} {nodes : List Node} {π : Place} :
    π ∈ belowEach f i nodes ↔ ∃ j c σ, nodes[j]? = some c ∧ σ ∈ f c ∧ π = (i + j) :: σ := by
  induction nodes generalizing i with
  | nil => simp [belowEach]
  | cons c rest ih =>
    rw [belowEach, List.mem_append, ih, List.mem_map]
    constructor
    · rintro (⟨σ, hσ, rfl⟩ | ⟨j, d, σ, hd, hσ, rfl⟩)
      · exact ⟨0, c, σ, rfl, hσ, rfl⟩
      · exact ⟨j + 1, d, σ, hd, hσ, by rw [Nat.add_assoc, Nat.add_comm 1 j]⟩
    · rintro ⟨j, d, σ, hd, hσ, rfl⟩
      cases j with
      | zero =>
        obtain rfl : c = d := by simpa using hd
        exact .inl ⟨σ, hσ, rfl⟩
      | succ j => exact .inr ⟨j, d, σ, hd, hσ, by rw [Nat.add_assoc, Nat.add_comm 1 j]⟩

/-- Where the places below each child are in document order, so are all of them. -/
theorem belowEach_sorted {f : Node → List Place} {nodes : List Node} (i : Nat)
    (h : ∀ c ∈ nodes, (f c).Pairwise (List.Lex (· < ·))) :
    (belowEach f i nodes).Pairwise (List.Lex (· < ·)) := by
  induction nodes generalizing i with
  | nil => simp [belowEach]
  | cons c rest ih =>
    rw [belowEach, List.pairwise_append]
    refine ⟨?_, ih (i + 1) (fun d hd => h d (by simp [hd])), ?_⟩
    · rw [List.pairwise_map]
      exact (h c (by simp)).imp fun hlex => .cons hlex
    · intro π hπ σ hσ
      obtain ⟨τ, _, rfl⟩ := List.mem_map.mp hπ
      obtain ⟨j, _, τ', _, _, rfl⟩ := mem_belowEach.mp hσ
      exact .rel (by omega)

/-- What stands at places below a node's children is what stands below each child. -/
theorem filterMap_belowEach {α : Type} {f : Node → List Place} {g : Place → Option α}
    {h : Node → Place → Option α} (i : Nat) {nodes : List Node}
    (hg : ∀ j c σ, nodes[j]? = some c → g ((i + j) :: σ) = h c σ) :
    (belowEach f i nodes).filterMap g = nodes.flatMap fun c => (f c).filterMap (h c) := by
  induction nodes generalizing i with
  | nil => simp [belowEach]
  | cons c rest ih =>
    have hfirst : g ∘ (i :: ·) = h c := funext fun σ => hg 0 c σ rfl
    have hrest := ih (i + 1) fun j d σ hd => by
      rw [Nat.add_right_comm, Nat.add_assoc]
      exact hg (j + 1) d σ hd
    rw [belowEach, List.filterMap_append, List.filterMap_map, hfirst, hrest, List.flatMap_cons]

mutual
/-- The places that a walk enters, parents before children and children from left to right. -/
def places (parent : String) : Node → List Place
  | ⟨kind, _, _, _, _, _, children⟩ =>
    if Setting.isSkipped (Role.under parent kind) then [] else [] :: placesAmong kind 0 children

/-- Those below the children from number `i` on. -/
def placesAmong (parent : String) (i : Nat) : List Node → List Place
  | [] => []
  | c :: rest => (c.places parent).map (i :: ·) ++ placesAmong parent (i + 1) rest
end

/-- The nodes that a walk enters. -/
def entries (parent : String) (n : Node) : List Entry :=
  (n.places parent).filterMap (n.entryAt? parent)

theorem places_eq (parent : String) (n : Node) :
    n.places parent =
      if Setting.isSkipped (Role.under parent n.kind) then []
      else [] :: placesAmong n.kind 0 n.children := by
  obtain ⟨kind, field, named, missing, start, stop, children⟩ := n
  rw [places]

theorem placesAmong_eq (parent : String) (i : Nat) (nodes : List Node) :
    placesAmong parent i nodes = belowEach (places parent) i nodes := by
  induction nodes generalizing i with
  | nil => rfl
  | cons c rest ih => rw [placesAmong, belowEach, ih]

theorem mem_placesAmong {parent : String} {i : Nat} {nodes : List Node} {π : Place} :
    π ∈ placesAmong parent i nodes ↔
      ∃ j c σ, nodes[j]? = some c ∧ σ ∈ c.places parent ∧ π = (i + j) :: σ := by
  rw [placesAmong_eq, mem_belowEach]

theorem placesAmong_append (parent : String) (i : Nat) (first rest : List Node) :
    placesAmong parent i (first ++ rest) =
      placesAmong parent i first ++ placesAmong parent (i + first.length) rest := by
  induction first generalizing i with
  | nil => rfl
  | cons c first ih =>
    rw [List.cons_append, placesAmong, placesAmong, ih, List.append_assoc, List.length_cons,
      Nat.add_right_comm, Nat.add_assoc]

/-- A place is entered if and only if there is a node and neither it nor one above it is skipped. -/
theorem mem_places {parent : String} {n : Node} {π : Place} :
    π ∈ n.places parent ↔
      (∃ e, n.entryAt? parent π = some e) ∧
        ∀ σ e, σ <+: π → n.entryAt? parent σ = some e → e.IsEntered := by
  induction π generalizing parent n with
  | nil =>
    rw [places_eq]
    simp only [entryAt?, Option.some.injEq, exists_eq', true_and, List.prefix_nil]
    constructor
    · intro h σ e hσ he
      subst hσ
      simp only [entryAt?, Option.some.injEq] at he
      subst he
      split at h
      · simp at h
      · rename_i hs
        simpa [Entry.IsEntered, Entry.role] using hs
    · intro h
      have hs : Setting.isSkipped (Role.under parent n.kind) = false := h [] ⟨parent, n⟩ rfl rfl
      simp [hs]
  | cons i π ih =>
    rw [places_eq]
    constructor
    · intro h
      split at h
      · simp at h
      · rename_i hs
        simp only [List.mem_cons, reduceCtorEq, false_or] at h
        obtain ⟨j, c, σ, hc, hσ, he⟩ := mem_placesAmong.mp h
        simp only [Nat.zero_add, List.cons.injEq] at he
        obtain ⟨rfl, rfl⟩ := he
        obtain ⟨⟨e, he⟩, hup⟩ := ih.mp hσ
        refine ⟨⟨e, by simp [entryAt?, hc, he]⟩, ?_⟩
        intro τ e' hτ he'
        cases τ with
        | nil =>
          simp only [entryAt?, Option.some.injEq] at he'
          subst he'
          simpa [Entry.IsEntered, Entry.role] using hs
        | cons k τ =>
          obtain ⟨rfl, hrest⟩ := List.cons_prefix_cons.mp hτ
          exact hup τ e' hrest (by simpa [entryAt?, hc] using he')
    · rintro ⟨⟨e, he⟩, hup⟩
      have hs : Setting.isSkipped (Role.under parent n.kind) = false :=
        hup [] ⟨parent, n⟩ List.nil_prefix rfl
      simp only [hs, Bool.false_eq_true, ↓reduceIte, List.mem_cons, reduceCtorEq, false_or]
      simp only [entryAt?, Option.bind_eq_some_iff] at he
      obtain ⟨c, hc, he⟩ := he
      apply mem_placesAmong.mpr
      refine ⟨i, c, π, hc, ih.mpr ⟨⟨e, he⟩, ?_⟩, by simp⟩
      intro τ e' hτ he'
      exact hup (i :: τ) e' (List.cons_prefix_cons.mpr ⟨rfl, hτ⟩) (by simpa [entryAt?, hc] using he')

theorem placesAmong_sorted {parent : String} {nodes : List Node} (i : Nat)
    (ih : ∀ c ∈ nodes, (c.places parent).Pairwise (List.Lex (· < ·))) :
    (placesAmong parent i nodes).Pairwise (List.Lex (· < ·)) := by
  rw [placesAmong_eq]
  exact belowEach_sorted i ih

/-- Places are entered in document order, so none is entered twice. -/
theorem places_sorted (parent : String) (n : Node) :
    (n.places parent).Pairwise (List.Lex (· < ·)) := by
  induction n using Node.induct generalizing parent with
  | step n ih =>
    rw [places_eq]
    split
    · exact .nil
    · rw [List.pairwise_cons]
      refine ⟨?_, placesAmong_sorted 0 fun c hc => ih c hc n.kind⟩
      intro π hπ
      obtain ⟨j, _, σ, _, _, rfl⟩ := mem_placesAmong.mp hπ
      exact .nil

/-- The nodes that a walk enters are a node and those of its children's walks. -/
theorem entries_eq (parent : String) (n : Node) :
    n.entries parent =
      if Setting.isSkipped (Role.under parent n.kind) then []
      else ⟨parent, n⟩ :: n.children.flatMap (entries n.kind) := by
  rw [entries, places_eq]
  split
  · rfl
  · rw [List.filterMap_cons_some (by rfl), placesAmong_eq]
    congr 1
    apply filterMap_belowEach 0
    intro j c σ hc
    simp [entryAt?, hc]

/-- A node stands at each place that a walk enters. -/
theorem length_entries (parent : String) (n : Node) :
    (n.entries parent).length = (n.places parent).length := by
  rw [entries, List.filterMap_length_eq_length]
  intro π hπ
  obtain ⟨⟨e, he⟩, _⟩ := mem_places.mp hπ
  rw [he]
  rfl

theorem length_placesAmong (parent : String) (i : Nat) (nodes : List Node) :
    (placesAmong parent i nodes).length = (nodes.flatMap (entries parent)).length := by
  induction nodes generalizing i with
  | nil => rfl
  | cons c nodes ih =>
    rw [placesAmong, List.flatMap_cons, List.length_append, List.length_append, List.length_map,
      length_entries, ih]

end Node
end SourceLinks
