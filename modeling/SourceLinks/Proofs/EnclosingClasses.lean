import SourceLinks.Proofs.HeaderScopes

namespace SourceLinks
variable {s : Source} {π σ τ : Place} {e : Entry} {i : Nat}

namespace Source

/-- The node at a place is a type declaration or the body of an anonymous class. -/
def opensClassAt (s : Source) (π : Place) : Bool :=
  match s.entryAt? π with
  | some e => e.role.opensClass
  | none => false

/-- The place of the innermost class at or around a place. -/
def classAt? (s : Source) (π : Place) : Option Place :=
  (s.scopesAt π).find? s.opensClassAt

theorem opensAt_of_opensClassAt (h : s.opensClassAt π = true) : s.opensAt π = true := by
  unfold opensClassAt at h
  unfold opensAt
  cases he : s.entryAt? π with
  | none => simp [he] at h
  | some e =>
    rw [he] at h
    exact Role.opensScope_of_opensClass h

theorem classAt_self (h : s.opensClassAt π = true) : s.classAt? π = some π := by
  rw [classAt?, scopesAt_scope (opensAt_of_opensClassAt h), List.find?_cons, h]

end Source

namespace Setting
variable {st : Setting} {here : Surroundings}

/-- The class that the node at a place opens, with these classes around it. -/
def classOpened? (st : Setting) (around : List ClassContext) (σ : Place) : Option ClassContext :=
  (st.source.entryAt? σ).bind fun e => st.classOf? e ⟨{}, around⟩

/-- The classes that scopes belong to, where the innermost scope comes first. -/
def classesIn (st : Setting) : List Place → List ClassContext
  | [] => []
  | σ :: outer => (st.classOpened? (st.classesIn outer) σ).toList ++ st.classesIn outer

/-- The classes at and around a place, the innermost first. -/
def classesAt (st : Setting) (π : Place) : List ClassContext :=
  st.classesIn (st.source.scopesAt π)

/-- A class has its names from the classes around it, whatever variables there are. -/
theorem classOf_congr (st : Setting) (e : Entry) {here' : Surroundings}
    (h : here'.classes = here.classes) : st.classOf? e here' = st.classOf? e here := by
  simp only [classOf?, classContext, Surroundings.enclosing, h]

theorem classOpened_length (st : Setting) (around : List ClassContext) (σ : Place) :
    (st.classOpened? around σ).toList.length = if st.source.opensClassAt σ then 1 else 0 := by
  unfold classOpened? Source.opensClassAt
  cases st.source.entryAt? σ with
  | none => rfl
  | some e => exact st.classOf_length e _

theorem classOpened_eq_none (h : st.source.opensClassAt σ = false) (around : List ClassContext) :
    st.classOpened? around σ = none := by
  have hlength := st.classOpened_length around σ
  rw [h] at hlength
  simpa using hlength

/-- A node that opens a class adds it to those around the node, and no other node adds any. -/
theorem classesAt_snoc (st : Setting) (above : Place) (i : Nat) :
    st.classesAt (above ++ [i]) =
      (st.classOpened? (st.classesAt above) (above ++ [i])).toList ++ st.classesAt above := by
  unfold classesAt
  rw [Source.scopesAt_snoc]
  split
  · rfl
  · rename_i hscope
    have hclass : st.source.opensClassAt (above ++ [i]) = false :=
      Bool.eq_false_iff.mpr (mt Source.opensAt_of_opensClassAt hscope)
    rw [classOpened_eq_none hclass]
    rfl

theorem classesAt_around (h : st.source.opensClassAt π = false) :
    st.classesAt π = st.classesAt π.dropLast := by
  cases π using List.reverseRecOn with
  | nil => rfl
  | append_singleton above i =>
    rw [classesAt_snoc, classOpened_eq_none h, List.dropLast_concat]
    rfl

/-- The classes at a place are those at the innermost class there. -/
theorem classesAt_class (h : st.source.classAt? π = some τ) : st.classesAt π = st.classesAt τ := by
  induction π using List.reverseRecOn with
  | nil => simp [Source.classAt?, Source.scopesAt_top] at h
  | append_singleton above i ih =>
    by_cases hclass : st.source.opensClassAt (above ++ [i]) = true
    · rw [Source.classAt_self hclass] at h
      rw [Option.some.inj h]
    · have habove : st.source.classAt? above = some τ := by
        unfold Source.classAt? at h
        rw [Source.scopesAt_snoc] at h
        split at h
        · rwa [List.find?_cons_of_neg hclass] at h
        · exact h
      rw [classesAt_around (Bool.eq_false_iff.mpr hclass), List.dropLast_concat, ih habove]

/-- The innermost class at a place is the one that its node opens. -/
theorem classesAt_opened (h : st.source.opensClassAt τ = true) :
    ∃ ctx, st.classOpened? (st.classesAt τ.dropLast) τ = some ctx ∧
      st.classesAt τ = ctx :: st.classesAt τ.dropLast := by
  have hlength := st.classOpened_length (st.classesAt τ.dropLast) τ
  rw [h] at hlength
  obtain ⟨ctx, hctx⟩ := Option.isSome_iff_exists.mp (by simpa using hlength)
  have hne := Source.ne_nil_of_opensAt (Source.opensAt_of_opensClassAt h)
  have hsnoc := st.classesAt_snoc τ.dropLast (τ.getLast hne)
  rw [List.dropLast_append_getLast, hctx] at hsnoc
  exact ⟨ctx, hctx, hsnoc⟩

end Setting

/-- The exits of the work close, for each of these scopes, the class that it belongs to. -/
inductive Matched (s : Source) : List Work → List Place → Prop where
  | nil : Matched s [] []
  | enter {parent : String} {node : Node} {rest : List Work} {scopes : List Place}
      (tail : Matched s rest scopes) : Matched s (.enter parent node :: rest) scopes
  | exit {rest : List Work} {σ : Place} {scopes : List Place} (tail : Matched s rest scopes) :
      Matched s (.exit 1 (if s.opensClassAt σ then 1 else 0) :: rest) (σ :: scopes)

theorem Matched.children {rest : List Work} {scopes : List Place} (h : Matched s rest scopes)
    (kind : String) (nodes : List Node) : Matched s (nodes.map (.enter kind) ++ rest) scopes := by
  induction nodes with
  | nil => exact h
  | cons c nodes ih => exact .enter ih

/-- Entering a node puts its exit below its children, for the scope and the class that it opens. -/
theorem Matched.entered {rest : List Work} {above : Place}
    (h : Matched s (.enter e.parent e.node :: rest) (s.scopesAt above)) (he : e.IsEntered)
    (hat : s.entryAt? (above ++ [i]) = some e) :
    Matched s (Work.follow (.enter e.parent e.node) ++ rest) (s.scopesAt (above ++ [i])) := by
  have hs : Setting.isSkipped (Role.under e.parent e.node.kind) = false := he
  have hopens : s.opensAt (above ++ [i]) = (Role.under e.parent e.node.kind).opensScope := by
    simp [Source.opensAt, hat, Entry.role]
  have hclass : s.opensClassAt (above ++ [i]) = (Role.under e.parent e.node.kind).opensClass := by
    simp [Source.opensClassAt, hat, Entry.role]
  cases h with
  | enter tail =>
    simp only [Work.follow, hs, Bool.false_eq_true, ↓reduceIte, List.append_assoc]
    apply Matched.children
    rw [Role.exitOf_eq, Source.scopesAt_snoc, hopens]
    split
    · rw [Option.toList_some, List.singleton_append, ← hclass]
      exact .exit tail
    · exact tail

namespace Setting
variable {st : Setting} {work rest done : List Work} {w : Work} {p q : Progress} {k : Nat}

/-- After `k` nodes have been entered, the work and the classes are those of the tree from there on. -/
def Encloses (st : Setting) (k : Nat) (work : List Work) (here : Surroundings) : Prop :=
  ∃ scopes, Planned st.source work scopes (st.source.places.drop k) ∧
    Matched st.source work scopes ∧ here.classes = st.classesIn scopes

/-- The node that is entered next stands among the classes around its place, and its children among
those at it. -/
theorem encloses_enter {here : Surroundings}
    (h : st.Encloses k (.enter e.parent e.node :: rest) here) (he : e.IsEntered) :
    ∃ π, st.source.places[k]? = some π ∧ here.classes = st.classesAt π.dropLast ∧
      (st.surround e here).classes = st.classesAt π ∧
      st.Encloses (k + 1) (Work.follow (.enter e.parent e.node) ++ rest) (st.surround e here) := by
  obtain ⟨scopes, hplan, hmatched, hclasses⟩ := h
  obtain ⟨above, i, later, hat, rfl, hdrop, hlater⟩ := hplan.entered he
  have hk : st.source.places[k]? = some (above ++ [i]) := by
    rw [← List.head?_drop, hdrop, List.head?_cons]
  have hnext : st.source.places.drop (k + 1) = later := by
    rw [← List.tail_drop, hdrop, List.tail_cons]
  have hopened : (st.surround e here).classes = st.classesAt (above ++ [i]) := by
    have hsame : st.classOf? e here = st.classOf? e ⟨{}, st.classesAt above⟩ :=
      st.classOf_congr e hclasses
    rw [classesAt_snoc, classOpened?, hat, Option.bind_some, surround, hsame, hclasses]
    rfl
  refine ⟨above ++ [i], hk, ?_, hopened, ?_⟩
  · rw [List.dropLast_concat]
    exact hclasses
  · rw [← hnext] at hlater
    exact ⟨_, hlater, hmatched.entered he hat, hopened⟩

theorem encloses_turn (h : st.Encloses k (w :: rest) p.here) (hw : (st.perform w p).Yields q) :
    st.Encloses (k + w.entry?.toList.length) (w.follow ++ rest) q.here := by
  rcases perform_cases hw with
    ⟨scopes, classes, rfl, rfl⟩ | ⟨parent, n, rfl, hs, rfl⟩ | ⟨e, rfl, he, hq⟩
  · obtain ⟨owners, hplan, hmatched, hclasses⟩ := h
    cases hmatched with
    | @exit _ σ scopes tail =>
      cases hplan with
      | exit later =>
        refine ⟨_, later, tail, ?_⟩
        simp only [Progress.close, hclasses, classesIn]
        rw [← st.classOpened_length (st.classesIn scopes) σ, List.drop_left]
  · obtain ⟨owners, hplan, hmatched, hclasses⟩ := h
    generalize hdrop : st.source.places.drop k = upcoming at hplan
    cases hplan with
    | enter _ _ later =>
      cases hmatched with
      | enter tail =>
        have hnone : n.places parent = [] := by rw [Node.places_eq, hs, if_pos rfl]
        rw [hnone, List.map_nil, List.nil_append] at hdrop
        subst hdrop
        simp only [Work.follow, Work.entry?, hs, ↓reduceIte, List.nil_append]
        exact ⟨owners, later, tail, hclasses⟩
  · obtain ⟨π, _, _, _, hnext⟩ := encloses_enter h he
    have hs : isSkipped (Role.under e.parent e.node.kind) = false := he
    rw [enter_here hq]
    simp only [Work.entry?, hs, Bool.false_eq_true, ↓reduceIte, Option.toList_some,
      List.length_singleton]
    exact hnext

/-- Wherever a pass stands, its classes are those of the tree. -/
theorem Standing.encloses (h : st.Standing done work p) :
    st.Encloses (Work.entered done).length work p.here := by
  obtain ⟨start, hstart, hturns⟩ := h
  induction hturns with
  | start =>
    have hplan := Planned.children 0 (fun j => by rw [Nat.zero_add]; exact st.source.entryAt_top j)
      st.source.scopesAt_top Planned.nil
    have hmatched := Matched.nil.children (s := st.source) st.source.root.kind st.source.root.children
    rw [List.append_nil] at hmatched
    refine ⟨[], by simpa [topWork, Source.places] using hplan, hmatched, ?_⟩
    rw [importPass_here hstart]
    rfl
  | turn _ hw ih =>
    rw [Work.entered_snoc, List.length_append]
    exact encloses_turn ih hw

/-- Before a node is entered the classes are those around it, and then those at it. -/
theorem Enters.classes (h : st.Enters k e p q) (hk : st.source.places[k]? = some π) :
    p.here.classes = st.classesAt π.dropLast ∧ q.here.classes = st.classesAt π := by
  obtain ⟨done, rest, hstanding, rfl, he, hq⟩ := h
  obtain ⟨π', hk', hbefore, hafter, _⟩ := encloses_enter hstanding.encloses he
  obtain rfl : π = π' := Option.some.inj (hk.symm.trans hk')
  rw [enter_here hq]
  exact ⟨hbefore, hafter⟩

end Setting
end SourceLinks
