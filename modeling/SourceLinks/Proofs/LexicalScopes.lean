import Mathlib.Data.List.Infix
import SourceLinks.Proofs.Entering
import SourceLinks.Proofs.Places
import SourceLinks.Proofs.Scopes

namespace SourceLinks

namespace Source

/-- The node at a place below the root. -/
def entryAt? (s : Source) : Place → Option Entry
  | [] => none
  | i :: π => s.root.children[i]?.bind fun c => c.entryAt? s.root.kind π

/-- The places that a pass enters, in document order. -/
def places (s : Source) : List Place :=
  Node.placesAmong s.root.kind 0 s.root.children

def opensAt (s : Source) (π : Place) : Bool :=
  match s.entryAt? π with
  | some e => e.role.opensScope
  | none => false

/-- The nodes at and above a place that open a scope, the innermost first. -/
def scopesAt (s : Source) (π : Place) : List Place :=
  (π.inits.filter s.opensAt).reverse

/-- The scope that what a node declares belongs to: its own if it opens one, else the nearest above
it. The scope of the whole document has the place of the root. -/
def ownerAt (s : Source) (π : Place) : Place :=
  (s.scopesAt π).headD []

/-- What the node at a place declares, each with its scope. -/
def declarationsAt (s : Source) (π : Place) : List (Place × Declared) :=
  match s.entryAt? π with
  | some e => (s.declaredBy e).map fun v => (s.ownerAt π, v)
  | none => []

/-- The last declaration of a name in a scope, of those made at these places. -/
def lastIn (s : Source) (entered : List Place) (scope : Place) (x : String) :
    Option (Option TypeName) :=
  Keyed.lastOf x (((entered.flatMap s.declarationsAt).filter fun d => d.1 == scope).map Prod.snd)

/-- What a name means at a place once these places have been entered. -/
def visible (s : Source) (entered : List Place) (π : Place) (x : String) : Option (Option TypeName) :=
  (s.scopesAt π ++ [[]]).findSome? fun scope => s.lastIn entered scope x

end Source

theorem Node.entryAt_snoc (parent : String) (n : Node) (π : Place) (i : Nat) :
    n.entryAt? parent (π ++ [i]) =
      (n.entryAt? parent π).bind fun e => e.node.children[i]?.map (Entry.mk e.node.kind) := by
  induction π generalizing parent n with
  | nil =>
    simp only [List.nil_append, Node.entryAt?, Option.bind_some]
    cases n.children[i]? <;> rfl
  | cons j π ih =>
    simp only [List.cons_append, Node.entryAt?, Option.bind_assoc]
    congr 1
    funext c
    exact ih n.kind c

namespace Source
variable {s : Source} {e : Entry} {above π σ : Place} {i : Nat} {entered : List Place} {x : String}

/-- The children of a node stand below its place. -/
theorem entryAt_child (h : s.entryAt? π = some e) (i : Nat) :
    s.entryAt? (π ++ [i]) = e.node.children[i]?.map (Entry.mk e.node.kind) := by
  cases π with
  | nil => simp [entryAt?] at h
  | cons j π =>
    simp only [entryAt?, Option.bind_eq_some_iff] at h
    obtain ⟨c, hc, he⟩ := h
    simp only [List.cons_append, entryAt?, hc, Option.bind_some, Node.entryAt_snoc, he]

theorem entryAt_top (s : Source) (i : Nat) :
    s.entryAt? ([] ++ [i]) = s.root.children[i]?.map (Entry.mk s.root.kind) := by
  simp only [List.nil_append, entryAt?, Node.entryAt?]
  cases s.root.children[i]? <;> rfl

theorem mem_scopesAt : σ ∈ s.scopesAt π ↔ σ <+: π ∧ s.opensAt σ = true := by
  simp [scopesAt, List.mem_inits]

theorem scopesAt_snoc (s : Source) (above : Place) (i : Nat) :
    s.scopesAt (above ++ [i]) =
      if s.opensAt (above ++ [i]) then (above ++ [i]) :: s.scopesAt above else s.scopesAt above := by
  simp only [scopesAt, List.inits_append, List.filter_append, List.reverse_append]
  cases h : s.opensAt (above ++ [i]) <;> simp [h]

theorem scopesAt_top (s : Source) : s.scopesAt [] = [] := rfl

/-- The root opens no scope of its own. -/
theorem nil_not_mem_scopesAt : [] ∉ s.scopesAt π := by
  intro h
  have ho := (mem_scopesAt.mp h).2
  simp [opensAt, entryAt?] at ho

theorem not_mem_scopesAt_above (s : Source) (above : Place) (i : Nat) :
    above ++ [i] ∉ s.scopesAt above := by
  intro h
  have hlen := (mem_scopesAt.mp h).1.length_le
  simp only [List.length_append, List.length_singleton] at hlen
  omega

theorem scopesAt_nodup (s : Source) (π : Place) : (s.scopesAt π).Nodup := by
  induction π using List.reverseRecOn with
  | nil => exact List.nodup_nil
  | append_singleton above i ih =>
    rw [scopesAt_snoc]
    split
    · exact List.nodup_cons.mpr ⟨not_mem_scopesAt_above s above i, ih⟩
    · exact ih

theorem ownerAt_prefix (s : Source) (π : Place) : s.ownerAt π <+: π := by
  unfold ownerAt
  cases h : s.scopesAt π with
  | nil => exact List.nil_prefix
  | cons σ rest => exact (mem_scopesAt.mp (by rw [h]; simp)).1

/-- Entering one more node adds its declarations, to its own scope and to no other. -/
theorem lastIn_snoc (h : s.entryAt? π = some e) :
    s.lastIn (entered ++ [π]) σ x =
      if s.ownerAt π = σ then (Keyed.lastOf x (s.declaredBy e)).or (s.lastIn entered σ x)
      else s.lastIn entered σ x := by
  have hd : s.declarationsAt π = (s.declaredBy e).map fun v => (s.ownerAt π, v) := by
    simp [declarationsAt, h]
  simp only [lastIn, List.flatMap_append, List.flatMap_singleton, hd, List.filter_append,
    List.map_append, Keyed.lastOf_append, List.filter_map]
  split
  · rename_i ho
    simp [ho, Function.comp_def]
  · rename_i ho
    simp [beq_false_of_ne ho, Function.comp_def]

/-- A scope that no entered place declares in has no declaration. -/
theorem lastIn_unowned (h : ∀ τ ∈ entered, s.ownerAt τ ≠ σ) : s.lastIn entered σ x = none := by
  have hnone : (entered.flatMap s.declarationsAt).filter (fun d => d.1 == σ) = [] := by
    rw [List.filter_eq_nil_iff]
    intro d hd
    obtain ⟨τ, hτ, hd⟩ := List.mem_flatMap.mp hd
    unfold declarationsAt at hd
    split at hd
    · obtain ⟨v, _, rfl⟩ := List.mem_map.mp hd
      intro he
      exact h τ hτ (by simpa using he)
    · simp at hd
  simp [lastIn, hnone]

/-- A scope that no entered place lies in has no declaration yet. -/
theorem lastIn_fresh (h : ∀ τ ∈ entered, ¬ σ <+: τ) : s.lastIn entered σ x = none :=
  lastIn_unowned fun τ hτ ho => h τ hτ (ho ▸ ownerAt_prefix s τ)

end Source

/-- What the declarations say that a scope gives for a name. -/
abbrev Meanings := Place → String → Option (Option TypeName)

/-- Frames hold what has been declared in the open scopes, one frame for each of them and, where
something was declared outside them all, one more for the scope of the document. -/
inductive Holds (last : Meanings) : List Frame → List Place → Prop where
  | bare (h : ∀ x, last [] x = none) : Holds last [] []
  | document {f : Frame} (h : ∀ x, f.bindings.get? x = last [] x) : Holds last [f] []
  | scope {f : Frame} {frames : List Frame} {σ : Place} {scopes : List Place}
      (h : ∀ x, f.bindings.get? x = last σ x) (around : Holds last frames scopes) :
      Holds last (f :: frames) (σ :: scopes)

namespace Holds
variable {last last' : Meanings} {frames : List Frame} {scopes : List Place} {σ : Place}

/-- Looking a name up from frame to frame is looking for it from scope to scope. -/
theorem lookup (h : Holds last frames scopes) (x : String) :
    Scopes.lookup? ⟨frames⟩ x = (scopes ++ [[]]).findSome? fun σ => last σ x := by
  unfold Scopes.lookup?
  induction h with
  | bare h => simp [h x]
  | document h => simp [h x]
  | scope h _ ih =>
    simp only [List.cons_append, List.findSome?_cons, h x]
    rw [ih]

theorem congr (h : Holds last frames scopes) (hroot : ∀ x, last' [] x = last [] x)
    (hscopes : ∀ σ ∈ scopes, ∀ x, last' σ x = last σ x) : Holds last' frames scopes := by
  induction h with
  | bare h => exact .bare fun x => (hroot x).trans (h x)
  | document h => exact .document fun x => (h x).trans (hroot x).symm
  | scope h _ ih =>
    refine .scope (fun x => (h x).trans (hscopes _ (by simp) x).symm) (ih ?_)
    intro τ hτ
    exact hscopes τ (by simp [hτ])

/-- A scope that is opened starts with the declarations of its header. -/
theorem push (h : Holds last frames scopes) (kind : String) (vars : List Declared)
    (hnew : ∀ x, last' σ x = Keyed.lastOf x vars) (hroot : ∀ x, last' [] x = last [] x)
    (hscopes : ∀ τ ∈ scopes, ∀ x, last' τ x = last τ x) :
    Holds last' ((Scopes.push ⟨frames⟩ kind).bindAll vars).frames (σ :: scopes) := by
  rw [Scopes.push, Scopes.bindAll_open]
  refine .scope ?_ (h.congr hroot hscopes)
  intro x
  rw [Keyed.get_setAll, hnew]
  simp

/-- Other declarations go into the innermost scope, or into that of the document. -/
theorem declare (h : Holds last frames scopes) (hnd : scopes.Nodup) (hnil : [] ∉ scopes)
    (vars : List Declared)
    (hnew : ∀ σ x, last' σ x =
      if scopes.headD [] = σ then (Keyed.lastOf x vars).or (last σ x) else last σ x) :
    Holds last' (Scopes.bindAll ⟨frames⟩ vars).frames scopes := by
  cases h with
  | bare h =>
    rw [Scopes.bindAll_closed]
    split
    · rename_i hv
      subst hv
      exact .bare fun x => by simp [hnew, h x]
    · exact .document fun x => by simp [hnew, h x, Keyed.get_setAll]
  | document h =>
    rw [Scopes.bindAll_open]
    exact .document fun x => by simp [hnew, h x, Keyed.get_setAll]
  | @scope f frames σ scopes h around =>
    obtain ⟨hσ, _⟩ := List.nodup_cons.mp hnd
    rw [Scopes.bindAll_open]
    refine .scope ?_ (around.congr ?_ ?_)
    · intro x
      simp [Keyed.get_setAll, hnew, h x]
    · intro x
      have hne : σ ≠ [] := fun he => hnil (by simp [he])
      simp [hnew, hne]
    · intro τ hτ x
      have hne : σ ≠ τ := fun he => hσ (he ▸ hτ)
      simp [hnew, hne]

end Holds

/-- The work of a walk in terms of the tree: the scopes that its exits will close, the innermost
first, and the places that it will enter. -/
inductive Planned (s : Source) : List Work → List Place → List Place → Prop where
  | nil : Planned s [] [] []
  | enter {above : Place} {i : Nat} {parent : String} {node : Node} {rest : List Work}
      {scopes pending : List Place} (at_place : s.entryAt? (above ++ [i]) = some ⟨parent, node⟩)
      (around : s.scopesAt above = scopes) (tail : Planned s rest scopes pending) :
      Planned s (.enter parent node :: rest) scopes
        ((node.places parent).map (above ++ [i] ++ ·) ++ pending)
  | exit {classes : Nat} {rest : List Work} {σ : Place} {scopes pending : List Place}
      (tail : Planned s rest scopes pending) :
      Planned s (.exit 1 classes :: rest) (σ :: scopes) pending

theorem Planned.children {s : Source} {π : Place} {kind : String} {nodes : List Node} (i : Nat)
    {rest : List Work} {scopes pending : List Place}
    (hat : ∀ j, s.entryAt? (π ++ [i + j]) = nodes[j]?.map (Entry.mk kind))
    (around : s.scopesAt π = scopes) (tail : Planned s rest scopes pending) :
    Planned s (nodes.map (.enter kind) ++ rest) scopes
      ((Node.placesAmong kind i nodes).map (π ++ ·) ++ pending) := by
  induction nodes generalizing i with
  | nil => exact tail
  | cons c nodes ih =>
    have hrest := ih (i + 1) fun j => by
      have hj := hat (j + 1)
      rwa [Nat.add_comm j 1, ← Nat.add_assoc, Nat.add_comm 1 j, List.getElem?_cons_succ] at hj
    have hfirst : (Node.places kind c).map ((π ++ ·) ∘ (i :: ·)) =
        (Node.places kind c).map (π ++ [i] ++ ·) := by
      apply List.map_congr_left
      intro σ _
      simp
    rw [Node.placesAmong, List.map_append, List.map_map, hfirst, List.append_assoc]
    exact .enter (hat 0) around hrest

/-- Entering a node uses up its place and puts the places of its children on the plan, inside the
scope that the node opens if it opens one. -/
theorem Planned.entered {s : Source} {e : Entry} {rest : List Work} {scopes upcoming : List Place}
    (h : Planned s (.enter e.parent e.node :: rest) scopes upcoming) (he : e.IsEntered) :
    ∃ above i later, s.entryAt? (above ++ [i]) = some e ∧ s.scopesAt above = scopes ∧
      upcoming = (above ++ [i]) :: later ∧
      Planned s (Work.follow (.enter e.parent e.node) ++ rest) (s.scopesAt (above ++ [i])) later := by
  have hs : Setting.isSkipped (Role.under e.parent e.node.kind) = false := he
  cases h with
  | @enter above i _ _ _ _ pending hat around tail =>
    have hplaces := Node.places_eq e.parent e.node
    rw [hs, if_neg Bool.false_ne_true] at hplaces
    have hopens : s.opensAt (above ++ [i]) = (Role.under e.parent e.node.kind).opensScope := by
      simp [Source.opensAt, hat, Entry.role]
    have hfollow : Work.follow (.enter e.parent e.node) ++ rest =
        e.node.children.map (.enter e.node.kind) ++
          ((Work.exitOf? (Role.under e.parent e.node.kind)).toList ++ rest) := by
      simp [Work.follow, hs]
    let later := (Node.placesAmong e.node.kind 0 e.node.children).map (above ++ [i] ++ ·) ++ pending
    refine ⟨above, i, later, hat, around, ?_, ?_⟩
    · rw [hplaces, List.map_cons, List.append_nil, List.cons_append]
    · rw [hfollow]
      apply Planned.children 0 (fun j => by rw [Nat.zero_add]; exact Source.entryAt_child hat j) rfl
      -- An exit is on the stack below the children exactly if the node opens a scope.
      rw [Role.exitOf_eq, Source.scopesAt_snoc, hopens, around]
      split
      · exact .exit tail
      · exact tail

/-- A sorted list never comes to a place after one that lies below it. -/
theorem not_prefix_of_lex {τ π : Place} (h : List.Lex (· < ·) τ π) : ¬ π <+: τ := by
  induction h with
  | nil => simp
  | cons _ ih =>
    intro hp
    exact ih (List.cons_prefix_cons.mp hp).2
  | rel hlt =>
    intro hp
    have he := (List.cons_prefix_cons.mp hp).1
    omega

namespace Source

theorem places_sorted (s : Source) : s.places.Pairwise (List.Lex (· < ·)) :=
  Node.placesAmong_sorted 0 fun c _ => Node.places_sorted s.root.kind c

/-- After `k` nodes have been entered, the frames hold what these nodes declare, and the work is that
of the tree from there on. -/
def Tracks (s : Source) (k : Nat) (work : List Work) (here : Surroundings) : Prop :=
  ∃ scopes, Planned s work scopes (s.places.drop k) ∧
    Holds (s.lastIn (s.places.take k)) here.scopes.frames scopes

end Source

namespace Setting
variable {st : Setting} {work rest done : List Work} {w : Work} {p q : Progress} {e : Entry}
  {k : Nat} {here : Surroundings}

/-- What entering a node does to the frames is what its place says. -/
theorem holds_surround {π above : Place} {i : Nat} {entered : List Place} (hπ : π = above ++ [i])
    (he : st.source.entryAt? π = some e) (hfresh : ∀ τ ∈ entered, ¬ π <+: τ)
    (hold : Holds (st.source.lastIn entered) here.scopes.frames (st.source.scopesAt above)) :
    Holds (st.source.lastIn (entered ++ [π])) (st.surround e here).scopes.frames
      (st.source.scopesAt π) := by
  have hopens : st.source.opensAt π = e.role.opensScope := by simp [Source.opensAt, he]
  have hsnoc := st.source.scopesAt_snoc above i
  rw [← hπ, hopens] at hsnoc
  have hne : π ≠ [] := by simp [hπ]
  cases hk : e.role.scope? with
  | some kind =>
    rw [if_pos (by simp [Role.opensScope, hk])] at hsnoc
    have howner : st.source.ownerAt π = π := by simp [Source.ownerAt, hsnoc]
    rw [hsnoc]
    simp only [surround, hk, Option.map_some, Option.getD_some]
    apply hold.push
    · intro x
      rw [Source.lastIn_snoc he, if_pos howner, Source.lastIn_fresh hfresh, Option.or_none]
    · intro x
      rw [Source.lastIn_snoc he, howner, if_neg hne]
    · intro τ hτ x
      rw [Source.lastIn_snoc he, howner, if_neg]
      rintro rfl
      exact st.source.not_mem_scopesAt_above above i (hπ ▸ hτ)
  | none =>
    rw [if_neg (by simp [Role.opensScope, hk])] at hsnoc
    rw [hsnoc]
    simp only [surround, hk, Option.map_none, Option.getD_none]
    apply hold.declare (st.source.scopesAt_nodup above) Source.nil_not_mem_scopesAt
    intro σ x
    rw [Source.lastIn_snoc he, Source.ownerAt, hsnoc]

/-- The node that is entered next stands at the next place. -/
theorem tracks_enter (h : st.source.Tracks k (.enter e.parent e.node :: rest) here)
    (he : e.IsEntered) :
    ∃ π, st.source.places[k]? = some π ∧ st.source.entryAt? π = some e ∧
      Planned st.source (Work.follow (.enter e.parent e.node) ++ rest) (st.source.scopesAt π)
        (st.source.places.drop (k + 1)) ∧
      Holds (st.source.lastIn (st.source.places.take (k + 1))) (st.surround e here).scopes.frames
        (st.source.scopesAt π) := by
  obtain ⟨scopes, hplan, hold⟩ := h
  obtain ⟨above, i, later, hat, rfl, hdrop, hlater⟩ := hplan.entered he
  have hk : st.source.places[k]? = some (above ++ [i]) := by
    rw [← List.head?_drop, hdrop, List.head?_cons]
  have hnext : st.source.places.drop (k + 1) = later := by
    rw [← List.tail_drop, hdrop, List.tail_cons]
  have htake : st.source.places.take (k + 1) = st.source.places.take k ++ [above ++ [i]] := by
    rw [List.take_add_one, hk, Option.toList_some]
  have hsorted := st.source.places_sorted
  rw [← List.take_append_drop k st.source.places, hdrop, List.pairwise_append] at hsorted
  have hfresh : ∀ τ ∈ st.source.places.take k, ¬ above ++ [i] <+: τ := fun τ hτ =>
    not_prefix_of_lex (hsorted.2.2 τ hτ (above ++ [i]) (by simp))
  refine ⟨above ++ [i], hk, hat, ?_, ?_⟩
  · rw [hnext]
    exact hlater
  · rw [htake]
    exact holds_surround rfl hat hfresh hold

theorem tracks_turn (h : st.source.Tracks k (w :: rest) p.here) (hw : (st.perform w p).Yields q) :
    st.source.Tracks (k + w.entry?.toList.length) (w.follow ++ rest) q.here := by
  rcases perform_cases hw with
    ⟨scopes, classes, rfl, rfl⟩ | ⟨parent, n, rfl, hs, rfl⟩ | ⟨e, rfl, he, hq⟩
  · obtain ⟨owners, hplan, hold⟩ := h
    cases hplan with
    | exit tail =>
      generalize hf : p.here.scopes.frames = frames at hold
      cases hold with
      | scope _ around =>
        refine ⟨_, tail, ?_⟩
        simpa [Progress.close, Scopes.leave, hf, Work.entry?] using around
  · obtain ⟨owners, hplan, hold⟩ := h
    generalize hdrop : st.source.places.drop k = upcoming at hplan
    cases hplan with
    | enter _ _ tail =>
      have hnone : n.places parent = [] := by rw [Node.places_eq, hs, if_pos rfl]
      rw [hnone, List.map_nil, List.nil_append] at hdrop
      subst hdrop
      simp only [Work.follow, Work.entry?, hs, ↓reduceIte, List.nil_append]
      exact ⟨owners, tail, hold⟩
  · obtain ⟨π, _, _, hplan, hold⟩ := tracks_enter h he
    rw [← enter_here hq] at hold
    have hs : isSkipped (Role.under e.parent e.node.kind) = false := he
    simp only [Work.entry?, hs, Bool.false_eq_true, ↓reduceIte, Option.toList_some,
      List.length_singleton]
    exact ⟨_, hplan, hold⟩

theorem importPass_here (h : st.importPass.Yields p) : p.here = {} := by
  refine importPass_invariant (P := fun r => r.here = {}) ?_ h rfl
  intro d p q hp hq
  rw [linkImport_yields hq]
  split
  · rw [recorded_here, hp]
  · exact hp

/-- Wherever a pass stands, its frames and its work are those of the tree. -/
theorem Standing.tracks (h : st.Standing done work p) :
    st.source.Tracks (Work.entered done).length work p.here := by
  obtain ⟨start, hstart, hturns⟩ := h
  induction hturns with
  | start =>
    refine ⟨[], ?_, ?_⟩
    · have hplan := Planned.children 0 (fun j => by rw [Nat.zero_add]; exact st.source.entryAt_top j)
        st.source.scopesAt_top Planned.nil
      simpa [topWork, Source.places] using hplan
    · rw [importPass_here hstart]
      exact .bare fun x => rfl
  | turn _ hw ih =>
    rw [Work.entered_snoc, List.length_append]
    exact tracks_turn ih hw

/-- The node that is entered as number `k` is the one at that place. -/
theorem Enters.entryAt (h : st.Enters k e p q) :
    ∃ π, st.source.places[k]? = some π ∧ st.source.entryAt? π = some e := by
  obtain ⟨done, rest, hstanding, rfl, he, _⟩ := h
  obtain ⟨π, hk, hat, _⟩ := tracks_enter hstanding.tracks he
  exact ⟨π, hk, hat⟩

theorem Enters.entry {π : Place} (h : st.Enters k e p q) (hk : st.source.places[k]? = some π) :
    st.source.entryAt? π = some e := by
  obtain ⟨σ, hσ, hat⟩ := h.entryAt
  rw [hk] at hσ
  cases hσ
  exact hat

end Setting
end SourceLinks
