import SourceLinks.Proofs.Places

namespace SourceLinks

namespace Node

mutual
/-- All items that the walk of a node does, in order. What is done does not depend on any answer. -/
def agenda (parent : String) : Node → List Work
  | ⟨kind, field, named, missing, start, stop, children⟩ =>
    .enter parent ⟨kind, field, named, missing, start, stop, children⟩ ::
      if Setting.isSkipped (Role.under parent kind) then []
      else agendaAll kind children ++ (Work.exitOf? (Role.under parent kind)).toList

def agendaAll (parent : String) : List Node → List Work
  | [] => []
  | c :: rest => c.agenda parent ++ agendaAll parent rest
end

theorem agendaAll_eq (parent : String) (nodes : List Node) :
    agendaAll parent nodes = nodes.flatMap (agenda parent) := by
  induction nodes with
  | nil => rw [agendaAll, List.flatMap_nil]
  | cons c rest ih => rw [agendaAll, ih, List.flatMap_cons]

theorem agenda_eq (parent : String) (n : Node) :
    n.agenda parent = .enter parent n ::
      if Setting.isSkipped (Role.under parent n.kind) then []
      else n.children.flatMap (agenda n.kind) ++ (Work.exitOf? (Role.under parent n.kind)).toList := by
  obtain ⟨kind, field, named, missing, start, stop, children⟩ := n
  rw [agenda, agendaAll_eq]

/-- The top-level nodes that come before the first check that says that the pass is cancelled. -/
def uncancelled (cancelled : Nat → Bool) : Nat → List Node → List Node
  | _, [] => []
  | i, c :: rest => if cancelled i then [] else c :: uncancelled cancelled (i + 1) rest

theorem uncancelled_prefix (cancelled : Nat → Bool) (i : Nat) (nodes : List Node) :
    uncancelled cancelled i nodes <+: nodes := by
  induction nodes generalizing i with
  | nil => exact List.prefix_refl _
  | cons c rest ih =>
    rw [uncancelled]
    split
    · exact List.nil_prefix
    · exact List.cons_prefix_cons.mpr ⟨rfl, ih (i + 1)⟩

theorem uncancelled_never (i : Nat) (nodes : List Node) :
    uncancelled (fun _ => false) i nodes = nodes := by
  induction nodes generalizing i with
  | nil => rfl
  | cons c rest ih => simp [uncancelled, ih]

end Node

namespace Work

/-- An item with all that follows from it. -/
def agenda : Work → List Work
  | .enter parent node => node.agenda parent
  | .exit scopes classes => [.exit scopes classes]

theorem agenda_follow (w : Work) : w.agenda = w :: w.follow.flatMap agenda := by
  cases w with
  | exit scopes classes => rfl
  | enter parent node =>
    have hexit : ∀ role, (exitOf? role).toList.flatMap agenda = (exitOf? role).toList := by
      intro role
      cases role <;> rfl
    rw [agenda, Node.agenda_eq, follow]
    split
    · rfl
    · rw [List.flatMap_append, hexit, List.flatMap_map]
      rfl

end Work

namespace Setting

/-- The loop does the items of its agenda one after another. -/
theorem walk_agenda (st : Setting) (work : List Work) (p : Progress) :
    st.walk work p = (work.flatMap Work.agenda).foldlM (fun p w => st.perform w p) p := by
  induction work, p using walk.induct with
  | case1 p => rw [walk_nil, List.flatMap_nil, List.foldlM_nil, Inquiry.pure_eq]
  | case2 w rest p ih =>
    rw [walk_cons, List.flatMap_cons, w.agenda_follow, List.cons_append, List.foldlM_cons,
      ← List.flatMap_append]
    congr 1
    funext m
    exact ih m

/-- The items of a whole pass, or those that come before it is cancelled. -/
def agenda (st : Setting) (cancelled : Nat → Bool) : List Work :=
  (Node.uncancelled cancelled 0 st.source.root.children).flatMap (Node.agenda st.source.root.kind)

/-- Not all of the top-level nodes are walked. -/
def stops (st : Setting) (cancelled : Nat → Bool) : Bool :=
  (Node.uncancelled cancelled 0 st.source.root.children).length < st.source.root.children.length

/-- A pass in which an item is done by `perform`. -/
def resolveBy (st : Setting) (perform : Work → Progress → Inquiry Progress) (cancelled : Nat → Bool) :
    Inquiry (Progress × Bool) := do
  let p ← st.importPass
  let p ← (st.agenda cancelled).foldlM (fun p w => perform w p) p
  return (p, st.stops cancelled)

theorem walkTop_agenda (st : Setting) (cancelled : Nat → Bool) (parent : String) (i : Nat)
    (nodes : List Node) (p : Progress) :
    st.walkTop cancelled parent i nodes p = do
      let p ← ((Node.uncancelled cancelled i nodes).flatMap (Node.agenda parent)).foldlM
        (fun p w => st.perform w p) p
      return (p, decide ((Node.uncancelled cancelled i nodes).length < nodes.length)) := by
  induction nodes generalizing i p with
  | nil => rfl
  | cons c rest ih =>
    rw [walkTop, Node.uncancelled]
    split
    · rfl
    · have hc : [Work.enter parent c].flatMap Work.agenda = c.agenda parent := by
        rw [List.flatMap_singleton, Work.agenda]
      rw [walk_agenda, hc, List.flatMap_cons, List.foldlM_append, bind_assoc]
      congr 1
      funext m
      rw [ih]
      simp

/-- The pass does its agenda. -/
theorem resolve_agenda (st : Setting) (cancelled : Nat → Bool) :
    st.resolve cancelled = st.resolveBy st.perform cancelled := by
  rw [resolve, resolveBy]
  congr 1
  funext p
  exact st.walkTop_agenda cancelled _ 0 _ p

end Setting
end SourceLinks
