import SourceLinks.Proofs.Entering
import SourceLinks.Proofs.Places
import SourceLinks.Proofs.Scopes

namespace SourceLinks
namespace Setting
variable {st : Setting} {work work' rest done : List Work} {w : Work} {p q : Progress} {e : Entry}

/-- Takes back the scope and the class that a node of this role opened. -/
def undo (role : Role) (p : Progress) : Progress :=
  p.close (if role.opensScope then 1 else 0) (if role.opensClass then 1 else 0)

mutual
/-- Enters a node, visits its children from left to right and takes back what the node opened. -/
def visit (st : Setting) (parent : String) : Node → Progress → Inquiry Progress
  | ⟨kind, field, named, missing, start, stop, children⟩, p =>
    if isSkipped (Role.under parent kind) then return p
    else do
      let p ← st.enter parent ⟨kind, field, named, missing, start, stop, children⟩ p
      let p ← st.visitAll kind children p
      return undo (Role.under parent kind) p

def visitAll (st : Setting) (parent : String) : List Node → Progress → Inquiry Progress
  | [], p => return p
  | c :: rest, p => do
    let p ← st.visit parent c p
    st.visitAll parent rest p
end

theorem visit_eq (st : Setting) (parent : String) (n : Node) (p : Progress) :
    st.visit parent n p =
      if isSkipped (Role.under parent n.kind) then .done p
      else do
        let p ← st.enter parent n p
        let p ← st.visitAll n.kind n.children p
        return undo (Role.under parent n.kind) p := by
  obtain ⟨kind, field, named, missing, start, stop, children⟩ := n
  rw [visit]
  rfl

/-- The loop over a stack does its upper part first, whatever lies below. -/
theorem walk_append (st : Setting) (upper lower : List Work) (p : Progress) :
    st.walk (upper ++ lower) p = st.walk upper p >>= st.walk lower := by
  induction upper, p using walk.induct with
  | case1 p => rw [walk_nil, Inquiry.done_bind, List.nil_append]
  | case2 w rest p ih =>
    rw [List.cons_append, walk_cons, walk_cons, Inquiry.bind_assoc]
    congr 1
    funext m
    rw [← ih m, List.append_assoc]

/-- Doing the exit of a node is taking back what the node opened. -/
theorem walk_exit (st : Setting) (role : Role) (p : Progress) :
    st.walk (Work.exitOf? role).toList p = .done (undo role p) := by
  rw [Role.exitOf_eq]
  split
  · rename_i hs
    simp [walk_cons, perform, Work.follow, undo, hs]
  · rename_i hs
    have hc : role.opensClass = false := by
      cases hc : role.opensClass with
      | false => rfl
      | true => exact absurd (Role.opensScope_of_opensClass hc) hs
    simp [undo, hs, hc, Progress.close, Scopes.leave]

theorem walk_children {kind : String} {children : List Node}
    (ih : ∀ c ∈ children, ∀ p, st.walk [.enter kind c] p = st.visit kind c p) (p : Progress) :
    st.walk (children.map (.enter kind)) p = st.visitAll kind children p := by
  induction children generalizing p with
  | nil =>
    rw [List.map_nil, walk_nil, visitAll]
    rfl
  | cons c rest ihr =>
    have hrest := ihr fun d hd => ih d (by simp [hd])
    rw [List.map_cons, ← List.singleton_append, walk_append, ih c (by simp), visitAll]
    congr 1
    funext m
    exact hrest m

/-- The loop and the recursion do the same, answer for answer and note for note. -/
theorem walk_enter (st : Setting) (parent : String) (n : Node) (p : Progress) :
    st.walk [.enter parent n] p = st.visit parent n p := by
  induction n using Node.induct generalizing parent p with
  | step n ih =>
    rw [walk_cons, visit_eq, List.append_nil]
    cases hs : isSkipped (Role.under parent n.kind) with
    | true => simp [perform, Work.follow, hs]
    | false =>
      have hc : ∀ p, st.walk (n.children.map (.enter n.kind)) p = st.visitAll n.kind n.children p :=
        walk_children fun c hc p => ih c hc n.kind p
      simp only [perform, Work.follow, hs, Bool.false_eq_true, ↓reduceIte]
      congr 1
      funext m
      rw [walk_append, hc]
      congr 1
      funext m
      exact walk_exit st _ m

/-- The nodes that an item has still to enter. -/
def pending : Work → List Entry
  | .enter parent n => n.entries parent
  | .exit .. => []

theorem pending_step (w : Work) : w.entry?.toList ++ w.follow.flatMap pending = pending w := by
  cases w with
  | exit => rfl
  | enter parent n =>
    have hexit : ∀ role, (Work.exitOf? role).toList.flatMap pending = [] := by
      intro role
      cases role <;> rfl
    simp only [Work.entry?, Work.follow, pending, Node.entries_eq parent n]
    split
    · rfl
    · rw [List.flatMap_append, hexit, List.append_nil, List.flatMap_map]
      rfl

/-- What has been entered and what is still to be entered make up the same list all along. -/
theorem Turns.entered_pending (h : st.Turns work p done work' q) :
    Work.entered done ++ work'.flatMap pending = work.flatMap pending := by
  induction h with
  | start => rfl
  | @turn done rest w q r _ _ ih =>
    rw [← ih, Work.entered_snoc, List.flatMap_append, List.flatMap_cons, ← pending_step w]
    simp only [List.append_assoc]

/-- The open scopes and classes are those that exits in the work will close, over the ones that were
open at the start. -/
def Balanced (base : Surroundings) : List Work → Surroundings → Prop
  | [], here => here.classes = base.classes ∧ base.scopes.SameShape here.scopes
  | .enter .. :: rest, here => Balanced base rest here
  | .exit scopes classes :: rest, here =>
    scopes ≤ here.scopes.depth ∧ classes ≤ here.classes.length ∧
      Balanced base rest ⟨here.scopes.leave scopes, here.classes.drop classes⟩

theorem Balanced.children {base here : Surroundings} (kind : String) (nodes : List Node) :
    Balanced base (nodes.map (.enter kind) ++ rest) here ↔ Balanced base rest here := by
  induction nodes with
  | nil => rfl
  | cons c nodes ih => exact ih

/-- Declarations never open or close anything that the work does not know of. -/
theorem Balanced.bindAll {base : Surroundings} {scopes : Scopes} {classes : List ClassContext}
    (h : Balanced base rest ⟨scopes, classes⟩) (vars : List Declared) :
    Balanced base rest ⟨scopes.bindAll vars, classes⟩ := by
  induction rest generalizing scopes classes with
  | nil => exact ⟨h.1, h.2.bindAll vars⟩
  | cons w rest ih =>
    cases w with
    | enter => exact ih h
    | exit n m =>
      obtain ⟨hn, hm, hrest⟩ := h
      refine ⟨Nat.le_trans hn (Scopes.depth_bindAll scopes vars), hm, ?_⟩
      cases n with
      | zero => exact ih hrest
      | succ n =>
        simp only [Scopes.leave_bindAll scopes vars (Nat.succ_pos n) hn]
        exact hrest

theorem Balanced.surround {base here : Surroundings} (st : Setting) (e : Entry)
    (h : Balanced base rest here) :
    Balanced base ((Work.exitOf? e.role).toList ++ rest) (st.surround e here) := by
  have hlen := st.classOf_length e here
  rw [Role.exitOf_eq]
  split
  · rename_i hs
    -- The exit closes the scope and the class just opened, which leaves the surroundings as before.
    obtain ⟨kind, hk⟩ := Option.isSome_iff_exists.mp hs
    have hscopes : (st.surround e here).scopes.leave 1 = here.scopes := by
      simp only [Setting.surround, hk, Option.map_some, Option.getD_some]
      exact Scopes.leave_push here.scopes kind _
    have hclasses : (st.surround e here).classes.drop (if e.role.opensClass then 1 else 0) =
        here.classes := by
      rw [← hlen]
      exact List.drop_left
    refine ⟨?_, ?_, ?_⟩
    · have hpush : 1 ≤ (here.scopes.push kind).depth := Nat.succ_le_succ (Nat.zero_le _)
      simp only [Setting.surround, hk, Option.map_some, Option.getD_some]
      exact Nat.le_trans hpush (Scopes.depth_bindAll _ _)
    · rw [← hlen]
      simp [Setting.surround]
    · simp only [hscopes, hclasses]
      exact h
  · rename_i hs
    have hk : e.role.scope? = none := by simpa [Role.opensScope] using hs
    have hc : e.role.opensClass = false := by
      cases hc : e.role.opensClass with
      | false => rfl
      | true => exact absurd (Role.opensScope_of_opensClass hc) hs
    have hnone : (st.classOf? e here).toList = [] := by simpa [hc] using hlen
    simp only [Setting.surround, hk, hnone, Option.map_none, Option.getD_none, List.nil_append,
      Option.toList_none]
    exact h.bindAll _

theorem Balanced.turn {base : Surroundings} (h : Balanced base (w :: rest) p.here)
    (hw : (st.perform w p).Yields q) : Balanced base (w.follow ++ rest) q.here := by
  rcases perform_cases hw with
    ⟨scopes, classes, rfl, rfl⟩ | ⟨parent, n, rfl, hs, rfl⟩ | ⟨e, rfl, he, hq⟩
  · exact h.2.2
  · simp only [Work.follow, hs, ↓reduceIte, List.nil_append]
    exact h
  · have hs : isSkipped (Role.under e.parent e.node.kind) = false := he
    simp only [Work.follow, hs, Bool.false_eq_true, ↓reduceIte, List.append_assoc]
    rw [Balanced.children, enter_here hq]
    exact Balanced.surround st e h

theorem Turns.balanced {base : Surroundings} (h : st.Turns work p done work' q)
    (hb : Balanced base work p.here) : Balanced base work' q.here := by
  induction h with
  | start => exact hb
  | turn _ hw ih => exact ih.turn hw

/-- The loop over a stack of nodes and exits refines the recursion. It enters exactly the nodes
outside imports and the package, each once and in document order; an exit always finds open what
it closes; and a finished walk leaves the classes as they were and the scopes in their old shape. -/
theorem loop_refines_recursion (st : Setting) (parent : String) (n : Node) (p : Progress) :
    st.walk [.enter parent n] p = st.visit parent n p ∧
    (n.places parent).Pairwise (List.Lex (· < ·)) ∧
    (∀ π, π ∈ n.places parent ↔
      (∃ e, n.entryAt? parent π = some e) ∧
        ∀ σ e, σ <+: π → n.entryAt? parent σ = some e → e.IsEntered) ∧
    (∀ done work q, st.Turns [.enter parent n] p done work q →
      Work.entered done <+: (n.places parent).filterMap (n.entryAt? parent) ∧
      ∀ scopes classes rest, work = .exit scopes classes :: rest →
        scopes ≤ q.here.scopes.depth ∧ classes ≤ q.here.classes.length) ∧
    ∀ q, (st.walk [.enter parent n] p).Yields q →
      (∃ done, st.Turns [.enter parent n] p done [] q ∧
        Work.entered done = (n.places parent).filterMap (n.entryAt? parent)) ∧
      q.here.classes = p.here.classes ∧ p.here.scopes.SameShape q.here.scopes := by
  have hbase : Balanced p.here [.enter parent n] p.here := ⟨rfl, .refl _⟩
  have hentries : ∀ {done work q}, st.Turns [.enter parent n] p done work q →
      Work.entered done ++ work.flatMap pending = n.entries parent := by
    intro done work q h
    simpa [pending] using h.entered_pending
  refine ⟨walk_enter st parent n p, Node.places_sorted parent n, fun π => Node.mem_places, ?_, ?_⟩
  · intro done work q h
    refine ⟨⟨_, hentries h⟩, ?_⟩
    rintro scopes classes rest rfl
    obtain ⟨hs, hc, _⟩ := h.balanced hbase
    exact ⟨hs, hc⟩
  · intro q hq
    obtain ⟨done, h⟩ := Turns.of_walk hq
    refine ⟨⟨done, h, ?_⟩, h.balanced hbase⟩
    simpa [Node.entries] using hentries h

/-- A block in a block, at the exit of the inner one; and a declaration outside of all scopes, which
leaves behind the scope of the document and nothing else. -/
theorem loop_refines_recursion_in_blocks :
    let inner := Node.plain "block" 1 3 []
    let outer := Node.plain "block" 0 4 [inner]
    let declarator := Node.plain "variable_declarator" 4 5 [.mk "identifier" "name" true false 4 5 []]
    let declaration := Node.plain "local_variable_declaration" 4 5 [declarator]
    let st := ofText [] "{{}}x" (.plain "program" 0 5 [outer, declaration])
    let q : Progress := { here := ⟨⟨[{ kind := "block" }, { kind := "block" }]⟩, []⟩ }
    let r : Progress := { here := ⟨⟨[⟨"root", ⟨[("x", none)]⟩⟩]⟩, []⟩ }
    (st.Turns [.enter "program" outer] {} [.enter "program" outer, .enter "block" inner]
        [.exit 1 0, .exit 1 0] q ∧
      Work.entered [.enter "program" outer, .enter "block" inner] <+:
        (outer.places "program").filterMap (outer.entryAt? "program") ∧
      1 ≤ q.here.scopes.depth ∧ 0 ≤ q.here.classes.length) ∧
    (st.walk [.enter "program" declaration] {}).Yields r ∧
      r.here.classes = [] ∧ Scopes.SameShape {} r.here.scopes := by
  intro inner outer declarator declaration st q r
  have first : st.Turns [.enter "program" outer] {} [.enter "program" outer]
      [.enter "block" inner, .exit 1 0] { here := ⟨⟨[{ kind := "block" }]⟩, []⟩ } :=
    Turns.start.turn (.done _)
  have second : st.Turns [.enter "program" outer] {}
      [.enter "program" outer, .enter "block" inner] [.exit 1 0, .exit 1 0] q :=
    first.turn (.done _)
  obtain ⟨hentered, hexit⟩ := (loop_refines_recursion st "program" outer {}).2.2.2.1 _ _ _ second
  have declared : st.Turns [.enter "program" declaration] {} _
      [.enter "local_variable_declaration" declarator] r := Turns.start.turn (.done _)
  have below : st.Turns [.enter "program" declaration] {} _ [] r :=
    (declared.turn (.done _)).turn (.done _)
  have hwalk : (st.walk [.enter "program" declaration] {}).Yields r :=
    below.walk_yields (by simp)
  obtain ⟨_, hclasses, hshape⟩ := (loop_refines_recursion st "program" declaration {}).2.2.2.2 r hwalk
  exact ⟨⟨second, hentered, hexit 1 0 _ rfl⟩, hwalk, hclasses, hshape⟩

end Setting
end SourceLinks
