import SourceLinks.Proofs.Inquiry
import SourceLinks.Resolver.Walk

namespace SourceLinks

/-- A node as a walk meets it: together with the kind of its parent. -/
structure Entry where
  parent : String
  node : Node

namespace Entry

def role (e : Entry) : Role :=
  Role.under e.parent e.node.kind

/-- The walk enters the node and does not pass over it. -/
def IsEntered (e : Entry) : Prop :=
  Setting.isSkipped e.role = false

end Entry

/-- A named node, in no particular role of its parent. -/
def Node.plain (kind : String) (start stop : Nat) (children : List Node) : Node :=
  ⟨kind, "", true, false, start, stop, children⟩

namespace Work

/-- The node that doing an item enters. -/
def entry? : Work → Option Entry
  | .enter parent node =>
    if Setting.isSkipped (Role.under parent node.kind) then none else some ⟨parent, node⟩
  | .exit .. => none

/-- The nodes that items enter, in the order of the items. -/
def entered (done : List Work) : List Entry :=
  done.filterMap entry?

@[simp] theorem entered_nil : entered [] = [] := rfl

@[simp] theorem entered_snoc (done : List Work) (w : Work) :
    entered (done ++ [w]) = entered done ++ w.entry?.toList := by
  cases h : w.entry? <;> simp [entered, h]

end Work

namespace Setting
variable {st : Setting} {work work' more rest done done' : List Work} {w : Work} {p q r : Progress}

/-- The turns that a walk can take from some work and progress: the items `done` one after another,
with what is then left of the work and the progress then made. -/
inductive Turns (st : Setting) (work : List Work) (p : Progress) :
    List Work → List Work → Progress → Prop where
  | start : Turns st work p [] work p
  | turn {done rest : List Work} {w : Work} {q r : Progress} (h : Turns st work p done (w :: rest) q)
      (hw : (st.perform w q).Yields r) : Turns st work p (done ++ [w]) (w.follow ++ rest) r

/-- What no item breaks holds all along a walk. -/
theorem Turns.invariant {P : Progress → Prop}
    (step : ∀ w p q, P p → (st.perform w p).Yields q → P q)
    (h : st.Turns work p done work' q) (hp : P p) : P q := by
  induction h with
  | start => exact hp
  | turn _ hw ih => exact step _ _ _ ih hw

theorem Turns.trans (h : st.Turns work p done work' q) (h' : st.Turns work' q done' more r) :
    st.Turns work p (done ++ done') more r := by
  induction h' with
  | start => simpa using h
  | turn _ hw ih =>
    rw [← List.append_assoc]
    exact ih.turn hw

/-- Work below that of a walk waits untouched. -/
theorem Turns.above (h : st.Turns work p done work' q) (more : List Work) :
    st.Turns (work ++ more) p done (work' ++ more) q := by
  induction h with
  | start => exact .start
  | turn _ hw ih =>
    rw [List.append_assoc]
    exact ih.turn hw

@[simp] theorem walk_nil (st : Setting) (p : Progress) : st.walk [] p = .done p := by
  rw [walk, Inquiry.pure_eq]

theorem walk_cons (st : Setting) (w : Work) (rest : List Work) (p : Progress) :
    st.walk (w :: rest) p = (st.perform w p >>= st.walk (w.follow ++ rest)) := by
  rw [walk]

/-- Every run of the loop is a sequence of turns that leaves no work. -/
theorem Turns.of_walk (h : (st.walk work p).Yields q) : ∃ done, st.Turns work p done [] q := by
  induction work, p using walk.induct with
  | case1 p =>
    rw [walk_nil, Inquiry.yields_done] at h
    subst h
    exact ⟨[], .start⟩
  | case2 w rest p ih =>
    rw [walk_cons, Inquiry.yields_bind] at h
    obtain ⟨m, hm, hq⟩ := h
    obtain ⟨done, ht⟩ := ih m hq
    have first : st.Turns (w :: rest) p [w] (w.follow ++ rest) m := Turns.start.turn hm
    exact ⟨[w] ++ done, first.trans ht⟩

/-- The loop goes on from wherever some turns have led. -/
theorem Turns.walk_yields (h : st.Turns work p done work' q) (hr : (st.walk work' q).Yields r) :
    (st.walk work p).Yields r := by
  induction h with
  | start => exact hr
  | turn _ hw ih =>
    apply ih
    rw [walk_cons, Inquiry.yields_bind]
    exact ⟨_, hw, hr⟩

/-- A pass over a tree of some text, with these archives loaded. -/
def ofText (archives : List Archive) (text : String) (root : Node) : Setting where
  corpus := ⟨archives⟩
  source := { document := ⟨text.toList, "demo/Main", "demo.jar"⟩, root }
  config := {}

/-- The work of a pass: its top-level nodes. -/
def topWork (st : Setting) : List Work :=
  st.source.root.children.map (.enter st.source.root.kind)

/-- A pass can have done these items, with this work left and this progress made. -/
def Standing (st : Setting) (done work : List Work) (p : Progress) : Prop :=
  ∃ start, st.importPass.Yields start ∧ st.Turns st.topWork start done work p

/-- The pass can enter this node, as its node number `k` from zero, with progress `p` before the
node's own effects and `q` after them. -/
def Enters (st : Setting) (k : Nat) (e : Entry) (p q : Progress) : Prop :=
  ∃ done rest, st.Standing done (.enter e.parent e.node :: rest) p ∧
    (Work.entered done).length = k ∧ e.IsEntered ∧ (st.enter e.parent e.node p).Yields q

theorem Standing.invariant {P : Progress → Prop}
    (start : ∀ p, st.importPass.Yields p → P p)
    (step : ∀ w p q, P p → (st.perform w p).Yields q → P q)
    (h : st.Standing done work p) : P p := by
  obtain ⟨p₀, hp₀, ht⟩ := h
  exact ht.invariant step (start p₀ hp₀)

theorem perform_enter {e : Entry} (he : e.IsEntered) (st : Setting) (p : Progress) :
    st.perform (.enter e.parent e.node) p = st.enter e.parent e.node p := by
  have hs : isSkipped (Role.under e.parent e.node.kind) = false := he
  simp [perform, hs]

/-- What an item can do: close what a node opened, pass over a node, or enter it. -/
theorem perform_cases (h : (st.perform w p).Yields q) :
    (∃ scopes classes, w = .exit scopes classes ∧ q = p.close scopes classes) ∨
    (∃ parent n, w = .enter parent n ∧ isSkipped (Role.under parent n.kind) = true ∧ q = p) ∨
    ∃ e : Entry, w = .enter e.parent e.node ∧ e.IsEntered ∧ (st.enter e.parent e.node p).Yields q := by
  cases w with
  | exit scopes classes =>
    simp only [perform, Inquiry.pure_eq, Inquiry.yields_done] at h
    exact .inl ⟨scopes, classes, rfl, h⟩
  | enter parent n =>
    cases hs : isSkipped (Role.under parent n.kind) with
    | true =>
      simp only [perform, hs, ↓reduceIte, Inquiry.pure_eq, Inquiry.yields_done] at h
      exact .inr (.inl ⟨parent, n, rfl, hs, h⟩)
    | false =>
      rw [perform_enter (e := ⟨parent, n⟩) hs] at h
      exact .inr (.inr ⟨⟨parent, n⟩, rfl, hs, h⟩)

/-- What no import breaks holds after the imports. -/
theorem walkImports_invariant {P : Progress → Prop}
    (step : ∀ d p q, P p → (st.linkImport p d).Yields q → P q) {ds : List Import}
    (h : (st.walkImports ds p).Yields q) (hp : P p) : P q := by
  induction ds generalizing p with
  | nil =>
    simp only [walkImports, Inquiry.pure_eq, Inquiry.yields_done] at h
    subst h
    exact hp
  | cons d ds ih =>
    simp only [walkImports, Inquiry.yields_bind] at h
    obtain ⟨m, hm, hq⟩ := h
    exact ih hq (step d p m hp hm)

theorem importPass_invariant {P : Progress → Prop}
    (step : ∀ d p q, P p → (st.linkImport p d).Yields q → P q)
    (h : st.importPass.Yields p) (start : P {}) : P p := by
  unfold importPass at h
  split at h
  · exact walkImports_invariant step h start
  · rw [Inquiry.pure_eq, Inquiry.yields_done] at h
    subst h
    exact start

/-- The top-level nodes that a cancelled pass still walks are the first of its work. -/
theorem Turns.of_walkTop {cancelled : Nat → Bool} {parent : String} {i : Nat} {nodes : List Node}
    {stopped : Bool} (h : (st.walkTop cancelled parent i nodes p).Yields (q, stopped)) :
    ∃ done work, st.Turns (nodes.map (.enter parent)) p done work q := by
  induction nodes generalizing i p with
  | nil =>
    simp only [walkTop, Inquiry.pure_eq, Inquiry.yields_done, Prod.mk.injEq] at h
    rw [h.1]
    exact ⟨[], _, .start⟩
  | cons c rest ih =>
    rw [walkTop] at h
    split at h
    · simp only [Inquiry.pure_eq, Inquiry.yields_done, Prod.mk.injEq] at h
      rw [h.1]
      exact ⟨[], _, .start⟩
    · rw [Inquiry.yields_bind] at h
      obtain ⟨m, hm, hq⟩ := h
      obtain ⟨first, hfirst⟩ := Turns.of_walk hm
      obtain ⟨done, work, ht⟩ := ih hq
      exact ⟨first ++ done, work, (hfirst.above (rest.map (.enter parent))).trans ht⟩

/-- Where a pass ends, cancelled or not, is a place where it stands. -/
theorem Standing.of_resolve {cancelled : Nat → Bool} {stopped : Bool}
    (h : (st.resolve cancelled).Yields (p, stopped)) : ∃ done work, st.Standing done work p := by
  rw [resolve, Inquiry.yields_bind] at h
  obtain ⟨start, hs, hp⟩ := h
  obtain ⟨done, work, ht⟩ := Turns.of_walkTop hp
  exact ⟨done, work, start, hs, ht⟩

end Setting
end SourceLinks
