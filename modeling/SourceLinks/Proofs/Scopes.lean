import SourceLinks.Scope

namespace SourceLinks

namespace Keyed
variable {β : Type}

theorem lookup_cons_if (k x : String) (w : β) (rest : List (String × β)) :
    List.lookup x ((k, w) :: rest) = if x = k then some w else rest.lookup x := by
  by_cases h : x = k
  · subst h
    simp
  · simp [List.lookup_cons, beq_false_of_ne h, h]

theorem lookup_place (key x : String) (v : β) (entries : List (String × β)) :
    (place key v entries).lookup x = if x = key then some v else entries.lookup x := by
  induction entries with
  | nil => rw [place, lookup_cons_if]
  | cons e rest ih =>
    obtain ⟨k, w⟩ := e
    rw [place]
    split
    · rename_i hk
      subst hk
      simp only [lookup_cons_if]
      split <;> rfl
    · rename_i hk
      simp only [lookup_cons_if, ih]
      split
      · rename_i hx
        subst hx
        rw [if_neg hk]
      · rfl

@[simp] theorem get_set (t : Keyed β) (key x : String) (v : β) :
    (t.set key v).get? x = if x = key then some v else t.get? x :=
  lookup_place key x v t.entries

@[simp] theorem get_empty (x : String) : ({} : Keyed β).get? x = none := rfl

/-- The last value given for a key. -/
def lastOf (x : String) (pairs : List (String × β)) : Option β :=
  (pairs.filter fun e => e.1 == x).getLast?.map Prod.snd

@[simp] theorem lastOf_nil (x : String) : lastOf x ([] : List (String × β)) = none := rfl

theorem lastOf_append (x : String) (a b : List (String × β)) :
    lastOf x (a ++ b) = (lastOf x b).or (lastOf x a) := by
  simp only [lastOf, List.filter_append, List.getLast?_append]
  cases (b.filter fun e => e.1 == x).getLast? <;> simp

theorem get_setAll (t : Keyed β) (pairs : List (String × β)) (x : String) :
    (t.setAll pairs).get? x = (lastOf x pairs).or (t.get? x) := by
  induction pairs generalizing t with
  | nil => simp [setAll]
  | cons e rest ih =>
    have hs : t.setAll (e :: rest) = (t.set e.1 e.2).setAll rest := rfl
    have hl := lastOf_append x [e] rest
    rw [List.singleton_append] at hl
    rw [hs, ih, hl, get_set]
    by_cases h : x = e.1
    · subst h
      cases lastOf e.1 rest <;> simp [lastOf]
    · have hne : (e.1 == x) = false := by simpa using fun he => h he.symm
      simp [h, lastOf, hne]

end Keyed

namespace Scopes

/-- Declarations go into the innermost scope and leave those around it alone. -/
theorem bindAll_open (f : Frame) (rest : List Frame) (vars : List Declared) :
    bindAll ⟨f :: rest⟩ vars = ⟨{ f with bindings := f.bindings.setAll vars } :: rest⟩ := by
  induction vars generalizing f with
  | nil => rfl
  | cons v vars ih => exact ih { f with bindings := f.bindings.set v.1 v.2 }

/-- Without an open scope the first declaration opens the root scope. -/
theorem bindAll_closed (vars : List Declared) :
    bindAll ⟨[]⟩ vars = if vars = [] then ⟨[]⟩ else ⟨[⟨"root", Keyed.setAll {} vars⟩]⟩ := by
  cases vars with
  | nil => rfl
  | cons v vars => exact bindAll_open ⟨"root", Keyed.set {} v.1 v.2⟩ [] vars

theorem leave_push (s : Scopes) (kind : String) (vars : List Declared) :
    ((s.push kind).bindAll vars).leave 1 = s := by
  rw [push, bindAll_open]
  rfl

/-- The same scopes are open, in the same order, except that a root scope may have been opened
where there was none. -/
def SameShape (before after : Scopes) : Prop :=
  after.frames.map Frame.kind = before.frames.map Frame.kind ∨
    before.frames = [] ∧ after.frames.map Frame.kind = ["root"]

theorem SameShape.refl (s : Scopes) : SameShape s s := .inl rfl

theorem SameShape.bindAll {before after : Scopes} (h : SameShape before after)
    (vars : List Declared) : SameShape before (after.bindAll vars) := by
  obtain ⟨frames⟩ := after
  cases frames with
  | nil =>
    rw [bindAll_closed]
    split
    · exact h
    · rcases h with hk | ⟨_, hk⟩
      · exact .inr ⟨by simpa using hk.symm, rfl⟩
      · simp at hk
  | cons f rest =>
    rw [bindAll_open]
    rcases h with hk | ⟨hb, hk⟩
    · exact .inl (by simpa using hk)
    · exact .inr ⟨hb, by simpa using hk⟩

/-- Scopes that are left do not remember what was declared in them. -/
theorem leave_bindAll (s : Scopes) (vars : List Declared) {n : Nat} (hn : 0 < n)
    (hd : n ≤ s.depth) : (s.bindAll vars).leave n = s.leave n := by
  obtain ⟨frames⟩ := s
  cases frames with
  | nil =>
    simp only [depth, List.length_nil] at hd
    omega
  | cons f rest =>
    obtain ⟨m, rfl⟩ : ∃ m, n = m + 1 := ⟨n - 1, by omega⟩
    rw [bindAll_open]
    rfl

theorem depth_bindAll (s : Scopes) (vars : List Declared) : s.depth ≤ (s.bindAll vars).depth := by
  obtain ⟨frames⟩ := s
  cases frames with
  | nil => exact Nat.zero_le _
  | cons f rest =>
    rw [bindAll_open]
    exact Nat.le_refl _

end Scopes
end SourceLinks
