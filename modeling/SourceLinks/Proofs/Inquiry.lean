import SourceLinks.Inquiry

namespace SourceLinks
variable {α β γ : Type}

namespace Inquiry

@[simp] theorem pure_eq (a : α) : (pure a : Inquiry α) = .done a := rfl

@[simp] theorem done_bind (a : α) (f : α → Inquiry β) : (Inquiry.done a >>= f) = f a := rfl

@[simp] theorem note_bind (line : LogLine) (q : Inquiry α) (f : α → Inquiry β) :
    (Inquiry.note line q >>= f) = .note line (q >>= f) := rfl

@[simp] theorem ask_bind (archive name : String) (next : Answer → Inquiry α) (f : α → Inquiry β) :
    (Inquiry.ask archive name next >>= f) = .ask archive name fun answer => next answer >>= f := rfl

theorem bind_done (q : Inquiry α) : (q >>= .done) = q := by
  induction q with
  | done a => rfl
  | note line next ih => rw [note_bind, ih]
  | ask archive name next ih =>
    rw [ask_bind]
    exact congrArg (Inquiry.ask archive name) (funext ih)

theorem bind_assoc (q : Inquiry α) (f : α → Inquiry β) (g : β → Inquiry γ) :
    (q >>= f >>= g) = (q >>= fun a => f a >>= g) := by
  induction q with
  | done a => rfl
  | note line next ih => rw [note_bind, note_bind, note_bind, ih]
  | ask archive name next ih =>
    rw [ask_bind, ask_bind, ask_bind]
    exact congrArg (Inquiry.ask archive name) (funext ih)

/-- Inquiries can be regrouped at will, so a walk may be cut anywhere. -/
instance : LawfulMonad Inquiry := LawfulMonad.mk' Inquiry
  (fun q => bind_done q)
  (fun _ _ => rfl)
  bind_assoc

/-- Some answers of the archives lead the inquiry to this result. -/
inductive Yields : Inquiry α → α → Prop where
  | done (a : α) : Yields (.done a) a
  | note {line : LogLine} {next : Inquiry α} {a : α} (h : Yields next a) : Yields (.note line next) a
  | ask {archive name : String} {next : Answer → Inquiry α} {a : α} (answer : Answer)
      (h : Yields (next answer) a) : Yields (.ask archive name next) a

@[simp] theorem yields_done {a b : α} : (Inquiry.done a).Yields b ↔ b = a := by
  constructor
  · intro h
    cases h
    rfl
  · rintro rfl
    exact .done b

theorem yields_pair {a a' : α} {b b' : β} :
    (pure (a, b) : Inquiry (α × β)).Yields (a', b') ↔ a' = a ∧ b' = b := by
  rw [pure_eq, yields_done, Prod.mk.injEq]

@[simp] theorem yields_note {line : LogLine} {next : Inquiry α} {a : α} :
    (Inquiry.note line next).Yields a ↔ next.Yields a := by
  constructor
  · intro h
    cases h with
    | note h => exact h
  · exact .note

@[simp] theorem yields_ask {archive name : String} {next : Answer → Inquiry α} {a : α} :
    (Inquiry.ask archive name next).Yields a ↔ ∃ answer, (next answer).Yields a := by
  constructor
  · intro h
    cases h with
    | ask answer h => exact ⟨answer, h⟩
  · rintro ⟨answer, h⟩
    exact .ask answer h

@[simp] theorem yields_bind {q : Inquiry α} {f : α → Inquiry β} {b : β} :
    (q >>= f).Yields b ↔ ∃ a, q.Yields a ∧ (f a).Yields b := by
  induction q with
  | done a => simp
  | note line next ih => simp [ih]
  | ask archive name next ih =>
    simp only [ask_bind, yields_ask, ih]
    constructor
    · rintro ⟨answer, a, ha, hb⟩
      exact ⟨a, ⟨answer, ha⟩, hb⟩
    · rintro ⟨a, ⟨answer, ha⟩, hb⟩
      exact ⟨answer, a, ha, hb⟩

@[simp] theorem yields_log {line : LogLine} {u : Unit} : (log line).Yields u := .note (.done ())

/-- Whatever holds for all answers holds for those of a corpus. -/
theorem run_yields (q : Inquiry α) (c : Corpus) : q.Yields (q.run c).1 := by
  induction q generalizing c with
  | done a => exact .done a
  | note line next ih => exact .note (ih c)
  | ask archive name next ih =>
    exact .ask (c.structureOf archive name).1 (ih _ (c.structureOf archive name).2.1)

end Inquiry

namespace Attempt

/-- Some answers of the archives lead the attempt to this result without a crash. -/
def Yields (q : Attempt α) (a : α) : Prop :=
  q.run.Yields (.ok a)

@[simp] theorem yields_pure {a b : α} : Attempt.Yields (pure a : Attempt α) b ↔ b = a := by
  simp [Yields]

@[simp] theorem yields_bind {q : Attempt α} {f : α → Attempt β} {b : β} :
    Attempt.Yields (q >>= f) b ↔ ∃ a, q.Yields a ∧ (f a).Yields b := by
  unfold Yields
  rw [ExceptT.run_bind, Inquiry.yields_bind]
  constructor
  · rintro ⟨outcome, ho, hb⟩
    cases outcome with
    | error why => simp at hb
    | ok a => exact ⟨a, ho, hb⟩
  · rintro ⟨a, ha, hb⟩
    exact ⟨.ok a, ha, hb⟩

end Attempt
end SourceLinks
