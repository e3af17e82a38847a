import SourceLinks.Proofs.Inquiry
import SourceLinks.Proofs.Scopes

namespace SourceLinks
variable {α β : Type}

/-- What is said of each class of each archive, whenever it is asked. -/
abbrev Answers := String → String → Answer

namespace Inquiry
variable {answers : Answers}

/-- What an inquiry comes to if the same question always gets the same answer. -/
def answered (answers : Answers) : Inquiry α → α
  | .done a => a
  | .note _ next => next.answered answers
  | .ask archive name next => (next (answers archive name)).answered answers

@[simp] theorem answered_done (a : α) : (Inquiry.done a).answered answers = a := rfl

@[simp] theorem answered_note (line : LogLine) (next : Inquiry α) :
    (Inquiry.note line next).answered answers = next.answered answers := rfl

@[simp] theorem answered_ask (archive name : String) (next : Answer → Inquiry α) :
    (Inquiry.ask archive name next).answered answers =
      (next (answers archive name)).answered answers := rfl

@[simp] theorem answered_bind (q : Inquiry α) (f : α → Inquiry β) :
    (q >>= f).answered answers = (f (q.answered answers)).answered answers := by
  induction q with
  | done a => rfl
  | note line next ih => simpa using ih
  | ask archive name next ih => simpa using ih (answers archive name)

@[simp] theorem answered_log (line : LogLine) : (log line).answered answers = () := rfl

/-- What holds for all answers holds for these. -/
theorem answered_yields (q : Inquiry α) (answers : Answers) : q.Yields (q.answered answers) := by
  induction q with
  | done a => exact .done a
  | note line next ih => exact .note ih
  | ask archive name next ih => exact .ask (answers archive name) (ih _)

end Inquiry

namespace Attempt
variable {answers : Answers}

/-- What an attempt comes to, or the crash that ends it. -/
def answered (answers : Answers) (q : Attempt α) : Except ReaderCrash α :=
  Inquiry.answered answers q.run

@[simp] theorem answered_pure (a : α) : Attempt.answered answers (pure a : Attempt α) = .ok a := rfl

@[simp] theorem answered_structureOf (archive name : String) :
    (Attempt.structureOf archive name).answered answers = answers archive name := rfl

theorem answered_bind (q : Attempt α) (f : α → Attempt β) :
    Attempt.answered answers (q >>= f) =
      match q.answered answers with
      | .ok a => (f a).answered answers
      | .error crash => .error crash := by
  unfold Attempt.answered
  rw [ExceptT.run_bind, Inquiry.answered_bind]
  cases q.run.answered answers <;> rfl

theorem answered_bind_ok {q : Attempt α} {a : α} (h : q.answered answers = .ok a)
    (f : α → Attempt β) : Attempt.answered answers (q >>= f) = (f a).answered answers := by
  rw [answered_bind, h]

end Attempt

namespace Archive

/-- Reading a class changes what the archive keeps, and nothing that it says. -/
theorem structureOf_again (a : Archive) (name other : String) :
    ((a.structureOf name).2.1.structureOf other).1 = (a.structureOf other).1 := by
  cases hkept : a.structures.get? name with
  | some kept => simp only [structureOf, hkept]
  | none =>
    cases hread : a.readClass name with
    | error crash => simp only [structureOf, hkept, hread]
    | ok reading =>
      have hother : Archive.readClass { a with
          structures := a.structures.set name reading.structure? } other = a.readClass other := rfl
      simp only [structureOf, hkept, hread, Keyed.get_set, hother]
      by_cases h : other = name
      · subst h
        simp [hkept, hread]
      · simp only [h, ↓reduceIte]
        cases a.structures.get? other with
        | some kept => rfl
        | none => cases a.readClass other <;> rfl

theorem structureOf_id (a : Archive) (name : String) : (a.structureOf name).2.1.id = a.id := by
  unfold structureOf
  split
  · rfl
  · split <;> rfl

end Archive

namespace Corpus

theorem get_id {c : Corpus} {id : String} {a : Archive} (h : c.get? id = some a) : a.id = id := by
  simpa using List.find?_some h

theorem get_replace {c : Corpus} {a b : Archive} (h : c.get? a.id = some b) (id : String) :
    (c.replace a).get? id = if id = a.id then some a else c.get? id := by
  have hids : (fun d : Archive => (if d.id == a.id then a else d).id == id) =
      fun d => d.id == id := by
    funext d
    split
    · rename_i hd
      rw [beq_iff_eq.mp hd]
    · rfl
  simp only [get?, replace, List.find?_map, Function.comp_def, hids]
  split
  · rename_i hid
    subst hid
    have hb := get_id h
    simp only [get?] at h
    simp [h, hb]
  · rename_i hid
    cases hd : c.archives.find? fun d => d.id == id with
    | none => rfl
    | some d =>
      have hne : d.id ≠ a.id := by
        rw [show d.id = id by simpa using List.find?_some hd]
        exact hid
      simp [hne]

/-- What the corpus says of each class, as long as nothing is loaded. -/
def answers (c : Corpus) : Answers :=
  fun archive name => (c.structureOf archive name).1

theorem answers_eq (c : Corpus) (archive name : String) :
    c.answers archive name =
      match c.get? archive with
      | none => .ok none
      | some a => (a.structureOf name).1 := by
  unfold answers structureOf
  cases c.get? archive <;> rfl

/-- Asking leaves all answers as they are, so the structures that are kept do not matter. -/
theorem answers_structureOf (c : Corpus) (archive name : String) :
    (c.structureOf archive name).2.1.answers = c.answers := by
  cases hget : c.get? archive with
  | none => simp [structureOf, hget]
  | some a =>
    have hid : (a.structureOf name).2.1.id = archive := by
      rw [a.structureOf_id, get_id hget]
    have hafter : (c.structureOf archive name).2.1 = c.replace (a.structureOf name).2.1 := by
      simp [structureOf, hget]
    funext id other
    rw [hafter, answers_eq, answers_eq, get_replace (by rw [hid]; exact hget), hid]
    by_cases h : id = archive
    · subst h
      simp [hget, a.structureOf_again]
    · simp [h]

end Corpus

/-- A run over a corpus comes to what the corpus answers. -/
theorem Inquiry.run_answered (q : Inquiry α) (c : Corpus) : (q.run c).1 = q.answered c.answers := by
  induction q generalizing c with
  | done a => rfl
  | note line next ih => exact ih c
  | ask archive name next ih =>
    calc ((Inquiry.ask archive name next).run c).1
        = ((next (c.answers archive name)).run (c.structureOf archive name).2.1).1 := rfl
      _ = (next (c.answers archive name)).answered (c.structureOf archive name).2.1.answers := ih _ _
      _ = (next (c.answers archive name)).answered c.answers := by rw [c.answers_structureOf]

namespace ClassFile

/-- A number in two octets. -/
def short (n : Nat) : List UInt8 :=
  [UInt8.ofNat (n / 256), UInt8.ofNat n]

/-- A text of plain characters as a slot of the constant pool. -/
def textSlot (text : String) : List UInt8 :=
  1 :: short text.length ++ text.toList.map fun c => UInt8.ofNat c.toNat

/-- The octets of a class that has these methods and nothing else. -/
def plain (name super : String) (methods : List Method) : List UInt8 :=
  let texts := methods.flatMap fun m => textSlot m.name ++ textSlot m.descriptor
  let members := (List.range methods.length).flatMap fun i =>
    [0, 0] ++ short (5 + 2 * i) ++ short (6 + 2 * i) ++ [0, 0]
  [0xCA, 0xFE, 0xBA, 0xBE, 0, 0, 0, 52] ++ short (5 + 2 * methods.length) ++ textSlot name ++
    [7, 0, 1] ++ textSlot super ++ [7, 0, 3] ++ texts ++ [0, 0, 0, 2, 0, 4, 0, 0, 0, 0] ++
    short methods.length ++ members ++ [0, 0]

end ClassFile

/-- The same archive with a reader that crashes on every class. -/
def Archive.faulty (a : Archive) : Archive :=
  { a with reader := .crashing }

/-- Two classes. The first inherits from the second, whose only method returns the first. -/
def Archive.pair : Archive where
  id := "demo.jar"
  entries := ⟨[
    ("demo/Main.class", ClassFile.plain "demo/Main" "demo/Base" []),
    ("demo/Base.class", ClassFile.plain "demo/Base" "java/lang/Object" [⟨"next", "()Ldemo/Main;"⟩])]⟩

theorem Corpus.answers_pair_absent {archive name : String}
    (hmain : ¬ (archive = "demo.jar" ∧ name = "demo/Main"))
    (hbase : ¬ (archive = "demo.jar" ∧ name = "demo/Base")) :
    Corpus.answers ⟨[Archive.pair]⟩ archive name = .ok none := by
  by_cases ha : archive = "demo.jar"
  · subst ha
    have hbytes : Archive.pair.classBytes? name = none := by
      obtain ⟨main, base, hentries⟩ : ∃ main base, Archive.pair.entries =
          ⟨[("demo/Main" ++ ".class", main), ("demo/Base" ++ ".class", base)]⟩ := ⟨_, _, rfl⟩
      have hm : name ≠ "demo/Main" := fun h => hmain ⟨rfl, h⟩
      have hb : name ≠ "demo/Base" := fun h => hbase ⟨rfl, h⟩
      simp only [Archive.classBytes?, hentries, Keyed.get?, Keyed.lookup_cons_if, ClassName.entry,
        String.append_left_inj, hm, hb, if_false, List.lookup_nil]
    have hget : Corpus.get? ⟨[Archive.pair]⟩ "demo.jar" = some Archive.pair := rfl
    have hkept : Archive.pair.structures.get? name = none := rfl
    simp only [Corpus.answers_eq, hget, Archive.structureOf, hkept, Archive.readClass, hbytes]
    rfl
  · have hget : Corpus.get? ⟨[Archive.pair]⟩ archive = none := by
      simpa [Corpus.get?, Archive.pair] using fun h => ha h.symm
    simp [Corpus.answers_eq, hget]

end SourceLinks
