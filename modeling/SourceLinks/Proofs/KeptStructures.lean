import SourceLinks.Proofs.ClassLayout
import SourceLinks.Proofs.SharedCorpus

namespace SourceLinks

/-- The standard reader, which never crashes: octets are a class, or they are not. -/
def ClassFile.readable? (bytes : List UInt8) : Option ClassStructure :=
  (ClassFile.read bytes).toOption

namespace Archive

/-- What is asked of an archive over time: to hold one more entry, or for the structure of a class. -/
inductive Call where
  | add (entry : String) (bytes : List UInt8)
  | ask (name : String)

/-- Each entry that is added is new, where these are held at first. -/
def Call.AppendOnly (held : Keyed (List UInt8)) : List Call → Prop
  | [] => True
  | .add entry bytes :: rest => held.get? entry = none ∧ AppendOnly (held.set entry bytes) rest
  | .ask _ :: rest => AppendOnly held rest

variable {a : Archive} {read : List UInt8 → Option ClassStructure} {missed : String → Prop}
  {calls rest : List Call} {name : String}

/-- What comes of reading the octets that are held now: nothing if there are none or they are no
class. The reader makes the same of the same octets every time, and never crashes. -/
def readNow (a : Archive) (read : List UInt8 → Option ClassStructure) (name : String) :
    Option ClassStructure :=
  (a.classBytes? name).bind read

/-- The structure of a class by this reader, and the archive that keeps it. -/
def ask (a : Archive) (read : List UInt8 → Option ClassStructure) (name : String) :
    Option ClassStructure × Archive :=
  a.keepFirst name (a.readNow read name)

/-- Answers a call by this reader. -/
def serve (read : List UInt8 → Option ClassStructure) (a : Archive) : Call → Archive
  | .add entry bytes => a.add entry bytes
  | .ask name => (a.ask read name).2

def after (a : Archive) (read : List UInt8 → Option ClassStructure) (calls : List Call) : Archive :=
  calls.foldl (serve read) a

/-- The class was asked for while the archive did not hold it. -/
def Missed (a : Archive) (read : List UInt8 → Option ClassStructure) (calls : List Call)
    (name : String) : Prop :=
  ∃ before rest, calls = before ++ .ask name :: rest ∧
    (a.after read before).classBytes? name = none

theorem missed_cons {call : Call} :
    a.Missed read (call :: rest) name ↔
      call = .ask name ∧ a.classBytes? name = none ∨ (a.serve read call).Missed read rest name := by
  constructor
  · intro h
    obtain ⟨before, more, hcalls, habsent⟩ := h
    cases before with
    | nil =>
      cases hcalls
      exact .inl ⟨rfl, habsent⟩
    | cons first before =>
      cases hcalls
      exact .inr ⟨before, more, rfl, habsent⟩
  · intro h
    rcases h with ⟨rfl, habsent⟩ | ⟨before, more, rfl, habsent⟩
    · exact ⟨[], rest, rfl, habsent⟩
    · exact ⟨call :: before, more, rfl, habsent⟩

theorem not_missed_nil : ¬ a.Missed read [] name := by
  rintro ⟨before, rest, hcalls, -⟩
  simp at hcalls

/-- What is kept of a class: nothing, if it was missed; else what its octets are read as, which are
held. -/
structure Keeps (read : List UInt8 → Option ClassStructure) (missed : String → Prop) (a : Archive) :
    Prop where
  miss : ∀ name, missed name → a.structures.get? name = some none
  right : ∀ name kept, a.structures.get? name = some kept → ¬ missed name →
    a.classBytes? name ≠ none ∧ kept = a.readNow read name

theorem Keeps.start (h : a.structures = {}) : Keeps read (fun _ => False) a := by
  refine ⟨fun _ hmissed => hmissed.elim, ?_⟩
  intro name kept hkept
  rw [h, Keyed.get_empty] at hkept
  cases hkept

/-- A new entry changes nothing about the classes that are held. -/
theorem classBytes_add {entry : String} (hnew : a.entries.get? entry = none)
    (hheld : a.classBytes? name ≠ none) (bytes : List UInt8) :
    (a.add entry bytes).classBytes? name = a.classBytes? name := by
  have hne : ClassName.entry name ≠ entry := by
    rintro rfl
    exact hheld hnew
  rw [classBytes?, add, Keyed.get_set, if_neg hne]
  rfl

theorem Keeps.add {entry : String} (h : Keeps read missed a) (hnew : a.entries.get? entry = none)
    (bytes : List UInt8) : Keeps read missed (a.add entry bytes) := by
  refine ⟨h.miss, ?_⟩
  intro name kept hkept hmissed
  obtain ⟨hheld, hright⟩ := h.right name kept hkept hmissed
  rw [readNow, classBytes_add hnew hheld bytes]
  exact ⟨hheld, hright⟩

/-- A class of which something is kept, and which is not held, was missed. -/
theorem Keeps.missed_of_absent (h : Keeps read missed a) {kept : Option ClassStructure}
    (hkept : a.structures.get? name = some kept) (habsent : a.classBytes? name = none) :
    missed name := by
  by_contra hmissed
  exact (h.right name kept hkept hmissed).1 habsent

theorem Keeps.ask (h : Keeps read missed a) (name : String) :
    Keeps read (fun n => missed n ∨ name = n ∧ a.classBytes? n = none) (a.ask read name).2 := by
  cases hkept : a.structures.get? name with
  | some kept =>
    have hsame : (a.ask read name).2 = a := by simp only [Archive.ask, keepFirst, hkept]
    rw [hsame]
    refine ⟨?_, fun n kept hn hmissed => h.right n kept hn fun hm => hmissed (.inl hm)⟩
    intro n hn
    rcases hn with hmissed | ⟨rfl, habsent⟩
    · exact h.miss n hmissed
    · exact h.miss name (h.missed_of_absent hkept habsent)
  | none =>
    have hnext : (a.ask read name).2 =
        { a with structures := a.structures.set name (a.readNow read name) } := by
      simp only [Archive.ask, keepFirst, hkept]
    rw [hnext]
    refine ⟨?_, ?_⟩
    · intro n hmiss
      rcases hmiss with hmissed | ⟨rfl, habsent⟩
      · have hn := h.miss n hmissed
        have hne : n ≠ name := by
          rintro rfl
          rw [hkept] at hn
          cases hn
        rw [Keyed.get_set, if_neg hne, hn]
      · rw [Keyed.get_set, if_pos rfl, readNow, habsent]
        rfl
    · intro n kept hn hmissed
      rw [Keyed.get_set] at hn
      split at hn
      · rename_i hname
        subst hname
        exact ⟨fun habsent => hmissed (.inr ⟨rfl, habsent⟩), (Option.some.inj hn).symm⟩
      · exact h.right n kept hn fun hm => hmissed (.inl hm)

theorem ask_entries (a : Archive) (read : List UInt8 → Option ClassStructure) (name : String) :
    (a.ask read name).2.entries = a.entries := by
  have hsame := congrArg Archive.entries (a.keepFirst_unread name (a.readNow read name))
  exact hsame

theorem ask_reader (a : Archive) (read : List UInt8 → Option ClassStructure) (name : String) :
    (a.ask read name).2.reader = a.reader := by
  have hsame := congrArg Archive.reader (a.keepFirst_unread name (a.readNow read name))
  exact hsame

theorem Keeps.congr {missed' : String → Prop} (h : Keeps read missed a)
    (hsame : ∀ n, missed' n ↔ missed n) : Keeps read missed' a :=
  ⟨fun n hn => h.miss n ((hsame n).mp hn),
    fun n kept hn hmissed => h.right n kept hn fun hm => hmissed ((hsame n).mpr hm)⟩

/-- What an archive keeps after some calls. -/
theorem Keeps.after (h : Keeps read missed a) (happend : Call.AppendOnly a.entries calls) :
    Keeps read (fun n => missed n ∨ a.Missed read calls n) (a.after read calls) := by
  induction calls generalizing a missed with
  | nil => exact h.congr fun n => by simp [not_missed_nil]
  | cons call rest ih =>
    cases call with
    | add entry bytes =>
      refine (ih (h.add happend.1 bytes) happend.2).congr fun n => ?_
      simp [missed_cons, serve]
    | ask name =>
      have hrest : Call.AppendOnly (a.ask read name).2.entries rest := by
        rw [ask_entries]
        exact happend
      refine (ih (h.ask name) hrest).congr fun n => ?_
      simp [missed_cons, serve, or_assoc]

theorem Keeps.answer (h : Keeps read missed a) (name : String) :
    (missed name → (a.ask read name).1 = none) ∧
      (¬ missed name → (a.ask read name).1 = a.readNow read name) := by
  cases hkept : a.structures.get? name with
  | some kept =>
    have hanswer : (a.ask read name).1 = kept := by simp only [Archive.ask, keepFirst, hkept]
    rw [hanswer]
    refine ⟨?_, fun hmissed => (h.right name kept hkept hmissed).2⟩
    intro hmissed
    rw [h.miss name hmissed] at hkept
    exact (Option.some.inj hkept).symm
  | none =>
    have hanswer : (a.ask read name).1 = a.readNow read name := by
      simp only [Archive.ask, keepFirst, hkept]
    rw [hanswer]
    refine ⟨?_, fun _ => rfl⟩
    intro hmissed
    rw [h.miss name hmissed] at hkept
    cases hkept

/-- What is asked by the standard reader is what the archive itself answers. -/
theorem structureOf_standard (h : a.reader = .standard) (name : String) :
    (a.structureOf name).1 = .ok (a.ask ClassFile.readable? name).1 ∧
      (a.structureOf name).2.1 = (a.ask ClassFile.readable? name).2 := by
  have hread : a.answerBy a.reader.answer name = .ok (a.readNow ClassFile.readable? name) := by
    rw [answerBy, readNow, h]
    cases a.classBytes? name with
    | none => rfl
    | some bytes =>
      simp only [ClassReader.answer, Option.bind_some, ClassFile.readable?]
      cases ClassFile.read bytes <;> rfl
  have hsections := a.structureOf_sections name
  rw [hread] at hsections
  rw [ask]
  cases hkept : a.structures.get? name with
  | some kept =>
    simp only [hkept, Prod.mk.injEq] at hsections
    simpa only [keepFirst, hkept] using hsections
  | none =>
    simp only [hkept, Prod.mk.injEq] at hsections
    exact hsections

theorem after_reader (a : Archive) (read : List UInt8 → Option ClassStructure) (calls : List Call) :
    (a.after read calls).reader = a.reader := by
  induction calls generalizing a with
  | nil => rfl
  | cons call rest ih =>
    refine (ih (a.serve read call)).trans ?_
    cases call with
    | add entry bytes => rfl
    | ask name => exact a.ask_reader read name

/-- The structures of an archive are up to date, except those that were missed.

Let a new archive answer calls that add new entries and ask for structures, in any order, by any reader
that makes the same of the same octets every time and never crashes. A structure that is asked for then
is what the octets held now are read as, unless the class was asked for earlier, when the archive did
not hold it; in that case there is none, whatever was added since. With the standard reader these are
the archive's own answers. -/
theorem structures_are_current_unless_missed (a : Archive) (hnew : a.structures = {})
    (read : List UInt8 → Option ClassStructure) (calls : List Call)
    (happend : Call.AppendOnly a.entries calls) (name : String) :
    let b := a.after read calls
    (¬ a.Missed read calls name → (b.ask read name).1 = b.readNow read name) ∧
    (a.Missed read calls name → (b.ask read name).1 = none) ∧
    (a.reader = .standard → read = ClassFile.readable? →
      (b.structureOf name).1 = .ok (b.ask read name).1 ∧
      (b.structureOf name).2.1 = (b.ask read name).2) := by
  intro b
  have hkeeps : Keeps read (a.Missed read calls) b :=
    ((Keeps.start hnew).after happend).congr fun n => by rw [false_or]
  obtain ⟨hmissed, hcurrent⟩ := hkeeps.answer name
  refine ⟨hcurrent, hmissed, ?_⟩
  intro hreader hread
  subst hread
  exact structureOf_standard ((a.after_reader _ calls).trans hreader) name

/-- One class is asked for before it is added, another only afterwards. -/
theorem structures_are_current_unless_missed_of_two :
    let bytes := ClassFile.Layout.forwardNamed.bytes
    let a : Archive := { id := "demo.jar" }
    let calls := [Call.ask "demo/Main", .add "demo/Main.class" bytes, .add "demo/Item.class" bytes]
    let b := a.after ClassFile.readable? calls
    (b.structureOf "demo/Item").1 = .ok (some ⟨"demo/Main", some "Base", [⟨"run", "()V"⟩]⟩) ∧
      b.hasClass "demo/Main" = true ∧ (b.structureOf "demo/Main").1 = .ok none := by
  intro bytes a calls b
  have happend : Call.AppendOnly a.entries calls := ⟨by decide, by decide, trivial⟩
  have hfresh : ¬ a.Missed ClassFile.readable? calls "demo/Item" := by
    rintro ⟨before, rest, hcalls, -⟩
    have hmem : Call.ask "demo/Item" ∈ calls := by simp [hcalls]
    simp [calls] at hmem
  have hmiss : a.Missed ClassFile.readable? calls "demo/Main" := ⟨[], calls.tail, rfl, rfl⟩
  obtain ⟨hitem, -, hown⟩ :=
    a.structures_are_current_unless_missed rfl ClassFile.readable? calls happend "demo/Item"
  obtain ⟨-, hmain, hown'⟩ :=
    a.structures_are_current_unless_missed rfl ClassFile.readable? calls happend "demo/Main"
  have hread : b.readNow ClassFile.readable? "demo/Item" =
      some ⟨"demo/Main", some "Base", [⟨"run", "()V"⟩]⟩ := by decide +kernel
  refine ⟨?_, by decide +kernel, ?_⟩
  · rw [(hown rfl rfl).1, hitem hfresh, hread]
  · rw [(hown' rfl rfl).1, hmain hmiss]

/-- A class that was asked for before it is added has no structure afterwards, though the archive holds
it and it can be read. -/
theorem added_class_stays_missed :
    let bytes := ClassFile.Layout.forwardNamed.bytes
    let a : Archive := { id := "demo.jar" }
    let b := (a.structureOf "demo/Main").2.1.add "demo/Main.class" bytes
    a.entries.get? "demo/Main.class" = none ∧ b.classBytes? "demo/Main" = some bytes ∧
      b.readClass "demo/Main" = .ok (.readable ⟨"demo/Main", some "Base", [⟨"run", "()V"⟩]⟩) ∧
      (b.structureOf "demo/Main").1 = .ok none := by
  decide +kernel

end Archive
end SourceLinks
