import SourceLinks.Proofs.LoadOrder

namespace SourceLinks
variable {α : Type}

/-- What the reader of each archive, by the archive's id, makes of octets: a structure, nothing if they
are no class, or a crash. A reader makes the same of the same octets every time. -/
abbrev Readers := String → List UInt8 → Answer

def ClassReader.answer : ClassReader → List UInt8 → Answer
  | .crashing, _ => .error ⟨⟩
  | .standard, bytes =>
    match ClassFile.read bytes with
    | .ok s => .ok (some s)
    | .error _ => .ok none

namespace Archive

/-- The same archive before anything was read from it. -/
def unread (a : Archive) : Archive :=
  { a with structures := {} }

/-- What comes of reading a class, whatever is kept of it. -/
def answerBy (a : Archive) (read : List UInt8 → Answer) (name : String) : Answer :=
  match a.classBytes? name with
  | none => .ok none
  | some bytes => read bytes

/-- Keeps what was read of a class, unless something is kept of it already, and gives what is kept. -/
def keepFirst (a : Archive) (name : String) (s : Option ClassStructure) :
    Option ClassStructure × Archive :=
  match a.structures.get? name with
  | some kept => (kept, a)
  | none => (s, { a with structures := a.structures.set name s })

theorem keepFirst_id (a : Archive) (name : String) (s : Option ClassStructure) :
    (a.keepFirst name s).2.id = a.id := by
  unfold keepFirst
  split <;> rfl

theorem keepFirst_unread (a : Archive) (name : String) (s : Option ClassStructure) :
    (a.keepFirst name s).2.unread = a.unread := by
  unfold keepFirst
  split <;> rfl

theorem keepFirst_answerBy (a : Archive) (name : String) (s : Option ClassStructure)
    (read : List UInt8 → Answer) : (a.keepFirst name s).2.answerBy read = a.answerBy read := by
  unfold keepFirst
  split <;> rfl

/-- What is asked of an archive in one go is what its sections give: look for what is kept, read
the class if there is nothing, and keep what was read. -/
theorem structureOf_sections (a : Archive) (name : String) :
    ((a.structureOf name).1, (a.structureOf name).2.1) =
      match a.structures.get? name with
      | some kept => (.ok kept, a)
      | none =>
        match a.answerBy a.reader.answer name with
        | .error crash => (.error crash, a)
        | .ok s => (.ok (a.keepFirst name s).1, (a.keepFirst name s).2) := by
  cases hkept : a.structures.get? name with
  | some kept => simp only [structureOf, hkept]
  | none =>
    have hread : a.answerBy a.reader.answer name = (a.readClass name).map Reading.structure? := by
      unfold answerBy readClass
      cases a.classBytes? name with
      | none => rfl
      | some bytes =>
        cases a.reader with
        | crashing => rfl
        | standard =>
          simp only [ClassReader.answer]
          cases ClassFile.read bytes <;> rfl
    simp only [structureOf, hkept, hread, keepFirst]
    cases a.readClass name <;> rfl

end Archive

namespace Corpus

/-- The same archives before anything was read from them. -/
def unread (c : Corpus) : Corpus :=
  c.mapArchives Archive.unread

/-- The readers that the archives have. -/
def readers (c : Corpus) : Readers := fun archive =>
  match c.get? archive with
  | none => fun _ => .ok none
  | some a => a.reader.answer

/-- What comes of reading a class of an archive, whatever is kept of it. -/
def answersBy (c : Corpus) (readers : Readers) : Answers := fun archive name =>
  match c.get? archive with
  | none => .ok none
  | some a => a.answerBy (readers archive) name

/-- What is kept of a class is what comes of reading it. -/
def Faithful (c : Corpus) (readers : Readers) : Prop :=
  ∀ archive a, c.get? archive = some a → ∀ name kept, a.structures.get? name = some kept →
    c.answersBy readers archive name = .ok kept

theorem get_unread (c : Corpus) (id : String) : c.unread.get? id = (c.get? id).map Archive.unread :=
  c.get_mapArchives (f := Archive.unread) (fun _ => rfl) id

theorem unread_faithful (c : Corpus) (readers : Readers) : c.unread.Faithful readers := by
  intro archive a ha name kept hkept
  rw [get_unread] at ha
  obtain ⟨b, _, rfl⟩ := Option.map_eq_some_iff.mp ha
  cases hkept

theorem answersBy_unread (c : Corpus) (readers : Readers) :
    c.unread.answersBy readers = c.answersBy readers := by
  funext archive name
  rw [answersBy, answersBy, get_unread]
  cases c.get? archive <;> rfl

theorem distinct_unread (c : Corpus) : c.unread.Distinct ↔ c.Distinct := by
  have hids : c.unread.archives.map Archive.id = c.archives.map Archive.id := by
    rw [unread, mapArchives, List.map_map]
    rfl
  rw [Distinct, Distinct, hids]

theorem readers_unread (c : Corpus) : c.unread.readers = c.readers := by
  funext archive
  rw [readers, readers, get_unread]
  cases c.get? archive <;> rfl

theorem replace_self (c : Corpus) (hc : c.Distinct) {id : String} {a : Archive}
    (ha : c.get? id = some a) : c.replace a = c := by
  have hsame : ∀ b ∈ c.archives, (if b.id == a.id then a else b) = b := by
    intro b hb
    split
    · rename_i hid
      exact (List.inj_on_of_nodup_map hc hb (List.mem_of_find?_eq_some ha) (beq_iff_eq.mp hid)).symm
    · rfl
  exact congrArg Corpus.mk ((List.map_congr_left hsame).trans (List.map_id' _))

/-- Asking leaves the readers as they are. -/
theorem readers_structureOf (c : Corpus) (archive name : String) :
    (c.structureOf archive name).2.1.readers = c.readers := by
  cases ha : c.get? archive with
  | none => simp only [structureOf, ha]
  | some a =>
    have hid : (a.structureOf name).2.1.id = archive := by
      rw [a.structureOf_id, get_id ha]
    have hreader : (a.structureOf name).2.1.reader = a.reader := by
      unfold Archive.structureOf
      split
      · rfl
      · split <;> rfl
    funext id
    simp only [structureOf, ha, readers]
    rw [get_replace (by rw [hid]; exact ha), hid]
    by_cases h : id = archive
    · subst h
      simp only [↓reduceIte, ha, hreader]
    · simp only [h, ↓reduceIte]

theorem distinct_structureOf (c : Corpus) (hc : c.Distinct) (archive name : String) :
    (c.structureOf archive name).2.1.Distinct := by
  cases ha : c.get? archive with
  | none =>
    simp only [structureOf, ha]
    exact hc
  | some a =>
    have hids : (c.replace (a.structureOf name).2.1).archives.map Archive.id =
        c.archives.map Archive.id := by
      rw [replace, List.map_map]
      refine List.map_congr_left fun b _ => ?_
      simp only [Function.comp_def]
      split
      · rename_i hid
        exact (beq_iff_eq.mp hid).symm
      · rfl
    simp only [structureOf, ha, Distinct, hids]
    exact hc

/-- One of the archives keeps what was read of a class. -/
def keepFirst (c : Corpus) (a : Archive) (name : String) (s : Option ClassStructure) : Corpus :=
  c.replace (a.keepFirst name s).2

section KeepFirst
variable {c : Corpus} {readers : Readers} {archive : String} {a : Archive}

theorem get_keepFirst (ha : c.get? archive = some a) (name : String) (s : Option ClassStructure)
    (id : String) :
    (c.keepFirst a name s).get? id = if id = archive then some (a.keepFirst name s).2 else c.get? id := by
  have hid : (a.keepFirst name s).2.id = archive := by
    rw [a.keepFirst_id, get_id ha]
  rw [keepFirst, get_replace (by rw [hid]; exact ha), hid]

theorem answersBy_keepFirst (ha : c.get? archive = some a) (name : String)
    (s : Option ClassStructure) (readers : Readers) :
    (c.keepFirst a name s).answersBy readers = c.answersBy readers := by
  funext id other
  rw [answersBy, answersBy, get_keepFirst ha]
  by_cases hid : id = archive
  · subst hid
    simp only [↓reduceIte, ha, Archive.keepFirst_answerBy]
  · simp only [hid, ↓reduceIte]

/-- What is kept of a class is right, whether this pass or another has read it. -/
theorem keepFirst_right (hc : c.Faithful readers) (ha : c.get? archive = some a) {name : String}
    {s : Option ClassStructure} (hs : c.answersBy readers archive name = .ok s) :
    (a.keepFirst name s).1 = s := by
  unfold Archive.keepFirst
  split
  · rename_i kept hkept
    exact Except.ok.inj ((hc archive a ha name kept hkept).symm.trans hs)
  · rfl

theorem keepFirst_faithful (hc : c.Faithful readers) (ha : c.get? archive = some a) {name : String}
    {s : Option ClassStructure} (hs : c.answersBy readers archive name = .ok s) :
    (c.keepFirst a name s).Faithful readers := by
  intro id b hb other kept hkept
  rw [answersBy_keepFirst ha]
  rw [get_keepFirst ha] at hb
  split at hb
  · rename_i hid
    subst hid
    cases hb
    unfold Archive.keepFirst at hkept
    split at hkept
    · exact hc id a ha other kept hkept
    · rw [Keyed.get_set] at hkept
      split at hkept
      · rename_i hother
        cases hkept
        rw [hother]
        exact hs
      · exact hc id a ha other kept hkept
  · exact hc id b hb other kept hkept

/-- What is kept shows nowhere else. -/
theorem unread_keepFirst (hc : c.Distinct) (ha : c.get? archive = some a) (name : String)
    (s : Option ClassStructure) : (c.keepFirst a name s).unread = c.unread := by
  have hsame : ∀ b ∈ c.archives,
      (if b.id == (a.keepFirst name s).2.id then (a.keepFirst name s).2 else b).unread = b.unread := by
    intro b hb
    split
    · rename_i hid
      rw [beq_iff_eq, a.keepFirst_id] at hid
      have hba : b = a := List.inj_on_of_nodup_map hc hb (List.mem_of_find?_eq_some ha) hid
      rw [a.keepFirst_unread, hba]
    · rfl
  rw [unread, unread, mapArchives, mapArchives, keepFirst, replace, List.map_map]
  exact congrArg Corpus.mk (List.map_congr_left hsame)

end KeepFirst
end Corpus

/-- A pass under way. It stands where the lock of an archive is free to be taken by another pass. -/
inductive Thread (α : Type) where
  /-- This is what is left to do. -/
  | going (rest : Inquiry α)
  /-- The archive keeps nothing of a class, which is going to be read. -/
  | reading (archive name : String) (next : Answer → Inquiry α)
  /-- A class has been read, and what came of it is going to be kept. -/
  | keeping (archive name : String) (s : Option ClassStructure) (next : Answer → Inquiry α)

/-- How many steps an inquiry takes at most if these are the answers. -/
def Inquiry.steps (answers : Answers) : Inquiry α → Nat
  | .done _ => 0
  | .note _ next => next.steps answers + 1
  | .ask archive name next => (next (answers archive name)).steps answers + 3

namespace Thread

def result? : Thread α → Option α
  | .going (.done a) => some a
  | _ => none

/-- What a pass does before another may come between: it looks for what an archive keeps, under the
archive's lock; it reads a class, without the lock; or it keeps what it has read, under the lock. -/
def step (readers : Readers) (c : Corpus) : Thread α → Corpus × Thread α
  | .going (.done a) => (c, .going (.done a))
  | .going (.note _ next) => (c, .going next)
  | .going (.ask archive name next) =>
    match c.get? archive with
    | none => (c, .going (next (.ok none)))
    | some a =>
      match a.structures.get? name with
      | some kept => (c, .going (next (.ok kept)))
      | none => (c, .reading archive name next)
  | .reading archive name next =>
    match c.answersBy readers archive name with
    | .ok s => (c, .keeping archive name s next)
    | .error crash => (c, .going (next (.error crash)))
  | .keeping archive name s next =>
    match c.get? archive with
    | none => (c, .going (next (.ok s)))
    | some a => (c.keepFirst a name s, .going (next (.ok (a.keepFirst name s).1)))

/-- What a pass comes to if these are the answers from now on. -/
def outlook (answers : Answers) : Thread α → α
  | .going rest => rest.answered answers
  | .reading archive name next => (next (answers archive name)).answered answers
  | .keeping _ _ s next => (next (.ok s)).answered answers

/-- How many steps a pass has still to take at most. -/
def left (answers : Answers) : Thread α → Nat
  | .going rest => rest.steps answers
  | .reading archive name next => (next (answers archive name)).steps answers + 2
  | .keeping _ _ s next => (next (.ok s)).steps answers + 1

/-- What a pass has read and not yet kept is what comes of reading. -/
def Honest (answers : Answers) : Thread α → Prop
  | .keeping archive name s _ => answers archive name = .ok s
  | _ => True

theorem eq_outlook {answers : Answers} {t : Thread α} {r : α} (h : t.result? = some r) :
    r = t.outlook answers := by
  unfold result? at h
  split at h
  · cases h
    rfl
  · cases h

theorem result_of_left {answers : Answers} {t : Thread α} (h : t.left answers = 0) :
    t.result? = some (t.outlook answers) := by
  cases t with
  | going rest =>
    cases rest with
    | done a => rfl
    | note line next => simp [left, Inquiry.steps] at h
    | ask archive name next => simp [left, Inquiry.steps] at h
  | reading archive name next => simp [left] at h
  | keeping archive name s next => simp [left] at h

/-- What one step of a pass keeps, where the archives say `answers`: the archives go on to say so, the
outlook of the pass is the same, and the pass has come a step nearer to its end. -/
structure Follows (readers : Readers) (answers : Answers) (c : Corpus) (t : Thread α)
    (after : Corpus × Thread α) : Prop where
  answers_eq : after.1.answersBy readers = answers
  faithful : after.1.Faithful readers
  unread : c.Distinct → after.1.unread = c.unread
  honest : after.2.Honest answers
  outlook : after.2.outlook answers = t.outlook answers
  left : after.2.left answers ≤ t.left answers - 1

theorem step_follows {readers : Readers} {c : Corpus} (hc : c.Faithful readers) {t : Thread α}
    (ht : t.Honest (c.answersBy readers)) :
    Follows readers (c.answersBy readers) c t (t.step readers c) := by
  cases t with
  | going rest =>
    cases rest with
    | done a => exact ⟨rfl, hc, fun _ => rfl, trivial, rfl, Nat.le_refl 0⟩
    | note line next => exact ⟨rfl, hc, fun _ => rfl, trivial, rfl, Nat.le_refl _⟩
    | ask archive name next =>
      cases ha : c.get? archive with
      | none =>
        have hanswer : c.answersBy readers archive name = .ok none := by
          simp only [Corpus.answersBy, ha]
        simp only [step, ha]
        refine ⟨rfl, hc, fun _ => rfl, trivial, ?_, ?_⟩
        · simp only [outlook, Inquiry.answered_ask, hanswer]
        · simp only [left, Inquiry.steps, hanswer]
          omega
      | some a =>
        cases hkept : a.structures.get? name with
        | some kept =>
          have hanswer := hc archive a ha name kept hkept
          simp only [step, ha, hkept]
          refine ⟨rfl, hc, fun _ => rfl, trivial, ?_, ?_⟩
          · simp only [outlook, Inquiry.answered_ask, hanswer]
          · simp only [left, Inquiry.steps, hanswer]
            omega
        | none =>
          simp only [step, ha, hkept]
          exact ⟨rfl, hc, fun _ => rfl, trivial, rfl, Nat.le_refl _⟩
  | reading archive name next =>
    cases hread : c.answersBy readers archive name with
    | ok s =>
      simp only [step, hread]
      refine ⟨rfl, hc, fun _ => rfl, hread, ?_, ?_⟩
      · simp only [outlook, hread]
      · simp only [left, hread]
        omega
    | error crash =>
      simp only [step, hread]
      refine ⟨rfl, hc, fun _ => rfl, trivial, ?_, ?_⟩
      · simp only [outlook, hread]
      · simp only [left, hread]
        omega
  | keeping archive name s next =>
    cases ha : c.get? archive with
    | none =>
      simp only [step, ha]
      exact ⟨rfl, hc, fun _ => rfl, trivial, rfl, Nat.le_refl _⟩
    | some a =>
      simp only [step, ha]
      rw [Corpus.keepFirst_right hc ha ht]
      exact ⟨Corpus.answersBy_keepFirst ha name s readers, Corpus.keepFirst_faithful hc ha ht,
        fun hd => Corpus.unread_keepFirst hd ha name s, trivial, rfl, Nat.le_refl _⟩

end Thread

/-- Passes under way over one corpus. -/
structure Sharing (α : Type) where
  corpus : Corpus
  threads : List (Thread α)

namespace Sharing
variable {readers : Readers} {answers : Answers} {s : Sharing α}

/-- The pass of this number takes a step. -/
def turn (readers : Readers) (s : Sharing α) (i : Nat) : Sharing α :=
  match s.threads[i]? with
  | none => s
  | some t => ⟨(t.step readers s.corpus).1, s.threads.set i (t.step readers s.corpus).2⟩

/-- The passes take steps in this order. -/
def run (readers : Readers) (s : Sharing α) (schedule : List Nat) : Sharing α :=
  schedule.foldl (turn readers) s

def result? (s : Sharing α) (i : Nat) : Option α :=
  s.threads[i]?.bind Thread.result?

/-- The archives say `answers`, and what they keep and the passes have read is true to it. -/
structure Sound (readers : Readers) (answers : Answers) (s : Sharing α) : Prop where
  answers_eq : s.corpus.answersBy readers = answers
  faithful : s.corpus.Faithful readers
  honest : ∀ t ∈ s.threads, t.Honest answers

/-- A pass has the same outlook in `s'` as in `s`, and is so many steps nearer to its end. -/
def Nears (answers : Answers) (s s' : Sharing α) (i steps : Nat) : Prop :=
  ∀ t, s.threads[i]? = some t → ∃ t', s'.threads[i]? = some t' ∧
    t'.outlook answers = t.outlook answers ∧ t'.left answers ≤ t.left answers - steps

/-- Whoever takes a step, the pass that does comes nearer to its end, and no pass changes its outlook. -/
theorem turn_sound (h : s.Sound readers answers) (i : Nat) :
    (s.turn readers i).Sound readers answers ∧
      (s.corpus.Distinct → (s.turn readers i).corpus.unread = s.corpus.unread) ∧
      ∀ j, Nears answers s (s.turn readers i) j (if i = j then 1 else 0) := by
  obtain ⟨rfl, hfaithful, hhonest⟩ := h
  cases hi : s.threads[i]? with
  | none =>
    have hsame : s.turn readers i = s := by simp only [turn, hi]
    rw [hsame]
    refine ⟨⟨rfl, hfaithful, hhonest⟩, fun _ => rfl, ?_⟩
    intro j t ht
    have hne : i ≠ j := by
      rintro rfl
      cases hi.symm.trans ht
    exact ⟨t, ht, rfl, by rw [if_neg hne]; exact Nat.le_refl _⟩
  | some t =>
    obtain ⟨hanswers, hfaithful', hunread, hhonest', houtlook, hleft⟩ :=
      Thread.step_follows hfaithful (hhonest t (List.mem_of_getElem? hi))
    have hturn : s.turn readers i =
        ⟨(t.step readers s.corpus).1, s.threads.set i (t.step readers s.corpus).2⟩ := by
      simp only [turn, hi]
    rw [hturn]
    refine ⟨⟨hanswers, hfaithful', ?_⟩, hunread, ?_⟩
    · intro u hu
      rcases List.mem_or_eq_of_mem_set hu with hu | rfl
      · exact hhonest u hu
      · exact hhonest'
    · intro j u hu
      by_cases hij : i = j
      · subst hij
        cases hi.symm.trans hu
        have hlt : i < s.threads.length := (List.getElem?_eq_some_iff.mp hi).1
        refine ⟨_, List.getElem?_set_self hlt, houtlook, ?_⟩
        rw [if_pos rfl]
        exact hleft
      · refine ⟨u, ?_, rfl, by rw [if_neg hij]; exact Nat.le_refl _⟩
        rw [List.getElem?_set_ne hij]
        exact hu

theorem run_sound (h : s.Sound readers answers) (schedule : List Nat) :
    (s.run readers schedule).Sound readers answers ∧
      (s.corpus.Distinct → (s.run readers schedule).corpus.unread = s.corpus.unread) ∧
      ∀ j, Nears answers s (s.run readers schedule) j (schedule.count j) := by
  induction schedule generalizing s with
  | nil => exact ⟨h, fun _ => rfl, fun j t ht => ⟨t, ht, rfl, Nat.le_refl _⟩⟩
  | cons i schedule ih =>
    obtain ⟨hsound, hunread, hnears⟩ := turn_sound h i
    obtain ⟨hsound', hunread', hnears'⟩ := ih hsound
    refine ⟨hsound', ?_, ?_⟩
    · intro hc
      have hc' : (s.turn readers i).corpus.Distinct := by
        rw [← Corpus.distinct_unread, hunread hc, Corpus.distinct_unread]
        exact hc
      exact (hunread' hc').trans (hunread hc)
    · intro j t ht
      obtain ⟨u, hu, houtlook, hleft⟩ := hnears j t ht
      obtain ⟨v, hv, houtlook', hleft'⟩ := hnears' j u hu
      refine ⟨v, hv, houtlook'.trans houtlook, ?_⟩
      rw [List.count_cons, beq_eq_decide]
      simp only [decide_eq_true_eq]
      omega

/-- A pass that has had all its steps has come to its outlook, and it comes to nothing else. -/
theorem result_of_run (h : s.Sound readers answers) {i : Nat} {t : Thread α}
    (ht : s.threads[i]? = some t) (schedule : List Nat) :
    (t.left answers ≤ schedule.count i →
        (s.run readers schedule).result? i = some (t.outlook answers)) ∧
      ∀ r, (s.run readers schedule).result? i = some r → r = t.outlook answers := by
  obtain ⟨u, hu, houtlook, hleft⟩ := (run_sound h schedule).2.2 i t ht
  have hresult : (s.run readers schedule).result? i = u.result? := by
    rw [result?, hu, Option.bind_some]
  rw [hresult, ← houtlook]
  refine ⟨fun hcount => Thread.result_of_left (by omega), fun r hr => Thread.eq_outlook hr⟩

end Sharing

/-- A pass over a document, whatever the corpus. -/
structure Pass where
  source : Source
  config : Config
  cancelled : Nat → Bool

namespace Pass

def setting (pass : Pass) (c : Corpus) : Setting :=
  { corpus := c, source := pass.source, config := pass.config }

/-- The pass over this corpus. -/
def on (pass : Pass) (c : Corpus) : Inquiry (Progress × Bool) :=
  (pass.setting c).resolve pass.cancelled

/-- What archives keep of classes makes no difference to what a pass asks. -/
theorem on_unread (pass : Pass) (c : Corpus) : pass.on c.unread = pass.on c := by
  have hagrees : (pass.setting c).Agrees (pass.setting c.unread) :=
    ⟨⟨rfl,
      fun name => c.lookup_mapArchives (f := Archive.unread) (fun _ => rfl) (fun _ => rfl) name _,
      c.chainBound_mapArchives (f := Archive.unread) fun _ => rfl⟩, rfl⟩
  exact hagrees.resolve rfl pass.cancelled

end Pass

namespace Sharing

/-- All passes before their first step. -/
def start (c : Corpus) (passes : List Pass) : Sharing (Progress × Bool) :=
  ⟨c, passes.map fun pass => .going (pass.on c)⟩

theorem start_sound {c : Corpus} {readers : Readers} (hc : c.Faithful readers) (passes : List Pass) :
    (start c passes).Sound readers (c.answersBy readers) := by
  refine ⟨rfl, hc, ?_⟩
  intro t ht
  obtain ⟨pass, _, rfl⟩ := List.mem_map.mp ht
  trivial

theorem start_at {c : Corpus} {passes : List Pass} {i : Nat} {pass : Pass} (hi : passes[i]? = some pass) :
    (start c passes).threads[i]? = some (.going (pass.on c)) := by
  rw [start, List.getElem?_map, hi, Option.map_some]

/-- A pass that nobody comes between gets from here to there. -/
def Alone (readers : Readers) (c : Corpus) (t : Thread α) (c' : Corpus) (t' : Thread α) : Prop :=
  ∃ n, Sharing.run readers ⟨c, [t]⟩ (List.replicate n 0) = ⟨c', [t']⟩

section Alone
variable {readers : Readers} {c c' d : Corpus} {t t' u : Thread α}

theorem Alone.refl (c : Corpus) (t : Thread α) : Alone readers c t c t := ⟨0, rfl⟩

theorem Alone.step (h : t.step readers c = (d, u)) (hrest : Alone readers d u c' t') :
    Alone readers c t c' t' := by
  obtain ⟨n, hn⟩ := hrest
  refine ⟨n + 1, ?_⟩
  have hturn : Sharing.turn readers ⟨c, [t]⟩ 0 = ⟨d, [u]⟩ := by
    simp only [turn, List.getElem?_cons_zero, h, List.set_cons_zero]
  rw [List.replicate_succ, run, List.foldl_cons, hturn]
  exact hn

/-- What is asked in one go is what a pass does in steps if nobody comes between. -/
theorem Alone.ask (hc : c.Distinct) (hreaders : c.readers = readers) {archive name : String}
    {next : Answer → Inquiry α}
    (hrest : Alone readers (c.structureOf archive name).2.1
      (.going (next (c.structureOf archive name).1)) c' t') :
    Alone readers c (.going (.ask archive name next)) c' t' := by
  cases ha : c.get? archive with
  | none =>
    simp only [Corpus.structureOf, ha] at hrest
    exact .step (by simp only [Thread.step, ha]) hrest
  | some a =>
    have hsame : c.replace a = c := c.replace_self hc ha
    have hread : c.answersBy readers archive name = a.answerBy a.reader.answer name := by
      simp only [Corpus.answersBy, ha, ← hreaders, Corpus.readers]
    have hsections := a.structureOf_sections name
    simp only [Corpus.structureOf, ha] at hrest
    cases hkept : a.structures.get? name with
    | some kept =>
      simp only [hkept, Prod.mk.injEq] at hsections
      rw [hsections.1, hsections.2, hsame] at hrest
      exact .step (by simp only [Thread.step, ha, hkept]) hrest
    | none =>
      simp only [hkept] at hsections
      refine .step (d := c) (u := .reading archive name next) ?_ ?_
      · simp only [Thread.step, ha, hkept]
      cases hanswer : a.answerBy a.reader.answer name with
      | error crash =>
        simp only [hanswer, Prod.mk.injEq] at hsections
        rw [hsections.1, hsections.2, hsame] at hrest
        exact .step (by simp only [Thread.step, hread, hanswer]) hrest
      | ok s =>
        simp only [hanswer, Prod.mk.injEq] at hsections
        rw [hsections.1, hsections.2] at hrest
        refine .step (d := c) (u := .keeping archive name s next) ?_ ?_
        · simp only [Thread.step, hread, hanswer]
        exact .step (by simp only [Thread.step, ha, Corpus.keepFirst]) hrest

/-- A pass that nobody comes between is a run. -/
theorem Alone.run (q : Inquiry α) (c : Corpus) (hc : c.Distinct) :
    Alone c.readers c (.going q) (q.run c).2.1 (.going (.done (q.run c).1)) := by
  induction q generalizing c with
  | done a => exact .refl _ _
  | note line next ih => exact .step rfl (ih c hc)
  | ask archive name next ih =>
    refine .ask hc rfl ?_
    rw [← c.readers_structureOf archive name]
    exact ih _ _ (c.distinct_structureOf hc archive name)

end Alone

/-- Passes over a shared corpus do not influence each other.

Let archives be loaded whose readers make the same of the same octets every time, crashes included,
and let nothing be kept of a class but what comes of reading it. Let any passes go on in any order,
each cut wherever it takes or gives back the lock of an archive. Whenever a pass has ended, it has
come to what it comes to alone on a copy from which nothing was read before; and it has ended as soon
as it has had so many steps, whatever the others did. To a pass that begins later, the corpus is the
same as to one that begins now. Alone, and with the readers that the archives have, a pass is a run. -/
theorem passes_do_not_interfere (archives : List Archive) (c : Corpus)
    (hload : Corpus.ofList archives = .ok c) (readers : Readers) (hkept : c.Faithful readers)
    (passes : List Pass) (i : Nat) (pass : Pass) (hi : passes[i]? = some pass) :
    ∃ alone steps,
      (∀ n, steps ≤ n →
        ((start c.unread [pass]).run readers (List.replicate n 0)).result? 0 = some alone) ∧
      (∀ schedule, steps ≤ schedule.count i →
        ((start c passes).run readers schedule).result? i = some alone) ∧
      (∀ schedule r, ((start c passes).run readers schedule).result? i = some r → r = alone) ∧
      (∀ schedule, pass.on ((start c passes).run readers schedule).corpus = pass.on c) ∧
      (readers = c.readers →
        alone = ((pass.on c.unread).run c.unread).1 ∧
        ∃ n, (start c.unread [pass]).run readers (List.replicate n 0) =
          ⟨((pass.on c.unread).run c.unread).2.1,
            [.going (.done ((pass.on c.unread).run c.unread).1)]⟩) := by
  obtain ⟨_, hdistinct⟩ := Corpus.ofList_ok hload
  have hshared := start_sound hkept passes
  have hfresh := start_sound (c.unread_faithful readers) [pass]
  rw [c.answersBy_unread] at hfresh
  have hresult := result_of_run hshared (start_at hi)
  have hfirst : (start c.unread [pass]).threads[0]? = some (.going (pass.on c)) := by
    rw [← pass.on_unread]
    rfl
  have hresult' := result_of_run hfresh hfirst
  refine ⟨_, _, ?_, fun schedule => (hresult schedule).1, fun schedule => (hresult schedule).2, ?_, ?_⟩
  · intro n hn
    refine (hresult' _).1 ?_
    rw [List.count_replicate_self]
    exact hn
  · intro schedule
    have hunread := (run_sound hshared schedule).2.1 hdistinct
    rw [← pass.on_unread, hunread, pass.on_unread]
    rfl
  · rintro rfl
    have halone := Alone.run (pass.on c.unread) c.unread (c.distinct_unread.mpr hdistinct)
    rw [c.readers_unread] at halone
    obtain ⟨n, hn⟩ := halone
    refine ⟨((hresult' (List.replicate n 0)).2 _ ?_).symm, n, hn⟩
    exact congrArg (·.result? 0) hn

/-- Two passes that take turns over one archive. Both find that nothing is kept of a class, and both
read it. -/
theorem passes_do_not_interfere_in_turns :
    let call := Node.plain "method_invocation" 0 11
      [.mk "identifier" "object" true false 0 4 [], .mk "identifier" "name" true false 5 9 []]
    let st := Setting.ofText [Archive.pair] "Main.next()" (.plain "program" 0 11 [call])
    let pass : Pass := ⟨st.source, st.config, fun _ => false⟩
    let s := (start st.corpus [pass, pass]).run st.corpus.readers (List.replicate 9 [0, 1]).flatten
    (∃ r, s.result? 1 = some r ∧ r = ((pass.on st.corpus).run st.corpus).1) ∧
      ((pass.on st.corpus).run st.corpus).1.1.links =
        [⟨5, 9, 1, 6, "demo.jar", "demo/Base", some "next", "method"⟩] := by
  intro call st pass s
  have hsome : (s.result? 1).isSome = true := by decide +kernel
  obtain ⟨r, hr⟩ := Option.isSome_iff_exists.mp hsome
  obtain ⟨alone, _, _, _, hresult, _, hown⟩ := passes_do_not_interfere [Archive.pair] st.corpus rfl
    st.corpus.readers (st.corpus.unread_faithful _) [pass, pass] 1 pass rfl
  refine ⟨⟨r, hr, ?_⟩, by decide +kernel⟩
  rw [hresult _ r hr]
  exact (hown rfl).1

end Sharing
end SourceLinks
