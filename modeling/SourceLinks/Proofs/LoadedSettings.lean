import SourceLinks.Proofs.FirstMention
import SourceLinks.Settings.Loading

namespace SourceLinks

namespace Keyed
variable {β : Type} {t : Keyed β} {key : String} {v : β}

/-- A key is given the value that it has. -/
theorem set_same (h : t.get? key = some v) : t.set key v = t := by
  obtain ⟨entries⟩ := t
  rw [get?] at h
  rw [set, mk.injEq]
  induction entries with
  | nil => cases h
  | cons e rest ih =>
    obtain ⟨k, w⟩ := e
    rw [lookup_cons_if] at h
    rw [place]
    split at h
    · rename_i hk
      rw [if_pos hk.symm, Option.some.inj h]
    · rename_i hk
      rw [if_neg fun he => hk he.symm, ih h]

theorem get_of_mem (hkeys : t.keys.Nodup) (h : (key, v) ∈ t.entries) : t.get? key = some v := by
  rw [entries_eq hkeys] at h
  obtain ⟨k, -, hk⟩ := List.mem_filterMap.mp h
  obtain ⟨w, hw, he⟩ := Option.map_eq_some_iff.mp hk
  obtain ⟨rfl, rfl⟩ := Prod.mk.injEq .. ▸ he
  exact hw

end Keyed

namespace Environment
variable {env : Environment} {key : String} {settings : List (String × String)}

/-- What a variable is after a file, which may give it a value: a value that is there and not empty
stays. -/
def keep (current given : Option String) : Option String :=
  if current.getD "" = "" then given.or current else current

/-- What a variable comes to be: what it was, if that is not empty; else the first value given for it
that is not empty; else empty, if it was set or was given a value; else unset. -/
def settled (initial : Option String) (given : List (Option String)) : Option String :=
  (initial.filter (· != "")).or <|
    ((given.filterMap id).find? (· != "")).or <|
      if initial.isSome || given.any Option.isSome then some "" else none

section Values
variable {current given : Option String} {rest : List (Option String)}

@[simp] theorem keep_none (current : Option String) : keep current none = current := by
  rw [keep, Option.none_or, ite_self]

@[simp] theorem settled_nil (initial : Option String) : settled initial [] = initial := by
  cases initial with
  | none => rfl
  | some v => by_cases hv : v = "" <;> simp [settled, hv, Option.filter]

/-- The files in turn make of a variable what they make of it all at once. -/
theorem settled_cons (initial given : Option String) (rest : List (Option String)) :
    settled initial (given :: rest) = settled (keep initial given) rest := by
  cases initial with
  | none =>
    cases given with
    | none => simp [settled, keep]
    | some w => by_cases hw : w = "" <;> simp [settled, keep, hw, Option.filter]
  | some v =>
    by_cases hv : v = ""
    · cases given with
      | none => simp [settled, keep, hv, Option.filter]
      | some w => by_cases hw : w = "" <;> simp [settled, keep, hv, hw, Option.filter]
    · simp [settled, keep, hv, Option.filter]

theorem settled_none (initial : Option String) (h : ∀ g ∈ rest, g = none) :
    settled initial rest = initial := by
  induction rest with
  | nil => rw [settled_nil]
  | cons g rest ih =>
    obtain ⟨rfl, hrest⟩ := List.forall_mem_cons.mp h
    rw [settled_cons, keep_none, ih hrest]

/-- A variable that is in the end what it was has been so after the first file. -/
theorem keep_of_settled (h : settled (keep current given) rest = current) :
    keep current given = current := by
  cases current with
  | none =>
    cases given with
    | none => rfl
    | some w => by_cases hw : w = "" <;> simp [settled, keep, hw, Option.filter] at h
  | some v =>
    by_cases hv : v = ""
    · cases given with
      | none => simp
      | some w => by_cases hw : w = "" <;> simp_all [settled, keep, Option.filter]
    · simp [keep, hv]

end Values

/-- Nothing of the settings is refused for a null character. -/
def NullFree (settings : List (String × String)) : Prop :=
  ∀ e ∈ settings, '\x00' ∉ e.1.toList ++ e.2.toList

/-- Nothing of the settings is left to take over: each variable has a value, which is empty only
where the setting's is. -/
def Covers (env : Environment) (settings : List (String × String)) : Prop :=
  ∀ e ∈ settings, ∃ w, env.get? e.1 = some w ∧ (w = "" → e.2 = "")

instance : Decidable (NullFree settings) :=
  inferInstanceAs (Decidable (∀ e ∈ settings, _))

section Adopting

theorem lacks_iff : env.lacks key = true ↔ (env.get? key).getD "" = "" :=
  beq_iff_eq

theorem get_adopt (env : Environment) (e : String × String) (key : String) :
    (env.adopt false e).get? key =
      if key = e.1 then keep (env.get? key) (some e.2) else env.get? key := by
  rw [adopt, Bool.false_or, keep]
  by_cases hlacks : env.lacks e.1 = true
  · rw [if_pos hlacks, Keyed.get_set]
    split
    · rename_i hkey
      rw [hkey, if_pos (lacks_iff.mp hlacks)]
      rfl
    · rfl
  · rw [if_neg hlacks]
    split
    · rename_i hkey
      rw [hkey, if_neg (mt lacks_iff.mpr hlacks)]
    · rfl

/-- The settings of a file, in which no key stands twice, come to their variables one by one. -/
theorem get_foldl_adopt (hkeys : (settings.map Prod.fst).Nodup) (env : Environment) (key : String) :
    (settings.foldl (adopt false) env).get? key = keep (env.get? key) (settings.lookup key) := by
  induction settings generalizing env with
  | nil => rw [List.foldl_nil, List.lookup_nil, keep_none]
  | cons e rest ih =>
    obtain ⟨k, v⟩ := e
    obtain ⟨hk, hrest⟩ := List.nodup_cons.mp hkeys
    rw [List.foldl_cons, ih hrest, get_adopt, Keyed.lookup_cons_if]
    by_cases hkey : key = k
    · have hlast : rest.lookup key = none :=
        List.lookup_eq_none_iff.mpr fun e he => by
          have hne : k ≠ e.1 := fun h => hk (List.mem_map.mpr ⟨e, he, h.symm⟩)
          simp [hkey, hne]
      rw [if_pos hkey, if_pos hkey, hlast, keep_none]
    · rw [if_neg hkey, if_neg hkey]

theorem adoptAll_eq (h : NullFree settings) (env : Environment) :
    env.adoptAll false settings = (settings.foldl (adopt false) env, true) := by
  induction settings generalizing env with
  | nil => rfl
  | cons e rest ih =>
    obtain ⟨he, hrest⟩ := List.forall_mem_cons.mp h
    have haccepted : env.refuses false e = false := by
      rw [refuses, List.contains_eq_mem, decide_eq_false he, Bool.and_false]
    rw [adoptAll, haccepted, ih hrest]
    rfl

theorem adopt_covered {e : String × String} {w : String} (hw : env.get? e.1 = some w)
    (hempty : w = "" → e.2 = "") : env.adopt false e = env := by
  rw [adopt, Bool.false_or]
  split
  · rename_i hlacks
    have hnone : w = "" := by simpa [hw] using lacks_iff.mp hlacks
    rw [hempty hnone, Keyed.set_same (hnone ▸ hw)]
  · rfl

theorem foldl_adopt_covered (h : env.Covers settings) : settings.foldl (adopt false) env = env := by
  induction settings with
  | nil => rfl
  | cons e rest ih =>
    obtain ⟨⟨w, hw, hempty⟩, hrest⟩ := List.forall_mem_cons.mp h
    rw [List.foldl_cons, adopt_covered hw hempty, ih hrest]

end Adopting

/-- A file of settings that is asked for, and the files that are there at the time. -/
structure Call where
  tree : FileTree
  path : Path
deriving Repr, DecidableEq

namespace Call

/-- Takes over what the environment lacks. -/
def make (c : Call) (env : Environment) : Environment × Except LoadError Bool :=
  env.load c.tree false c.path

/-- The file is there, with this text. -/
def Reads (c : Call) (env : Environment) (text : List Char) : Prop :=
  ∃ p bytes, env.expandHome? c.tree c.path = some p ∧ c.tree.isFile p = .ok true ∧
    c.tree.read p = .ok bytes ∧ text = Utf8.decodeDropping bytes

/-- The file is looked for where the variable `HOME` says. -/
def AtHome (c : Call) : Prop :=
  c.path.anchor = "" ∧ c.path.parts.head? = some "~"

end Call

/-- Calls one after another, each with what it finds. -/
def loadAll : Environment → List Call → Environment × List (Except LoadError Bool)
  | env, [] => (env, [])
  | env, c :: rest =>
    let after := loadAll (c.make env).1 rest
    (after.1, (c.make env).2 :: after.2)

/-- Each call finds its file when its turn comes. The texts of the files are given; nothing in them
is refused. -/
def AllRead : Environment → List (Call × List Char) → Prop
  | _, [] => True
  | env, (c, text) :: rest =>
    c.Reads env text ∧ NullFree (Dotenv.parse text).entries ∧ AllRead (c.make env).1 rest

section Calls
variable {c : Call} {text : List Char} {loads : List (Call × List Char)}

theorem keys_parse_nodup (text : List Char) : (Dotenv.parse text).keys.Nodup := by
  rw [Dotenv.parse, Keyed.keys_ofList]
  exact nodup_eraseDups _

theorem make_eq (hreads : c.Reads env text) (hnull : NullFree (Dotenv.parse text).entries) :
    c.make env = ((Dotenv.parse text).entries.foldl (adopt false) env, .ok true) := by
  obtain ⟨p, bytes, hp, hfile, hbytes, rfl⟩ := hreads
  simp only [Call.make, load, hp, hfile, hbytes, adoptAll_eq hnull]

theorem get_make (hreads : c.Reads env text) (hnull : NullFree (Dotenv.parse text).entries)
    (key : String) :
    (c.make env).1.get? key = keep (env.get? key) ((Dotenv.parse text).get? key) := by
  rw [make_eq hreads hnull]
  exact get_foldl_adopt (keys_parse_nodup text) env key

theorem make_covered (hreads : c.Reads env text) (hnull : NullFree (Dotenv.parse text).entries)
    (hcovers : env.Covers (Dotenv.parse text).entries) : c.make env = (env, .ok true) := by
  rw [make_eq hreads hnull, foldl_adopt_covered hcovers]

/-- A file leaves nothing of itself to take over. -/
theorem covers_own (hreads : c.Reads env text) (hnull : NullFree (Dotenv.parse text).entries) :
    (c.make env).1.Covers (Dotenv.parse text).entries := by
  intro e he
  rw [get_make hreads hnull, Keyed.get_of_mem (keys_parse_nodup text) he, keep]
  split
  · exact ⟨e.2, rfl, id⟩
  · rename_i hvalue
    obtain ⟨w, hw⟩ : ∃ w, env.get? e.1 = some w :=
      Option.ne_none_iff_exists'.mp fun hnone => hvalue (by rw [hnone, Option.getD_none])
    exact ⟨w, hw, fun hempty => absurd (by rw [hw, hempty, Option.getD_some]) hvalue⟩

/-- What is taken over from another file leaves no more to take over. -/
theorem Covers.make (h : env.Covers settings) (hreads : c.Reads env text)
    (hnull : NullFree (Dotenv.parse text).entries) : (c.make env).1.Covers settings := by
  intro e he
  obtain ⟨w, hw, hempty⟩ := h e he
  rw [get_make hreads hnull, hw, keep]
  split
  · rename_i hnone
    have hsetting := hempty hnone
    cases (Dotenv.parse text).get? e.1 with
    | none => exact ⟨w, rfl, hempty⟩
    | some v => exact ⟨v, rfl, fun _ => hsetting⟩
  · exact ⟨w, rfl, hempty⟩

theorem Covers.loadAll (h : env.Covers settings) (hloads : AllRead env loads) :
    (env.loadAll (loads.map Prod.fst)).1.Covers settings := by
  induction loads generalizing env with
  | nil => exact h
  | cons l rest ih =>
    obtain ⟨hreads, hnull, hrest⟩ := hloads
    exact ih (h.make hreads hnull) hrest

/-- Where no home directory is asked for, or the same as before, the same file is meant. -/
theorem expandHome_congr {env' : Environment}
    (h : c.AtHome → env.get? "HOME" = env'.get? "HOME") :
    env.expandHome? c.tree c.path = env'.expandHome? c.tree c.path := by
  obtain ⟨tree, anchor, parts⟩ := c
  simp only [expandHome?]
  split
  · rename_i first rest
    split
    · rename_i user hfirst
      cases user with
      | nil =>
        have hhome : Call.AtHome ⟨tree, "", first :: rest⟩ :=
          ⟨rfl, congrArg some (String.toList_inj.mp hfirst)⟩
        simp only [List.isEmpty_nil, if_true, h hhome]
      | cons u us => rfl
    · rfl
  · rfl

theorem Call.Reads.congr {env' : Environment} (hreads : c.Reads env text)
    (h : c.AtHome → env'.get? "HOME" = env.get? "HOME") : c.Reads env' text := by
  obtain ⟨p, bytes, hp, hfile⟩ := hreads
  exact ⟨p, bytes, (expandHome_congr h).trans hp, hfile⟩

theorem get_loadAll (hloads : AllRead env loads) (key : String) :
    (env.loadAll (loads.map Prod.fst)).1.get? key =
      settled (env.get? key) (loads.map fun l => (Dotenv.parse l.2).get? key) := by
  induction loads generalizing env with
  | nil => exact (settled_nil _).symm
  | cons l rest ih =>
    obtain ⟨hreads, hnull, hrest⟩ := hloads
    refine (ih hrest).trans ?_
    rw [get_make hreads hnull, ← settled_cons]
    rfl

theorem found_loadAll (hloads : AllRead env loads) :
    ∀ found ∈ (env.loadAll (loads.map Prod.fst)).2, found = .ok true := by
  induction loads generalizing env with
  | nil => exact List.forall_mem_nil _
  | cons l rest ih =>
    obtain ⟨hreads, hnull, hrest⟩ := hloads
    refine List.forall_mem_cons.mpr ⟨?_, ih hrest⟩
    rw [make_eq hreads hnull]

/-- What a call has read it finds again in the end, with nothing left to take over. -/
theorem covers_loads (hloads : AllRead env loads) :
    let last := (env.loadAll (loads.map Prod.fst)).1
    ∀ l ∈ loads, NullFree (Dotenv.parse l.2).entries ∧ last.Covers (Dotenv.parse l.2).entries ∧
      ((l.1.AtHome → last.get? "HOME" = env.get? "HOME") → l.1.Reads last l.2) := by
  induction loads generalizing env with
  | nil => exact List.forall_mem_nil _
  | cons l rest ih =>
    obtain ⟨hreads, hnull, hrest⟩ := hloads
    refine List.forall_mem_cons.mpr
      ⟨⟨hnull, (covers_own hreads hnull).loadAll hrest, hreads.congr⟩, fun l' hl' => ?_⟩
    obtain ⟨hnull', hcovers, hfinds⟩ := ih hrest l' hl'
    refine ⟨hnull', hcovers, fun hhome => hfinds fun hat => ?_⟩
    -- the home directory of the end is that of the start, so also that after the first call
    have hsame := hhome hat
    have hstep := get_loadAll hrest "HOME"
    rw [get_make hreads hnull] at hstep ⊢
    exact hsame.trans (keep_of_settled (hstep.symm.trans hsame)).symm

/-- Files of settings that are taken over one after another, where nothing is overridden, leave each
variable with the first value for it that is not empty, its own before those of the files; what a
file gives for it is what the parsed text has. Without such a value it is empty if it was set or a
file names it. What no file names stays, and asking for any of the files again changes nothing at
all, unless a path at home leads elsewhere because the files gave `HOME` a value that it lacked. -/
theorem first_values_stay (hloads : AllRead env loads) :
    let calls := loads.map Prod.fst
    let last := (env.loadAll calls).1
    (∀ found ∈ (env.loadAll calls).2, found = .ok true) ∧
    (∀ key, last.get? key =
      settled (env.get? key) (loads.map fun l => (Dotenv.parse l.2).get? key)) ∧
    (∀ key, (∀ l ∈ loads, (Dotenv.parse l.2).get? key = none) → last.get? key = env.get? key) ∧
    ∀ l ∈ loads, (l.1.AtHome → last.get? "HOME" = env.get? "HOME" ∨ l.1.Reads last l.2) →
      l.1.make last = (last, .ok true) := by
  refine ⟨found_loadAll hloads, get_loadAll hloads, fun key hunnamed => ?_, fun l hl hhome => ?_⟩
  · rw [get_loadAll hloads, settled_none _ (List.forall_mem_map.mpr hunnamed)]
  · obtain ⟨hnull, hcovers, hfinds⟩ := covers_loads hloads l hl
    by_cases hreads : l.1.Reads (env.loadAll (loads.map Prod.fst)).1 l.2
    · exact make_covered hreads hnull hcovers
    · exact make_covered (hfinds fun hat => (hhome hat).resolve_right hreads) hnull hcovers

end Calls

section TwoFiles

/-- A file with an empty value and a key that stands twice, and one with other values. -/
def firstText : List Char := "A=\nB=\nB=one\nC=".toList

def secondText : List Char := "A=two\nB=three\nC=four\nD=".toList

def files : FileTree where
  entries := [(["srv", "first"], .file (Utf8.encode firstText)),
    (["home", "second"], .file (Utf8.encode secondText))]

def twoFiles : List (Call × List Char) :=
  [(⟨files, Path.ofString "/srv/first"⟩, firstText), (⟨files, Path.ofString "~/second"⟩, secondText)]

def started : Environment :=
  ⟨[("HOME", "/home"), ("C", "five"), ("E", "")]⟩

theorem first_values_stay_over_two_files :
    AllRead started twoFiles ∧
    (let last := (started.loadAll (twoFiles.map Prod.fst)).1
    ["A", "B", "C", "D", "E", "F"].map last.get? =
      [some "two", some "one", some "five", some "", some "", none] ∧
    ∀ l ∈ twoFiles, l.1.make last = (last, .ok true)) := by
  have hfirst : Call.Reads ⟨files, Path.ofString "/srv/first"⟩ started firstText :=
    ⟨⟨"/", ["srv", "first"]⟩, Utf8.encode firstText, by decide +kernel⟩
  have hsecond : Call.Reads ⟨files, Path.ofString "~/second"⟩
      (Call.make ⟨files, Path.ofString "/srv/first"⟩ started).1 secondText :=
    ⟨⟨"/", ["home", "second"]⟩, Utf8.encode secondText, by decide +kernel⟩
  have hloads : AllRead started twoFiles :=
    ⟨hfirst, by decide +kernel, hsecond, by decide +kernel, trivial⟩
  obtain ⟨-, hvalues, -, hagain⟩ := first_values_stay hloads
  refine ⟨hloads, ?_, fun l hl => hagain l hl fun _ => .inl ?_⟩
  · rw [List.map_congr_left fun key _ => hvalues key]
    decide +kernel
  · rw [hvalues]
    decide +kernel

end TwoFiles

section MovingHome

/-- Without a home directory the path leads to a file of the current directory. This one makes
another home, where the same path leads to another file. -/
def movingHome : Call where
  tree := {
    entries := [(["work", "first.env"], .file (Utf8.encode "HOME=second\n".toList)),
      (["work", "second", "proc", "self", "cwd", "first.env"],
        .file (Utf8.encode "XREF_WORKERS=2\n".toList))]
    here := ["work"] }
  path := Path.ofString "~/proc/self/cwd/first.env"

/-- A call that is made again can change the environment. -/
theorem repeated_call_follows_home :
    let homeless : Environment := ⟨[("HOME", "")]⟩
    let last := (homeless.loadAll [movingHome]).1
    AllRead homeless [(movingHome, "HOME=second\n".toList)] ∧ last = ⟨[("HOME", "second")]⟩ ∧
      movingHome.make last = (⟨[("HOME", "second"), ("XREF_WORKERS", "2")]⟩, .ok true) ∧
      (movingHome.make last).1 ≠ last := by
  intro homeless last
  have hreads : movingHome.Reads homeless "HOME=second\n".toList :=
    ⟨⟨"/", ["proc", "self", "cwd", "first.env"]⟩, Utf8.encode "HOME=second\n".toList,
      by decide +kernel⟩
  exact ⟨⟨hreads, by decide +kernel, trivial⟩, by decide +kernel⟩

end MovingHome

end Environment
end SourceLinks
