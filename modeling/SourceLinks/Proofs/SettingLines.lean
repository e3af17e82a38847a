import SourceLinks.Proofs.Lines
import SourceLinks.Settings.Dotenv

namespace SourceLinks

namespace Text
variable {front cs back line rest : List Char} {c : Char}

/-- Nothing but blanks. -/
def Blanks (cs : List Char) : Prop :=
  ∀ c ∈ cs, isBlank c = true

/-- No blank stands at either end. -/
structure Trimmed (cs : List Char) : Prop where
  head : ∀ c ∈ cs.head?, isBlank c = false
  last : ∀ c ∈ cs.getLast?, isBlank c = false

-- Only the characters of the text are looked at; left to itself, the search for an instance may
-- find the one that goes through all characters there are.
instance (cs : List Char) : Decidable (Blanks cs) :=
  List.decidableBAll (fun c => isBlank c = true) cs

instance (cs : List Char) : Decidable (Trimmed cs) :=
  have : Decidable (∀ c ∈ cs.head?, isBlank c = false) := Option.decidableForallMem _
  have : Decidable (∀ c ∈ cs.getLast?, isBlank c = false) := Option.decidableForallMem _
  decidable_of_iff ((∀ c ∈ cs.head?, isBlank c = false) ∧ ∀ c ∈ cs.getLast?, isBlank c = false)
    ⟨fun h => ⟨h.1, h.2⟩, fun h => ⟨h.head, h.last⟩⟩

section Trim

theorem trimStart_eq_nil : trimStart cs = [] ↔ Blanks cs :=
  List.dropWhile_eq_nil_iff

theorem trimStart_append (h : Blanks front) (cs : List Char) :
    trimStart (front ++ cs) = trimStart cs :=
  List.dropWhile_append_of_pos h

/-- What follows a text that is not blank has no part in the start. -/
theorem trimStart_append_of_ne_nil (h : trimStart cs ≠ []) (rest : List Char) :
    trimStart (cs ++ rest) = trimStart cs ++ rest := by
  have hleft : (cs.dropWhile isBlank).isEmpty = false := by
    rw [Bool.eq_false_iff]
    exact fun hnone => h (List.isEmpty_iff.mp hnone)
  rw [trimStart, List.dropWhile_append, hleft]
  rfl

theorem trimEnd_append (h : Blanks back) (cs : List Char) : trimEnd (cs ++ back) = trimEnd cs := by
  have hback : Blanks back.reverse := fun c hc => h c (List.mem_reverse.mp hc)
  unfold trimEnd
  rw [List.reverse_append]
  exact congrArg List.reverse (trimStart_append hback cs.reverse)

theorem trimStart_cons_append (h : isBlank c = false) (front rest : List Char) :
    trimStart (front ++ c :: rest) = trimStart front ++ c :: rest := by
  by_cases hfront : Blanks front
  · rw [trimStart_append hfront, trimStart_eq_nil.mpr hfront]
    simp [trimStart, h]
  · exact trimStart_append_of_ne_nil (mt trimStart_eq_nil.mp hfront) _

theorem trimEnd_cons_append (h : isBlank c = false) (front rest : List Char) :
    trimEnd (front ++ c :: rest) = front ++ c :: trimEnd rest := by
  have hstart := trimStart_cons_append h rest.reverse front.reverse
  rw [trimStart, trimStart] at hstart
  simp [trimEnd, hstart]

theorem trim_cons_append (h : isBlank c = false) (front rest : List Char) :
    trim (front ++ c :: rest) = trimStart front ++ c :: trimEnd rest := by
  rw [trim, trimStart_cons_append h, trimEnd_cons_append h]

/-- Every text is what is left of it without the blanks at its end, and these. -/
theorem trimEnd_split (cs : List Char) : ∃ back, Blanks back ∧ cs = trimEnd cs ++ back := by
  refine ⟨(cs.reverse.takeWhile isBlank).reverse, ?_, ?_⟩
  · intro c hc
    exact List.mem_takeWhile_imp (List.mem_reverse.mp hc)
  · rw [trimEnd, ← List.reverse_append, List.takeWhile_append_dropWhile, List.reverse_reverse]

theorem trimEnd_front (cs : List Char) : trimEnd cs <+: cs := by
  obtain ⟨back, -, hcs⟩ := trimEnd_split cs
  exact ⟨back, hcs.symm⟩

theorem trimEnd_trimEnd (cs : List Char) : trimEnd (trimEnd cs) = trimEnd cs := by
  obtain ⟨back, hback, hcs⟩ := trimEnd_split cs
  have htrim := trimEnd_append hback (trimEnd cs)
  rw [← hcs] at htrim
  exact htrim.symm

theorem trim_append (cs : List Char) (hback : Blanks back) : trim (cs ++ back) = trim cs := by
  by_cases hcs : Blanks cs
  · have hall : Blanks (cs ++ back) := fun c hc => (List.mem_append.mp hc).elim (hcs c) (hback c)
    rw [trim, trim, trimStart_eq_nil.mpr hall, trimStart_eq_nil.mpr hcs]
  · have hstart := trimStart_append_of_ne_nil (mt trimStart_eq_nil.mp hcs) back
    rw [trim, hstart, trimEnd_append hback, trim]

/-- Blanks around a text make no difference to what is left of it. -/
theorem trim_padded (hfront : Blanks front) (cs : List Char) (hback : Blanks back) :
    trim (front ++ cs ++ back) = trim cs := by
  rw [trim_append _ hback, trim, trimStart_append hfront, trim]

theorem trim_trimStart (cs : List Char) : trim (trimStart cs) = trim cs :=
  congrArg trimEnd (List.dropWhile_idempotent (p := isBlank) cs)

theorem trim_trimEnd (cs : List Char) : trim (trimEnd cs) = trim cs := by
  obtain ⟨back, hback, hcs⟩ := trimEnd_split cs
  have htrim := trim_append (trimEnd cs) hback
  rw [← hcs] at htrim
  exact htrim.symm

theorem Trimmed.trim_eq (h : Trimmed cs) : trim cs = cs := by
  have hstart : trimStart cs = cs := by
    cases cs with
    | nil => rfl
    | cons c rest => exact trimStart_cons_append (h.head c rfl) [] rest
  rw [trim, hstart]
  rcases List.eq_nil_or_concat' cs with rfl | ⟨front, c, rfl⟩
  · rfl
  · exact trimEnd_cons_append (h.last c (by simp)) front []

theorem trim_eq_nil : trim cs = [] ↔ Blanks cs := by
  constructor
  · intro h
    refine trimStart_eq_nil.mp ?_
    cases hstart : trimStart cs with
    | nil => rfl
    | cons c rest =>
      have hc := List.head?_dropWhile_not isBlank cs
      rw [← trimStart, hstart] at hc
      have hend := trimEnd_cons_append (by simpa using hc) [] rest
      rw [trim, hstart] at h
      rw [List.nil_append, h] at hend
      exact absurd hend (List.cons_ne_nil c _).symm
  · intro h
    rw [trim, trimStart_eq_nil.mpr h]
    rfl

theorem mem_of_mem_trim (h : c ∈ trim cs) : c ∈ cs :=
  (List.dropWhile_suffix isBlank).subset ((trimEnd_front _).subset h)

theorem head_trim (h : trim cs ≠ []) : (trim cs).head? = (trimStart cs).head? := by
  obtain ⟨back, -, hcs⟩ := trimEnd_split (trimStart cs)
  rw [← trim] at hcs
  rw [hcs, List.head?_append_of_ne_nil _ h]

end Trim

section Breaks

/-- What ends a line: one character, or a carriage return and a line feed together. -/
def lineBreaks : List (List Char) :=
  [['\n'], ['\r'], ['\r', '\n'], ['\x0b'], ['\x0c'], ['\x1c'], ['\x1d'], ['\x1e'], ['\u0085'],
    ['\u2028'], ['\u2029']]

/-- The characters are all of one line. -/
def Unbroken (cs : List Char) : Prop :=
  ∀ c ∈ cs, [c] ∉ lineBreaks

instance (cs : List Char) : Decidable (Unbroken cs) :=
  List.decidableBAll (fun c => [c] ∉ lineBreaks) cs

theorem isLineBreak_iff (c : Char) : isLineBreak c = true ↔ [c] ∈ lineBreaks := by
  have hcode : ∀ d : Char, c = d ↔ c.toNat = d.toNat := fun d => Char.toNat_inj.symm
  simp [isLineBreak, lineBreaks, hcode]
  omega

@[simp] theorem unbroken_nil : Unbroken [] :=
  fun _ hc => absurd hc List.not_mem_nil

@[simp] theorem unbroken_cons : Unbroken (c :: cs) ↔ [c] ∉ lineBreaks ∧ Unbroken cs :=
  List.forall_mem_cons

@[simp] theorem unbroken_append : Unbroken (front ++ back) ↔ Unbroken front ∧ Unbroken back :=
  List.forall_mem_append

/-- A line that is not at its end yet is read on. -/
theorem breakLinesFrom_unbroken (h : Unbroken line) (start : List Char) (returned : Bool)
    (rest : List Char) :
    breakLinesFrom start returned (line ++ rest) =
      breakLinesFrom (line.reverse ++ start) (returned && line.isEmpty) rest := by
  induction line generalizing start returned with
  | nil => simp
  | cons c line ih =>
    have hc : isLineBreak c = false := by
      rw [Bool.eq_false_iff, Ne, isLineBreak_iff]
      exact h c List.mem_cons_self
    have hfeed : (c == '\n') = false := by
      rw [beq_eq_false_iff_ne]
      rintro rfl
      exact absurd hc (by decide)
    rw [List.cons_append, breakLinesFrom, hfeed, hc, Bool.and_false]
    simp only [Bool.false_eq_true, ↓reduceIte]
    rw [ih fun d hd => h d (List.mem_cons_of_mem c hd)]
    simp

/-- A break ends the line being read, unless it is the line feed of a break that has begun. -/
theorem breakLinesFrom_break (hc : isLineBreak c = true) (start : List Char) (returned : Bool)
    (rest : List Char) :
    breakLinesFrom start returned (c :: rest) =
      if returned && c == '\n' then breakLinesFrom start false rest
      else start.reverse :: breakLinesFrom [] (c == '\r') rest := by
  rw [breakLinesFrom, hc]
  simp only [↓reduceIte]

section Readings
variable {β : Type} {f : List Char → Option β}

/-- One line with its break. If the break is a line feed that belongs to the break before, the line
is empty, so a reader of lines that finds nothing in an empty line does not miss it. -/
theorem filterMap_line (hf : f [] = none) (hline : Unbroken line) {brk : List Char}
    (hbrk : brk ∈ lineBreaks) (returned : Bool) (rest : List Char) :
    ∃ after, (breakLinesFrom [] returned (line ++ (brk ++ rest))).filterMap f =
      (f line).toList ++ (breakLinesFrom [] after rest).filterMap f := by
  have hshape : ∀ brk ∈ lineBreaks, brk = ['\r', '\n'] ∨ brk.length = 1 := by decide
  rw [breakLinesFrom_unbroken hline, List.append_nil]
  rcases hshape brk hbrk with rfl | hone
  · have hfeed : breakLinesFrom [] true ('\n' :: rest) = breakLinesFrom [] false rest := by
      rw [breakLinesFrom_break (by decide)]
      rfl
    refine ⟨false, ?_⟩
    rw [List.cons_append, breakLinesFrom_break (by decide), List.singleton_append]
    simp [List.filterMap_eq_flatMap_toList, hfeed]
  · obtain ⟨c, rfl⟩ := List.length_eq_one_iff.mp hone
    have hc := (isLineBreak_iff c).mpr hbrk
    rw [List.singleton_append, breakLinesFrom_break hc]
    split
    · rename_i hjoined
      have hempty : line = [] := by
        simp only [Bool.and_eq_true, List.isEmpty_iff] at hjoined
        exact hjoined.1.2
      refine ⟨false, ?_⟩
      rw [hempty, hf]
      rfl
    · refine ⟨c == '\r', ?_⟩
      simp [List.filterMap_eq_flatMap_toList]

/-- What is read in the lines of a text is what is read in each of them. -/
theorem filterMap_breakLinesFrom (hf : f [] = none) {lines : List (List Char × List Char)}
    (hlines : ∀ l ∈ lines, Unbroken l.1 ∧ l.2 ∈ lineBreaks) {last : List Char}
    (hlast : Unbroken last) (returned : Bool) :
    (breakLinesFrom [] returned (lines.flatMap (fun l => l.1 ++ l.2) ++ last)).filterMap f =
      (lines.map Prod.fst ++ [last]).filterMap f := by
  induction lines generalizing returned with
  | nil =>
    have hend := breakLinesFrom_unbroken hlast [] returned []
    rw [List.append_nil, breakLinesFrom] at hend
    rw [List.flatMap_nil, List.nil_append, hend]
    by_cases hempty : last = []
    · simp [hempty, hf]
    · simp [hempty]
  | cons l lines ih =>
    obtain ⟨hl, hbrk⟩ := hlines l List.mem_cons_self
    obtain ⟨after, hfirst⟩ := filterMap_line hf hl hbrk returned
      (lines.flatMap (fun l => l.1 ++ l.2) ++ last)
    have hrest := ih (fun l' hl' => hlines l' (List.mem_cons_of_mem l hl')) after
    rw [List.flatMap_cons, List.append_assoc, List.append_assoc, hfirst, hrest]
    simp [List.filterMap_eq_flatMap_toList]

end Readings
end Breaks
end Text

namespace Dotenv
open Text

def IsQuote (c : Char) : Prop :=
  c = '\x27' ∨ c = '"'

instance (c : Char) : Decidable (IsQuote c) :=
  inferInstanceAs (Decidable (_ ∨ _))

theorem value_quote {c : Char} (h : IsQuote c) (rest : List Char) :
    value (c :: rest) = if rest.getLast? = some c then rest.dropLast else c :: rest :=
  if_pos h

theorem value_unquoted {c : Char} (h : ¬ IsQuote c) (rest : List Char) :
    value (c :: rest) = ((cutAt? [' ', '#'] (c :: rest)).map fun parts =>
      trimEnd parts.1).getD (c :: rest) := by
  unfold IsQuote at h
  rw [value, if_neg h]
  cases cutAt? [' ', '#'] (c :: rest) <;> rfl

/-- Without a sign nothing is set. -/
theorem pair_unsigned {line : List Char} (h : '=' ∉ line) : pair? line = none := by
  have hcut : cutAt? ['='] (trim line) = none := by
    refine cutAt_eq_none fun hmark => h (mem_of_mem_trim ?_)
    exact (List.singleton_infix_iff _ _).mp hmark
  rw [pair?, hcut]
  split <;> rfl

/-- What stands before the first sign decides whether the line sets something. -/
theorem pair_signed {before : List Char} (h : '=' ∉ before) (after : List Char) :
    pair? (before ++ '=' :: after) =
      if trim before = [] ∨ (trim before).head? = some '#' then none
      else some (String.ofList (trim before), String.ofList (value (trim after))) := by
  have hsign : '=' ∉ trimStart before := fun hmem => h ((List.dropWhile_suffix _).subset hmem)
  have hcut := cutAt_sep hsign (trimEnd after)
  rw [pair?, trim_cons_append (by decide), hcut]
  simp only [trim_trimStart, trim_trimEnd]
  by_cases hnone : trim before = []
  · simp [hnone]
  · have hname : trimStart before ≠ [] := fun hstart =>
      hnone (trim_eq_nil.mpr (trimStart_eq_nil.mp hstart))
    rw [List.head?_append_of_ne_nil _ hname, ← head_trim hnone]
    simp [hnone]

/-- A line that sets something: a sign with a name before it. -/
structure Assignment where
  before : List Char
  after : List Char
  sign : '=' ∉ before := by decide
  named : trim before ≠ [] := by decide
  uncommented : (trim before).head? ≠ some '#' := by decide

namespace Assignment

def text (a : Assignment) : List Char :=
  a.before ++ '=' :: a.after

def key (a : Assignment) : List Char :=
  trim a.before

/-- What is given for the name, still with its quotes or its comment. -/
def given (a : Assignment) : List Char :=
  trim a.after

theorem pair_text (a : Assignment) :
    pair? a.text = some (String.ofList a.key, String.ofList (value a.given)) := by
  rw [text, pair_signed a.sign, if_neg (not_or.mpr ⟨a.named, a.uncommented⟩)]
  rfl

/-- No other line sets anything. -/
theorem isSome_pair_iff (line : List Char) :
    (pair? line).isSome = true ↔ ∃ a : Assignment, a.text = line := by
  constructor
  · intro h
    have hsign : '=' ∈ line := by
      by_contra hnot
      rw [pair_unsigned hnot] at h
      cases h
    obtain ⟨before, after, rfl, hbefore⟩ := List.eq_append_cons_of_mem hsign
    rw [pair_signed hbefore] at h
    split at h
    · cases h
    · rename_i hkey
      obtain ⟨hnamed, huncommented⟩ := not_or.mp hkey
      exact ⟨⟨before, after, hbefore, hnamed, huncommented⟩, rfl⟩
  · rintro ⟨a, rfl⟩
    rw [pair_text]
    rfl

end Assignment

/-- What the lines of a file set. -/
theorem parse_lines {lines : List (List Char × List Char)}
    (hlines : ∀ l ∈ lines, Unbroken l.1 ∧ l.2 ∈ lineBreaks) {last : List Char}
    (hlast : Unbroken last) :
    parse (lines.flatMap (fun l => l.1 ++ l.2) ++ last) =
      Keyed.ofList ((lines.map Prod.fst ++ [last]).filterMap pair?) := by
  rw [parse, breakLines, filterMap_breakLinesFrom (pair_unsigned List.not_mem_nil) hlines hlast]

theorem Assignment.parse_text (a : Assignment) (h : Unbroken a.text) :
    parse a.text = ⟨[(String.ofList a.key, String.ofList (value a.given))]⟩ := by
  have hline := @parse_lines [] (fun _ hl => absurd hl List.not_mem_nil) a.text h
  rw [List.flatMap_nil, List.nil_append] at hline
  simp [hline, a.pair_text, Keyed.ofList, Keyed.setAll, Keyed.set, Keyed.place]

end Dotenv
end SourceLinks
