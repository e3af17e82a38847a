import SourceLinks.Proofs.FirstMention
import SourceLinks.Proofs.SettingLines

namespace SourceLinks.Dotenv
open Text

/-- Blanks that stand in a line. -/
structure Margin where
  blanks : List Char := []
  blank : Blanks blanks := by decide
  unbroken : Unbroken blanks := by decide

/-- A setting with its value in quotes, and with blanks around the key and around the quotes. -/
structure Quoted where
  key : String
  value : String
  quote : Char
  front : Margin := {}
  beforeSign : Margin := {}
  afterSign : Margin := {}
  back : Margin := {}
  named : key.toList ≠ [] := by decide
  sign : '=' ∉ key.toList := by decide
  uncommented : key.toList.head? ≠ some '#' := by decide
  trimmed : Trimmed key.toList := by decide
  key_unbroken : Unbroken key.toList := by decide
  value_unbroken : Unbroken value.toList := by decide
  quote_known : IsQuote quote := by decide

namespace Quoted
variable (s : Quoted)

def before : List Char :=
  s.front.blanks ++ s.key.toList ++ s.beforeSign.blanks

/-- The value as it is written. -/
def inQuotes : List Char :=
  s.quote :: s.value.toList ++ [s.quote]

def after : List Char :=
  s.afterSign.blanks ++ s.inQuotes ++ s.back.blanks

theorem sign_before : '=' ∉ s.before := by
  have hblank : ∀ m : Margin, '=' ∉ m.blanks := fun m h => absurd (m.blank _ h) (by decide)
  simp only [before, List.mem_append, hblank, s.sign, or_self, not_false_eq_true]

theorem trim_before : trim s.before = s.key.toList := by
  rw [before, trim_padded s.front.blank _ s.beforeSign.blank, s.trimmed.trim_eq]

theorem quote_plain : isBlank s.quote = false ∧ [s.quote] ∉ lineBreaks := by
  rcases s.quote_known with h | h <;> rw [h] <;> decide

theorem trim_after : trim s.after = s.inQuotes := by
  have hends : Trimmed s.inQuotes := by
    have hlast : s.inQuotes.getLast? = some s.quote := List.getLast?_concat
    constructor
    · simp [inQuotes, s.quote_plain.1]
    · simp [hlast, s.quote_plain.1]
  rw [after, trim_padded s.afterSign.blank _ s.back.blank, hends.trim_eq]

theorem value_inQuotes : Dotenv.value s.inQuotes = s.value.toList := by
  have hlast : (s.value.toList ++ [s.quote]).getLast? = some s.quote := List.getLast?_concat
  rw [inQuotes, List.cons_append, value_quote s.quote_known, if_pos hlast, List.dropLast_concat]

/-- The line sets something, whatever the value. -/
def assignment : Assignment where
  before := s.before
  after := s.after
  sign := s.sign_before
  named := s.trim_before ▸ s.named
  uncommented := s.trim_before ▸ s.uncommented

theorem pair_text : pair? s.assignment.text = some (s.key, s.value) := by
  rw [Assignment.pair_text]
  have hkey : s.assignment.key = s.key.toList := s.trim_before
  have hgiven : s.assignment.given = s.inQuotes := s.trim_after
  rw [hkey, hgiven, value_inQuotes, String.ofList_toList, String.ofList_toList]

theorem text_unbroken : Unbroken s.assignment.text := by
  have hsign : ['='] ∉ lineBreaks := by decide
  have hmargin : ∀ m : Margin, Unbroken m.blanks := Margin.unbroken
  simp [Assignment.text, assignment, before, after, inQuotes, hmargin, hsign, s.key_unbroken,
    s.value_unbroken, s.quote_plain.2]

end Quoted

/-- A line that sets nothing. -/
inductive Idle : List Char → Prop where
  | blank {cs : List Char} (h : Blanks cs) : Idle cs
  | comment {front : List Char} (h : Blanks front) (rest : List Char) : Idle (front ++ '#' :: rest)
  | unsigned {cs : List Char} (h : '=' ∉ cs) : Idle cs

theorem Idle.pair {cs : List Char} (h : Idle cs) : pair? cs = none := by
  cases h with
  | blank h => exact pair_unsigned fun hsign => absurd (h _ hsign) (by decide)
  | @comment front h rest =>
    have hline : (trim (front ++ '#' :: rest)).head? = some '#' := by
      rw [trim_cons_append (by decide), trimStart_eq_nil.mpr h]
      rfl
    rw [pair?, if_pos hline]
  | unsigned h => exact pair_unsigned h

inductive Line where
  | quoted (s : Quoted)
  | idle (cs : List Char) (h : Idle cs) (unbroken : Unbroken cs)

namespace Line

def text : Line → List Char
  | quoted s => s.assignment.text
  | idle cs _ _ => cs

def setting? : Line → Option (String × String)
  | quoted s => some (s.key, s.value)
  | idle .. => none

theorem pair_text (l : Line) : pair? l.text = l.setting? := by
  cases l with
  | quoted s => exact s.pair_text
  | idle cs h _ => exact h.pair

theorem text_unbroken (l : Line) : Unbroken l.text := by
  cases l with
  | quoted s => exact s.text_unbroken
  | idle cs _ unbroken => exact unbroken

end Line

/-- Lines, each with the break that ends it, and a last line that the text ends with. -/
structure File where
  lines : List (Line × { brk : List Char // brk ∈ lineBreaks })
  last : Line

namespace File

def text (f : File) : List Char :=
  (f.lines.flatMap fun l => l.1.text ++ l.2) ++ f.last.text

def settings (f : File) : List (String × String) :=
  (f.lines.map Prod.fst ++ [f.last]).filterMap Line.setting?

/-- Settings written in quotes are read as they are: each key in the place where it first stands,
with the value that stands last. -/
theorem quoted_settings_are_read (f : File) :
    (parse f.text).entries =
      (f.settings.map Prod.fst).eraseDups.filterMap fun k =>
        (Keyed.lastOf k f.settings).map fun v => (k, v) := by
  have htext : f.text =
      (f.lines.map fun l => (l.1.text, l.2.1)).flatMap (fun l => l.1 ++ l.2) ++ f.last.text := by
    rw [List.flatMap_map]
    rfl
  have hlines : ∀ l ∈ f.lines.map fun l => (l.1.text, l.2.1),
      Unbroken l.1 ∧ l.2 ∈ lineBreaks := by
    rintro _ hl
    obtain ⟨⟨line, brk⟩, _, rfl⟩ := List.mem_map.mp hl
    exact ⟨line.text_unbroken, brk.2⟩
  have hsettings : ((f.lines.map fun l => (l.1.text, l.2.1)).map Prod.fst ++
      [f.last.text]).filterMap pair? = f.settings := by
    have hfound : Line.setting? = pair? ∘ Line.text := funext fun l => l.pair_text.symm
    rw [settings, hfound, ← List.filterMap_map, List.map_append, List.map_map, List.map_map]
    rfl
  rw [htext, parse_lines hlines f.last.text_unbroken, hsettings, Keyed.entries_ofList]

/-- Two keys, one of them twice. The line feed after the empty line ends the break before it. -/
def resetOnce : File where
  lines := [
    (.quoted { key := "A", value := "x # y", quote := '\x27' }, ⟨['\r', '\n'], by decide⟩),
    (.idle ([' '] ++ '#' :: " A=no".toList) (.comment (by decide) _) (by decide),
      ⟨['\r'], by decide⟩),
    (.idle [] (.blank (by decide)) (by decide), ⟨['\n'], by decide⟩),
    (.quoted
      { key := "B", value := "='", quote := '"',
        beforeSign := { blanks := ['\t'] }, afterSign := { blanks := [' '] } },
      ⟨['\u2028'], by decide⟩)]
  last := .quoted { key := "A", value := " 2 ", quote := '"' }

theorem quoted_settings_are_read_when_reset :
    (parse resetOnce.text).entries = [("A", " 2 "), ("B", "='")] := by
  rw [quoted_settings_are_read]
  decide +kernel

end File
end SourceLinks.Dotenv
