import SourceLinks.Proofs.SettingLines

namespace SourceLinks

namespace Text
variable {back cs : List Char}

/-- The mark does not come about where blanks follow a text without it. -/
theorem mark_apart (h : ¬ [' ', '#'] <:+: cs) (hback : Blanks back) :
    ¬ [' ', '#'] <:+: cs ++ back := by
  rintro ⟨front, rest, hsplit⟩
  rcases List.append_eq_append_iff.mp hsplit with ⟨more, hcs, -⟩ | ⟨more, hcs, hmore⟩
  · exact h ⟨front, more, hcs.symm⟩
  · rcases List.eq_nil_or_concat' more with rfl | ⟨start, c, rfl⟩
    · exact h ⟨front, [], by simpa using hcs⟩
    · -- The blanks would have to begin within the mark.
      have hmark : '#' = c := by simpa using congrArg List.getLast? hcs
      subst hmark
      exact absurd (hback '#' (by simp [hmore])) (by decide)

end Text

namespace Dotenv
open Text

/-- The value stands between two quotes of one kind. -/
def InQuotes (cs : List Char) : Prop :=
  ∃ quote text, IsQuote quote ∧ cs = quote :: (text ++ [quote])

section Value
variable {c : Char} {cs back comment : List Char}

/-- Without quotes around it and without a comment behind it a value is what it is. -/
theorem value_plain (hquotes : ¬ InQuotes cs) (hmark : ¬ [' ', '#'] <:+: cs) : value cs = cs := by
  cases cs with
  | nil => rfl
  | cons c rest =>
    by_cases hquote : IsQuote c
    · rw [value_quote hquote, if_neg]
      intro hlast
      obtain ⟨text, rfl⟩ := List.getLast?_eq_some_iff.mp hlast
      exact hquotes ⟨c, text, hquote, rfl⟩
    · rw [value_unquoted hquote, cutAt_eq_none hmark]
      rfl

/-- A comment goes away with the blanks before it. -/
theorem value_commented (hquote : ¬ IsQuote c) (hmark : ¬ [' ', '#'] <:+: c :: cs)
    (hend : trimEnd (c :: cs) = c :: cs) (hback : Blanks back) (comment : List Char) :
    value (c :: cs ++ back ++ [' '] ++ '#' :: comment) = c :: cs := by
  have hblanks : Blanks (back ++ [' ']) := by
    intro d hd
    rcases List.mem_append.mp hd with hd | hd
    · exact hback d hd
    · rw [List.mem_singleton.mp hd]
      decide
  have hfront : ¬ [' ', '#'] <:+: c :: cs ++ back ++ [' '] := by
    rw [List.append_assoc]
    exact mark_apart hmark hblanks
  have hcut := cutAt_mark (List.cons_ne_nil ' ' ['#']) hfront comment
  simp only [List.append_assoc, List.cons_append, List.nil_append] at hcut ⊢
  rw [value_unquoted hquote, hcut, Option.map_some, Option.getD_some, ← List.cons_append,
    trimEnd_append hback, hend]

/-- Behind an opening quote a comment makes the value longer. -/
theorem length_value_quoted (hquote : IsQuote c) (cs back comment : List Char) :
    (c :: cs).length < (value (c :: cs ++ back ++ [' '] ++ '#' :: comment)).length := by
  simp only [List.append_assoc, List.cons_append, List.nil_append]
  rw [value_quote hquote]
  split
  · rename_i hlast
    have hne : comment ≠ [] := by
      rintro rfl
      have hc : c = '#' := by simpa using hlast.symm
      subst hc
      exact absurd hquote (by decide)
    have hpos := List.length_pos_iff.mpr hne
    simp only [List.length_dropLast, List.length_append, List.length_cons]
    omega
  · simp only [List.length_append, List.length_cons]
    omega

/-- Where no value stands before it, the comment becomes the value. -/
theorem value_of_comment (comment : List Char) :
    ∃ text, text <+: comment ∧ value ('#' :: trimEnd comment) = '#' :: text := by
  have hhere : [' ', '#'].isPrefixOf ('#' :: trimEnd comment) = false := rfl
  rw [value_unquoted (by decide), cutAt?, hhere]
  cases hcut : cutAt? [' ', '#'] (trimEnd comment) with
  | none => exact ⟨trimEnd comment, trimEnd_front comment, rfl⟩
  | some parts =>
    obtain ⟨front, rest⟩ := parts
    have hfront := (trimEnd_front front).trans (cutAt_front hcut)
    refine ⟨trimEnd front, hfront.trans (trimEnd_front comment), ?_⟩
    exact trimEnd_cons_append (by decide) [] front

end Value

namespace Assignment
variable (a : Assignment) (comment : List Char)

/-- The same line with a comment behind it. -/
def commented : Assignment where
  before := a.before
  after := a.after ++ ' ' :: '#' :: comment
  sign := a.sign
  named := a.named
  uncommented := a.uncommented

theorem text_commented : a.text ++ ' ' :: '#' :: comment = (a.commented comment).text := by
  simp [text, commented]

theorem given_commented :
    (a.commented comment).given = trimStart (a.after ++ [' ']) ++ '#' :: trimEnd comment := by
  have hsplit : a.after ++ ' ' :: '#' :: comment = a.after ++ [' '] ++ '#' :: comment := by simp
  rw [given, commented, hsplit, trim_cons_append (by decide)]

/-- The comment stands behind what is given, with blanks between them. -/
theorem given_commented_of_ne_nil (h : a.given ≠ []) :
    ∃ back, Blanks back ∧
      (a.commented comment).given = a.given ++ back ++ [' '] ++ '#' :: trimEnd comment := by
  have hstart : trimStart a.after ≠ [] := fun hnone =>
    h (trim_eq_nil.mpr (trimStart_eq_nil.mp hnone))
  obtain ⟨back, hback, hgiven⟩ := trimEnd_split (trimStart a.after)
  refine ⟨back, hback, ?_⟩
  rw [given_commented, trimStart_append_of_ne_nil hstart, hgiven]
  rfl

theorem given_commented_nil (h : a.given = []) :
    (a.commented comment).given = '#' :: trimEnd comment := by
  have hblank : trimStart [' '] = [] := by decide
  rw [given_commented, trimStart_append (trim_eq_nil.mp h), hblank, List.nil_append]

/-- A value without a quote in front gets rid of the comment, and no other does. -/
theorem value_given_commented_iff (hmark : ¬ [' ', '#'] <:+: a.given) :
    value (a.commented comment).given = a.given ↔ ∃ c ∈ a.given.head?, ¬ IsQuote c := by
  cases hgiven : a.given with
  | nil =>
    obtain ⟨text, -, hvalue⟩ := value_of_comment comment
    rw [a.given_commented_nil comment hgiven, hvalue]
    simp
  | cons c cs =>
    obtain ⟨back, hback, hbehind⟩ := a.given_commented_of_ne_nil comment (by simp [hgiven])
    rw [hgiven] at hbehind hmark
    rw [hbehind]
    by_cases hquote : IsQuote c
    · have hlonger := length_value_quoted hquote cs back (trimEnd comment)
      have hdiffer : value (c :: cs ++ back ++ [' '] ++ '#' :: trimEnd comment) ≠ c :: cs := by
        intro hsame
        rw [hsame] at hlonger
        exact Nat.lt_irrefl _ hlonger
      simp only [hdiffer, false_iff]
      simp [hquote]
    · have hend : trimEnd (c :: cs) = c :: cs := by
        rw [← hgiven, given, trim, trimEnd_trimEnd]
      rw [value_commented hquote hmark hend hback]
      simp [hquote]

theorem parse_commented (hline : Unbroken a.text) (hcomment : Unbroken comment) :
    parse (a.text ++ ' ' :: '#' :: comment) =
      ⟨[(String.ofList a.key, String.ofList (value (a.commented comment).given))]⟩ := by
  have hunbroken : Unbroken (a.text ++ ' ' :: '#' :: comment) := by
    have hsigns : [' '] ∉ lineBreaks ∧ ['#'] ∉ lineBreaks := by decide
    simp [hline, hcomment, hsigns]
  rw [a.text_commented] at hunbroken ⊢
  exact (a.commented comment).parse_text hunbroken

end Assignment

/-- A comment behind a setting leaves it as it is exactly if a value without a quote in front stands
before it. Where there is no value, the comment becomes the value. -/
theorem trailing_comment_is_cut_iff (a : Assignment) (comment : List Char)
    (hline : Unbroken a.text) (hcomment : Unbroken comment) (hquotes : ¬ InQuotes a.given)
    (hmark : ¬ [' ', '#'] <:+: a.given) :
    (parse a.text).entries = [(String.ofList a.key, String.ofList a.given)] ∧
    (parse (a.text ++ ' ' :: '#' :: comment) = parse a.text ↔
      ∃ c ∈ a.given.head?, ¬ IsQuote c) ∧
    (a.given = [] → ∃ text, text <+: comment ∧
      (parse (a.text ++ ' ' :: '#' :: comment)).entries =
        [(String.ofList a.key, String.ofList ('#' :: text))]) := by
  have hplain : parse a.text = ⟨[(String.ofList a.key, String.ofList a.given)]⟩ := by
    rw [a.parse_text hline, value_plain hquotes hmark]
  have hcommented := a.parse_commented comment hline hcomment
  refine ⟨by rw [hplain], ?_, ?_⟩
  · rw [← a.value_given_commented_iff comment hmark, hplain, hcommented]
    simp [String.ofList_inj]
  · intro hgiven
    obtain ⟨text, htext, hvalue⟩ := value_of_comment comment
    refine ⟨text, htext, ?_⟩
    rw [hcommented, a.given_commented_nil comment hgiven, hvalue]

theorem trailing_comment_is_cut_iff_of_workers :
    let a : Assignment := { before := "XREF_WORKERS ".toList, after := " 4\t".toList }
    Unbroken a.text ∧ Unbroken " two # each".toList ∧ ¬ InQuotes a.given ∧
      ¬ [' ', '#'] <:+: a.given ∧
      (parse a.text).entries = [("XREF_WORKERS", "4")] ∧
      parse (a.text ++ ' ' :: '#' :: " two # each".toList) = parse a.text := by
  intro a
  have hline : Unbroken a.text := by decide
  have hcomment : Unbroken " two # each".toList := by decide
  have hgiven : a.given = ['4'] := by decide
  have hquotes : ¬ InQuotes a.given := by
    rintro ⟨quote, text, -, htext⟩
    rw [hgiven] at htext
    simp at htext
  have hmark : ¬ [' ', '#'] <:+: a.given := by decide
  obtain ⟨hparsed, hsame, -⟩ := trailing_comment_is_cut_iff a _ hline hcomment hquotes hmark
  refine ⟨hline, hcomment, hquotes, hmark, ?_, hsame.mpr ⟨'4', by rw [hgiven]; rfl, by decide⟩⟩
  rw [hparsed, hgiven]
  decide

/-- The mark is looked for in what is given, and the blank that it needs has been taken off. -/
theorem comment_becomes_missing_value :
    let a : Assignment := { before := "XREF_TRACE_PATH".toList, after := [] }
    a.given = [] ∧ (parse a.text).entries = [("XREF_TRACE_PATH", "")] ∧
      (parse (a.text ++ ' ' :: '#' :: " off".toList)).entries = [("XREF_TRACE_PATH", "# off")] := by
  decide +kernel

end Dotenv
end SourceLinks
