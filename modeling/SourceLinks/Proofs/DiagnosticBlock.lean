import Mathlib.Data.List.Chain
import SourceLinks.Proofs.Lines

namespace SourceLinks

namespace Text
variable {cs ds : List Char}

/-- The two characters, one directly after the other, do not close a comment. -/
def KeepsOpen (a b : Char) : Prop :=
  ¬ (a = '*' ∧ b = '/')

instance : DecidableRel KeepsOpen := fun a b =>
  inferInstanceAs (Decidable (¬ (a = '*' ∧ b = '/')))

/-- Nothing in the text closes a comment. -/
def Unclosed (cs : List Char) : Prop :=
  cs.IsChain KeepsOpen

instance (cs : List Char) : Decidable (Unclosed cs) :=
  inferInstanceAs (Decidable (cs.IsChain KeepsOpen))

theorem Unclosed.append (hcs : Unclosed cs) (hds : Unclosed ds) (hslash : ds.head? ≠ some '/') :
    Unclosed (cs ++ ds) := by
  refine List.isChain_append.mpr ⟨hcs, hds, ?_⟩
  intro a _ b hb hclose
  exact hslash (hclose.2 ▸ hb)

theorem Unclosed.ne_mark (h : Unclosed cs) (before after : List Char) :
    cs ≠ before ++ ['*', '/'] ++ after := by
  intro heq
  rw [heq] at h
  have hmark := (List.isChain_append.mp (List.isChain_append.mp h).1).2.1
  simp [KeepsOpen] at hmark

/-- Where a comment's text does not close it, the mark behind the text is the only one. -/
theorem mark_at_end {body before after : List Char} (hbody : Unclosed body)
    (h : body ++ ['*', '/', '\n'] = before ++ ['*', '/'] ++ after) :
    before = body ∧ after = ['\n'] := by
  rw [List.append_assoc, List.append_eq_append_iff] at h
  -- A mark that starts behind the text is the last one. One that starts in it either lies in it or
  -- has its first character at the text's end, where it would be followed by a star.
  rcases h with ⟨late, hbefore, hend⟩ | ⟨early, hsplit, hend⟩
  · match late with
    | [] => simp_all
    | [_] => simp at hend
    | [_, _] => simp at hend
    | _ :: _ :: _ :: _ => simp at hend
  · match early with
    | [] => simp_all
    | [_] => simp at hend
    | a :: b :: rest =>
      simp only [List.cons_append, List.nil_append, List.cons.injEq] at hend
      obtain ⟨rfl, rfl, -⟩ := hend
      exact absurd (by simpa using hsplit) (hbody.ne_mark before rest)

/-- Induction over a text by marks that close a comment and other characters. -/
theorem mark_induction {P : List Char → Prop} (nil : P [])
    (mark : ∀ cs, P cs → P ('*' :: '/' :: cs))
    (char : ∀ c cs, (c = '*' → cs.head? ≠ some '/') → P cs → P (c :: cs)) : ∀ cs, P cs
  | [] => nil
  | [c] => char c [] (by simp) nil
  | c :: d :: cs => by
    by_cases hmark : c = '*' ∧ d = '/'
    · obtain ⟨rfl, rfl⟩ := hmark
      exact mark cs (mark_induction nil mark char cs)
    · refine char c (d :: cs) ?_ (mark_induction nil mark char (d :: cs))
      rintro rfl hd
      exact hmark ⟨rfl, Option.some.inj hd⟩

/-- The text with a blank inside each mark. -/
def breakUp (cs : List Char) : List Char :=
  replace ['*', '/'] ['*', ' ', '/'] cs

theorem breakUp_mark (cs : List Char) : breakUp ('*' :: '/' :: cs) = '*' :: ' ' :: '/' :: breakUp cs := by
  simp [breakUp, replace, replaceFrom]

theorem breakUp_char {c : Char} (h : c = '*' → cs.head? ≠ some '/') :
    breakUp (c :: cs) = c :: breakUp cs := by
  have hmark : ['*', '/'].isPrefixOf (c :: cs) = false := by
    cases cs with
    | nil => exact Bool.and_false _
    | cons d cs =>
      simp only [List.isPrefixOf, Bool.and_true, Bool.and_eq_false_iff, beq_eq_false_iff_ne]
      by_cases hc : c = '*'
      · exact .inr fun hd => h hc (by rw [← hd]; rfl)
      · exact .inl (Ne.symm hc)
  simp [breakUp, replace, replaceFrom, hmark]

theorem head_breakUp (cs : List Char) : (breakUp cs).head? = cs.head? := by
  induction cs using mark_induction with
  | nil => rfl
  | mark cs _ =>
    rw [breakUp_mark]
    rfl
  | char c cs h _ =>
    rw [breakUp_char h]
    rfl

theorem breakUp_unclosed (cs : List Char) : Unclosed (breakUp cs) := by
  induction cs using mark_induction with
  | nil => exact .nil
  | mark cs ih =>
    rw [breakUp_mark]
    have hopen : Unclosed ['*', ' ', '/'] := by decide
    refine List.isChain_append.mpr ⟨hopen, ih, ?_⟩
    simp [KeepsOpen]
  | char c cs h ih =>
    rw [breakUp_char h]
    refine ih.cons ?_
    rintro d hd ⟨hc, rfl⟩
    rw [head_breakUp] at hd
    exact h hc hd

/-- How one text stands for another in a comment: nothing is lost, only blanks are added, and not
even these where nothing closes a comment. -/
structure ShownAs (cs shown : List Char) : Prop where
  kept : cs.Sublist shown
  added : shown.filter (· ≠ ' ') = cs.filter (· ≠ ' ')
  verbatim : Unclosed cs → shown = cs

theorem shownAs_breakUp (cs : List Char) : ShownAs cs (breakUp cs) := by
  induction cs using mark_induction with
  | nil => exact ⟨.slnil, rfl, fun _ => rfl⟩
  | mark cs ih =>
    rw [breakUp_mark]
    refine ⟨.cons_cons _ (.cons _ (.cons_cons _ ih.kept)), ?_, ?_⟩
    · simpa using ih.added
    · intro h
      exact absurd rfl (h.ne_mark [] cs)
  | char c cs h ih =>
    rw [breakUp_char h]
    refine ⟨.cons_cons _ ih.kept, ?_, ?_⟩
    · rw [List.filter_cons, List.filter_cons, ih.added]
    · intro hopen
      rw [ih.verbatim hopen.tail]

example : breakUp "**//*/*/".toList = "** //* /* /".toList := by decide

/-- Lines that do not close a comment do not close it together. -/
theorem unclosed_lines {lines : List (List Char)} (h : ∀ line ∈ lines, Unclosed line) :
    Unclosed (lines.flatMap (['\n'] ++ ·)) := by
  induction lines with
  | nil => exact .nil
  | cons line lines ih =>
    have hline : Unclosed (['\n'] ++ line) := by
      refine List.isChain_append.mpr ⟨.singleton _, h line List.mem_cons_self, ?_⟩
      simp [KeepsOpen]
    rw [List.flatMap_cons]
    refine hline.append (ih fun l hl => h l (List.mem_cons_of_mem line hl)) ?_
    cases lines <;> simp

/-- Each of the lines stands between two breaks. -/
theorem line_between {lines : List (List Char)} {line : List Char} (h : line ∈ lines)
    (rest : List Char) :
    ['\n'] ++ line ++ ['\n'] <:+: lines.flatMap (['\n'] ++ ·) ++ '\n' :: rest := by
  obtain ⟨above, below, rfl⟩ := List.append_of_mem h
  have hbreak : ['\n'] <+: below.flatMap (['\n'] ++ ·) ++ '\n' :: rest := by
    cases below <;> simp
  obtain ⟨after, hafter⟩ := hbreak
  refine ⟨above.flatMap (['\n'] ++ ·), after, ?_⟩
  simp only [List.flatMap_append, List.flatMap_cons, List.append_assoc, ← hafter]

end Text

namespace Document

/-- The lines of the diagnostic comment before the one that closes it. -/
def openLines (details : List String) : List (List Char) :=
  "/*".toList :: (" * ".toList ++ diagnosticHeader.toList) :: details.map diagnosticLine

/-- The diagnostic comment up to the characters that close it. -/
def diagnosticBody (details : List String) : List Char :=
  ['\n'] ++ (openLines details).flatMap (['\n'] ++ ·) ++ ['\n', ' ']

theorem diagnosticBlock_eq (details : List String) :
    diagnosticBlock details = diagnosticBody details ++ ['*', '/', '\n'] := by
  have hlines : [[], "/*".toList, " * ".toList ++ diagnosticHeader.toList] ++
      details.map diagnosticLine ++ [" */".toList] = [] :: (openLines details ++ [" */".toList]) := rfl
  rw [diagnosticBlock, hlines, Text.joinWith_cons, List.flatMap_append, diagnosticBody]
  simp

/-- A break before each line and one behind them all is one behind each line and one before them. -/
theorem breaks_behind (lines : List (List Char)) :
    lines.flatMap (['\n'] ++ ·) ++ ['\n'] = '\n' :: lines.flatMap (· ++ ['\n']) := by
  induction lines with
  | nil => rfl
  | cons line lines ih =>
    rw [List.flatMap_cons, List.append_assoc, ih, List.flatMap_cons]
    simp only [List.append_assoc, List.cons_append, List.nil_append]

/-- The diagnostic comment, written out. -/
theorem diagnosticBlock_text (details : List String) :
    diagnosticBlock details =
      "\n\n/*\n * Error: could not parse this file. Hyperlinks will not be inserted.\n".toList ++
        details.flatMap (fun detail => " * ".toList ++ Text.breakUp detail.toList ++ ['\n']) ++
        " */\n".toList := by
  have hbody : diagnosticBody details =
      ['\n'] ++ ('\n' :: (openLines details).flatMap (· ++ ['\n'])) ++ [' '] := by
    rw [diagnosticBody, ← breaks_behind]
    simp only [List.append_assoc, List.cons_append, List.nil_append]
  have hstart : "\n\n/*\n * Error: could not parse this file. Hyperlinks will not be inserted.\n".toList =
      ['\n', '\n'] ++ ("/*".toList ++ ['\n']) ++
        (" * ".toList ++ diagnosticHeader.toList ++ ['\n']) := by decide +kernel
  rw [diagnosticBlock_eq, hbody, openLines, List.flatMap_cons, List.flatMap_cons, List.flatMap_map,
    hstart]
  simp only [List.append_assoc]
  rfl

theorem margin_unclosed {cs : List Char} (h : Text.Unclosed cs) :
    Text.Unclosed (" * ".toList ++ cs) := by
  refine List.isChain_append.mpr ⟨by simp [Text.KeepsOpen], h, ?_⟩
  simp [Text.KeepsOpen]

theorem openLines_unclosed {details : List String} {line : List Char}
    (h : line ∈ openLines details) : Text.Unclosed line := by
  simp only [openLines, List.mem_cons, List.mem_map] at h
  rcases h with rfl | rfl | ⟨detail, -, rfl⟩
  · decide
  · exact margin_unclosed (by decide +kernel)
  · exact margin_unclosed (Text.breakUp_unclosed _)

theorem diagnosticBody_unclosed (details : List String) : Text.Unclosed (diagnosticBody details) := by
  have hlines := Text.unclosed_lines fun line (h : line ∈ openLines details) => openLines_unclosed h
  have hend : Text.Unclosed ['\n', ' '] := by decide
  have hfirst : Text.Unclosed (['\n'] ++ (openLines details).flatMap (['\n'] ++ ·)) :=
    Text.Unclosed.append (.singleton _) hlines (by simp [openLines])
  exact hfirst.append hend (by simp)

/-- The diagnostic comment cannot be closed early.

The text of the document is followed by a comment whose last characters close it, and a line break.
Whatever the details are, the comment is closed nowhere else. It shows each of them, on lines of
its own. -/
theorem diagnostic_closes_at_its_end (d : Document) (details : List String) :
    ∃ body, d.withDiagnostic details = d.text ++ (body ++ ['*', '/', '\n']) ∧
      (∀ before after, body ++ ['*', '/', '\n'] = before ++ ['*', '/'] ++ after →
        before = body ∧ after = ['\n']) ∧
      ∀ detail ∈ details, ∃ shown, Text.ShownAs detail.toList shown ∧
        ['\n', ' ', '*', ' '] ++ shown ++ ['\n'] <:+: body := by
  refine ⟨diagnosticBody details, ?_, ?_, ?_⟩
  · rw [withDiagnostic, diagnosticBlock_eq]
  · intro before after h
    exact Text.mark_at_end (diagnosticBody_unclosed details) h
  · intro detail hdetail
    refine ⟨Text.breakUp detail.toList, Text.shownAs_breakUp _, ?_⟩
    have hline : diagnosticLine detail ∈ openLines details :=
      List.mem_cons_of_mem _ (List.mem_cons_of_mem _ (List.mem_map_of_mem hdetail))
    have hbetween := Text.line_between hline [' ']
    exact hbetween.trans ⟨['\n'], [], by simp [diagnosticBody]⟩

end Document
end SourceLinks
