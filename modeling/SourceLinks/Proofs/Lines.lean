import Mathlib.Data.List.DropRight
import Mathlib.Data.List.Infix
import SourceLinks.Document

namespace SourceLinks

namespace Text
variable {sep c : Char} {cs : List Char}

theorem afterLast_of_not_mem (h : sep ∉ cs) : afterLast sep cs = cs := by
  apply List.rtakeWhile_eq_self_iff.mpr
  intro d hd
  have hne : d ≠ sep := fun he => h (he ▸ hd)
  simpa using hne

/-- A character at the front matters only if no separator follows it. -/
theorem afterLast_cons (sep c : Char) (cs : List Char) :
    afterLast sep (c :: cs) =
      if sep ∈ cs then afterLast sep cs else if c = sep then cs else c :: cs := by
  by_cases hs : sep ∈ cs
  · have hstop : (cs.reverse.takeWhile (· != sep)).length ≠ cs.reverse.length := by
      intro hlen
      have hself := (List.takeWhile_prefix (p := (· != sep)) (l := cs.reverse)).eq_of_length hlen
      have hne := List.takeWhile_eq_self_iff.mp hself sep (List.mem_reverse.mpr hs)
      simp at hne
    simp only [afterLast, List.reverse_cons, List.takeWhile_append, hstop, hs, ↓reduceIte]
  · by_cases hc : c = sep
    · have hall := afterLast_of_not_mem hs
      have hwhole : cs.reverse.takeWhile (· != sep) = cs.reverse := by
        rw [afterLast] at hall
        rw [← List.reverse_reverse (cs.reverse.takeWhile (· != sep)), hall]
      simp [afterLast, List.takeWhile_append, hwhole, hs, hc]
    · have hmem : sep ∉ c :: cs := by simp [hs, Ne.symm hc]
      rw [afterLast_of_not_mem hmem, if_neg hs, if_neg hc]

theorem afterLast_cons_sep (sep : Char) (cs : List Char) :
    afterLast sep (sep :: cs) = afterLast sep cs := by
  rw [afterLast_cons]
  split
  · rfl
  · rename_i hs
    rw [if_pos rfl, afterLast_of_not_mem hs]

/-- What comes last decides, unless it has no separator. -/
theorem afterLast_append (sep : Char) (front back : List Char) :
    afterLast sep (front ++ back) =
      if sep ∈ back then afterLast sep back else afterLast sep front ++ back := by
  induction front with
  | nil =>
    split
    · rfl
    · rename_i hback
      exact afterLast_of_not_mem hback
  | cons c front ih =>
    rw [List.cons_append, afterLast_cons, afterLast_cons, ih]
    by_cases hback : sep ∈ back
    · simp only [hback, List.mem_append, or_true, ↓reduceIte]
    · by_cases hfront : sep ∈ front
      · simp only [hback, hfront, List.mem_append, true_or, ↓reduceIte]
      · simp only [hback, hfront, List.mem_append, or_self, ↓reduceIte]
        split <;> rfl

theorem splitAt_ne_nil (sep : Char) (cs : List Char) : splitAt sep cs ≠ [] := by
  cases cs with
  | nil => simp [splitAt]
  | cons c cs =>
    rw [splitAt]
    split
    · split <;> simp
    · simp

/-- A separator ends the first part. -/
theorem splitAt_cons_sep (sep : Char) (cs : List Char) :
    splitAt sep (sep :: cs) = [] :: splitAt sep cs := by
  rw [splitAt]
  split
  · rename_i part parts hs
    rw [if_pos rfl, hs]
  · rename_i hs
    exact absurd hs (splitAt_ne_nil sep cs)

/-- Any other character goes into the first part. -/
theorem splitAt_cons_ne (h : c ≠ sep) (cs : List Char) :
    ∃ part parts, splitAt sep cs = part :: parts ∧ splitAt sep (c :: cs) = (c :: part) :: parts := by
  cases hs : splitAt sep cs with
  | nil => exact absurd hs (splitAt_ne_nil sep cs)
  | cons part parts => exact ⟨part, parts, rfl, by simp [splitAt, hs, h]⟩

theorem splitAt_head (sep : Char) (cs : List Char) :
    (splitAt sep cs)[0]? = some (cs.takeWhile (· != sep)) := by
  induction cs with
  | nil => rfl
  | cons c cs ih =>
    by_cases h : c = sep
    · subst h
      simp [splitAt_cons_sep]
    · obtain ⟨part, parts, hs, hc⟩ := splitAt_cons_ne h cs
      simp only [hs, List.getElem?_cons_zero, Option.some.injEq] at ih
      simp [hc, ih, h]

theorem joinWith_cons_cons (sep part next : List Char) (parts : List (List Char)) :
    joinWith sep (part :: next :: parts) = part ++ sep ++ joinWith sep (next :: parts) :=
  List.intercalate_cons_cons

/-- The first part is followed by the others with a separator before each. -/
theorem joinWith_cons (sep part : List Char) (parts : List (List Char)) :
    joinWith sep (part :: parts) = part ++ parts.flatMap (sep ++ ·) := by
  induction parts generalizing part with
  | nil => simp [joinWith]
  | cons next rest ih =>
    rw [joinWith_cons_cons, ih, List.flatMap_cons]
    simp only [List.append_assoc]

/-- The parts of a text, joined again, are the text. -/
theorem joinWith_splitAt (sep : Char) (cs : List Char) : joinWith [sep] (splitAt sep cs) = cs := by
  induction cs with
  | nil => rfl
  | cons c cs ih =>
    by_cases h : c = sep
    · subst h
      obtain ⟨part, parts, hs⟩ := List.exists_cons_of_ne_nil (splitAt_ne_nil c cs)
      rw [hs, joinWith_cons] at ih
      rw [splitAt_cons_sep, hs, joinWith_cons, List.flatMap_cons, List.append_assoc, ih]
      rfl
    · obtain ⟨part, parts, hs, hc⟩ := splitAt_cons_ne h cs
      rw [hs, joinWith_cons] at ih
      rw [hc, joinWith_cons, List.cons_append, ih]

theorem not_mem_of_mem_splitAt {part : List Char} (h : part ∈ splitAt sep cs) : sep ∉ part := by
  induction cs generalizing part with
  | nil =>
    cases List.mem_singleton.mp h
    exact List.not_mem_nil
  | cons c cs ih =>
    by_cases hc : c = sep
    · subst hc
      rw [splitAt_cons_sep] at h
      rcases List.mem_cons.mp h with rfl | h
      · exact List.not_mem_nil
      · exact ih h
    · obtain ⟨first, parts, hs, hcons⟩ := splitAt_cons_ne hc cs
      rw [hs] at ih
      rw [hcons] at h
      rcases List.mem_cons.mp h with rfl | h
      · exact List.not_mem_cons_of_ne_of_not_mem (Ne.symm hc) (ih List.mem_cons_self)
      · exact ih (List.mem_cons_of_mem first h)

theorem splitAt_of_not_mem (h : sep ∉ cs) : splitAt sep cs = [cs] := by
  induction cs with
  | nil => rfl
  | cons c cs ih =>
    simp only [List.mem_cons, not_or] at h
    obtain ⟨part, parts, hs, hc⟩ := splitAt_cons_ne (Ne.symm h.1) cs
    rw [ih h.2] at hs
    cases hs
    exact hc

theorem splitAt_append_sep (h : sep ∉ cs) (more : List Char) :
    splitAt sep (cs ++ sep :: more) = cs :: splitAt sep more := by
  induction cs with
  | nil => exact splitAt_cons_sep sep more
  | cons c cs ih =>
    simp only [List.mem_cons, not_or] at h
    obtain ⟨part, parts, hs, hc⟩ := splitAt_cons_ne (Ne.symm h.1) (cs ++ sep :: more)
    rw [ih h.2] at hs
    cases hs
    exact hc

/-- Parts without the separator are found again after they have been joined. -/
theorem splitAt_joinWith {parts : List (List Char)} (hne : parts ≠ [])
    (h : ∀ part ∈ parts, sep ∉ part) : splitAt sep (joinWith [sep] parts) = parts := by
  induction parts with
  | nil => exact absurd rfl hne
  | cons part rest ih =>
    have hpart := h part List.mem_cons_self
    cases rest with
    | nil => simpa [joinWith] using splitAt_of_not_mem hpart
    | cons next rest =>
      have hrest := ih (List.cons_ne_nil next rest) fun p hp => h p (List.mem_cons_of_mem part hp)
      rw [joinWith_cons_cons, List.append_assoc, List.singleton_append, splitAt_append_sep hpart,
        hrest]

/-- The part that a place in the text lies in: what precedes the place in it, and what follows. -/
theorem splitAt_at (sep : Char) (front back : List Char) :
    (splitAt sep (front ++ back))[front.count sep]? =
      some (afterLast sep front ++ back.takeWhile (· != sep)) := by
  induction front with
  | nil => exact splitAt_head sep back
  | cons c front ih =>
    by_cases h : c = sep
    · subst h
      rw [List.cons_append, splitAt_cons_sep, List.count_cons_self, List.getElem?_cons_succ, ih,
        afterLast_cons_sep]
    · obtain ⟨part, parts, hs, hc⟩ := splitAt_cons_ne h (front ++ back)
      rw [hs] at ih
      rw [List.cons_append, hc, List.count_cons_of_ne h, afterLast_cons]
      by_cases hmem : sep ∈ front
      · obtain ⟨m, hm⟩ : ∃ m, front.count sep = m + 1 :=
          ⟨front.count sep - 1, by have := List.count_pos_iff.mpr hmem; omega⟩
        rw [hm] at ih ⊢
        rw [if_pos hmem]
        exact ih
      · rw [List.count_eq_zero.mpr hmem, afterLast_of_not_mem hmem] at ih
        simp only [List.getElem?_cons_zero, Option.some.injEq] at ih
        rw [List.count_eq_zero.mpr hmem, if_neg hmem, if_neg h, ih]
        rfl

/-- A text is cut at the first place where the mark stands. -/
theorem cutAt_mark {mark front : List Char} (hne : mark ≠ [])
    (h : ¬ mark <:+: front ++ mark.dropLast) (back : List Char) :
    cutAt? mark (front ++ mark ++ back) = some (front, back) := by
  induction front with
  | nil =>
    obtain ⟨m, rest, rfl⟩ := List.exists_cons_of_ne_nil hne
    have hhere : (m :: rest).isPrefixOf (m :: (rest ++ back)) = true :=
      List.isPrefixOf_iff_prefix.mpr (List.prefix_append (m :: rest) back)
    simp [cutAt?, hhere]
  | cons c front ih =>
    -- A mark that started here would end before the last character of the one behind.
    have hhere : mark.isPrefixOf (c :: (front ++ mark ++ back)) = false := by
      rw [Bool.eq_false_iff]
      intro hmark
      have hpos := List.length_pos_iff.mpr hne
      have hwhole : c :: front ++ mark.dropLast <+: c :: (front ++ mark ++ back) := by
        have hlast := (List.dropLast_prefix mark).trans (List.prefix_append mark back)
        simpa using (List.prefix_append_right_inj (c :: front)).mpr hlast
      have hmark := List.prefix_of_prefix_length_le (List.isPrefixOf_iff_prefix.mp hmark) hwhole (by
        simp only [List.cons_append, List.length_cons, List.length_append, List.length_dropLast]
        omega)
      exact h hmark.isInfix
    have hrest : ¬ mark <:+: front ++ mark.dropLast := fun hlater =>
      h (hlater.trans (List.suffix_cons c _).isInfix)
    have hcut := ih hrest
    simp only [List.cons_append, cutAt?, hhere, Bool.false_eq_true, ↓reduceIte, hcut,
      Option.map_some]

theorem cutAt_eq_none {mark : List Char} (h : ¬ mark <:+: cs) : cutAt? mark cs = none := by
  induction cs with
  | nil =>
    have hne : mark.isEmpty = false := by
      rw [Bool.eq_false_iff]
      exact fun hnil => h (List.isEmpty_iff.mp hnil ▸ List.nil_infix)
    rw [cutAt?, hne]
    rfl
  | cons c cs ih =>
    have hhere : mark.isPrefixOf (c :: cs) = false := by
      rw [Bool.eq_false_iff]
      exact fun hmark => h (List.isPrefixOf_iff_prefix.mp hmark).isInfix
    have hrest := ih fun hlater => h (hlater.trans (List.suffix_cons c cs).isInfix)
    rw [cutAt?, hhere, hrest]
    rfl

theorem cutAt_front {mark front rest : List Char} (h : cutAt? mark cs = some (front, rest)) : front <+: cs := by
  induction cs generalizing front with
  | nil =>
    rw [cutAt?] at h
    split at h
    · cases h
      exact List.nil_prefix
    · cases h
  | cons c cs ih =>
    rw [cutAt?] at h
    split at h
    · cases h
      exact List.nil_prefix
    · obtain ⟨⟨later, rest'⟩, hcut, heq⟩ := Option.map_eq_some_iff.mp h
      cases heq
      exact List.cons_prefix_cons.mpr ⟨rfl, ih hcut⟩

theorem cutAt_sep {front : List Char} (h : sep ∉ front) (back : List Char) :
    cutAt? [sep] (front ++ sep :: back) = some (front, back) := by
  have hmark : ¬ [sep] <:+: front ++ [sep].dropLast := by
    rw [List.dropLast_singleton, List.append_nil, List.singleton_infix_iff]
    exact h
  simpa using cutAt_mark (List.cons_ne_nil sep []) hmark back

end Text

namespace OffsetIndex

/-- The length of each part, as the offset index keeps it. -/
def lengthsOf (parts : List (List Char)) : List Int :=
  (parts.map List.length).map Int.ofNat

theorem startsFrom_head (start : Int) {lengths : List Int} (h : lengths ≠ []) :
    (startsFrom start lengths)[0]? = some start := by
  cases lengths with
  | nil => exact absurd rfl h
  | cons n rest => rfl

theorem startsFrom_succ (start n : Int) (rest : List Int) (i : Nat) :
    (startsFrom start (n :: rest))[i + 1]? = (startsFrom (start + n + 1) rest)[i]? := rfl

/-- The part that a place lies in starts as many characters before it as precede it in the part. -/
theorem startsFrom_at (start : Int) (front back : List Char) :
    (startsFrom start (lengthsOf (Text.splitAt '\n' (front ++ back))))[front.count '\n']? =
      some (start + front.length - (Text.afterLast '\n' front).length) := by
  induction front generalizing start with
  | nil =>
    have hne : lengthsOf (Text.splitAt '\n' back) ≠ [] := by
      simp [lengthsOf, Text.splitAt_ne_nil]
    rw [List.nil_append, List.count_nil, startsFrom_head start hne]
    simp [Text.afterLast]
  | cons c front ih =>
    by_cases h : c = '\n'
    · subst h
      have hfirst : lengthsOf ([] :: Text.splitAt '\n' (front ++ back)) =
          0 :: lengthsOf (Text.splitAt '\n' (front ++ back)) := rfl
      rw [List.cons_append, Text.splitAt_cons_sep, hfirst, List.count_cons_self, startsFrom_succ, ih,
        Text.afterLast_cons_sep, List.length_cons]
      simp only [Option.some.injEq]
      omega
    · obtain ⟨part, parts, hs, hc⟩ := Text.splitAt_cons_ne h (front ++ back)
      have hlong : lengthsOf ((c :: part) :: parts) = (part.length + 1 : Int) :: lengthsOf parts := rfl
      rw [List.cons_append, hc, hlong, List.count_cons_of_ne h, Text.afterLast_cons]
      by_cases hmem : '\n' ∈ front
      · -- The first line is one longer than without `c`, so the later ones start one further on.
        have hshift := ih (start + 1)
        obtain ⟨m, hm⟩ : ∃ m, front.count '\n' = m + 1 :=
          ⟨front.count '\n' - 1, by have := List.count_pos_iff.mpr hmem; omega⟩
        have hshort : lengthsOf (part :: parts) = (part.length : Int) :: lengthsOf parts := rfl
        have hsame : start + (part.length + 1 : Int) + 1 = start + 1 + part.length + 1 := by omega
        rw [hs, hshort, hm, startsFrom_succ] at hshift
        rw [if_pos hmem, hm, startsFrom_succ, hsame, hshift, List.length_cons]
        simp only [Option.some.injEq]
        omega
      · rw [List.count_eq_zero.mpr hmem, if_neg hmem, if_neg h, startsFrom_head start (by simp)]
        simp only [Option.some.injEq]
        omega

/-- A column counts from the start of its line, up to one past the line's end. -/
theorem offset_ok {ix : OffsetIndex} {i column : Nat} {length start : Int}
    (hlength : ix.lineLengths[i]? = some length) (hstart : ix.lineStarts[i]? = some start)
    (hcolumn : (column : Int) ≤ length) :
    ix.offset ⟨i + 1, column + 1⟩ = .ok (start + column) := by
  have hrow : i < ix.lineLengths.length := (List.getElem?_eq_some_iff.mp hlength).1
  have hline : ¬ ((i : Int) + 1 < 1 ∨ (ix.lineCount : Int) < i + 1) := by
    unfold lineCount
    omega
  have hindex : ((i : Int) + 1 - 1).toNat = i := by omega
  have hwithin : ¬ ((column : Int) + 1 < 1 ∨ length + 1 < column + 1) := by omega
  simp only [offset, hindex, hlength, hstart, hline, hwithin, ↓reduceIte]
  congr 1
  omega

end OffsetIndex

namespace Document

/-- The position that a place of the text has: the line feeds before it, and the characters since
the last of them. -/
def positionAfter (front : List Char) : Position :=
  ⟨front.count '\n' + 1, (Text.afterLast '\n' front).length + 1⟩

theorem line_at {d : Document} {front back : List Char} (h : d.text = front ++ back) :
    d.lines[front.count '\n']? =
      some (Text.afterLast '\n' front ++ back.takeWhile (· != '\n')) := by
  rw [lines, h]
  exact Text.splitAt_at '\n' front back

/-- The index gives every place of the text its offset. -/
theorem offset_at {d : Document} {front back : List Char} (h : d.text = front ++ back) :
    d.offsetIndex.offset (positionAfter front) = .ok front.length := by
  have hline := line_at h
  have hlength : d.offsetIndex.lineLengths[front.count '\n']? =
      some (((Text.afterLast '\n' front ++ back.takeWhile (· != '\n')).length : Nat) : Int) := by
    simp [offsetIndex, lineLengths, hline]
  have hstart := OffsetIndex.startsFrom_at 0 front back
  rw [← h] at hstart
  have hwithin : ((Text.afterLast '\n' front).length : Int) ≤
      ((Text.afterLast '\n' front ++ back.takeWhile (· != '\n')).length : Nat) := by
    rw [List.length_append]
    omega
  rw [positionAfter, OffsetIndex.offset_ok hlength hstart hwithin]
  congr 1
  omega

end Document
end SourceLinks
