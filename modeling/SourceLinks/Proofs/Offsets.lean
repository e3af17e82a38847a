import Mathlib.Algebra.Order.BigOperators.Group.List
import Mathlib.Algebra.Ring.Int.Defs
import SourceLinks.Proofs.Lines

namespace SourceLinks

/-- On an earlier line, or on the same line and further left. -/
def Position.Before (p q : Position) : Prop :=
  p.line < q.line ∨ p.line = q.line ∧ p.column < q.column

theorem Position.before_trichotomy (p q : Position) : p.Before q ∨ p = q ∨ q.Before p := by
  obtain ⟨line, column⟩ := p
  obtain ⟨line', column'⟩ := q
  simp only [Position.Before, Position.mk.injEq]
  omega

namespace OffsetIndex

/-- The positions of a text: those of its characters, and one past the end of each line. -/
def Has (ix : OffsetIndex) (p : Position) : Prop :=
  1 ≤ p.line ∧ p.line ≤ ix.lineCount ∧
    ∃ length, ix.lineLengths[(p.line - 1).toNat]? = some length ∧
      1 ≤ p.column ∧ p.column ≤ length + 1

/-- The characters of the lines, and a break between each two. -/
def textLength (ix : OffsetIndex) : Int :=
  ix.lineLengths.sum + ix.lineCount - 1

/-- In a text whose first line starts at `start` and whose lines have these lengths, line `i` has
this place and length. -/
def LineAt (start : Int) (lengths : List Int) (i : Nat) (first length : Int) : Prop :=
  (startsFrom start lengths)[i]? = some first ∧ lengths[i]? = some length

section Lines
variable {start n first length first' length' : Int} {lengths rest : List Int} {i j : Nat}

theorem lineAt_zero : LineAt start (n :: rest) 0 first length ↔ first = start ∧ length = n := by
  simp [LineAt, startsFrom, eq_comm]

theorem lineAt_succ :
    LineAt start (n :: rest) (i + 1) first length ↔ LineAt (start + n + 1) rest i first length := by
  rfl

theorem lineAt_unique (h : LineAt start lengths i first length)
    (h' : LineAt start lengths i first' length') : first = first' ∧ length = length' :=
  ⟨Option.some.inj (h.1.symm.trans h'.1), Option.some.inj (h.2.symm.trans h'.2)⟩

theorem exists_lineAt (start : Int) (h : lengths[i]? = some length) :
    ∃ first, LineAt start lengths i first length := by
  induction lengths generalizing start i with
  | nil => simp at h
  | cons n rest ih =>
    cases i with
    | zero => exact ⟨start, rfl, h⟩
    | succ i => exact ih (start + n + 1) h

/-- Every line lies in the text. -/
theorem LineAt.within (h : LineAt start lengths i first length) (hpos : ∀ n ∈ lengths, 0 ≤ n) :
    start ≤ first ∧ 0 ≤ length ∧ first + length ≤ start + lengths.sum + lengths.length - 1 := by
  induction lengths generalizing start i with
  | nil => simp [LineAt] at h
  | cons n rest ih =>
    have hn := hpos n List.mem_cons_self
    have hrest : ∀ m ∈ rest, 0 ≤ m := fun m hm => hpos m (List.mem_cons_of_mem n hm)
    rw [List.sum_cons, List.length_cons]
    cases i with
    | zero =>
      obtain ⟨rfl, rfl⟩ := lineAt_zero.mp h
      have hsum := List.sum_nonneg hrest
      omega
    | succ i =>
      have hlater := ih (lineAt_succ.mp h) hrest
      omega

/-- A line ends before the next one starts. -/
theorem LineAt.apart (h : LineAt start lengths i first length)
    (h' : LineAt start lengths j first' length') (hpos : ∀ n ∈ lengths, 0 ≤ n) (hij : i < j) :
    first + length < first' := by
  induction lengths generalizing start i j with
  | nil => simp [LineAt] at h
  | cons n rest ih =>
    have hrest : ∀ m ∈ rest, 0 ≤ m := fun m hm => hpos m (List.mem_cons_of_mem n hm)
    obtain ⟨j, rfl⟩ := Nat.exists_eq_succ_of_ne_zero (Nat.ne_zero_of_lt hij)
    have hlater := lineAt_succ.mp h'
    cases i with
    | zero =>
      obtain ⟨rfl, rfl⟩ := lineAt_zero.mp h
      have hwithin := hlater.within hrest
      omega
    | succ i => exact ih (lineAt_succ.mp h) hlater hrest (Nat.lt_of_succ_lt_succ hij)

/-- Between its two ends the text has no gaps. -/
theorem exists_line_around {offset : Int} (hne : lengths ≠ []) (hfirst : start ≤ offset)
    (hlast : offset ≤ start + lengths.sum + lengths.length - 1) :
    ∃ i first length, LineAt start lengths i first length ∧
      first ≤ offset ∧ offset ≤ first + length := by
  induction lengths generalizing start with
  | nil => exact absurd rfl hne
  | cons n rest ih =>
    by_cases hhere : offset ≤ start + n
    · exact ⟨0, start, n, lineAt_zero.mpr ⟨rfl, rfl⟩, hfirst, hhere⟩
    · rw [List.sum_cons, List.length_cons] at hlast
      have hmore : rest ≠ [] := by
        rintro rfl
        simp only [List.sum_nil, List.length_nil] at hlast
        omega
      have hnext : start + n + 1 ≤ offset := by omega
      obtain ⟨i, first, length, hline, haround⟩ := ih hmore hnext (by omega)
      exact ⟨i + 1, first, length, hline, haround⟩

end Lines

variable {ix : OffsetIndex} {p q : Position} {a b : Int}

/-- An offset counts the characters up to a line and those on it before the column. -/
theorem offset_eq_ok : ix.offset p = .ok a ↔
    ∃ (i column : Nat) (first length : Int), LineAt 0 ix.lineLengths i first length ∧
      (column : Int) ≤ length ∧ p = ⟨i + 1, column + 1⟩ ∧ a = first + column := by
  constructor
  · intro h
    unfold offset at h
    split at h
    · cases h
    · rename_i hline
      split at h
      · rename_i length first hlength hfirst
        split at h
        · cases h
        · rename_i hcolumn
          refine ⟨(p.line - 1).toNat, (p.column - 1).toNat, first, length, ⟨hfirst, hlength⟩,
            by omega, ?_, ?_⟩
          · obtain ⟨line, column⟩ := p
            simp only [Position.mk.injEq] at hline hcolumn ⊢
            omega
          · have hoffset := Except.ok.inj h
            omega
      · cases h
  · rintro ⟨i, column, first, length, hline, hcolumn, rfl, rfl⟩
    exact offset_ok hline.2 hline.1 hcolumn

theorem offset_defined : (∃ a, ix.offset p = .ok a) ↔ ix.Has p := by
  constructor
  · rintro ⟨a, h⟩
    obtain ⟨i, column, first, length, hline, hcolumn, rfl, -⟩ := offset_eq_ok.mp h
    have hrow := (List.getElem?_eq_some_iff.mp hline.2).1
    have hindex : ((i : Int) + 1 - 1).toNat = i := by omega
    simp only [Has, lineCount, hindex]
    exact ⟨by omega, by omega, length, hline.2, by omega, by omega⟩
  · rintro ⟨hline, -, length, hlength, hfirst, hlast⟩
    obtain ⟨first, hat⟩ := exists_lineAt 0 hlength
    refine ⟨first + (p.column - 1).toNat, offset_eq_ok.mpr
      ⟨(p.line - 1).toNat, (p.column - 1).toNat, first, length, hat, by omega, ?_, rfl⟩⟩
    obtain ⟨line, column⟩ := p
    simp only [Position.mk.injEq] at hline hfirst ⊢
    omega

theorem offset_refused : (∃ e, ix.offset p = .error e) ↔ ¬ ix.Has p := by
  rw [← offset_defined]
  cases ix.offset p <;> simp

section Order
variable (hpos : ∀ n ∈ ix.lineLengths, 0 ≤ n)
include hpos

theorem offset_lt_of_before (hp : ix.offset p = .ok a) (hq : ix.offset q = .ok b)
    (h : p.Before q) : a < b := by
  obtain ⟨i, column, first, length, hat, hcolumn, rfl, rfl⟩ := offset_eq_ok.mp hp
  obtain ⟨j, column', first', length', hat', hcolumn', rfl, rfl⟩ := offset_eq_ok.mp hq
  simp only [Position.Before] at h
  rcases h with hline | ⟨hline, hleft⟩
  · have hends := hat.apart hat' hpos (by omega)
    omega
  · have hsame : i = j := by omega
    subst hsame
    obtain ⟨rfl, -⟩ := lineAt_unique hat hat'
    omega

theorem offset_lt_iff (hp : ix.offset p = .ok a) (hq : ix.offset q = .ok b) :
    a < b ↔ p.Before q := by
  refine ⟨?_, offset_lt_of_before hpos hp hq⟩
  intro hlt
  rcases Position.before_trichotomy p q with hbefore | rfl | hafter
  · exact hbefore
  · have hsame : a = b := Except.ok.inj (hp.symm.trans hq)
    omega
  · have hback := offset_lt_of_before hpos hq hp hafter
    omega

theorem offset_injective (hp : ix.offset p = .ok a) (hq : ix.offset q = .ok a) : p = q := by
  rcases Position.before_trichotomy p q with hbefore | hsame | hafter
  · exact absurd (offset_lt_of_before hpos hp hq hbefore) (Int.lt_irrefl a)
  · exact hsame
  · exact absurd (offset_lt_of_before hpos hq hp hafter) (Int.lt_irrefl a)

theorem offset_image (hne : ix.lineLengths ≠ []) :
    (∃ p, ix.offset p = .ok a) ↔ 0 ≤ a ∧ a ≤ ix.textLength := by
  simp only [textLength, lineCount]
  constructor
  · rintro ⟨p, h⟩
    obtain ⟨i, column, first, length, hat, hcolumn, -, rfl⟩ := offset_eq_ok.mp h
    have hwithin := hat.within hpos
    omega
  · rintro ⟨hfirst, hlast⟩
    obtain ⟨i, first, length, hat, hleft, hright⟩ :=
      exists_line_around hne hfirst (by omega)
    exact ⟨_, offset_eq_ok.mpr ⟨i, (a - first).toNat, first, length, hat, by omega, rfl, by omega⟩⟩

end Order

theorem length_joined {lines : List (List Char)} (hne : lines ≠ []) :
    ((Text.joinWith ['\n'] lines).length : Int) =
      (lengthsOf lines).sum + (lengthsOf lines).length - 1 := by
  induction lines with
  | nil => exact absurd rfl hne
  | cons line rest ih =>
    have hfirst : lengthsOf (line :: rest) = (line.length : Int) :: lengthsOf rest := rfl
    rw [hfirst, List.sum_cons, List.length_cons]
    cases rest with
    | nil => simp [Text.joinWith, lengthsOf]
    | cons next rest =>
      have hrest := ih (List.cons_ne_nil next rest)
      rw [Text.joinWith_cons_cons, List.length_append, List.length_append, List.length_singleton]
      omega

end OffsetIndex

namespace Document
variable (d : Document)

theorem textLength_offsetIndex : d.offsetIndex.textLength = d.text.length := by
  have hjoined := OffsetIndex.length_joined (Text.splitAt_ne_nil '\n' d.text)
  rw [Text.joinWith_splitAt] at hjoined
  exact hjoined.symm

theorem length_nonneg : ∀ n ∈ d.offsetIndex.lineLengths, 0 ≤ n := by
  intro n hn
  obtain ⟨length, -, rfl⟩ := List.mem_map.mp hn
  exact Int.natCast_nonneg length

/-- The position of a place of the text is the only one with its offset. -/
theorem position_of_offset {p : Position} {a : Int} (h : d.offsetIndex.offset p = .ok a) :
    p = positionAfter (d.text.take a.toNat) := by
  have hne : d.offsetIndex.lineLengths ≠ [] := by
    simp [offsetIndex, lineLengths, lines, Text.splitAt_ne_nil]
  obtain ⟨hfirst, hlast⟩ := (OffsetIndex.offset_image d.length_nonneg hne).mp ⟨p, h⟩
  rw [textLength_offsetIndex] at hlast
  have hplace := offset_at (List.take_append_drop a.toNat d.text).symm
  have hfront : ((d.text.take a.toNat).length : Int) = a := by
    rw [List.length_take]
    omega
  rw [hfront] at hplace
  exact OffsetIndex.offset_injective d.length_nonneg h hplace

end Document

namespace OffsetIndex

/-- Positions and offsets are two ways to write the same places of a text. -/
structure Faithful (ix : OffsetIndex) : Prop where
  /-- Every position of the text has an offset. -/
  defined : ∀ p, (∃ a, ix.offset p = .ok a) ↔ ix.Has p
  /-- Any other position is refused. -/
  refused : ∀ p, (∃ e, ix.offset p = .error e) ↔ ¬ ix.Has p
  /-- Offsets are in the order of the positions. -/
  ordered : ∀ p q a b, ix.offset p = .ok a → ix.offset q = .ok b → (a < b ↔ p.Before q)
  /-- Every place of the text has a position, the end of the text included. -/
  onto : ∀ a, (∃ p, ix.offset p = .ok a) ↔ 0 ≤ a ∧ a ≤ ix.textLength
  /-- In every text with such lines an offset leaves as many breaks before it, and as many
  characters since the last of them, as its position says. -/
  counted : ∀ lines : List (List Char), (∀ line ∈ lines, '\n' ∉ line) →
    lengthsOf lines = ix.lineLengths →
    let text := Text.joinWith ['\n'] lines
    (text.length : Int) = ix.textLength ∧
      ∀ p a, ix.offset p = .ok a →
        ((text.take a.toNat).count '\n' : Int) = p.line - 1 ∧
        ((Text.afterLast '\n' (text.take a.toNat)).length : Int) = p.column - 1

/-- The index is an order isomorphism: between the positions of a text, line by line, and its
offsets from zero to the end. -/
theorem index_is_faithful (ix : OffsetIndex) (hne : ix.lineLengths ≠ [])
    (hpos : ∀ n ∈ ix.lineLengths, 0 ≤ n) : ix.Faithful where
  defined _ := offset_defined
  refused _ := offset_refused
  ordered _ _ _ _ hp hq := offset_lt_iff hpos hp hq
  onto _ := offset_image hpos hne
  counted lines hlines hlengths := by
    intro text
    -- A document with this text has this index, and its places have their own positions there.
    let d : Document := ⟨text, "", ""⟩
    have hindex : d.offsetIndex = ix := by
      have hsome : lines ≠ [] := by
        rintro rfl
        exact hne hlengths.symm
      have hsame : lengthsOf (Text.splitAt '\n' text) = ix.lineLengths := by
        rw [Text.splitAt_joinWith hsome hlines, hlengths]
      exact congrArg OffsetIndex.mk hsame
    rw [← hindex]
    refine ⟨d.textLength_offsetIndex.symm, ?_⟩
    intro p a h
    have hposition : p = Document.positionAfter (text.take a.toNat) := d.position_of_offset h
    simp only [hposition, Document.positionAfter]
    omega

/-- An empty line between two others: the end of the first, the empty one and the start of the last
are three places. -/
theorem index_is_faithful_around_empty_line :
    let ix : OffsetIndex := ⟨[2, 0, 3]⟩
    ix.Faithful ∧ ix.lineLengths ≠ [] ∧ (∀ n ∈ ix.lineLengths, 0 ≤ n) ∧
      ix.offset ⟨1, 3⟩ = .ok 2 ∧ ix.offset ⟨2, 1⟩ = .ok 3 ∧ ix.offset ⟨3, 1⟩ = .ok 4 := by
  intro ix
  have hne : ix.lineLengths ≠ [] := by decide
  have hpos : ∀ n ∈ ix.lineLengths, 0 ≤ n := by decide
  exact ⟨index_is_faithful ix hne hpos, hne, hpos, rfl, rfl, rfl⟩

end OffsetIndex
end SourceLinks
