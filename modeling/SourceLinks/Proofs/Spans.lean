import SourceLinks.Proofs.Entering
import SourceLinks.Proofs.Lines
import SourceLinks.Proofs.Utf8

namespace SourceLinks

namespace Utf8

/-- Every octet of a character outside ASCII is above ASCII. -/
theorem octet_of_mem_encodeChar {c : Char} {b : UInt8} (h : b ∈ encodeChar c) :
    b.toNat = c.toNat ∨ 0x80 ≤ b.toNat := by
  have hrange := scalar_range c
  generalize hn : c.toNat = n at hrange
  simp only [encodeChar, hn] at h
  split at h
  · rename_i h1
    rw [List.mem_singleton] at h
    rw [h, toNat_octet (by omega)]
    exact .inl rfl
  split at h
  · simp only [List.mem_cons, List.not_mem_nil, or_false] at h
    rcases h with rfl | rfl <;> rw [toNat_octet (by omega)] <;> omega
  split at h
  · simp only [List.mem_cons, List.not_mem_nil, or_false] at h
    rcases h with rfl | rfl | rfl <;> rw [toNat_octet (by omega)] <;> omega
  · simp only [List.mem_cons, List.not_mem_nil, or_false] at h
    rcases h with rfl | rfl | rfl | rfl <;> rw [toNat_octet (by omega)] <;> omega

/-- No other character has the octet of a line feed. -/
theorem feed_not_mem_encodeChar {c : Char} (h : c ≠ '\n') : (10 : UInt8) ∉ encodeChar c := by
  intro hmem
  rcases octet_of_mem_encodeChar hmem with he | he
  · exact h (Char.toNat_inj.mp he.symm)
  · simp at he

theorem eq_nil_of_encode_eq_nil {cs : List Char} (h : encode cs = []) : cs = [] := by
  have hback := decodeDropping_encode cs
  rw [h] at hback
  exact hback.symm

theorem length_encode_ascii {cs : List Char} (h : Document.isAscii cs = true) :
    (encode cs).length = cs.length := by
  induction cs with
  | nil => rfl
  | cons c cs ih =>
    simp only [Document.isAscii, List.all_cons, Bool.and_eq_true, decide_eq_true_eq] at h ih
    obtain ⟨hc, hcs⟩ := h
    have hone : (encodeChar c).length = 1 := by simp [encodeChar, hc]
    rw [encode_cons, List.length_append, hone, ih hcs, List.length_cons, Nat.add_comm]

end Utf8

namespace Point
open Utf8

theorem foldl_after_of_not_mem {bytes : List UInt8} (h : (10 : UInt8) ∉ bytes) (p : Point) :
    bytes.foldl Point.after p = ⟨p.row, p.column + bytes.length⟩ := by
  induction bytes generalizing p with
  | nil => simp
  | cons b bytes ih =>
    simp only [List.mem_cons, not_or] at h
    rw [List.foldl_cons, ih h.2, Point.after, if_neg (Ne.symm h.1), List.length_cons]
    simp only [Point.mk.injEq, true_and]
    omega

/-- Reading on past a text: its line feeds are new rows, and the column counts the octets of what
follows the last of them. -/
theorem foldl_after_encode (cs : List Char) (p : Point) :
    (encode cs).foldl Point.after p =
      ⟨p.row + cs.count '\n',
        if '\n' ∈ cs then ((encode (Text.afterLast '\n' cs)).length : Int)
        else p.column + (encode cs).length⟩ := by
  induction cs generalizing p with
  | nil => simp [encode]
  | cons c cs ih =>
    rw [encode_cons, List.foldl_append, ih, Text.afterLast_cons]
    by_cases hc : c = '\n'
    · subst hc
      have hfeed : (encodeChar '\n').foldl Point.after p = ⟨p.row + 1, 0⟩ := rfl
      rw [hfeed, List.count_cons_self]
      by_cases hmem : '\n' ∈ cs
      · simp only [hmem, List.mem_cons, or_true, ↓reduceIte, Point.mk.injEq, and_true]
        omega
      · simp only [hmem, List.mem_cons, or_false, ↓reduceIte, Point.mk.injEq]
        omega
    · rw [foldl_after_of_not_mem (feed_not_mem_encodeChar hc), List.count_cons_of_ne hc]
      by_cases hmem : '\n' ∈ cs
      · simp [hmem]
      · simp only [hmem, List.mem_cons, or_false, Ne.symm hc, ↓reduceIte, List.length_append,
          Point.mk.injEq, true_and]
        omega

/-- The point of a character boundary of a text. -/
theorem ofByte_encode (front back : List Char) :
    Point.ofByte (encode (front ++ back)).toArray (encode front).length =
      ⟨front.count '\n', (encode (Text.afterLast '\n' front)).length⟩ := by
  have htake : (encode (front ++ back)).take (encode front).length = encode front := by
    rw [encode_append, List.take_left]
  have hin : (encode front).length - (encode (front ++ back)).length = 0 := by
    rw [encode_append, List.length_append]
    omega
  simp only [Point.ofByte, htake, List.size_toArray, hin, foldl_after_encode]
  by_cases hmem : '\n' ∈ front
  · simp [hmem]
  · simp [hmem, Text.afterLast_of_not_mem hmem]

end Point

namespace Document
open Utf8

/-- Octet columns become character columns, on lines of ASCII and on others. -/
theorem charPosition_at {d : Document} {front back : List Char} (h : d.text = front ++ back) :
    d.charPosition ⟨front.count '\n', (encode (Text.afterLast '\n' front)).length⟩ =
      positionAfter front := by
  have hline := line_at h
  have hrow : ¬ ((front.count '\n' : Int) < 0) := by omega
  simp only [charPosition, hrow, ↓reduceIte, Int.toNat_natCast, hline]
  split
  · rename_i hascii
    simp only [isAscii, List.all_append, Bool.and_eq_true] at hascii
    rw [length_encode_ascii hascii.1]
    rfl
  · have hbefore : Text.upTo ((encode (Text.afterLast '\n' front)).length : Int)
        (encode (Text.afterLast '\n' front ++ back.takeWhile (· != '\n'))) =
        encode (Text.afterLast '\n' front) := by
      rw [Text.upTo, if_pos (by omega), Int.toNat_natCast, encode_append, List.take_left]
    rw [hbefore, decodeDropping_encode]
    rfl

end Document

/-- An octet of the encoded text at which a character starts, or the end of the text. -/
def IsBoundary (text : List Char) (b : Nat) : Prop :=
  ∃ front back, text = front ++ back ∧ b = (Utf8.encode front).length

/-- Of two boundaries the later one has more characters before it. -/
theorem IsBoundary.between {text : List Char} {a b : Nat} (ha : IsBoundary text a)
    (hb : IsBoundary text b) (hab : a ≤ b) :
    ∃ front mid back, text = front ++ mid ++ back ∧ a = (Utf8.encode front).length ∧
      b = (Utf8.encode (front ++ mid)).length := by
  obtain ⟨front, tail, htext, rfl⟩ := ha
  obtain ⟨upto, back, htext', rfl⟩ := hb
  rcases List.append_eq_append_iff.mp (htext.symm.trans htext') with ⟨mid, rfl, rfl⟩ | ⟨mid, rfl, rfl⟩
  · exact ⟨front, mid, back, htext', rfl, rfl⟩
  · rw [Utf8.encode_append, List.length_append] at hab
    have hmid : mid = [] := Utf8.eq_nil_of_encode_eq_nil (List.length_eq_zero_iff.mp (by omega))
    subst hmid
    exact ⟨upto, [], tail, by simpa using htext, by simp, by simp⟩

namespace Source
variable {s : Source} {front mid back : List Char}

theorem position_at {b : Nat} (h : s.document.text = front ++ back)
    (hb : b = (Utf8.encode front).length) :
    s.document.charPosition (Point.ofByte s.code b) = Document.positionAfter front := by
  rw [s.code_eq, Document.encoded, h, hb, Point.ofByte_encode, Document.charPosition_at h]

end Source

end SourceLinks
