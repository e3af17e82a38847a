import SourceLinks.Text.Strict

namespace SourceLinks.Utf8

theorem toNat_octet {n : Nat} (h : n < 256) : (UInt8.ofNat n).toNat = n :=
  UInt8.toNat_ofNat_of_lt' h

theorem decodeFrom_cons (p : Pending) (b : UInt8) (rest : List UInt8) :
    decodeFrom p (b :: rest) = (step p b).2 ++ decodeFrom (step p b).1 rest := by
  cases p <;> rfl

/-- An octet in the expected range goes on with the open character, or completes it. -/
theorem decodeFrom_within {need value low high m : Nat} (rest : List UInt8) (hm : m < 64)
    (hlow : low ≤ 0x80 + m) (hhigh : 0x80 + m ≤ high) :
    decodeFrom (.within need value low high) (UInt8.ofNat (0x80 + m) :: rest) =
      if need ≤ 1 then some (Char.ofNat (value * 64 + m)) :: decodeFrom .idle rest
      else decodeFrom (.within (need - 1) (value * 64 + m) 0x80 0xBF) rest := by
  have hb : (UInt8.ofNat (0x80 + m)).toNat = 0x80 + m := toNat_octet (by omega)
  have hv : value * 64 + (0x80 + m - 0x80) = value * 64 + m := by omega
  rw [decodeFrom_cons]
  simp only [step, hb, hlow, hhigh, and_self, ↓reduceIte, hv]
  split <;> rfl

theorem start_one {n : Nat} (h : n < 0x80) :
    start (UInt8.ofNat n) = (.idle, [some (Char.ofNat n)]) := by
  have hb : (UInt8.ofNat n).toNat = n := toNat_octet (by omega)
  simp only [start, hb, h, ↓reduceIte]

theorem start_two {n : Nat} (hlow : 0x80 ≤ n) (hhigh : n < 0x800) :
    start (UInt8.ofNat (0xC0 + n / 64)) = (.within 1 (n / 64) 0x80 0xBF, []) := by
  have hb : (UInt8.ofNat (0xC0 + n / 64)).toNat = 0xC0 + n / 64 := toNat_octet (by omega)
  have h1 : ¬ 0xC0 + n / 64 < 0x80 := by omega
  have h2 : ¬ 0xC0 + n / 64 < 0xC2 := by omega
  have h3 : 0xC0 + n / 64 < 0xE0 := by omega
  have hv : 0xC0 + n / 64 - 0xC0 = n / 64 := by omega
  simp only [start, hb, h1, h2, h3, hv, ↓reduceIte]

/-- The ranges of the second octet leave out long forms and surrogates, but no character. -/
theorem start_three {n : Nat} (hlow : 0x800 ≤ n) (hhigh : n < 0x10000)
    (hvalid : n < 0xD800 ∨ 0xDFFF < n) :
    ∃ low high, start (UInt8.ofNat (0xE0 + n / 4096)) = (.within 2 (n / 4096) low high, []) ∧
      low ≤ 0x80 + n / 64 % 64 ∧ 0x80 + n / 64 % 64 ≤ high := by
  have hb : (UInt8.ofNat (0xE0 + n / 4096)).toNat = 0xE0 + n / 4096 := toNat_octet (by omega)
  have h1 : ¬ 0xE0 + n / 4096 < 0x80 := by omega
  have h2 : ¬ 0xE0 + n / 4096 < 0xC2 := by omega
  have h3 : ¬ 0xE0 + n / 4096 < 0xE0 := by omega
  simp only [start, hb, h1, h2, h3, ↓reduceIte]
  by_cases hE0 : n / 4096 = 0
  · exact ⟨0xA0, 0xBF, by simp [hE0], by omega, by omega⟩
  by_cases hED : n / 4096 = 13
  · exact ⟨0x80, 0x9F, by simp [hED], by omega, by omega⟩
  have h4 : ¬ 0xE0 + n / 4096 = 0xE0 := by omega
  have h5 : ¬ 0xE0 + n / 4096 = 0xED := by omega
  have h6 : 0xE0 + n / 4096 < 0xF0 := by omega
  have hv : 0xE0 + n / 4096 - 0xE0 = n / 4096 := by omega
  exact ⟨0x80, 0xBF, by simp only [h4, h5, h6, hv, ↓reduceIte], by omega, by omega⟩

theorem start_four {n : Nat} (hlow : 0x10000 ≤ n) (hhigh : n < 0x110000) :
    ∃ low high, start (UInt8.ofNat (0xF0 + n / 262144)) = (.within 3 (n / 262144) low high, []) ∧
      low ≤ 0x80 + n / 4096 % 64 ∧ 0x80 + n / 4096 % 64 ≤ high := by
  have hb : (UInt8.ofNat (0xF0 + n / 262144)).toNat = 0xF0 + n / 262144 := toNat_octet (by omega)
  have h1 : ¬ 0xF0 + n / 262144 < 0x80 := by omega
  have h2 : ¬ 0xF0 + n / 262144 < 0xC2 := by omega
  have h3 : ¬ 0xF0 + n / 262144 < 0xE0 := by omega
  have h4 : ¬ 0xF0 + n / 262144 = 0xE0 := by omega
  have h5 : ¬ 0xF0 + n / 262144 = 0xED := by omega
  have h6 : ¬ 0xF0 + n / 262144 < 0xF0 := by omega
  simp only [start, hb, h1, h2, h3, h4, h5, h6, ↓reduceIte]
  by_cases hF0 : n / 262144 = 0
  · exact ⟨0x90, 0xBF, by simp [hF0], by omega, by omega⟩
  by_cases hF4 : n / 262144 = 4
  · exact ⟨0x80, 0x8F, by simp [hF4], by omega, by omega⟩
  have h7 : ¬ 0xF0 + n / 262144 = 0xF0 := by omega
  have h8 : 0xF0 + n / 262144 < 0xF4 := by omega
  have hv : 0xF0 + n / 262144 - 0xF0 = n / 262144 := by omega
  exact ⟨0x80, 0xBF, by simp only [h7, h8, hv, ↓reduceIte], by omega, by omega⟩

/-- A character is a scalar value: below the surrogates, or above them and in range. -/
theorem scalar_range (c : Char) :
    c.toNat < 0xD800 ∨ (0xDFFF < c.toNat ∧ c.toNat < 0x110000) := by
  rcases c.valid with h | ⟨h, h'⟩
  · exact .inl h
  · exact .inr ⟨h, h'⟩

/-- The octets of a character are read back as that character, whatever follows them. -/
theorem decodeFrom_encodeChar (c : Char) (rest : List UInt8) :
    decodeFrom .idle (encodeChar c ++ rest) = some c :: decodeFrom .idle rest := by
  have hc : Char.ofNat c.toNat = c := Char.ofNat_toNat c
  have hrange := scalar_range c
  generalize hn : c.toNat = n at hc hrange
  simp only [encodeChar, hn]
  split
  · rename_i h1
    rw [List.singleton_append, decodeFrom_cons, step, start_one h1, hc]
    rfl
  split
  · rename_i h1 h2
    have hstart := start_two (n := n) (by omega) h2
    have hv : n / 64 * 64 + n % 64 = n := by omega
    rw [List.cons_append, List.cons_append, List.nil_append, decodeFrom_cons, step, hstart]
    simp only [List.nil_append]
    rw [decodeFrom_within rest (by omega) (by omega) (by omega), if_pos (Nat.le_refl 1), hv, hc]
  split
  · rename_i h1 h2 h3
    obtain ⟨low, high, hstart, hlow, hhigh⟩ := start_three (n := n) (by omega) h3 (by omega)
    have hv : (n / 4096 * 64 + n / 64 % 64) * 64 + n % 64 = n := by omega
    simp only [List.cons_append, List.nil_append]
    rw [decodeFrom_cons, step, hstart]
    simp only [List.nil_append]
    rw [decodeFrom_within _ (by omega) hlow hhigh, if_neg (by omega),
      decodeFrom_within rest (by omega) (by omega) (by omega), if_pos (Nat.le_refl 1), hv, hc]
  · rename_i h1 h2 h3
    obtain ⟨low, high, hstart, hlow, hhigh⟩ := start_four (n := n) (by omega) (by omega)
    have hv : ((n / 262144 * 64 + n / 4096 % 64) * 64 + n / 64 % 64) * 64 + n % 64 = n := by omega
    simp only [List.cons_append, List.nil_append]
    rw [decodeFrom_cons, step, hstart]
    simp only [List.nil_append]
    rw [decodeFrom_within _ (by omega) hlow hhigh, if_neg (by omega),
      decodeFrom_within _ (by omega) (by omega) (by omega), if_neg (by omega),
      decodeFrom_within rest (by omega) (by omega) (by omega), if_pos (Nat.le_refl 1), hv, hc]

theorem encode_cons (c : Char) (cs : List Char) : encode (c :: cs) = encodeChar c ++ encode cs :=
  List.flatMap_cons

@[simp] theorem encode_append (a b : List Char) : encode (a ++ b) = encode a ++ encode b :=
  List.flatMap_append

theorem decode_encode (cs : List Char) : decode (encode cs) = cs.map some := by
  unfold decode
  induction cs with
  | nil => rfl
  | cons c cs ih => rw [encode_cons, decodeFrom_encodeChar, ih, List.map_cons]

/-- Encoded text is read back as it was. -/
theorem decodeDropping_encode (cs : List Char) : decodeDropping (encode cs) = cs := by
  rw [decodeDropping, decode_encode, List.filterMap_map]
  exact List.filterMap_some

theorem decodeReplacing_encode (cs : List Char) : decodeReplacing (encode cs) = cs := by
  rw [decodeReplacing, decode_encode, List.map_map]
  exact List.map_id cs

/-- An octet completes a character, opens one or goes on with it, or shows an invalid part. -/
theorem step_cases (p : Pending) (b : UInt8) :
    (∃ c, step p b = (.idle, [some c])) ∨
      (∃ need value low high, step p b = (.within need value low high, [])) ∨
      none ∈ (step p b).2 := by
  generalize hstep : step p b = shape
  cases p with
  | idle =>
    simp only [step, start] at hstep
    repeat' split at hstep
    all_goals
      subst hstep
      simp
  | within need value low high =>
    simp only [step] at hstep
    repeat' split at hstep
    all_goals
      subst hstep
      simp

-- Lean runs out of depth on its own equations for `strictFrom`, so the two steps are stated here.
theorem strictFrom_idle (count : Nat) (part : List UInt8) (b : UInt8) (rest : List UInt8) :
    strictFrom count part .idle (b :: rest) =
      match step .idle b with
      | (.idle, [some c]) => (strictFrom (count + 1) [] .idle rest).map (c :: ·)
      | (.idle, _) => .error ⟨count, [b], "invalid start byte"⟩
      | (next, _) => strictFrom (count + 1) [b] next rest := rfl

theorem strictFrom_within (count : Nat) (part : List UInt8) (need value low high : Nat) (b : UInt8)
    (rest : List UInt8) :
    strictFrom count part (.within need value low high) (b :: rest) =
      match step (.within need value low high) b with
      | (.idle, [some c]) => (strictFrom (count + 1) [] .idle rest).map (c :: ·)
      | (next, []) => strictFrom (count + 1) (b :: part) next rest
      | _ => .error ⟨count - part.length, part.reverse, "invalid continuation byte"⟩ := rfl

theorem strictFrom_complete {p : Pending} {b : UInt8} {c : Char}
    (h : step p b = (.idle, [some c])) (count : Nat) (part rest : List UInt8) :
    strictFrom count part p (b :: rest) = (strictFrom (count + 1) [] .idle rest).map (c :: ·) := by
  cases p with
  | idle => rw [strictFrom_idle, h]
  | within => rw [strictFrom_within, h]

theorem strictFrom_open {p : Pending} {b : UInt8} {need value low high : Nat}
    (h : step p b = (.within need value low high, [])) (count : Nat) (part rest : List UInt8) :
    ∃ part', strictFrom count part p (b :: rest) =
      strictFrom (count + 1) part' (.within need value low high) rest := by
  cases p with
  | idle => exact ⟨[b], by rw [strictFrom_idle, h]⟩
  | within => exact ⟨b :: part, by rw [strictFrom_within, h]⟩

/-- Octets without an invalid part are accepted. -/
theorem strictFrom_of_decodeFrom {p : Pending} {bytes : List UInt8} {cs : List Char}
    (h : decodeFrom p bytes = cs.map some) (count : Nat) (part : List UInt8) :
    strictFrom count part p bytes = .ok cs := by
  induction bytes generalizing p cs count part with
  | nil =>
    cases p with
    | idle =>
      have hnone : cs = [] := List.map_eq_nil_iff.mp h.symm
      rw [hnone]
      rfl
    | within =>
      have hin : none ∈ cs.map some := h ▸ List.mem_singleton_self none
      simp at hin
  | cons b rest ih =>
    rw [decodeFrom_cons] at h
    rcases step_cases p b with ⟨c, hstep⟩ | ⟨need, value, low, high, hstep⟩ | hinvalid
    · rw [hstep] at h
      obtain ⟨d, ds, rfl, hd, hds⟩ := List.map_eq_cons_iff.mp h.symm
      cases hd
      rw [strictFrom_complete hstep, ih hds.symm]
      rfl
    · rw [hstep] at h
      obtain ⟨part', hopen⟩ := strictFrom_open hstep count part rest
      rw [hopen]
      exact ih h (count + 1) part'
    · have hin : none ∈ cs.map some := h ▸ List.mem_append_left _ hinvalid
      simp at hin

theorem decodeStrict_encode (cs : List Char) : decodeStrict (encode cs) = .ok cs :=
  strictFrom_of_decodeFrom (decode_encode cs) 0 []

end SourceLinks.Utf8
