import Mathlib.Data.List.Chain
import SourceLinks.Document
import SourceLinks.Proofs.Lines
import SourceLinks.Proofs.Utf8

namespace SourceLinks

/-- What a raw text falls into, each piece a character of the normal form. -/
inductive Piece where
  /-- A line feed and so many carriage returns directly before it. -/
  | feed (returns : Nat)
  | carriageReturn
  | surrogate (code : Nat)
  | other (c : Char) (noBreak : c ≠ '\r' ∧ c ≠ '\n')

namespace Piece

def raw : Piece → RawText
  | .feed returns => List.replicate returns (.scalar '\r') ++ [.scalar '\n']
  | .carriageReturn => [.scalar '\r']
  | .surrogate code => [.surrogate code]
  | .other c _ => [.scalar c]

def char : Piece → Char
  | .feed _ => '\n'
  | .carriageReturn => '\n'
  | .surrogate _ => Char.ofNat 0xFFFD
  | .other c _ => c

def isFeed : Piece → Bool
  | .feed _ => true
  | _ => false

/-- A return directly before a line feed, or before returns that lead to one, belongs to it. -/
def MayPrecede (p q : Piece) : Prop :=
  p = .carriageReturn → q.isFeed = false

theorem char_ne_return (p : Piece) : p.char ≠ '\r' := by
  cases p with
  | feed returns => simp [char]
  | carriageReturn => simp [char]
  | surrogate code => simp [char]
  | other c noBreak => exact noBreak.1

end Piece

namespace RawText

/-- The pieces make up the text, and no return is left apart from the line feed that it leads to. -/
structure Divides (pieces : List Piece) (t : RawText) : Prop where
  whole : pieces.flatMap Piece.raw = t
  maximal : pieces.IsChain Piece.MayPrecede

/-- A return in front goes to a line feed that follows at once, or that other returns lead to. -/
def addReturn : List Piece → List Piece
  | .feed returns :: rest => .feed (returns + 1) :: rest
  | pieces => .carriageReturn :: pieces

def addChar (c : RawChar) (pieces : List Piece) : List Piece :=
  match c with
  | .surrogate code => .surrogate code :: pieces
  | .scalar c =>
    if hreturn : c = '\r' then addReturn pieces
    else if hfeed : c = '\n' then .feed 0 :: pieces
    else .other c ⟨hreturn, hfeed⟩ :: pieces

/-- The pieces of a text, found from its end. -/
def pieces (t : RawText) : List Piece :=
  t.foldr addChar []

theorem unifyFrom_return (pending : Nat) (t : RawText) :
    unifyFrom pending (.scalar '\r' :: t) = unifyFrom (pending + 1) t := rfl

theorem unifyFrom_feed (pending : Nat) (t : RawText) :
    unifyFrom pending (.scalar '\n' :: t) = .scalar '\n' :: unifyFrom 0 t := rfl

theorem unifyFrom_surrogate (pending code : Nat) (t : RawText) :
    unifyFrom pending (.surrogate code :: t) =
      List.replicate pending (.scalar '\n') ++ .surrogate code :: unifyFrom 0 t := rfl

theorem unifyFrom_other {c : Char} (h : c ≠ '\r' ∧ c ≠ '\n') (pending : Nat) (t : RawText) :
    unifyFrom pending (.scalar c :: t) =
      List.replicate pending (.scalar '\n') ++ .scalar c :: unifyFrom 0 t := by
  have hreturn : isReturn (.scalar c) = false := by
    rw [isReturn]
    exact fun heq => h.1 (RawChar.scalar.inj heq)
  have hfeed : isFeed (.scalar c) = false := by
    rw [isFeed]
    exact fun heq => h.2 (RawChar.scalar.inj heq)
  simp only [unifyFrom, hreturn, hfeed, Bool.false_eq_true, ↓reduceIte]

theorem unifyFrom_returns (pending n : Nat) (t : RawText) :
    unifyFrom pending (List.replicate n (.scalar '\r') ++ t) = unifyFrom (pending + n) t := by
  induction n generalizing pending with
  | zero => rfl
  | succ n ih =>
    rw [List.replicate_succ, List.cons_append, unifyFrom_return, ih, Nat.add_right_comm,
      Nat.add_assoc]

/-- Returns that lead to no line feed are breaks of their own, however many of them are pending. -/
theorem unifyFrom_pieces {pieces : List Piece} (pending : Nat)
    (hmax : pieces.IsChain Piece.MayPrecede)
    (hpending : 0 < pending → ∀ p ∈ pieces.head?, p.isFeed = false) :
    (unifyFrom pending (pieces.flatMap Piece.raw)).map RawChar.toChar =
      List.replicate pending '\n' ++ pieces.map Piece.char := by
  induction pieces generalizing pending with
  | nil => simp [unifyFrom, RawChar.toChar]
  | cons p rest ih =>
    rw [List.isChain_cons] at hmax
    have hrest := ih 0 hmax.2 (by simp)
    rw [List.flatMap_cons, List.map_cons]
    cases p with
    | feed returns =>
      have hnone : pending = 0 := by
        by_contra hsome
        simpa [Piece.isFeed] using hpending (Nat.pos_of_ne_zero hsome)
      subst hnone
      rw [Piece.raw, List.append_assoc, unifyFrom_returns, List.singleton_append, unifyFrom_feed,
        List.map_cons, hrest]
      rfl
    | carriageReturn =>
      -- One more return is pending, and the next piece is no line feed that could swallow them.
      have hlater := ih (pending + 1) hmax.2 fun _ q hq => hmax.1 q hq rfl
      rw [Piece.raw, List.singleton_append, unifyFrom_return, hlater, List.replicate_succ',
        List.append_assoc]
      rfl
    | surrogate code =>
      rw [Piece.raw, List.singleton_append, unifyFrom_surrogate, List.map_append, List.map_cons,
        hrest, List.map_replicate]
      rfl
    | other c noBreak =>
      rw [Piece.raw, List.singleton_append, unifyFrom_other noBreak, List.map_append, List.map_cons,
        hrest, List.map_replicate]
      rfl

theorem normalize_of_divides {pieces : List Piece} {t : RawText} (h : Divides pieces t) :
    t.normalize = pieces.map Piece.char := by
  rw [← h.whole]
  exact unifyFrom_pieces 0 h.maximal (by simp)

theorem feed_first_or (pieces : List Piece) :
    (∃ returns rest, pieces = .feed returns :: rest) ∨ ∀ p ∈ pieces.head?, p.isFeed = false := by
  cases pieces with
  | nil => exact .inr (by simp)
  | cons p rest =>
    cases p with
    | feed returns => exact .inl ⟨returns, rest, rfl⟩
    | carriageReturn => exact .inr (by simp [Piece.isFeed])
    | surrogate code => exact .inr (by simp [Piece.isFeed])
    | other c noBreak => exact .inr (by simp [Piece.isFeed])

theorem addReturn_apart {pieces : List Piece} (h : ∀ p ∈ pieces.head?, p.isFeed = false) :
    addReturn pieces = .carriageReturn :: pieces := by
  unfold addReturn
  split
  · simp [Piece.isFeed] at h
  · rfl

theorem Divides.cons {p : Piece} {pieces : List Piece} {t : RawText} (h : Divides pieces t)
    (hfirst : ∀ q ∈ pieces.head?, p.MayPrecede q) : Divides (p :: pieces) (p.raw ++ t) :=
  ⟨by rw [List.flatMap_cons, h.whole], h.maximal.cons hfirst⟩

theorem Divides.addReturn {pieces : List Piece} {t : RawText} (h : Divides pieces t) :
    Divides (RawText.addReturn pieces) (.scalar '\r' :: t) := by
  rcases feed_first_or pieces with ⟨returns, rest, rfl⟩ | hapart
  · refine ⟨?_, h.maximal.tail.cons (by simp [Piece.MayPrecede])⟩
    rw [← h.whole]
    rfl
  · rw [addReturn_apart hapart]
    exact h.cons fun q hq _ => hapart q hq

theorem Divides.addChar {pieces : List Piece} {t : RawText} (h : Divides pieces t) (c : RawChar) :
    Divides (RawText.addChar c pieces) (c :: t) := by
  unfold RawText.addChar
  split
  · exact h.cons (by simp [Piece.MayPrecede])
  split
  · rename_i hreturn
    subst hreturn
    exact h.addReturn
  split
  · rename_i hfeed
    subst hfeed
    exact h.cons (by simp [Piece.MayPrecede])
  · exact h.cons (by simp [Piece.MayPrecede])

/-- Every text can be divided. -/
theorem divides_pieces (t : RawText) : Divides t.pieces t := by
  induction t with
  | nil => exact ⟨rfl, .nil⟩
  | cons c t ih => exact ih.addChar c

theorem foldr_returns (n returns : Nat) (rest : List Piece) :
    (List.replicate n (.scalar '\r')).foldr addChar (.feed returns :: rest) =
      .feed (returns + n) :: rest := by
  induction n with
  | zero => rfl
  | succ n ih =>
    rw [List.replicate_succ, List.foldr_cons, ih]
    rfl

/-- A piece is found again in front of others. -/
theorem foldr_raw {p : Piece} {rest : List Piece} (h : ∀ q ∈ rest.head?, p.MayPrecede q) :
    p.raw.foldr addChar rest = p :: rest := by
  cases p with
  | feed returns =>
    rw [Piece.raw, List.foldr_append]
    exact (foldr_returns returns 0 rest).trans (by rw [Nat.zero_add])
  | carriageReturn => exact addReturn_apart fun q hq => h q hq rfl
  | surrogate code => rfl
  | other c noBreak => simp [Piece.raw, addChar, noBreak.1, noBreak.2]

/-- A text is divided in one way only. -/
theorem pieces_of_divides {pieces : List Piece} {t : RawText} (h : Divides pieces t) :
    pieces = t.pieces := by
  obtain ⟨rfl, hmax⟩ := h
  induction pieces with
  | nil => rfl
  | cons p rest ih =>
    rw [List.isChain_cons] at hmax
    have hrest := ih hmax.2
    rw [RawText.pieces] at hrest ⊢
    rw [List.flatMap_cons, List.foldr_append, ← hrest]
    exact (foldr_raw hmax.1).symm

theorem unifyFrom_ofChars {cs : List Char} (h : '\r' ∉ cs) :
    unifyFrom 0 (ofChars cs) = ofChars cs := by
  induction cs with
  | nil => rfl
  | cons c cs ih =>
    simp only [List.mem_cons, not_or] at h
    have hcons : ofChars (c :: cs) = .scalar c :: ofChars cs := rfl
    rw [hcons]
    by_cases hfeed : c = '\n'
    · rw [hfeed, unifyFrom_feed, ih h.2]
    · rw [unifyFrom_other ⟨Ne.symm h.1, hfeed⟩, ih h.2]
      rfl

/-- Text without returns is in normal form already. -/
theorem normalize_ofChars {cs : List Char} (h : '\r' ∉ cs) : (ofChars cs).normalize = cs := by
  rw [normalize, unifyBreaks, unifyFrom_ofChars h, ofChars, List.map_map]
  exact List.map_id cs

end RawText

/-- A document is the normal form of its raw text: there is one way to divide the raw text into
pieces, and each piece has become one character. Hence it has neither returns nor surrogates, its
encoding is valid, its lines are what stands between its line feeds, and it is its own normal
form. -/
theorem Document.ofRaw_is_normal (raw : RawText) (owner archive : String) :
    let d := Document.ofRaw raw owner archive
    (∃ pieces, RawText.Divides pieces raw ∧
      (∀ others, RawText.Divides others raw → others = pieces) ∧
      d.text = pieces.map Piece.char) ∧
    '\r' ∉ d.text ∧ (∀ c ∈ d.text, ¬ (0xD800 ≤ c.toNat ∧ c.toNat ≤ 0xDFFF)) ∧
    Utf8.decodeStrict d.encoded = .ok d.text ∧
    (∀ line ∈ d.lines, '\n' ∉ line) ∧ Text.joinWith ['\n'] d.lines = d.text ∧
    Document.ofRaw (RawText.ofChars d.text) owner archive = d := by
  intro d
  have hdivides := RawText.divides_pieces raw
  have htext : d.text = raw.pieces.map Piece.char := RawText.normalize_of_divides hdivides
  have hreturn : '\r' ∉ d.text := by
    rw [htext, List.mem_map]
    rintro ⟨p, -, hp⟩
    exact p.char_ne_return hp
  refine ⟨⟨raw.pieces, hdivides, fun others hothers => RawText.pieces_of_divides hothers, htext⟩,
    hreturn, ?_, Utf8.decodeStrict_encode d.text, ?_, Text.joinWith_splitAt '\n' d.text, ?_⟩
  · intro c _ hsurrogate
    have hrange := Utf8.scalar_range c
    omega
  · intro line hline
    exact Text.not_mem_of_mem_splitAt hline
  · rw [Document.ofRaw, RawText.normalize_ofChars hreturn]
    rfl

/-- Returns before a line feed go with it, the others are breaks. -/
example : RawText.normalize [.scalar '\r', .scalar '\r', .scalar '\n', .scalar '\r', .scalar '\r',
    .surrogate 0xDC00, .scalar '\r'] = ['\n', '\n', '\n', Char.ofNat 0xFFFD, '\n'] := by
  decide

end SourceLinks
