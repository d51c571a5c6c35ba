import Mathlib.Tactic.Common
import Cascade.Text.Escape

/-!
# Escapes are read piece by piece

The body of a quoted literal is a row of pieces: characters that stand for themselves and pairs of a
backslash and a letter.  Where a body may be cut depends on how many backslashes there are in a row,
and from which end they are counted.  Decoding counts them from the left.  So it goes on behind some
pieces as it would at the start of a body, and what it reports is the first thing that is no piece.

## Main definitions

* `Text.Escape.pairs` : the characters that can be escaped, each with its letter.
* `Text.Escape.Piece` : a piece of a body, with how it is written and what it stands for.
* `Text.Escape.Mistake.StandsBefore` : a mistake may stand in front of the given rest.

## Main results

* `Text.Escape.decode_pieces_append` : pieces are decoded one by one, whatever is behind them.
* `Text.Escape.exists_pieces` : a body is a row of pieces, up to the first mistake.
* `Text.Escape.decode_by_pieces` : decoding goes on behind what it can read, and it reports the
  first mistake.
-/

namespace Cascade.Text.Escape

/-! ### Pieces -/

/-- The characters that can be escaped, each with the letter that stands behind the backslash. -/
def pairs : List (Char × Char) :=
  [('\n', 'n'), ('\t', 't'), ('\r', 'r'), ('\'', '\''), ('"', '"'), ('\\', '\\')]

theorem letter?_of_mem_pairs {c letter : Char} (h : (c, letter) ∈ pairs) :
    letter? letter = some c := by
  have hpairs : ∀ pair ∈ pairs, letter? pair.2 = some pair.1 := by decide
  exact hpairs _ h

theorem mem_pairs_of_letter? {c letter : Char} (h : letter? letter = some c) :
    (c, letter) ∈ pairs := by
  unfold letter? at h
  split at h <;> cases h <;> decide

/-- A letter without a meaning is not that of an escape. -/
theorem letter?_eq_none_iff {letter : Char} :
    letter? letter = none ↔ letter ∉ pairs.map Prod.snd := by
  rw [Option.eq_none_iff_forall_ne_some, List.mem_map]
  constructor
  · rintro h ⟨⟨c, letter⟩, hpair, rfl⟩
    exact h c (letter?_of_mem_pairs hpair)
  · exact fun h c hc => h ⟨(c, letter), mem_pairs_of_letter? hc, rfl⟩

/-- A piece of a body: a character that stands for itself, or an escape. -/
inductive Piece where
  | plain (c : Char) (ne_backslash : c ≠ '\\')
  | escaped (c letter : Char) (mem_pairs : (c, letter) ∈ pairs)

namespace Piece

/-- How a piece is written. -/
def chars : Piece → List Char
  | plain c _ => [c]
  | escaped _ letter _ => ['\\', letter]

/-- The character that a piece stands for. -/
def value : Piece → Char
  | plain c _ => c
  | escaped c _ _ => c

end Piece

/-- A piece is decoded on its own. -/
theorem decode_piece_append (piece : Piece) (rest : List Char) :
    decode (piece.chars ++ rest) = (decode rest).map (piece.value :: ·) := by
  cases piece with
  | plain c hne => exact decode_cons_of_ne hne rest
  | escaped c letter hpair =>
    change decode ('\\' :: letter :: rest) = _
    rw [decode_pair, letter?_of_mem_pairs hpair]
    rfl

/-- Pieces are decoded one by one, whatever is behind them. -/
theorem decode_pieces_append (pieces : List Piece) (rest : List Char) :
    decode (pieces.flatMap Piece.chars ++ rest) =
      (decode rest).map (pieces.map Piece.value ++ ·) := by
  induction pieces with
  | nil =>
    change decode rest = _
    cases decode rest <;> rfl
  | cons piece pieces ih =>
    rw [List.flatMap_cons, List.append_assoc, decode_piece_append, ih]
    cases decode rest <;> rfl

/-! ### Mistakes -/

/-- Whether a mistake may stand in front of the given rest of a body.  A letter is a mistake whatever
is behind it if it is not that of an escape, and a backslash if there is nothing behind it. -/
def Mistake.StandsBefore : Mistake → List Char → Prop
  | unknown letter, _ => letter ∉ pairs.map Prod.snd
  | dangling, rest => rest = []

/-- A mistake is found where it stands. -/
theorem decode_mistake_append {mistake : Mistake} {rest : List Char}
    (h : mistake.StandsBefore rest) :
    decode (mistake.sequence.toList ++ rest) = .error mistake := by
  cases mistake with
  | unknown letter =>
    rw [Mistake.sequence, String.toList_ofList]
    change decode ('\\' :: letter :: rest) = _
    rw [decode_pair, letter?_eq_none_iff.2 h]
  | dangling =>
    obtain rfl : rest = [] := h
    rfl

/-- Whether there is no piece at the front of some characters: they are at their end, or a mistake
stands there. -/
def Stops (rest : List Char) : Prop :=
  rest = [] ∨ ∃ (mistake : Mistake) (tail : List Char), mistake.StandsBefore tail ∧
    rest = mistake.sequence.toList ++ tail

/-- A body is a row of pieces, up to its end or to the first mistake in it. -/
theorem exists_pieces (body : List Char) :
    ∃ (pieces : List Piece) (rest : List Char),
      body = pieces.flatMap Piece.chars ++ rest ∧ Stops rest := by
  induction body using decode.induct with
  | case1 => exact ⟨[], [], rfl, .inl rfl⟩
  | case2 => exact ⟨[], ['\\'], rfl, .inr ⟨.dangling, [], rfl, rfl⟩⟩
  | case3 letter cs hnone =>
    refine ⟨[], '\\' :: letter :: cs, rfl, .inr ⟨.unknown letter, cs, ?_, ?_⟩⟩
    · exact letter?_eq_none_iff.1 hnone
    · rw [Mistake.sequence, String.toList_ofList]
      rfl
  | case4 letter cs c hsome ih =>
    obtain ⟨pieces, rest, rfl, hrest⟩ := ih
    exact ⟨.escaped c letter (mem_pairs_of_letter? hsome) :: pieces, rest, rfl, hrest⟩
  | case5 c cs hlone hpair ih =>
    obtain ⟨pieces, rest, rfl, hrest⟩ := ih
    have hne : c ≠ '\\' := by
      intro hc
      cases hbody : pieces.flatMap Piece.chars ++ rest with
      | nil => exact hlone hc hbody
      | cons letter cs => exact hpair letter cs hc hbody
    exact ⟨.plain c hne :: pieces, rest, rfl, hrest⟩

/-! ### What decoding gives -/

theorem decode_pieces (pieces : List Piece) :
    decode (pieces.flatMap Piece.chars) = .ok (pieces.map Piece.value) := by
  have h := decode_pieces_append pieces []
  rw [List.append_nil, decode_nil] at h
  rw [h]
  exact congrArg Except.ok (List.append_nil _)

/-- The first mistake is reported, whatever is behind it. -/
theorem decode_pieces_mistake (pieces : List Piece) {mistake : Mistake} {rest : List Char}
    (h : mistake.StandsBefore rest) :
    decode (pieces.flatMap Piece.chars ++ (mistake.sequence.toList ++ rest)) = .error mistake := by
  rw [decode_pieces_append, decode_mistake_append h]
  rfl

/-- A body can be decoded if it is a row of pieces, and it stands for what the pieces stand for. -/
theorem decode_eq_ok_iff {body text : List Char} :
    decode body = .ok text ↔
      ∃ pieces : List Piece, body = pieces.flatMap Piece.chars ∧ text = pieces.map Piece.value := by
  constructor
  · intro h
    obtain ⟨pieces, rest, rfl, rfl | ⟨mistake, tail, htail, rfl⟩⟩ := exists_pieces body
    · rw [List.append_nil, decode_pieces] at h
      exact ⟨pieces, List.append_nil _, (Except.ok.inj h).symm⟩
    · rw [decode_pieces_mistake pieces htail] at h
      cases h
  · rintro ⟨pieces, rfl, rfl⟩
    exact decode_pieces pieces

/-- A mistake is reported if it stands behind pieces only. -/
theorem decode_eq_error_iff {body : List Char} {mistake : Mistake} :
    decode body = .error mistake ↔
      ∃ (pieces : List Piece) (rest : List Char), mistake.StandsBefore rest ∧
        body = pieces.flatMap Piece.chars ++ (mistake.sequence.toList ++ rest) := by
  constructor
  · intro h
    obtain ⟨pieces, rest, rfl, rfl | ⟨mistake', tail, htail, rfl⟩⟩ := exists_pieces body
    · rw [List.append_nil, decode_pieces] at h
      cases h
    · rw [decode_pieces_mistake pieces htail] at h
      cases h
      exact ⟨pieces, tail, htail, rfl⟩
  · rintro ⟨pieces, rest, hrest, rfl⟩
    exact decode_pieces_mistake pieces hrest

/-- Behind a body that can be decoded, decoding starts anew. -/
theorem decode_append_of_ok {body text : List Char} (h : decode body = .ok text)
    (rest : List Char) : decode (body ++ rest) = (decode rest).map (text ++ ·) := by
  obtain ⟨pieces, rfl, rfl⟩ := decode_eq_ok_iff.1 h
  exact decode_pieces_append pieces rest

/-- A mistake of two characters stays one, whatever is behind the body. -/
theorem decode_append_of_error {body : List Char} {mistake : Mistake}
    (h : decode body = .error mistake) (hpair : mistake.sequence.length = 2) (rest : List Char) :
    decode (body ++ rest) = .error mistake := by
  obtain ⟨pieces, tail, htail, rfl⟩ := decode_eq_error_iff.1 h
  have hlonger : mistake.StandsBefore (tail ++ rest) := by
    cases mistake with
    | unknown letter => exact htail
    | dangling => cases hpair
  rw [List.append_assoc, List.append_assoc]
  exact decode_pieces_mistake pieces hlonger

/-- Decoding a body goes on behind the part of it that can be decoded, and a mistake of two
characters in the first part is a mistake of the whole.  A body can be decoded if it is a row of
characters other than backslashes and of escapes; otherwise what is reported stands in the body
behind such a row, and it is a backslash with a letter that is not that of an escape, or a backslash
at the very end. -/
theorem decode_by_pieces (front rest : List Char) :
    (∀ text, decode front = .ok text → decode (front ++ rest) = (decode rest).map (text ++ ·)) ∧
      (∀ mistake, decode front = .error mistake → mistake.sequence.length = 2 →
        decode (front ++ rest) = .error mistake) ∧
      (∀ text, decode front = .ok text ↔
        ∃ pieces : List Piece,
          front = pieces.flatMap Piece.chars ∧ text = pieces.map Piece.value) ∧
      ∀ mistake, decode front = .error mistake ↔
        ∃ (pieces : List Piece) (tail : List Char), mistake.StandsBefore tail ∧
          front = pieces.flatMap Piece.chars ++ (mistake.sequence.toList ++ tail) := by
  refine ⟨?_, ?_, ?_, ?_⟩
  · intro text htext
    exact decode_append_of_ok htext rest
  · intro mistake hmistake hpair
    exact decode_append_of_error hmistake hpair rest
  · exact fun text => decode_eq_ok_iff
  · exact fun mistake => decode_eq_error_iff

/-- Three backslashes in a row, cut behind the second one. -/
theorem decode_by_pieces_backslashes :
    decode ['a', '\\', '\\'] = .ok ['a', '\\'] ∧
      decode ['a', '\\', '\\', '\\', 'n'] = .ok ['a', '\\', '\n'] ∧
      decode ['\\', '\\', '\\', 'q'] = .error (.unknown 'q') ∧
      (Mistake.unknown 'q').sequence.length = 2 ∧
      decode ['\\', '\\', '\\', 'q', '\\'] = .error (.unknown 'q') := by
  have hfront : decode ['a', '\\', '\\'] = .ok ['a', '\\'] := rfl
  have hmistake : decode ['\\', '\\', '\\', 'q'] = .error (.unknown 'q') := rfl
  have hlength : (Mistake.unknown 'q').sequence.length = 2 := by decide
  obtain ⟨hok, -, -, -⟩ := decode_by_pieces ['a', '\\', '\\'] ['\\', 'n']
  obtain ⟨-, herror, -, -⟩ := decode_by_pieces ['\\', '\\', '\\', 'q'] ['\\']
  exact ⟨hfront, hok _ hfront, hmistake, hlength, herror _ hmistake hlength⟩

/-- A backslash at the end of the first part takes the first character of the second part with
it. -/
example : decode ['\\'] = .error .dangling ∧ decode (['\\'] ++ ['n']) = .ok ['\n'] := by
  decide

end Cascade.Text.Escape
