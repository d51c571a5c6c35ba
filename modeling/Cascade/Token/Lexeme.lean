import Cascade.Text.Blank
import Cascade.Token.Kind

/-!
# Lexemes

A lexeme is the longest piece at the front of a text that has one of a few shapes.  The shapes
are tried in a fixed order, and the first that fits decides: words, numbers, blank space,
comments, characters, strings, and the fixed signs.

## Main definitions

* `Lexeme` : a piece cut off the front of a text.
* `Lexeme.first?` : the lexeme at the front of a text.
* `Lexeme.Cuts` : the piece is not empty, and the piece and the rest make up the text.

## Main results

* `Lexeme.cuts_of_first?` : cutting off a lexeme loses nothing and takes at least one character.
-/

namespace Cascade

/-- A piece cut off the front of a text. -/
structure Lexeme where
  /-- The kind of token it becomes, or `none` if it is skipped. -/
  kind? : Option TokenKind
  /-- The piece. -/
  text : List Char
  /-- What is left of the text. -/
  rest : List Char

/-- The letters of words are the ASCII letters and the underscore. -/
def isWordStart (c : Char) : Bool :=
  c.isAlpha || c = '_'

/-- Behind its first letter a word also has digits. -/
def isWordChar (c : Char) : Bool :=
  c.isAlphanum || c = '_'

namespace Lexeme

/-- A piece is cut off a text if it is not empty and nothing is lost. -/
def Cuts (l : Lexeme) (cs : List Char) : Prop :=
  l.text ≠ [] ∧ l.text ++ l.rest = cs

/-- A word: a reserved one, or an identifier. -/
def word? : List Char → Option Lexeme
  | [] => none
  | c :: cs =>
    if isWordStart c then
      let text := c :: cs.takeWhile isWordChar
      some ⟨some ((reserved? (String.ofList text)).getD .identifier), text, cs.dropWhile isWordChar⟩
    else none

/-- A point and at least one digit, split off the front of a text. -/
def fraction : List Char → List Char × List Char
  | '.' :: d :: cs =>
    if d.isDigit then ('.' :: d :: cs.takeWhile Char.isDigit, cs.dropWhile Char.isDigit)
    else ([], '.' :: d :: cs)
  | cs => ([], cs)

/-- A number: digits, and perhaps a point with more digits behind it. -/
def number? : List Char → Option Lexeme
  | [] => none
  | c :: cs =>
    if c.isDigit then
      let tail := fraction (cs.dropWhile Char.isDigit)
      some ⟨some .number, c :: cs.takeWhile Char.isDigit ++ tail.1, tail.2⟩
    else none

/-- A run of blank characters, which is skipped. -/
def blank? : List Char → Option Lexeme
  | [] => none
  | c :: cs =>
    if Text.isBlank c then some ⟨none, c :: cs.takeWhile Text.isBlank, cs.dropWhile Text.isBlank⟩
    else none

/-- Whether a character belongs to the line it stands in. -/
def isInLine (c : Char) : Bool :=
  c ≠ '\n'

/-- A comment: two slashes and the rest of the line, which is skipped. -/
def comment? : List Char → Option Lexeme
  | '/' :: '/' :: cs => some ⟨none, '/' :: '/' :: cs.takeWhile isInLine, cs.dropWhile isInLine⟩
  | _ => none

/-- A character between single quotes: an escaped one, or one that is neither a single quote nor
a backslash. -/
def char? : List Char → Option Lexeme
  | '\'' :: '\\' :: c :: '\'' :: rest =>
    if c = '\n' then none else some ⟨some .char, ['\'', '\\', c, '\''], rest⟩
  | '\'' :: c :: '\'' :: rest =>
    if c = '\'' ∨ c = '\\' then none else some ⟨some .char, ['\'', c, '\''], rest⟩
  | _ => none

/-- A string behind its opening quote, up to and with the closing one.  A backslash takes the next
character with it, which must not be a line break. -/
def strTail? : List Char → Option (List Char × List Char)
  | [] => none
  | '"' :: rest => some (['"'], rest)
  | ['\\'] => none
  | '\\' :: c :: cs =>
    if c = '\n' then none else (strTail? cs).map fun (tail, rest) => ('\\' :: c :: tail, rest)
  | c :: cs => (strTail? cs).map fun (tail, rest) => (c :: tail, rest)

/-- A string between double quotes. -/
def str? : List Char → Option Lexeme
  | '"' :: cs => (strTail? cs).map fun (tail, rest) => ⟨some .str, '"' :: tail, rest⟩
  | _ => none

/-- The signs with a fixed spelling, in the order in which they are tried. -/
def signs : List (List Char × TokenKind) :=
  [(['\x7b'], .openCurly), (['\x7d'], .closeCurly), (['('], .openParen), ([')'], .closeParen),
   (['&', '&'], .binaryOperator), (['|', '|'], .binaryOperator), (['!'], .unaryOperator),
   (['='], .assign), ([';'], .semicolon), ([':'], .colon), (['+'], .binaryOperator),
   (['-'], .binaryOperator), (['*'], .binaryOperator), (['/'], .binaryOperator)]

/-- A sign with a fixed spelling. -/
def sign? (cs : List Char) : Option Lexeme :=
  signs.findSome? fun (text, kind) =>
    if text.isPrefixOf cs then some ⟨some kind, text, cs.drop text.length⟩ else none

/-- The lexeme at the front of a text. -/
def first? (cs : List Char) : Option Lexeme :=
  word? cs <|> number? cs <|> blank? cs <|> comment? cs <|> char? cs <|> str? cs <|> sign? cs

/-! ### Cutting loses nothing -/

theorem fraction_append (cs : List Char) : (fraction cs).1 ++ (fraction cs).2 = cs := by
  unfold fraction
  split
  · split <;> simp
  · rfl

theorem cuts_of_word? {cs : List Char} {l : Lexeme} (h : word? cs = some l) : l.Cuts cs := by
  cases cs with
  | nil => simp [word?] at h
  | cons c cs =>
    simp only [word?, Option.ite_none_right_eq_some, Option.some.injEq] at h
    obtain ⟨-, rfl⟩ := h
    simp [Cuts]

theorem cuts_of_number? {cs : List Char} {l : Lexeme} (h : number? cs = some l) : l.Cuts cs := by
  cases cs with
  | nil => simp [number?] at h
  | cons c cs =>
    simp only [number?, Option.ite_none_right_eq_some, Option.some.injEq] at h
    obtain ⟨-, rfl⟩ := h
    simp [Cuts, fraction_append]

theorem cuts_of_blank? {cs : List Char} {l : Lexeme} (h : blank? cs = some l) : l.Cuts cs := by
  cases cs with
  | nil => simp [blank?] at h
  | cons c cs =>
    simp only [blank?, Option.ite_none_right_eq_some, Option.some.injEq] at h
    obtain ⟨-, rfl⟩ := h
    simp [Cuts]

theorem cuts_of_comment? {cs : List Char} {l : Lexeme} (h : comment? cs = some l) :
    l.Cuts cs := by
  unfold comment? at h
  split at h
  · cases h
    simp [Cuts]
  · simp at h

theorem cuts_of_char? {cs : List Char} {l : Lexeme} (h : char? cs = some l) : l.Cuts cs := by
  unfold char? at h
  split at h
  · split at h
    · simp at h
    · cases h
      simp [Cuts]
  · split at h
    · simp at h
    · cases h
      simp [Cuts]
  · simp at h

theorem append_of_strTail? {cs tail rest : List Char} (h : strTail? cs = some (tail, rest)) :
    tail ++ rest = cs := by
  fun_induction strTail? cs generalizing tail rest with
  | case1 => simp at h
  | case2 rest => cases h; rfl
  | case3 => simp at h
  | case4 => simp at h
  | case5 c cs hc ih =>
    obtain ⟨⟨tail', rest'⟩, h', heq⟩ := Option.map_eq_some_iff.1 h
    cases heq
    simp [ih h']
  | case6 c cs _ _ _ ih =>
    obtain ⟨⟨tail', rest'⟩, h', heq⟩ := Option.map_eq_some_iff.1 h
    cases heq
    simp [ih h']

theorem cuts_of_str? {cs : List Char} {l : Lexeme} (h : str? cs = some l) : l.Cuts cs := by
  unfold str? at h
  split at h
  · obtain ⟨⟨tail, rest⟩, h', rfl⟩ := Option.map_eq_some_iff.1 h
    simp [Cuts, append_of_strTail? h']
  · simp at h

theorem cuts_of_sign? {cs : List Char} {l : Lexeme} (h : sign? cs = some l) : l.Cuts cs := by
  obtain ⟨⟨text, kind⟩, hmem, heq⟩ := List.exists_of_findSome?_eq_some h
  simp only [Option.ite_none_right_eq_some, Option.some.injEq] at heq
  obtain ⟨hpre, rfl⟩ := heq
  have hne : ∀ s ∈ signs, s.1 ≠ [] := by decide
  refine ⟨hne _ hmem, ?_⟩
  obtain ⟨rest, rfl⟩ := List.isPrefixOf_iff_prefix.1 hpre
  simp

/-- A lexeme takes at least one character off the front of the text and leaves the rest. -/
theorem cuts_of_first? {cs : List Char} {l : Lexeme} (h : first? cs = some l) : l.Cuts cs := by
  simp only [first?, Option.orElse_eq_orElse, Option.orElse_eq_or, Option.or_eq_some_iff] at h
  rcases h with h | ⟨-, h | ⟨-, h | ⟨-, h | ⟨-, h | ⟨-, h | ⟨-, h⟩⟩⟩⟩⟩⟩
  · exact cuts_of_word? h
  · exact cuts_of_number? h
  · exact cuts_of_blank? h
  · exact cuts_of_comment? h
  · exact cuts_of_char? h
  · exact cuts_of_str? h
  · exact cuts_of_sign? h

/-- What is left behind a lexeme is shorter than the text. -/
theorem length_rest_lt {cs : List Char} {l : Lexeme} (h : first? cs = some l) :
    l.rest.length < cs.length := by
  obtain ⟨hne, rfl⟩ := cuts_of_first? h
  have := List.length_pos_iff.2 hne
  simp only [List.length_append]
  omega

end Lexeme

end Cascade
