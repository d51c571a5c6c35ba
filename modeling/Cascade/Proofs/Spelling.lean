import Mathlib.Data.List.TakeWhile
import Cascade.Token.Lexer

/-!
# How tokens are spelled

What a lexeme looks like is said here without the scanners that find it.  A text spells a token of
a kind if it has the shape of the kind, and it ends in front of a rest if it cannot go on there.
Whatever is no token is a gap: blank characters, and comments up to the end of their line.

## Main definitions

* `StrBody` : what stands between the quotes of a string.
* `TokenKind.SpelledBy` : a text has the shape of a kind.
* `TokenKind.EndsBefore` : a text of a kind cannot go on in front of a rest.
* `Gap` : a text that is skipped in front of a rest.

## Main results

* `Lexeme.first?_cases` : a lexeme is a well-spelled token that cannot go on, or part of a gap.
-/

namespace Cascade

/-! ### Shapes -/

/-- What stands between the quotes of a string. -/
inductive StrBody : List Char → Prop
  | nil : StrBody []
  /-- A backslash takes the next character with it, which is no line break. -/
  | escaped {c : Char} {body : List Char} (hc : c ≠ '\n') (hbody : StrBody body) :
      StrBody ('\\' :: c :: body)
  | plain {c : Char} {body : List Char} (hquote : c ≠ '"') (hslash : c ≠ '\\')
      (hbody : StrBody body) : StrBody (c :: body)

namespace TokenKind

/-- Whether tokens of the kind are words: identifiers and the reserved words. -/
def isWord : TokenKind → Bool
  | identifier | bool | typeName | kwLet | kwMut | kwLoop | kwWhile | kwFor | kwOr | kwBreak
  | kwContinue | kwIf | kwElse => true
  | _ => false

/-- Whether a text has the shape of a kind.  No text has the shape of the end mark. -/
inductive SpelledBy : TokenKind → List Char → Prop
  | word {c : Char} {cs : List Char} {kind : TokenKind} (hc : isWordStart c = true)
      (hcs : ∀ d ∈ cs, isWordChar d = true)
      (hkind : kind = (reserved? (String.ofList (c :: cs))).getD .identifier) :
      SpelledBy kind (c :: cs)
  | whole {digits : List Char} (hne : digits ≠ []) (hdigits : ∀ d ∈ digits, d.isDigit = true) :
      SpelledBy .number digits
  | decimal {digits places : List Char} (hne : digits ≠ [])
      (hdigits : ∀ d ∈ digits, d.isDigit = true) (hne' : places ≠ [])
      (hplaces : ∀ d ∈ places, d.isDigit = true) : SpelledBy .number (digits ++ '.' :: places)
  | escapedChar {c : Char} (hc : c ≠ '\n') : SpelledBy .char ['\'', '\\', c, '\'']
  | plainChar {c : Char} (hquote : c ≠ '\'') (hslash : c ≠ '\\') : SpelledBy .char ['\'', c, '\'']
  | str {body : List Char} (hbody : StrBody body) : SpelledBy .str ('"' :: (body ++ ['"']))
  | sign {text : List Char} {kind : TokenKind} (hsign : (text, kind) ∈ Lexeme.signs) :
      SpelledBy kind text

/-- Whether a text of a kind cannot go on in front of a rest: behind a word there is no letter,
digit or underscore, and behind a number there is no digit, nor a point and a digit if it has no
point itself. -/
def EndsBefore (kind : TokenKind) (text rest : List Char) : Prop :=
  (kind.isWord = true → ∀ c, rest.head? = some c → isWordChar c = false) ∧
    (kind = .number → (∀ c, rest.head? = some c → c.isDigit = false) ∧
      ('.' ∉ text → ∀ d tail, rest = '.' :: d :: tail → d.isDigit = false))

/-- The kinds of words and numbers are the only ones that could go on. -/
theorem endsBefore_of_ne {kind : TokenKind} (hword : kind.isWord = false) (hnumber : kind ≠ .number)
    (text rest : List Char) : kind.EndsBefore text rest := by
  refine ⟨fun h => ?_, fun h => absurd h hnumber⟩
  rw [hword] at h
  cases h

end TokenKind

/-- The kind of a reserved word. -/
theorem mem_of_reserved? {word : String} {kind : TokenKind} (h : reserved? word = some kind) :
    (word, kind) ∈ reservedWords := by
  obtain ⟨front, back, hwords, -⟩ := List.lookup_eq_some_iff.1 h
  rw [hwords]
  exact List.mem_append_right front List.mem_cons_self

/-- A word has the kind of an identifier or of a reserved word, which is never that of a number or
of a sign. -/
theorem isWord_of_reserved? (word : String) :
    ((reserved? word).getD .identifier).isWord = true := by
  have hwords : ∀ entry ∈ reservedWords, entry.2.isWord = true := by decide
  cases h : reserved? word with
  | none => rfl
  | some kind => exact hwords _ (mem_of_reserved? h)

theorem not_isWord_of_mem_signs {text : List Char} {kind : TokenKind}
    (h : (text, kind) ∈ Lexeme.signs) : kind.isWord = false ∧ kind ≠ .number := by
  have hsigns : ∀ sign ∈ Lexeme.signs, sign.2.isWord = false ∧ sign.2 ≠ .number := by decide
  exact hsigns _ h

/-- A spelling is not empty, and none is that of the end mark. -/
theorem TokenKind.SpelledBy.proper {kind : TokenKind} {text : List Char}
    (h : kind.SpelledBy text) : text ≠ [] ∧ kind ≠ .eof := by
  cases h with
  | @word c cs _ hc hcs hkind =>
    have hword := isWord_of_reserved? (String.ofList (c :: cs))
    rw [← hkind] at hword
    refine ⟨List.cons_ne_nil c cs, ?_⟩
    rintro rfl
    cases hword
  | whole hne hdigits => exact ⟨hne, nofun⟩
  | decimal hne hdigits hne' hplaces => exact ⟨by simp, nofun⟩
  | escapedChar hc => exact ⟨List.cons_ne_nil _ _, nofun⟩
  | plainChar hquote hslash => exact ⟨List.cons_ne_nil _ _, nofun⟩
  | str hbody => exact ⟨List.cons_ne_nil _ _, nofun⟩
  | sign hsign =>
    have hsigns : ∀ sign ∈ Lexeme.signs, sign.1 ≠ [] ∧ sign.2 ≠ .eof := by decide
    exact hsigns _ hsign

/-- A text that is skipped in front of a rest. -/
inductive Gap : List Char → List Char → Prop
  | nil (rest : List Char) : Gap [] rest
  | blank {c : Char} {gap rest : List Char} (hc : Text.isBlank c = true) (hgap : Gap gap rest) :
      Gap (c :: gap) rest
  /-- A comment goes on up to a line break or to the end of the source. -/
  | comment {body gap rest : List Char} (hbody : '\n' ∉ body)
      (hend : gap ++ rest = [] ∨ (gap ++ rest).head? = some '\n') (hgap : Gap gap rest) :
      Gap ('/' :: '/' :: (body ++ gap)) rest

/-- Blank characters in front of a gap belong to it. -/
theorem Gap.blanks {blanks gap rest : List Char} (hblanks : ∀ c ∈ blanks, Text.isBlank c = true)
    (hgap : Gap gap rest) : Gap (blanks ++ gap) rest := by
  induction blanks with
  | nil => exact hgap
  | cons c blanks ih =>
    have htail := ih fun d hd => hblanks d (List.mem_cons_of_mem c hd)
    exact .blank (hblanks c List.mem_cons_self) htail

/-! ### What the scanners find -/

namespace Lexeme

/-- Whether a lexeme becomes a token of a kind: it has the shape of the kind and cannot go on. -/
def IsToken (l : Lexeme) (kind : TokenKind) : Prop :=
  l.kind? = some kind ∧ kind.SpelledBy l.text ∧ kind.EndsBefore l.text l.rest

/-- Whether a lexeme is skipped: it makes the gap behind it longer. -/
def IsSkipped (l : Lexeme) : Prop :=
  l.kind? = none ∧
    ∀ gap rest, l.rest = gap ++ rest → Gap gap rest → Gap (l.text ++ gap) rest

/-- Behind the longest run of characters of a class there is none of them. -/
theorem head?_dropWhile {p : Char → Bool} {cs : List Char} {c : Char}
    (h : (cs.dropWhile p).head? = some c) : p c = false := by
  have hstop := List.head?_dropWhile_not p cs
  rwa [h] at hstop

theorem isToken_of_word? {cs : List Char} {l : Lexeme} (h : word? cs = some l) :
    ∃ kind, l.IsToken kind := by
  cases cs with
  | nil => simp [word?] at h
  | cons c cs =>
    simp only [word?, Option.ite_none_right_eq_some, Option.some.injEq] at h
    obtain ⟨hc, rfl⟩ := h
    refine ⟨_, rfl, .word hc (fun d => List.mem_takeWhile_imp) rfl, fun _ d => head?_dropWhile, ?_⟩
    intro hnumber
    have hword := isWord_of_reserved? (String.ofList (c :: cs.takeWhile isWordChar))
    rw [hnumber] at hword
    cases hword

/-- A fraction is a point with digits behind it, or else there is none and no digit behind a
point. -/
theorem fraction_cases (cs : List Char) :
    (∃ (d : Char) (ds : List Char), d.isDigit = true ∧
      fraction cs = ('.' :: d :: ds.takeWhile Char.isDigit, ds.dropWhile Char.isDigit)) ∨
    (fraction cs = ([], cs) ∧
      ∀ (d : Char) (tail : List Char), cs = '.' :: d :: tail → d.isDigit = false) := by
  unfold fraction
  split
  · rename_i d ds
    by_cases hd : d.isDigit = true
    · rw [if_pos hd]
      exact .inl ⟨d, ds, hd, rfl⟩
    · rw [if_neg hd]
      refine .inr ⟨rfl, fun d' tail heq => ?_⟩
      cases heq
      simpa using hd
  · rename_i hpoint
    exact .inr ⟨rfl, fun d tail heq => absurd heq (hpoint d tail)⟩

theorem isToken_of_number? {cs : List Char} {l : Lexeme} (h : number? cs = some l) :
    ∃ kind, l.IsToken kind := by
  cases cs with
  | nil => simp [number?] at h
  | cons c cs =>
    simp only [number?, Option.ite_none_right_eq_some, Option.some.injEq] at h
    obtain ⟨hc, rfl⟩ := h
    have hdigits : ∀ d ∈ c :: cs.takeWhile Char.isDigit, d.isDigit = true := by
      intro d hd
      rcases List.mem_cons.1 hd with rfl | hd
      · exact hc
      · exact List.mem_takeWhile_imp hd
    refine ⟨.number, rfl, ?_⟩
    rcases fraction_cases (cs.dropWhile Char.isDigit) with ⟨d, ds, hd, heq⟩ | ⟨heq, hpoint⟩
    · simp only [heq]
      constructor
      · refine .decimal (List.cons_ne_nil c _) hdigits (List.cons_ne_nil d _) fun e he => ?_
        rcases List.mem_cons.1 he with rfl | he
        · exact hd
        · exact List.mem_takeWhile_imp he
      · refine ⟨fun hword => absurd hword (by decide), fun _ => ⟨fun e => head?_dropWhile, ?_⟩⟩
        intro hnone
        exact absurd (List.mem_append_right _ List.mem_cons_self) hnone
    · simp only [heq, List.append_nil]
      refine ⟨.whole (List.cons_ne_nil c _) hdigits, fun hword => absurd hword (by decide), ?_⟩
      intro _
      exact ⟨fun e => head?_dropWhile, fun _ => hpoint⟩

theorem isToken_of_char? {cs : List Char} {l : Lexeme} (h : char? cs = some l) :
    ∃ kind, l.IsToken kind := by
  have hends : ∀ text rest, TokenKind.char.EndsBefore text rest :=
    TokenKind.endsBefore_of_ne rfl (by decide)
  unfold char? at h
  split at h
  · split at h
    · cases h
    · rename_i hc
      cases h
      exact ⟨.char, rfl, .escapedChar hc, hends _ _⟩
  · split at h
    · cases h
    · rename_i hc
      cases h
      obtain ⟨hquote, hslash⟩ := not_or.1 hc
      exact ⟨.char, rfl, .plainChar hquote hslash, hends _ _⟩
  · cases h

theorem strBody_of_strTail? {cs tail rest : List Char} (h : strTail? cs = some (tail, rest)) :
    ∃ body, tail = body ++ ['"'] ∧ StrBody body := by
  fun_induction strTail? cs generalizing tail rest with
  | case1 => cases h
  | case2 rest =>
    cases h
    exact ⟨[], rfl, .nil⟩
  | case3 => cases h
  | case4 => cases h
  | case5 c cs hc ih =>
    obtain ⟨⟨tail', rest'⟩, htail, heq⟩ := Option.map_eq_some_iff.1 h
    cases heq
    obtain ⟨body, rfl, hbody⟩ := ih htail
    exact ⟨'\\' :: c :: body, rfl, .escaped hc hbody⟩
  | case6 c cs hquote hlast hslash ih =>
    obtain ⟨⟨tail', rest'⟩, htail, heq⟩ := Option.map_eq_some_iff.1 h
    cases heq
    obtain ⟨body, rfl, hbody⟩ := ih htail
    refine ⟨c :: body, rfl, .plain hquote ?_ hbody⟩
    -- A backslash is covered by the cases before, whether something follows it or not.
    rintro rfl
    cases cs with
    | nil => exact hlast rfl rfl
    | cons d ds => exact hslash d ds rfl rfl

theorem isToken_of_str? {cs : List Char} {l : Lexeme} (h : str? cs = some l) :
    ∃ kind, l.IsToken kind := by
  unfold str? at h
  split at h
  · obtain ⟨⟨tail, rest⟩, htail, rfl⟩ := Option.map_eq_some_iff.1 h
    obtain ⟨body, rfl, hbody⟩ := strBody_of_strTail? htail
    exact ⟨.str, rfl, .str hbody, TokenKind.endsBefore_of_ne rfl (by decide) _ _⟩
  · cases h

theorem isToken_of_sign? {cs : List Char} {l : Lexeme} (h : sign? cs = some l) :
    ∃ kind, l.IsToken kind := by
  obtain ⟨⟨text, kind⟩, hmem, heq⟩ := List.exists_of_findSome?_eq_some h
  simp only [Option.ite_none_right_eq_some, Option.some.injEq] at heq
  obtain ⟨-, rfl⟩ := heq
  obtain ⟨hword, hnumber⟩ := not_isWord_of_mem_signs hmem
  exact ⟨kind, rfl, .sign hmem, TokenKind.endsBefore_of_ne hword hnumber _ _⟩

theorem isSkipped_of_blank? {cs : List Char} {l : Lexeme} (h : blank? cs = some l) :
    l.IsSkipped := by
  cases cs with
  | nil => simp [blank?] at h
  | cons c cs =>
    simp only [blank?, Option.ite_none_right_eq_some, Option.some.injEq] at h
    obtain ⟨hc, rfl⟩ := h
    refine ⟨rfl, fun gap rest _ hgap => .blank hc (.blanks (fun d => ?_) hgap)⟩
    exact List.mem_takeWhile_imp

theorem isSkipped_of_comment? {cs : List Char} {l : Lexeme} (h : comment? cs = some l) :
    l.IsSkipped := by
  unfold comment? at h
  split at h
  · rename_i cs
    cases h
    refine ⟨rfl, fun gap rest hrest hgap => .comment (fun hbreak => ?_) ?_ hgap⟩
    · exact absurd (List.mem_takeWhile_imp hbreak) (by decide)
    · rw [← hrest]
      cases hhead : (cs.dropWhile isInLine).head? with
      | none => exact .inl (List.head?_eq_none_iff.1 hhead)
      | some c =>
        have hc : c = '\n' := by simpa [isInLine] using head?_dropWhile hhead
        exact .inr (by rw [hc])
  · cases h

/-- A lexeme is a token that has the shape of its kind and cannot go on, or it is skipped. -/
theorem first?_cases {cs : List Char} {l : Lexeme} (h : first? cs = some l) :
    (∃ kind, l.IsToken kind) ∨ l.IsSkipped := by
  simp only [first?, Option.orElse_eq_orElse, Option.orElse_eq_or, Option.or_eq_some_iff] at h
  rcases h with h | ⟨-, h | ⟨-, h | ⟨-, h | ⟨-, h | ⟨-, h | ⟨-, h⟩⟩⟩⟩⟩⟩
  · exact .inl (isToken_of_word? h)
  · exact .inl (isToken_of_number? h)
  · exact .inr (isSkipped_of_blank? h)
  · exact .inr (isSkipped_of_comment? h)
  · exact .inl (isToken_of_char? h)
  · exact .inl (isToken_of_str? h)
  · exact .inl (isToken_of_sign? h)

end Lexeme

end Cascade
