import Mathlib
import Cascade.Proofs.Decimals
import Cascade.Proofs.Origins
import Cascade.Proofs.Partition

/-!
# Tokens of the lexer can be read

The lexer says what a token looks like and the rules say how it is read, and neither knows of the
other.  Here the two are put together: a number that the lexer finds reads as a number, the name of
a type names one, the only unary operator is the logical not, and a quoted text has its quotes and
is at fault only for a letter behind a backslash.  So a parse of the tokens of a source never fails
for the form of a token.

## Main definitions

* `Fault.ofForm` : the faults that mean that a token has a form of its own, or that a grammar has
  gaps.

## Main results

* `TokenKind.SpelledBy.exists_readNumber` and the others like it : what is read from a well-spelled
  token.
* `Dialect.parse_of_tokenize` : no fault of a parse is due to the form of a token.
-/

namespace Cascade

/-! ### Numbers -/

namespace Decimal

/-- A decimal without a sign is a number. -/
theorem exists_readNumber? {c : Char} {cs : List Char} {l : Literal} (hc : c.isDigit = true)
    (h : Literal.ofText? (c :: cs) = some l) :
    ∃ value, readNumber? (String.ofList (c :: cs)) = some value := by
  have hmagnitude : ∃ value, readMagnitude? (c :: cs) = some value := by
    simp only [readMagnitude?]
    split_ifs
    · exact ⟨_, rfl⟩
    · exact ⟨_, rfl⟩
    · exact ⟨l.toFloat, by rw [h]; rfl⟩
  rw [readNumber?, String.toList_ofList]
  split
  · rename_i heq
    cases heq
    exact absurd hc (by decide)
  · rename_i heq
    cases heq
    exact absurd hc (by decide)
  · exact hmagnitude

end Decimal

/-! ### Quoted texts -/

/-- Behind every backslash in a string there is a character. -/
theorem StrBody.exists_of_decode {body : List Char} {mistake : Text.Escape.Mistake}
    (hbody : StrBody body) (h : Text.Escape.decode body = .error mistake) :
    ∃ letter, mistake = .unknown letter := by
  -- A mistake further on is not changed by the characters in front of it.
  have hlater : ∀ (c : Char) (rest : List Char),
      (Text.Escape.decode rest).map (c :: ·) = .error mistake →
        Text.Escape.decode rest = .error mistake := by
    intro c rest hmap
    cases hdecode : Text.Escape.decode rest with
    | error mistake' => rwa [hdecode] at hmap
    | ok text => rw [hdecode] at hmap; cases hmap
  induction hbody with
  | nil => cases h
  | @escaped c body hc hbody ih =>
    rw [Text.Escape.decode_pair] at h
    split at h
    · cases h
      exact ⟨c, rfl⟩
    · exact ih (hlater _ body h)
  | @plain c body hquote hslash hbody ih =>
    rw [Text.Escape.decode_cons_of_ne hslash] at h
    exact ih (hlater c body h)

/-- Between its quotes, a quoted text is decoded. -/
theorem readQuoted_eq_decode {quote : Char} {value : String} (body : List Char)
    (hvalue : value.toList = quote :: (body ++ [quote])) :
    readQuoted quote value = (Text.Escape.decode body).mapError
      fun mistake => .invalidEscapeSequence mistake.sequence := by
  have hstrip : stripQuotes? quote (quote :: (body ++ [quote])) = some body := by
    simp [stripQuotes?]
  rw [readQuoted, hvalue, hstrip]

/-! ### What is read from a well-spelled token -/

namespace TokenKind.SpelledBy

variable {text : List Char}

/-- No sign has a kind whose tokens are read by their text, but for the logical not. -/
private theorem kind_of_mem_signs {kind : TokenKind} (h : (text, kind) ∈ Lexeme.signs) :
    kind ∉ [TokenKind.number, .typeName, .str, .char] ∧
      (kind = .unaryOperator → text = ['!']) := by
  have hsigns : ∀ sign ∈ Lexeme.signs, sign.2 ∉ [TokenKind.number, .typeName, .str, .char] ∧
      (sign.2 = .unaryOperator → sign.1 = ['!']) := by
    decide
  exact hsigns _ h

/-- A word has the kind of a word. -/
private theorem not_word {c : Char} {cs : List Char} {kind : TokenKind}
    (hkind : kind.isWord = false)
    (h : kind = (reserved? (String.ofList (c :: cs))).getD .identifier) : False := by
  have hword := isWord_of_reserved? (String.ofList (c :: cs))
  rw [← h, hkind] at hword
  cases hword

theorem exists_readNumber {token : Token} (h : TokenKind.number.SpelledBy token.value.toList) :
    ∃ value, readNumber token = .ok value := by
  suffices hread : ∃ value, Decimal.readNumber? token.value = some value by
    obtain ⟨value, hvalue⟩ := hread
    exact ⟨.number value, by rw [readNumber, hvalue]⟩
  rw [← String.ofList_toList (s := token.value)]
  generalize token.value.toList = text at h
  cases h with
  | word hc hcs hkind => exact (not_word rfl hkind).elim
  | whole hne hdigits =>
    have hread := Decimal.ofText?_whole hne hdigits
    obtain ⟨c, cs, rfl⟩ := List.exists_cons_of_ne_nil hne
    exact Decimal.exists_readNumber? (hdigits c List.mem_cons_self) hread
  | decimal hne hdigits hne' hplaces =>
    have hread := Decimal.ofText?_decimal hne hdigits hplaces
    obtain ⟨c, cs, rfl⟩ := List.exists_cons_of_ne_nil hne
    exact Decimal.exists_readNumber? (hdigits c List.mem_cons_self) hread
  | sign hsign => exact absurd List.mem_cons_self (kind_of_mem_signs hsign).1

theorem exists_ofName {name : String} (h : TokenKind.typeName.SpelledBy name.toList) :
    ∃ type, ValueType.ofName name = .ok type := by
  have hnames : ∀ entry ∈ reservedWords, entry.2 = .typeName →
      (ValueType.ofName? entry.1).isSome = true := by
    decide
  rw [← String.ofList_toList (s := name)]
  generalize name.toList = text at h
  cases h with
  | @word c cs _ hc hcs hkind =>
    cases hreserved : reserved? (String.ofList (c :: cs)) with
    | none => rw [hreserved] at hkind; cases hkind
    | some kind =>
      rw [hreserved] at hkind
      have hsome := hnames _ (mem_of_reserved? hreserved) hkind.symm
      obtain ⟨type, htype⟩ := Option.isSome_iff_exists.1 hsome
      exact ⟨type, by rw [ValueType.ofName, htype]⟩
  | sign hsign => exact absurd (by decide) (kind_of_mem_signs hsign).1

theorem eq_not {value : String} (h : TokenKind.unaryOperator.SpelledBy value.toList) :
    value = "!" := by
  rw [← String.ofList_toList (s := value)]
  generalize value.toList = text at h
  cases h with
  | word hc hcs hkind => exact (not_word rfl hkind).elim
  | sign hsign => rw [(kind_of_mem_signs hsign).2 rfl]

/-- A string is at fault only for a letter behind a backslash. -/
theorem exists_of_readStr {token : Token} {fault : Fault}
    (h : TokenKind.str.SpelledBy token.value.toList) (hread : readStr token = .error fault) :
    ∃ letter, fault = .invalidEscapeSequence (String.ofList ['\\', letter]) := by
  generalize hvalue : token.value.toList = text at h
  cases h with
  | word hc hcs hkind => exact (not_word rfl hkind).elim
  | @str body hbody =>
    rw [readStr, readQuoted_eq_decode body hvalue] at hread
    cases hdecode : Text.Escape.decode body with
    | ok text => rw [hdecode] at hread; cases hread
    | error mistake =>
      obtain ⟨letter, rfl⟩ := hbody.exists_of_decode hdecode
      rw [hdecode] at hread
      cases hread
      exact ⟨letter, rfl⟩
  | sign hsign => exact absurd (by decide) (kind_of_mem_signs hsign).1

/-- A character is at fault only for a letter behind a backslash. -/
theorem exists_of_readChar {token : Token} {fault : Fault}
    (h : TokenKind.char.SpelledBy token.value.toList) (hread : readChar token = .error fault) :
    ∃ letter, fault = .invalidEscapeSequence (String.ofList ['\\', letter]) := by
  generalize hvalue : token.value.toList = text at h
  cases h with
  | word hc hcs hkind => exact (not_word rfl hkind).elim
  | @escapedChar c hc =>
    rw [readChar, readQuoted_eq_decode ['\\', c] hvalue, Text.Escape.decode_pair] at hread
    split at hread
    · cases hread
      exact ⟨c, rfl⟩
    · cases hread
  | @plainChar c hquote hslash =>
    rw [readChar, readQuoted_eq_decode [c] hvalue, Text.Escape.decode_cons_of_ne hslash] at hread
    cases hread
  | sign hsign => exact absurd (by decide) (kind_of_mem_signs hsign).1

end TokenKind.SpelledBy

/-! ### Parsing the tokens of a source -/

/-- Whether a fault means that a token has not the form of its kind, or that a grammar has gaps. -/
def Fault.ofForm : Fault → Bool
  | numberParseError _ | unknownType _ | invalidUnaryOperator _ | unregisteredProduction _
  | noRootProduction => true
  | syntaxError expected _ => expected = "quoted literal" ∨ expected = "single character"
  | invalidEscapeSequence sequence => sequence = "\\"
  | _ => false

theorem Fault.not_ofForm_of_stage {fault : Fault}
    (h : fault.stage = .folding ∨ fault.stage = .checking) : fault.ofForm = false := by
  cases fault <;> simp_all [Fault.stage, Fault.ofForm]

/-- A letter behind a backslash is not a backslash on its own. -/
theorem Fault.not_ofForm_escape (letter : Char) :
    (Fault.invalidEscapeSequence (String.ofList ['\\', letter])).ofForm = false := by
  have hne : String.ofList ['\\', letter] ≠ String.ofList ['\\'] := by
    intro h
    have hlist := String.ofList_injective h
    cases hlist
  simpa [Fault.ofForm] using hne

/-- What is wrong at a token of the lexer is not its form. -/
theorem Origin.not_ofForm {s t : State} {report : Report} (h : Origin s report t)
    (hspelled : s.cursor.here.kind = .eof ∨
      s.cursor.here.kind.SpelledBy s.cursor.here.value.toList) :
    report.fault.ofForm = false := by
  -- The kind of the token is known wherever the fault depends on its text.
  have hhere : ∀ kind, s.cursor.here.kind = kind → kind ≠ .eof →
      kind.SpelledBy s.cursor.here.value.toList := by
    rintro kind rfl hkind
    exact hspelled.resolve_left hkind
  cases h with
  | unexpected hkind => rfl
  | @missing description hdescription =>
    have hexpected : ∀ expected ∈ expectations,
        ¬(expected = "quoted literal" ∨ expected = "single character") := by
      decide
    simpa [Fault.ofForm] using hexpected description hdescription
  | number hkind hread =>
    obtain ⟨value, hvalue⟩ := (hhere _ hkind nofun).exists_readNumber
    rw [hvalue] at hread
    cases hread
  | str hkind hread =>
    obtain ⟨letter, rfl⟩ := (hhere _ hkind nofun).exists_of_readStr hread
    exact Fault.not_ofForm_escape letter
  | char hkind hread =>
    obtain ⟨letter, rfl⟩ := (hhere _ hkind nofun).exists_of_readChar hread
    exact Fault.not_ofForm_escape letter
  | type hkind hread =>
    obtain ⟨type, htype⟩ := (hhere _ hkind nofun).exists_ofName
    rw [htype] at hread
    cases hread
  | operator hkind hvalue => exact absurd (hhere _ hkind nofun).eq_not hvalue
  | negative term => rfl
  | parenthesis statement => rfl
  | folding hstage => exact Fault.not_ofForm_of_stage (.inl hstage)
  | checking hkind hpasses hstage => exact Fault.not_ofForm_of_stage (.inr hstage)

namespace Dialect

/-- A parse of the tokens of a source never fails because a number, a type or an operator cannot be
read, because a quoted text lacks a quote, is no single character or ends with a backslash, or
because the grammar has gaps. -/
theorem parse_of_tokenize (d : Dialect) (source file name : String) (tokens : List Token)
    (failure : Failure) (htokens : tokenize source file = .ok tokens)
    (hfailure : (d.parse tokens name).result = .error failure) :
    ∃ report, failure = .fault report ∧ report.fault.ofForm = false := by
  obtain ⟨report, rfl, -⟩ :=
    (d.proceeds_program (State.ofTokens tokens name)).ofProgram failure hfailure
  obtain ⟨s, hpasses, horigin⟩ := origin_of_parse hfailure
  have htiles : Tiles file [] source.toList tokens := tiles_of_tokensFrom htokens
  refine ⟨report, rfl, horigin.not_ofForm ?_⟩
  by_cases heof : s.cursor.here.kind = .eof
  · exact .inl heof
  · exact htiles.spelledBy _ (hpasses.here_mem heof)

/-- A letter without a meaning behind a backslash is a fault, and not one of form. -/
theorem parse_of_tokenize_escape :
    ∃ tokens report, tokenize "'\\q'" "f" = .ok tokens ∧
      (full.parse tokens "f").result = .error (.fault report) ∧
      report.fault = .invalidEscapeSequence "\\q" ∧ report.fault.ofForm = false := by
  have htokens : tokenize "'\\q'" "f" = .ok
      [⟨.char, "'\\q'", Span.between "f" 0 4⟩, Token.endMark (Span.between "f" 4 4)] := by
    cbv
  have hresult : (full.parse [⟨.char, "'\\q'", Span.between "f" 0 4⟩,
      Token.endMark (Span.between "f" 4 4)] "f").result =
      .error (.fault ⟨.invalidEscapeSequence "\\q", ⟨4, "f"⟩⟩) := by
    cbv
  obtain ⟨report, hreport, hform⟩ := parse_of_tokenize full _ _ _ _ _ htokens hresult
  cases hreport
  exact ⟨_, _, htokens, hresult, rfl, hform⟩

end Dialect

end Cascade
