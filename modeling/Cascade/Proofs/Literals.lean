import Cascade.Proofs.Agreement
import Cascade.Proofs.Composition
import Cascade.Proofs.Dependence
import Cascade.Proofs.Escapes
import Cascade.Proofs.Programs

/-!
# What quoted literals stand for

A text can be written between quotes in many ways, since six characters may be escaped and most of
them need not be.  The lexer has to see where such a literal ends and the rules have to see what it
stands for, and the two do not know of each other.  Whatever way a text is written, the lexer finds
one token and the rules read the text back.

## Main definitions

* `Text.Escape.Spells` : the body of a literal is one way to write a text.

## Main results

* `Text.Escape.Spells.decode` : decoding gives back what is spelled.
* `Text.Escape.Spells.spelledBy_str`, `Text.Escape.Spells.spelledBy_char` : a spelling between
  quotes is a single token.
* `Dialect.read_literal` : declarations with a string or a character give back the literal.
-/

namespace Cascade

/-! ### Spellings -/

namespace Text.Escape

/-- Whether the body of a literal between the given quotes is one way to write a text. -/
inductive Spells (quote : Char) : List Char → List Char → Prop
  | nil : Spells quote [] []
  /-- A character stands for itself unless it is the quote or a backslash. -/
  | plain {c : Char} {text body : List Char} (hquote : c ≠ quote) (hslash : c ≠ '\\')
      (hbody : Spells quote text body) : Spells quote (c :: text) (c :: body)
  /-- Some characters can be escaped. -/
  | escaped {c letter : Char} {text body : List Char} (hpair : (c, letter) ∈ pairs)
      (hbody : Spells quote text body) : Spells quote (c :: text) ('\\' :: letter :: body)

/-- No escape is written with a line break. -/
theorem ne_of_mem_pairs {c letter : Char} (h : (c, letter) ∈ pairs) : letter ≠ '\n' := by
  have hpairs : ∀ pair ∈ pairs, pair.2 ≠ '\n' := by decide
  exact hpairs _ h

namespace Spells

variable {quote c : Char} {text body : List Char}

/-- Decoding gives back what is spelled. -/
protected theorem decode (h : Spells quote text body) : decode body = .ok text := by
  induction h with
  | nil => rfl
  | plain hquote hslash hbody ih =>
    rw [decode_cons_of_ne hslash, ih]
    rfl
  | escaped hpair hbody ih =>
    rw [decode_pair, letter?_of_mem_pairs hpair, ih]
    rfl

/-- A spelling between double quotes is a string. -/
theorem spelledBy_str (h : Spells '"' text body) :
    TokenKind.str.SpelledBy ('"' :: (body ++ ['"'])) := by
  refine .str ?_
  induction h with
  | nil => exact .nil
  | plain hquote hslash hbody ih => exact .plain hquote hslash ih
  | escaped hpair hbody ih => exact .escaped (ne_of_mem_pairs hpair) ih

/-- A spelling of a single character between single quotes is a character. -/
theorem spelledBy_char (h : Spells '\'' [c] body) :
    TokenKind.char.SpelledBy ('\'' :: (body ++ ['\''])) := by
  cases h with
  | plain hquote hslash hbody =>
    cases hbody
    exact .plainChar hquote hslash
  | escaped hpair hbody =>
    cases hbody
    exact .escapedChar (ne_of_mem_pairs hpair)

end Spells

end Text.Escape

open Text.Escape (Spells)

/-- A spelling between quotes is read as what it spells. -/
theorem readQuoted_of_spells {quote : Char} {text body : List Char} {token : Token}
    (h : Spells quote text body)
    (hvalue : token.value = String.ofList (quote :: (body ++ [quote]))) :
    readQuoted quote token.value = .ok text := by
  rw [readQuoted_eq_decode body (by rw [hvalue, String.toList_ofList]), h.decode]
  rfl

theorem readStr_of_spells {text : String} {body : List Char} {token : Token}
    (h : Spells '"' text.toList body)
    (hvalue : token.value = String.ofList ('"' :: (body ++ ['"']))) :
    readStr token = .ok (.str text) := by
  rw [readStr, readQuoted_of_spells h hvalue]
  change Except.ok (Expr.str (String.ofList text.toList)) = _
  rw [String.ofList_toList]

theorem readChar_of_spells {c : Char} {body : List Char} {token : Token}
    (h : Spells '\'' [c] body)
    (hvalue : token.value = String.ofList ('\'' :: (body ++ ['\'']))) :
    readChar token = .ok (.char c) := by
  rw [readChar, readQuoted_of_spells h hvalue]
  rfl

/-! ### Tokens of a declaration -/

/-- Whether a text has tokens with the given kinds and texts, wherever it stands in a source. -/
def ScannedAs (cs : List Char) (contents : List (TokenKind × String)) : Prop :=
  ∀ file offset, ∃ tokens, tokensFrom file offset cs = .ok tokens ∧
    tokens.map Token.content = contents

namespace ScannedAs

variable {cs : List Char} {contents : List (TokenKind × String)}

protected theorem nil : ScannedAs [] [(.eof, "EOF")] :=
  fun file offset => ⟨_, tokensFrom_nil file offset, rfl⟩

protected theorem blank {c : Char} (h : ScannedAs cs contents) (hc : Text.isBlank c = true) :
    ScannedAs (c :: cs) contents := by
  intro file offset
  rw [tokensFrom_blank file offset hc]
  exact h file _

/-- A well-spelled text that is cut off is the first token. -/
protected theorem token {kind : TokenKind} {text : List Char} (h : ScannedAs cs contents)
    (hspelled : kind.SpelledBy text) (hcut : kind.CutBefore text cs) :
    ScannedAs (text ++ cs) ((kind, String.ofList text) :: contents) := by
  intro file offset
  obtain ⟨tokens, htokens, hcontents⟩ := h file (offset + Text.byteSize text)
  refine ⟨_, by rw [tokensFrom_append file offset hspelled hcut, htokens]; rfl, ?_⟩
  rw [List.map_cons, hcontents]
  rfl

end ScannedAs

/-- A quoted literal ends with its last quote, whatever comes behind it. -/
theorem TokenKind.cutBefore_of_quoted {kind : TokenKind} (hkind : kind = .str ∨ kind = .char)
    {quote : Char} (body rest : List Char) :
    kind.CutBefore (quote :: (body ++ [quote])) rest := by
  refine ⟨?_, by simp⟩
  rcases hkind with rfl | rfl
  · exact TokenKind.endsBefore_of_ne rfl (by decide) _ _
  · exact TokenKind.endsBefore_of_ne rfl (by decide) _ _

/-- The declaration of a variable has one token for its value. -/
theorem scannedAs_declaration {kind : TokenKind} {type literal : List Char}
    (htype : TokenKind.typeName.SpelledBy type) (hspelled : kind.SpelledBy literal)
    (hcut : kind.CutBefore literal [';']) :
    ScannedAs (['l', 'e', 't', ' ', 'v', ':', ' '] ++ (type ++ ([' ', '=', ' '] ++
        (literal ++ [';']))))
      [(.kwLet, "let"), (.identifier, "v"), (.colon, ":"), (.typeName, String.ofList type),
        (.assign, "="), (kind, String.ofList literal), (.semicolon, ";"), (.eof, "EOF")] := by
  have hspace : Text.isBlank ' ' = true := by decide
  have hlet : TokenKind.kwLet.SpelledBy ['l', 'e', 't'] :=
    .word (by decide) (by simp [isWordChar]) (by decide +kernel)
  have hname : TokenKind.identifier.SpelledBy ['v'] :=
    .word (by decide) (by simp) (by decide +kernel)
  have hcolon : TokenKind.colon.SpelledBy [':'] := .sign (by decide)
  have hassign : TokenKind.assign.SpelledBy ['='] := .sign (by decide)
  have hsemicolon : TokenKind.semicolon.SpelledBy [';'] := .sign (by decide)
  have hend : ∀ rest, TokenKind.identifier.CutBefore ['v'] (':' :: rest) := by
    refine fun rest => ⟨⟨fun _ => ?_, fun hnumber => ?_⟩, fun hslash => ?_⟩
    · rintro c ⟨⟩
      decide
    · cases hnumber
    · cases hslash
  have hvalue := (ScannedAs.nil.token hsemicolon (TokenKind.cutBefore_nil _ _)).token hspelled hcut
  have htail := ((hvalue.blank hspace).token hassign (TokenKind.cutBefore_space _ _ _)).blank hspace
  have hhead := ((htail.token htype (TokenKind.cutBefore_space _ _ _)).blank hspace).token hcolon
    (TokenKind.cutBefore_space _ _ _)
  exact ((hhead.token hname (hend _)).blank hspace).token hlet (TokenKind.cutBefore_space _ _ _)

/-! ### Reading a declaration -/

/-- Tokens with the kinds and the texts of some words are read up to what stands behind them. -/
theorem Cursor.exists_reads {c : Cursor} (words : List Written.Word) {kind : TokenKind}
    {value : String}
    (h : c.remaining.map Token.content =
      words.map (fun word => (word.kind, word.text)) ++ [(kind, value)]) :
    ∃ c', c.Reads words c' ∧ c'.here.kind = kind := by
  induction words generalizing c with
  | nil =>
    obtain ⟨hhere, -⟩ := List.cons.inj h
    exact ⟨c, rfl, congrArg Prod.fst hhere⟩
  | cons word words ih =>
    obtain ⟨hhere, hahead⟩ := List.cons.inj h
    obtain ⟨hkind, hvalue⟩ := Prod.mk.inj hhere
    have heof : c.here.kind ≠ .eof := hkind ▸ word.inside
    obtain ⟨c', hreads, hlast⟩ := @ih c.advance (by rw [remaining_advance heof]; exact hahead)
    exact ⟨c', ⟨⟨hkind, hvalue⟩, hreads⟩, hlast⟩

/-- A row of one statement is read in two rounds. -/
theorem Parse.gives_many_singleton {α : Type} {stop : TokenKind → Bool} {step : Parse α}
    {s s' : State} {a : α} (hgo : ¬stop s.cursor.here.kind = true) (h : step.Gives s a s')
    (hstop : stop s'.cursor.here.kind = true) (hrounds : 1 < s.cursor.remaining.length) :
    (many stop step).Gives s [a] s' := by
  change (manyWithin stop step s.cursor.remaining.length).Gives s [a] s'
  obtain ⟨rounds, hrounds⟩ := Nat.exists_eq_add_of_lt hrounds
  rw [hrounds, Nat.add_comm 1 rounds]
  refine gives_bind.2 ⟨_, s, gives_kind.2 ⟨rfl, rfl⟩, ?_⟩
  rw [if_neg hgo]
  refine gives_bind.2 ⟨a, s', h, gives_bind.2 ⟨[], s', ?_, gives_pure.2 ⟨rfl, rfl⟩⟩⟩
  refine gives_bind.2 ⟨_, s', gives_kind.2 ⟨rfl, rfl⟩, ?_⟩
  rw [if_pos hstop]
  exact gives_pure.2 ⟨rfl, rfl⟩

/-- The elaboration of a declaration succeeds with a value that its type accepts. -/
theorem Written.run_declaration {symbols : Symbols} {name : String} {type : ValueType}
    {isMutable : Bool} {value : Cascade.Expr}
    (hcheck : (symbols.checkValue type value).outcome = .ok ()) :
    (do
      let value ← (Except.ok value : Except Fault Cascade.Expr)
      ((← get).checkValue type value).outcome
      modify fun symbols => symbols.declare name type
      return .declare name type isMutable value : Elaborator Cascade.Stmt).run.run symbols =
      (.ok (.declare name type isMutable value), symbols.declare name type) := by
  change (liftM (symbols.checkValue type value).outcome >>= fun _ => do
    modify fun symbols => symbols.declare name type
    return .declare name type isMutable value : Elaborator Cascade.Stmt).run.run symbols = _
  rw [hcheck]
  rfl

namespace Dialect

open Parse Written

/-- A declaration is read as one statement if its value is a literal of its type. -/
theorem parse_declaration {tokens : List Token} {type : ValueType} (word : Word)
    {value : Cascade.Expr}
    (hcontent : tokens.map Token.content =
      [(.kwLet, "let"), (.identifier, "v"), (.colon, ":"), (.typeName, type.name), (.assign, "="),
        (word.kind, word.text), (.semicolon, ";"), (.eof, "EOF")])
    (hvalue : ∀ c : Cursor, c.here.kind = word.kind → c.here.value = word.text →
      c.advance.here.kind ≠ .binaryOperator →
        (full.grammar.production .binary).Realizes (pure (.expr value)) c c.advance)
    (hfolded : value.IsFolded)
    (hcheck : (Symbols.empty.checkValue type value).outcome = .ok ()) (file : String) :
    (full.parse tokens file).result = .ok [.declare "v" type false value] := by
  have hlast : tokens.getLast?.map Token.kind = some .eof := by
    have hkinds := congrArg (fun row => row.getLast?.map Prod.fst) hcontent
    rw [List.getLast?_map, Option.map_map] at hkinds
    exact hkinds
  have hremaining : (Cursor.ofTokens tokens file).remaining = tokens := by
    rw [Cursor.remaining_ofTokens, Cursor.close, if_pos hlast]
  obtain ⟨c', hreads, heof⟩ := Cursor.exists_reads (c := Cursor.ofTokens tokens file)
    [.mk .kwLet "let", .mk .identifier "v", .mk .colon ":", .mk .typeName type.name,
      .mk .assign "=", word, .mk .semicolon ";"] (by rw [hremaining, hcontent]; rfl)
  have hword : ∀ ⦃d e : Cursor⦄, d.Reads [word] e → e.here.kind ≠ .binaryOperator →
      (full.grammar.production .binary).Realizes (pure (.expr value)) d e := by
    rintro d e ⟨⟨hkind, htext⟩, rfl⟩ hnext
    exact hvalue d hkind htext hnext
  have hstatement := realizes_statement hreads.1.1 rfl (realizes_declaration false
    (y := .ok value) hword (fun _ h => Except.ok.inj h ▸ hfolded) hreads) Symbols.empty
  rw [run_declaration hcheck] at hstatement
  have hgo : ¬decide ((Cursor.ofTokens tokens file).here.kind = .eof) = true := by
    rw [hreads.1.1]
    decide
  have hrounds : 1 < (Cursor.ofTokens tokens file).remaining.length := by
    have hlength := congrArg List.length hcontent
    rw [List.length_map] at hlength
    rw [hremaining, hlength]
    exact Nat.one_lt_succ_succ 6
  exact (gives_many_singleton hgo hstatement (decide_eq_true heof) hrounds).1

/-- A literal of the kind that a type asks for is folded, and it is accepted. -/
theorem accepted_of_matchesKind {type : ValueType} {value : Cascade.Expr}
    (h : type.matchesKind value = true) :
    value.IsFolded ∧ (Symbols.empty.checkValue type value).outcome = .ok () := by
  have hliteral : value.isUnresolved = false ∧ value.isContainer = false ∧ type.bounds? = none := by
    unfold ValueType.matchesKind at h
    split at h
    · exact ⟨rfl, rfl, rfl⟩
    · exact ⟨rfl, rfl, rfl⟩
    · exact ⟨rfl, rfl, rfl⟩
    · cases h
  obtain ⟨hunresolved, hcontainer, hbounds⟩ := hliteral
  refine ⟨Expr.isFolded_of_not_isContainer hcontainer, ?_⟩
  simp only [Symbols.checkValue, Expr.inspect_of_not_isUnresolved hunresolved,
    ValueType.checkLiteral, hbounds, h, if_true]

/-- The declaration of a quoted literal is read as one statement. -/
theorem exists_parse_literal (type : ValueType) {name : List Char} {kind : TokenKind}
    {quote : Char} {body : List Char} {p otherwise : Production}
    {read : Token → Except Fault Cascade.Expr} {value : Cascade.Expr}
    (hname : TokenKind.typeName.SpelledBy name) (htype : String.ofList name = type.name)
    (hkind : kind = .str ∨ kind = .char) (hspelled : kind.SpelledBy (quote :: (body ++ [quote])))
    (hreader : full.reader kind Production.all.length .primary = p)
    (hrule : full.grammar.rule? p = some (.leaf kind read otherwise))
    (hread : ∀ token : Token, token.value = String.ofList (quote :: (body ++ [quote])) →
      read token = .ok value)
    (hvalue : type.matchesKind value = true) (file : String) :
    ∃ tokens, tokensFrom file 0 (['l', 'e', 't', ' ', 'v', ':', ' '] ++ (name ++
        ([' ', '=', ' '] ++ (quote :: (body ++ [quote]) ++ [';'])))) = .ok tokens ∧
      tokens.map Token.content =
        [(.kwLet, "let"), (.identifier, "v"), (.colon, ":"), (.typeName, type.name), (.assign, "="),
          (kind, String.ofList (quote :: (body ++ [quote]))), (.semicolon, ";"), (.eof, "EOF")] ∧
      (full.parse tokens file).result = .ok [.declare "v" type false value] := by
  obtain ⟨tokens, htokens, hcontents⟩ := scannedAs_declaration hname hspelled
    (TokenKind.cutBefore_of_quoted hkind body [';']) file 0
  rw [htype] at hcontents
  obtain ⟨hfolded, hcheck⟩ := accepted_of_matchesKind hvalue
  have hinside : kind ≠ .eof ∧ kind ≠ .unaryOperator ∧ kind ≠ .binaryOperator := by
    rcases hkind with rfl | rfl <;> decide
  refine ⟨tokens, htokens, hcontents, ?_⟩
  refine parse_declaration (.mk kind _ hinside.1) hcontents ?_ hfolded hcheck file
  intro c hhere htext hnext
  exact realizes_binary_of_token kind hhere hreader hinside.2.1 hinside.2.2
    (realizes_leaf hrule hhere (hread _ htext)) hnext

theorem ofList_quoted (quote : Char) (body : List Char) :
    String.ofList (quote :: (body ++ [quote])) =
      String.singleton quote ++ String.ofList body ++ String.singleton quote := by
  rw [← String.toList_inj]
  simp

/-- Literals are read back, whatever way they are written.  For every spelling of a text between
double quotes, the declaration of a string with it has a single token for the string, and it is read
as the declaration of that text; and for every spelling of a character between single quotes, so is
the declaration of a character. -/
theorem read_literal (file : String) :
    (∀ (text : String) (body : List Char), Spells '"' text.toList body →
      ∃ tokens, tokenize ("let v: str = \"" ++ String.ofList body ++ "\";") file = .ok tokens ∧
        tokens.map Token.content =
          [(.kwLet, "let"), (.identifier, "v"), (.colon, ":"), (.typeName, "str"), (.assign, "="),
            (.str, "\"" ++ String.ofList body ++ "\""), (.semicolon, ";"), (.eof, "EOF")] ∧
        (full.parse tokens file).result = .ok [.declare "v" .str false (.str text)]) ∧
    ∀ (c : Char) (body : List Char), Spells '\'' [c] body →
      ∃ tokens, tokenize ("let v: char = '" ++ String.ofList body ++ "';") file = .ok tokens ∧
        tokens.map Token.content =
          [(.kwLet, "let"), (.identifier, "v"), (.colon, ":"), (.typeName, "char"), (.assign, "="),
            (.char, "'" ++ String.ofList body ++ "'"), (.semicolon, ";"), (.eof, "EOF")] ∧
        (full.parse tokens file).result = .ok [.declare "v" .char false (.char c)] := by
  constructor
  · intro text body h
    have hname : TokenKind.typeName.SpelledBy ['s', 't', 'r'] :=
      .word (by decide) (by simp [isWordChar]) (by decide +kernel)
    obtain ⟨tokens, htokens, hcontents, hparse⟩ := exists_parse_literal .str hname rfl (.inl rfl)
      h.spelledBy_str rfl rfl (fun token => readStr_of_spells h) rfl file
    rw [ofList_quoted] at hcontents
    refine ⟨tokens, ?_, hcontents, hparse⟩
    rw [tokenize, ← htokens]
    simp
  · intro c body h
    have hname : TokenKind.typeName.SpelledBy ['c', 'h', 'a', 'r'] :=
      .word (by decide) (by simp [isWordChar]) (by decide +kernel)
    obtain ⟨tokens, htokens, hcontents, hparse⟩ := exists_parse_literal .char hname rfl (.inr rfl)
      h.spelledBy_char rfl rfl (fun token => readChar_of_spells h) rfl file
    rw [ofList_quoted] at hcontents
    refine ⟨tokens, ?_, hcontents, hparse⟩
    rw [tokenize, ← htokens]
    simp

/-- A string with a line break both as itself and escaped, and a character that is a backslash. -/
theorem read_literal_mixed :
    (Spells '"' "é\"\n\n'".toList ['é', '\\', '"', '\n', '\\', 'n', '\''] ∧
      ∃ tokens, tokenize "let v: str = \"é\\\"\n\\n'\";" "f" = .ok tokens ∧
        (full.parse tokens "f").result = .ok [.declare "v" .str false (.str "é\"\n\n'")]) ∧
    Spells '\'' ['\\'] ['\\', '\\'] ∧
      ∃ tokens, tokenize "let v: char = '\\\\';" "f" = .ok tokens ∧
        (full.parse tokens "f").result = .ok [.declare "v" .char false (.char '\\')] := by
  obtain ⟨hstr, hchar⟩ := read_literal "f"
  have htext : Spells '"' "é\"\n\n'".toList ['é', '\\', '"', '\n', '\\', 'n', '\''] :=
    .plain (by decide) (by decide) (.escaped (by decide) (.plain (by decide) (by decide)
      (.escaped (by decide) (.plain (by decide) (by decide) .nil))))
  have hslash : Spells '\'' ['\\'] ['\\', '\\'] := .escaped (by decide) .nil
  obtain ⟨tokens, htokens, -, hparse⟩ := hstr _ _ htext
  obtain ⟨tokens', htokens', -, hparse'⟩ := hchar _ _ hslash
  exact ⟨⟨htext, tokens, htokens, hparse⟩, hslash, tokens', htokens', hparse'⟩

end Dialect

end Cascade
