import Mathlib
import Cascade.Proofs.Lockstep
import Cascade.Proofs.Progress

/-!
# What a parse depends on

A step of a dialect looks at no token behind the one that it stops in front of, so a parse does not
depend on what follows, and least of all on what follows an end mark.  Of the tokens that it does
look at, the kinds and the texts count: where tokens stand makes a difference for the position of a
fault only.

## Main definitions

* `Parse.IsLocal` : a step looks at no token behind the one that it stops in front of.
* `Token.content` : the kind and the text of a token.
* `Outcome.AgreesWith` : two outcomes differ in places only.

## Main results

* `Dialect.lookahead_local` : statements, bodies and programs are read without looking further, and
  tokens behind an end mark do not count.
* `Dialect.parse_of_content` : a parse is determined by the kinds and the texts of the tokens.
-/

namespace Cascade

namespace Parse

variable {α : Type}

/-! ### Tokens that are not looked at -/

/-- Whether a step looks at no token behind the one that it stops in front of. -/
structure IsLocal (p : Parse α) : Prop where
  /-- The step stops somewhere further on in the row, and not beyond an end mark. -/
  stops : ∀ row i (s : State), s.cursor.IsAt row i →
    ∃ k, i ≤ k ∧ (p.run s).state.cursor.IsAt row k ∧
      ∀ j t, i ≤ j → j < k → row[j]? = some t → t.kind ≠ .eof
  /-- In any row with the same tokens up to there, the step gives the same. -/
  agrees : ∀ row row' i k (s s' : State), s.cursor.IsAt row i → s'.cursor.IsAt row' i →
    s'.symbols = s.symbols → (p.run s).state.cursor.IsAt row k →
    (∀ j ≤ k, row'[j]? = row[j]?) →
    (p.run s').result = (p.run s).result ∧ (p.run s').state.cursor.IsAt row' k ∧
      (p.run s').state.symbols = (p.run s).state.symbols

/-- Over rows of like tokens a step gives the like, if it has calls and rounds enough. -/
theorem Mirrors.alike_of_isAt {κ : Likeness} {p : Parse α} (h : Mirrors κ False Eq p p)
    (hends : ∀ s, (p.run s).result ≠ .error .exhausted) {row row' : List Token} {i k : Nat}
    {s s' : State} (hs : s.cursor.IsAt row i) (hs' : s'.cursor.IsAt row' i)
    (hsymbols : s'.symbols = s.symbols) (hk : (p.run s).state.cursor.IsAt row k)
    (hlike : List.Forall₂ κ.token (row.take (k + 1)) (row'.take (k + 1))) :
    κ.Alike Eq (p.run s).result (p.run s').result ∧ (p.run s').state.cursor.IsAt row' k ∧
      (p.run s').state.symbols = (p.run s).state.symbols := by
  obtain ⟨d', halong, htoken, hd'⟩ :=
    Likeness.Along.exists_of_isAt hs hs' (h.forward s) hk hlike
  have hstart : s' = ⟨s'.cursor, s.symbols⟩ := by rw [← hsymbols]
  rcases h.mirror s s'.cursor d' halong (.inl htoken) with hcut | hcut | ⟨halike, hstate⟩
  · exact absurd hcut (hends s)
  · exact absurd hcut (hends _)
  · rw [← hstart] at halike hstate
    rw [hstate]
    exact ⟨halike, hd', rfl⟩

theorem Mirrors.isLocal {p : Parse α} (h : Mirrors .same False Eq p p)
    (hends : ∀ s, (p.run s).result ≠ .error .exhausted) : p.IsLocal := by
  refine ⟨fun row i s hs => hs.exists_of_reaches (h.forward s), ?_⟩
  intro row row' i k s s' hs hs' hsymbols hk hagree
  have htake : row.take (k + 1) = row'.take (k + 1) := by
    refine List.ext_getElem? fun j => ?_
    rw [List.getElem?_take, List.getElem?_take]
    split
    · exact (hagree j (by omega)).symm
    · rfl
  have hlike : List.Forall₂ Likeness.same.token (row.take (k + 1)) (row'.take (k + 1)) :=
    htake ▸ List.forall₂_refl _
  obtain ⟨halike, hcursor, hsymbols'⟩ := h.alike_of_isAt hends hs hs' hsymbols hk hlike
  exact ⟨halike.eq_of_same, hcursor, hsymbols'⟩

/-- Nothing behind an end mark makes a difference. -/
theorem IsLocal.agrees_of_eof {p : Parse α} (h : p.IsLocal) {row row' : List Token} {i m : Nat}
    {s s' : State} {mark : Token} (hs : s.cursor.IsAt row i) (hs' : s'.cursor.IsAt row' i)
    (hsymbols : s'.symbols = s.symbols) (him : i ≤ m) (hmark : row[m]? = some mark)
    (heof : mark.kind = .eof) (hagree : ∀ j ≤ m, row'[j]? = row[j]?) :
    ∃ k ≤ m, (p.run s).state.cursor.IsAt row k ∧ (p.run s').state.cursor.IsAt row' k ∧
      (p.run s').result = (p.run s).result ∧
      (p.run s').state.symbols = (p.run s).state.symbols := by
  obtain ⟨k, -, hk, hinside⟩ := h.stops row i s hs
  have hkm : k ≤ m := Nat.le_of_not_lt fun hlt => hinside m mark him hlt hmark heof
  obtain ⟨hresult, hk', hsymbols'⟩ := h.agrees row row' i k s s' hs hs' hsymbols hk
    fun j hj => hagree j (Nat.le_trans hj hkm)
  exact ⟨k, hkm, hk, hk', hresult, hsymbols'⟩

end Parse

namespace Dialect

open Parse

theorem isLocal_statement (d : Dialect) : d.grammar.statement.IsLocal :=
  d.mirrors_statement.isLocal fun s => (d.proceeds_statement s).not_exhausted

theorem isLocal_scope (d : Dialect) : d.grammar.scope.IsLocal :=
  d.mirrors_scope.isLocal fun s =>
    (d.proceeds_statement.on.scope s (Nat.le_refl s.size)).not_exhausted

theorem isLocal_program (d : Dialect) : d.grammar.program.IsLocal :=
  d.mirrors_program.isLocal fun s => (d.proceeds_program s).not_exhausted

/-- A statement, a body and a program are read without a look at any token behind the one where the
reading stops.  So what stands behind an end mark makes no difference for a parse. -/
theorem lookahead_local (d : Dialect) :
    d.grammar.statement.IsLocal ∧ d.grammar.scope.IsLocal ∧ d.grammar.program.IsLocal ∧
    ∀ before mark after after' file file', mark.kind = .eof →
      ∃ k ≤ before.length,
        (d.parse (before ++ mark :: after) file).state.cursor.IsAt
          (Cursor.close (before ++ mark :: after) file) k ∧
        (d.parse (before ++ mark :: after') file').state.cursor.IsAt
          (Cursor.close (before ++ mark :: after') file') k ∧
        (d.parse (before ++ mark :: after') file').result =
          (d.parse (before ++ mark :: after) file).result ∧
        (d.parse (before ++ mark :: after') file').state.symbols =
          (d.parse (before ++ mark :: after) file).state.symbols := by
  refine ⟨d.isLocal_statement, d.isLocal_scope, d.isLocal_program, ?_⟩
  intro before mark after after' file file' heof
  have hrow : ∀ after file j, j ≤ before.length →
      (Cursor.close (before ++ mark :: after) file)[j]? = (before ++ [mark])[j]? := by
    intro after file j hj
    have hlength : j < (before ++ [mark]).length := by
      rw [List.length_append, List.length_singleton]
      omega
    rw [List.append_cons, Cursor.getElem?_close (by rw [List.length_append]; omega),
      List.getElem?_append_left hlength]
  refine d.isLocal_program.agrees_of_eof (Cursor.isAt_ofTokens _ file)
    (Cursor.isAt_ofTokens _ file') rfl (Nat.zero_le _) ?_ heof fun j hj => ?_
  · rw [hrow after file _ (Nat.le_refl _), List.getElem?_concat_length]
  · rw [hrow after' file' j hj, hrow after file j hj]

/-- The tokens of an endless loop, of a variable behind it and of one more token. -/
def loopTokens (next : Token) : List Token :=
  [.bare .kwLoop "loop", .bare .openCurly "\x7b", .bare .closeCurly "\x7d", .bare .identifier "x",
   next, .bare .eof "EOF"]

set_option maxRecDepth 2000 in
/-- A loop is read up to the token that shows that there is no fallback, and what follows this token
makes no difference; nor does a token behind an end mark. -/
theorem lookahead_local_loop :
    (full.grammar.statement.run
        (State.ofTokens (loopTokens (.bare .kwOr "or")) "f")).result =
      .ok (.expr (.loop [] none)) ∧
    (full.grammar.statement.run
        (State.ofTokens (loopTokens (.bare .kwOr "or")) "f")).state.cursor.IsAt
      (loopTokens (.bare .kwOr "or")) 3 ∧
    (core.parse ([.bare .number "1"] ++ .bare .eof "EOF" :: [.bare .kwOr "or"]) "f").result =
      (core.parse ([.bare .number "1"] ++ .bare .eof "EOF" :: []) "f").result := by
  have hresult : (full.grammar.statement.run
      (State.ofTokens (loopTokens (.bare .semicolon ";")) "f")).result =
      .ok (.expr (.loop [] none)) := by
    cbv
  have hstop : (full.grammar.statement.run
      (State.ofTokens (loopTokens (.bare .semicolon ";")) "f")).state.cursor.IsAt
        (loopTokens (.bare .semicolon ";")) 3 := by
    cbv
  have hlocal := (lookahead_local full).1.agrees (loopTokens (.bare .semicolon ";"))
    (loopTokens (.bare .kwOr "or")) 0 3 (State.ofTokens (loopTokens (.bare .semicolon ";")) "f")
    (State.ofTokens (loopTokens (.bare .kwOr "or")) "f") rfl rfl rfl hstop (by decide)
  have hmark := (lookahead_local core).2.2.2 [.bare .number "1"] (.bare .eof "EOF") []
    [.bare .kwOr "or"] "f" "f" rfl
  obtain ⟨-, -, -, -, hsame, -⟩ := hmark
  exact ⟨hlocal.1.trans hresult, hlocal.2.1, hsame⟩

end Dialect

/-! ### Places of tokens -/

/-- What a token is, apart from where it stands. -/
def Token.content (t : Token) : TokenKind × String :=
  (t.kind, t.value)

/-- Whether two outcomes differ in places only: they have the same value or the same fault, and the
same variables are declared. -/
def Outcome.AgreesWith {α : Type} (o o' : Outcome α) : Prop :=
  ((∃ a, o.result = .ok a ∧ o'.result = .ok a) ∨
    ∃ fault q q', o.result = .error (.fault ⟨fault, q⟩) ∧
      o'.result = .error (.fault ⟨fault, q'⟩)) ∧
  o'.state.symbols = o.state.symbols

theorem Likeness.Alike.agreesWith {α : Type} {κ : Likeness} {o o' : Outcome α}
    (h : κ.Alike Eq o.result o'.result) (hsymbols : o'.state.symbols = o.state.symbols) :
    o.AgreesWith o' := by
  refine ⟨?_, hsymbols⟩
  generalize o.result = r at h
  generalize o'.result = r' at h
  cases h with
  | ok hvalue => exact .inl ⟨_, rfl, hvalue ▸ rfl⟩
  | fault _ => exact .inr ⟨_, _, _, rfl, rfl⟩

/-- An end mark is added to both of two rows with the same contents, or to none. -/
theorem forall₂_close {tokens tokens' : List Token}
    (h : tokens.map Token.content = tokens'.map Token.content) (file file' : String) :
    List.Forall₂ Likeness.written.token (Cursor.close tokens file)
      (Cursor.close tokens' file') := by
  have hlike : List.Forall₂ Likeness.written.token tokens tokens' := by
    have hmap : List.Forall₂ Eq (tokens.map Token.content) (tokens'.map Token.content) :=
      h ▸ List.forall₂_refl _
    refine (List.forall₂_map_left_iff.1 (List.forall₂_map_right_iff.1 hmap)).imp fun x y hxy => ?_
    exact Prod.mk.inj hxy
  have hlast : tokens.getLast?.map Token.kind = tokens'.getLast?.map Token.kind := by
    have hcontent := congrArg (fun row => row.getLast?.map Prod.fst) h
    simpa only [List.getLast?_map, Option.map_map, Function.comp_def, Token.content] using hcontent
  unfold Cursor.close
  rw [hlast]
  split
  · exact hlike
  · exact List.rel_append hlike (.cons ⟨rfl, rfl⟩ .nil)

namespace Dialect

open Parse

/-- Tokens with the same contents are parsed alike, up to the same index. -/
theorem agreesWith_of_content (d : Dialect) {tokens tokens' : List Token}
    (h : tokens.map Token.content = tokens'.map Token.content) (file file' : String) :
    (d.parse tokens file).AgreesWith (d.parse tokens' file') ∧
      ∃ k, (d.parse tokens file).state.cursor.IsAt (Cursor.close tokens file) k ∧
        (d.parse tokens' file').state.cursor.IsAt (Cursor.close tokens' file') k := by
  have hmirrors : Mirrors .written False Eq d.grammar.program d.grammar.program :=
    d.mirrors_program
  have hstart : (State.ofTokens tokens file).cursor.IsAt (Cursor.close tokens file) 0 :=
    Cursor.isAt_ofTokens tokens file
  have hstart' : (State.ofTokens tokens' file').cursor.IsAt (Cursor.close tokens' file') 0 :=
    Cursor.isAt_ofTokens tokens' file'
  obtain ⟨k, -, hk, -⟩ := hstart.exists_of_reaches (hmirrors.forward _)
  obtain ⟨halike, hk', hsymbols⟩ :=
    hmirrors.alike_of_isAt (fun s => (d.proceeds_program s).not_exhausted) hstart hstart' rfl hk
      (List.forall₂_take _ (forall₂_close h file file'))
  exact ⟨halike.agreesWith hsymbols, k, hk, hk'⟩

/-- A parse is determined by the kinds and the texts of the tokens.  Where they stand makes no
difference, except for the position of a fault, so sources whose tokens have the same kinds and
texts are read alike. -/
theorem parse_of_content (d : Dialect) :
    (∀ tokens tokens' file file', tokens.map Token.content = tokens'.map Token.content →
      (d.parse tokens file).AgreesWith (d.parse tokens' file') ∧
        ∃ k, (d.parse tokens file).state.cursor.IsAt (Cursor.close tokens file) k ∧
          (d.parse tokens' file').state.cursor.IsAt (Cursor.close tokens' file') k) ∧
    ∀ source source' file file' tokens tokens', tokenize source file = .ok tokens →
      tokenize source' file' = .ok tokens' →
      tokens.map Token.content = tokens'.map Token.content →
      ∃ o o', d.read source file = .ok o ∧ d.read source' file' = .ok o' ∧ o.AgreesWith o' := by
  refine ⟨fun _ _ file file' hcontent => d.agreesWith_of_content hcontent file file', ?_⟩
  intro source source' file file' tokens tokens' htokens htokens' hcontent
  obtain ⟨hagrees, -⟩ := d.agreesWith_of_content hcontent file file'
  refine ⟨d.parse tokens file, d.parse tokens' file', ?_, ?_, hagrees⟩
  · rw [read, htokens]
    rfl
  · rw [read, htokens']
    rfl

/-- A variable with nothing behind it, and the same with a comment, are read with the same fault at
different places. -/
theorem parse_of_content_comment :
    ∃ o o', basic.read "x" "f" = .ok o ∧ basic.read " x // y" "g" = .ok o' ∧ o.AgreesWith o' ∧
      o.result = .error (.fault ⟨.syntaxError "semicolon" "EOF", ⟨1, "f"⟩⟩) ∧
      o'.result = .error (.fault ⟨.syntaxError "semicolon" "EOF", ⟨7, "g"⟩⟩) := by
  have htokens : tokenize "x" "f" = .ok
      [⟨.identifier, "x", Span.between "f" 0 1⟩, .endMark (Span.between "f" 1 1)] := by
    cbv
  have htokens' : tokenize " x // y" "g" = .ok
      [⟨.identifier, "x", Span.between "g" 1 2⟩, .endMark (Span.between "g" 7 7)] := by
    cbv
  obtain ⟨-, hread⟩ := parse_of_content basic
  obtain ⟨o, o', ho, ho', hagrees⟩ := hread _ _ _ _ _ _ htokens htokens' rfl
  refine ⟨o, o', ho, ho', hagrees, ?_, ?_⟩
  · rw [read, htokens] at ho
    cases ho
    cbv
  · rw [read, htokens'] at ho'
    cases ho'
    cbv

end Dialect

end Cascade
