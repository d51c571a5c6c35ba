import Mathlib
import Cascade.Proofs.Composition

/-!
# Where the lexer stops

A source that cannot be cut into lexemes is refused at the first place where none begins.  What such
a place looks like is said here without the scanners: half of a logical operator, a quote that opens
no literal, or a character that no lexeme begins with.  Whether a string is closed can depend on all
that follows, but whatever stands in front of the place does not: the part of the source up to it
has the very tokens that were found before the lexer stopped.

## Main definitions

* `Unreadable` : no lexeme begins a text.
* `Scans` : the lexer reads a text in front of a rest, and finds the given tokens in it.

## Main results

* `Lexeme.first?_eq_none_iff` : exactly the unreadable texts begin with no lexeme.
* `Scans.truncate` : what is read in front of a rest is read in the same way without the rest.
* `exists_scans` : every text is read up to a place where no lexeme begins.
* `tokenize_eq_error_iff` : a source is refused exactly at an unreadable place.
-/

namespace Cascade

open Text (byteSize)

/-! ### Unreadable texts -/

/-- The characters other than letters, digits, underscores and blanks that a lexeme can begin
with. -/
def punctuation : List Char :=
  ['\x7b', '\x7d', '(', ')', '!', '=', ';', ':', '+', '-', '*', '/', '&', '|', '\'', '"']

/-- Whether no lexeme begins a text that is not empty. -/
inductive Unreadable : List Char → Prop
  | ampersand {rest : List Char} (hrest : rest.head? ≠ some '&') : Unreadable ('&' :: rest)
  | bar {rest : List Char} (hrest : rest.head? ≠ some '|') : Unreadable ('|' :: rest)
  /-- No closed literal of one character or of one escape begins with the quote. -/
  | quote {rest : List Char}
      (hplain : ∀ c more, rest = c :: '\'' :: more → c = '\'' ∨ c = '\\')
      (hescaped : ∀ c more, rest = '\\' :: c :: '\'' :: more → c = '\n') :
      Unreadable ('\'' :: rest)
  /-- The string is not closed: it goes on to the end, or to a backslash that stands in front of a
  line break or the end. -/
  | doubleQuote {body rest : List Char} (hbody : StrBody body)
      (hrest : rest = [] ∨ rest = ['\\'] ∨ ∃ more, rest = '\\' :: '\n' :: more) :
      Unreadable ('"' :: (body ++ rest))
  | stranger {c : Char} {rest : List Char} (hword : isWordChar c = false)
      (hblank : Text.isBlank c = false) (hsign : c ∉ punctuation) : Unreadable (c :: rest)

namespace Lexeme

variable {c : Char} {cs : List Char}

theorem isWordChar_eq_false_iff :
    isWordChar c = false ↔ isWordStart c = false ∧ c.isDigit = false := by
  simp only [isWordChar, isWordStart, Char.isAlphanum, Bool.or_eq_false_iff]
  tauto

theorem char?_quote_eq_none_iff :
    char? ('\'' :: cs) = none ↔
      (∀ c more, cs = c :: '\'' :: more → c = '\'' ∨ c = '\\') ∧
        ∀ c more, cs = '\\' :: c :: '\'' :: more → c = '\n' := by
  constructor
  · refine fun h => ⟨?_, ?_⟩
    · rintro c more rfl
      by_contra hc
      obtain ⟨hquote, hslash⟩ := not_or.1 hc
      simp [char?, hquote, hslash] at h
    · rintro c more rfl
      simpa [char?] using h
  · rintro ⟨hplain, hescaped⟩
    unfold char?
    split
    · rename_i heq
      rw [if_pos (hescaped _ _ (List.cons.inj heq).2)]
    · rename_i heq
      rw [if_pos (hplain _ _ (List.cons.inj heq).2)]
    · rfl

/-- A string that is not closed goes on up to the end, or to a backslash that takes no character
with it. -/
theorem strTail?_eq_none_iff :
    strTail? cs = none ↔ ∃ body rest, cs = body ++ rest ∧ StrBody body ∧
      (rest = [] ∨ rest = ['\\'] ∨ ∃ more, rest = '\\' :: '\n' :: more) := by
  constructor
  · intro h
    fun_induction strTail? cs with
    | case1 => exact ⟨[], [], rfl, .nil, .inl rfl⟩
    | case2 => cases h
    | case3 => exact ⟨[], _, rfl, .nil, .inr (.inl rfl)⟩
    | case4 cs => exact ⟨[], _, rfl, .nil, .inr (.inr ⟨cs, rfl⟩)⟩
    | case5 c cs hc ih =>
      obtain ⟨body, rest, rfl, hbody, hrest⟩ := ih (Option.map_eq_none_iff.1 h)
      exact ⟨'\\' :: c :: body, rest, rfl, .escaped hc hbody, hrest⟩
    | case6 c cs hquote hlast hslash ih =>
      obtain ⟨body, rest, rfl, hbody, hrest⟩ := ih (Option.map_eq_none_iff.1 h)
      refine ⟨c :: body, rest, rfl, .plain hquote ?_ hbody, hrest⟩
      -- A backslash is covered by the cases before, whether something follows it or not.
      rintro rfl
      cases hmore : body ++ rest with
      | nil => exact hlast rfl hmore
      | cons d ds => exact hslash d ds rfl hmore
  · rintro ⟨body, rest, rfl, hbody, hrest⟩
    induction hbody with
    | nil => rcases hrest with rfl | rfl | ⟨more, rfl⟩ <;> rfl
    | escaped hc hbody ih => simp [strTail?, hc, ih]
    | plain hquote hslash hbody ih => simp [strTail?, hslash, ih]

/-- The signs of one character are the punctuation but for quotes and halves of operators. -/
theorem sign?_ne_none (hc : c ∈ punctuation) (hquote : c ≠ '\'' ∧ c ≠ '"')
    (hhalf : c ≠ '&' ∧ c ≠ '|') : sign? (c :: cs) ≠ none := by
  have hsigns : (punctuation.all fun c => c = '\'' || c = '"' || c = '&' || c = '|' ||
      signs.any fun sign => sign.1 = [c]) = true := by decide
  have hsign := List.all_eq_true.1 hsigns c hc
  simp only [hquote, hhalf, decide_false, Bool.false_or, List.any_eq_true,
    decide_eq_true_eq] at hsign
  obtain ⟨⟨text, kind⟩, hmem, rfl⟩ := hsign
  have hsome := sign?_append hmem cs
  rw [List.singleton_append] at hsome
  rw [hsome]
  exact Option.some_ne_none _

theorem sign?_stranger (hc : c ∉ punctuation) : sign? (c :: cs) = none := by
  have hsigns : ∀ sign ∈ signs, sign.1.head?.any (punctuation.contains ·) = true := by decide
  refine List.findSome?_eq_none_iff.2 fun ⟨text, kind⟩ hmem => if_neg fun hfront => hc ?_
  obtain ⟨rest, hrest⟩ := List.isPrefixOf_iff_prefix.1 hfront
  have hhead := hsigns _ hmem
  cases text with
  | nil => cases hhead
  | cons d text =>
    obtain ⟨rfl, -⟩ := List.cons.inj hrest
    exact List.contains_iff_mem.1 hhead

/-- Half of a logical operator is no sign. -/
theorem sign?_half_eq_none_iff (h : c = '&' ∨ c = '|') :
    sign? (c :: cs) = none ↔ cs.head? ≠ some c := by
  cases cs with
  | nil => rcases h with rfl | rfl <;> simp [sign?, signs]
  | cons d cs =>
    rw [List.head?_cons, ne_eq, Option.some.injEq]
    rcases h with rfl | rfl <;> simpa [sign?, signs] using ne_comm

/-- No lexeme begins a text if no scanner applies. -/
theorem first?_eq_none_iff_scanners :
    first? (c :: cs) = none ↔ (isWordChar c = false ∧ Text.isBlank c = false) ∧
      comment? (c :: cs) = none ∧ char? (c :: cs) = none ∧ str? (c :: cs) = none ∧
      sign? (c :: cs) = none := by
  simp only [first?, Option.orElse_eq_orElse, Option.orElse_eq_or, Option.or_eq_none_iff,
    isWordChar_eq_false_iff, word?, number?, blank?, ite_eq_right_iff, reduceCtorEq, imp_false,
    Bool.not_eq_true, and_assoc]

/-- Exactly the unreadable texts begin with no lexeme. -/
theorem first?_eq_none_iff : first? (c :: cs) = none ↔ Unreadable (c :: cs) := by
  rw [first?_eq_none_iff_scanners]
  constructor
  · rintro ⟨⟨hword, hblank⟩, -, hchar, hstr, hsign⟩
    by_cases hc : c ∈ punctuation
    · by_cases hhalf : c = '&' ∨ c = '|'
      · have hrest := (sign?_half_eq_none_iff hhalf).1 hsign
        rcases hhalf with rfl | rfl
        · exact .ampersand hrest
        · exact .bar hrest
      · by_cases hquote : c = '\'' ∨ c = '"'
        · rcases hquote with rfl | rfl
          · obtain ⟨hplain, hescaped⟩ := char?_quote_eq_none_iff.1 hchar
            exact .quote hplain hescaped
          · obtain ⟨body, rest, rfl, hbody, hrest⟩ :=
              strTail?_eq_none_iff.1 (Option.map_eq_none_iff.1 hstr)
            exact .doubleQuote hbody hrest
        · exact absurd hsign (sign?_ne_none hc (not_or.1 hquote) (not_or.1 hhalf))
    · exact .stranger hword hblank hc
  · intro h
    cases h with
    | ampersand hrest =>
      exact ⟨by decide, rfl, rfl, rfl, (sign?_half_eq_none_iff (.inl rfl)).2 hrest⟩
    | bar hrest => exact ⟨by decide, rfl, rfl, rfl, (sign?_half_eq_none_iff (.inr rfl)).2 hrest⟩
    | quote hplain hescaped =>
      exact ⟨by decide, rfl, char?_quote_eq_none_iff.2 ⟨hplain, hescaped⟩, rfl, rfl⟩
    | doubleQuote hbody hrest =>
      have hopen := strTail?_eq_none_iff.2 ⟨_, _, rfl, hbody, hrest⟩
      exact ⟨by decide, rfl, rfl, Option.map_eq_none_iff.2 hopen, rfl⟩
    | stranger hword hblank hsign =>
      have hne : ∀ d ∈ punctuation, c ≠ d := fun d hd heq => hsign (heq ▸ hd)
      exact ⟨⟨hword, hblank⟩, comment?_eq_none fun hslash => absurd hslash (hne _ (by decide)),
        char?_eq_none (hne _ (by decide)) cs, str?_eq_none (hne _ (by decide)) cs,
        sign?_stranger hsign⟩

/-! ### Without the rest -/

/-- What holds of the next character holds of it also where the text goes on further. -/
theorem head?_of_append {p : Char → Prop} {front rest : List Char}
    (h : ∀ c, (front ++ rest).head? = some c → p c) : ∀ c, front.head? = some c → p c := by
  intro c hc
  obtain ⟨tail, rfl⟩ := List.head?_eq_some_iff.1 hc
  exact h c rfl

theorem cutBefore_of_append {kind : TokenKind} {text front rest : List Char}
    (h : kind.CutBefore text (front ++ rest)) : kind.CutBefore text front := by
  obtain ⟨⟨hword, hnumber⟩, hslash⟩ := h
  refine ⟨⟨fun hkind => head?_of_append (hword hkind), fun hkind => ?_⟩, fun htext => ?_⟩
  · obtain ⟨hdigit, hpoint⟩ := hnumber hkind
    refine ⟨head?_of_append hdigit, ?_⟩
    rintro hnone d tail rfl
    exact hpoint hnone d (tail ++ rest) rfl
  · have hnext : ∀ c, (front ++ rest).head? = some c → c ≠ '/' := by
      rintro c hc rfl
      exact hslash htext hc
    exact fun hhead => head?_of_append hnext _ hhead rfl

/-- The longest run of characters of a class is the same without what stands further behind. -/
theorem run_of_append {p : Char → Bool} {run front rest : List Char}
    (hrun : run = (run ++ (front ++ rest)).takeWhile p)
    (hrest : front ++ rest = (run ++ (front ++ rest)).dropWhile p) :
    (run ++ front).takeWhile p = run ∧ (run ++ front).dropWhile p = front := by
  have hall : ∀ c ∈ run, p c = true := fun c hc => by
    rw [hrun] at hc
    exact List.mem_takeWhile_imp hc
  have hstop : ∀ c, (front ++ rest).head? = some c → p c = false := fun c hc => by
    rw [hrest] at hc
    exact head?_dropWhile hc
  exact ⟨takeWhile_run hall (head?_of_append hstop), dropWhile_run hall (head?_of_append hstop)⟩

/-- The lexeme at the front of a text is found there also if the text ends somewhere behind it. -/
theorem first?_of_append {kind? : Option TokenKind} {text front rest : List Char}
    (h : first? (text ++ (front ++ rest)) = some ⟨kind?, text, front ++ rest⟩) :
    first? (text ++ front) = some ⟨kind?, text, front⟩ := by
  cases kind? with
  | some kind =>
    obtain ⟨-, hspelled, hcut⟩ := first?_eq_token_iff.1 h
    exact first?_append hspelled (cutBefore_of_append hcut)
  | none =>
    obtain ⟨hne, -⟩ := cuts_of_first? h
    obtain ⟨c, run, rfl⟩ := List.exists_cons_of_ne_nil hne
    rw [List.cons_append] at h ⊢
    rcases blank_or_comment_of_first? h rfl with hc | ⟨body, hbody⟩
    · rw [first?_blank hc] at h
      obtain ⟨-, hrun, hrest⟩ := Lexeme.mk.inj (Option.some.inj h)
      obtain ⟨htake, hdrop⟩ := run_of_append (List.cons.inj hrun).2.symm hrest.symm
      rw [first?_blank hc, htake, hdrop]
    · have htext := hbody
      rw [hbody, first?_comment] at h
      obtain ⟨-, hrun, hrest⟩ := Lexeme.mk.inj (Option.some.inj h)
      obtain ⟨rfl, hslash⟩ := List.cons.inj hrun
      generalize hline : body.takeWhile isInLine = line at hslash
      subst hslash
      obtain rfl : body = line ++ (front ++ rest) := (List.cons.inj (List.cons.inj htext).2).2.symm
      obtain ⟨htake, hdrop⟩ := run_of_append hline.symm hrest.symm
      rw [List.cons_append, first?_comment, htake, hdrop]

end Lexeme

/-! ### Up to an unreadable place -/

/-- Whether the lexer reads a text, which stands at an offset in front of a rest, lexeme by lexeme,
and finds the given tokens in it. -/
inductive Scans (file : String) : Nat → List Char → List Token → List Char → Prop
  | nil (offset : Nat) (rest : List Char) : Scans file offset [] [] rest
  | lexeme {offset : Nat} {kind? : Option TokenKind} {text front rest : List Char}
      {tokens : List Token}
      (hfirst : Lexeme.first? (text ++ (front ++ rest)) = some ⟨kind?, text, front ++ rest⟩)
      (hrest : Scans file (offset + byteSize text) front tokens rest) :
      Scans file offset (text ++ front)
        ((Lexeme.token? ⟨kind?, text, front ++ rest⟩ file offset).toList ++ tokens) rest

namespace Scans

variable {file : String} {offset : Nat} {front rest : List Char} {tokens : List Token}

/-- What is read in front of a rest is read in the same way where the source ends. -/
theorem truncate (h : Scans file offset front tokens rest) : Scans file offset front tokens [] := by
  induction h with
  | nil offset rest => exact .nil offset []
  | lexeme hfirst hrest ih =>
    refine .lexeme ?_ ih
    rw [List.append_nil]
    exact Lexeme.first?_of_append hfirst

/-- The tokens that were found come first, and the rest of the text gives the others. -/
theorem tokensFrom_append (h : Scans file offset front tokens rest) :
    tokensFrom file offset (front ++ rest) =
      (tokensFrom file (offset + byteSize front) rest).map (tokens ++ ·) := by
  induction h with
  | nil offset rest => exact (congrFun Except.map_id _).symm
  | @lexeme offset kind? text front rest tokens hfirst hrest ih =>
    rw [List.append_assoc, tokensFrom_of_first? file offset hfirst, ih, Text.byteSize_append,
      ← Nat.add_assoc]
    cases tokensFrom file (offset + byteSize text + byteSize front) rest with
    | error report => rfl
    | ok more => exact congrArg Except.ok (List.append_assoc _ _ _).symm

/-- No end mark is found in front of a rest. -/
theorem proper_eq (h : Scans file offset front tokens rest) : Token.proper tokens = tokens := by
  induction h with
  | nil => rfl
  | lexeme hfirst hrest ih =>
    rw [Token.proper_append, Lexeme.proper_token? hfirst, ih]

/-- Up to the place where the lexer stops a text gives the same tokens on its own. -/
theorem exists_tokensFrom (h : Scans file offset front tokens rest) :
    ∃ read, tokensFrom file offset front = .ok read ∧ Token.proper read = tokens := by
  have hread := h.truncate.tokensFrom_append
  rw [List.append_nil, tokensFrom_nil] at hread
  refine ⟨_, hread, ?_⟩
  rw [Token.proper_append, h.proper_eq]
  exact List.append_nil tokens

end Scans

/-- Every text is read up to a place where no lexeme begins, which may be its end. -/
theorem exists_scans (file : String) (offset : Nat) (cs : List Char) :
    ∃ front tokens rest, cs = front ++ rest ∧ Scans file offset front tokens rest ∧
      Lexeme.first? rest = none := by
  induction hlength : cs.length using Nat.strong_induction_on generalizing offset cs with
  | _ n ih =>
    cases hfirst : Lexeme.first? cs with
    | none => exact ⟨[], [], cs, rfl, .nil offset cs, hfirst⟩
    | some l =>
      obtain ⟨-, hcut⟩ := Lexeme.cuts_of_first? hfirst
      obtain ⟨front, tokens, rest, hrest, hscans, hstop⟩ :=
        ih _ (hlength ▸ Lexeme.length_rest_lt hfirst) (offset + byteSize l.text) l.rest rfl
      obtain ⟨kind?, text, _⟩ := l
      subst hrest hcut
      exact ⟨text ++ front, _, rest, (List.append_assoc _ _ _).symm, .lexeme hfirst hscans, hstop⟩

/-- The lexer gives up on a source exactly at an unreadable place, and reports its first character
there.  The part of the source in front of the place has the tokens that were found so far. -/
theorem tokenize_eq_error_iff (source file : String) (report : Report)
    (hsize : source.utf8ByteSize < 2 ^ 32) :
    tokenize source file = .error report ↔
      ∃ front c rest tokens, source.toList = front ++ c :: rest ∧
        Scans file 0 front tokens (c :: rest) ∧ Unreadable (c :: rest) ∧
        report.fault = .unrecognisedToken (String.singleton c) ∧ report.position.file = file ∧
        report.position.offset.toNat = (String.ofList front).utf8ByteSize ∧
        ∃ read, tokenize (String.ofList front) file = .ok read ∧ Token.proper read = tokens := by
  constructor
  · intro h
    obtain ⟨front, tokens, rest, hsource, hscans, hstop⟩ := exists_scans file 0 source.toList
    rw [tokenize, hsource, hscans.tokensFrom_append] at h
    cases rest with
    | nil =>
      rw [tokensFrom_nil] at h
      cases h
    | cons c rest =>
      rw [tokensFrom_of_first?_eq_none file _ hstop] at h
      cases h
      have hfits : 0 + byteSize front < UInt32.size := by
        rw [← Text.byteSize_toList, hsource, Text.byteSize_append] at hsize
        change _ < 2 ^ 32
        omega
      refine ⟨front, c, rest, tokens, hsource, hscans, Lexeme.first?_eq_none_iff.1 hstop, rfl, rfl,
        ?_, ?_⟩
      · rw [Position.toNat_ofOffset file hfits, Nat.zero_add, Text.utf8ByteSize_ofList]
      · rw [tokenize, String.toList_ofList]
        exact hscans.exists_tokensFrom
  · rintro ⟨front, c, rest, tokens, hsource, hscans, hstop, hfault, hfile, hoffset, -⟩
    obtain ⟨fault, offset, name⟩ := report
    cases hfault
    cases hfile
    obtain rfl : UInt32.ofNat (byteSize front) = offset := by
      rw [← Text.utf8ByteSize_ofList, ← hoffset, UInt32.ofNat_toNat]
    rw [tokenize, hsource, hscans.tokensFrom_append,
      tokensFrom_of_first?_eq_none _ _ (Lexeme.first?_eq_none_iff.2 hstop), Nat.zero_add]
    rfl

/-- The quote of a string that is never closed, because its last quote is escaped, behind a number
and a blank character of two bytes. -/
theorem tokenize_eq_error_open :
    tokenize "2.5\u00a0\"é\\\"" "f" = .error ⟨.unrecognisedToken "\"", ⟨5, "f"⟩⟩ ∧
      ∃ front c rest tokens, "2.5\u00a0\"é\\\"".toList = front ++ c :: rest ∧
        Scans "f" 0 front tokens (c :: rest) ∧ Unreadable (c :: rest) ∧
        String.singleton c = "\"" ∧ (String.ofList front).utf8ByteSize = 5 ∧
        ∃ read, tokenize (String.ofList front) "f" = .ok read ∧ Token.proper read = tokens := by
  have herror : tokenize "2.5\u00a0\"é\\\"" "f" =
      .error ⟨.unrecognisedToken "\"", ⟨5, "f"⟩⟩ := by
    cbv
  obtain ⟨front, c, rest, tokens, hsource, hscans, hstop, hfault, -, hoffset, hread⟩ :=
    (tokenize_eq_error_iff _ "f" _ (by decide)).1 herror
  exact ⟨herror, front, c, rest, tokens, hsource, hscans, hstop,
    (Fault.unrecognisedToken.inj hfault).symm, hoffset.symm, hread⟩

end Cascade
