import Mathlib
import Cascade.Proofs.Spelling

/-!
# Finding what is spelled

The shapes of tokens decide what the scanners find.  A text that has the shape of a kind is cut off
in front of a rest exactly if it cannot go on there and does not begin a comment, so a lexeme can be
moved in front of any other rest that does not change this.  Blank characters are passed one at a
time.

## Main definitions

* `TokenKind.CutBefore` : a text of a kind is cut off in front of a rest.

## Main results

* `Lexeme.first?_eq_token_iff` : exactly the well-spelled texts that are cut off are found.
* `Lexeme.blank_or_comment_of_first?` : what is skipped is a run of blank characters or a comment.
* `tokensFrom_blank` : a blank character in front of a text makes no difference for its tokens.
-/

namespace Cascade

/-- Whether a text of a kind is cut off in front of a rest: it cannot go on there, and no slash
turns it into a comment. -/
def TokenKind.CutBefore (kind : TokenKind) (text rest : List Char) : Prop :=
  kind.EndsBefore text rest ∧ (text = ['/'] → rest.head? ≠ some '/')

namespace Lexeme

/-! ### Runs of characters -/

section Runs

variable {p : Char → Bool} {run rest : List Char} (hrun : ∀ c ∈ run, p c = true)
  (hrest : ∀ c, rest.head? = some c → p c = false)

include hrun hrest

/-- The longest run of characters of a class ends where the next character is not in it. -/
theorem takeWhile_run : (run ++ rest).takeWhile p = run := by
  rw [List.takeWhile_append_of_pos hrun]
  cases rest with
  | nil => simp
  | cons c rest => simp [hrest c rfl]

theorem dropWhile_run : (run ++ rest).dropWhile p = rest := by
  rw [List.dropWhile_append_of_pos hrun]
  cases rest with
  | nil => rfl
  | cons c rest => simp [hrest c rfl]

end Runs

/-! ### Scanners that do not apply -/

variable {c : Char} {cs : List Char}

theorem word?_eq_none (h : isWordStart c = false) (cs : List Char) : word? (c :: cs) = none := by
  simp [word?, h]

theorem number?_eq_none (h : c.isDigit = false) (cs : List Char) : number? (c :: cs) = none := by
  simp [number?, h]

theorem blank?_eq_none (h : Text.isBlank c = false) (cs : List Char) :
    blank? (c :: cs) = none := by
  simp [blank?, h]

theorem comment?_eq_none (h : c = '/' → cs.head? ≠ some '/') : comment? (c :: cs) = none := by
  unfold comment?
  split
  · rename_i rest heq
    obtain ⟨rfl, rfl⟩ := List.cons.inj heq
    exact absurd rfl (h rfl)
  · rfl

theorem char?_eq_none (h : c ≠ '\'') (cs : List Char) : char? (c :: cs) = none := by
  simp [char?, h]

theorem str?_eq_none (h : c ≠ '"') (cs : List Char) : str? (c :: cs) = none := by
  simp [str?, h]

theorem toNat_of_isDigit (h : c.isDigit = true) : 48 ≤ c.toNat ∧ c.toNat ≤ 57 := by
  simp only [Char.isDigit, Bool.and_eq_true, decide_eq_true_eq] at h
  exact h

theorem toNat_of_isWordStart (h : isWordStart c = true) :
    65 ≤ c.toNat ∧ c.toNat ≤ 90 ∨ 97 ≤ c.toNat ∧ c.toNat ≤ 122 ∨ c.toNat = 95 := by
  simp only [isWordStart, Char.isAlpha, Char.isUpper, Char.isLower, Bool.or_eq_true,
    Bool.and_eq_true, decide_eq_true_eq, or_assoc] at h
  exact h.imp id (Or.imp id (congrArg Char.toNat))

/-- A digit begins no word. -/
theorem isWordStart_of_isDigit (h : c.isDigit = true) : isWordStart c = false := by
  have hdigit := toNat_of_isDigit h
  refine Bool.eq_false_iff.2 fun hword => ?_
  have hletter := toNat_of_isWordStart hword
  omega

/-- A blank character begins no word and no number. -/
theorem not_begins_of_isBlank (h : Text.isBlank c = true) :
    isWordStart c = false ∧ c.isDigit = false := by
  obtain ⟨range, hmem, hlow, hhigh⟩ := Text.Ranges.covers_eq_true_iff.1 h
  -- The letters and the digits lie between the space and the next range.
  have hranges : ∀ range ∈ Text.blankRanges, range.2 ≤ 32 ∨ 122 < range.1 := by decide
  have hrange := hranges range hmem
  constructor
  · refine Bool.eq_false_iff.2 fun hword => ?_
    have hletter := toNat_of_isWordStart hword
    omega
  · refine Bool.eq_false_iff.2 fun hdigit => ?_
    have hnumber := toNat_of_isDigit hdigit
    omega

/-! ### Scanners that apply -/

variable {kind : TokenKind} {text rest : List Char}

theorem word?_append (hc : isWordStart c = true) (hcs : ∀ d ∈ cs, isWordChar d = true)
    (hrest : ∀ d, rest.head? = some d → isWordChar d = false) :
    word? (c :: cs ++ rest) =
      some ⟨some ((reserved? (String.ofList (c :: cs))).getD .identifier), c :: cs, rest⟩ := by
  simp only [List.cons_append, word?, hc, if_true, takeWhile_run hcs hrest, dropWhile_run hcs hrest]

/-- There is no fraction where no digit stands behind a point. -/
theorem fraction_eq_nil
    (h : ∀ (d : Char) (tail : List Char), rest = '.' :: d :: tail → d.isDigit = false) :
    fraction rest = ([], rest) := by
  rcases fraction_cases rest with ⟨d, ds, hd, heq⟩ | ⟨heq, -⟩
  · have happend := fraction_append rest
    rw [heq] at happend
    have hdigit := h d _ happend.symm
    rw [hd] at hdigit
    cases hdigit
  · exact heq

theorem fraction_append_digits (hne : cs ≠ []) (hcs : ∀ d ∈ cs, d.isDigit = true)
    (hrest : ∀ d, rest.head? = some d → d.isDigit = false) :
    fraction ('.' :: cs ++ rest) = ('.' :: cs, rest) := by
  obtain ⟨d, ds, rfl⟩ := List.exists_cons_of_ne_nil hne
  obtain ⟨hd, hds⟩ := List.forall_mem_cons.1 hcs
  simp only [List.cons_append, fraction, hd, if_true, takeWhile_run hds hrest,
    dropWhile_run hds hrest]

theorem strTail?_append (h : StrBody text) (rest : List Char) :
    strTail? (text ++ '"' :: rest) = some (text ++ ['"'], rest) := by
  induction h with
  | nil => rfl
  | escaped hc hbody ih => simp [strTail?, hc, ih]
  | plain hquote hslash hbody ih => simp [strTail?, hslash, ih]

theorem sign?_append (h : (text, kind) ∈ signs) (rest : List Char) :
    sign? (text ++ rest) = some ⟨some kind, text, rest⟩ := by
  simp only [signs, List.mem_cons, Prod.mk.injEq, List.not_mem_nil, or_false] at h
  rcases h with ⟨rfl, rfl⟩ | ⟨rfl, rfl⟩ | ⟨rfl, rfl⟩ | ⟨rfl, rfl⟩ | ⟨rfl, rfl⟩ | ⟨rfl, rfl⟩ |
    ⟨rfl, rfl⟩ | ⟨rfl, rfl⟩ | ⟨rfl, rfl⟩ | ⟨rfl, rfl⟩ | ⟨rfl, rfl⟩ | ⟨rfl, rfl⟩ | ⟨rfl, rfl⟩ |
    ⟨rfl, rfl⟩ <;> simp [sign?, signs]

/-! ### The lexeme at the front -/

/-- Where no letter, digit or blank character stands at the front, the other scanners decide. -/
theorem first?_of_not_begins (hword : isWordStart c = false) (hdigit : c.isDigit = false)
    (hblank : Text.isBlank c = false) (hcomment : c = '/' → cs.head? ≠ some '/') :
    first? (c :: cs) = ((char? (c :: cs)).or (str? (c :: cs))).or (sign? (c :: cs)) := by
  simp only [first?, Option.orElse_eq_orElse, Option.orElse_eq_or, word?_eq_none hword,
    number?_eq_none hdigit, blank?_eq_none hblank, comment?_eq_none hcomment, Option.none_or,
    Option.or_assoc]

theorem first?_of_quote (h : c = '\'' ∨ c = '"') (cs : List Char) :
    first? (c :: cs) = ((char? (c :: cs)).or (str? (c :: cs))).or (sign? (c :: cs)) := by
  rcases h with rfl | rfl
  · exact first?_of_not_begins (by decide) (by decide) (by decide) nofun
  · exact first?_of_not_begins (by decide) (by decide) (by decide) nofun

/-- Behind some digits a number goes on with the fraction. -/
theorem first?_append_digits (hne : cs ≠ []) (hcs : ∀ d ∈ cs, d.isDigit = true)
    (hrest : ∀ d, rest.head? = some d → d.isDigit = false) :
    first? (cs ++ rest) = some ⟨some .number, cs ++ (fraction rest).1, (fraction rest).2⟩ := by
  obtain ⟨d, ds, rfl⟩ := List.exists_cons_of_ne_nil hne
  obtain ⟨hd, hds⟩ := List.forall_mem_cons.1 hcs
  have hnumber : number? (d :: ds ++ rest) =
      some ⟨some .number, d :: ds ++ (fraction rest).1, (fraction rest).2⟩ := by
    simp only [List.cons_append, number?, hd, if_true, takeWhile_run hds hrest,
      dropWhile_run hds hrest]
  have hword : word? (d :: ds ++ rest) = none := word?_eq_none (isWordStart_of_isDigit hd) _
  simp only [first?, Option.orElse_eq_orElse, Option.orElse_eq_or, hword, hnumber, Option.none_or,
    Option.some_or]

/-- No sign begins like another lexeme, but for the slash of a comment. -/
theorem first?_append_sign (hsign : (text, kind) ∈ signs)
    (hslash : text = ['/'] → rest.head? ≠ some '/') :
    first? (text ++ rest) = some ⟨some kind, text, rest⟩ := by
  have hsigns : ∀ sign ∈ signs, sign.1 ≠ [] ∧ ('/' ∈ sign.1 → sign.1 = ['/']) ∧
      sign.1.all (fun c => !isWordStart c && !c.isDigit && !Text.isBlank c && c ≠ '\'' &&
        c ≠ '"') = true := by decide
  obtain ⟨hne, hcomment, hchars⟩ := hsigns _ hsign
  have hsome := sign?_append hsign rest
  obtain ⟨c, cs, rfl⟩ := List.exists_cons_of_ne_nil hne
  have hfront := List.all_eq_true.1 hchars c List.mem_cons_self
  simp only [Bool.and_eq_true, Bool.not_eq_true', decide_eq_true_eq] at hfront
  obtain ⟨⟨⟨⟨hword, hdigit⟩, hblank⟩, hchar⟩, hstr⟩ := hfront
  have hnext : c = '/' → (cs ++ rest).head? ≠ some '/' := by
    rintro rfl
    have htext := hcomment List.mem_cons_self
    obtain ⟨-, rfl⟩ := List.cons.inj htext
    exact hslash rfl
  rw [List.cons_append] at hsome ⊢
  rw [first?_of_not_begins hword hdigit hblank hnext, char?_eq_none hchar, str?_eq_none hstr, hsome]
  rfl

/-- A well-spelled text that is cut off is found. -/
theorem first?_append (hspelled : kind.SpelledBy text) (hcut : kind.CutBefore text rest) :
    first? (text ++ rest) = some ⟨some kind, text, rest⟩ := by
  obtain ⟨⟨hword, hnumber⟩, hslash⟩ := hcut
  cases hspelled with
  | @word c cs _ hc hcs hkind =>
    have hisWord := isWord_of_reserved? (String.ofList (c :: cs))
    rw [← hkind] at hisWord
    simp only [first?, Option.orElse_eq_orElse, Option.orElse_eq_or,
      word?_append hc hcs (hword hisWord), Option.some_or, hkind]
  | whole hne hdigits =>
    obtain ⟨hrest, hpoint⟩ := hnumber rfl
    have hnone : '.' ∉ text := fun hmem => absurd (hdigits _ hmem) (by decide)
    rw [first?_append_digits hne hdigits hrest, fraction_eq_nil (hpoint hnone), List.append_nil]
  | @decimal digits places hne hdigits hne' hplaces =>
    have hpoint : ∀ d, ('.' :: places ++ rest).head? = some d → d.isDigit = false := by
      rintro d ⟨⟩
      decide
    rw [List.append_assoc, first?_append_digits hne hdigits hpoint,
      fraction_append_digits hne' hplaces (hnumber rfl).1]
  | @escapedChar c hc =>
    rw [List.cons_append, first?_of_quote (by decide)]
    simp [char?, hc]
  | @plainChar c hquote hbackslash =>
    rw [List.cons_append, first?_of_quote (by decide)]
    simp [char?, hquote, hbackslash]
  | @str body hbody =>
    rw [List.cons_append, first?_of_quote (by decide), List.append_assoc]
    simp [char?, str?, strTail?_append hbody rest]
  | sign hsign => exact first?_append_sign hsign hslash

/-- Two slashes begin a comment. -/
theorem first?_comment (cs : List Char) :
    first? ('/' :: '/' :: cs) =
      some ⟨none, '/' :: '/' :: cs.takeWhile isInLine, cs.dropWhile isInLine⟩ := by
  have hword : word? ('/' :: '/' :: cs) = none := word?_eq_none (by decide) _
  have hnumber : number? ('/' :: '/' :: cs) = none := number?_eq_none (by decide) _
  have hblank : blank? ('/' :: '/' :: cs) = none := blank?_eq_none (by decide) _
  simp only [first?, hword, hnumber, hblank, comment?, Option.orElse_eq_orElse,
    Option.orElse_eq_or, Option.none_or, Option.some_or]

/-- A blank character begins a run of blank characters. -/
theorem first?_blank (hc : Text.isBlank c = true) (cs : List Char) :
    first? (c :: cs) =
      some ⟨none, c :: cs.takeWhile Text.isBlank, cs.dropWhile Text.isBlank⟩ := by
  obtain ⟨hword, hdigit⟩ := not_begins_of_isBlank hc
  simp only [first?, word?_eq_none hword, number?_eq_none hdigit, blank?, hc, if_true,
    Option.orElse_eq_orElse, Option.orElse_eq_or, Option.none_or, Option.some_or]

/-- Exactly the well-spelled texts that are cut off in front of the rest are found as tokens. -/
theorem first?_eq_token_iff :
    first? cs = some ⟨some kind, text, rest⟩ ↔
      cs = text ++ rest ∧ kind.SpelledBy text ∧ kind.CutBefore text rest := by
  constructor
  · intro h
    obtain ⟨-, hcut⟩ := cuts_of_first? h
    rcases first?_cases h with ⟨kind', hkind, hspelled, hends⟩ | ⟨hnone, -⟩
    · obtain rfl := Option.some.inj hkind
      refine ⟨hcut.symm, hspelled, hends, fun htext hhead => ?_⟩
      obtain ⟨tail, rfl⟩ := List.head?_eq_some_iff.1 hhead
      have hslashes : cs = '/' :: '/' :: tail := by
        rw [← hcut]
        exact congrArg (· ++ '/' :: tail) htext
      rw [hslashes, first?_comment] at h
      cases h
    · cases hnone
  · rintro ⟨rfl, hspelled, hcut⟩
    exact first?_append hspelled hcut

/-- What is skipped begins with a blank character or is a comment. -/
theorem blank_or_comment_of_first? {l : Lexeme} (h : first? (c :: cs) = some l)
    (hkind : l.kind? = none) :
    Text.isBlank c = true ∨ ∃ body, c :: cs = '/' :: '/' :: body := by
  have hskip : ∀ kind, ¬l.IsToken kind := by
    rintro kind ⟨hsome, -⟩
    rw [hkind] at hsome
    cases hsome
  simp only [first?, Option.orElse_eq_orElse, Option.orElse_eq_or, Option.or_eq_some_iff] at h
  rcases h with h | ⟨-, h | ⟨-, h | ⟨-, h | ⟨-, h | ⟨-, h | ⟨-, h⟩⟩⟩⟩⟩⟩
  · exact absurd (isToken_of_word? h) (not_exists.2 hskip)
  · exact absurd (isToken_of_number? h) (not_exists.2 hskip)
  · simp only [blank?, Option.ite_none_right_eq_some] at h
    exact .inl h.1
  · unfold comment? at h
    split at h
    · rename_i body heq
      exact .inr ⟨body, heq⟩
    · cases h
  · exact absurd (isToken_of_char? h) (not_exists.2 hskip)
  · exact absurd (isToken_of_str? h) (not_exists.2 hskip)
  · exact absurd (isToken_of_sign? h) (not_exists.2 hskip)

end Lexeme

/-! ### Skipped lexemes -/

/-- A lexeme that is skipped leaves no token. -/
theorem tokensFrom_of_skipped (file : String) (offset : Nat) {cs text rest : List Char}
    (h : Lexeme.first? cs = some ⟨none, text, rest⟩) :
    tokensFrom file offset cs = tokensFrom file (offset + Text.byteSize text) rest := by
  rw [tokensFrom_of_first? file offset h]
  cases tokensFrom file (offset + Text.byteSize text) rest <;> rfl

/-- Blank characters in front of a text are passed as a whole. -/
theorem tokensFrom_dropWhile (file : String) (offset : Nat) (cs : List Char) :
    tokensFrom file offset cs =
      tokensFrom file (offset + Text.byteSize (cs.takeWhile Text.isBlank))
        (cs.dropWhile Text.isBlank) := by
  cases cs with
  | nil => rfl
  | cons c cs =>
    by_cases hc : Text.isBlank c = true
    · rw [tokensFrom_of_skipped file offset (Lexeme.first?_blank hc cs),
        List.takeWhile_cons_of_pos hc, List.dropWhile_cons_of_pos hc]
    · rw [List.takeWhile_cons_of_neg hc, List.dropWhile_cons_of_neg hc]
      rfl

/-- A blank character in front of a text makes no difference for its tokens. -/
theorem tokensFrom_blank (file : String) (offset : Nat) {c : Char} (hc : Text.isBlank c = true)
    (cs : List Char) :
    tokensFrom file offset (c :: cs) = tokensFrom file (offset + c.utf8Size) cs := by
  rw [tokensFrom_dropWhile file offset, tokensFrom_dropWhile file (offset + c.utf8Size),
    List.takeWhile_cons_of_pos hc, List.dropWhile_cons_of_pos hc, Text.byteSize_cons,
    Nat.add_assoc]

end Cascade
