import Mathlib.Data.List.Forall2
import Cascade.Proofs.Partition
import Cascade.Proofs.Recognition

/-!
# Texts that are put together

A line break ends whatever stands in front of it, so the tokens of two texts with a line break in
between are those of the first text and, further on in the source, those of the second one.  In the
same way a space ends every token, so the tokens of a source can be written again with single spaces
between them, and the same tokens are found.

## Main definitions

* `Token.proper` : some tokens without the end mark.
* `Position.ShiftedBy`, `Token.ShiftedBy` : the same place or token a number of bytes further on.
* `Token.spaced` : tokens written with single spaces between them.

## Main results

* `shifted_tokensFrom` : a text gives the same tokens further on in a source.
* `tokensFrom_append_line` : a text behind a line break is read on its own.
* `tokenize_append_line` : two texts with a line break in between are read one after the other.
* `tokenize_spaced` : tokens that are written with spaces between them are found again.
-/

namespace Cascade

open Text (byteSize)

/-- The tokens without the end mark. -/
def Token.proper (tokens : List Token) : List Token :=
  tokens.filter fun t => t.kind ≠ .eof

theorem Token.proper_append (tokens tokens' : List Token) :
    proper (tokens ++ tokens') = proper tokens ++ proper tokens' :=
  List.filter_append tokens tokens'

/-! ### Places further on -/

/-- Whether a position lies a number of bytes behind another one in the same source. -/
def Position.ShiftedBy (n : Nat) (q q' : Position) : Prop :=
  q'.file = q.file ∧ q'.offset.toNat = q.offset.toNat + n

/-- Whether a token is the same as another one, but for standing a number of bytes further on. -/
structure Token.ShiftedBy (n : Nat) (t t' : Token) : Prop where
  kind : t'.kind = t.kind
  value : t'.value = t.value
  start : t.span.start.ShiftedBy n t'.span.start
  stop : t.span.stop.ShiftedBy n t'.span.stop

/-- Whether a text gives the same a number of bytes further on: the same tokens, or the same
fault. -/
inductive Shifted (n : Nat) : Except Report (List Token) → Except Report (List Token) → Prop
  | ok {tokens tokens' : List Token} (h : List.Forall₂ (Token.ShiftedBy n) tokens tokens') :
      Shifted n (.ok tokens) (.ok tokens')
  | error {fault : Fault} {q q' : Position} (h : q.ShiftedBy n q') :
      Shifted n (.error ⟨fault, q⟩) (.error ⟨fault, q'⟩)

theorem Position.shiftedBy_ofOffset (file : String) {offset n : Nat}
    (h : offset + n < UInt32.size) :
    (Position.ofOffset file offset).ShiftedBy n (Position.ofOffset file (offset + n)) := by
  refine ⟨rfl, ?_⟩
  rw [Position.toNat_ofOffset file h, Position.toNat_ofOffset file (by omega)]

theorem Token.shiftedBy_between (kind : TokenKind) (value file : String) {start stop n : Nat}
    (hstart : start + n < UInt32.size) (hstop : stop + n < UInt32.size) :
    Token.ShiftedBy n ⟨kind, value, Span.between file start stop⟩
      ⟨kind, value, Span.between file (start + n) (stop + n)⟩ :=
  ⟨rfl, rfl, Position.shiftedBy_ofOffset file hstart, Position.shiftedBy_ofOffset file hstop⟩

/-- Tokens in front of others are shifted with them. -/
theorem Shifted.map_append {n : Nat} {front front' : List Token}
    {result result' : Except Report (List Token)}
    (hfront : List.Forall₂ (Token.ShiftedBy n) front front') (h : Shifted n result result') :
    Shifted n (result.map (front ++ ·)) (result'.map (front' ++ ·)) := by
  cases h with
  | ok htokens => exact .ok (List.rel_append hfront htokens)
  | error hq => exact .error hq

theorem Lexeme.forall₂_token? (l : Lexeme) (file : String) {offset n : Nat}
    (h : offset + byteSize l.text + n < UInt32.size) :
    List.Forall₂ (Token.ShiftedBy n) (l.token? file offset).toList
      (l.token? file (offset + n)).toList := by
  unfold Lexeme.token?
  cases l.kind? with
  | none => exact .nil
  | some kind =>
    refine .cons ?_ .nil
    rw [Nat.add_right_comm offset n]
    exact Token.shiftedBy_between kind _ file (by omega) h

/-- A text gives the same tokens, or the same fault, further on in a source. -/
theorem shifted_tokensFrom (file : String) {offset n : Nat} {cs : List Char}
    (h : offset + byteSize cs + n < UInt32.size) :
    Shifted n (tokensFrom file offset cs) (tokensFrom file (offset + n) cs) := by
  induction hlength : cs.length using Nat.strong_induction_on generalizing offset cs with
  | _ m ih =>
    cases cs with
    | nil =>
      rw [tokensFrom_nil, tokensFrom_nil]
      exact .ok (.cons (Token.shiftedBy_between _ _ file h h) .nil)
    | cons c cs =>
      cases hfirst : Lexeme.first? (c :: cs) with
      | none =>
        rw [tokensFrom_of_first?_eq_none file _ hfirst, tokensFrom_of_first?_eq_none file _ hfirst]
        exact .error (Position.shiftedBy_ofOffset file (by omega))
      | some l =>
        obtain ⟨-, hcut⟩ := Lexeme.cuts_of_first? hfirst
        rw [← hcut, Text.byteSize_append] at h
        rw [tokensFrom_of_first? file _ hfirst, tokensFrom_of_first? file _ hfirst,
          Nat.add_right_comm offset n]
        refine .map_append (l.forall₂_token? file (by omega)) ?_
        exact ih _ (hlength ▸ Lexeme.length_rest_lt hfirst) (by omega) rfl

/-! ### Lines one below the other -/

/-- In front of a line break behind a rest there is the next character of the rest, or else the line
break itself. -/
theorem head?_append_line {p : Char → Prop} {rest : List Char}
    (hrest : ∀ c, rest.head? = some c → p c) (hbreak : p '\n') (more : List Char) :
    ∀ c, (rest ++ '\n' :: more).head? = some c → p c := by
  intro c hc
  cases rest with
  | nil =>
    cases hc
    exact hbreak
  | cons d rest => exact hrest c hc

/-- A text that is cut off in front of a rest is so with a line break behind the rest. -/
theorem TokenKind.CutBefore.append_line {kind : TokenKind} {text rest : List Char}
    (h : kind.CutBefore text rest) (more : List Char) :
    kind.CutBefore text (rest ++ '\n' :: more) := by
  obtain ⟨⟨hword, hnumber⟩, hslash⟩ := h
  refine ⟨⟨fun hkind => head?_append_line (hword hkind) (by decide) more, fun hkind => ?_⟩,
    fun htext hhead => ?_⟩
  · obtain ⟨hdigit, hpoint⟩ := hnumber hkind
    refine ⟨head?_append_line hdigit (by decide) more, fun hnone d tail heq => ?_⟩
    rcases rest with _ | ⟨c, _ | ⟨c', rest⟩⟩
    · cases heq
    · cases heq
      decide
    · cases heq
      exact hpoint hnone d rest rfl
  · have hnext : ∀ c, rest.head? = some c → c ≠ '/' := by
      rintro c hc rfl
      exact hslash htext hc
    exact head?_append_line hnext (by decide) more _ hhead rfl

/-- A lexeme that is not blank stays what it is with a line break behind the text. -/
theorem Lexeme.first?_append_line {c : Char} {cs : List Char} {l : Lexeme}
    (h : first? (c :: cs) = some l) (hblank : Text.isBlank c = false) (more : List Char) :
    first? (c :: cs ++ '\n' :: more) = some ⟨l.kind?, l.text, l.rest ++ '\n' :: more⟩ := by
  obtain ⟨kind?, text, rest⟩ := l
  cases kind? with
  | some kind =>
    obtain ⟨hcs, hspelled, hcut⟩ := first?_eq_token_iff.1 h
    rw [hcs, List.append_assoc]
    exact first?_append hspelled (hcut.append_line more)
  | none =>
    rcases blank_or_comment_of_first? h rfl with hc | ⟨body, hbody⟩
    · rw [hc] at hblank
      cases hblank
    · -- A comment ends at the line break at the latest.
      rw [hbody, first?_comment] at h
      cases h
      have hrun : ∀ d ∈ body.takeWhile isInLine, isInLine d = true :=
        fun d => List.mem_takeWhile_imp
      have hstop : ∀ d, (body.dropWhile isInLine ++ '\n' :: more).head? = some d →
          isInLine d = false :=
        head?_append_line (fun d => head?_dropWhile) (by decide) more
      have hsplit : body ++ '\n' :: more =
          body.takeWhile isInLine ++ (body.dropWhile isInLine ++ '\n' :: more) := by
        rw [← List.append_assoc, List.takeWhile_append_dropWhile]
      rw [hbody, List.cons_append, List.cons_append, hsplit, first?_comment,
        takeWhile_run hrun hstop, dropWhile_run hrun hstop]

/-- The token of a lexeme is no end mark. -/
theorem Lexeme.proper_token? {cs : List Char} {l : Lexeme} (h : first? cs = some l)
    (file : String) (offset : Nat) :
    Token.proper (l.token? file offset).toList = (l.token? file offset).toList := by
  unfold Lexeme.token?
  rcases first?_cases h with ⟨kind, hkind, hspelled, -⟩ | ⟨hnone, -⟩
  · rw [hkind]
    exact List.filter_cons_of_pos (by simpa using hspelled.proper.2)
  · rw [hnone]
    rfl

/-- A text behind a line break is read on its own. -/
theorem tokensFrom_append_line (file : String) {offset : Nat} {cs : List Char}
    {tokens : List Token} (h : tokensFrom file offset cs = .ok tokens) (more : List Char) :
    tokensFrom file offset (cs ++ '\n' :: more) =
      (tokensFrom file (offset + (byteSize cs + 1)) more).map (Token.proper tokens ++ ·) := by
  induction hlength : cs.length using Nat.strong_induction_on generalizing offset cs tokens with
  | _ n ih =>
    cases cs with
    | nil =>
      rw [tokensFrom_nil] at h
      cases h
      rw [List.nil_append, tokensFrom_blank file offset (by decide) more]
      exact (congrFun Except.map_id _).symm
    | cons c cs =>
      by_cases hblank : Text.isBlank c = true
      · rw [tokensFrom_blank file offset hblank] at h
        rw [List.cons_append, tokensFrom_blank file offset hblank, ih _ (by simp [← hlength]) h rfl,
          Text.byteSize_cons, Nat.add_assoc, Nat.add_assoc]
      · cases hfirst : Lexeme.first? (c :: cs) with
        | none =>
          rw [tokensFrom_of_first?_eq_none file _ hfirst] at h
          cases h
        | some l =>
          have hfirst' := Lexeme.first?_append_line hfirst (Bool.eq_false_iff.2 hblank) more
          obtain ⟨-, hcut⟩ := Lexeme.cuts_of_first? hfirst
          rw [tokensFrom_of_first? file _ hfirst] at h
          cases hrest : tokensFrom file (offset + byteSize l.text) l.rest with
          | error report => rw [hrest] at h; cases h
          | ok tokens' =>
            rw [hrest] at h
            cases h
            have hmore := ih _ (hlength ▸ Lexeme.length_rest_lt hfirst) hrest rfl
            have hsize : offset + byteSize l.text + (byteSize l.rest + 1) =
                offset + (byteSize (c :: cs) + 1) := by
              rw [← hcut, Text.byteSize_append]
              omega
            have hproper : Token.proper ((l.token? file offset).toList ++ tokens') =
                (l.token? file offset).toList ++ Token.proper tokens' := by
              rw [Token.proper_append, Lexeme.proper_token? hfirst]
            rw [tokensFrom_of_first? file _ hfirst', hmore, hsize, hproper]
            cases tokensFrom file (offset + (byteSize (c :: cs) + 1)) more with
            | error report => rfl
            | ok tokens => exact congrArg Except.ok (List.append_assoc _ _ _).symm

/-- Two texts with a line break in between are read one after the other.  The tokens of the first
one come without their end mark, and those of the second one, or the fault in it, stand as many
bytes further on as the first text and the line break take. -/
theorem tokenize_append_line (a b file : String) (tokens : List Token)
    (hsize : (a ++ "\n" ++ b).utf8ByteSize < 2 ^ 32) (h : tokenize a file = .ok tokens) :
    (∀ more, tokenize b file = .ok more →
      ∃ more', tokenize (a ++ "\n" ++ b) file = .ok (Token.proper tokens ++ more') ∧
        List.Forall₂ (Token.ShiftedBy (a.utf8ByteSize + 1)) more more') ∧
    ∀ report, tokenize b file = .error report →
      ∃ report', tokenize (a ++ "\n" ++ b) file = .error report' ∧
        report'.fault = report.fault ∧
        report.position.ShiftedBy (a.utf8ByteSize + 1) report'.position := by
  have hwhole : tokenize (a ++ "\n" ++ b) file =
      (tokensFrom file (0 + (a.utf8ByteSize + 1)) b.toList).map (Token.proper tokens ++ ·) := by
    have hline := tokensFrom_append_line file h b.toList
    rw [Text.byteSize_toList] at hline
    rw [← hline, tokenize, String.toList_append, String.toList_append, List.append_assoc]
    rfl
  have hshifted : Shifted (a.utf8ByteSize + 1) (tokenize b file)
      (tokensFrom file (0 + (a.utf8ByteSize + 1)) b.toList) := by
    refine shifted_tokensFrom file ?_
    have hbreak : "\n".utf8ByteSize = 1 := by decide
    rw [String.utf8ByteSize_append, String.utf8ByteSize_append, hbreak] at hsize
    rw [Text.byteSize_toList]
    change _ < 2 ^ 32
    omega
  rw [hwhole]
  generalize tokensFrom file (0 + (a.utf8ByteSize + 1)) b.toList = result at hshifted
  constructor
  · intro more hmore
    rw [hmore] at hshifted
    cases hshifted with
    | ok hmore' => exact ⟨_, rfl, hmore'⟩
  · intro report hreport
    rw [hreport] at hshifted
    cases hshifted with
    | error hposition => exact ⟨_, rfl, rfl, hposition⟩

/-- A comment behind a character of two bytes ends at the line break.  The string behind it, or the
quote of a string that is never closed, stands seven bytes further on than in its own line. -/
theorem tokenize_append_line_comment :
    (∃ more', tokenize ("'é'//" ++ "\n" ++ " \"b\"") "f" =
        .ok ([⟨.char, "'é'", Span.between "f" 0 4⟩] ++ more') ∧
      more'.map Token.value = ["\"b\"", "EOF"] ∧ more'.map Token.start = [8, 11]) ∧
    ∃ report', tokenize ("'é'//" ++ "\n" ++ " \"b") "f" = .error report' ∧
      report'.fault = .unrecognisedToken "\"" ∧ report'.position.offset.toNat = 8 := by
  have hfirst : tokenize "'é'//" "f" = .ok
      [⟨.char, "'é'", Span.between "f" 0 4⟩, Token.endMark (Span.between "f" 6 6)] := by
    cbv
  have hsecond : tokenize " \"b\"" "f" = .ok
      [⟨.str, "\"b\"", Span.between "f" 1 4⟩, Token.endMark (Span.between "f" 4 4)] := by
    cbv
  have hopen : tokenize " \"b" "f" = .error ⟨.unrecognisedToken "\"", ⟨1, "f"⟩⟩ := by
    cbv
  obtain ⟨hfound, -⟩ := tokenize_append_line _ " \"b\"" _ _ (by decide) hfirst
  obtain ⟨-, hfault⟩ := tokenize_append_line _ " \"b" _ _ (by decide) hfirst
  obtain ⟨more', hwhole, hshifted⟩ := hfound _ hsecond
  obtain ⟨report', hreport, hsame, hposition⟩ := hfault _ hopen
  refine ⟨⟨more', hwhole, ?_⟩, report', hreport, hsame, hposition.2⟩
  obtain ⟨t, rest, ht, hrest, rfl⟩ := List.forall₂_cons_left_iff.1 hshifted
  obtain ⟨u, rest, hu, hnil, rfl⟩ := List.forall₂_cons_left_iff.1 hrest
  obtain rfl := List.forall₂_nil_left_iff.1 hnil
  have hvalues : [t, u].map Token.value = ["\"b\"", "EOF"] := by
    rw [List.map_cons, List.map_cons, ht.value, hu.value]
    rfl
  refine ⟨hvalues, ?_⟩
  have hstart : t.start = 1 + 7 := ht.start.2
  have hend : u.start = 4 + 7 := hu.start.2
  rw [List.map_cons, List.map_cons, hstart, hend]
  rfl

/-! ### Tokens with spaces in between -/

/-- The tokens of a source but for its end mark, written with single spaces in between. -/
def Token.spaced (tokens : List Token) : String :=
  " ".intercalate ((Token.proper tokens).map Token.value)

/-- A text is cut off where the source ends. -/
theorem TokenKind.cutBefore_nil (kind : TokenKind) (text : List Char) : kind.CutBefore text [] :=
  ⟨⟨fun _ => nofun, fun _ => ⟨nofun, fun _ => nofun⟩⟩, fun _ => nofun⟩

/-- A text is cut off in front of a space. -/
theorem TokenKind.cutBefore_space (kind : TokenKind) (text rest : List Char) :
    kind.CutBefore text (' ' :: rest) := by
  refine ⟨⟨fun _ => ?_, fun _ => ⟨?_, fun _ => nofun⟩⟩, fun _ => by simp⟩
  · rintro c ⟨⟩
    decide
  · rintro c ⟨⟩
    decide

/-- A well-spelled text that is cut off gives a token of its own. -/
theorem tokensFrom_append (file : String) (offset : Nat) {kind : TokenKind} {text rest : List Char}
    (hspelled : kind.SpelledBy text) (hcut : kind.CutBefore text rest) :
    tokensFrom file offset (text ++ rest) =
      (tokensFrom file (offset + byteSize text) rest).map
        (⟨kind, String.ofList text, Span.between file offset (offset + byteSize text)⟩ :: ·) :=
  tokensFrom_of_first? file offset (Lexeme.first?_append hspelled hcut)

/-- Well-spelled tokens are found again where they are written with spaces in between. -/
theorem exists_tokensFrom_intercalate (file : String) (offset : Nat) {row : List Token}
    (h : ∀ t ∈ row, t.kind.SpelledBy t.value.toList) :
    ∃ tokens, tokensFrom file offset ([' '].intercalate (row.map fun t => t.value.toList)) =
        .ok tokens ∧
      tokens.map Token.kind = row.map Token.kind ++ [.eof] ∧
      tokens.map Token.value = row.map Token.value ++ ["EOF"] := by
  induction row generalizing offset with
  | nil => exact ⟨_, tokensFrom_nil file offset, rfl, rfl⟩
  | cons t row ih =>
    obtain ⟨ht, hrow⟩ := List.forall_mem_cons.1 h
    -- What stands behind the first token gives the others, whether there are any or not.
    obtain ⟨rest, htext, hcut, tokens, htokens, hkinds, hvalues⟩ : ∃ rest,
        [' '].intercalate ((t :: row).map fun t => t.value.toList) = t.value.toList ++ rest ∧
        t.kind.CutBefore t.value.toList rest ∧
        ∃ tokens, tokensFrom file (offset + byteSize t.value.toList) rest = .ok tokens ∧
          tokens.map Token.kind = row.map Token.kind ++ [.eof] ∧
          tokens.map Token.value = row.map Token.value ++ ["EOF"] := by
      cases row with
      | nil =>
        exact ⟨[], by simp [List.intercalate], t.kind.cutBefore_nil _, _, tokensFrom_nil file _,
          rfl, rfl⟩
      | cons u row =>
        refine ⟨' ' :: [' '].intercalate ((u :: row).map fun t => t.value.toList),
          by simp [List.intercalate], t.kind.cutBefore_space _ _, ?_⟩
        rw [tokensFrom_blank file _ (by decide)]
        exact ih _ hrow
    rw [htext, tokensFrom_append file offset ht hcut, htokens]
    refine ⟨_, rfl, ?_, ?_⟩
    · rw [List.map_cons, List.map_cons, hkinds, List.cons_append]
    · rw [List.map_cons, List.map_cons, hvalues, List.cons_append, String.ofList_toList]

/-- The tokens of a source are found again, with the same kinds and the same texts, where they are
written with single spaces in between. -/
theorem tokenize_spaced (source file file' : String) (tokens : List Token)
    (h : tokenize source file = .ok tokens) :
    ∃ tokens', tokenize (Token.spaced tokens) file' = .ok tokens' ∧
      tokens'.map Token.kind = tokens.map Token.kind ∧
      tokens'.map Token.value = tokens.map Token.value := by
  have htiles : Tiles file [] source.toList tokens := tiles_of_tokensFrom h
  obtain ⟨read, hread, hlast⟩ := htiles.exists_last
  have hproper : Token.proper tokens = read := by
    have hself : Token.proper read = read := List.filter_eq_self.2 (by simpa using hread)
    rw [hlast, Token.proper_append, hself]
    exact List.append_nil read
  have hspelled : ∀ t ∈ read, t.kind.SpelledBy t.value.toList := by
    intro t ht
    have hmem : t ∈ tokens := hlast ▸ List.mem_append_left _ ht
    exact (htiles.spelledBy t hmem).resolve_left (hread t ht)
  obtain ⟨tokens', htokens', hkinds, hvalues⟩ := exists_tokensFrom_intercalate file' 0 hspelled
  refine ⟨tokens', ?_, ?_, ?_⟩
  · rw [tokenize, Token.spaced, hproper, String.toList_intercalate, List.map_map]
    exact htokens'
  · rw [hkinds, hlast, List.map_append]
    rfl
  · rw [hvalues, hlast, List.map_append]
    rfl

/-- A comment, a line break inside a string and a division are read, and the spaces that are written
between the tokens keep the two slashes apart. -/
theorem tokenize_spaced_slashes :
    ∃ tokens tokens', tokenize "a/ /b1//c\n\"\n\"2.5" "f" = .ok tokens ∧
      Token.spaced tokens = "a / / b1 \"\n\" 2.5" ∧
      tokenize (Token.spaced tokens) "g" = .ok tokens' ∧
      tokens'.map Token.kind = tokens.map Token.kind ∧
      tokens'.map Token.value = tokens.map Token.value := by
  have htokens : tokenize "a/ /b1//c\n\"\n\"2.5" "f" = .ok
      [⟨.identifier, "a", Span.between "f" 0 1⟩, ⟨.binaryOperator, "/", Span.between "f" 1 2⟩,
        ⟨.binaryOperator, "/", Span.between "f" 3 4⟩, ⟨.identifier, "b1", Span.between "f" 4 6⟩,
        ⟨.str, "\"\n\"", Span.between "f" 10 13⟩, ⟨.number, "2.5", Span.between "f" 13 16⟩,
        Token.endMark (Span.between "f" 16 16)] := by
    cbv
  obtain ⟨tokens', htokens', hsame⟩ := tokenize_spaced _ _ "g" _ htokens
  exact ⟨_, tokens', htokens, by cbv, htokens', hsame⟩

end Cascade
