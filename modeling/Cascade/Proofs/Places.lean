import Mathlib.Tactic.Common
import Cascade.Parser.Cursor

/-!
# Places in a row of tokens

A cursor is a place in a row of tokens.  Two places are related by the tokens between them, and a
place in a given row is known by its index.

## Main definitions

* `Cursor.Spans` : some tokens stand between two places.
* `Cursor.Reaches` : a place can be reached from another one by moving on.
* `Cursor.IsAt` : a cursor stands at an index of a row of tokens.

## Main results

* `Cursor.exists_of_spans_append` : there is a place between two rows of tokens.
* `Cursor.Reaches.eq_of_eof` : no place is reached from an end mark but the end mark itself.
* `Cursor.IsAt.unique` : a cursor does not stand at two indices of the same row.
-/

namespace Cascade

namespace Cursor

/-! ### Tokens between two places -/

/-- Whether some tokens stand between two places. -/
def Spans (c : Cursor) (tokens : List Token) (c' : Cursor) : Prop :=
  c.remaining = tokens ++ c'.remaining

variable {c c' d : Cursor} {tokens tokens' : List Token} {token : Token}

theorem spans_nil : c.Spans [] c' ↔ c' = c :=
  ⟨fun h => (ext_remaining h).symm, fun h => h ▸ rfl⟩

theorem spans_cons (hkind : token.kind ≠ .eof) :
    c.Spans (token :: tokens) c' ↔ c.here = token ∧ c.advance.Spans tokens c' := by
  constructor
  · intro h
    obtain ⟨hhere, hahead⟩ := List.cons.inj h
    refine ⟨hhere, ?_⟩
    rw [Spans, remaining_advance (hhere ▸ hkind), hahead]
    rfl
  · rintro ⟨rfl, h⟩
    rw [Spans, remaining_advance hkind] at h
    exact congrArg (c.here :: ·) h

theorem spans_singleton (hkind : token.kind ≠ .eof) :
    c.Spans [token] c' ↔ c.here = token ∧ c' = c.advance := by
  rw [spans_cons hkind, spans_nil]

/-- There is a place in front of every token that lies ahead. -/
theorem exists_remaining {next : Token} {rest : List Token}
    (h : c.remaining = tokens ++ next :: rest) : ∃ d : Cursor, d.remaining = next :: rest := by
  refine ⟨⟨next, rest, ?_⟩, rfl⟩
  have hlast := c.closed
  change c.remaining.getLast?.map Token.kind = some .eof at hlast
  rw [h] at hlast
  simpa [List.getLast?_cons] using hlast

/-- There is a place between two rows of tokens. -/
theorem exists_of_spans_append (h : c.Spans (tokens ++ tokens') c') :
    ∃ d, c.Spans tokens d ∧ d.Spans tokens' c' := by
  rw [Spans, List.append_assoc] at h
  obtain ⟨next, rest, hrest⟩ : ∃ next rest, tokens' ++ c'.remaining = next :: rest :=
    List.exists_cons_of_ne_nil (List.append_ne_nil_of_right_ne_nil _ (List.cons_ne_nil _ _))
  obtain ⟨d, hd⟩ := exists_remaining (hrest ▸ h)
  rw [← hrest] at hd
  exact ⟨d, by rw [Spans, hd, h], hd⟩

theorem Spans.trans (h : c.Spans tokens d) (h' : d.Spans tokens' c') :
    c.Spans (tokens ++ tokens') c' := by
  rw [Spans, h, h', List.append_assoc]

/-- The tokens between two places are known by the places. -/
theorem Spans.tokens_eq (h : c.Spans tokens c') (h' : c.Spans tokens' c') : tokens = tokens' :=
  List.append_cancel_right (h.symm.trans h')

/-! ### Places that are reached -/

/-- Whether a place can be reached from another one by moving on: there is no end mark in
between. -/
def Reaches (c c' : Cursor) : Prop :=
  ∃ read, c.Spans read c' ∧ ∀ t ∈ read, t.kind ≠ .eof

theorem Reaches.refl (c : Cursor) : c.Reaches c :=
  ⟨[], spans_nil.2 rfl, nofun⟩

theorem Reaches.trans (h : c.Reaches d) (h' : d.Reaches c') : c.Reaches c' := by
  obtain ⟨read, hread, hinside⟩ := h
  obtain ⟨read', hread', hinside'⟩ := h'
  exact ⟨read ++ read', hread.trans hread', List.forall_mem_append.2 ⟨hinside, hinside'⟩⟩

theorem reaches_advance (c : Cursor) : c.Reaches c.advance := by
  by_cases h : c.here.kind = .eof
  · rw [advance_of_eof h]
    exact .refl c
  · exact ⟨[c.here], (spans_singleton h).2 ⟨rfl, rfl⟩, List.forall_mem_singleton.2 h⟩

/-- No place is reached from an end mark but the end mark itself. -/
theorem Reaches.eq_of_eof (h : c.Reaches c') (heof : c.here.kind = .eof) : c' = c := by
  obtain ⟨read, hread, hinside⟩ := h
  cases read with
  | nil => exact spans_nil.1 hread
  | cons t read =>
    obtain ⟨rfl, -⟩ := List.cons.inj hread
    exact absurd heof (hinside _ List.mem_cons_self)

/-- Only one end mark is reached. -/
theorem Reaches.unique (h : c.Reaches c') (h' : c.Reaches d) (heof : c'.here.kind = .eof)
    (heof' : d.here.kind = .eof) : c' = d := by
  obtain ⟨read, hread, hinside⟩ := h
  obtain ⟨read', hread', hinside'⟩ := h'
  rcases List.append_eq_append_iff.1 (hread.symm.trans hread') with
    ⟨between, rfl, hbetween⟩ | ⟨between, rfl, hbetween⟩
  · have hreaches : c'.Reaches d := ⟨between, hbetween, (List.forall_mem_append.1 hinside').2⟩
    exact (hreaches.eq_of_eof heof).symm
  · have hreaches : d.Reaches c' := ⟨between, hbetween, (List.forall_mem_append.1 hinside).2⟩
    exact hreaches.eq_of_eof heof'

/-! ### Rows that are closed -/

/-- The tokens themselves are not changed when an end mark is added. -/
theorem prefix_close (tokens : List Token) (file : String) : tokens <+: close tokens file := by
  unfold close
  split
  · exact List.prefix_refl _
  · exact List.prefix_append _ _

theorem getElem?_close {tokens : List Token} {j : Nat} (hj : j < tokens.length) (file : String) :
    (close tokens file)[j]? = tokens[j]? := by
  obtain ⟨rest, hrest⟩ := prefix_close tokens file
  rw [← hrest, List.getElem?_append_left hj]

/-- It depends on the last token only whether an end mark is added, and where. -/
theorem close_concat (front : List Token) (last : Token) (file : String) :
    close (front ++ [last]) file = front ++ last ::
      if last.kind = .eof then [] else [Token.endMark ⟨last.span.stop, last.span.stop⟩] := by
  have hlast : (front ++ [last]).getLast? = some last := List.getLast?_concat
  unfold close endPosition
  rw [hlast, Option.map_some]
  by_cases heof : last.kind = .eof
  · rw [if_pos heof, if_pos (congrArg some heof)]
  · rw [if_neg heof, if_neg (fun h => heof (Option.some.inj h)), List.append_assoc]
    rfl

/-- An end mark that is added to a row of tokens is added to the last part of it. -/
theorem close_append (front : List Token) (h : tokens ≠ []) (file file' : String) :
    close (front ++ tokens) file = front ++ close tokens file' := by
  obtain ⟨init, last, rfl⟩ := (List.eq_nil_or_concat tokens).resolve_left h
  rw [List.concat_eq_append, ← List.append_assoc, close_concat, close_concat, List.append_assoc]

/-- Behind tokens without an end mark there is one. -/
theorem exists_spans_ofTokens (h : ∀ t ∈ tokens, t.kind ≠ .eof) (file : String) :
    ∃ e, (ofTokens tokens file).Spans tokens e ∧ e.here.kind = .eof := by
  obtain ⟨mark, hmark, heof⟩ :
      ∃ mark, close tokens file = tokens ++ [mark] ∧ mark.kind = .eof := by
    rcases List.eq_nil_or_concat tokens with rfl | ⟨init, last, rfl⟩
    · exact ⟨_, rfl, rfl⟩
    · rw [List.concat_eq_append] at h ⊢
      rw [close_concat, if_neg (h last (by simp))]
      exact ⟨_, List.append_cons _ _ _, rfl⟩
  rw [← remaining_ofTokens] at hmark
  obtain ⟨e, he⟩ := exists_remaining hmark
  refine ⟨e, by rw [Spans, hmark, he], ?_⟩
  obtain ⟨rfl, -⟩ := List.cons.inj he
  exact heof

/-! ### Indices in a row of tokens -/

/-- Whether a cursor stands at an index of a row of tokens. -/
def IsAt (c : Cursor) (row : List Token) (i : Nat) : Prop :=
  c.remaining = row.drop i

variable {row : List Token} {i j : Nat}

theorem isAt_ofTokens (tokens : List Token) (file : String) :
    (ofTokens tokens file).IsAt (close tokens file) 0 :=
  remaining_ofTokens tokens file

/-- The current token is the one at the index. -/
theorem IsAt.getElem? (h : c.IsAt row i) : row[i]? = some c.here := by
  rw [← List.head?_drop, ← h]
  rfl

theorem IsAt.lt_length (h : c.IsAt row i) : i < row.length := by
  obtain ⟨hi, -⟩ := List.getElem?_eq_some_iff.1 h.getElem?
  exact hi

/-- A cursor does not stand at two indices of the same row. -/
theorem IsAt.unique (h : c.IsAt row i) (h' : c.IsAt row j) : i = j := by
  have hlength := congrArg List.length (h.symm.trans h')
  have hi := h.lt_length
  have hj := h'.lt_length
  simp only [List.length_drop] at hlength
  omega

/-- The tokens between two places are counted by the index. -/
theorem IsAt.spans (h : c.IsAt row i) (hspans : c.Spans tokens c') :
    c'.IsAt row (i + tokens.length) := by
  rw [IsAt, ← List.drop_drop, ← h, hspans, List.drop_left]

/-- A place that is reached has an index further on, and there is no end mark in between. -/
theorem IsAt.exists_of_reaches (h : c.IsAt row i) (hreaches : c.Reaches c') :
    ∃ k, i ≤ k ∧ c'.IsAt row k ∧
      ∀ j t, i ≤ j → j < k → row[j]? = some t → t.kind ≠ .eof := by
  obtain ⟨read, hread, hinside⟩ := hreaches
  refine ⟨i + read.length, Nat.le_add_right _ _, h.spans hread, fun j t hij hjk ht => ?_⟩
  have hrow : row[j]? = (read ++ c'.remaining)[j - i]? := by
    rw [← hread, h, List.getElem?_drop, Nat.add_sub_cancel' hij]
  rw [hrow, List.getElem?_append_left (by omega)] at ht
  exact hinside t (List.mem_of_getElem? ht)

/-- Moving on from a token that is no end mark leads to the next index. -/
theorem IsAt.advance (h : c.IsAt row i) (heof : c.here.kind ≠ .eof) :
    c.advance.IsAt row (i + 1) :=
  h.spans ((spans_singleton heof).2 ⟨rfl, rfl⟩)

end Cursor

end Cascade
