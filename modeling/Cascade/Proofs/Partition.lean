import Mathlib
import Cascade.Proofs.Spelling

/-!
# Tokens partition their source

The tokens of a source and the gaps between them make up the source.  Every token stands at the
offsets of its span with the text that it carries, and goes on as far as its kind allows; all that
lies between two tokens, before the first one or behind the last one is blank or a comment.

## Main definitions

* `Tiles` : some tokens and the gaps in front of them make up a text behind a given front.
* `StandsAt` : a text stands in a source between two offsets.
* `Partitions` : tokens and gaps make up a source.

## Main results

* `tiles_of_tokensFrom` : the tokens of a text tile it.
* `tokenize_partitions` : the tokens of a source partition it.
-/

namespace Cascade

open Text (byteSize)

/-! ### The loop of the lexer -/

/-- Whether some tokens tile a text that stands behind `front` in its source: each one has a gap in
front of it, and the end mark stands behind the last gap. -/
inductive Tiles (file : String) : List Char → List Char → List Token → Prop
  | last {front gap : List Char} (hgap : Gap gap []) :
      Tiles file front gap
        [Token.endMark (Span.between file (byteSize (front ++ gap)) (byteSize (front ++ gap)))]
  | token {front gap text rest : List Char} {kind : TokenKind} {tokens : List Token}
      (hgap : Gap gap (text ++ rest)) (hspelled : kind.SpelledBy text)
      (hends : kind.EndsBefore text rest) (hrest : Tiles file (front ++ gap ++ text) rest tokens) :
      Tiles file front (gap ++ text ++ rest)
        (⟨kind, String.ofList text,
          Span.between file (byteSize (front ++ gap)) (byteSize (front ++ gap ++ text))⟩ :: tokens)

/-- A lexeme that is skipped makes the first gap longer. -/
theorem Tiles.skip {file : String} {front : List Char} {l : Lexeme} {tokens : List Token}
    (hskipped : l.IsSkipped) (h : Tiles file (front ++ l.text) l.rest tokens) :
    Tiles file front (l.text ++ l.rest) tokens := by
  obtain ⟨-, hlonger⟩ := hskipped
  generalize l.rest = rest at h hlonger
  cases h with
  | last hgap =>
    have hgap' := hlonger rest [] (List.append_nil rest).symm hgap
    rw [List.append_assoc]
    exact .last hgap'
  | @token _ gap text rest kind tokens hgap hspelled hends htokens =>
    have hgap' := hlonger gap (text ++ rest) (List.append_assoc gap text rest) hgap
    have htokens' : Tiles file (front ++ (l.text ++ gap) ++ text) rest tokens := by
      rwa [← List.append_assoc front]
    have htiles := Tiles.token hgap' hspelled hends htokens'
    simpa only [List.append_assoc] using htiles

/-- The tokens of a text tile it. -/
theorem tiles_of_tokensFrom {file : String} {front cs : List Char} {tokens : List Token}
    (h : tokensFrom file (byteSize front) cs = .ok tokens) : Tiles file front cs tokens := by
  induction hlength : cs.length using Nat.strong_induction_on generalizing front cs tokens with
  | _ n ih =>
    cases cs with
    | nil =>
      rw [tokensFrom_nil] at h
      cases h
      have hlast : Tiles file front [] _ := .last (.nil [])
      simpa only [List.append_nil] using hlast
    | cons c cs =>
      cases hfirst : Lexeme.first? (c :: cs) with
      | none =>
        rw [tokensFrom_of_first?_eq_none file _ hfirst] at h
        cases h
      | some l =>
        obtain ⟨-, hcut⟩ := Lexeme.cuts_of_first? hfirst
        rw [tokensFrom_of_first? file _ hfirst, ← Text.byteSize_append] at h
        cases hmore : tokensFrom file (byteSize (front ++ l.text)) l.rest with
        | error report => rw [hmore] at h; cases h
        | ok more =>
          rw [hmore] at h
          cases h
          have hrest := ih _ (hlength ▸ Lexeme.length_rest_lt hfirst) hmore rfl
          rw [← hcut]
          rcases Lexeme.first?_cases hfirst with ⟨kind, hkind, hspelled, hends⟩ | hskipped
          · have hrest' : Tiles file (front ++ [] ++ l.text) l.rest more := by
              rwa [List.append_nil]
            have htiles := Tiles.token (.nil (l.text ++ l.rest)) hspelled hends hrest'
            simpa [Lexeme.token?, hkind] using htiles
          · simpa [Lexeme.token?, hskipped.1] using hrest.skip hskipped

/-! ### Offsets -/

namespace Token

/-- The offset at which a token begins. -/
def start (t : Token) : Nat :=
  t.span.start.offset.toNat

/-- The first offset behind a token. -/
def stop (t : Token) : Nat :=
  t.span.stop.offset.toNat

/-- The first offset behind some tokens, or the given one if there are none. -/
def stopOf (offset : Nat) : List Token → Nat
  | [] => offset
  | t :: tokens => stopOf t.stop tokens

theorem start_between {kind : TokenKind} {value file : String} {a b : Nat}
    (h : a < UInt32.size) : start ⟨kind, value, Span.between file a b⟩ = a :=
  Position.toNat_ofOffset file h

theorem stop_between {kind : TokenKind} {value file : String} {a b : Nat}
    (h : b < UInt32.size) : stop ⟨kind, value, Span.between file a b⟩ = b :=
  Position.toNat_ofOffset file h

end Token

/-- Whether a text stands in a source between two offsets in bytes, with the given rest behind
it. -/
def StandsAt (source : String) (start stop : Nat) (text rest : String) : Prop :=
  ∃ front, source = front ++ text ++ rest ∧ front.utf8ByteSize = start ∧
    (front ++ text).utf8ByteSize = stop

theorem standsAt_ofList (front text rest : List Char) :
    StandsAt (String.ofList (front ++ (text ++ rest))) (byteSize front) (byteSize (front ++ text))
      (String.ofList text) (String.ofList rest) := by
  refine ⟨String.ofList front, ?_, Text.utf8ByteSize_ofList front, ?_⟩
  · rw [← String.ofList_append, ← String.ofList_append, List.append_assoc]
  · rw [← String.ofList_append, Text.utf8ByteSize_ofList]

namespace Tiles

variable {file : String} {front cs : List Char} {tokens : List Token}

private theorem source_eq (front gap text rest : List Char) :
    front ++ (gap ++ text ++ rest) = front ++ gap ++ text ++ rest := by
  simp only [List.append_assoc]

/-- The offsets of a token are offsets in the source. -/
private theorem offsets_lt {front gap text rest : List Char} {n : Nat}
    (h : byteSize (front ++ gap ++ text ++ rest) < n) :
    byteSize (front ++ gap) < n ∧ byteSize (front ++ gap ++ text) < n := by
  simp only [Text.byteSize_append] at h ⊢
  omega

/-- Every token carries the name of the source. -/
theorem file_eq (h : Tiles file front cs tokens) :
    ∀ t ∈ tokens, t.span.start.file = file ∧ t.span.stop.file = file := by
  induction h with
  | last hgap =>
    intro t ht
    obtain rfl := List.mem_singleton.1 ht
    exact ⟨rfl, rfl⟩
  | token hgap hspelled hends hrest ih =>
    intro t ht
    rcases List.mem_cons.1 ht with rfl | ht
    · exact ⟨rfl, rfl⟩
    · exact ih t ht

/-- Every token but the last one is well spelled. -/
theorem spelledBy (h : Tiles file front cs tokens) :
    ∀ t ∈ tokens, t.kind = .eof ∨ t.kind.SpelledBy t.value.toList := by
  induction h with
  | last hgap =>
    intro t ht
    obtain rfl := List.mem_singleton.1 ht
    exact .inl rfl
  | token hgap hspelled hends hrest ih =>
    intro t ht
    rcases List.mem_cons.1 ht with rfl | ht
    · exact .inr (by rwa [String.toList_ofList])
    · exact ih t ht

/-- The last token is the only end mark, and it stands behind the last byte. -/
theorem exists_last (h : Tiles file front cs tokens) :
    ∃ read, (∀ t ∈ read, t.kind ≠ .eof) ∧ tokens = read ++
      [Token.endMark (Span.between file (byteSize (front ++ cs)) (byteSize (front ++ cs)))] := by
  induction h with
  | last hgap => exact ⟨[], nofun, rfl⟩
  | @token front gap text rest kind tokens hgap hspelled hends hrest ih =>
    obtain ⟨read, hread, rfl⟩ := ih
    refine ⟨_ :: read, fun t ht => ?_, by rw [source_eq]; rfl⟩
    rcases List.mem_cons.1 ht with rfl | ht
    · exact hspelled.proper.2
    · exact hread t ht

/-- No token begins before the text that it belongs to. -/
theorem byteSize_front_le (h : Tiles file front cs tokens)
    (hsize : byteSize (front ++ cs) < UInt32.size) : ∀ t ∈ tokens, byteSize front ≤ t.start := by
  induction h with
  | last hgap =>
    intro t ht
    obtain rfl := List.mem_singleton.1 ht
    rw [Token.endMark, Token.start_between hsize, Text.byteSize_append]
    exact Nat.le_add_right _ _
  | @token front gap text rest kind tokens hgap hspelled hends hrest ih =>
    rw [source_eq] at hsize
    intro t ht
    rcases List.mem_cons.1 ht with rfl | ht
    · rw [Token.start_between (offsets_lt hsize).1, Text.byteSize_append]
      exact Nat.le_add_right _ _
    · have hstart := ih hsize t ht
      simp only [Text.byteSize_append] at hstart
      omega

/-- The tokens are in order and do not overlap. -/
theorem pairwise (h : Tiles file front cs tokens) (hsize : byteSize (front ++ cs) < UInt32.size) :
    tokens.Pairwise fun t u => t.stop ≤ u.start := by
  induction h with
  | last hgap => exact List.pairwise_singleton _ _
  | @token front gap text rest kind tokens hgap hspelled hends hrest ih =>
    rw [source_eq] at hsize
    refine List.pairwise_cons.2 ⟨fun u hu => ?_, ih hsize⟩
    rw [Token.stop_between (offsets_lt hsize).2]
    exact hrest.byteSize_front_le hsize u hu

/-- Every token stands in the source where its span says, and cannot go on there. -/
theorem standsAt (h : Tiles file front cs tokens) (hsize : byteSize (front ++ cs) < UInt32.size) :
    ∀ t ∈ tokens, t.kind ≠ .eof → t.start < t.stop ∧
      ∃ rest, StandsAt (String.ofList (front ++ cs)) t.start t.stop t.value rest ∧
        t.kind.EndsBefore t.value.toList rest.toList := by
  induction h with
  | last hgap =>
    intro t ht heof
    obtain rfl := List.mem_singleton.1 ht
    exact absurd rfl heof
  | @token front gap text rest kind tokens hgap hspelled hends hrest ih =>
    rw [source_eq] at hsize ⊢
    obtain ⟨hstart, hstop⟩ := offsets_lt hsize
    intro t ht heof
    rcases List.mem_cons.1 ht with rfl | ht
    · have htext := Text.byteSize_pos hspelled.proper.1
      rw [Token.start_between hstart, Token.stop_between hstop]
      refine ⟨by rw [Text.byteSize_append (front ++ gap)]; omega, String.ofList rest, ?_, ?_⟩
      · rw [List.append_assoc (front ++ gap)]
        exact standsAt_ofList _ _ _
      · simpa only [String.toList_ofList] using hends
    · exact ih hsize t ht heof

/-- What stands between two tokens, or in front of the first one, is a gap. -/
theorem gap_standsAt (h : Tiles file front cs tokens)
    (hsize : byteSize (front ++ cs) < UInt32.size) :
    ∀ before t after, tokens = before ++ t :: after →
      ∃ gap rest, StandsAt (String.ofList (front ++ cs)) (Token.stopOf (byteSize front) before)
        t.start gap rest ∧ Gap gap.toList rest.toList := by
  induction h with
  | @last front gap hgap =>
    intro before t after htokens
    cases before with
    | nil =>
      obtain ⟨rfl, -⟩ := List.cons.inj htokens
      refine ⟨String.ofList gap, String.ofList [], ?_, by simpa only [String.toList_ofList]⟩
      rw [Token.endMark, Token.start_between hsize, Token.stopOf]
      simpa only [List.append_nil] using standsAt_ofList front gap []
    | cons b before => exact absurd (List.cons.inj htokens).2 (by simp)
  | @token front gap text rest kind tokens hgap hspelled hends hrest ih =>
    rw [source_eq] at hsize ⊢
    obtain ⟨hstart, hstop⟩ := offsets_lt hsize
    intro before t after htokens
    cases before with
    | nil =>
      obtain ⟨rfl, -⟩ := List.cons.inj htokens
      refine ⟨String.ofList gap, String.ofList (text ++ rest), ?_, ?_⟩
      · rw [Token.start_between hstart, Token.stopOf, ← source_eq, List.append_assoc gap]
        exact standsAt_ofList _ _ _
      · simpa only [String.toList_ofList] using hgap
    | cons b before =>
      obtain ⟨rfl, hmore⟩ := List.cons.inj htokens
      rw [Token.stopOf, Token.stop_between hstop]
      exact ih hsize before t after hmore

end Tiles

/-! ### Sources -/

/-- Whether tokens partition a source with the given name. -/
structure Partitions (source file : String) (tokens : List Token) : Prop where
  /-- The last token is the only end mark, and it stands behind the last byte. -/
  endMark : ∃ read last, tokens = read ++ [last] ∧ (∀ t ∈ read, t.kind ≠ .eof) ∧
    last.kind = .eof ∧ last.start = source.utf8ByteSize ∧ last.stop = source.utf8ByteSize
  /-- Every token carries the name of the source at both ends. -/
  named : ∀ t ∈ tokens, t.span.start.file = file ∧ t.span.stop.file = file
  /-- Every other token has at least one byte, stands in the source with its own text, and goes on
  as far as its kind allows. -/
  pieces : ∀ t ∈ tokens, t.kind ≠ .eof → t.start < t.stop ∧
    ∃ rest, StandsAt source t.start t.stop t.value rest ∧
      t.kind.EndsBefore t.value.toList rest.toList
  /-- The tokens are in order and do not overlap. -/
  ordered : tokens.Pairwise fun t u => t.stop ≤ u.start
  /-- Behind the token before it, or behind the start of the source, there is nothing but a gap in
  front of a token. -/
  gaps : ∀ before t after, tokens = before ++ t :: after →
    ∃ gap rest, StandsAt source (Token.stopOf 0 before) t.start gap rest ∧
      Gap gap.toList rest.toList

/-- The tokens of a source whose offsets fit into 32 bits partition it: nothing is lost, and no word
or number is cut short. -/
theorem tokenize_partitions (source file : String) (tokens : List Token)
    (hsize : source.utf8ByteSize < 2 ^ 32) (h : tokenize source file = .ok tokens) :
    Partitions source file tokens := by
  have htiles : Tiles file [] source.toList tokens := tiles_of_tokensFrom h
  have hbytes : byteSize ([] ++ source.toList) = source.utf8ByteSize := by
    rw [List.nil_append, ← Text.utf8ByteSize_ofList, String.ofList_toList]
  have hsize' : byteSize ([] ++ source.toList) < UInt32.size := hbytes ▸ hsize
  have hsource : String.ofList ([] ++ source.toList) = source := String.ofList_toList
  refine ⟨?_, htiles.file_eq, hsource ▸ htiles.standsAt hsize', htiles.pairwise hsize',
    hsource ▸ htiles.gap_standsAt hsize'⟩
  obtain ⟨read, hread, hlast⟩ := htiles.exists_last
  refine ⟨read, _, hlast, hread, rfl, ?_, ?_⟩
  · exact (Token.start_between hsize').trans hbytes
  · exact (Token.stop_between hsize').trans hbytes

/-- A word, a comment with a character of two bytes in it, and a number with a fraction. -/
theorem tokenize_partitions_comment :
    ∃ tokens, tokenize "x1 // é\n2.5" "f" = .ok tokens ∧ tokens.map Token.start = [0, 9, 12] ∧
      Partitions "x1 // é\n2.5" "f" tokens := by
  have htokens : tokenize "x1 // é\n2.5" "f" = .ok
      [⟨.identifier, "x1", Span.between "f" 0 2⟩, ⟨.number, "2.5", Span.between "f" 9 12⟩,
        Token.endMark (Span.between "f" 12 12)] := by
    cbv
  exact ⟨_, htokens, by decide, tokenize_partitions _ _ _ (by decide) htokens⟩

end Cascade
