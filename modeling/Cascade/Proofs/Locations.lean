import Mathlib.Tactic.Common
import Cascade.Proofs.Origins
import Cascade.Proofs.Partition
import Cascade.Proofs.Places

/-!
# Where faults are located

The kind of a fault tells at which token it is located.  A value that is refused is located at its
first token, which stands behind an assignment sign; an unknown type is located at its own token;
and every other fault is located at the token where the cursor has stopped.

## Main definitions

* `Report.LocatedIn` : a report is located at the token that its fault is to be located at.

## Main results

* `Origin.locatedIn` : what is wrong at a state is located as its kind demands.
* `Dialect.parse_located` : so is every fault of a parse, and in a source the place is that of a
  token.
-/

namespace Cascade

/-- Tokens that are passed are counted by the index. -/
theorem State.Passes.exists_isAt {s s' : State} {k i : Nat} {row : List Token}
    (h : s.Passes k s') (hs : s.cursor.IsAt row i) : ∃ j, i + k ≤ j ∧ s'.cursor.IsAt row j := by
  obtain ⟨read, hread, hk⟩ := h
  exact ⟨i + read.length, by omega, hs.spans hread⟩

/-! ### The place of a fault -/

/-- Whether a report is located in a row of tokens as its fault demands, where `reached` is the
index at which the cursor has stopped. -/
def Report.LocatedIn (report : Report) (row : List Token) (reached : Nat) : Prop :=
  match report.fault with
  -- At the first token of a value, which is the one behind an assignment sign.
  | .outOfRange _ _ _ _ | .kindMismatch _ _ | .typeMismatch _ _ | .variableNotDeclared _ =>
    ∃ k sign first, k + 1 ≤ reached ∧ row[k]? = some sign ∧ sign.kind = .assign ∧
      row[k + 1]? = some first ∧ report.position = first.span.start
  -- At the name of the type, which has been read.
  | .unknownType name =>
    ∃ k token, k < reached ∧ row[k]? = some token ∧ token.kind = .typeName ∧
      token.value = name ∧ report.position = token.span.start
  | _ => ∃ token, row[reached]? = some token ∧ report.position = token.span.start

variable {row : List Token} {reached : Nat} {fault : Fault}

/-- Whatever its fault is, a located report points at a token of the row. -/
theorem Report.LocatedIn.exists_mem {report : Report} (h : report.LocatedIn row reached) :
    ∃ token ∈ row, report.position = token.span.start := by
  unfold LocatedIn at h
  split at h
  case h_5 =>
    obtain ⟨k, token, -, htoken, -, -, hposition⟩ := h
    exact ⟨token, List.mem_of_getElem? htoken, hposition⟩
  case h_6 =>
    obtain ⟨token, htoken, hposition⟩ := h
    exact ⟨token, List.mem_of_getElem? htoken, hposition⟩
  all_goals
    obtain ⟨k, sign, first, -, -, -, hfirst, hposition⟩ := h
    exact ⟨first, List.mem_of_getElem? hfirst, hposition⟩

/-- A fault that is neither due to a check nor to an unknown type is located where the cursor has
stopped. -/
theorem Report.locatedIn_reached {c : Cursor} (hc : c.IsAt row reached)
    (hstage : fault.stage ≠ .checking) (htype : ∀ name, fault ≠ .unknownType name) :
    Report.LocatedIn ⟨fault, c.here.span.start⟩ row reached := by
  cases fault with
  | unknownType name => exact absurd rfl (htype name)
  | outOfRange _ _ _ _ | kindMismatch _ _ | typeMismatch _ _ | variableNotDeclared _ =>
    exact absurd rfl hstage
  | _ => exact ⟨c.here, hc.getElem?, rfl⟩

/-- A fault that is due to a check is located at the first token of the value. -/
theorem Report.locatedIn_value {c : Cursor} {i : Nat} (hc : c.IsAt row i)
    (hkind : c.here.kind = .assign) (hreached : i + 1 ≤ reached)
    (hstage : fault.stage = .checking) :
    Report.LocatedIn ⟨fault, c.advance.here.span.start⟩ row reached := by
  have hfirst := hc.advance (by rw [hkind]; decide)
  cases fault with
  | outOfRange _ _ _ _ | kindMismatch _ _ | typeMismatch _ _ | variableNotDeclared _ =>
    exact ⟨i, c.here, c.advance.here, hreached, hc.getElem?, hkind, hfirst.getElem?, rfl⟩
  | _ => cases hstage

theorem readNumber_ne_unknownType {token : Token} {name : String} :
    readNumber token ≠ .error (.unknownType name) := by
  intro h
  unfold readNumber at h
  split at h <;> cases h

theorem readQuoted_ne_unknownType {quote : Char} {value name : String} :
    readQuoted quote value ≠ .error (.unknownType name) := by
  intro h
  unfold readQuoted at h
  split at h
  · cases h
  · rename_i body hbody
    cases hdecode : Text.Escape.decode body with
    | error mistake => rw [hdecode] at h; cases h
    | ok text => rw [hdecode] at h; cases h

theorem readStr_ne_unknownType {token : Token} {name : String} :
    readStr token ≠ .error (.unknownType name) := by
  intro h
  unfold readStr at h
  cases hquoted : readQuoted '"' token.value with
  | error fault =>
    rw [hquoted] at h
    cases h
    exact readQuoted_ne_unknownType hquoted
  | ok text => rw [hquoted] at h; cases h

theorem readChar_ne_unknownType {token : Token} {name : String} :
    readChar token ≠ .error (.unknownType name) := by
  intro h
  unfold readChar at h
  cases hquoted : readQuoted '\'' token.value with
  | error fault =>
    rw [hquoted] at h
    cases h
    exact readQuoted_ne_unknownType hquoted
  | ok text =>
    rw [hquoted] at h
    rcases text with _ | ⟨c, _ | ⟨c', rest⟩⟩ <;> cases h

/-- An unknown type is reported with its name. -/
theorem ValueType.eq_unknownType_of_ofName {name : String} (h : ofName name = .error fault) :
    fault = .unknownType name := by
  unfold ofName at h
  split at h <;> cases h
  rfl

/-- What is wrong at a state is located as its kind demands. -/
theorem Origin.locatedIn {s t : State} {report : Report} (h : Origin s report t) {i : Nat}
    (hs : s.cursor.IsAt row i) : ∃ j, t.cursor.IsAt row j ∧ report.LocatedIn row j := by
  have hadvance : ∀ kind, s.cursor.here.kind = kind → kind ≠ .eof →
      s.advance.cursor.IsAt row (i + 1) := by
    rintro kind rfl hkind
    exact hs.advance hkind
  cases h with
  | unexpected | missing | negative | parenthesis =>
    exact ⟨i, hs, Report.locatedIn_reached hs (by simp [Fault.stage]) (by simp)⟩
  | number hkind hread =>
    refine ⟨i, hs, Report.locatedIn_reached hs ?_ ?_⟩
    · exact ne_of_eq_of_ne (stage_of_readNumber hread) (by decide)
    · rintro name rfl
      exact readNumber_ne_unknownType hread
  | str hkind hread =>
    have hnext := hadvance _ hkind (by decide)
    refine ⟨i + 1, hnext, Report.locatedIn_reached hnext ?_ ?_⟩
    · exact ne_of_eq_of_ne (stage_of_readStr hread) (by decide)
    · rintro name rfl
      exact readStr_ne_unknownType hread
  | char hkind hread =>
    have hnext := hadvance _ hkind (by decide)
    refine ⟨i + 1, hnext, Report.locatedIn_reached hnext ?_ ?_⟩
    · exact ne_of_eq_of_ne (stage_of_readChar hread) (by decide)
    · rintro name rfl
      exact readChar_ne_unknownType hread
  | type hkind hread =>
    obtain rfl := ValueType.eq_unknownType_of_ofName hread
    exact ⟨i + 1, hadvance _ hkind (by decide), i, s.cursor.here, Nat.lt_succ_self i,
      hs.getElem?, hkind, rfl, rfl⟩
  | operator hkind hvalue =>
    have hnext := hadvance _ hkind (by decide)
    exact ⟨i + 1, hnext, Report.locatedIn_reached hnext (by simp [Fault.stage]) (by simp)⟩
  | folding hstage =>
    refine ⟨i, hs, Report.locatedIn_reached hs (ne_of_eq_of_ne hstage (by decide)) ?_⟩
    rintro name rfl
    cases hstage
  | checking hkind hpasses hstage =>
    -- The cursor has gone on from the first token of the value.
    obtain ⟨j, hj, ht⟩ := hpasses.exists_isAt (hadvance _ hkind (by decide))
    exact ⟨j, ht, Report.locatedIn_value hs hkind hj hstage⟩

/-! ### Tokens of a source -/

namespace Tiles

variable {file : String} {cs : List Char} {tokens : List Token}

/-- The tokens of a source need no other end mark. -/
theorem close_eq (h : Tiles file [] cs tokens) (name : String) :
    Cursor.close tokens name = tokens := by
  obtain ⟨read, -, rfl⟩ := h.exists_last
  rw [Cursor.close, if_pos]
  rw [List.getLast?_concat]
  rfl

/-- No token begins behind the end of its source. -/
theorem start_le (h : Tiles file [] cs tokens) (hsize : Text.byteSize cs < UInt32.size) :
    ∀ t ∈ tokens, t.start ≤ Text.byteSize cs := by
  obtain ⟨read, hread, rfl⟩ := h.exists_last
  have hlast : (Token.endMark (Span.between file (Text.byteSize cs) (Text.byteSize cs))).start =
      Text.byteSize cs := Token.start_between hsize
  intro t ht
  rcases List.mem_append.1 ht with hmem | hmem
  · have hstart := (h.standsAt hsize t ht (hread t hmem)).1
    have hstop := (List.pairwise_append.1 (h.pairwise hsize)).2.2 t hmem _ List.mem_cons_self
    exact Nat.le_trans (Nat.le_of_lt hstart) (Nat.le_trans hstop (Nat.le_of_eq hlast))
  · obtain rfl := List.mem_singleton.1 hmem
    exact Nat.le_of_eq hlast

end Tiles

namespace Dialect

/-- A parse that fails reports a fault, whose kind tells where in the row it is located. -/
theorem locatedIn_of_parse (d : Dialect) {tokens : List Token} {file : String} {failure : Failure}
    (h : (d.parse tokens file).result = .error failure) :
    ∃ report reached, failure = .fault report ∧
      (d.parse tokens file).state.cursor.IsAt (Cursor.close tokens file) reached ∧
      report.LocatedIn (Cursor.close tokens file) reached := by
  obtain ⟨report, rfl, -⟩ :=
    (d.proceeds_program (State.ofTokens tokens file)).ofProgram failure h
  obtain ⟨s, hpasses, horigin⟩ := origin_of_parse h
  obtain ⟨i, -, hs⟩ := hpasses.exists_isAt (Cursor.isAt_ofTokens tokens file)
  obtain ⟨reached, hreached, hreport⟩ := horigin.locatedIn hs
  exact ⟨report, reached, rfl, hreached, hreport⟩

/-- A parse that fails reports a fault, and its kind tells where it is located: a fault that is due
to a check at the first token of the value, an unknown type at its own token, and any other one
where the cursor has stopped.  So in a source whose offsets fit into 32 bits every fault is located
at the start of a token, which is not behind the end of the source. -/
theorem parse_located (d : Dialect) :
    (∀ tokens file failure, (d.parse tokens file).result = .error failure →
      ∃ report reached, failure = .fault report ∧
        (d.parse tokens file).state.cursor.IsAt (Cursor.close tokens file) reached ∧
        report.LocatedIn (Cursor.close tokens file) reached) ∧
    ∀ (source file name : String) tokens failure, source.utf8ByteSize < 2 ^ 32 →
      tokenize source file = .ok tokens → (d.parse tokens name).result = .error failure →
      ∃ report, failure = .fault report ∧ ∃ token ∈ tokens, report.position = token.span.start ∧
        report.position.offset.toNat ≤ source.utf8ByteSize := by
  refine ⟨fun _ _ _ => d.locatedIn_of_parse, ?_⟩
  intro source file name tokens failure hsize htokens hfailure
  obtain ⟨report, reached, rfl, -, hreport⟩ := d.locatedIn_of_parse hfailure
  have htiles : Tiles file [] source.toList tokens := tiles_of_tokensFrom htokens
  have hbytes : Text.byteSize source.toList = source.utf8ByteSize := by
    rw [← Text.utf8ByteSize_ofList, String.ofList_toList]
  obtain ⟨token, hmem, hposition⟩ := hreport.exists_mem
  rw [htiles.close_eq name] at hmem
  have hstart : token.start ≤ source.utf8ByteSize :=
    hbytes ▸ htiles.start_le (hbytes ▸ hsize) token hmem
  exact ⟨report, rfl, token, hmem, hposition, by rw [hposition]; exact hstart⟩

/-- The tokens of a declaration whose value is a variable. -/
def copyTokens : List Token :=
  [⟨.kwLet, "let", Span.between "f" 0 3⟩, ⟨.identifier, "x", Span.between "f" 4 5⟩,
   ⟨.colon, ":", Span.between "f" 5 6⟩, ⟨.typeName, "i8", Span.between "f" 7 9⟩,
   ⟨.assign, "=", Span.between "f" 10 11⟩, ⟨.identifier, "y", Span.between "f" 12 13⟩,
   ⟨.semicolon, ";", Span.between "f" 13 14⟩, Token.endMark (Span.between "f" 14 14)]

set_option maxRecDepth 2000 in
/-- A variable that was not declared is reported at its own token, although the cursor has gone on
to the semicolon. -/
theorem parse_located_copy :
    ∃ report, (full.parse copyTokens "f").result = .error (.fault report) ∧
      report.fault = .variableNotDeclared "y" ∧ report.LocatedIn copyTokens 6 ∧
      ∃ token ∈ copyTokens, report.position = token.span.start ∧
        report.position.offset.toNat ≤ "let x: i8 = y;".utf8ByteSize := by
  have htokens : tokenize "let x: i8 = y;" "f" = .ok copyTokens := by
    cbv
  have hresult : (full.parse copyTokens "f").result =
      .error (.fault ⟨.variableNotDeclared "y", ⟨12, "f"⟩⟩) := by
    cbv
  have hreached : (full.parse copyTokens "f").state.cursor.IsAt copyTokens 6 := by
    cbv
  obtain ⟨hlocated, hsource⟩ := parse_located full
  obtain ⟨_, reached, hfault, hat, hreport⟩ := hlocated _ _ _ hresult
  obtain ⟨_, hfault', htoken⟩ := hsource _ _ _ _ _ (by decide) htokens hresult
  cases hfault
  cases hfault'
  obtain rfl := hat.unique hreached
  exact ⟨_, hresult, rfl, hreport, htoken⟩

end Dialect

end Cascade
