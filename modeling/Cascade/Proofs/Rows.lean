import Mathlib
import Cascade.Proofs.Decimals
import Cascade.Proofs.Nodes
import Cascade.Proofs.Recognition
import Cascade.Tree.Outline

/-!
# The rows of an outline

An outline is a text in rows: a row has a depth, which is the number of tabs in front, and a label.
As long as no literal has a line break in it and all numbers are finite, the text can be taken apart
again: a row ends at its line break, the tabs end where the label begins, and no two labels have the
same text.

## Main definitions

* `Label`, `Row` : what a row of an outline says, and at which depth.
* `Stmt.rows` : the rows of a statement.
* `Row.page` : the text of some rows.
* `Label.Legible` : the text of a label can be told from all others.
* `Stmt.Paged` : the outline of a statement is the text of its rows.
* `Stmt.OneLine` : a literal is finite or without line breaks.

## Main results

* `Label.text_injective` : legible labels with one text are the same.
* `Row.page_injective` : legible rows with one text are the same.
* `Stmt.Built.paged` : the outline of a well-built statement is the text of its rows.
* `Stmt.hasLegibleRows` : the rows of a statement with one-line literals are legible.
-/

namespace Cascade

/-! ### Labels -/

/-- What a row of an outline says. -/
inductive Label where
  | name (value : String)
  | number (value : Float)
  | char (value : Char)
  | str (value : String)
  | type (value : ValueType)
  /-- A word or a sign that does not depend on what a node holds. -/
  | mark (value : String)

namespace Label

/-- The text of a label. -/
def text : Label → String
  | name value => value
  | number value => Decimal.numberText value
  | char value => "'" ++ String.singleton value ++ "'"
  | str value => "\"" ++ value ++ "\""
  | type value => ": " ++ value.name
  | mark value => value

/-- The marks that a statement can begin with. -/
def openings : List String :=
  ["true", "false", "(", "loop \x7b", "while (", "for (", "break;", "continue;", "if (", "let",
    "let mut"]

/-- The marks that stand further down in a statement. -/
def innerMarks : List String :=
  "!" :: binarySymbols ++
    [")", ") \x7b", "\x7d", "\x7d or \x7b", ";", "=", "else \x7b", "else if ("]

/-- Whether the text of a label can be told from all others. -/
def Legible : Label → Prop
  | name value => TokenKind.identifier.SpelledBy value.toList
  | number value => value.isFinite = true
  | char value => value ≠ '\n'
  | str value => '\n' ∉ value.toList
  | type _ => True
  | mark value => value ∈ openings ++ innerMarks

theorem legible_mark {value : String} (h : value ∈ openings ++ innerMarks) : (mark value).Legible :=
  h

end Label

/-- A label at a depth. -/
abbrev Row := Nat × Label

namespace Row

/-- The text of a row, with the tabs in front and the line break behind it. -/
def chars (row : Row) : List Char :=
  List.replicate row.1 '\t' ++ row.2.text.toList ++ ['\n']

/-- The text of some rows. -/
def page (rows : List Row) : List Char :=
  rows.flatMap chars

@[simp] theorem page_nil : page [] = [] := rfl

@[simp] theorem page_cons (row : Row) (rows : List Row) :
    page (row :: rows) =
      List.replicate row.1 '\t' ++ (row.2.text.toList ++ '\n' :: page rows) := by
  simp [page, chars]

@[simp] theorem page_append (rows rows' : List Row) :
    page (rows ++ rows') = page rows ++ page rows' :=
  List.flatMap_append

end Row

/-! ### Rows -/

mutual

/-- The rows of an expression. -/
def Expr.rows (depth : Nat) : Expr → List Row
  | .identifier name => [(depth, .name name)]
  | .number value => [(depth, .number value)]
  | .boolean value => [(depth, .mark (if value then "true" else "false"))]
  | .char value => [(depth, .char value)]
  | .str value => [(depth, .str value)]
  | .unary operator term =>
    (depth, .mark "(") :: (depth + 1, .mark operator) ::
      (term.rows (depth + 1) ++ [(depth, .mark ")")])
  | .binary left operator right =>
    (depth, .mark "(") :: (left.rows (depth + 1) ++
      (depth + 1, .mark operator) :: (right.rows (depth + 1) ++ [(depth, .mark ")")]))
  | .loop body fallback =>
    (depth, .mark "loop \x7b") :: (Stmt.bodyRows (depth + 1) body ++ Stmt.endRows depth fallback)
  | .whileLoop condition body fallback =>
    (depth, .mark "while (") :: (condition.rows (depth + 1) ++ (depth, .mark ") \x7b") ::
      (Stmt.bodyRows (depth + 1) body ++ Stmt.endRows depth fallback))
  | .forLoop init condition update body fallback =>
    (depth, .mark "for (") :: (init.rows (depth + 1) ++ (depth + 1, .mark ";") ::
      (condition.rows (depth + 1) ++ (depth + 1, .mark ";") ::
        (update.rows (depth + 1) ++ (depth, .mark ") \x7b") ::
          (Stmt.bodyRows (depth + 1) body ++ Stmt.endRows depth fallback))))
  | .jump .exit => [(depth, .mark "break;")]
  | .jump .next => [(depth, .mark "continue;")]
  | .conditional branches => Branch.allRows depth branches

/-- The rows of a statement. -/
def Stmt.rows (depth : Nat) : Stmt → List Row
  | .expr value => value.rows depth
  | .assign name value =>
    (depth, .name name) :: (depth, .mark "=") :: value.rows (depth + 1)
  | .declare name type isMutable value =>
    (depth, .mark (if isMutable then "let mut" else "let")) :: (depth + 1, .name name) ::
      (depth + 1, .type type) :: value.rows (depth + 1)

/-- The rows of the statements in a body. -/
def Stmt.bodyRows (depth : Nat) : List Stmt → List Row
  | [] => []
  | stmt :: stmts => stmt.rows depth ++ Stmt.bodyRows depth stmts

/-- The rows at the end of a body, with those of the fallback that a loop may have. -/
def Stmt.endRows (depth : Nat) : Option (List Stmt) → List Row
  | none => [(depth, .mark "\x7d")]
  | some body =>
    (depth, .mark "\x7d or \x7b") :: (Stmt.bodyRows (depth + 1) body ++ [(depth, .mark "\x7d")])

/-- The rows of a branch. -/
def Branch.rows (depth : Nat) : Branch → List Row
  | .mk none _ body =>
    (depth, .mark "else \x7b") :: (Stmt.bodyRows (depth + 1) body ++ [(depth, .mark "\x7d")])
  | .mk (some condition) before body =>
    (depth, .mark (if before.isSome then "else if (" else "if (")) ::
      (condition.rows (depth + 1) ++ (depth, .mark ") \x7b") ::
        (Stmt.bodyRows (depth + 1) body ++ [(depth, .mark "\x7d")]))

/-- The rows of some branches. -/
def Branch.allRows (depth : Nat) : List Branch → List Row
  | [] => []
  | branch :: branches => branch.rows depth ++ Branch.allRows depth branches

end

/-! ### Reading a page -/

/-- A text is cut in one way only where its first run of characters of a class ends. -/
private theorem cut_unique {p : Char → Bool} {run run' rest rest' : List Char}
    (hrun : ∀ c ∈ run, p c = true) (hrest : ∀ c, rest.head? = some c → p c = false)
    (hrun' : ∀ c ∈ run', p c = true) (hrest' : ∀ c, rest'.head? = some c → p c = false)
    (h : run ++ rest = run' ++ rest') : run = run' ∧ rest = rest' := by
  constructor
  · rw [← Lexeme.takeWhile_run hrun hrest, h, Lexeme.takeWhile_run hrun' hrest']
  · rw [← Lexeme.dropWhile_run hrun hrest, h, Lexeme.dropWhile_run hrun' hrest']

/-- The first character of a numeral is a digit or a minus sign, and it has a digit. -/
theorem Decimal.IsNumeral.exists_cons {text : List Char} (h : IsNumeral text) :
    ∃ c cs, text = c :: cs ∧ (c.isDigit = true ∨ c = '-') ∧
      (∀ d ∈ cs, d.isDigit = true ∨ d = '.') ∧ ∃ d ∈ c :: cs, d.isDigit = true := by
  cases h with
  | @positive c cs hc hcs => exact ⟨c, cs, rfl, .inl hc, hcs, c, List.mem_cons_self, hc⟩
  | @negative c cs hc hcs =>
    refine ⟨'-', c :: cs, rfl, .inr rfl, List.forall_mem_cons.2 ⟨.inl hc, hcs⟩, c, ?_, hc⟩
    exact List.mem_cons_of_mem _ List.mem_cons_self

/-- An identifier is spelled as a word that is not reserved. -/
theorem TokenKind.SpelledBy.word_of_identifier {name : String}
    (h : TokenKind.identifier.SpelledBy name.toList) :
    reserved? name = none ∧ (∀ c ∈ name.toList, isWordChar c = true) ∧
      ∃ c, name.toList.head? = some c ∧ isWordStart c = true := by
  have hwords : ∀ entry ∈ reservedWords, entry.2 ≠ .identifier := by decide
  generalize htext : name.toList = text at h
  cases h with
  | @word c cs _ hc hcs hkind =>
    have hfirst : isWordChar c = true := by
      simp only [isWordStart, isWordChar, Char.isAlphanum, Bool.or_eq_true] at hc ⊢
      exact hc.imp .inl id
    refine ⟨?_, List.forall_mem_cons.2 ⟨hfirst, hcs⟩, c, rfl, hc⟩
    rw [← htext, String.ofList_toList] at hkind
    cases hreserved : reserved? name with
    | none => rfl
    | some kind =>
      rw [hreserved] at hkind
      exact absurd hkind.symm (hwords _ (mem_of_reserved? hreserved))
  | sign hsign => cases (not_isWord_of_mem_signs hsign).1

namespace Label

variable {l l' : Label}

/-- A mark is reserved or not a word, and it has no digits. -/
private theorem of_mark {value : String} (h : value ∈ openings ++ innerMarks) :
    ((reserved? value).isSome ∨ ∃ c ∈ value.toList, isWordChar c = false) ∧
      ∀ c ∈ value.toList, c.isDigit = false := by
  have hmarks : ∀ mark ∈ openings ++ innerMarks,
      ((reserved? mark).isSome || mark.toList.any fun c => !isWordChar c) = true ∧
        (mark.toList.all fun c => !c.isDigit) = true := by
    decide +kernel
  simpa using hmarks value h

/-- The text of a legible label is on one line and does not begin with a tab. -/
theorem Legible.text_ne (h : l.Legible) :
    '\n' ∉ l.text.toList ∧ l.text.toList.head? ≠ some '\t' := by
  cases l with
  | name value =>
    obtain ⟨-, hchars, c, hhead, hc⟩ := TokenKind.SpelledBy.word_of_identifier h
    refine ⟨fun hmem => ?_, fun htab => ?_⟩
    · cases hchars _ hmem
    · obtain rfl := Option.some.inj (hhead.symm.trans htab)
      cases hc
  | number value =>
    refine ⟨Decimal.lineBreak_notMem_numberText value, ?_⟩
    obtain ⟨c, cs, htext, hc, -⟩ := (Decimal.isNumeral_numberText h).exists_cons
    rw [text, htext]
    rintro ⟨⟩
    exact absurd hc (by decide)
  | char value => simpa [text] using Ne.symm h
  | str value =>
    have hvalue : '\n' ∉ value.toList := h
    simpa [text] using hvalue
  | type value => cases value <;> decide +kernel
  | mark value =>
    have hmarks : ∀ mark ∈ openings ++ innerMarks,
        '\n' ∉ mark.toList ∧ mark.toList.head? ≠ some '\t' := by
      decide +kernel
    exact hmarks value h

/-- The sort of a label. -/
def sort : Label → Nat
  | mark _ => 0
  | name _ => 1
  | number _ => 2
  | char _ => 3
  | str _ => 4
  | type _ => 5

/-- The sort of the label that has the given text. -/
def sortOf (text : String) : Nat :=
  if text.toList.head? = some '\'' then 3
  else if text.toList.head? = some '"' then 4
  else if text.toList.head? = some ':' then 5
  else if text ∈ openings ++ innerMarks then 0
  else if text.toList.head?.any isWordStart then 1
  else 2

theorem Legible.sortOf_text (h : l.Legible) : sortOf l.text = l.sort := by
  cases l with
  | name value =>
    obtain ⟨hreserved, hchars, c, hhead, hc⟩ := TokenKind.SpelledBy.word_of_identifier h
    have hmark : value ∉ openings ++ innerMarks := by
      intro hmem
      rcases (of_mark hmem).1 with hsome | ⟨d, hd, hnot⟩
      · rw [hreserved] at hsome
        cases hsome
      · rw [hchars d hd] at hnot
        cases hnot
    have hother : c ≠ '\'' ∧ c ≠ '"' ∧ c ≠ ':' := by
      refine ⟨?_, ?_, ?_⟩ <;> rintro rfl <;> cases hc
    simp [text, sortOf, sort, hmark, hhead, hc, hother]
  | number value =>
    obtain ⟨c, cs, htext, hc, -, d, hd, hdigit⟩ := (Decimal.isNumeral_numberText h).exists_cons
    have hmark : Decimal.numberText value ∉ openings ++ innerMarks := by
      intro hmem
      rw [(of_mark hmem).2 d (htext ▸ hd)] at hdigit
      cases hdigit
    have hword : isWordStart c = false := by
      rcases hc with hc | rfl
      · exact Lexeme.isWordStart_of_isDigit hc
      · rfl
    have hother : c ≠ '\'' ∧ c ≠ '"' ∧ c ≠ ':' := by
      refine ⟨?_, ?_, ?_⟩ <;> rintro rfl <;> exact absurd hc (by decide)
    simp [text, sortOf, sort, hmark, htext, hword, hother]
  | char value => simp [text, sortOf, sort]
  | str value => simp [text, sortOf, sort]
  | type value => simp [text, sortOf, sort]
  | mark value =>
    have hmarks : ∀ mark ∈ openings ++ innerMarks, sortOf mark = 0 := by
      decide +kernel
    exact hmarks value h

/-- Legible labels with one text are the same. -/
theorem text_injective (h : l.Legible) (h' : l'.Legible) (htext : l.text = l'.text) : l = l' := by
  have hsort : l.sort = l'.sort := by
    rw [← h.sortOf_text, ← h'.sortOf_text, htext]
  cases l <;> cases l' <;> try cases hsort
  case name => exact congrArg name htext
  case number => exact congrArg number (Decimal.numberText_injective h h' htext)
  case char => simpa [text] using htext
  case str => simpa [text] using htext
  case type value value' =>
    have hname : value.name = value'.name := by simpa [text] using htext
    have hvalue := congrArg ValueType.ofName? hname
    rw [ValueType.ofName?_name, ValueType.ofName?_name] at hvalue
    exact congrArg type (Option.some.inj hvalue)
  case mark => exact congrArg mark htext

end Label

namespace Row

/-- The first row can be told from the text. -/
theorem eq_of_page_cons {row row' : Row} {rows rows' : List Row} (h : row.2.Legible)
    (h' : row'.2.Legible) (hpage : page (row :: rows) = page (row' :: rows')) :
    row = row' ∧ page rows = page rows' := by
  have htab : ∀ {l : Label}, l.Legible → ∀ rows c,
      (l.text.toList ++ '\n' :: page rows).head? = some c → decide (c = '\t') = false := by
    intro l h rows c hc
    rw [decide_eq_false_iff_not]
    rintro rfl
    cases htext : l.text.toList with
    | nil => simp [htext] at hc
    | cons d cs =>
      rw [htext] at hc
      exact h.text_ne.2 (htext ▸ hc)
  have hline : ∀ {l : Label}, l.Legible → ∀ c ∈ l.text.toList, decide (c ≠ '\n') = true := by
    intro l h c hc
    rw [decide_eq_true_iff]
    rintro rfl
    exact h.text_ne.1 hc
  have hbreak : ∀ rows c, ('\n' :: page rows).head? = some c → decide (c ≠ '\n') = false := by
    rintro rows c ⟨⟩
    rfl
  rw [page_cons, page_cons] at hpage
  obtain ⟨htabs, hrest⟩ := cut_unique (by simp) (htab h rows) (by simp) (htab h' rows') hpage
  obtain ⟨htext, hrows⟩ := cut_unique (hline h) (hbreak rows) (hline h') (hbreak rows') hrest
  have hdepth : row.1 = row'.1 := by simpa using congrArg List.length htabs
  have hlabel := Label.text_injective h h' (String.toList_injective htext)
  exact ⟨Prod.ext hdepth hlabel, List.tail_eq_of_cons_eq hrows⟩

/-- Legible rows with one text are the same. -/
theorem page_injective {rows rows' : List Row} (h : ∀ row ∈ rows, row.2.Legible)
    (h' : ∀ row ∈ rows', row.2.Legible) (hpage : page rows = page rows') : rows = rows' := by
  induction rows generalizing rows' with
  | nil =>
    cases rows' with
    | nil => rfl
    | cons row' rows' => simp at hpage
  | cons row rows ih =>
    cases rows' with
    | nil => simp at hpage
    | cons row' rows' =>
      obtain ⟨hrow, hrows⟩ := List.forall_mem_cons.1 h
      obtain ⟨hrow', hrows'⟩ := List.forall_mem_cons.1 h'
      obtain ⟨rfl, hrest⟩ := eq_of_page_cons hrow hrow' hpage
      rw [ih hrows hrows' hrest]

end Row

/-! ### The text of the rows -/

@[simp] theorem toList_tabs (depth : Nat) : (tabs depth).toList = List.replicate depth '\t' :=
  String.toList_ofList

/-- Whether the outline of a statement is the text of its rows, but for the last line break. -/
def Stmt.Paged (s : Stmt) : Prop :=
  ∀ depth, (s.outline depth).toList ++ ['\n'] = Row.page (s.rows depth)

theorem Stmt.toList_lines {body : List Stmt} (h : ∀ stmt ∈ body, stmt.Paged) (depth : Nat) :
    (Stmt.lines depth body).toList = Row.page (bodyRows depth body) := by
  induction body with
  | nil => rfl
  | cons stmt body ih =>
    obtain ⟨hstmt, hbody⟩ := List.forall_mem_cons.1 h
    simp only [lines, bodyRows, Row.page_append, ← hstmt depth, ← ih hbody, String.toList_append]
    rfl

/-- A body in braces behind the given words, with the fallback behind it. -/
theorem Stmt.toList_braces {body : List Stmt} {fallback : Option (List Stmt)}
    (h : ∀ stmt ∈ body ++ fallback.getD [], stmt.Paged) (depth : Nat) (words : String) :
    List.replicate depth '\t' ++ (words.toList ++
      ((braces depth (Stmt.lines (depth + 1) body)).toList ++
        ((Stmt.fallback depth fallback).toList ++ ['\n']))) =
      Row.page ((depth, .mark (words ++ "\x7b")) ::
        (bodyRows (depth + 1) body ++ endRows depth fallback)) := by
  obtain ⟨hbody, hfallback⟩ := List.forall_mem_append.1 h
  have hlines := toList_lines hbody (depth + 1)
  cases fallback with
  | none => simp [hlines, Stmt.fallback, endRows, Label.text, braces]
  | some other =>
    have hother : (Stmt.lines (depth + 1) other).toList = Row.page (bodyRows (depth + 1) other) :=
      toList_lines hfallback (depth + 1)
    simp [hlines, hother, Stmt.fallback, endRows, Label.text, braces]

theorem Branch.toList_outline {branch : Branch} (h : ∀ part ∈ branch.children, part.Paged)
    (depth : Nat) : (branch.outline depth).toList ++ ['\n'] = Row.page (branch.rows depth) := by
  obtain ⟨condition, before, body⟩ := branch
  obtain ⟨hguard, hbody⟩ := List.forall_mem_append.1 h
  have hlines : (Stmt.lines (depth + 1) body).toList = Row.page (Stmt.bodyRows (depth + 1) body) :=
    Stmt.toList_lines hbody (depth + 1)
  cases condition with
  | none => simp [outline, rows, braces, hlines, Label.text]
  | some guard =>
    have hcondition : (guard.outline (depth + 1)).toList ++ ['\n'] =
        Row.page (guard.rows (depth + 1)) :=
      hguard (.expr guard) List.mem_cons_self (depth + 1)
    cases before <;> simp [outline, rows, braces, hlines, ← hcondition, Label.text]

theorem Branch.toList_outlines {branches : List Branch} (hne : branches ≠ [])
    (h : ∀ part ∈ branches.flatMap Branch.children, part.Paged) (depth : Nat) :
    ("\n".intercalate (Branch.outlines depth branches)).toList ++ ['\n'] =
      Row.page (allRows depth branches) := by
  induction branches with
  | nil => exact absurd rfl hne
  | cons branch branches ih =>
    rw [List.flatMap_cons, List.forall_mem_append] at h
    rw [allRows, Row.page_append, ← toList_outline h.1]
    cases branches with
    | nil => simp [outlines, allRows]
    | cons next branches =>
      rw [← ih (List.cons_ne_nil next branches) h.2]
      simp [outlines]

namespace Stmt

variable {isName : String → Prop}

/-- The outline of a well-built statement is the text of its rows. -/
theorem Built.paged {s : Stmt} (h : s.Built isName) : s.Paged := by
  induction s using children_induction with
  | step s ih =>
    intro depth
    have hparts : ∀ part ∈ s.children, part.Paged :=
      fun part hpart => ih part hpart (h.of_mem hpart)
    cases s with
    | assign name value =>
      have hvalue := List.forall_mem_singleton.1 hparts (depth + 1)
      simp only [outline, rows] at hvalue ⊢
      simp [← hvalue, Label.text]
    | declare name type isMutable value =>
      have hvalue := List.forall_mem_singleton.1 hparts (depth + 1)
      simp only [outline, rows] at hvalue ⊢
      simp [← hvalue, Label.text]
    | expr value =>
      rw [outline, rows]
      cases value with
      | jump target => cases target <;> simp [Expr.outline, Expr.rows, Label.text]
      | unary operator term =>
        have hterm := List.forall_mem_singleton.1 hparts (depth + 1)
        simp only [outline, rows] at hterm
        simp [Expr.outline, Expr.rows, ← hterm, Label.text]
      | binary left operator right =>
        obtain ⟨hleft, hright⟩ := List.forall_mem_cons.1 hparts
        have hleft := hleft (depth + 1)
        have hright := List.forall_mem_singleton.1 hright (depth + 1)
        simp only [outline, rows] at hleft hright
        simp [Expr.outline, Expr.rows, ← hleft, ← hright, Label.text]
      | loop body fallback =>
        simp only [Expr.outline, String.toList_append, toList_tabs, List.append_assoc]
        exact toList_braces hparts depth "loop "
      | whileLoop condition body fallback =>
        obtain ⟨hguard, hbody⟩ := List.forall_mem_cons.1 hparts
        have hguard := hguard (depth + 1)
        simp only [outline, rows] at hguard
        simp only [Expr.outline, String.toList_append, toList_tabs, List.append_assoc]
        rw [toList_braces hbody depth ") "]
        simp [Expr.rows, ← hguard, Label.text]
      | forLoop init condition update body fallback =>
        obtain ⟨hinit, hparts⟩ := List.forall_mem_cons.1 hparts
        obtain ⟨hguard, hparts⟩ := List.forall_mem_cons.1 hparts
        obtain ⟨hupdate, hbody⟩ := List.forall_mem_cons.1 hparts
        have hguard := hguard (depth + 1)
        simp only [outline, rows] at hguard
        simp only [Expr.outline, String.toList_append, toList_tabs, List.append_assoc]
        rw [toList_braces hbody depth ") "]
        simp [Expr.rows, ← hinit (depth + 1), ← hguard, ← hupdate (depth + 1), Label.text]
      | conditional branches => exact Branch.toList_outlines h.node.1 hparts depth
      | _ => simp [Expr.outline, Expr.rows, Label.text]

end Stmt

/-! ### Legible rows -/

/-- Whether all rows are legible. -/
def Row.AllLegible (rows : List Row) : Prop :=
  ∀ row ∈ rows, row.2.Legible

namespace Row

@[simp] theorem allLegible_nil : AllLegible [] := nofun

@[simp] theorem allLegible_cons {row : Row} {rows : List Row} :
    AllLegible (row :: rows) ↔ row.2.Legible ∧ AllLegible rows :=
  List.forall_mem_cons

@[simp] theorem allLegible_append {rows rows' : List Row} :
    AllLegible (rows ++ rows') ↔ AllLegible rows ∧ AllLegible rows' :=
  List.forall_mem_append

end Row

namespace Stmt

/-- Whether a literal is a finite number, or a text without a line break. -/
def OneLine : Stmt → Prop
  | expr (.number value) => value.isFinite = true
  | expr (.char value) => value ≠ '\n'
  | expr (.str value) => '\n' ∉ value.toList
  | _ => True

/-- Whether a statement has legible rows only. -/
def HasLegibleRows (s : Stmt) : Prop :=
  ∀ depth, Row.AllLegible (s.rows depth)

theorem allLegible_bodyRows {body : List Stmt} (h : ∀ stmt ∈ body, stmt.HasLegibleRows)
    (depth : Nat) : Row.AllLegible (bodyRows depth body) := by
  induction body with
  | nil => exact nofun
  | cons stmt body ih =>
    obtain ⟨hstmt, hbody⟩ := List.forall_mem_cons.1 h
    exact Row.allLegible_append.2 ⟨hstmt depth, ih hbody⟩

theorem allLegible_loop {body : List Stmt} {fallback : Option (List Stmt)}
    (h : ∀ stmt ∈ body ++ fallback.getD [], stmt.HasLegibleRows) (depth : Nat) :
    Row.AllLegible (bodyRows (depth + 1) body) ∧ Row.AllLegible (endRows depth fallback) := by
  obtain ⟨hbody, hfallback⟩ := List.forall_mem_append.1 h
  refine ⟨allLegible_bodyRows hbody (depth + 1), ?_⟩
  cases fallback with
  | none => exact Row.allLegible_cons.2 ⟨Label.legible_mark (by decide), Row.allLegible_nil⟩
  | some other =>
    have hother := allLegible_bodyRows hfallback (depth + 1)
    simp only [endRows, Row.allLegible_cons, Row.allLegible_append, Row.allLegible_nil, and_true]
    exact ⟨Label.legible_mark (by decide), hother, Label.legible_mark (by decide)⟩

end Stmt

theorem Branch.allLegible_rows {branch : Branch}
    (h : ∀ part ∈ branch.children, part.HasLegibleRows) (depth : Nat) :
    Row.AllLegible (branch.rows depth) := by
  obtain ⟨condition, before, body⟩ := branch
  obtain ⟨hguard, hbody⟩ := List.forall_mem_append.1 h
  have hbody := Stmt.allLegible_bodyRows hbody (depth + 1)
  cases condition with
  | none =>
    simp only [rows, Row.allLegible_cons, Row.allLegible_append, Row.allLegible_nil, and_true]
    exact ⟨Label.legible_mark (by decide), hbody, Label.legible_mark (by decide)⟩
  | some guard =>
    have hcondition := hguard (.expr guard) List.mem_cons_self (depth + 1)
    simp only [rows, Row.allLegible_cons, Row.allLegible_append, Row.allLegible_nil, and_true]
    refine ⟨Label.legible_mark ?_, hcondition, Label.legible_mark (by decide), hbody,
      Label.legible_mark (by decide)⟩
    split <;> decide

theorem Branch.allLegible_allRows {branches : List Branch}
    (h : ∀ part ∈ branches.flatMap Branch.children, part.HasLegibleRows) (depth : Nat) :
    Row.AllLegible (allRows depth branches) := by
  induction branches with
  | nil => exact nofun
  | cons branch branches ih =>
    rw [List.flatMap_cons, List.forall_mem_append] at h
    exact Row.allLegible_append.2 ⟨allLegible_rows h.1 depth, ih h.2⟩

namespace Stmt

/-- The rows of a statement with proper names and literals on one line are legible. -/
theorem hasLegibleRows {s : Stmt}
    (h : s.Built fun name => TokenKind.identifier.SpelledBy name.toList)
    (hone : s.Throughout OneLine) : s.HasLegibleRows := by
  induction s using children_induction with
  | step s ih =>
    intro depth
    have hparts : ∀ part ∈ s.children, part.HasLegibleRows :=
      fun part hpart => ih part hpart (h.of_mem hpart) (hone.of_mem hpart)
    have hnode := h.node
    have hone := hone.node
    cases s with
    | assign name value =>
      have hvalue := List.forall_mem_singleton.1 hparts (depth + 1)
      simp only [rows, Row.allLegible_cons] at hvalue ⊢
      exact ⟨hnode, Label.legible_mark (by decide), hvalue⟩
    | declare name type isMutable value =>
      have hvalue := List.forall_mem_singleton.1 hparts (depth + 1)
      simp only [rows, Row.allLegible_cons] at hvalue ⊢
      refine ⟨Label.legible_mark ?_, hnode, trivial, hvalue⟩
      cases isMutable <;> decide
    | expr value =>
      rw [rows]
      cases value with
      | identifier name => exact Row.allLegible_cons.2 ⟨hnode, Row.allLegible_nil⟩
      | number value => exact Row.allLegible_cons.2 ⟨hone, Row.allLegible_nil⟩
      | char value => exact Row.allLegible_cons.2 ⟨hone, Row.allLegible_nil⟩
      | str value => exact Row.allLegible_cons.2 ⟨hone, Row.allLegible_nil⟩
      | boolean value =>
        refine Row.allLegible_cons.2 ⟨Label.legible_mark ?_, Row.allLegible_nil⟩
        cases value <;> decide
      | jump target =>
        cases target <;>
          exact Row.allLegible_cons.2 ⟨Label.legible_mark (by decide), Row.allLegible_nil⟩
      | unary operator term =>
        obtain rfl : operator = "!" := hnode
        have hterm := List.forall_mem_singleton.1 hparts (depth + 1)
        simp only [Expr.rows, Row.allLegible_cons, Row.allLegible_append, Row.allLegible_nil,
          and_true]
        exact ⟨Label.legible_mark (by decide), Label.legible_mark (by decide), hterm,
          Label.legible_mark (by decide)⟩
      | binary left operator right =>
        have hmark : operator ∈ Label.openings ++ Label.innerMarks := by
          simp [Label.innerMarks, show operator ∈ binarySymbols from hnode]
        obtain ⟨hleft, hright⟩ := List.forall_mem_cons.1 hparts
        have hright := List.forall_mem_singleton.1 hright (depth + 1)
        simp only [Expr.rows, Row.allLegible_cons, Row.allLegible_append, Row.allLegible_nil,
          and_true]
        exact ⟨Label.legible_mark (by decide), hleft (depth + 1), hmark, hright,
          Label.legible_mark (by decide)⟩
      | loop body fallback =>
        simp only [Expr.rows, Row.allLegible_cons, Row.allLegible_append]
        exact ⟨Label.legible_mark (by decide), allLegible_loop hparts depth⟩
      | whileLoop condition body fallback =>
        obtain ⟨hguard, hbody⟩ := List.forall_mem_cons.1 hparts
        simp only [Expr.rows, Row.allLegible_cons, Row.allLegible_append]
        exact ⟨Label.legible_mark (by decide), hguard (depth + 1), Label.legible_mark (by decide),
          allLegible_loop hbody depth⟩
      | forLoop init condition update body fallback =>
        obtain ⟨hinit, hparts⟩ := List.forall_mem_cons.1 hparts
        obtain ⟨hguard, hparts⟩ := List.forall_mem_cons.1 hparts
        obtain ⟨hupdate, hbody⟩ := List.forall_mem_cons.1 hparts
        simp only [Expr.rows, Row.allLegible_cons, Row.allLegible_append]
        exact ⟨Label.legible_mark (by decide), hinit (depth + 1), Label.legible_mark (by decide),
          hguard (depth + 1), Label.legible_mark (by decide), hupdate (depth + 1),
          Label.legible_mark (by decide), allLegible_loop hbody depth⟩
      | conditional branches => exact Branch.allLegible_allRows hparts depth

end Stmt

end Cascade
