import Cascade.Proofs.Rows

/-!
# The same outline one level deeper

The outline of a node can be put one level deeper by putting one more tab in front of each of its
lines.  The rules do not work line by line: every part of a node writes its own tabs, a body goes on
in the line of its keyword, and a fallback in the line where the body before it ends.  So a piece of
an outline is moved by a tab behind each of its line breaks, whatever stands in front of it in its
first line, and pieces that are moved make up an outline that is moved.

## Main definitions

* `Text.indentRest` : a text with one more tab behind each line break.
* `Stmt.Moves` : one level deeper, the outline of a statement has one more tab in front of each
  line.
* `Stmt.WellLined` : the texts of a node are on one line, and no conditional is empty.

## Main results

* `Text.splitOn_indentRest` : the lines of a text with a tab in front of each.
* `Stmt.moves` : the outline of a statement moves as a whole.
* `Stmt.splitOn_outline_succ` : the lines of an outline one level deeper.
-/

namespace Cascade

/-! ### Indented texts -/

namespace Text

/-- A text with one more tab behind each line break.  With a tab in front as well, this is the text
one level deeper. -/
def indentRest (cs : List Char) : List Char :=
  cs.flatMap fun c => if c = '\n' then ['\n', '\t'] else [c]

@[simp] theorem indentRest_nil : indentRest [] = [] := rfl

@[simp] theorem indentRest_lineBreak (cs : List Char) :
    indentRest ('\n' :: cs) = '\n' :: '\t' :: indentRest cs := rfl

@[simp] theorem indentRest_append (cs ds : List Char) :
    indentRest (cs ++ ds) = indentRest cs ++ indentRest ds :=
  List.flatMap_append

@[simp] theorem indentRest_cons_of_ne {c : Char} (h : c ≠ '\n') (cs : List Char) :
    indentRest (c :: cs) = c :: indentRest cs := by
  simp [indentRest, h]

/-- Nothing changes within a line. -/
theorem indentRest_of_notMem {cs : List Char} (h : '\n' ∉ cs) : indentRest cs = cs := by
  induction cs with
  | nil => rfl
  | cons c cs ih =>
    obtain ⟨hc, hcs⟩ := not_or.1 (List.mem_cons.not.1 h)
    rw [indentRest_cons_of_ne (Ne.symm hc), ih hcs]

/-- An indented text has the same lines as before, each with a tab in front. -/
theorem splitOn_indentRest (cs : List Char) :
    ('\t' :: indentRest cs).splitOn '\n' = (cs.splitOn '\n').map ('\t' :: ·) := by
  induction cs with
  | nil => rfl
  | cons c cs ih =>
    rw [List.splitOn_cons_eq_if_modifyHead, if_neg (by decide)] at ih ⊢
    by_cases hc : c = '\n'
    · subst hc
      rw [indentRest_lineBreak, List.splitOn_cons_eq_if_modifyHead, if_pos (by decide),
        List.splitOn_cons_eq_if_modifyHead, if_neg (by decide), ih,
        List.splitOn_cons_eq_if_modifyHead, if_pos (by decide)]
      rfl
    · -- The character joins the first line on both sides.
      have hne : ¬(c == '\n') = true := by simpa using hc
      obtain ⟨first, more, hlines⟩ := List.exists_cons_of_ne_nil (List.splitOn_ne_nil '\n' cs)
      obtain ⟨first', more', hlines'⟩ :=
        List.exists_cons_of_ne_nil (List.splitOn_ne_nil '\n' (indentRest cs))
      rw [hlines, hlines'] at ih
      obtain ⟨hfirst, rfl⟩ := List.cons.inj ih
      obtain rfl : first' = first := List.tail_eq_of_cons_eq hfirst
      rw [indentRest_cons_of_ne hc, List.splitOn_cons_eq_if_modifyHead, if_neg hne, hlines',
        List.splitOn_cons_eq_if_modifyHead, if_neg hne, hlines]
      rfl

end Text

open Text (indentRest indentRest_of_notMem)

/-! ### Pieces of an outline -/

@[simp] theorem indentRest_tabs (depth : Nat) :
    indentRest (List.replicate depth '\t') = List.replicate depth '\t' :=
  indentRest_of_notMem (by simp)

namespace Stmt

/-- Whether the outline of a statement one level deeper is the same with one more tab in front of
each line. -/
def Moves (s : Stmt) : Prop :=
  ∀ depth, (s.outline (depth + 1)).toList = '\t' :: indentRest (s.outline depth).toList

/-- The tab in front of the lines of a body ends up in front of what stands behind them. -/
theorem moves_lines {body : List Stmt} (h : ∀ stmt ∈ body, stmt.Moves) (depth : Nat)
    (rest : List Char) :
    '\t' :: (indentRest (Stmt.lines depth body).toList ++ rest) =
      (Stmt.lines (depth + 1) body).toList ++ '\t' :: rest := by
  induction body with
  | nil => rfl
  | cons stmt body ih =>
    obtain ⟨hstmt, hbody⟩ := List.forall_mem_cons.1 h
    simp [lines, hstmt depth, ← ih hbody]

/-- A body in braces, behind words on the same line, and the fallback behind it. -/
theorem moves_braces {body : List Stmt} {fallback : Option (List Stmt)}
    (h : ∀ stmt ∈ body ++ fallback.getD [], stmt.Moves) (depth : Nat) :
    (braces (depth + 1) (Stmt.lines (depth + 1 + 1) body)).toList ++
        (Stmt.fallback (depth + 1) fallback).toList =
      indentRest ((braces depth (Stmt.lines (depth + 1) body)).toList ++
        (Stmt.fallback depth fallback).toList) := by
  obtain ⟨hbody, hfallback⟩ := List.forall_mem_append.1 h
  have hlines := moves_lines hbody (depth + 1)
  cases fallback with
  | none => simp [braces, Stmt.fallback, List.replicate_succ, hlines]
  | some other =>
    have hmoves : ∀ stmt ∈ other, stmt.Moves := hfallback
    have hother := moves_lines hmoves (depth + 1)
    simp [braces, Stmt.fallback, List.replicate_succ, hlines, hother]

end Stmt

theorem Branch.moves_outline {branch : Branch} (h : ∀ part ∈ branch.children, part.Moves)
    (depth : Nat) :
    (branch.outline (depth + 1)).toList = '\t' :: indentRest (branch.outline depth).toList := by
  obtain ⟨condition, before, body⟩ := branch
  obtain ⟨hguard, hparts⟩ := List.forall_mem_append.1 h
  have hbody : ∀ stmt ∈ body, stmt.Moves := hparts
  have hlines := Stmt.moves_lines hbody (depth + 1)
  cases condition with
  | none => simp [outline, braces, List.replicate_succ, hlines]
  | some guard =>
    have hcondition := hguard (.expr guard) List.mem_cons_self (depth + 1)
    simp only [Stmt.outline] at hcondition
    cases before <;> simp [outline, braces, List.replicate_succ, hcondition, hlines]

theorem Branch.moves_outlines {branches : List Branch} (hne : branches ≠ [])
    (h : ∀ part ∈ branches.flatMap Branch.children, part.Moves) (depth : Nat) :
    ("\n".intercalate (Branch.outlines (depth + 1) branches)).toList =
      '\t' :: indentRest ("\n".intercalate (Branch.outlines depth branches)).toList := by
  induction branches with
  | nil => exact absurd rfl hne
  | cons branch branches ih =>
    rw [List.flatMap_cons, List.forall_mem_append] at h
    have hbranch := moves_outline h.1 depth
    cases branches with
    | nil => simp [outlines, hbranch]
    | cons next branches =>
      have hrest := ih (List.cons_ne_nil next branches) h.2
      simp only [outlines] at hrest ⊢
      simp [hbranch, hrest]

/-! ### Statements -/

namespace Stmt

/-- Whether the texts that a node holds have no line breaks, and it is no conditional without
branches. -/
def WellLined : Stmt → Prop
  | expr (.identifier name) => '\n' ∉ name.toList
  | expr (.char value) => value ≠ '\n'
  | expr (.str value) => '\n' ∉ value.toList
  | expr (.unary operator _) => '\n' ∉ operator.toList
  | expr (.binary _ operator _) => '\n' ∉ operator.toList
  | expr (.conditional branches) => branches ≠ []
  | assign name _ => '\n' ∉ name.toList
  | declare name _ _ _ => '\n' ∉ name.toList
  | _ => True

/-- The outline of a statement moves as a whole. -/
theorem moves {s : Stmt} (h : s.Throughout WellLined) : s.Moves := by
  induction s using children_induction with
  | step s ih =>
    intro depth
    have hparts : ∀ part ∈ s.children, part.Moves :=
      fun part hpart => ih part hpart (h.of_mem hpart)
    have hnode := h.node
    cases s with
    | assign name value =>
      have hname := indentRest_of_notMem hnode
      have hvalue := List.forall_mem_singleton.1 hparts (depth + 1)
      simp only [outline] at hvalue ⊢
      simp [List.replicate_succ, hname, hvalue]
    | declare name type isMutable value =>
      have hname := indentRest_of_notMem hnode
      have htype : indentRest type.name.toList = type.name.toList := by
        cases type <;> rfl
      have hvalue := List.forall_mem_singleton.1 hparts (depth + 1)
      simp only [outline] at hvalue ⊢
      cases isMutable <;> simp [List.replicate_succ, hname, htype, hvalue]
    | expr value =>
      rw [outline, outline]
      cases value with
      | identifier name => simp [Expr.outline, List.replicate_succ, indentRest_of_notMem hnode]
      | number value =>
        have hnumber := indentRest_of_notMem (Decimal.lineBreak_notMem_numberText value)
        simp [Expr.outline, List.replicate_succ, hnumber]
      | boolean value => cases value <;> simp [Expr.outline, List.replicate_succ]
      | char value =>
        have hvalue : value ≠ '\n' := hnode
        simp [Expr.outline, List.replicate_succ, hvalue]
      | str value => simp [Expr.outline, List.replicate_succ, indentRest_of_notMem hnode]
      | jump target => cases target <;> simp [Expr.outline, List.replicate_succ]
      | unary operator term =>
        have hoperator := indentRest_of_notMem hnode
        have hterm := List.forall_mem_singleton.1 hparts (depth + 1)
        simp only [outline] at hterm
        simp [Expr.outline, List.replicate_succ, hoperator, hterm]
      | binary left operator right =>
        have hoperator := indentRest_of_notMem hnode
        obtain ⟨hleft, hright⟩ := List.forall_mem_cons.1 hparts
        have hleft := hleft (depth + 1)
        have hright := List.forall_mem_singleton.1 hright (depth + 1)
        simp only [outline] at hleft hright
        simp [Expr.outline, List.replicate_succ, hoperator, hleft, hright]
      | loop body fallback =>
        have hloop := moves_braces hparts depth
        simp [Expr.outline, List.replicate_succ, hloop]
      | whileLoop condition body fallback =>
        obtain ⟨hguard, hbody⟩ := List.forall_mem_cons.1 hparts
        have hguard := hguard (depth + 1)
        have hloop := moves_braces hbody depth
        simp only [outline] at hguard
        simp [Expr.outline, List.replicate_succ, hguard, hloop]
      | forLoop init condition update body fallback =>
        obtain ⟨hinit, hparts⟩ := List.forall_mem_cons.1 hparts
        obtain ⟨hguard, hparts⟩ := List.forall_mem_cons.1 hparts
        obtain ⟨hupdate, hbody⟩ := List.forall_mem_cons.1 hparts
        have hguard := hguard (depth + 1)
        have hloop := moves_braces hbody depth
        simp only [outline] at hguard
        simp [Expr.outline, List.replicate_succ, hinit (depth + 1), hguard, hupdate (depth + 1),
          hloop]
      | conditional branches => exact Branch.moves_outlines hnode hparts depth

/-- One level deeper, the outline of a statement has the same lines with one more tab in front of
each. -/
theorem splitOn_outline_succ (s : Stmt) (h : s.Throughout WellLined) (depth : Nat) :
    (s.outline (depth + 1)).toList.splitOn '\n' =
      ((s.outline depth).toList.splitOn '\n').map ('\t' :: ·) := by
  rw [moves h depth, Text.splitOn_indentRest]

/-- A declaration with a negated conditional as its value. -/
def negatedChoice : Stmt :=
  .declare "x" .bool false (.unary "!" (.conditional
    [.mk (some (.identifier "a")) none [.expr (.loop [.expr (.jump .exit)] (some []))],
      .mk none (some 0) []]))

/-- The lines of a declaration one level deeper. -/
theorem splitOn_outline_succ_negatedChoice :
    negatedChoice.Throughout WellLined ∧
      (negatedChoice.outline 0).toList.splitOn '\n' =
        ["let", "\tx", "\t: bool", "\t(", "\t\t!", "\t\tif (", "\t\t\ta", "\t\t) \x7b",
          "\t\t\tloop \x7b", "\t\t\t\tbreak;", "\t\t\t\x7d or \x7b", "\t\t\t\x7d", "\t\t\x7d",
          "\t\telse \x7b", "\t\t\x7d", "\t)"].map String.toList ∧
      (negatedChoice.outline 1).toList.splitOn '\n' =
        ((negatedChoice.outline 0).toList.splitOn '\n').map ('\t' :: ·) := by
  have hlined : negatedChoice.Throughout WellLined := by
    have hname : '\n' ∉ "x".toList := by decide
    have hguard : '\n' ∉ "a".toList := by decide
    have hnot : '\n' ∉ "!".toList := by decide
    refine throughout_iff.2 ⟨hname, List.forall_mem_singleton.2 ?_⟩
    refine throughout_iff.2 ⟨hnot, List.forall_mem_singleton.2 ?_⟩
    refine throughout_iff.2 ⟨List.cons_ne_nil _ _, List.forall_mem_cons.2 ⟨?_, ?_⟩⟩
    · exact throughout_iff.2 ⟨hguard, List.forall_mem_nil _⟩
    · refine List.forall_mem_singleton.2 (throughout_iff.2 ⟨trivial, ?_⟩)
      exact List.forall_mem_singleton.2 (throughout_iff.2 ⟨trivial, List.forall_mem_nil _⟩)
  exact ⟨hlined, by decide +kernel, splitOn_outline_succ negatedChoice hlined 0⟩

end Stmt

end Cascade
