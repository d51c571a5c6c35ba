import Mathlib
import Cascade.Proofs.Partition
import Cascade.Proofs.Rows

/-!
# An outline belongs to one statement

Declarations, assignments and conditionals have no row that closes them, so what ends a statement is
the row behind it.  Reading from the front still never leaves a choice: the first row of a statement
says which kind it is, but for a name that may be assigned to and an operation that may be unary,
and the second row decides that; a branch that is not the first one has a word that no statement
begins with.

## Main definitions

* `Stmt.opening` : what the first row of a statement says.
* `Stmt.Alike` : two statements may have the same first row.
* `Row.Stops` : the statement in front of some rows does not go on in them.
* `Stmt.Clear` : the rows of a statement, in front of others, belong to no other statement.
* `Dialect.Yields` : a statement stands in a program that is parsed from a source.

## Main results

* `Stmt.alike_of_opening` : the kinds of statements that have the same first row.
* `Stmt.clear_of_children` : a statement is clear if its parts are.
* `Dialect.outline_injective` : parsed statements with one outline are the same.
-/

namespace Cascade

/-! ### The first row -/

namespace Stmt

variable {isName : String → Prop} {s s' : Stmt}

/-- What the first row of a statement says. -/
def opening : Stmt → Label
  | expr (.identifier name) => .name name
  | expr (.number value) => .number value
  | expr (.boolean true) => .mark "true"
  | expr (.boolean false) => .mark "false"
  | expr (.char value) => .char value
  | expr (.str value) => .str value
  | expr (.unary _ _) => .mark "("
  | expr (.binary _ _ _) => .mark "("
  | expr (.loop _ _) => .mark "loop \x7b"
  | expr (.whileLoop _ _ _) => .mark "while ("
  | expr (.forLoop _ _ _ _ _) => .mark "for ("
  | expr (.jump .exit) => .mark "break;"
  | expr (.jump .next) => .mark "continue;"
  | expr (.conditional _) => .mark "if ("
  | assign name _ => .name name
  | declare _ _ true _ => .mark "let mut"
  | declare _ _ false _ => .mark "let"

/-- Whether two statements may have the same first row. -/
inductive Alike : Stmt → Stmt → Prop
  | same (s : Stmt) : Alike s s
  | identifierAssign (name : String) (value : Expr) :
      Alike (expr (.identifier name)) (assign name value)
  | assignIdentifier (name : String) (value : Expr) :
      Alike (assign name value) (expr (.identifier name))
  | assign (name : String) (value value' : Expr) : Alike (assign name value) (assign name value')
  | declare (name name' : String) (type type' : ValueType) (isMutable : Bool)
      (value value' : Expr) :
      Alike (declare name type isMutable value) (declare name' type' isMutable value')
  | unary (operator operator' : String) (term term' : Expr) :
      Alike (expr (.unary operator term)) (expr (.unary operator' term'))
  | unaryBinary (operator operator' : String) (term left right : Expr) :
      Alike (expr (.unary operator term)) (expr (.binary left operator' right))
  | binaryUnary (operator operator' : String) (term left right : Expr) :
      Alike (expr (.binary left operator' right)) (expr (.unary operator term))
  | binary (left left' : Expr) (operator operator' : String) (right right' : Expr) :
      Alike (expr (.binary left operator right)) (expr (.binary left' operator' right'))
  | loop (body body' : List Stmt) (fallback fallback' : Option (List Stmt)) :
      Alike (expr (.loop body fallback)) (expr (.loop body' fallback'))
  | whileLoop (condition condition' : Expr) (body body' : List Stmt)
      (fallback fallback' : Option (List Stmt)) :
      Alike (expr (.whileLoop condition body fallback))
        (expr (.whileLoop condition' body' fallback'))
  | forLoop (init init' : Stmt) (condition condition' : Expr) (update update' : Stmt)
      (body body' : List Stmt) (fallback fallback' : Option (List Stmt)) :
      Alike (expr (.forLoop init condition update body fallback))
        (expr (.forLoop init' condition' update' body' fallback'))
  | conditional (branches branches' : List Branch) :
      Alike (expr (.conditional branches)) (expr (.conditional branches'))

/-- Statements with the same first row are alike. -/
theorem alike_of_opening (h : s.opening = s'.opening) : s.Alike s' := by
  fun_cases opening s <;> fun_cases opening s' <;> simp [opening] at h <;> (try subst h) <;>
    constructor

theorem mem_openings_of_opening {text : String} (h : s.opening = .mark text) :
    text ∈ Label.openings := by
  fun_cases opening s <;> cases h <;> decide

/-- A well-built statement has a first row. -/
theorem rows_eq_cons (h : s.WellBuilt isName) (depth : Nat) :
    ∃ more, s.rows depth = (depth, s.opening) :: more := by
  cases s with
  | assign name value => exact ⟨_, rfl⟩
  | declare name type isMutable value => cases isMutable <;> exact ⟨_, rfl⟩
  | expr value =>
    rw [rows]
    cases value with
    | boolean value => cases value <;> exact ⟨_, rfl⟩
    | jump target => cases target <;> exact ⟨_, rfl⟩
    | conditional branches =>
      obtain ⟨hne, hlinked⟩ := h
      obtain ⟨⟨condition, before, body⟩, branches, rfl⟩ := List.exists_cons_of_ne_nil hne
      obtain ⟨hbefore, hcondition, -⟩ := hlinked
      cases condition with
      | none => exact absurd rfl (hcondition rfl).1
      | some guard =>
        obtain rfl : before = none := hbefore
        exact ⟨_, rfl⟩
    | _ => exact ⟨_, rfl⟩

end Stmt

/-! ### Where a statement ends -/

/-- The marks with which a statement goes on that could have ended. -/
def Label.continuations : List String :=
  ["=", "else \x7b", "else if ("]

namespace Row

/-- Whether the statement in front of some rows does not go on in them. -/
def Stops (rows : List Row) : Prop :=
  ∀ row ∈ rows.head?, ∀ text ∈ Label.continuations, row.2 ≠ .mark text

/-- Whether a body ends in front of some rows. -/
def Closes (rows : List Row) : Prop :=
  ∃ depth text more, text ∈ ["\x7d", "\x7d or \x7b"] ∧ rows = (depth, .mark text) :: more

theorem stops_nil : Stops [] := nofun

theorem stops_mark {text : String} (h : text ∉ Label.continuations) (depth : Nat)
    (more : List Row) : Stops ((depth, .mark text) :: more) := by
  rintro row ⟨⟩ _ hmem ⟨⟩
  exact h hmem

theorem Closes.stops {rows : List Row} (h : Closes rows) : Stops rows := by
  obtain ⟨depth, text, more, htext, rfl⟩ := h
  have hmarks : ∀ text ∈ ["\x7d", "\x7d or \x7b"], text ∉ Label.continuations := by decide
  exact stops_mark (hmarks text htext) depth more

theorem closes_brace (depth : Nat) (more : List Row) : Closes ((depth, .mark "\x7d") :: more) :=
  ⟨depth, "\x7d", more, by decide, rfl⟩

theorem closes_endRows (depth : Nat) (fallback : Option (List Stmt)) (more : List Row) :
    Closes (Stmt.endRows depth fallback ++ more) := by
  cases fallback with
  | none => exact closes_brace depth more
  | some other => exact ⟨depth, "\x7d or \x7b", _, by decide, rfl⟩

end Row

open Row

namespace Stmt

variable {isName : String → Prop} {s s' : Stmt}

/-- No statement begins with a mark that stands further down. -/
theorem opening_ne_mark {text : String} (h : text ∈ Label.innerMarks) : s.opening ≠ .mark text := by
  have hmarks : ∀ text ∈ Label.innerMarks, text ∉ Label.openings := by decide
  exact fun hopening => hmarks text h (mem_openings_of_opening hopening)

/-- No statement goes on with another one. -/
theorem stops_rows (h : s.WellBuilt isName) (depth : Nat) (more : List Row) :
    Stops (s.rows depth ++ more) := by
  have hmarks : ∀ text ∈ Label.continuations, text ∈ Label.innerMarks := by decide
  obtain ⟨rest, hrows⟩ := rows_eq_cons h depth
  rw [hrows]
  rintro row ⟨⟩ text htext
  exact opening_ne_mark (hmarks text htext)

theorem rows_ne_mark (h : s.WellBuilt isName) {text : String} (htext : text ∈ Label.innerMarks)
    {depth depth' : Nat} {more rest : List Row} :
    s.rows depth ++ more ≠ (depth', .mark text) :: rest := by
  obtain ⟨following, hrows⟩ := rows_eq_cons h depth
  rw [hrows]
  exact fun heq => opening_ne_mark htext (congrArg Prod.snd (List.cons.inj heq).1)

/-- No statement begins where a body ends. -/
theorem not_closes_rows (h : s.WellBuilt isName) (depth : Nat) (more : List Row) :
    ¬Closes (s.rows depth ++ more) := by
  rintro ⟨depth', text, rest, htext, heq⟩
  have hmarks : ∀ text ∈ ["\x7d", "\x7d or \x7b"], text ∈ Label.innerMarks := by decide
  exact rows_ne_mark h (hmarks text htext) heq

/-! ### Clear statements -/

/-- Whether the rows of a statement belong to no other one, whatever rows are behind it in which it
does not go on. -/
structure Clear (isName : String → Prop) (s : Stmt) : Prop where
  built : s.Built isName
  unique : ∀ (s' : Stmt) (depth : Nat) (rest rest' : List Row), s'.Built isName →
    s.rows depth ++ rest = s'.rows depth ++ rest' → Stops rest → Stops rest' → s = s' ∧ rest = rest'

theorem Clear.expr_unique {e e' : Expr} (h : (expr e).Clear isName) (h' : (expr e').Built isName)
    {depth : Nat} {rest rest' : List Row} (heq : e.rows depth ++ rest = e'.rows depth ++ rest')
    (hrest : Stops rest) (hrest' : Stops rest') : e = e' ∧ rest = rest' := by
  obtain ⟨hexpr, hrows⟩ := h.unique (expr e') depth rest rest' h' heq hrest hrest'
  exact ⟨expr.inj hexpr, hrows⟩

/-- Nothing but the mark behind it has to be known of what follows a statement. -/
theorem Clear.unique_of_mark (h : s.Clear isName) (h' : s'.Built isName) {text : String}
    (htext : text ∉ Label.continuations) {depth depth' : Nat} {rest rest' : List Row}
    (heq : s.rows depth ++ (depth', .mark text) :: rest =
      s'.rows depth ++ (depth', .mark text) :: rest') : s = s' ∧ rest = rest' := by
  obtain ⟨hstmt, hrows⟩ := h.unique s' depth _ _ h' heq (stops_mark htext _ _)
    (stops_mark htext _ _)
  exact ⟨hstmt, (List.cons.inj hrows).2⟩

theorem Clear.expr_unique_of_mark {e e' : Expr} (h : (expr e).Clear isName)
    (h' : (expr e').Built isName) {text : String} (htext : text ∉ Label.continuations)
    {depth depth' : Nat} {rest rest' : List Row}
    (heq : e.rows depth ++ (depth', .mark text) :: rest =
      e'.rows depth ++ (depth', .mark text) :: rest') : e = e' ∧ rest = rest' := by
  obtain ⟨hexpr, hrows⟩ := h.unique_of_mark h' htext heq
  exact ⟨expr.inj hexpr, hrows⟩

theorem stops_bodyRows {body : List Stmt} (h : ∀ stmt ∈ body, stmt.Built isName) (depth : Nat)
    {rest : List Row} (hrest : Stops rest) : Stops (bodyRows depth body ++ rest) := by
  cases body with
  | nil => exact hrest
  | cons stmt body =>
    rw [bodyRows, List.append_assoc]
    exact stops_rows (h stmt List.mem_cons_self).node depth _

/-- The statements of a body are told apart one after the other, until a row closes it. -/
theorem body_unique {body body' : List Stmt} (h : ∀ stmt ∈ body, stmt.Clear isName)
    (h' : ∀ stmt ∈ body', stmt.Built isName) {depth : Nat} {rest rest' : List Row}
    (hrest : Closes rest) (hrest' : Closes rest')
    (heq : bodyRows depth body ++ rest = bodyRows depth body' ++ rest') :
    body = body' ∧ rest = rest' := by
  induction body generalizing body' with
  | nil =>
    cases body' with
    | nil => exact ⟨rfl, heq⟩
    | cons stmt' body' =>
      rw [bodyRows, bodyRows, List.nil_append, List.append_assoc] at heq
      exact absurd (heq ▸ hrest) (not_closes_rows (h' stmt' List.mem_cons_self).node depth _)
  | cons stmt body ih =>
    obtain ⟨hstmt, hbody⟩ := List.forall_mem_cons.1 h
    cases body' with
    | nil =>
      rw [bodyRows, bodyRows, List.nil_append, List.append_assoc] at heq
      exact absurd (heq ▸ hrest') (not_closes_rows hstmt.built.node depth _)
    | cons stmt' body' =>
      obtain ⟨hstmt', hbody'⟩ := List.forall_mem_cons.1 h'
      rw [bodyRows, bodyRows, List.append_assoc, List.append_assoc] at heq
      have hstops := stops_bodyRows (fun stmt hmem => (hbody stmt hmem).built) depth hrest.stops
      have hstops' := stops_bodyRows hbody' depth hrest'.stops
      obtain ⟨rfl, hmore⟩ := hstmt.unique stmt' depth _ _ hstmt' heq hstops hstops'
      obtain ⟨rfl, rfl⟩ := ih hbody hbody' hmore
      exact ⟨rfl, rfl⟩

theorem loop_unique {body body' : List Stmt} {fallback fallback' : Option (List Stmt)}
    (h : ∀ stmt ∈ body ++ fallback.getD [], stmt.Clear isName)
    (h' : ∀ stmt ∈ body' ++ fallback'.getD [], stmt.Built isName) {depth : Nat}
    {rest rest' : List Row}
    (heq : bodyRows (depth + 1) body ++ (endRows depth fallback ++ rest) =
      bodyRows (depth + 1) body' ++ (endRows depth fallback' ++ rest')) :
    body = body' ∧ fallback = fallback' ∧ rest = rest' := by
  obtain ⟨hbody, hfallback⟩ := List.forall_mem_append.1 h
  obtain ⟨hbody', hfallback'⟩ := List.forall_mem_append.1 h'
  obtain ⟨rfl, hend⟩ := body_unique hbody hbody' (closes_endRows depth fallback rest)
    (closes_endRows depth fallback' rest') heq
  refine ⟨rfl, ?_⟩
  cases fallback with
  | none =>
    cases fallback' with
    | none => exact ⟨rfl, List.append_cancel_left hend⟩
    | some other' => simp [endRows] at hend
  | some other =>
    cases fallback' with
    | none => simp [endRows] at hend
    | some other' =>
      simp only [endRows, List.cons_append, List.append_assoc, List.cons.injEq, true_and] at hend
      obtain ⟨rfl, hrest⟩ := body_unique hfallback hfallback' (closes_brace depth _)
        (closes_brace depth _) hend
      exact ⟨rfl, (List.cons.inj hrest).2⟩

end Stmt

namespace Branch

variable {isName : String → Prop}

/-- Two branches that follow the same one are told apart by their rows. -/
theorem rows_unique {branch branch' : Branch} (hbefore : branch.before = branch'.before)
    (h : ∀ part ∈ branch.children, part.Clear isName)
    (h' : ∀ part ∈ branch'.children, part.Built isName) {depth : Nat} {rest rest' : List Row}
    (heq : branch.rows depth ++ rest = branch'.rows depth ++ rest') :
    branch = branch' ∧ rest = rest' := by
  obtain ⟨condition, before, body⟩ := branch
  obtain ⟨condition', before', body'⟩ := branch'
  obtain rfl : before = before' := hbefore
  obtain ⟨hguard, hbody⟩ := List.forall_mem_append.1 h
  obtain ⟨hguard', hbody'⟩ := List.forall_mem_append.1 h'
  have hblock : Stmt.bodyRows (depth + 1) body ++ (depth, .mark "\x7d") :: rest =
      Stmt.bodyRows (depth + 1) body' ++ (depth, .mark "\x7d") :: rest' →
        body = body' ∧ rest = rest' := by
    intro heq
    obtain ⟨rfl, hrest⟩ := Stmt.body_unique hbody hbody' (closes_brace depth rest)
      (closes_brace depth rest') heq
    exact ⟨rfl, (List.cons.inj hrest).2⟩
  cases condition with
  | none =>
    cases condition' with
    | none =>
      simp only [rows, List.cons_append, List.append_assoc, List.nil_append, List.cons.injEq,
        true_and] at heq
      obtain ⟨rfl, rfl⟩ := hblock heq
      exact ⟨rfl, rfl⟩
    | some guard' => cases before <;> simp [rows] at heq
  | some guard =>
    cases condition' with
    | none => cases before <;> simp [rows] at heq
    | some guard' =>
      simp only [rows, List.cons_append, List.append_assoc, List.nil_append, List.cons.injEq,
        true_and] at heq
      obtain ⟨rfl, hmore⟩ := (hguard _ List.mem_cons_self).expr_unique_of_mark
        (hguard' _ List.mem_cons_self) (by decide) heq
      obtain ⟨rfl, rfl⟩ := hblock hmore
      exact ⟨rfl, rfl⟩

/-- A branch that is not the first one goes on with the branches in front of it. -/
theorem not_stops_rows {index : Nat} {branch : Branch} {branches : List Branch}
    (h : LinkedFrom (index + 1) (branch :: branches)) (depth : Nat) (rest : List Row) :
    ¬Stops (branch.rows depth ++ rest) := by
  obtain ⟨condition, before, body⟩ := branch
  obtain rfl : before = some index := h.1
  intro hstops
  cases condition with
  | none => exact hstops _ rfl "else \x7b" (by decide) rfl
  | some guard => exact hstops _ rfl "else if (" (by decide) rfl

theorem allRows_unique {index : Nat} {branches branches' : List Branch}
    (hlinked : LinkedFrom (index + 1) branches) (hlinked' : LinkedFrom (index + 1) branches')
    (h : ∀ part ∈ branches.flatMap Branch.children, part.Clear isName)
    (h' : ∀ part ∈ branches'.flatMap Branch.children, part.Built isName) {depth : Nat}
    {rest rest' : List Row} (hrest : Stops rest) (hrest' : Stops rest')
    (heq : allRows depth branches ++ rest = allRows depth branches' ++ rest') :
    branches = branches' ∧ rest = rest' := by
  induction branches generalizing index branches' with
  | nil =>
    cases branches' with
    | nil => exact ⟨rfl, heq⟩
    | cons branch' branches' =>
      rw [allRows, allRows, List.nil_append, List.append_assoc] at heq
      exact absurd (heq ▸ hrest) (not_stops_rows hlinked' depth _)
  | cons branch branches ih =>
    cases branches' with
    | nil =>
      rw [allRows, allRows, List.nil_append, List.append_assoc] at heq
      exact absurd (heq ▸ hrest') (not_stops_rows hlinked depth _)
    | cons branch' branches' =>
      obtain ⟨hbefore, -, hlinked⟩ := hlinked
      obtain ⟨hbefore', -, hlinked'⟩ := hlinked'
      rw [List.flatMap_cons, List.forall_mem_append] at h h'
      rw [allRows, allRows, List.append_assoc, List.append_assoc] at heq
      obtain ⟨rfl, hmore⟩ := rows_unique (hbefore.trans hbefore'.symm) h.1 h'.1 heq
      obtain ⟨rfl, rfl⟩ := ih hlinked hlinked' h.2 h'.2 hmore
      exact ⟨rfl, rfl⟩

end Branch

/-- The branches of a conditional are told apart, up to where it does not go on. -/
theorem Chain.allRows_unique {isName : String → Prop} {chain chain' : Chain}
    (hlinked : chain.Linked) (hlinked' : chain'.Linked)
    (h : ∀ part ∈ chain.flatMap Branch.children, part.Clear isName)
    (h' : ∀ part ∈ chain'.flatMap Branch.children, part.Built isName) {depth : Nat}
    {rest rest' : List Row} (hrest : Stops rest) (hrest' : Stops rest')
    (heq : Branch.allRows depth chain ++ rest = Branch.allRows depth chain' ++ rest') :
    chain = chain' ∧ rest = rest' := by
  obtain ⟨hne, hlinked⟩ := hlinked
  obtain ⟨hne', hlinked'⟩ := hlinked'
  obtain ⟨first, branches, rfl⟩ := List.exists_cons_of_ne_nil hne
  obtain ⟨first', branches', rfl⟩ := List.exists_cons_of_ne_nil hne'
  obtain ⟨hbefore, -, hlinked⟩ := hlinked
  obtain ⟨hbefore', -, hlinked'⟩ := hlinked'
  rw [List.flatMap_cons, List.forall_mem_append] at h h'
  rw [Branch.allRows, Branch.allRows, List.append_assoc, List.append_assoc] at heq
  obtain ⟨rfl, hmore⟩ := Branch.rows_unique (hbefore.trans hbefore'.symm) h.1 h'.1 heq
  obtain ⟨rfl, rfl⟩ := Branch.allRows_unique hlinked hlinked' h.2 h'.2 hrest hrest' hmore
  exact ⟨rfl, rfl⟩

namespace Stmt

variable {isName : String → Prop} {s s' : Stmt}

/-- A statement is clear if its parts are. -/
theorem clear_of_children (hs : s.Built isName) (h : ∀ part ∈ s.children, part.Clear isName) :
    s.Clear isName := by
  refine ⟨hs, fun s' depth rest rest' hs' heq hrest hrest' => ?_⟩
  have hopening : s.opening = s'.opening := by
    obtain ⟨more, hmore⟩ := rows_eq_cons hs.node depth
    obtain ⟨more', hmore'⟩ := rows_eq_cons hs'.node depth
    rw [hmore, hmore'] at heq
    exact congrArg Prod.snd (List.cons.inj heq).1
  have hnode := hs.node
  have hnode' := hs'.node
  have h' : ∀ part ∈ s'.children, part.Built isName := fun part hpart => hs'.of_mem hpart
  -- Where the first row leaves a choice, the second one is a mark that only one of them has.
  cases alike_of_opening hopening with
  | same => exact ⟨rfl, List.append_cancel_left heq⟩
  | identifierAssign name value =>
    obtain ⟨-, rfl⟩ := List.cons.inj heq
    exact absurd rfl (hrest _ rfl "=" (by decide))
  | assignIdentifier name value =>
    obtain ⟨-, rfl⟩ := List.cons.inj heq
    exact absurd rfl (hrest' _ rfl "=" (by decide))
  | assign name value value' =>
    simp only [rows, List.cons_append, List.cons.injEq, true_and] at heq
    obtain ⟨rfl, rfl⟩ := (List.forall_mem_singleton.1 h).expr_unique
      (List.forall_mem_singleton.1 h') heq hrest hrest'
    exact ⟨rfl, rfl⟩
  | declare name name' type type' isMutable value value' =>
    simp only [rows, List.cons_append, List.cons.injEq, Prod.mk.injEq, true_and, Label.name.injEq,
      Label.type.injEq] at heq
    obtain ⟨rfl, rfl, heq⟩ := heq
    obtain ⟨rfl, rfl⟩ := (List.forall_mem_singleton.1 h).expr_unique
      (List.forall_mem_singleton.1 h') heq hrest hrest'
    exact ⟨rfl, rfl⟩
  | unary operator operator' term term' =>
    simp only [rows, Expr.rows, List.cons_append, List.append_assoc, List.cons.injEq, Prod.mk.injEq,
      true_and, Label.mark.injEq] at heq
    obtain ⟨rfl, heq⟩ := heq
    obtain ⟨rfl, rfl⟩ := (List.forall_mem_singleton.1 h).expr_unique_of_mark
      (List.forall_mem_singleton.1 h') (by decide) heq
    exact ⟨rfl, rfl⟩
  | unaryBinary operator operator' term left right =>
    obtain rfl : operator = "!" := hnode
    simp only [rows, Expr.rows, List.cons_append, List.append_assoc, List.cons.injEq,
      true_and] at heq
    exact absurd heq.symm (rows_ne_mark (h' _ List.mem_cons_self).node (by decide))
  | binaryUnary operator operator' term left right =>
    obtain rfl : operator = "!" := hnode'
    simp only [rows, Expr.rows, List.cons_append, List.append_assoc, List.cons.injEq,
      true_and] at heq
    exact absurd heq (rows_ne_mark (h _ List.mem_cons_self).built.node (by decide))
  | binary left left' operator operator' right right' =>
    have hmarks : ∀ text ∈ binarySymbols, text ∉ Label.continuations := by decide
    obtain ⟨hleft, hright⟩ := List.forall_mem_cons.1 h
    obtain ⟨hleft', hright'⟩ := List.forall_mem_cons.1 h'
    simp only [rows, Expr.rows, List.cons_append, List.append_assoc, List.cons.injEq,
      true_and] at heq
    obtain ⟨rfl, hmore⟩ := hleft.expr_unique hleft' heq
      (stops_mark (hmarks _ hnode) _ _) (stops_mark (hmarks _ hnode') _ _)
    simp only [List.cons.injEq, Prod.mk.injEq, true_and, Label.mark.injEq] at hmore
    obtain ⟨rfl, hmore⟩ := hmore
    obtain ⟨rfl, rfl⟩ := (List.forall_mem_singleton.1 hright).expr_unique_of_mark
      (List.forall_mem_singleton.1 hright') (by decide) hmore
    exact ⟨rfl, rfl⟩
  | loop body body' fallback fallback' =>
    simp only [rows, Expr.rows, List.cons_append, List.append_assoc, List.cons.injEq,
      true_and] at heq
    obtain ⟨rfl, rfl, rfl⟩ := loop_unique h h' heq
    exact ⟨rfl, rfl⟩
  | whileLoop condition condition' body body' fallback fallback' =>
    obtain ⟨hguard, hbody⟩ := List.forall_mem_cons.1 h
    obtain ⟨hguard', hbody'⟩ := List.forall_mem_cons.1 h'
    simp only [rows, Expr.rows, List.cons_append, List.append_assoc, List.cons.injEq,
      true_and] at heq
    obtain ⟨rfl, hbodies⟩ := hguard.expr_unique_of_mark hguard' (by decide) heq
    obtain ⟨rfl, rfl, rfl⟩ := loop_unique hbody hbody' hbodies
    exact ⟨rfl, rfl⟩
  | forLoop init init' condition condition' update update' body body' fallback fallback' =>
    obtain ⟨hinit, h⟩ := List.forall_mem_cons.1 h
    obtain ⟨hguard, h⟩ := List.forall_mem_cons.1 h
    obtain ⟨hupdate, hbody⟩ := List.forall_mem_cons.1 h
    obtain ⟨hinit', h'⟩ := List.forall_mem_cons.1 h'
    obtain ⟨hguard', h'⟩ := List.forall_mem_cons.1 h'
    obtain ⟨hupdate', hbody'⟩ := List.forall_mem_cons.1 h'
    simp only [rows, Expr.rows, List.cons_append, List.append_assoc, List.cons.injEq,
      true_and] at heq
    obtain ⟨rfl, hguards⟩ := hinit.unique_of_mark hinit' (by decide) heq
    obtain ⟨rfl, hupdates⟩ := hguard.expr_unique_of_mark hguard' (by decide) hguards
    obtain ⟨rfl, hbodies⟩ := hupdate.unique_of_mark hupdate' (by decide) hupdates
    obtain ⟨rfl, rfl, rfl⟩ := loop_unique hbody hbody' hbodies
    exact ⟨rfl, rfl⟩
  | conditional branches branches' =>
    obtain ⟨rfl, rfl⟩ := Chain.allRows_unique hnode hnode' h h' hrest hrest' heq
    exact ⟨rfl, rfl⟩

/-- Every well-built statement is clear. -/
theorem Built.clear (h : s.Built isName) : s.Clear isName := by
  induction s using children_induction with
  | step s ih =>
    exact clear_of_children h fun part hpart => ih part hpart (h.of_mem hpart)

/-- Well-built statements with one outline are the same, if their names are identifiers and their
literals are on one line. -/
theorem eq_of_outline (h : s.Built fun name => TokenKind.identifier.SpelledBy name.toList)
    (h' : s'.Built fun name => TokenKind.identifier.SpelledBy name.toList)
    (hone : s.Throughout OneLine) (hone' : s'.Throughout OneLine) {depth : Nat}
    (houtline : s.outline depth = s'.outline depth) : s = s' := by
  have hpage : Row.page (s.rows depth) = Row.page (s'.rows depth) := by
    rw [← h.paged, ← h'.paged, houtline]
  have hrows := Row.page_injective (hasLegibleRows h hone depth) (hasLegibleRows h' hone' depth)
    hpage
  exact (h.clear.unique s' depth [] [] h' (by rw [hrows]) stops_nil stops_nil).1

end Stmt

/-! ### Parsed statements -/

namespace Dialect

/-- Whether a statement stands in a program that is parsed from the tokens of a source. -/
def Yields (d : Dialect) (s : Stmt) : Prop :=
  ∃ source file tokens name program stmt, tokenize source file = .ok tokens ∧
    (d.parse tokens name).result = .ok program ∧ stmt ∈ program ∧ s.Within stmt

/-- A parsed statement is well built, and its names are identifiers. -/
theorem Yields.built {d : Dialect} {s : Stmt} (h : d.Yields s) :
    s.Built fun name => TokenKind.identifier.SpelledBy name.toList := by
  obtain ⟨source, file, tokens, name, program, stmt, htokens, hparse, hstmt, hwithin⟩ := h
  have htiles : Tiles file [] source.toList tokens := tiles_of_tokensFrom htokens
  have hnames : ∀ t ∈ tokens, t.kind = .identifier →
      TokenKind.identifier.SpelledBy t.value.toList := by
    intro t ht hkind
    rcases htiles.spelledBy t ht with heof | hspelled
    · cases heof.symm.trans hkind
    · exact hkind ▸ hspelled
  exact hwithin.throughout (wellBuilt_of_parse hparse hnames stmt hstmt)

/-- Two statements that stand anywhere in parsed programs and have the same outline are the same, as
long as their numbers are finite and there are no line breaks in their characters and strings. -/
theorem outline_injective (d d' : Dialect) (s s' : Stmt) (hs : d.Yields s) (hs' : d'.Yields s')
    (hone : s.Throughout Stmt.OneLine) (hone' : s'.Throughout Stmt.OneLine)
    (h : s.outline 0 = s'.outline 0) : s = s' :=
  Stmt.eq_of_outline hs.built hs'.built hone hone' h

set_option maxRecDepth 2000 in
/-- A conditional that is written with and without parentheses. -/
theorem outline_injective_parentheses :
    ∃ tokens tokens' s s', tokenize "if (x) \x7b \"a\"; \x7d" "f" = .ok tokens ∧
      tokenize "if x\x7b(\"a\");\x7d" "g" = .ok tokens' ∧
      (full.parse tokens "f").result = .ok [s] ∧ (full.parse tokens' "g").result = .ok [s'] ∧
      s.outline 0 = s'.outline 0 ∧ s = s' := by
  have hparse : ∃ tokens, tokenize "if (x) \x7b \"a\"; \x7d" "f" = .ok tokens ∧
      (full.parse tokens "f").result =
        .ok [.expr (.conditional [.mk (some (.identifier "x")) none [.expr (.str "a")]])] :=
    ⟨_, by cbv, by cbv⟩
  have hparse' : ∃ tokens, tokenize "if x\x7b(\"a\");\x7d" "g" = .ok tokens ∧
      (full.parse tokens "g").result =
        .ok [.expr (.conditional [.mk (some (.identifier "x")) none [.expr (.str "a")]])] :=
    ⟨_, by cbv, by cbv⟩
  have hone : (Stmt.expr (.conditional
      [.mk (some (.identifier "x")) none [.expr (.str "a")]])).Throughout Stmt.OneLine := by
    have htext : '\n' ∉ "a".toList := by decide
    refine Stmt.throughout_iff.2 ⟨trivial, List.forall_mem_cons.2 ⟨?_, ?_⟩⟩
    · exact Stmt.throughout_iff.2 ⟨trivial, List.forall_mem_nil _⟩
    · exact List.forall_mem_singleton.2 (Stmt.throughout_iff.2 ⟨htext, List.forall_mem_nil _⟩)
  obtain ⟨tokens, htokens, hresult⟩ := hparse
  obtain ⟨tokens', htokens', hresult'⟩ := hparse'
  refine ⟨tokens, tokens', _, _, htokens, htokens', hresult, hresult', rfl, ?_⟩
  exact outline_injective full full _ _
    ⟨_, _, _, _, _, _, htokens, hresult, List.mem_cons_self, .refl _⟩
    ⟨_, _, _, _, _, _, htokens', hresult', List.mem_cons_self, .refl _⟩ hone hone rfl

end Dialect

end Cascade
