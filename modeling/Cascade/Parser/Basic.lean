import Cascade.Parser.Cursor
import Cascade.Report
import Cascade.Symbols
import Cascade.Trace
import Cascade.Validation

/-!
# Parsing steps

A parsing step looks at the current token, may move on and may declare variables.  It gives a
value or fails, and in both cases it leaves a state behind and tells its events.

## Main definitions

* `State` : the cursor and the declared variables.
* `Outcome` : what a step gives.
* `Parse` : parsing steps, which form a monad.
* `Parse.fail`, `Parse.advance`, `Parse.expect`, `Parse.declare` : the primitive steps.
* `Parse.fold`, `Parse.checkValue`, `Parse.checkAssignment` : folding and checking.
* `Parse.many` : a step as often as it takes.
-/

namespace Cascade

/-- What parsing has reached so far. -/
structure State where
  /-- The tokens still to be read. -/
  cursor : Cursor
  /-- The variables declared so far. -/
  symbols : Symbols

/-- Why a step gives no value. -/
inductive Failure where
  /-- The program is wrong. -/
  | fault (report : Report)
  /-- The grammar goes round in circles without reading a token. -/
  | exhausted

/-- What a step gives. -/
structure Outcome (α : Type) where
  /-- The value, or why there is none. -/
  result : Except Failure α
  /-- The state that is left behind. -/
  state : State
  /-- What happened, in order. -/
  events : List Event

/-- A parsing step. -/
def Parse (α : Type) : Type :=
  State → Outcome α

namespace Parse

variable {α β : Type}

/-- What a step gives in a state. -/
def run (p : Parse α) (s : State) : Outcome α :=
  p s

/-- The step that gives a value and does nothing else. -/
def value (a : α) : Parse α := fun s =>
  ⟨.ok a, s, []⟩

/-- One step after another.  The second one is not reached if the first one fails. -/
def andThen (p : Parse α) (f : α → Parse β) : Parse β := fun s =>
  let first := p s
  match first.result with
  | .error failure => ⟨.error failure, first.state, first.events⟩
  | .ok a =>
    let second := f a first.state
    ⟨second.result, second.state, first.events ++ second.events⟩

instance : Monad Parse where
  pure := value
  bind := andThen

/-- Steps that give the same in every state are the same. -/
@[ext] theorem ext {p q : Parse α} (h : ∀ s, p.run s = q.run s) : p = q :=
  funext h

@[simp] theorem run_pure (a : α) (s : State) : (pure a : Parse α).run s = ⟨.ok a, s, []⟩ := rfl

/-- If the first step gives a value, the second one goes on where it stopped. -/
theorem run_bind_of_ok {p : Parse α} {s : State} {a : α} (h : (p.run s).result = .ok a)
    (f : α → Parse β) :
    (p >>= f).run s =
      ⟨((f a).run (p.run s).state).result, ((f a).run (p.run s).state).state,
        (p.run s).events ++ ((f a).run (p.run s).state).events⟩ := by
  change andThen p f s = _
  simp only [andThen, run] at h ⊢
  rw [h]

/-- If the first step fails, the sequence fails in the same way. -/
theorem run_bind_of_error {p : Parse α} {s : State} {failure : Failure}
    (h : (p.run s).result = .error failure) (f : α → Parse β) :
    (p >>= f).run s = ⟨.error failure, (p.run s).state, (p.run s).events⟩ := by
  change andThen p f s = _
  simp only [andThen, run] at h ⊢
  rw [h]

instance : LawfulMonad Parse :=
  LawfulMonad.mk' Parse
    (fun p => by
      ext s
      cases h : (p.run s).result with
      | error failure => exact (run_bind_of_error h _).trans (by rw [← h])
      | ok a =>
        refine (run_bind_of_ok h _).trans ?_
        change (⟨.ok a, (p.run s).state, (p.run s).events ++ []⟩ : Outcome _) = _
        rw [List.append_nil, ← h])
    (fun _ _ => rfl)
    (fun p f g => by
      ext s
      cases h : (p.run s).result with
      | error failure =>
        rw [run_bind_of_error h, run_bind_of_error (by rw [run_bind_of_error h]),
          run_bind_of_error h]
      | ok a =>
        rw [run_bind_of_ok h]
        cases h' : ((f a).run (p.run s).state).result with
        | error failure =>
          rw [run_bind_of_error (by rw [run_bind_of_ok h, h']), run_bind_of_ok h,
            run_bind_of_error h']
        | ok b =>
          rw [run_bind_of_ok (by rw [run_bind_of_ok h, h']), run_bind_of_ok h,
            run_bind_of_ok h']
          simp)

/-- The token under the cursor. -/
def current : Parse Token := fun s =>
  ⟨.ok s.cursor.here, s, []⟩

/-- The kind of the token under the cursor. -/
def kind : Parse TokenKind := do
  return (← current).kind

/-- Where the token under the cursor begins. -/
def position : Parse Position := do
  return (← current).span.start

/-- Fails with a fault at a position. -/
def failAt (position : Position) (fault : Fault) : Parse α := fun s =>
  ⟨.error (.fault ⟨fault, position⟩), s, []⟩

/-- Fails with a fault at the current token. -/
def fail (fault : Fault) : Parse α := do
  failAt (← position) fault

/-- Fails because the grammar goes round in circles. -/
def exhausted : Parse α := fun s =>
  ⟨.error .exhausted, s, []⟩

/-- Tells an event. -/
def tell (event : Event) : Parse Unit := fun s =>
  ⟨.ok (), s, [event]⟩

/-- Moves on to the next token and gives the one that was current.  Nothing moves at an end
mark. -/
def advance : Parse Token := fun s =>
  ⟨.ok s.cursor.here, { s with cursor := s.cursor.advance }, []⟩

/-- Moves on from a token of the given kind.  Another token is a fault, which says what was
expected. -/
def expect (expected : TokenKind) (description : String) : Parse Token := do
  let token ← current
  if token.kind = expected then advance
  else fail (.syntaxError description token.value)

/-- Declares a variable. -/
def declare (name : String) (type : ValueType) : Parse Unit := fun s =>
  ⟨.ok (), { s with symbols := s.symbols.declare name type }, [.declared name type]⟩

/-- The declared variables. -/
def symbols : Parse Symbols := fun s =>
  ⟨.ok s.symbols, s, []⟩

/-- Takes over a result with its events.  A fault is located at the given position. -/
def settle (position : Position) (result : Except Fault α) (events : List Event) : Parse α :=
  fun s => ⟨result.mapError fun fault => .fault ⟨fault, position⟩, s, events⟩

/-- Folds an expression.  A fault is located at the current token. -/
def fold (e : Expr) : Parse Expr := do
  let folded := e.foldTraced
  settle (← position) folded.result folded.events

/-- Checks a value for a type and gives it back as the check leaves it.  A fault is located at the
given position. -/
def checkValue (position : Position) (type : ValueType) (value : Expr) : Parse Expr := do
  let checked := (← symbols).checkValue type value
  settle position (checked.outcome.map fun _ => checked.after) checked.events

/-- Checks a value for a variable and gives it back as the check leaves it.  A fault is located at
the given position. -/
def checkAssignment (position : Position) (name : String) (value : Expr) : Parse Expr := do
  let checked := (← symbols).checkAssignment name value
  settle position (checked.outcome.map fun _ => checked.after) checked.events

@[simp] theorem run_current (s : State) : current.run s = ⟨.ok s.cursor.here, s, []⟩ := rfl

@[simp] theorem run_kind (s : State) : kind.run s = ⟨.ok s.cursor.here.kind, s, []⟩ := rfl

@[simp] theorem run_position (s : State) :
    position.run s = ⟨.ok s.cursor.here.span.start, s, []⟩ := rfl

@[simp] theorem run_advance (s : State) :
    advance.run s = ⟨.ok s.cursor.here, ⟨s.cursor.advance, s.symbols⟩, []⟩ := rfl

@[simp] theorem run_failAt (position : Position) (fault : Fault) (s : State) :
    (failAt position fault : Parse α).run s = ⟨.error (.fault ⟨fault, position⟩), s, []⟩ := rfl

/-- A fault is located at the current token. -/
@[simp] theorem run_fail (fault : Fault) (s : State) :
    (fail fault : Parse α).run s = ⟨.error (.fault ⟨fault, s.cursor.here.span.start⟩), s, []⟩ := rfl

@[simp] theorem run_tell (event : Event) (s : State) : (tell event).run s = ⟨.ok (), s, [event]⟩ :=
  rfl

/-- Moving on from a token asks for its kind and nothing else. -/
theorem run_expect (expected : TokenKind) (description : String) (s : State) :
    (expect expected description).run s =
      if s.cursor.here.kind = expected then
        ⟨.ok s.cursor.here, ⟨s.cursor.advance, s.symbols⟩, []⟩
      else
        ⟨.error (.fault ⟨.syntaxError description s.cursor.here.value,
          s.cursor.here.span.start⟩), s, []⟩ := by
  rw [expect, run_bind_of_ok (congrArg Outcome.result (run_current s)), run_current]
  by_cases h : s.cursor.here.kind = expected
  · simp only [if_pos h]
    rfl
  · simp only [if_neg h]
    rfl

/-- Repeats a step until the current token is of a kind to stop at, at most `fuel` times. -/
def manyWithin (stop : TokenKind → Bool) (step : Parse α) : Nat → Parse (List α)
  | 0 => exhausted
  | fuel + 1 => do
    if stop (← kind) then return []
    let a ← step
    let as ← manyWithin stop step fuel
    return a :: as

/-- Runs a step that may take as many rounds as there are tokens left. -/
def withTokensLeft (step : Nat → Parse α) : Parse α := fun s =>
  step s.cursor.remaining.length s

/-- Repeats a step until the current token is of a kind to stop at.  A step that succeeds reads a
token, so there are no more rounds than tokens. -/
def many (stop : TokenKind → Bool) (step : Parse α) : Parse (List α) :=
  withTokensLeft (manyWithin stop step)

end Parse

end Cascade
