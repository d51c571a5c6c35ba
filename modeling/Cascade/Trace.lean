import Cascade.Grammar.Production
import Cascade.Token.Basic
import Cascade.Tree.Outline

/-!
# Events

What happens while a program is read is told as a row of events.  Events are results like any
other: a computation that has some returns them, and nothing ever reads them back.

## Main definitions

* `Event` : an event, with its level and its text.
* `Traced` : a computation that may fail and tells its events either way.

## Main results

* `Traced.result_bind` : the result of a sequence does not depend on the events.
-/

namespace Cascade

/-- Something that happened. -/
inductive Event where
  /-- A production was entered at a token. -/
  | entered (production : Production) (token : Token)
  /-- An operation on two numbers was carried out. -/
  | folded (left : Float) (operator : String) (right : Float) (value : Expr)
  /-- A variable was declared. -/
  | declared (name : String) (type : ValueType)

namespace Event

/-- How important an event is. -/
def level : Event → String
  | entered _ _ | folded _ _ _ _ => "TRACE"
  | declared _ _ => "DEBUG"

/-- The text of an event. -/
def text : Event → String
  | entered production token => production.name ++ " at " ++ token.describe
  | folded left operator right value =>
    "folded " ++ Decimal.numberText left ++ " " ++ operator ++ " " ++ Decimal.numberText right ++
      " into " ++ value.outline 0
  | declared name type => "declared " ++ name ++ ": " ++ type.name

/-- An event as one line. -/
def line (e : Event) : String :=
  e.level ++ " " ++ e.text

end Event

/-- A value or a fault, and the events on the way to it. -/
structure Traced (α : Type) where
  /-- The value, or the fault that ended the computation. -/
  result : Except Fault α
  /-- What happened, in order. -/
  events : List Event

namespace Traced

variable {α β : Type}

/-- A value that was reached without an event. -/
def ok (a : α) : Traced α :=
  ⟨.ok a, []⟩

/-- A fault that was reached without an event. -/
def fail (fault : Fault) : Traced α :=
  ⟨.error fault, []⟩

/-- One computation after another.  The second one is not reached if the first one fails. -/
def andThen (t : Traced α) (f : α → Traced β) : Traced β :=
  match t.result with
  | .error fault => ⟨.error fault, t.events⟩
  | .ok a => ⟨(f a).result, t.events ++ (f a).events⟩

instance : Monad Traced where
  pure := ok
  bind := andThen

@[simp] theorem result_pure (a : α) : (pure a : Traced α).result = .ok a := rfl

@[simp] theorem result_ok (a : α) : (ok a).result = .ok a := rfl

@[simp] theorem result_fail (fault : Fault) : (fail fault : Traced α).result = .error fault := rfl

/-- The result of a sequence is the sequence of the results. -/
@[simp] theorem result_bind (t : Traced α) (f : α → Traced β) :
    (t >>= f).result = t.result >>= fun a => (f a).result := by
  obtain ⟨result, events⟩ := t
  cases result <;> rfl

end Traced

end Cascade
