import Cascade.Parser.Run

/-!
# Sessions

A session holds a grammar and a parsing state, and changes either by one operation at a time.  A
step that fails leaves the session where the step stopped.

## Main definitions

* `Session` : a grammar and a state.
* `Session.perform` : a parsing step in a session.
* `Session.edit`, `Session.load` : changes of the grammar.
-/

namespace Cascade

/-- A grammar and what it has read so far. -/
structure Session where
  /-- The grammar, which can change between the steps. -/
  grammar : Grammar
  /-- The state, which every step hands on to the next. -/
  state : State

namespace Session

/-- A session at the first of some tokens. -/
def ofTokens (grammar : Grammar) (tokens : List Token) (file : String) : Session :=
  ⟨grammar, State.ofTokens tokens file⟩

/-- The session after an edit of the grammar. -/
def edit (s : Session) (e : Edit) : Session :=
  { s with grammar := s.grammar.edit e }

/-- The session with a dialect added to the grammar. -/
def load (s : Session) (d : Dialect) : Session :=
  { s with grammar := s.grammar.load d }

/-- What a step gives in a session, and the session afterwards. -/
def perform {α : Type} (s : Session) (step : Grammar → Parse α) : Outcome α × Session :=
  let outcome := (step s.grammar).run s.state
  (outcome, { s with state := outcome.state })

/-- The token under the cursor. -/
def current (s : Session) : Token :=
  s.state.cursor.here

/-- Whether there is a token in front of the end mark. -/
def hasTokens (s : Session) : Bool :=
  s.current.kind ≠ .eof

/-- The production that a statement starts from. -/
def root (s : Session) : Except Report Production :=
  match s.grammar.root? with
  | some p => .ok p
  | none => .error ⟨.noRootProduction, s.current.span.start⟩

end Session

end Cascade
