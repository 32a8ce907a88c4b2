import Lexis.Cursor.Read
import Lexis.Diagnostic

/-!
# Sessions

A session is one cursor and a list of steps that are applied to it in turn.  A step is either a call
of one of the cursor's operations or an assignment, which overwrites parts of the cursor with no
check at all.  A step that fails leaves the cursor where it failed, and the session goes on.

Calls are data here, so that what holds of every sequence of calls can be said by induction on a list.
-/

namespace Lexis

/-- The operations that a caller may apply to a cursor. -/
inductive Call
  | reaches (k : Int)
  | look (k : Int)
  | advance
  | setMark
  | emit (kind : TokenKind)
  | sees (pattern : Pattern)
  | consume (pattern : Pattern)
  | location
  | nextToken
  | read (reader : Reader)
  /-- Build a diagnostic at the place where the cursor stands. -/
  | report (id : Text) (context : Context)

/-- What a call that succeeds gives back. -/
inductive Answer
  | nothing
  | flag (b : Bool)
  | text (t : Text)
  | token (token : Token)
  | location (loc : Location)
  | diagnostic (d : LexicalDiagnostic)

/-- Why a call fails: there is no token to read, or no code to report under. -/
inductive CallError
  | failure (f : Failure)
  | identifier (e : IdError)

namespace Call

/-- The answer of a call that reads a token. -/
def ofRead : Except Failure Token × Cursor → Except CallError Answer × Cursor
  | (.ok token, c) => (.ok (.token token), c)
  | (.error f, c) => (.error (.failure f), c)

/-- The answer of a call, and the cursor after it. -/
def perform (c : Cursor) : Call → Except CallError Answer × Cursor
  | reaches k => (.ok (.flag (c.reaches k)), c)
  | look k => (.ok (.text (c.look k)), c)
  | advance => (.ok (.text (c.look 0)), c.advance)
  | setMark => (.ok .nothing, c.setMark)
  | emit kind =>
      let (token, c') := c.emit kind
      (.ok (.token token), c')
  | sees pattern => (.ok (.flag (c.sees pattern)), c)
  | consume pattern =>
      let (matched, c') := c.consume pattern
      (.ok (.flag matched), c')
  | location => (.ok (.location c.location), c)
  | nextToken => ofRead c.nextToken
  | read reader => ofRead (c.read reader)
  | report id context =>
      match LexicalDiagnostic.report id context c.location with
      | .ok d => (.ok (.diagnostic d), c)
      | .error e => (.error (.identifier e), c)

end Call

/-- New values for parts of a cursor. -/
structure Assignment where
  index : Option Int
  mark : Option Int
  line : Option Int
  column : Option Int
deriving DecidableEq, Repr

def Assignment.apply (a : Assignment) (c : Cursor) : Cursor :=
  { c with
    index := a.index.getD c.index
    mark := a.mark.getD c.mark
    line := a.line.getD c.line
    column := a.column.getD c.column }

namespace Session

inductive Step
  | call (call : Call)
  | assign (assignment : Assignment)

/-- The answer of a step, and the cursor after it. -/
def Step.perform (c : Cursor) : Step → Except CallError Answer × Cursor
  | call k => k.perform c
  | assign a => (.ok .nothing, a.apply c)

/-- The answers of all steps in order, each with the cursor after it. -/
def perform (c : Cursor) : List Step → List (Except CallError Answer × Cursor)
  | [] => []
  | step :: steps =>
      let (answer, c') := step.perform c
      (answer, c') :: perform c' steps

end Session

end Lexis
