import Lexis.Session
import Mathlib.Data.List.Basic

/-!
# What a call can do

There are many calls and few things that they do.  A call looks, moves the index, sets the mark,
cuts off a token, or fails where a reader has stopped.  Whatever holds of a cursor through any sequence
of calls is shown of these few effects.

* `Call.Effect` — the effects, each with the answer that goes with it.
* **`Call.effect_perform`** — a call has no other effect.
* `Call.Effect.exists_advanceBy` — what they all do to the cursor: it goes forward, if at all, and the
  mark may catch up.
* **`Session.exists_effect_of_mem`** — what the effects preserve holds throughout a session of calls.
-/

namespace Lexis

namespace Call

/-- **What a call at `c` can do**: the answer, and the cursor after it. -/
inductive Effect (c : Cursor) : Except CallError Answer × Cursor → Prop
  /-- A test, which may take the cursor past what it has found. -/
  | flag (b : Bool) (n : Nat) : Effect c (.ok (.flag b), c.advanceBy n)
  | text (t : Text) (n : Nat) : Effect c (.ok (.text t), c.advanceBy n)
  | mark : Effect c (.ok .nothing, c.setMark)
  | token (kind : TokenKind) (n : Nat) :
      Effect c (.ok (.token ((c.advanceBy n).emit kind).1), ((c.advanceBy n).emit kind).2)
  /-- A failure is at the place up to which the cursor has come. -/
  | failure (fault : Fault) (n : Nat) :
      Effect c (.error (.failure ((c.advanceBy n).failure fault)), c.advanceBy n)
  | location : Effect c (.ok (.location c.location), c)
  | diagnostic (code : ErrorCode) (context : Context) :
      Effect c (.ok (.diagnostic (LexicalDiagnostic.ofCode code context c.location)), c)
  | unknown (e : IdError) : Effect c (.error (.identifier e), c)

variable {c : Cursor}

lemma effect_read (c : Cursor) (reader : Reader) : Effect c (ofRead (c.read reader)) := by
  rw [Cursor.read]
  cases reader.scan c.ahead with
  | token kind n => exact .token kind n
  | fault cause n => exact .failure cause n

lemma effect_nextToken (c : Cursor) : Effect c (ofRead c.nextToken) := by
  rw [Cursor.nextToken]
  split_ifs
  · exact .failure .endOfInput 0
  · exact .failure .atWhitespace 0
  · exact effect_read c _

theorem effect_perform (c : Cursor) (call : Call) : Effect c (call.perform c) := by
  cases call with
  | reaches k => exact .flag _ 0
  | look k => exact .text _ 0
  | advance => exact .text _ 1
  | setMark => exact .mark
  | emit kind => exact .token kind 0
  | sees pattern => exact .flag _ 0
  | consume pattern =>
      rw [perform, Cursor.consume]
      split_ifs
      · exact .flag true pattern.length
      · exact .flag false 0
  | location => exact .location
  | nextToken => exact effect_nextToken c
  | read reader => exact effect_read c reader
  | report id context =>
      rw [perform, LexicalDiagnostic.report_eq]
      cases ErrorCode.lookup id with
      | ok code => exact .diagnostic code context
      | error e => exact .unknown e

/-- The cursor goes forward by some units, which may be none, and then the mark may be set. -/
lemma Effect.exists_advanceBy {answer : Except CallError Answer} {c' : Cursor}
    (h : Effect c (answer, c')) : ∃ n, c' = c.advanceBy n ∨ c' = (c.advanceBy n).setMark := by
  cases h with
  | flag b n => exact ⟨n, Or.inl rfl⟩
  | text t n => exact ⟨n, Or.inl rfl⟩
  | mark => exact ⟨0, Or.inr rfl⟩
  | token kind n => exact ⟨n, Or.inr rfl⟩
  | failure fault n => exact ⟨n, Or.inl rfl⟩
  | location => exact ⟨0, Or.inl rfl⟩
  | diagnostic code context => exact ⟨0, Or.inl rfl⟩
  | unknown e => exact ⟨0, Or.inl rfl⟩

end Call

namespace Session

/-- What holds of a cursor and is preserved by every effect holds wherever a session makes a call. -/
theorem exists_effect_of_mem {Inv : Cursor → Prop}
    (hstep : ∀ c answer c', Inv c → Call.Effect c (answer, c') → Inv c') {c : Cursor} (hc : Inv c)
    {calls : List Call} {answer : Except CallError Answer} {c' : Cursor}
    (hmem : (answer, c') ∈ perform c (calls.map .call)) :
    ∃ d, Inv d ∧ Call.Effect d (answer, c') := by
  induction calls generalizing c with
  | nil => cases hmem
  | cons call calls ih =>
      rw [List.map_cons, perform] at hmem
      have heffect : Call.Effect c (call.perform c) := Call.effect_perform c call
      rcases List.mem_cons.1 hmem with hfirst | hlater
      · exact ⟨c, hc, hfirst ▸ heffect⟩
      · exact ih (hstep c _ _ hc heffect) hlater

end Session

end Lexis
