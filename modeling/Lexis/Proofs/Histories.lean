import Lexis.Proofs.CursorFront
import Lexis.Proofs.Effects
import Lexis.Proofs.Matching

/-!
# Index and mark through a session

Nothing checks the two positions of a cursor.  `Cursor.advance` counts on behind the end of the text, and
a reader that fails leaves the index in the middle of a literal.  They stay in order all the same: the
mark does not overtake the index, and both only go forward.  The end of the text is a bound for them
too, as long as the caller asks for a unit before making one of the two calls that take one unseen.

* `Session.Event`, `Session.events` — the calls of a session, each with the cursor at which it is made.
* `Session.inv_of_mem_events` — what every call preserves holds before and after each of them.
* `Cursor.Ordered` — the order of the positions, preserved by all that calls do.
* `Call.Effect.of_token`, `Call.Effect.of_failure` — where tokens and failures leave index and mark.
* `Call.index_perform_le` — no call goes behind the end unless it takes a unit unseen.
* **`Session.positions_ordered`** — all of this, for every session.
-/

namespace Lexis

open CodeUnit

namespace Session

/-! ## Sessions call by call -/

/-- One call of a session, and the cursor at which it is made. -/
structure Event where
  before : Cursor
  call : Call

namespace Event

def answer (e : Event) : Except CallError Answer := (e.call.perform e.before).1

/-- The cursor that the call leaves. -/
def after (e : Event) : Cursor := (e.call.perform e.before).2

lemma effect (e : Event) : Call.Effect e.before (e.answer, e.after) :=
  Call.effect_perform e.before e.call

end Event

/-- The calls of a session in order, each at the cursor that the one before it leaves. -/
def events (c : Cursor) : List Call → List Event
  | [] => []
  | call :: calls => ⟨c, call⟩ :: events (call.perform c).2 calls

/-- What `perform` answers are the answers of the events. -/
theorem map_events (c : Cursor) (calls : List Call) :
    (events c calls).map (fun e => (e.answer, e.after)) = perform c (calls.map .call) := by
  induction calls generalizing c with
  | nil => rfl
  | cons call calls ih =>
      rw [events, List.map_cons, ih]
      rfl

/-- What every call preserves that is `Allowed` holds before and after each of them. -/
theorem inv_of_mem_events (Inv : Cursor → Prop) (Allowed : Event → Prop)
    (hstep : ∀ e, Inv e.before → Allowed e → Inv e.after) {c : Cursor} (hc : Inv c)
    {calls : List Call} (hall : ∀ e ∈ events c calls, Allowed e) :
    ∀ e ∈ events c calls, Inv e.before ∧ Inv e.after := by
  induction calls generalizing c with
  | nil =>
      intro e he
      cases he
  | cons call calls ih =>
      obtain ⟨hfirst, hlater⟩ := List.forall_mem_cons.1 hall
      have hnext : Inv (Event.after ⟨c, call⟩) := hstep ⟨c, call⟩ hc hfirst
      exact List.forall_mem_cons.2 ⟨⟨hc, hnext⟩, ih hnext hlater⟩

end Session

/-! ## What every call does to index and mark -/

namespace Call.Effect

variable {c c' : Cursor} {answer : Except CallError Answer}

/-- The index does not go back. -/
lemma index_le (h : Effect c (answer, c')) : c.index ≤ c'.index := by
  have hforward (n : Nat) : c.index ≤ (c.advanceBy n).index := by
    rw [Cursor.index_advanceBy]
    omega
  obtain ⟨n, rfl | rfl⟩ := h.exists_advanceBy
  · exact hforward n
  · exact hforward n

/-- A token is the text between the mark and the index, and the mark goes up to the index. -/
lemma of_token {token : Token} (h : Effect c (.ok (.token token), c')) :
    token.lexeme = c.source.slice c.mark c'.mark ∧ token.offset = c.mark + c.baseOffset ∧
      c'.mark = c'.index := by
  cases h with
  | token kind n =>
      simp [Cursor.emit, Cursor.pending, Cursor.setMark]

/-- A failure leaves the mark alone, and the index where it is reported. -/
lemma of_failure {failure : Failure} (h : Effect c (.error (.failure failure), c')) :
    c'.mark = c.mark ∧ failure.diagnostic.offset = c'.index + c'.baseOffset := by
  cases h with
  | failure fault n => exact ⟨Cursor.mark_advanceBy n c, Failure.offset_diagnostic _⟩

end Call.Effect

namespace Cursor

/-- A cursor in `source` whose mark is not behind the front of the text and not ahead of the index. -/
structure Ordered (source : Text) (base : Location) (c : Cursor) : Prop where
  source_eq : c.source = source
  baseOffset_eq : c.baseOffset = base.offset
  mark_nonneg : 0 ≤ c.mark
  mark_le_index : c.mark ≤ c.index

namespace Ordered

variable {source : Text} {base : Location} {c c' : Cursor} {answer : Except CallError Answer}

lemma start (source : Text) (base : Location) : (Cursor.start source base).Ordered source base :=
  ⟨rfl, rfl, Int.le_refl 0, Int.le_refl 0⟩

lemma index_nonneg (h : c.Ordered source base) : 0 ≤ c.index :=
  Int.le_trans h.mark_nonneg h.mark_le_index

lemma advanceBy (h : c.Ordered source base) (n : Nat) : (c.advanceBy n).Ordered source base where
  source_eq := (source_advanceBy n c).trans h.source_eq
  baseOffset_eq := (baseOffset_advanceBy n c).trans h.baseOffset_eq
  mark_nonneg := by
    rw [mark_advanceBy]
    exact h.mark_nonneg
  mark_le_index := by
    have horder := h.mark_le_index
    rw [mark_advanceBy, index_advanceBy]
    omega

lemma setMark (h : c.Ordered source base) : c.setMark.Ordered source base :=
  ⟨h.source_eq, h.baseOffset_eq, h.index_nonneg, Int.le_refl _⟩

/-- Whatever a call does, the cursor is in order afterwards. -/
theorem effect (h : c.Ordered source base) (heffect : Call.Effect c (answer, c')) :
    c'.Ordered source base := by
  obtain ⟨n, rfl | rfl⟩ := heffect.exists_advanceBy
  · exact h.advanceBy n
  · exact (h.advanceBy n).setMark

/-- The mark does not go back either, since the index is not behind it. -/
lemma mark_le (h : c.Ordered source base) (heffect : Call.Effect c (answer, c')) :
    c.mark ≤ c'.mark := by
  obtain ⟨n, rfl | rfl⟩ := heffect.exists_advanceBy
  · exact Int.le_of_eq (mark_advanceBy n c).symm
  · exact Int.le_trans h.mark_le_index heffect.index_le

end Ordered

/-! ## The end of the text -/

variable {c : Cursor}

/-- What a pattern matches lies in front of the end. -/
lemma index_add_length_le_of_sees {pattern : Pattern} (hend : c.index ≤ c.source.length)
    (h : c.sees pattern = true) : c.index + pattern.length ≤ c.source.length := by
  cases hlength : pattern.length with
  | zero => simpa using hend
  | succ n =>
      -- the last place has found a unit
      have hplace : pattern[n]? = some pattern[n] := List.getElem?_eq_getElem (by omega)
      obtain ⟨test, -, hlast, -⟩ := sees_iff.1 h n _ hplace
      omega

lemma index_consume_le (hend : c.index ≤ c.source.length) (pattern : Pattern) :
    (c.consume pattern).2.index ≤ c.source.length := by
  rw [consume]
  split_ifs with hsees
  · rw [index_advanceBy]
    exact index_add_length_le_of_sees hend hsees
  · exact hend

/-- A read takes the index as far as its reader goes. -/
lemma index_read (c : Cursor) (reader : Reader) :
    (c.read reader).2.index = c.index + (reader.scan c.ahead).length := by
  rw [read]
  cases reader.scan c.ahead <;> exact index_advanceBy _ c

/-- Who sees a unit before calling the operator reader has something for every reader. -/
lemma ne_operator_or_ahead_ne_nil (hstart : 0 ≤ c.index) {reader : Reader}
    (hreader : reader = .operator → c.reaches 0 = true) : reader ≠ .operator ∨ c.ahead ≠ [] := by
  by_cases hoperator : reader = .operator
  · obtain ⟨u, rest, hahead⟩ := exists_ahead_of_reaches hstart (hreader hoperator)
    exact Or.inr (by simp [hahead])
  · exact Or.inl hoperator

lemma index_read_le (hstart : 0 ≤ c.index) (hend : c.index ≤ c.source.length) {reader : Reader}
    (hreader : reader = .operator → c.reaches 0 = true) :
    (c.read reader).2.index ≤ c.source.length := by
  have hscan : (reader.scan c.ahead).length ≤ c.ahead.length :=
    Reader.length_scan_le reader c.ahead (ne_operator_or_ahead_ne_nil hstart hreader)
  have hahead : c.ahead.length = c.source.length - c.index.toNat := by
    rw [ahead_of_nonneg hstart, List.length_drop]
  rw [index_read]
  omega

lemma index_nextToken_le (hstart : 0 ≤ c.index) (hend : c.index ≤ c.source.length) :
    c.nextToken.2.index ≤ c.source.length := by
  rw [nextToken]
  split_ifs with hreach hgap
  · exact hend
  · exact hend
  · exact index_read_le hstart hend fun _ => by simpa using hreach

end Cursor

namespace Call

/-- The calls that go past a unit without having seen that there is one. -/
def takesUnseen : Call → Bool
  | advance => true
  | read .operator => true
  | _ => false

lemma snd_ofRead (r : Except Failure Token × Cursor) : (ofRead r).2 = r.2 := by
  rcases r with ⟨_ | _, c⟩ <;> rfl

lemma index_perform_le {c : Cursor} (hstart : 0 ≤ c.index) (hend : c.index ≤ c.source.length)
    {call : Call} (hseen : call.takesUnseen = true → c.reaches 0 = true) :
    (call.perform c).2.index ≤ c.source.length := by
  cases call with
  | reaches k => exact hend
  | look k => exact hend
  | advance =>
      have hreach : c.index + 0 < c.source.length := by simpa [Cursor.reaches] using hseen rfl
      rw [perform, Cursor.index_advance]
      omega
  | setMark => exact hend
  | emit kind => exact hend
  | sees pattern => exact hend
  | consume pattern => exact Cursor.index_consume_le hend pattern
  | location => exact hend
  | nextToken =>
      rw [perform, snd_ofRead]
      exact Cursor.index_nextToken_le hstart hend
  | read reader =>
      rw [perform, snd_ofRead]
      refine Cursor.index_read_le hstart hend ?_
      rintro rfl
      exact hseen rfl
  | report id context =>
      rw [perform]
      cases LexicalDiagnostic.report id context c.location <;> exact hend

end Call

namespace Session

variable {source : Text} {base : Location} {calls : List Call}

/-- A caller is careful who asks whether there is a unit before taking one unseen. -/
def Careful (c : Cursor) (calls : List Call) : Prop :=
  ∀ e ∈ events c calls, e.call.takesUnseen = true → e.before.reaches 0 = true

/-- In a session of a careful caller, the cursor is in order and inside the text. -/
lemma Careful.inv_of_mem (h : Careful (Cursor.start source base) calls) :
    ∀ e ∈ events (Cursor.start source base) calls,
      (e.before.Ordered source base ∧ e.before.index ≤ source.length) ∧
        e.after.Ordered source base ∧ e.after.index ≤ source.length := by
  refine inv_of_mem_events (fun c => c.Ordered source base ∧ c.index ≤ source.length)
    (fun e => e.call.takesUnseen = true → e.before.reaches 0 = true) ?_ ?_ h
  · rintro e ⟨hordered, hend⟩ hseen
    refine ⟨hordered.effect e.effect, ?_⟩
    rw [← hordered.source_eq] at hend ⊢
    exact Call.index_perform_le hordered.index_nonneg hend hseen
  · exact ⟨.start source base, Int.natCast_nonneg _⟩

/-- **Index and mark stay in order.**  From the front of a text, let any calls be made, some of which may
fail, by a caller who takes no unit unseen behind the end.  At every moment the mark is at the front or
behind it, the index at the mark or behind it, and the end at the index or behind it.  No call takes the
index or the mark back.  A call that answers a token leaves the mark at the index.  A call that fails
leaves the mark where it was, and the index at the offset of the failure. -/
theorem positions_ordered (source : Text) (base : Location) (calls : List Call)
    (hcareful : Careful (Cursor.start source base) calls) :
    (∀ c ∈ Cursor.start source base ::
        (perform (Cursor.start source base) (calls.map .call)).map Prod.snd,
      0 ≤ c.mark ∧ c.mark ≤ c.index ∧ c.index ≤ source.length) ∧
    ∀ e ∈ events (Cursor.start source base) calls,
      e.before.index ≤ e.after.index ∧ e.before.mark ≤ e.after.mark ∧
      (∀ token, e.answer = .ok (.token token) → e.after.mark = e.after.index) ∧
      ∀ failure, e.answer = .error (.failure failure) →
        e.after.mark = e.before.mark ∧
          e.after.index = failure.diagnostic.offset - base.offset := by
  have hinv := hcareful.inv_of_mem
  constructor
  · rw [← map_events, List.map_map, List.forall_mem_cons, List.forall_mem_map]
    refine ⟨⟨Int.le_refl 0, Int.le_refl 0, Int.natCast_nonneg _⟩, ?_⟩
    intro e he
    obtain ⟨-, hordered, hend⟩ := hinv e he
    exact ⟨hordered.mark_nonneg, hordered.mark_le_index, hend⟩
  · intro e he
    obtain ⟨⟨hordered, -⟩, hordered', -⟩ := hinv e he
    have heffect := e.effect
    refine ⟨heffect.index_le, hordered.mark_le heffect, ?_, ?_⟩
    · intro token htoken
      rw [htoken] at heffect
      exact heffect.of_token.2.2
    · intro failure hfailure
      rw [hfailure] at heffect
      obtain ⟨hmark, hoffset⟩ := heffect.of_failure
      rw [hordered'.baseOffset_eq] at hoffset
      exact ⟨hmark, by omega⟩

/-- The string `"\q` breaks at `q`.  The caller sees a unit there, takes it, and has the three units cut
off as a string.  At the end, no token is left to read. -/
theorem positions_ordered_unknown_escape :
    let source := [doubleQuote, backslash, 0x71]
    let calls : List Call := [.read .string, .advance, .emit .string, .nextToken]
    Careful (Cursor.start source ⟨3, 7, 10⟩) calls ∧
      perform (Cursor.start source ⟨3, 7, 10⟩) (calls.map .call) =
        [(.error (.failure ⟨.unknownEscape 0x71, [doubleQuote, backslash], ⟨3, 9, 12⟩⟩),
            ⟨source, 10, 2, 0, 3, 9⟩),
          (.ok (.text [0x71]), ⟨source, 10, 3, 0, 3, 10⟩),
          (.ok (.token ⟨.string, source, 10⟩), ⟨source, 10, 3, 3, 3, 10⟩),
          (.error (.failure ⟨.endOfInput, [], ⟨3, 10, 13⟩⟩), ⟨source, 10, 3, 3, 3, 10⟩)] ∧
      ∀ e ∈ events (Cursor.start source ⟨3, 7, 10⟩) calls,
        e.before.index ≤ e.after.index ∧ e.before.mark ≤ e.after.mark ∧
        (∀ token, e.answer = .ok (.token token) → e.after.mark = e.after.index) ∧
        ∀ failure, e.answer = .error (.failure failure) →
          e.after.mark = e.before.mark ∧ e.after.index = failure.diagnostic.offset - 10 := by
  intro source calls
  have hcareful : Careful (Cursor.start source ⟨3, 7, 10⟩) calls := by
    unfold Careful
    decide
  refine ⟨hcareful, rfl, (positions_ordered source ⟨3, 7, 10⟩ calls hcareful).2⟩

end Session

end Lexis
