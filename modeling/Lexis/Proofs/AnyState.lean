import Lexis.Proofs.Agreement
import Lexis.Proofs.Diagnosis

/-!
# Asking for a token anywhere

The positions of a cursor are open to its caller, and nothing checks them.  The index may be behind the
end or in front of the text, and the mark may be anywhere.  In front of the text a cursor even counts as
having something ahead, though there is no unit to look at.  Asking for a token is safe all the same.

* `Cursor.Vacant` — where no token can be.
* `Cursor.Outcome` — the three things that asking can come to.  What goes forward goes forward by at
  least one unit.
* **`Cursor.outcome_nextToken`** — it comes to nothing else, wherever the cursor stands.
* **`Cursor.nextToken_safe`** — what a caller can rely on without having checked anything.
* **`Cursor.length_le_of_isChain_asks`** — hence, whoever keeps asking is refused in the end.

In front of the text there is no unit by which to choose a reader.  The choice falls on the operator reader
there, which takes a unit unseen, and so the cursor moves on.
-/

namespace Lexis

open CodeUnit

/-- What breaks a start is not reported under an identifier other than the six. -/
lemma Breaks.id_ne {start : Text} {next : Option CodeUnit} {cause : Fault}
    (h : Breaks start next cause) {id : String}
    (hid : ∀ id' ∈ lexicalIds, Text.ofString id' ≠ Text.ofString id) :
    cause.code.id ≠ Text.ofString id := by
  obtain ⟨id', hmem, heq⟩ := h.exists_id
  rw [heq]
  exact hid id' hmem

namespace Cursor

variable {c c' : Cursor}

/-! ## What asking comes to -/

/-- No token can be where the text has ended or where whitespace stands. -/
def Vacant (c : Cursor) : Prop :=
  c.source.length ≤ c.index ∨ ∃ u, c.unit? 0 = some u ∧ u.isWhitespace = true

lemma vacant_iff : c.Vacant ↔ c.reaches 0 = false ∨ c.atWhitespace = true := by
  simp [Vacant, reaches, atWhitespace, Option.any_eq_true]

/-- **What asking for a token at `c` can come to**: the answer, and the cursor after it. -/
inductive Outcome (c : Cursor) : Except Failure Token × Cursor → Prop
  /-- There can be no token, and nothing happens. -/
  | refused {cause : Fault} (hvacant : c.Vacant) (hcode : cause.code = .noToken) :
      Outcome c (.error (c.failure cause), c)
  | token (kind : TokenKind) {n : Nat} (hvacant : ¬ c.Vacant) (hn : 0 < n) :
      Outcome c (.ok ((c.advanceBy n).emit kind).1, ((c.advanceBy n).emit kind).2)
  /-- The cursor has gone past the start of a lexeme, and there it breaks off. -/
  | broken {start : Text} {next : Option CodeUnit} {cause : Fault} (hvacant : ¬ c.Vacant)
      (hbreaks : Breaks start next cause) :
      Outcome c (.error ((c.advanceBy start.length).failure cause), c.advanceBy start.length)

/-- **Asking for a token comes to one of three things**, also where index and mark are out of order. -/
theorem outcome_nextToken (c : Cursor) : c.Outcome c.nextToken := by
  rw [nextToken]
  split_ifs with hreach hspace
  · exact .refused (vacant_iff.2 (Or.inl (by simpa using hreach))) rfl
  · exact .refused (vacant_iff.2 (Or.inr hspace)) rfl
  · have hvacant : ¬ c.Vacant := by
      rw [vacant_iff, not_or]
      exact ⟨by simpa using hreach, hspace⟩
    rw [read]
    cases hahead : c.ahead with
    | nil =>
        -- the index is in front of the text, and there is nothing to choose the reader by
        exact .token .operator hvacant Nat.one_pos
    | cons u rest =>
        have hu : u.isWhitespace = false := by
          rw [atWhitespace_of_ahead hahead] at hspace
          simpa using hspace
        have hfinds := finds_scan_dispatch hu rest
        cases hscan : (Reader.dispatch (u :: rest)).scan (u :: rest) with
        | token kind n => exact .token kind hvacant (Reader.token_length_pos hscan)
        | fault cause n =>
            rw [hscan] at hfinds
            obtain ⟨start, rest', -, rfl, hbreaks⟩ := finds_fault_iff.1 hfinds
            exact .broken hvacant hbreaks

/-! ## What a caller can rely on -/

namespace Outcome

variable {result : Except Failure Token × Cursor} {failure : Failure} {token : Token}

lemma noToken_iff (h : c.Outcome result) :
    (∃ failure c', result = (.error failure, c') ∧
      failure.diagnostic.code.id = Text.ofString "IMP-L009") ↔ c.Vacant := by
  cases h with
  | refused hvacant hcode =>
      refine iff_of_true ⟨_, c, rfl, ?_⟩ hvacant
      rw [Failure.code_diagnostic, failure, hcode]
      rfl
  | token kind hvacant _ =>
      refine iff_of_false ?_ hvacant
      rintro ⟨failure, c', heq, -⟩
      cases heq
  | broken hvacant hbreaks =>
      refine iff_of_false ?_ hvacant
      rintro ⟨failure, c', heq, hid⟩
      cases heq
      rw [Failure.code_diagnostic] at hid
      exact hbreaks.id_ne (by decide) hid

/-- Whatever asking comes to where there can be a token, the index goes forward. -/
lemma index_lt (h : c.Outcome result) (hvacant : ¬ c.Vacant) : c.index < result.2.index := by
  cases h with
  | refused hvacant' _ => exact absurd hvacant' hvacant
  | token kind _ hn =>
      simp only [emit, index_setMark, index_advanceBy]
      omega
  | broken _ hbreaks =>
      have hstart := List.length_pos_iff.2 hbreaks.exists_completion.1
      rw [index_advanceBy]
      omega

/-- A failure is reported as what it is.  It is not the fault of having picked the wrong reader, and it
stands where the cursor is. -/
lemma of_failure (h : c.Outcome (.error failure, c')) :
    failure.diagnostic.code.id ≠ Text.ofString "IMP-L006" ∧
    failure.diagnostic.code.id ≠ Text.ofString "IMP-L008" ∧
    (failure.diagnostic.code.id = Text.ofString "IMP-L009" → c' = c) ∧
    (failure.diagnostic.code.id ≠ Text.ofString "IMP-L009" →
      c.index < c'.index ∧ c'.mark = c.mark ∧ failure.diagnostic.location = c'.location) := by
  rw [Failure.code_diagnostic, Failure.location_diagnostic]
  cases h with
  | refused _ hcode =>
      have hid : (c.failure _).fault.code.id = Text.ofString "IMP-L009" :=
        congrArg ErrorCode.id hcode
      rw [hid]
      exact ⟨by decide, by decide, fun _ => rfl, fun h => absurd rfl h⟩
  | broken hvacant hbreaks =>
      refine ⟨hbreaks.id_ne (by decide), hbreaks.id_ne (by decide), ?_, fun _ => ?_⟩
      · intro hid
        exact absurd hid (hbreaks.id_ne (by decide))
      · exact ⟨(Outcome.broken hvacant hbreaks).index_lt hvacant, mark_advanceBy _ c, rfl⟩

lemma of_token (h : c.Outcome (.ok token, c')) :
    c.index < c'.index ∧ c'.mark = c'.index ∧ token.offset = c.mark + c.baseOffset := by
  cases h with
  | token kind hvacant hn =>
      refine ⟨(Outcome.token kind hvacant hn).index_lt hvacant, rfl, ?_⟩
      simp only [emit, mark_advanceBy, baseOffset_advanceBy]

end Outcome

/-- **Asking is safe everywhere.**  Let the index, the mark, the line and the column be any integers.
That there is no token is reported exactly at the end or behind it and where whitespace stands, and then
nothing has changed.  Every failure can be reported, under an identifier of the catalogue, and is not of
the two kinds that come from calling a wrong reader.  With any other failure the index has gone forward,
the mark has not moved, and the failure is where the cursor stands.  With a token the index has gone
forward and the mark has caught up with it, and the token begins where the mark was. -/
theorem nextToken_safe (c : Cursor) :
    ((∃ failure c', c.nextToken = (.error failure, c') ∧
        failure.diagnostic.code.id = Text.ofString "IMP-L009") ↔
      c.source.length ≤ c.index ∨ ∃ u, c.unit? 0 = some u ∧ u.isWhitespace = true) ∧
    (∀ failure c', c.nextToken = (.error failure, c') →
      failure.report = .ok failure.diagnostic ∧
      LexicalDiagnostic.ofId (some failure.diagnostic.code.id) failure.diagnostic.body
        failure.diagnostic.location failure.diagnostic.context = .ok failure.diagnostic ∧
      failure.diagnostic.code.id ≠ Text.ofString "IMP-L006" ∧
      failure.diagnostic.code.id ≠ Text.ofString "IMP-L008" ∧
      (failure.diagnostic.code.id = Text.ofString "IMP-L009" → c' = c) ∧
      (failure.diagnostic.code.id ≠ Text.ofString "IMP-L009" →
        c.index < c'.index ∧ c'.mark = c.mark ∧ failure.diagnostic.location = c'.location)) ∧
    ∀ token c', c.nextToken = (.ok token, c') →
      c.index < c'.index ∧ c'.mark = c'.index ∧ token.offset = c.mark + c.baseOffset := by
  have houtcome := outcome_nextToken c
  refine ⟨houtcome.noToken_iff, ?_, ?_⟩
  · intro failure c' h
    rw [h] at houtcome
    exact ⟨failure.report_eq, LexicalDiagnostic.ofId_id _, houtcome.of_failure⟩
  · intro token c' h
    rw [h] at houtcome
    exact houtcome.of_token

/-- One unit in front of `a`, an operator is read that has no text. -/
example : (⟨[lowerA], 10, -1, -1, 1, 1⟩ : Cursor).nextToken =
    (.ok ⟨.operator, [], 9⟩, ⟨[lowerA], 10, 0, 0, 1, 2⟩) := by decide

/-! ## Asking again -/

/-- A caller asks where there can be a token, and goes on from wherever that leads, also if it is a
failure. -/
def Asks (c c' : Cursor) : Prop := ¬ c.Vacant ∧ c.nextToken.2 = c'

lemma Asks.distance_lt (h : Asks c c') : c'.distance < c.distance := by
  obtain ⟨hvacant, rfl⟩ := h
  have hreach : c.reaches 0 = true := by
    rw [vacant_iff, not_or] at hvacant
    simpa using hvacant.1
  exact Cursor.distance_lt hreach (source_nextToken c) ((outcome_nextToken c).index_lt hvacant)

/-- **Who keeps asking is refused in the end.**  Nobody can ask more often than there are places from the
index up to the end of the text, which may begin in front of the text.  By then nothing is ahead, or
whitespace. -/
theorem length_le_of_isChain_asks {asked : List Cursor} (h : (c :: asked).IsChain Asks) :
    asked.length ≤ c.distance :=
  length_le_of_isChain_of_lt Asks.distance_lt h

end Cursor

end Lexis
