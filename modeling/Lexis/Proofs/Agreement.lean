import Lexis.Diagnostic
import Lexis.Proofs.Answers

/-!
# Lexing at once and token by token

A text can be handed to `lex`, or a caller can keep a cursor and go over it turn by turn, as `Cursor.run`
does.  The two are loops of different shape.  One goes down the text, which gets shorter; the other moves
an index, asks a pattern whether there is whitespace, and has an end test of its own.  They find the same
tokens and stop at the same failure.  A third loop, `Cursor.drain`, moves an index too but answers at once
as `lex` does.  It is compared with both in `Lexis.Proofs.Draining`.

* `Cursor.Turn.distance_lt` — each turn brings the cursor nearer to the end of the text.
* `Cursor.length_le_of_isChain` — hence nobody can take more turns than there are units left.
* `Cursor.exists_stop` — a run takes turns until the text ends or a token cannot be read.
* `Cursor.run_of_reads` — what can be read to its end takes a run to the end of the text.
* `Breaks.code_ne_noToken` — a failure is never that there was no token to read.
* **`Cursor.lex_agrees_with_run`** — `lex` and a run, from the front of a text.
-/

namespace Lexis

open CodeUnit

/-- No start that breaks is reported as the absence of a token. -/
lemma Breaks.code_ne_noToken {start : Text} {next : Option CodeUnit} {cause : Fault}
    (h : Breaks start next cause) : cause.code ≠ .noToken := by
  cases h <;> exact fun hcode => ErrorCode.noConfusion hcode

namespace Cursor

variable {c c' : Cursor} {base : Location} {t : Text} {tokens : List Token}

/-! ## A run stops -/

lemma Turn.distance_lt (h : Turn c c') : c'.distance < c.distance := by
  cases h with
  | skip hblank => exact distance_lt_of_consume_blank hblank
  | token htoken => exact distance_lt_of_nextToken htoken

/-- Who only ever comes nearer to the end can do so once for each unit that is left. -/
lemma length_le_of_isChain_of_lt {R : Cursor → Cursor → Prop}
    (hR : ∀ {c c' : Cursor}, R c c' → c'.distance < c.distance) {steps : List Cursor}
    (h : (c :: steps).IsChain R) : steps.length ≤ c.distance := by
  induction steps generalizing c with
  | nil => exact Nat.zero_le _
  | cons c' steps ih =>
      obtain ⟨hstep, hrest⟩ := List.isChain_cons_cons.1 h
      exact Nat.succ_le_of_lt (Nat.lt_of_le_of_lt (ih hrest) (hR hstep))

/-- **Nobody takes more turns than there are units left.** -/
theorem length_le_of_isChain {turns : List Cursor} (h : (c :: turns).IsChain Turn) :
    turns.length ≤ c.distance :=
  length_le_of_isChain_of_lt Turn.distance_lt h

/-- A run takes turns up to a cursor at which it stops, since nothing is left there or since reading a
token fails. -/
theorem exists_stop (c : Cursor) :
    ∃ d, Relation.ReflTransGen Turn c d ∧
      (d.reaches 0 = false ∧ c.run.2 = d ∨ ∃ failure, d.nextToken = (.error failure, c.run.2)) := by
  fun_induction run c with
  | case1 c _ _ token c' htoken steps last hrun ih =>
      obtain ⟨d, hturns, hstop⟩ := ih
      rw [hrun] at hstop
      have hfirst : Relation.ReflTransGen Turn c c' :=
        Relation.ReflTransGen.tail (turns_skipWhitespace c) (Turn.token htoken)
      exact ⟨d, hfirst.trans hturns, hstop⟩
  | case2 c _ _ failure c' hfailure =>
      exact ⟨c.skipWhitespace, turns_skipWhitespace c, Or.inr ⟨failure, hfailure⟩⟩
  | case3 c _ hreach =>
      exact ⟨c.skipWhitespace, turns_skipWhitespace c, Or.inl ⟨by simpa using hreach, rfl⟩⟩

/-! ## A run and `lex` -/

/-- What can be read to its end takes a run to the end of the text, with nothing pending. -/
lemma run_of_reads (h : Reads base t [] tokens) :
    (start t base).run.2.index = t.length ∧ (start t base).run.2.mark = t.length := by
  have hstart : Between base [] (t ++ []) (start t base) := by
    rw [List.append_nil]
    exact between_start t base
  obtain ⟨steps, c', hbetween, -, hrun⟩ := hstart.exists_run_of_reads h
  rw [hrun, hbetween.run_of_nil]
  exact ⟨hbetween.index_eq, hbetween.mark_eq⟩

/-- The failure that a run answers is that of `lex`. -/
lemma error_mem_answers_iff {failure : Failure} :
    .error failure ∈ (start t base).answers ↔ lex base t = .error failure := by
  cases hlex : lex base t with
  | ok tokens =>
      rw [answers_of_lex_eq_ok hlex]
      simp
  | error failure' =>
      obtain ⟨tokens, hanswers⟩ := exists_answers_of_lex_eq_error hlex
      rw [hanswers]
      simp [eq_comm]

lemma lex_eq_ok_iff_answers :
    lex base t = .ok tokens ↔ (start t base).answers = tokens.map .ok := by
  refine ⟨answers_of_lex_eq_ok, fun hanswers => ?_⟩
  cases hlex : lex base t with
  | ok tokens' =>
      rw [answers_of_lex_eq_ok hlex] at hanswers
      rw [List.map_injective_iff.2 (fun _ _ => Except.ok.inj) hanswers]
  | error failure =>
      have hfailure := error_mem_answers_iff.2 hlex
      rw [hanswers] at hfailure
      simp at hfailure

lemma lex_eq_error_iff_answers {failure : Failure} :
    lex base t = .error failure ↔
      ∃ tokens : List Token, (start t base).answers = tokens.map .ok ++ [.error failure] := by
  refine ⟨exists_answers_of_lex_eq_error, fun ⟨tokens, hanswers⟩ => ?_⟩
  rw [← error_mem_answers_iff, hanswers]
  simp

/-- **`lex` and a run agree.**  From the front of a text, nobody can take more turns than the text has
units, and a run takes turns until nothing is left or until reading a token fails.  The text lexes to
tokens exactly if the run answers these tokens and nothing else, and then the run ends at the end of the
text with nothing pending.  The text fails exactly if the run answers tokens and then a failure, and it
is the same failure with the same diagnostic.  It never says that there was no token to read. -/
theorem lex_agrees_with_run (base : Location) (t : Text) :
    (∀ turns, (start t base :: turns).IsChain Turn → turns.length ≤ t.length) ∧
    (∃ d, Relation.ReflTransGen Turn (start t base) d ∧
      (d.reaches 0 = false ∧ (start t base).run.2 = d ∨
        ∃ failure, d.nextToken = (.error failure, (start t base).run.2))) ∧
    (∀ tokens, lex base t = .ok tokens ↔ (start t base).answers = tokens.map .ok) ∧
    (∀ tokens, lex base t = .ok tokens →
      (start t base).run.2.index = t.length ∧ (start t base).run.2.mark = t.length) ∧
    (∀ failure, lex base t = .error failure ↔
      ∃ tokens : List Token, (start t base).answers = tokens.map .ok ++ [.error failure]) ∧
    ∀ failure, .error failure ∈ (start t base).answers → failure.diagnostic.code ≠ .noToken := by
  refine ⟨?_, exists_stop _, fun _ => lex_eq_ok_iff_answers, ?_, fun _ => lex_eq_error_iff_answers, ?_⟩
  · intro turns hchain
    have hlength := length_le_of_isChain hchain
    have hdistance : (start t base).distance = t.length := by
      simp [distance, start]
    rwa [hdistance] at hlength
  · intro tokens hlex
    exact run_of_reads (lex_eq_ok_iff.1 hlex)
  · intro failure hfailure
    obtain ⟨_, _, _, _, cause, -, -, hbreaks, rfl⟩ :=
      lex_eq_error_iff.1 (error_mem_answers_iff.1 hfailure)
    rw [Failure.code_diagnostic]
    exact hbreaks.code_ne_noToken

/-- Behind the name `a` stand a space and a number that breaks off at its dot.  The run has the name, and
then the failure of `lex`. -/
theorem lex_agrees_with_run_trailing_dot :
    let t := [lowerA, space, 0x31, dot]
    let failure : Failure := ⟨.missingFraction, [0x31, dot], ⟨1, 5, 4⟩⟩
    lex Location.start t = .error failure ∧
      (∃ tokens : List Token,
        (start t Location.start).answers = tokens.map .ok ++ [.error failure]) ∧
      failure.diagnostic.code ≠ .noToken ∧
      lex Location.start [lowerA, space] = .ok [⟨.identifier, [lowerA], 0⟩] ∧
      (start [lowerA, space] Location.start).answers = [.ok ⟨.identifier, [lowerA], 0⟩] ∧
      (start [lowerA, space] Location.start).run.2.index = 2 := by
  intro t failure
  have herror : lex Location.start t = .error failure := by cbv
  have hok : lex Location.start [lowerA, space] = .ok [⟨.identifier, [lowerA], 0⟩] := by cbv
  obtain ⟨-, -, -, -, hfailure, hcode⟩ := lex_agrees_with_run Location.start t
  obtain ⟨-, -, htokens, hend, -, -⟩ := lex_agrees_with_run Location.start [lowerA, space]
  obtain ⟨tokens, hanswers⟩ := (hfailure failure).1 herror
  refine ⟨herror, ⟨tokens, hanswers⟩, hcode failure ?_, hok, (htokens _).1 hok, (hend _ hok).1⟩
  rw [hanswers]
  simp

end Cursor

end Lexis
