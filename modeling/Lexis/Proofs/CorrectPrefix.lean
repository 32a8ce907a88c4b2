import Lexis.Diagnostic
import Lexis.Proofs.Runs

/-!
# The offset of a failure

A failure names an offset, and this file says what that offset is: the first unit that makes the
text invalid.  Up to it the text can be completed to one that lexes, and with it the text can not.

* `Reads.exists_completion` — in front of the failing unit there is a completion.
* `Reads.lex_of_break` — behind it nothing helps: the same failure arises whatever follows.
* **`lex_failure_offset_exact`** — both, for every text that fails, and the criterion for a text to
  be extensible.
-/

namespace Lexis

open CodeUnit

variable {base : Location} {pre start rest : Text} {tokens : List Token} {cause : Fault}

/-- A start that breaks can be completed, and then all that was read before stands. -/
lemma Reads.exists_completion (h : Reads base pre (start ++ rest) tokens)
    (hbreaks : Breaks start rest.head? cause) :
    ∃ v tokens', lex base (pre ++ start ++ v) = .ok tokens' := by
  obtain ⟨hne, v, kind, hmem⟩ := hbreaks.exists_completion
  obtain ⟨u, t, rfl⟩ := List.exists_cons_of_ne_nil hne
  have hpre : Reads base pre (u :: t ++ v ++ []) tokens := h.congr_head rfl
  have hlexeme := Reads.lexeme hmem (ends_nil kind _) (base.after pre)
  have hall := hpre.trans hlexeme
  rw [← List.append_assoc] at hall
  exact ⟨v, _, hall.lex_eq_ok⟩

/-- With the unit that breaks a start in place, the failure is settled. -/
lemma Reads.lex_of_break {u : CodeUnit} (h : Reads base pre (start ++ rest) tokens)
    (hbreaks : Breaks start (some u) cause) (v : Text) :
    lex base (pre ++ (start ++ u :: v)) = .error ⟨cause, start, base.after (pre ++ start)⟩ := by
  obtain ⟨w, t, rfl, -⟩ := hbreaks.exists_cons
  have hpre : Reads base pre (w :: t ++ u :: v) tokens := h.congr_head rfl
  exact hpre.lex_eq_error hbreaks

/-- Where a failure cuts a text: what stands before the cut can be completed, and with one unit more
the failure keeps its offset whatever follows. -/
lemma exists_cut_of_lex_error {input : Text} {failure : Failure}
    (h : lex base input = .error failure) :
    ∃ p : Nat, failure.diagnostic.offset = base.offset + p ∧ 0 < p ∧ p ≤ input.length ∧
      (∃ v tokens, lex base (input.take p ++ v) = .ok tokens) ∧
      (p < input.length → ∀ v, ∃ failure', lex base (input.take (p + 1) ++ v) = .error failure' ∧
        failure'.diagnostic.offset = failure.diagnostic.offset) := by
  obtain ⟨pre, start, rest, tokens, cause, rfl, hreads, hbreaks, rfl⟩ := lex_eq_error_iff.1 h
  have hpos : 0 < start.length := List.length_pos_iff.2 hbreaks.exists_completion.1
  rw [← List.append_assoc]
  simp only [Failure.offset_diagnostic]
  refine ⟨(pre ++ start).length, Location.offset_after base (pre ++ start), ?_, ?_, ?_, ?_⟩
  · rw [List.length_append]
    omega
  · simp only [List.length_append]
    omega
  · rw [List.take_left]
    exact hreads.exists_completion hbreaks
  · intro hlt v
    have hne : rest ≠ [] := by
      rintro rfl
      simp at hlt
    obtain ⟨u, rest, rfl⟩ := List.exists_cons_of_ne_nil hne
    refine ⟨⟨cause, start, base.after (pre ++ start)⟩, ?_, rfl⟩
    rw [List.take_length_add_append, List.append_assoc, List.append_assoc]
    exact hreads.lex_of_break hbreaks v

/-- **The failure offset is the first unit that makes the text invalid.**  Let `p` be the distance
of a failure from the front of the text.  The first `p` units, of which there is at least one, can be
completed to a text that lexes; the first `p + 1` can not, and whatever follows them the failure has
the same offset.  So a text can be completed exactly if it lexes or fails at its end. -/
theorem lex_failure_offset_exact (base : Location) (input : Text) :
    (∀ failure, lex base input = .error failure →
      ∃ p : Nat, failure.diagnostic.offset = base.offset + p ∧ 0 < p ∧ p ≤ input.length ∧
        (∃ v tokens, lex base (input.take p ++ v) = .ok tokens) ∧
        (p < input.length → ∀ v, ∃ failure', lex base (input.take (p + 1) ++ v) = .error failure' ∧
          failure'.diagnostic.offset = failure.diagnostic.offset)) ∧
    ((∃ v tokens, lex base (input ++ v) = .ok tokens) ↔
      (∃ tokens, lex base input = .ok tokens) ∨
        ∃ failure, lex base input = .error failure ∧
          failure.diagnostic.offset = base.offset + input.length) := by
  refine ⟨fun failure => exists_cut_of_lex_error, ?_, ?_⟩
  · rintro ⟨v, tokens, hok⟩
    cases hlex : lex base input with
    | ok tokens' => exact Or.inl ⟨tokens', rfl⟩
    | error failure =>
        obtain ⟨p, hoffset, -, hle, -, hbroken⟩ := exists_cut_of_lex_error hlex
        refine Or.inr ⟨failure, rfl, ?_⟩
        -- were the failure before the end, its unit would be part of the completed text too
        by_contra hne
        have hlt : p < input.length := by omega
        obtain ⟨failure', herror, -⟩ := hbroken hlt (input.drop (p + 1) ++ v)
        rw [← List.append_assoc, List.take_append_drop, hok] at herror
        cases herror
  · rintro (⟨tokens, h⟩ | ⟨failure, h, hend⟩)
    · exact ⟨[], tokens, by rwa [List.append_nil]⟩
    · obtain ⟨p, hoffset, -, hle, hcompletion, -⟩ := exists_cut_of_lex_error h
      have hp : p = input.length := by omega
      rwa [hp, List.take_length] at hcompletion

/-- At `"a\q` the unit `q` is at fault: `"a\` can be completed, and `"a\q` can not. -/
theorem lex_failure_offset_exact_unknown_escape :
    lex Location.start [doubleQuote, lowerA, backslash, 0x71] =
        .error ⟨.unknownEscape 0x71, [doubleQuote, lowerA, backslash], ⟨1, 4, 3⟩⟩ ∧
      (∃ v tokens, lex Location.start ([doubleQuote, lowerA, backslash] ++ v) = .ok tokens) ∧
      ∀ v, ∃ failure, lex Location.start ([doubleQuote, lowerA, backslash, 0x71] ++ v) =
        .error failure ∧ failure.diagnostic.offset = 3 := by
  have h : lex Location.start [doubleQuote, lowerA, backslash, 0x71] =
      .error ⟨.unknownEscape 0x71, [doubleQuote, lowerA, backslash], ⟨1, 4, 3⟩⟩ := by cbv
  obtain ⟨p, hp, -, -, hcompletion, hbroken⟩ := (lex_failure_offset_exact _ _).1 _ h
  simp only [Failure.offset_diagnostic] at hp hbroken ⊢
  obtain rfl : p = 3 := by
    have hp : (3 : Int) = 0 + p := hp
    omega
  exact ⟨h, hcompletion, hbroken (by decide)⟩

end Lexis
