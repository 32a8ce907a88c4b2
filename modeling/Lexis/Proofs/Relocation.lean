import Lexis.Diagnostic
import Lexis.Proofs.Runs

/-!
# Moving a text to another place

A caller who lexes a piece of a document says where the piece begins.  That changes where things
are and nothing else.  Lines and offsets are shifted throughout, but columns only on the first line:
from the first line feed on they are counted from the line feed, wherever the text began.

* `Location.relocate` — a location of a text that stands alone, seen in a document.
* `Location.relocate_step`, `Location.relocate_after` — reading on and moving may be exchanged.
* `Reads.relocate` — what has been read stays read when the text is moved.
* **`lex_relocate`** — what `lex` answers about a text that has been moved.

Both shifts of a token's offset and of a failure's location are the shift of the one location that
travels along with `Reads`, so they cannot drift apart.
-/

namespace Lexis

open CodeUnit

/-! ## Locations -/

namespace Location

/-- Where `loc`, a location of a text that stands alone, is in a document in which the text begins
at `base`. -/
def relocate (base loc : Location) : Location where
  line := loc.line + base.line - 1
  column := if loc.line = 1 then loc.column + base.column - 1 else loc.column
  offset := loc.offset + base.offset

lemma relocate_start (base : Location) : base.relocate start = base := by
  obtain ⟨line, column, offset⟩ := base
  simp only [relocate, start, if_true, mk.injEq]
  omega

lemma le_line_step (loc : Location) (u : CodeUnit) : loc.line ≤ (loc.step u).line := by
  unfold step
  split
  · exact Int.le_of_lt (Int.lt_succ loc.line)
  · exact Int.le_refl _

lemma le_line_after (loc : Location) (t : Text) : loc.line ≤ (loc.after t).line := by
  induction t generalizing loc with
  | nil => exact Int.le_refl _
  | cons u t ih => exact (le_line_step loc u).trans (ih (loc.step u))

/-- A line feed ends the shift of the columns, and any other unit keeps it.  In front of the first
line this would not do: a line feed could then lead to line one. -/
lemma relocate_step (base : Location) {loc : Location} (h : 1 ≤ loc.line) (u : CodeUnit) :
    (base.relocate loc).step u = base.relocate (loc.step u) := by
  by_cases hu : u = lineFeed
  · have hline : loc.line + 1 ≠ 1 := by omega
    simp only [step, relocate, if_pos hu, if_neg hline, mk.injEq, true_and]
    omega
  · by_cases hline : loc.line = 1
    · simp only [step, relocate, if_neg hu, if_pos hline, mk.injEq, true_and]
      omega
    · simp only [step, relocate, if_neg hu, if_neg hline, mk.injEq, true_and]
      omega

theorem relocate_after (base : Location) {loc : Location} (h : 1 ≤ loc.line) (t : Text) :
    (base.relocate loc).after t = base.relocate (loc.after t) := by
  induction t generalizing loc with
  | nil => rfl
  | cons u t ih =>
      rw [after_cons, after_cons, relocate_step base h u]
      exact ih (h.trans (le_line_step loc u))

end Location

/-! ## Runs -/

/-- A token of a text that stands alone, in a document in which the text begins at `base`. -/
def Token.relocate (base : Location) (token : Token) : Token :=
  { token with offset := token.offset + base.offset }

/-- **What has been read stays read**, and its tokens move along with the text. -/
theorem Reads.relocate (base : Location) {loc : Location} {pre rest : Text} {tokens : List Token}
    (h : Reads loc pre rest tokens) (hloc : 1 ≤ loc.line) :
    Reads (base.relocate loc) pre rest (tokens.map (Token.relocate base)) := by
  induction h with
  | done loc rest => exact Reads.done (base.relocate loc) rest
  | @gap loc u pre rest tokens hu _ ih =>
      have hread := ih (hloc.trans (loc.le_line_step u))
      rw [← Location.relocate_step base hloc] at hread
      exact Reads.gap hu hread
  | @token loc kind l pre rest tokens hl hend _ ih =>
      have hread := ih (hloc.trans (loc.le_line_after l))
      rw [← Location.relocate_after base hloc] at hread
      exact Reads.token hl hend hread

/-- The front of a text stands at the base. -/
lemma Reads.relocate_start (base : Location) {pre rest : Text} {tokens : List Token}
    (h : Reads Location.start pre rest tokens) :
    Reads base pre rest (tokens.map (Token.relocate base)) := by
  have hread := h.relocate base (Int.le_refl _)
  rwa [Location.relocate_start] at hread

lemma lex_relocate_ok (base : Location) {t : Text} {tokens : List Token}
    (h : lex Location.start t = .ok tokens) :
    lex base t = .ok (tokens.map (Token.relocate base)) :=
  ((lex_eq_ok_iff.1 h).relocate_start base).lex_eq_ok

lemma lex_relocate_error (base : Location) {t : Text} {failure : Failure}
    (h : lex Location.start t = .error failure) :
    lex base t = .error { failure with location := base.relocate failure.location } := by
  obtain ⟨pre, start, rest, tokens, cause, rfl, hreads, hbreaks, rfl⟩ := lex_eq_error_iff.1 h
  have hlocation : base.after (pre ++ start) =
      base.relocate (Location.start.after (pre ++ start)) := by
    rw [← Location.relocate_after base (Int.le_refl _), Location.relocate_start]
  rw [(hreads.relocate_start base).lex_eq_error hbreaks, hlocation]

/-- **The base moves the answer and does not change it.**  A text lexes at a base exactly if it
lexes alone.  Then kinds and lexemes are the same, and every offset has grown by that of the base.
If it fails alone, it fails at the base under the same code and with the same context, at the
location to which the failure of the text alone is moved. -/
theorem lex_relocate (base : Location) (t : Text) :
    ((∃ tokens, lex base t = .ok tokens) ↔ ∃ tokens, lex Location.start t = .ok tokens) ∧
    (∀ tokens, lex Location.start t = .ok tokens →
      lex base t = .ok (tokens.map fun token =>
        ⟨token.kind, token.lexeme, token.offset + base.offset⟩)) ∧
    ∀ failure, lex Location.start t = .error failure →
      ∃ failure', lex base t = .error failure' ∧
        failure'.diagnostic.code = failure.diagnostic.code ∧
        failure'.diagnostic.context = failure.diagnostic.context ∧
        failure'.diagnostic.location = base.relocate failure.diagnostic.location := by
  refine ⟨⟨?_, ?_⟩, ?_, ?_⟩
  · rintro ⟨tokens, hok⟩
    cases hlex : lex Location.start t with
    | ok tokens' => exact ⟨tokens', rfl⟩
    | error failure =>
        rw [lex_relocate_error base hlex] at hok
        cases hok
  · rintro ⟨tokens, hok⟩
    exact ⟨_, lex_relocate_ok base hok⟩
  · intro tokens hok
    exact lex_relocate_ok base hok
  · intro failure herror
    refine ⟨_, lex_relocate_error base herror, ?_⟩
    simp only [Failure.diagnostic_eq]
    exact ⟨rfl, rfl, rfl⟩

/-- In front of the base: the name `a` and a string that is never closed, once on the same line and
once on the next, where the column is not shifted. -/
theorem lex_relocate_negative :
    let base : Location := ⟨-3, 20, -40⟩
    lex base [lowerA] = .ok [⟨.identifier, [lowerA], -40⟩] ∧
      (∃ failure, lex base [lowerA, doubleQuote] = .error failure ∧
        failure.diagnostic.code = .unterminatedString ∧
        failure.diagnostic.location = ⟨-3, 22, -38⟩) ∧
      ∃ failure, lex base [lowerA, lineFeed, doubleQuote] = .error failure ∧
        failure.diagnostic.code = .unterminatedString ∧
        failure.diagnostic.location = ⟨-2, 2, -37⟩ := by
  intro base
  have hname : lex Location.start [lowerA] = .ok [⟨.identifier, [lowerA], 0⟩] := by cbv
  have hsame : lex Location.start [lowerA, doubleQuote] =
      .error ⟨.unclosedString, [doubleQuote], ⟨1, 3, 2⟩⟩ := by cbv
  have hnext : lex Location.start [lowerA, lineFeed, doubleQuote] =
      .error ⟨.unclosedString, [doubleQuote], ⟨2, 2, 3⟩⟩ := by cbv
  obtain ⟨failure, herror, hcode, -, hlocation⟩ := (lex_relocate base _).2.2 _ hsame
  obtain ⟨failure', herror', hcode', -, hlocation'⟩ := (lex_relocate base _).2.2 _ hnext
  simp only [Failure.code_diagnostic, Failure.location_diagnostic]
    at hcode hcode' hlocation hlocation' ⊢
  exact ⟨(lex_relocate base _).2.1 _ hname, ⟨failure, herror, hcode, hlocation⟩,
    failure', herror', hcode', hlocation'⟩

end Lexis
