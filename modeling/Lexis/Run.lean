import Lexis.CharClass
import Lexis.Cursor.Read

/-!
# Reading a text token by token

A caller who wants tokens one at a time keeps a cursor: it goes past whitespace and sets the mark,
stops if nothing is left, and otherwise asks for the next token, until a failure stops it too.
`Cursor.run` is that caller.  It records each outcome together with the cursor after it.

The loop ends because the distance from the index to the end of the source (`Cursor.distance`) gets
smaller with every unit of whitespace and with every token.
-/

namespace Lexis

namespace Cursor

/-- The pattern of one unit of whitespace. -/
def blank : Pattern := [some CharClass.whitespace.predicate]

theorem sees_blank (c : Cursor) : c.sees blank = (c.reaches 0 && c.atWhitespace) := by
  have hlook : CharClass.whitespace.predicate (c.look 0) = c.atWhitespace := by
    rw [look, atWhitespace]
    cases c.unit? 0 with
    | none => rfl
    | some u => rfl
  simp only [sees, blank, List.zipIdx_cons, List.zipIdx_nil, List.all_cons, List.all_nil, accepts,
    Bool.and_true]
  rw [← hlook]
  rfl

theorem consume_blank (c : Cursor) :
    c.consume blank =
      if c.reaches 0 && c.atWhitespace then (true, c.advance) else (false, c) := by
  rw [consume, sees_blank]
  rfl

theorem reaches_of_consume_blank {c c' : Cursor} (h : c.consume blank = (true, c')) :
    c.reaches 0 = true ∧ c' = c.advance := by
  rw [consume_blank] at h
  split at h
  · next hblank =>
      cases h
      exact ⟨(Bool.and_eq_true_iff.1 hblank).1, rfl⟩
  · cases h

theorem distance_lt_of_consume_blank {c c' : Cursor} (h : c.consume blank = (true, c')) :
    c'.setMark.distance < c.distance := by
  obtain ⟨hreach, rfl⟩ := reaches_of_consume_blank h
  refine distance_lt hreach (source_advance c) ?_
  rw [index_setMark, index_advance]
  omega

/-- The cursor past the whitespace ahead, with the mark moved along. -/
def skipWhitespace (c : Cursor) : Cursor :=
  match _h : c.consume blank with
  | (true, c') => skipWhitespace c'.setMark
  | (false, _) => c
termination_by c.distance
decreasing_by
  exact distance_lt_of_consume_blank _h

theorem skipWhitespace_of_blank {c c' : Cursor} (h : c.consume blank = (true, c')) :
    c.skipWhitespace = c'.setMark.skipWhitespace := by
  rw [skipWhitespace]
  split
  · next hblank =>
      rw [h] at hblank
      cases hblank
      rfl
  · next hblank =>
      rw [h] at hblank
      cases hblank

theorem skipWhitespace_of_not_blank {c : Cursor} (h : (c.consume blank).1 = false) :
    c.skipWhitespace = c := by
  rw [skipWhitespace]
  split
  · next hblank =>
      rw [hblank] at h
      cases h
  · rfl

theorem distance_skipWhitespace_le (c : Cursor) : c.skipWhitespace.distance ≤ c.distance := by
  fun_induction skipWhitespace c with
  | case1 c c' h ih => exact Nat.le_of_lt (Nat.lt_of_le_of_lt ih (distance_lt_of_consume_blank h))
  | case2 => exact Nat.le_refl _

/-- One answer of a run, and the cursor after it. -/
structure Step where
  outcome : Except Failure Token
  cursor : Cursor

/-- The answers of a run in order, and the cursor at its end. -/
def run (c : Cursor) : List Step × Cursor :=
  let c' := c.skipWhitespace
  if c'.reaches 0 then
    match _h : c'.nextToken with
    | (.ok token, c'') =>
        let (steps, last) := run c''
        (⟨.ok token, c''⟩ :: steps, last)
    | (.error failure, c'') => ([⟨.error failure, c''⟩], c'')
  else ([], c')
termination_by c.distance
decreasing_by
  exact Nat.lt_of_lt_of_le (distance_lt_of_nextToken _h) (distance_skipWhitespace_le c)

end Cursor

end Lexis
