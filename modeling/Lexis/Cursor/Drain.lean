import Lexis.Run

/-!
# Reading a text at once

`Cursor.drain` empties a cursor.  As long as a unit is left it skips whitespace, and if one is left then,
it reads the next token.  The first failure ends the loop, and then there are no tokens at all.

Unlike `Cursor.run` this loop asks no pattern and looks for the end twice.  `Cursor.skipBlanks` looks at
one unit after the other and moves the mark along with each.  It skips what `Cursor.skipWhitespace` skips
(`Cursor.skipBlanks_eq`), and so the loop ends for the reason for which a run does.
-/

namespace Lexis

namespace Cursor

/-- The cursor past the whitespace ahead, unit by unit. -/
def skipBlanks (c : Cursor) : Cursor :=
  if _h : c.reaches 0 && c.atWhitespace then skipBlanks c.advance.setMark else c
termination_by c.distance
decreasing_by
  exact distance_lt_of_consume_blank (by rw [consume_blank, if_pos _h])

theorem skipBlanks_eq (c : Cursor) : c.skipBlanks = c.skipWhitespace := by
  fun_induction skipBlanks c with
  | case1 c hblank ih =>
      have hconsume : c.consume blank = (true, c.advance) := by
        rw [consume_blank, if_pos hblank]
      rw [ih, skipWhitespace_of_blank hconsume]
  | case2 c hblank =>
      have hconsume : (c.consume blank).1 = false := by
        rw [consume_blank, if_neg hblank]
      rw [skipWhitespace_of_not_blank hconsume]

theorem distance_skipBlanks_le (c : Cursor) : c.skipBlanks.distance ≤ c.distance := by
  rw [skipBlanks_eq]
  exact distance_skipWhitespace_le c

/-- The tokens ahead, or the first failure, and the cursor at which the loop ends. -/
def drain (c : Cursor) : Except Failure (List Token) × Cursor :=
  if _hreach : c.reaches 0 then
    let c' := c.skipBlanks
    if _hreach' : c'.reaches 0 then
      match _h : c'.nextToken with
      | (.ok token, c'') =>
          let (tokens, last) := drain c''
          (tokens.map (token :: ·), last)
      | (.error failure, c'') => (.error failure, c'')
    else drain c'
  else (.ok [], c)
termination_by c.distance
decreasing_by
  · exact Nat.lt_of_lt_of_le (distance_lt_of_nextToken _h) (distance_skipBlanks_le c)
  · have hend : ¬ 0 < c.skipBlanks.distance := mt reaches_iff_distance_pos.2 _hreach'
    have hpos : 0 < c.distance := reaches_iff_distance_pos.1 _hreach
    exact Nat.lt_of_le_of_lt (Nat.le_of_not_lt hend) hpos

end Cursor

end Lexis
