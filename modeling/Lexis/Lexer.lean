import Lexis.Scan

/-!
# Lexing a whole text

`lex` reads a text from front to back: it skips whitespace, lets `Reader.dispatch` choose a reader for
what stands at the front, and goes on behind the token.  The first failure ends it, and then there
are no tokens at all.

The text that is left gets shorter with every step, because no token is empty
(`Reader.token_length_pos`).  The location travels along, so that each token has the offset of its
first unit and a failure has the location at which its reader stopped.

There is no cursor here.  `Cursor.drain` is this loop with one, and `Cursor.drain_start` says that its
answer is that of `lex`.
-/

namespace Lexis

/-- The tokens of a text whose first unit is at `loc`, or the first failure. -/
def lex (loc : Location) : Text → Except Failure (List Token)
  | [] => .ok []
  | u :: rest =>
      if u.isWhitespace then lex (loc.step u) rest
      else
        match _h : (Reader.dispatch (u :: rest)).scan (u :: rest) with
        | .fault cause n =>
            let pending := (u :: rest).take n
            .error ⟨cause, pending, loc.after pending⟩
        | .token kind n =>
            let lexeme := (u :: rest).take n
            match lex (loc.after lexeme) ((u :: rest).drop n) with
            | .ok tokens => .ok (⟨kind, lexeme, loc.offset⟩ :: tokens)
            | .error failure => .error failure
termination_by t => t.length
decreasing_by
  · exact Nat.lt_succ_self _
  · have hpos := Reader.token_length_pos _h
    rw [List.length_drop, List.length_cons]
    omega

/-! ## One step at a time

The defining equations of `lex`, in the form in which proofs use them.
-/

@[simp] theorem lex_nil (loc : Location) : lex loc [] = .ok [] := by
  rw [lex]

theorem lex_whitespace {u : CodeUnit} (h : u.isWhitespace = true) (loc : Location) (rest : Text) :
    lex loc (u :: rest) = lex (loc.step u) rest := by
  rw [lex, if_pos h]

theorem lex_token {u : CodeUnit} {rest : Text} {kind : TokenKind} {n : Nat}
    (hu : u.isWhitespace = false)
    (h : (Reader.dispatch (u :: rest)).scan (u :: rest) = .token kind n) (loc : Location) :
    lex loc (u :: rest) =
      (lex (loc.after ((u :: rest).take n)) ((u :: rest).drop n)).map
        (⟨kind, (u :: rest).take n, loc.offset⟩ :: ·) := by
  rw [lex, if_neg (by simp [hu])]
  split
  · next h' => rw [h] at h'; cases h'
  · next h' =>
      rw [h] at h'
      cases h'
      simp only
      split <;> next hlex => rw [hlex]; rfl

theorem lex_fault {u : CodeUnit} {rest : Text} {cause : Fault} {n : Nat}
    (hu : u.isWhitespace = false)
    (h : (Reader.dispatch (u :: rest)).scan (u :: rest) = .fault cause n) (loc : Location) :
    lex loc (u :: rest) =
      .error ⟨cause, (u :: rest).take n, loc.after ((u :: rest).take n)⟩ := by
  rw [lex, if_neg (by simp [hu])]
  split
  · next h' => rw [h] at h'; cases h'; rfl
  · next h' => rw [h] at h'; cases h'

end Lexis
