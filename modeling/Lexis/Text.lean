import Lexis.CodeUnit

/-!
# Text

A text is a list of code units, and any list is one: the halves of a surrogate pair may stand alone.

`Text.slice` cuts a text between two integer bounds that need not lie inside it.  Its law for bounds
inside the text, `slice_natCast`, is what the cursor's invariants reduce to.
-/

namespace Lexis

/-- A text as its code units, in order. -/
abbrev Text := List CodeUnit

namespace Text

/-- **The position a bound names** in a text of `length` units.  A negative bound counts back from
the end; a bound outside the text is moved to the nearer end. -/
def clamp (length : Nat) (bound : Int) : Nat :=
  if bound < 0 then (length + bound).toNat else min bound.toNat length

/-- The units from `start` up to but not including `stop`, both read by `clamp`; nothing when they
meet or cross. -/
def slice (t : Text) (start stop : Int) : Text :=
  (t.take (clamp t.length stop)).drop (clamp t.length start)

theorem clamp_natCast (length i : Nat) : clamp length i = min i length := by
  simp [clamp, show ¬ ((i : Int) < 0) by omega]

/-- Between two bounds that are natural numbers, slicing is taking and dropping. -/
theorem slice_natCast (t : Text) (start stop : Nat) :
    t.slice start stop = (t.take stop).drop start := by
  simp only [slice, clamp_natCast]
  rcases Nat.le_total stop t.length with h | h
  · rw [Nat.min_eq_left h]
    rcases Nat.le_total start t.length with h' | h'
    · rw [Nat.min_eq_left h']
    · have hlength : (t.take stop).length ≤ t.length := (List.take_sublist stop t).length_le
      rw [Nat.min_eq_right h', List.drop_eq_nil_of_le hlength,
        List.drop_eq_nil_of_le (Nat.le_trans hlength h')]
  · rw [Nat.min_eq_right h, List.take_of_length_le h, List.take_of_length_le (Nat.le_refl _)]
    rcases Nat.le_total start t.length with h' | h'
    · rw [Nat.min_eq_left h']
    · rw [Nat.min_eq_right h', List.drop_eq_nil_of_le h', List.drop_eq_nil_of_le (Nat.le_refl _)]

end Text

end Lexis
