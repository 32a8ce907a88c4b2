import Lexis.Text

/-!
# Locations

A location is a line, a column and an offset.  Reading moves it: `Location.step` past one unit and
`Location.after` past a whole text.  A line feed alone ends a line; a carriage return takes a column
like any other unit.

Lines, columns and offsets are integers, because a text may be a piece of a document whose own
numbering starts anywhere.  That they are exact at any size is an idealization.  Kept as floating-point
numbers of double precision, they are the same from -2^53 to 2^53, and beyond that counting on by one
may round.
-/

namespace Lexis

/-- A place in a document, in exact integers. -/
structure Location where
  line : Int
  column : Int
  offset : Int
deriving DecidableEq, Repr

namespace Location

/-- The location of the first unit of a text that stands alone. -/
def start : Location := ⟨1, 1, 0⟩

/-- The location after one unit read at `loc`. -/
def step (loc : Location) (u : CodeUnit) : Location :=
  if u = CodeUnit.lineFeed then ⟨loc.line + 1, 1, loc.offset + 1⟩
  else ⟨loc.line, loc.column + 1, loc.offset + 1⟩

/-- The location after a text read at `loc`. -/
def after (loc : Location) (t : Text) : Location := t.foldl step loc

@[simp] theorem after_nil (loc : Location) : loc.after [] = loc := rfl

@[simp] theorem after_cons (loc : Location) (u : CodeUnit) (t : Text) :
    loc.after (u :: t) = (loc.step u).after t := rfl

/-- Reading two texts one after the other is reading them joined. -/
theorem after_append (loc : Location) (s t : Text) :
    loc.after (s ++ t) = (loc.after s).after t := List.foldl_append

@[simp] theorem offset_step (loc : Location) (u : CodeUnit) :
    (loc.step u).offset = loc.offset + 1 := by
  unfold step
  split <;> rfl

/-- The offset counts units, whatever they are. -/
theorem offset_after (loc : Location) (t : Text) :
    (loc.after t).offset = loc.offset + t.length := by
  induction t generalizing loc with
  | nil => simp
  | cons u t ih =>
      rw [after_cons, ih, offset_step, List.length_cons]
      omega

end Location

end Lexis
