import Lexis.Location
import Lexis.Predicate
import Lexis.Token

/-!
# Cursors

A cursor is a place in a text from which a caller reads step by step.  It has the index of the next
unit, a mark at the first unit that has been read but not yet dealt with, and the line and column of
the index.

Nothing keeps the index inside the text: a caller may advance past the end, or start from a state in
which the index or the mark is negative.  Every operation is defined there too.  Outside the text there
is no unit to look at, `Cursor.reaches` asks only whether the index is below the end, and
`Cursor.advance` counts on.

The index and the mark are exact integers, as the numbers of a location are, so that `Cursor.advance`
takes the index one further wherever it is.  In double precision it does so from -2^53 on and below
2^53, which is far beyond the length of any text.

* `Cursor.reaches`, `Cursor.unit?`, `Cursor.sees` — looking, which leaves the cursor alone.
* `Cursor.advance`, `Cursor.advanceBy`, `Cursor.consume` — moving the index.
* `Cursor.setMark`, `Cursor.emit` — moving the mark.
-/

namespace Lexis

/-- A place in a text.  All of its numbers are exact integers. -/
structure Cursor where
  source : Text
  /-- The offset of the first unit of the source. -/
  baseOffset : Int
  /-- The next unit to read. -/
  index : Int
  /-- The first unit that has been neither emitted nor skipped. -/
  mark : Int
  line : Int
  column : Int
deriving DecidableEq, Repr

namespace Cursor

/-- The cursor at the front of a text whose first unit is at `base`. -/
def start (source : Text) (base : Location) : Cursor where
  source := source
  baseOffset := base.offset
  index := 0
  mark := 0
  line := base.line
  column := base.column

/-- Where the cursor stands. -/
def location (c : Cursor) : Location := ⟨c.line, c.column, c.index + c.baseOffset⟩

/-! ## Looking -/

/-- Whether the place `k` units ahead lies before the end of the text.  A place before the start of
the text does. -/
def reaches (c : Cursor) (k : Int) : Bool := c.index + k < c.source.length

/-- The unit `k` places ahead, if there is one. -/
def unit? (c : Cursor) (k : Int) : Option CodeUnit :=
  if c.index + k < 0 then none else c.source[(c.index + k).toNat]?

/-- The unit `k` places ahead as a text, which is empty where there is none. -/
def look (c : Cursor) (k : Int) : Text := (c.unit? k).toList

/-- The text from the index on, which is empty when the index lies outside the text. -/
def ahead (c : Cursor) : Text := if c.index < 0 then [] else c.source.drop c.index.toNat

/-- The text from the mark to the index. -/
def pending (c : Cursor) : Text := c.source.slice c.mark c.index

/-- Whether a place of a pattern accepts what stands `k` places ahead. -/
def accepts (c : Cursor) (k : Nat) : Option Predicate → Bool
  | none => false
  | some p => c.reaches k && p (c.look k)

/-- Whether every place of a pattern accepts the unit at the same distance ahead. -/
def sees (c : Cursor) (pattern : Pattern) : Bool :=
  pattern.zipIdx.all fun (place, k) => c.accepts k place

/-! ## Moving the index -/

/-- The cursor one unit further on.  A line feed starts a new line; anything else, also the nothing
past the end, takes a column. -/
def advance (c : Cursor) : Cursor :=
  if c.unit? 0 = some CodeUnit.lineFeed then
    { c with index := c.index + 1, line := c.line + 1, column := 1 }
  else { c with index := c.index + 1, column := c.column + 1 }

def advanceBy : Nat → Cursor → Cursor
  | 0, c => c
  | n + 1, c => advanceBy n c.advance

/-- Goes past what a pattern matches, if it matches as a whole, and stays put if it does not. -/
def consume (c : Cursor) (pattern : Pattern) : Bool × Cursor :=
  if c.sees pattern then (true, c.advanceBy pattern.length) else (false, c)

/-! ## Moving the mark -/

def setMark (c : Cursor) : Cursor := { c with mark := c.index }

/-- Everything since the mark as one token.  The mark moves up to the index. -/
def emit (c : Cursor) (kind : TokenKind) : Token × Cursor :=
  (⟨kind, c.pending, c.mark + c.baseOffset⟩, c.setMark)

/-! ## What moving leaves alone

Advancing changes the index by the number of units, and of the rest only line and column.
-/

@[simp] theorem source_advance (c : Cursor) : c.advance.source = c.source := by
  unfold advance
  split <;> rfl

@[simp] theorem baseOffset_advance (c : Cursor) : c.advance.baseOffset = c.baseOffset := by
  unfold advance
  split <;> rfl

@[simp] theorem mark_advance (c : Cursor) : c.advance.mark = c.mark := by
  unfold advance
  split <;> rfl

@[simp] theorem index_advance (c : Cursor) : c.advance.index = c.index + 1 := by
  unfold advance
  split <;> rfl

@[simp] theorem advanceBy_zero (c : Cursor) : c.advanceBy 0 = c := rfl

theorem advanceBy_succ (n : Nat) (c : Cursor) : c.advanceBy (n + 1) = c.advance.advanceBy n := rfl

theorem advanceBy_add (m n : Nat) (c : Cursor) :
    c.advanceBy (m + n) = (c.advanceBy m).advanceBy n := by
  induction m generalizing c with
  | zero => rw [Nat.zero_add, advanceBy_zero]
  | succ m ih => rw [Nat.add_right_comm, advanceBy_succ, advanceBy_succ, ih]

@[simp] theorem source_advanceBy (n : Nat) (c : Cursor) : (c.advanceBy n).source = c.source := by
  induction n generalizing c with
  | zero => rfl
  | succ n ih => rw [advanceBy_succ, ih, source_advance]

@[simp] theorem baseOffset_advanceBy (n : Nat) (c : Cursor) :
    (c.advanceBy n).baseOffset = c.baseOffset := by
  induction n generalizing c with
  | zero => rfl
  | succ n ih => rw [advanceBy_succ, ih, baseOffset_advance]

@[simp] theorem mark_advanceBy (n : Nat) (c : Cursor) : (c.advanceBy n).mark = c.mark := by
  induction n generalizing c with
  | zero => rfl
  | succ n ih => rw [advanceBy_succ, ih, mark_advance]

@[simp] theorem index_advanceBy (n : Nat) (c : Cursor) : (c.advanceBy n).index = c.index + n := by
  induction n generalizing c with
  | zero => simp
  | succ n ih =>
      rw [advanceBy_succ, ih, index_advance]
      omega

end Cursor

end Lexis
