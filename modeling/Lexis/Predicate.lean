import Lexis.Text

/-!
# Predicates and patterns

A predicate tests a short text, usually one unit.  The classes of the grammar become predicates by
`Predicate.ofUnit`, which refuses every text that is not exactly one unit.  `exactly`, `oneOf` and
`noneOf` build others.

A pattern is a row of predicates, tried on units that follow each other.  A place in it may be empty,
and an empty place accepts nothing.
-/

namespace Lexis

abbrev Predicate := Text → Bool

namespace Predicate

/-- A test of units as a test of texts: it accepts one unit that passes. -/
def ofUnit (p : CodeUnit → Bool) : Predicate
  | [u] => p u
  | _ => false

/-- Accepts this text alone, which may be empty or long. -/
def exactly (expected : Text) : Predicate := fun t => t == expected

/-- Accepts each single unit of a text. -/
def oneOf (units : Text) : Predicate := ofUnit units.contains

/-- Accepts each single unit that no predicate of a list accepts. -/
def noneOf (excluded : List Predicate) : Predicate := ofUnit fun u => !excluded.any fun p => p [u]

@[simp] theorem ofUnit_singleton (p : CodeUnit → Bool) (u : CodeUnit) : ofUnit p [u] = p u := rfl

/-- The empty text, which stands for a place where there is no unit, is never accepted. -/
@[simp] theorem ofUnit_nil (p : CodeUnit → Bool) : ofUnit p [] = false := rfl

end Predicate

/-- A row of predicates, some places of which may be empty. -/
abbrev Pattern := List (Option Predicate)

end Lexis
