import Lexis.Location
import Lexis.Text.Numeral

/-!
# Positions in messages

A message about a place ends in its line and column, as in ` at 3:14`.  `Location.suffix` is that
ending, and `stripPosition` takes such an ending off a text, whoever put it there.

Only an ending of plain digits counts as a position.  The suffix of a location with a negative line
or column is none, and is not taken off.

Line and column are exact integers here too, and are written with all their digits.  Numbers of double
precision are written like that up to 2^53.  Beyond it they are rounded, and from 10^21 on they are
written with an exponent, which is no position either.
-/

namespace Lexis

open CodeUnit

/-- The word between a message and a position: `at`, with a space on either side. -/
def positionMark : Text := [space, lowerA, lowerT, space]

/-- The ending of a message about this location, with all digits of its line and column. -/
def Location.suffix (loc : Location) : Text :=
  positionMark ++ Text.ofInt loc.line ++ colon :: Text.ofInt loc.column

/-- One digit or more, and nothing else. -/
def isNumeral (t : Text) : Bool := !t.isEmpty && t.all isDigit

/-- Two numerals with a colon between them. -/
def isLineAndColumn (t : Text) : Bool :=
  isNumeral (t.takeWhile isDigit) &&
    match t.dropWhile isDigit with
    | [] => false
    | u :: column => u == colon && isNumeral column

/-- Whether a text is a position from its first unit to its last. -/
def isPosition (t : Text) : Bool :=
  t.take positionMark.length == positionMark && isLineAndColumn (t.drop positionMark.length)

/-- A text without the position that it ends in. -/
def stripPosition : Text → Text
  | [] => []
  | u :: rest => if isPosition (u :: rest) then [] else u :: stripPosition rest

end Lexis
