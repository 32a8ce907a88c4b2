import Lexis.Location

/-!
# Faults and failures

A `Fault` is the reason why no token can be read.  A `Failure` is a fault together with what is known
where it arose: the location of the first unit that makes the text invalid, and the text read so far
of the construct that fails.  How a failure is worded is the business of `Lexis.Diagnostic`.
-/

namespace Lexis

inductive Fault
  /-- A character literal is not closed right after its one character. -/
  | unclosedCharacter
  /-- Two single quotes with nothing between them. -/
  | emptyCharacter
  /-- A raw line break, `unit`, stands in a character literal. -/
  | rawLineBreak (unit : CodeUnit)
  /-- A backslash is followed by `unit`, which is no escape of the literal at hand. -/
  | unknownEscape (unit : CodeUnit)
  /-- A string literal is not closed before the end of its line or of the text. -/
  | unclosedString
  /-- A number was expected, and after its sign, if it has one, stands no digit. -/
  | missingDigit (sign : Option CodeUnit)
  /-- A decimal point is followed by no digit. -/
  | missingFraction
  /-- A name was expected, and no letter or underscore is there. -/
  | notIdentifier
  /-- A character literal was expected, and no single quote is there. -/
  | notCharacter
  /-- A string literal was expected, and no double quote is there. -/
  | notString
  /-- A token was expected where the text ends. -/
  | endOfInput
  /-- A token was expected where whitespace stands. -/
  | atWhitespace
deriving DecidableEq, Repr

structure Failure where
  fault : Fault
  /-- The text of the failing construct up to the failing position. -/
  pending : Text
  location : Location
deriving DecidableEq, Repr

end Lexis
