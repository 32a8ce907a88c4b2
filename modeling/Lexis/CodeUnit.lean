/-!
# Code units and their classes

Text is counted in 16-bit code units throughout: a position, a column and a "character" are all one
unit, so a character outside the basic plane counts twice.  This file has the unit type, names for
the units that the lexical grammar mentions, and the classes that the grammar is written in.

* `CodeUnit.isIdentifierStart`, `CodeUnit.isIdentifierChar` — what may open and continue a name.
* `CodeUnit.isDigit`, `CodeUnit.isNonZeroDigit`, `CodeUnit.isSign` — the parts of a number.
* `CodeUnit.isCharacterEscape`, `CodeUnit.isStringEscape` — what may follow a backslash.
* `CodeUnit.isWhitespace`, `CodeUnit.isLineBreak` — what separates tokens, and what no literal holds.

Every class is a set of ASCII units.  Units above the ASCII range, halves of a surrogate pair
included, belong to none of them: the grammar treats each one as an operator.
-/

namespace Lexis

/-- One 16-bit unit of text. -/
abbrev CodeUnit := UInt16

namespace CodeUnit

/-! ## Named units -/

abbrev backspace : CodeUnit := 0x08
abbrev tab : CodeUnit := 0x09
abbrev lineFeed : CodeUnit := 0x0A
abbrev carriageReturn : CodeUnit := 0x0D
abbrev space : CodeUnit := 0x20
abbrev exclamation : CodeUnit := 0x21
abbrev doubleQuote : CodeUnit := 0x22
abbrev ampersand : CodeUnit := 0x26
abbrev singleQuote : CodeUnit := 0x27
abbrev plus : CodeUnit := 0x2B
abbrev comma : CodeUnit := 0x2C
abbrev hyphen : CodeUnit := 0x2D
abbrev dot : CodeUnit := 0x2E
abbrev zero : CodeUnit := 0x30
abbrev nine : CodeUnit := 0x39
abbrev colon : CodeUnit := 0x3A
abbrev less : CodeUnit := 0x3C
abbrev equals : CodeUnit := 0x3D
abbrev greater : CodeUnit := 0x3E
abbrev backslash : CodeUnit := 0x5C
abbrev underscore : CodeUnit := 0x5F
abbrev lowerA : CodeUnit := 0x61
abbrev lowerB : CodeUnit := 0x62
abbrev lowerE : CodeUnit := 0x65
abbrev lowerN : CodeUnit := 0x6E
abbrev lowerR : CodeUnit := 0x72
abbrev lowerT : CodeUnit := 0x74
abbrev openBrace : CodeUnit := 0x7B
abbrev bar : CodeUnit := 0x7C
abbrev closeBrace : CodeUnit := 0x7D

/-- The unit of a character of the basic plane. -/
def ofChar (c : Char) : CodeUnit := UInt16.ofNat c.toNat

/-! ## Classes -/

def isDigit (u : CodeUnit) : Bool := zero ≤ u && u ≤ nine

def isNonZeroDigit (u : CodeUnit) : Bool := u.isDigit && u != zero

/-- The letters are the fifty-two of ASCII: `A` to `Z` and `a` to `z`. -/
def isLetter (u : CodeUnit) : Bool := (0x61 ≤ u && u ≤ 0x7A) || (0x41 ≤ u && u ≤ 0x5A)

def isIdentifierStart (u : CodeUnit) : Bool := u.isLetter || u == underscore

/-- A name may hold hyphens, so `a-1` is one name. -/
def isIdentifierChar (u : CodeUnit) : Bool := u.isIdentifierStart || u.isDigit || u == hyphen

/-- Whitespace is the space, backspace, line feed, carriage return and tab.  No other control unit
and no non-ASCII blank counts. -/
def isWhitespace (u : CodeUnit) : Bool :=
  u == space || u == backspace || u == lineFeed || u == carriageReturn || u == tab

def isSign (u : CodeUnit) : Bool := u == plus || u == hyphen

def isLineBreak (u : CodeUnit) : Bool := u == lineFeed || u == carriageReturn

/-- What may follow a backslash in a character literal. -/
def isCharacterEscape (u : CodeUnit) : Bool :=
  u == lowerB || u == lowerN || u == lowerR || u == lowerT ||
    u == singleQuote || u == doubleQuote || u == backslash

/-- A string literal accepts the same escapes and also an escaped space. -/
def isStringEscape (u : CodeUnit) : Bool := u.isCharacterEscape || u == space

/-! ## Halves of a surrogate pair -/

def isHighSurrogate (u : CodeUnit) : Bool := 0xD800 ≤ u && u ≤ 0xDBFF

def isLowSurrogate (u : CodeUnit) : Bool := 0xDC00 ≤ u && u ≤ 0xDFFF

end CodeUnit

end Lexis
