import Lexis.Predicate

/-!
# Named character classes

The classes of `Lexis.CodeUnit` by name, for a user who asks which of them a text belongs to.  Only a
text of one unit belongs to any.
-/

namespace Lexis

inductive CharClass
  | digit
  | nonZeroDigit
  | letter
  | identifierStart
  | identifierChar
  | whitespace
  | sign
  | lineBreak
  | characterEscape
  | stringEscape
deriving DecidableEq, Repr

namespace CharClass

/-- All classes, in the order in which they are listed to a user. -/
def all : List CharClass :=
  [digit, nonZeroDigit, letter, identifierStart, identifierChar, whitespace, sign, lineBreak,
    characterEscape, stringEscape]

theorem mem_all (k : CharClass) : k ∈ all := by
  cases k <;> decide

/-- Whether a unit belongs to a class. -/
def holds : CharClass → CodeUnit → Bool
  | digit => CodeUnit.isDigit
  | nonZeroDigit => CodeUnit.isNonZeroDigit
  | letter => CodeUnit.isLetter
  | identifierStart => CodeUnit.isIdentifierStart
  | identifierChar => CodeUnit.isIdentifierChar
  | whitespace => CodeUnit.isWhitespace
  | sign => CodeUnit.isSign
  | lineBreak => CodeUnit.isLineBreak
  | characterEscape => CodeUnit.isCharacterEscape
  | stringEscape => CodeUnit.isStringEscape

/-- The predicate of a class. -/
def predicate (k : CharClass) : Predicate := Predicate.ofUnit k.holds

/-- The classes that a text belongs to. -/
def classify (t : Text) : List CharClass := all.filter fun k => k.predicate t

theorem mem_classify {k : CharClass} {t : Text} : k ∈ classify t ↔ k.predicate t = true := by
  simp [classify, mem_all]

end CharClass

end Lexis
