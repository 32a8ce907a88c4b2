import Lexis.Text.Encoding

/-!
# Error codes and their catalogue

Every kind of error has a code, and every code an entry in the catalogue: the identifier under which
users look it up, a template for its message, and what causes and cures it.  The catalogue is a
total function on the codes, so that no code is without an entry; `ErrorCode.ofId?` goes from an
identifier back to its code, and `ofId?_id` says that the identifiers tell the codes apart.
-/

namespace Lexis

/-- A text that raises an error, and what it shows. -/
structure ErrorExample where
  description : String
  code : String
deriving DecidableEq, Repr

/-- What the catalogue says of one error. -/
structure ErrorEntry where
  id : String
  category : String
  description : String
  /-- The message, with placeholders for what is known about the single case. -/
  messageTemplate : String
  cause : String
  resolution : String
  examples : List ErrorExample
deriving DecidableEq, Repr

inductive ErrorCode
  | unterminatedCharacter
  | emptyCharacter
  | invalidCharacterContent
  | invalidEscape
  | unterminatedString
  | invalidNumber
  | invalidDecimal
  | invalidTokenStart
  | noToken
deriving DecidableEq, Repr

namespace ErrorCode

/-- All codes, in the order of the catalogue. -/
def all : List ErrorCode :=
  [unterminatedCharacter, emptyCharacter, invalidCharacterContent, invalidEscape,
    unterminatedString, invalidNumber, invalidDecimal, invalidTokenStart, noToken]

theorem mem_all (c : ErrorCode) : c ∈ all := by
  cases c <;> decide

/-- The catalogue. -/
def entry : ErrorCode → ErrorEntry
  | unterminatedCharacter =>
      { id := "IMP-L001"
        category := "lexer"
        description := "Unterminated character literal"
        messageTemplate := "Unterminated character literal"
        cause := "Character literal opened with a single quote but not closed right after its one character."
        resolution := "Close the literal with a single quote. A character literal holds exactly one character or escape; use a string for more."
        examples :=
          [⟨"Missing closing quote", "'c"⟩,
            ⟨"More than one character", "'abc'"⟩] }
  | emptyCharacter =>
      { id := "IMP-L002"
        category := "lexer"
        description := "Empty character literal"
        messageTemplate := "Empty character literal"
        cause := "Two single quotes with nothing between them."
        resolution := "Put one character between the quotes, or write '\\'' for a quote."
        examples := [⟨"Empty literal", "''"⟩] }
  | invalidCharacterContent =>
      { id := "IMP-L003"
        category := "lexer"
        description := "Invalid character literal content"
        messageTemplate := "Invalid character in character literal: \x7bchar\x7d"
        cause := "A raw line break appears inside a character literal."
        resolution := "Use the escapes '\\n' or '\\r' instead of a raw line break."
        examples := [⟨"Raw newline", "'\n'"⟩] }
  | invalidEscape =>
      { id := "IMP-L004"
        category := "lexer"
        description := "Invalid escape sequence"
        messageTemplate := "Invalid escape sequence: \\\x7bchar\x7d"
        cause := "Backslash followed by a character that is not a known escape."
        resolution := "Use one of \\b \\n \\r \\t \\' \\\" \\\\ (strings also accept an escaped space)."
        examples :=
          [⟨"Unknown escape in a character", "'\\a'"⟩,
            ⟨"Unknown escape in a string", "\"invalid\\escape\""⟩] }
  | unterminatedString =>
      { id := "IMP-L005"
        category := "lexer"
        description := "Unterminated string literal"
        messageTemplate := "Unterminated string literal"
        cause := "String opened with a double quote but never closed before end of line or input."
        resolution := "Add the closing double quote. Write line breaks inside strings as \\n."
        examples :=
          [⟨"Missing closing quote", "\"hello"⟩,
            ⟨"Newline inside string", "\"hello\nworld\""⟩] }
  | invalidNumber =>
      { id := "IMP-L006"
        category := "lexer"
        description := "Invalid number"
        messageTemplate := "Invalid number: expected a digit after \x7bsign\x7d"
        cause := "A sign was read as the start of a number but no digit follows."
        resolution := "Write a digit right after the sign, with no space between."
        examples := [⟨"Lone sign", "-"⟩] }
  | invalidDecimal =>
      { id := "IMP-L007"
        category := "lexer"
        description := "Invalid decimal number"
        messageTemplate := "Invalid decimal number: expected a digit after \x7bvalue\x7d"
        cause := "A decimal point is not followed by a fractional digit."
        resolution := "Write at least one digit after the decimal point (1.0, not 1.)."
        examples :=
          [⟨"Trailing decimal point", "123."⟩,
            ⟨"Doubled decimal point", "1..0"⟩] }
  | invalidTokenStart =>
      { id := "IMP-L008"
        category := "lexer"
        description := "Invalid token start"
        messageTemplate := "Invalid \x7btoken\x7d start: expected \x7bexpected\x7d"
        cause := "A token reader was entered at a character that cannot start it."
        resolution := "Dispatch through lexToken, which picks the reader by lookahead."
        examples := [⟨"Identifier starting with a hyphen", "-five"⟩] }
  | noToken =>
      { id := "IMP-L009"
        category := "lexer"
        description := "No token at position"
        messageTemplate := "Expected a token, found \x7bfound\x7d"
        cause := "lexToken was called at end of input or on whitespace."
        resolution := "Skip whitespace and check for remaining input before lexToken."
        examples := [⟨"Whitespace only", " "⟩] }

def id (c : ErrorCode) : Text := Text.ofString c.entry.id

def messageTemplate (c : ErrorCode) : Text := Text.ofString c.entry.messageTemplate

/-- The code with an identifier, if the catalogue has it. -/
def ofId? (id : Text) : Option ErrorCode := all.find? (·.id == id)

/-- Each identifier leads back to its own code. -/
theorem ofId?_id (c : ErrorCode) : ofId? c.id = some c := by
  cases c <;> decide +kernel

end ErrorCode

/-- Why an identifier leads to no code. -/
inductive IdError
  | missing
  | unknown (id : Text)
deriving DecidableEq, Repr

namespace IdError

def message : IdError → Text
  | missing => Text.ofString "errorId is required"
  | unknown id => Text.ofString "Unknown error ID: " ++ id

end IdError

namespace ErrorCode

/-- The code with a given identifier. -/
def lookup (id : Text) : Except IdError ErrorCode :=
  match ofId? id with
  | some c => .ok c
  | none => .error (.unknown id)

/-- The code with an identifier that has to be given: an absent or empty one is an error of its own,
found before the catalogue is asked. -/
def require : Option Text → Except IdError ErrorCode
  | none => .error .missing
  | some [] => .error .missing
  | some id => lookup id

theorem lookup_eq_ok_iff {id : Text} {c : ErrorCode} : lookup id = .ok c ↔ ofId? id = some c := by
  rw [lookup]
  cases ofId? id with
  | none => exact ⟨fun h => (nomatch h), fun h => (nomatch h)⟩
  | some d => exact ⟨fun h => congrArg some (Except.ok.inj h), fun h => congrArg _ (Option.some.inj h)⟩

theorem id_of_ofId? {id : Text} {c : ErrorCode} (h : ofId? id = some c) : c.id = id := by
  have hfound := List.find?_some h
  exact beq_iff_eq.1 hfound

/-- An identifier of the catalogue passes both checks. -/
theorem require_of_ofId? {id : Text} {c : ErrorCode} (h : ofId? id = some c) :
    require (some id) = .ok c := by
  have hnil : ofId? [] = none := by decide +kernel
  cases id with
  | nil => rw [hnil] at h; cases h
  | cons u t => rw [require, lookup, h]; exact fun hcons => List.cons_ne_nil u t hcons

end ErrorCode

end Lexis
