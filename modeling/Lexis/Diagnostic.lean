import Lexis.Context
import Lexis.Diagnostic.Position
import Lexis.ErrorCode
import Lexis.Fault
import Lexis.Template

/-!
# Diagnostics

A diagnostic is an error as a user meets it: a code of the catalogue, a message, and, where there is
one, a location and the context that the message was filled in from.  `Diagnostic` is the general
kind.  A `LexicalDiagnostic` always has a location.  It is what a failure of the lexer turns into when it
is reported (`Failure.report`), which is done by the identifier of its fault and never fails
(`Failure.report_eq`).

The message of a diagnostic names its position.  A `Summary` holds the same facts apart, for a host
that wants to lay them out by itself, and so its message is without the position.
-/

namespace Lexis

/-! ## Diagnostics in general -/

structure Diagnostic where
  code : ErrorCode
  /-- What is said, without the position. -/
  body : Text
  location : Option Location
  context : Option Context

namespace Diagnostic

/-- What a diagnostic tells a host. -/
structure Summary where
  code : ErrorCode
  message : Text
  location : Option Location
  context : Option Context

def message (d : Diagnostic) : Text :=
  match d.location with
  | none => d.body
  | some loc => d.body ++ loc.suffix

/-- The facts of a diagnostic.  A position at the end of the message is taken off, also where it is
the body's own. -/
def summary (d : Diagnostic) : Summary where
  code := d.code
  message := stripPosition d.message
  location := d.location
  context := d.context

/-- The text to show: the message, or what a host makes of the facts. -/
def format (d : Diagnostic) : Option (Summary → Text) → Text
  | none => d.message
  | some host => host d.summary

/-- A diagnostic under the code with a given identifier. -/
def ofId (id : Option Text) (body : Text) (location : Option Location) (context : Option Context) :
    Except IdError Diagnostic :=
  match ErrorCode.require id with
  | .ok code => .ok ⟨code, body, location, context⟩
  | .error e => .error e

end Diagnostic

/-! ## Diagnostics of the lexer -/

structure LexicalDiagnostic where
  code : ErrorCode
  body : Text
  location : Location
  context : Option Context

namespace LexicalDiagnostic

/-- What a diagnostic of the lexer tells a host: also the offset at which lexing became invalid. -/
structure Summary where
  code : ErrorCode
  message : Text
  location : Location
  context : Option Context
  offset : Int

def toDiagnostic (d : LexicalDiagnostic) : Diagnostic where
  code := d.code
  body := d.body
  location := some d.location
  context := d.context

def message (d : LexicalDiagnostic) : Text := d.toDiagnostic.message

def offset (d : LexicalDiagnostic) : Int := d.location.offset

def summary (d : LexicalDiagnostic) : Summary where
  code := d.code
  message := d.toDiagnostic.summary.message
  location := d.location
  context := d.context
  offset := d.offset

def format (d : LexicalDiagnostic) : Option (Summary → Text) → Text
  | none => d.message
  | some host => host d.summary

/-- A diagnostic under the code with a given identifier. -/
def ofId (id : Option Text) (body : Text) (location : Location) (context : Option Context) :
    Except IdError LexicalDiagnostic :=
  match ErrorCode.require id with
  | .ok code => .ok ⟨code, body, location, context⟩
  | .error e => .error e

/-- A diagnostic that says what the catalogue says of its code, filled in from the context. -/
def ofCode (code : ErrorCode) (context : Context) (location : Location) : LexicalDiagnostic where
  code := code
  body := Template.render code.messageTemplate context
  location := location
  context := some context

/-- **An error reported under an identifier.**  The identifier is looked up for the message, and once
more by the diagnostic itself. -/
def report (id : Text) (context : Context) (location : Location) :
    Except IdError LexicalDiagnostic :=
  match ErrorCode.lookup id with
  | .ok code =>
      ofId (some id) (Template.render code.messageTemplate context) location (some context)
  | .error e => .error e

/-- What has been found once is found again, so that a report only fails if nothing has the
identifier. -/
theorem report_eq (id : Text) (context : Context) (location : Location) :
    report id context location = (ErrorCode.lookup id).map (ofCode · context location) := by
  rw [report]
  cases hcode : ErrorCode.lookup id with
  | error e => rfl
  | ok code =>
      have hrequire := ErrorCode.require_of_ofId? (ErrorCode.lookup_eq_ok_iff.1 hcode)
      simp only [ofId, hrequire]
      rfl

end LexicalDiagnostic

/-! ## Failures as diagnostics -/

namespace Fault

/-- The identifier that a fault is reported under. -/
def id : Fault → String
  | unclosedCharacter => "IMP-L001"
  | emptyCharacter => "IMP-L002"
  | rawLineBreak _ => "IMP-L003"
  | unknownEscape _ => "IMP-L004"
  | unclosedString => "IMP-L005"
  | missingDigit _ => "IMP-L006"
  | missingFraction => "IMP-L007"
  | notIdentifier => "IMP-L008"
  | notCharacter => "IMP-L008"
  | notString => "IMP-L008"
  | endOfInput => "IMP-L009"
  | atWhitespace => "IMP-L009"

/-- The code that a fault is reported under. -/
def code : Fault → ErrorCode
  | unclosedCharacter => .unterminatedCharacter
  | emptyCharacter => .emptyCharacter
  | rawLineBreak _ => .invalidCharacterContent
  | unknownEscape _ => .invalidEscape
  | unclosedString => .unterminatedString
  | missingDigit _ => .invalidNumber
  | missingFraction => .invalidDecimal
  | notIdentifier => .invalidTokenStart
  | notCharacter => .invalidTokenStart
  | notString => .invalidTokenStart
  | endOfInput => .noToken
  | atWhitespace => .noToken

/-- The catalogue has the identifier of every fault, under its code. -/
theorem lookup_id (fault : Fault) : ErrorCode.lookup (Text.ofString fault.id) = .ok fault.code := by
  have hid : Text.ofString fault.id = fault.code.id := by
    cases fault <;> rfl
  rw [hid, ErrorCode.lookup_eq_ok_iff]
  exact ErrorCode.ofId?_id fault.code

end Fault

namespace Failure

/-- A context of one name. -/
def naming (name : String) (t : Text) : Context := [(Text.ofString name, .text t)]

/-- What is known about the single case: the offending unit, the text before it, or what was
expected.  A line break is shown as its escape, a sign between single quotes. -/
def context (f : Failure) : Context :=
  match f.fault with
  | .unclosedCharacter => []
  | .emptyCharacter => []
  | .rawLineBreak u =>
      naming "char" [CodeUnit.backslash,
        if u = CodeUnit.lineFeed then CodeUnit.lowerN else CodeUnit.lowerR]
  | .unknownEscape u => naming "char" [u]
  | .unclosedString => []
  | .missingDigit (some sign) =>
      naming "sign" [CodeUnit.singleQuote, sign, CodeUnit.singleQuote]
  | .missingDigit none => naming "sign" (Text.ofString "start of number")
  | .missingFraction => naming "value" f.pending
  | .notIdentifier => starting "identifier" "a letter or underscore"
  | .notCharacter => starting "character literal" "'"
  | .notString => starting "string literal" "\""
  | .endOfInput => naming "found" (Text.ofString "end of input")
  | .atWhitespace => naming "found" (Text.ofString "whitespace")
where
  starting (token expected : String) : Context :=
    naming "token" (Text.ofString token) ++ naming "expected" (Text.ofString expected)

/-- **A failure as it is reported**, under the identifier of its fault and at its location. -/
def report (f : Failure) : Except IdError LexicalDiagnostic :=
  LexicalDiagnostic.report (Text.ofString f.fault.id) f.context f.location

theorem report_eq_ofCode (f : Failure) :
    f.report = .ok (LexicalDiagnostic.ofCode f.fault.code f.context f.location) := by
  rw [report, LexicalDiagnostic.report_eq, Fault.lookup_id]
  rfl

theorem isSome_report (f : Failure) : f.report.toOption.isSome = true := by
  rw [report_eq_ofCode]
  rfl

/-- The diagnostic that reporting a failure comes to. -/
def diagnostic (f : Failure) : LexicalDiagnostic := f.report.toOption.get f.isSome_report

theorem diagnostic_eq (f : Failure) :
    f.diagnostic = LexicalDiagnostic.ofCode f.fault.code f.context f.location := by
  simp only [diagnostic, report_eq_ofCode]
  rfl

/-- **No failure is left unreported.** -/
theorem report_eq (f : Failure) : f.report = .ok f.diagnostic := by
  rw [report_eq_ofCode, diagnostic_eq]

@[simp] theorem code_diagnostic (f : Failure) : f.diagnostic.code = f.fault.code := by
  rw [diagnostic_eq]
  rfl

@[simp] theorem context_diagnostic (f : Failure) : f.diagnostic.context = some f.context := by
  rw [diagnostic_eq]
  rfl

@[simp] theorem location_diagnostic (f : Failure) : f.diagnostic.location = f.location := by
  rw [diagnostic_eq]
  rfl

@[simp] theorem offset_diagnostic (f : Failure) : f.diagnostic.offset = f.location.offset := by
  rw [LexicalDiagnostic.offset, location_diagnostic]

/-- Code and context of a failure do not depend on where it is. -/
theorem diagnostic_congr {f f' : Failure} (hfault : f'.fault = f.fault)
    (hpending : f'.pending = f.pending) :
    f'.diagnostic.code = f.diagnostic.code ∧ f'.diagnostic.context = f.diagnostic.context := by
  have hcontext : f'.context = f.context := by
    rw [context, context, hfault, hpending]
  rw [code_diagnostic, code_diagnostic, context_diagnostic, context_diagnostic, hfault, hcontext]
  exact ⟨rfl, rfl⟩

end Failure

end Lexis
