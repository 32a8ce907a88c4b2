import Lexis.Fault
import Lexis.Token

/-!
# Reading one token

Each kind of token has a reader: a function from the text that is left to what stands at its front.
A reader never backs up.  It either finds a token of some length, or it stops after some length at
the first unit that cannot be part of one.

* `Scan` — what a reader found.
* `scanIdentifier`, `scanNumber`, `scanCharacter`, `scanString`, `scanOperator` — the readers.
* `Reader` names them, `Reader.dispatch` picks one by looking at no more than two units, and
  `Reader.scan` applies it.

The two facts that a loop over tokens needs come last.  A token is never empty
(`Reader.token_length_pos`), and, short of an operator read where nothing is left, no reader goes
past the end of the text (`Reader.length_scan_le`).
-/

namespace Lexis

/-- What a reader found at the front of a text. -/
inductive Scan
  /-- A token of this kind, which is the first `length` units. -/
  | token (kind : TokenKind) (length : Nat)
  /-- No token: the first `length` units may start one, and the next unit, or the end, may not
  follow them. -/
  | fault (cause : Fault) (length : Nat)
deriving DecidableEq, Repr

namespace Scan

/-- How many units the reader went over. -/
def length : Scan → Nat
  | token _ n => n
  | fault _ n => n

/-- The same finding, for a reader that had gone over `n` units before. -/
def shift (n : Nat) : Scan → Scan
  | token kind length => token kind (n + length)
  | fault cause length => fault cause (n + length)

@[simp] theorem length_shift (n : Nat) (s : Scan) : (s.shift n).length = n + s.length := by
  cases s <;> rfl

end Scan

open CodeUnit

/-! ## Names -/

/-- A name is a letter or underscore and then all letters, digits, underscores and hyphens that
follow. -/
def scanIdentifier : Text → Scan
  | [] => .fault .notIdentifier 0
  | u :: rest =>
      if u.isIdentifierStart then .token .identifier (1 + (rest.takeWhile isIdentifierChar).length)
      else .fault .notIdentifier 0

/-! ## Numbers

A number is an optional sign, an integer part, and optionally a dot with digits after it.  The
integer part has no leading zero: after a lone `0` it ends, so `007` is three numbers.  Once a dot
has been read there is no way back to the integer before it.
-/

/-- How many digits stand at the front. -/
def digitRun (t : Text) : Nat := (t.takeWhile isDigit).length

/-- The length of the integer part at the front, which is nothing if no digit is there. -/
def integerRun : Text → Nat
  | [] => 0
  | u :: rest => if u = zero then 1 else if u.isDigit then 1 + digitRun rest else 0

/-- What follows an integer part of `n` units. -/
def scanFraction (n : Nat) : Text → Scan
  | [] => .token .integer n
  | u :: rest =>
      if u = CodeUnit.dot then
        match digitRun rest with
        | 0 => .fault .missingFraction (n + 1)
        | k + 1 => .token .decimal (n + 1 + (k + 1))
      else .token .integer n

/-- A number after its sign. -/
def scanUnsigned (sign : Option CodeUnit) (t : Text) : Scan :=
  match integerRun t with
  | 0 => .fault (.missingDigit sign) 0
  | n + 1 => scanFraction (n + 1) (t.drop (n + 1))

def scanNumber : Text → Scan
  | [] => scanUnsigned none []
  | u :: rest =>
      if u.isSign then (scanUnsigned (some u) rest).shift 1 else scanUnsigned none (u :: rest)

/-! ## Character literals -/

/-- The closing quote of a character literal that has `n` units so far. -/
def scanCharacterEnd (n : Nat) : Text → Scan
  | [] => .fault .unclosedCharacter n
  | u :: _ =>
      if u = singleQuote then .token .character (n + 1) else .fault .unclosedCharacter n

/-- A character literal after its opening quote. -/
def scanCharacterBody : Text → Scan
  | [] => .fault .unclosedCharacter 1
  | u :: rest =>
      if u = backslash then
        match rest with
        | [] => .fault .unclosedCharacter 2
        | v :: rest' =>
            if v.isCharacterEscape then scanCharacterEnd 3 rest' else .fault (.unknownEscape v) 2
      else if u = singleQuote then .fault .emptyCharacter 1
      else if u.isLineBreak then .fault (.rawLineBreak u) 1
      else scanCharacterEnd 2 rest

def scanCharacter : Text → Scan
  | [] => .fault .notCharacter 0
  | u :: rest => if u = singleQuote then scanCharacterBody rest else .fault .notCharacter 0

/-! ## String literals -/

/-- A string literal after its opening quote: escapes are read two units at a time, and the first
double quote that is not part of one closes it. -/
def scanStringBody : Text → Scan
  | [] => .fault .unclosedString 0
  | u :: rest =>
      if u = doubleQuote then .token .string 1
      else if u = backslash then
        match rest with
        | [] => .fault .unclosedString 1
        | v :: rest' =>
            if v.isStringEscape then (scanStringBody rest').shift 2 else .fault (.unknownEscape v) 1
      else if u.isLineBreak then .fault .unclosedString 0
      else (scanStringBody rest).shift 1

def scanString : Text → Scan
  | [] => .fault .notString 0
  | u :: rest => if u = doubleQuote then (scanStringBody rest).shift 1 else .fault .notString 0

/-! ## Operators -/

/-- The two-unit operators are `&&`, `||`, `!=`, `==`, `<=` and `>=`. -/
def isOperatorPair (u v : CodeUnit) : Bool :=
  (u == ampersand && v == ampersand) || (u == bar && v == bar) ||
    ((u == exclamation || u == equals || u == less || u == greater) && v == equals)

/-- An operator is two units where they form one and one unit otherwise.  This reader takes its one
unit whatever it is, and even where nothing is left. -/
def scanOperator : Text → Scan
  | u :: v :: _ => .token .operator (if isOperatorPair u v then 2 else 1)
  | _ => .token .operator 1

/-! ## Choosing a reader -/

inductive Reader
  | identifier
  | number
  | character
  | string
  | operator
deriving DecidableEq, Repr

namespace Reader

/-- The reader at work on a text. -/
def scan : Reader → Text → Scan
  | identifier => scanIdentifier
  | number => scanNumber
  | character => scanCharacter
  | string => scanString
  | operator => scanOperator

/-- Whether a digit stands at the front. -/
def startsWithDigit : Text → Bool
  | [] => false
  | u :: _ => u.isDigit

/-- **The reader for what stands at the front of a text.**  A sign starts a number only if a digit
follows it at once. -/
def dispatch : Text → Reader
  | [] => operator
  | u :: rest =>
      if u.isIdentifierStart then identifier
      else if u.isDigit || (u.isSign && startsWithDigit rest) then number
      else if u = singleQuote then character
      else if u = doubleQuote then string
      else operator

end Reader

/-! ## Lengths

That a token has a length of at least one is clear from the last step of each reader: it counts the
quote, dot or unit that it has just accepted.  That no reader overruns the text follows the readers
unit by unit.
-/

namespace Scan

/-- A token of this finding is not empty. -/
def TokenPos : Scan → Prop
  | token _ n => 0 < n
  | fault _ _ => True

theorem tokenPos_shift_succ (n : Nat) (s : Scan) : (s.shift (n + 1)).TokenPos := by
  cases s with
  | token kind length => simp only [shift, TokenPos]; omega
  | fault cause length => exact trivial

end Scan

theorem digitRun_le (t : Text) : digitRun t ≤ t.length :=
  (List.takeWhile_sublist isDigit).length_le

theorem integerRun_le (t : Text) : integerRun t ≤ t.length := by
  cases t with
  | nil => exact Nat.le_refl _
  | cons u rest =>
      have hdigits := digitRun_le rest
      simp only [integerRun, List.length_cons]
      split
      · omega
      · split <;> omega

theorem length_scanIdentifier_le (t : Text) : (scanIdentifier t).length ≤ t.length := by
  cases t with
  | nil => exact Nat.le_refl _
  | cons u rest =>
      have hchars : (rest.takeWhile isIdentifierChar).length ≤ rest.length :=
        (List.takeWhile_sublist isIdentifierChar).length_le
      simp only [scanIdentifier]
      split <;> simp only [Scan.length, List.length_cons] <;> omega

theorem length_scanFraction_le (n : Nat) (t : Text) :
    (scanFraction n t).length ≤ n + t.length := by
  cases t with
  | nil => exact Nat.le_refl _
  | cons u rest =>
      have hdigits := digitRun_le rest
      simp only [scanFraction]
      split
      · split <;> simp only [Scan.length, List.length_cons] <;> omega
      · simp only [Scan.length, List.length_cons]; omega

theorem length_scanUnsigned_le (sign : Option CodeUnit) (t : Text) :
    (scanUnsigned sign t).length ≤ t.length := by
  have hrun := integerRun_le t
  unfold scanUnsigned
  split
  · exact Nat.zero_le _
  · next n hn =>
      have hfraction := length_scanFraction_le (n + 1) (t.drop (n + 1))
      rw [List.length_drop] at hfraction
      omega

theorem length_scanNumber_le (t : Text) : (scanNumber t).length ≤ t.length := by
  cases t with
  | nil => exact length_scanUnsigned_le none []
  | cons u rest =>
      simp only [scanNumber]
      split
      · have hunsigned := length_scanUnsigned_le (some u) rest
        simp only [Scan.length_shift, List.length_cons]
        omega
      · exact length_scanUnsigned_le none (u :: rest)

theorem length_scanCharacterEnd_le (n : Nat) (t : Text) :
    (scanCharacterEnd n t).length ≤ n + t.length := by
  cases t with
  | nil => exact Nat.le_refl _
  | cons u rest =>
      simp only [scanCharacterEnd]
      split <;> simp only [Scan.length, List.length_cons] <;> omega

theorem length_scanCharacterBody_le (t : Text) :
    (scanCharacterBody t).length ≤ 1 + t.length := by
  cases t with
  | nil => exact Nat.le_refl _
  | cons u rest =>
      simp only [scanCharacterBody]
      split
      · cases rest with
        | nil => exact Nat.le_refl _
        | cons v rest' =>
            have hclose := length_scanCharacterEnd_le 3 rest'
            simp only
            split
            · simp only [List.length_cons]; omega
            · simp only [Scan.length, List.length_cons]; omega
      · have hclose := length_scanCharacterEnd_le 2 rest
        split
        · simp only [Scan.length]; omega
        · split
          · simp only [Scan.length]; omega
          · simp only [List.length_cons]; omega

theorem length_scanCharacter_le (t : Text) : (scanCharacter t).length ≤ t.length := by
  cases t with
  | nil => exact Nat.le_refl _
  | cons u rest =>
      have hbody := length_scanCharacterBody_le rest
      simp only [scanCharacter]
      split
      · simp only [List.length_cons]; omega
      · exact Nat.zero_le _

theorem length_scanStringBody_le (t : Text) : (scanStringBody t).length ≤ t.length := by
  fun_induction scanStringBody t with
  | case1 => exact Nat.le_refl _
  | case2 rest => simp only [Scan.length, List.length_cons]; omega
  | case3 => simp [Scan.length]
  | case4 v rest' h he ih => simp only [Scan.length_shift, List.length_cons]; omega
  | case5 v rest' h he => simp only [Scan.length, List.length_cons]; omega
  | case6 => exact Nat.zero_le _
  | case7 u rest h hb hl ih => simp only [Scan.length_shift, List.length_cons]; omega

theorem length_scanString_le (t : Text) : (scanString t).length ≤ t.length := by
  cases t with
  | nil => exact Nat.le_refl _
  | cons u rest =>
      have hbody := length_scanStringBody_le rest
      simp only [scanString]
      split
      · simp only [Scan.length_shift, List.length_cons]; omega
      · exact Nat.zero_le _

theorem length_scanOperator_le {t : Text} (h : t ≠ []) : (scanOperator t).length ≤ t.length := by
  match t with
  | [] => exact absurd rfl h
  | [u] => exact Nat.le_refl _
  | u :: v :: rest =>
      simp only [scanOperator, Scan.length, List.length_cons]
      split <;> omega

theorem tokenPos_scanFraction (n : Nat) (t : Text) : (scanFraction (n + 1) t).TokenPos := by
  cases t with
  | nil => exact Nat.succ_pos n
  | cons u rest =>
      simp only [scanFraction]
      split
      · split
        · exact trivial
        · simp only [Scan.TokenPos]; omega
      · exact Nat.succ_pos n

theorem tokenPos_scanUnsigned (sign : Option CodeUnit) (t : Text) :
    (scanUnsigned sign t).TokenPos := by
  unfold scanUnsigned
  split
  · exact trivial
  · exact tokenPos_scanFraction _ _

theorem tokenPos_scanCharacterEnd (n : Nat) (t : Text) : (scanCharacterEnd n t).TokenPos := by
  cases t with
  | nil => exact trivial
  | cons u rest =>
      simp only [scanCharacterEnd]
      split
      · exact Nat.succ_pos n
      · exact trivial

theorem tokenPos_scanCharacterBody (t : Text) : (scanCharacterBody t).TokenPos := by
  cases t with
  | nil => exact trivial
  | cons u rest =>
      simp only [scanCharacterBody]
      split
      · cases rest with
        | nil => exact trivial
        | cons v rest' =>
            simp only
            split
            · exact tokenPos_scanCharacterEnd _ _
            · exact trivial
      · split
        · exact trivial
        · split
          · exact trivial
          · exact tokenPos_scanCharacterEnd _ _

namespace Reader

/-- No reader goes past the end of the text, except that the operator reader counts a unit where
none is left. -/
theorem length_scan_le (r : Reader) (t : Text) (h : r ≠ operator ∨ t ≠ []) :
    (r.scan t).length ≤ t.length := by
  cases r with
  | identifier => exact length_scanIdentifier_le t
  | number => exact length_scanNumber_le t
  | character => exact length_scanCharacter_le t
  | string => exact length_scanString_le t
  | operator => exact length_scanOperator_le (h.resolve_left fun hne => hne rfl)

theorem tokenPos_scan (r : Reader) (t : Text) : (r.scan t).TokenPos := by
  cases r with
  | identifier =>
      cases t with
      | nil => exact trivial
      | cons u rest =>
          simp only [scan, scanIdentifier]
          split
          · simp only [Scan.TokenPos]; omega
          · exact trivial
  | number =>
      cases t with
      | nil => exact trivial
      | cons u rest =>
          simp only [scan, scanNumber]
          split
          · exact Scan.tokenPos_shift_succ 0 _
          · exact tokenPos_scanUnsigned _ _
  | character =>
      cases t with
      | nil => exact trivial
      | cons u rest =>
          simp only [scan, scanCharacter]
          split
          · exact tokenPos_scanCharacterBody _
          · exact trivial
  | string =>
      cases t with
      | nil => exact trivial
      | cons u rest =>
          simp only [scan, scanString]
          split
          · exact Scan.tokenPos_shift_succ 0 _
          · exact trivial
  | operator =>
      match t with
      | [] => exact Nat.one_pos
      | [u] => exact Nat.one_pos
      | u :: v :: rest =>
          simp only [scan, scanOperator, Scan.TokenPos]
          split <;> omega

/-- **A token is never empty.** -/
theorem token_length_pos {r : Reader} {t : Text} {kind : TokenKind} {n : Nat}
    (h : r.scan t = .token kind n) : 0 < n := by
  have hpos := tokenPos_scan r t
  rwa [h] at hpos

end Reader

end Lexis
