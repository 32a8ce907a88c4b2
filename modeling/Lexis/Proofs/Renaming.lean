import Lexis.Diagnostic
import Lexis.Proofs.Runs
import Mathlib.Order.CompletePartialOrder

/-!
# Renaming

The lexer looks at a unit only to ask which class it is in, and it tells apart no more than
twenty-three units by themselves.  So whatever else is exchanged within its class, the lexer answers
as before, with the units exchanged.

* `CodeUnit.named` — the units that the rules name, and which a renaming leaves alone.
* `Renaming` — a map of units that stays within each class.  It may map different units to one.
* `Renaming.isLetter_apply`, `Renaming.isDigit_apply`, `Renaming.apply_eq_iff` — the three questions
  whose answers a renaming keeps.  Every class is put together from them.
* `Renaming.map_language_le` — the image of a lexeme is a lexeme of the same kind.
* `Renaming.breaks_map`, `Renaming.reads_map` — the image breaks where the text breaks, and is read as
  the text is.
* `Renaming.lex_map_eq_ok`, `Renaming.lex_map_eq_error` — the answer for the image is the renamed
  answer.
* **`Renaming.lex_rename`** — what that means for tokens and for what is reported of a failure.
-/

namespace Lexis

open CodeUnit Grammar
open scoped Computability

/-! ## Renamings -/

/-- The units that the rules of the lexer name. -/
def CodeUnit.named : List CodeUnit :=
  [space, backspace, lineFeed, carriageReturn, tab, lowerB, lowerN, lowerR, lowerT, zero,
    underscore, hyphen, plus, dot, singleQuote, doubleQuote, backslash, ampersand, bar,
    exclamation, equals, less, greater]

lemma isLetter_eq_false_of_isDigit {u : CodeUnit} (hu : u.isDigit = true) :
    u.isLetter = false := by
  grind [isLetter, isDigit]

lemma isDigit_eq_false_of_isLetter {u : CodeUnit} (hu : u.isLetter = true) :
    u.isDigit = false := by
  grind [isLetter, isDigit]

/-- A map of units that keeps the named ones and stays among the other letters, among the other
digits, and among the units that are neither. -/
structure Renaming where
  toFun : CodeUnit → CodeUnit
  apply_named : ∀ u ∈ named, toFun u = u
  letter : ∀ u ∉ named, u.isLetter = true → toFun u ∉ named ∧ (toFun u).isLetter = true
  digit : ∀ u ∉ named, u.isDigit = true → toFun u ∉ named ∧ (toFun u).isDigit = true
  other : ∀ u ∉ named, u.isLetter = false → u.isDigit = false →
    toFun u ∉ named ∧ (toFun u).isLetter = false ∧ (toFun u).isDigit = false

namespace Renaming

instance : CoeFun Renaming fun _ => CodeUnit → CodeUnit := ⟨toFun⟩

/-- One unit for each class: `A` for the letters, `1` for the digits, `#` for the rest. -/
def representative : Renaming where
  toFun u := if u ∈ named then u else if u.isLetter then 0x41 else if u.isDigit then 0x31 else 0x23
  apply_named u hu := if_pos hu
  letter u hu hletter := by
    rw [if_neg hu, if_pos hletter]
    decide
  digit u hu hdigit := by
    rw [if_neg hu, isLetter_eq_false_of_isDigit hdigit, if_neg Bool.false_ne_true, if_pos hdigit]
    decide
  other u hu hletter hdigit := by
    rw [if_neg hu, hletter, hdigit, if_neg Bool.false_ne_true, if_neg Bool.false_ne_true]
    decide

variable (ρ : Renaming)

/-! ## What a renaming keeps -/

lemma apply_mem_named_iff (u : CodeUnit) : ρ u ∈ named ↔ u ∈ named := by
  constructor
  · intro h
    by_contra hu
    cases hletter : u.isLetter with
    | true => exact (ρ.letter u hu hletter).1 h
    | false =>
        cases hdigit : u.isDigit with
        | true => exact (ρ.digit u hu hdigit).1 h
        | false => exact (ρ.other u hu hletter hdigit).1 h
  · intro hu
    rwa [ρ.apply_named u hu]

/-- A named unit comes from itself alone. -/
lemma apply_eq_iff {s : CodeUnit} (hs : s ∈ named) (u : CodeUnit) : ρ u = s ↔ u = s := by
  constructor
  · rintro rfl
    exact (ρ.apply_named u ((ρ.apply_mem_named_iff u).1 hs)).symm
  · rintro rfl
    exact ρ.apply_named u hs

lemma beq_apply {s : CodeUnit} (hs : s ∈ named) (u : CodeUnit) : (ρ u == s) = (u == s) := by
  rw [Bool.eq_iff_iff, beq_iff_eq, beq_iff_eq, ρ.apply_eq_iff hs]

@[simp] lemma isLetter_apply (u : CodeUnit) : (ρ u).isLetter = u.isLetter := by
  by_cases hu : u ∈ named
  · rw [ρ.apply_named u hu]
  · cases hletter : u.isLetter with
    | true => exact (ρ.letter u hu hletter).2
    | false =>
        cases hdigit : u.isDigit with
        | true => exact isLetter_eq_false_of_isDigit (ρ.digit u hu hdigit).2
        | false => exact (ρ.other u hu hletter hdigit).2.1

@[simp] lemma isDigit_apply (u : CodeUnit) : (ρ u).isDigit = u.isDigit := by
  by_cases hu : u ∈ named
  · rw [ρ.apply_named u hu]
  · cases hdigit : u.isDigit with
    | true => exact (ρ.digit u hu hdigit).2
    | false =>
        cases hletter : u.isLetter with
        | true => exact isDigit_eq_false_of_isLetter (ρ.letter u hu hletter).2
        | false => exact (ρ.other u hu hletter hdigit).2.2

/-! ### Classes -/

@[simp] lemma isNonZeroDigit_apply (u : CodeUnit) : (ρ u).isNonZeroDigit = u.isNonZeroDigit := by
  simp (disch := decide) only [isNonZeroDigit, bne, ρ.isDigit_apply, ρ.beq_apply]

@[simp] lemma isIdentifierStart_apply (u : CodeUnit) :
    (ρ u).isIdentifierStart = u.isIdentifierStart := by
  simp (disch := decide) only [isIdentifierStart, ρ.isLetter_apply, ρ.beq_apply]

@[simp] lemma isIdentifierChar_apply (u : CodeUnit) :
    (ρ u).isIdentifierChar = u.isIdentifierChar := by
  simp (disch := decide) only [isIdentifierChar, ρ.isIdentifierStart_apply, ρ.isDigit_apply,
    ρ.beq_apply]

@[simp] lemma isWhitespace_apply (u : CodeUnit) : (ρ u).isWhitespace = u.isWhitespace := by
  simp (disch := decide) only [isWhitespace, ρ.beq_apply]

@[simp] lemma isSign_apply (u : CodeUnit) : (ρ u).isSign = u.isSign := by
  simp (disch := decide) only [isSign, ρ.beq_apply]

@[simp] lemma isLineBreak_apply (u : CodeUnit) : (ρ u).isLineBreak = u.isLineBreak := by
  simp (disch := decide) only [isLineBreak, ρ.beq_apply]

@[simp] lemma isCharacterEscape_apply (u : CodeUnit) :
    (ρ u).isCharacterEscape = u.isCharacterEscape := by
  simp (disch := decide) only [isCharacterEscape, ρ.beq_apply]

@[simp] lemma isStringEscape_apply (u : CodeUnit) :
    (ρ u).isStringEscape = u.isStringEscape := by
  simp (disch := decide) only [isStringEscape, ρ.isCharacterEscape_apply, ρ.beq_apply]

@[simp] lemma isCharacterPlain_apply (u : CodeUnit) :
    isCharacterPlain (ρ u) = isCharacterPlain u := by
  simp (disch := decide) only [isCharacterPlain, bne, ρ.isLineBreak_apply, ρ.beq_apply]

@[simp] lemma isStringPlain_apply (u : CodeUnit) : isStringPlain (ρ u) = isStringPlain u := by
  simp (disch := decide) only [isStringPlain, bne, ρ.isLineBreak_apply, ρ.beq_apply]

@[simp] lemma isOperatorUnit_apply (u : CodeUnit) : isOperatorUnit (ρ u) = isOperatorUnit u := by
  simp (disch := decide) only [isOperatorUnit, ρ.isWhitespace_apply, ρ.isLetter_apply,
    ρ.isDigit_apply, ρ.beq_apply]

@[simp] lemma isOperatorPair_apply (u v : CodeUnit) :
    isOperatorPair (ρ u) (ρ v) = isOperatorPair u v := by
  simp (disch := decide) only [isOperatorPair, ρ.beq_apply]

/-! ## Lexemes

Each language is written with classes and named units, and taking images goes through the operations
that put them together.
-/

lemma map_unit_le {p : CodeUnit → Bool} (hp : ∀ u, p (ρ u) = p u) :
    Language.map ρ (unit p) ≤ unit p := by
  rintro _ ⟨_, ⟨u, hu, rfl⟩, rfl⟩
  exact ⟨ρ u, (hp u).trans hu, rfl⟩

lemma map_singleton_le {s : CodeUnit} (hs : s ∈ named) :
    Language.map ρ {[s]} ≤ {[s]} := by
  rintro _ ⟨_, rfl, rfl⟩
  exact congrArg ([·]) (ρ.apply_named s hs)

lemma map_integer_le : Language.map ρ integer ≤ integer := by
  have hmagnitude : Language.map ρ magnitude ≤ magnitude := by
    rw [magnitude, map_add, map_mul, Language.map_kstar]
    exact add_le_add (ρ.map_singleton_le (by decide))
      (mul_le_mul' (ρ.map_unit_le ρ.isNonZeroDigit_apply)
        (kstar_mono (ρ.map_unit_le ρ.isDigit_apply)))
  rw [integer, map_mul, map_add, map_one]
  exact mul_le_mul' (add_le_add le_rfl (ρ.map_unit_le ρ.isSign_apply)) hmagnitude

lemma map_characterContent_le : Language.map ρ characterContent ≤ characterContent := by
  rw [characterContent, map_add, map_mul]
  exact add_le_add (ρ.map_unit_le ρ.isCharacterPlain_apply)
    (mul_le_mul' (ρ.map_singleton_le (by decide)) (ρ.map_unit_le ρ.isCharacterEscape_apply))

lemma map_stringContent_le : Language.map ρ stringContent ≤ stringContent := by
  rw [stringContent, Language.map_kstar, map_add, map_mul]
  exact kstar_mono (add_le_add (ρ.map_unit_le ρ.isStringPlain_apply)
    (mul_le_mul' (ρ.map_singleton_le (by decide)) (ρ.map_unit_le ρ.isStringEscape_apply)))

lemma map_quoted_le {q : CodeUnit} {l : Language CodeUnit} (hq : q ∈ named)
    (hl : Language.map ρ l ≤ l) : Language.map ρ (quoted q l) ≤ quoted q l := by
  rw [quoted, map_mul, map_mul]
  exact mul_le_mul' (ρ.map_singleton_le hq) (mul_le_mul' hl (ρ.map_singleton_le hq))

lemma map_operatorPair_le : Language.map ρ operatorPair ≤ operatorPair := by
  rintro _ ⟨_, ht, rfl⟩
  obtain ⟨u, v, rfl, h⟩ := mem_operatorPair.1 ht
  exact mem_operatorPair.2 ⟨ρ u, ρ v, rfl, (ρ.isOperatorPair_apply u v).trans h⟩

/-- **The image of a lexeme is a lexeme of the same kind.** -/
theorem map_language_le (kind : TokenKind) : Language.map ρ kind.language ≤ kind.language := by
  cases kind with
  | identifier =>
      rw [TokenKind.language, identifier, map_mul, Language.map_kstar]
      exact mul_le_mul' (ρ.map_unit_le ρ.isIdentifierStart_apply)
        (kstar_mono (ρ.map_unit_le ρ.isIdentifierChar_apply))
  | integer => exact ρ.map_integer_le
  | decimal =>
      have hdigit := ρ.map_unit_le ρ.isDigit_apply
      rw [TokenKind.language, decimal, map_mul, map_mul, map_mul, Language.map_kstar]
      exact mul_le_mul' ρ.map_integer_le (mul_le_mul' (ρ.map_singleton_le (by decide))
        (mul_le_mul' hdigit (kstar_mono hdigit)))
  | character => exact ρ.map_quoted_le (by decide) ρ.map_characterContent_le
  | string => exact ρ.map_quoted_le (by decide) ρ.map_stringContent_le
  | operator =>
      rw [TokenKind.language, operator, map_add]
      exact add_le_add ρ.map_operatorPair_le (ρ.map_unit_le ρ.isOperatorUnit_apply)

lemma map_mem {l : Language CodeUnit} (h : Language.map ρ l ≤ l) {t : Text} (ht : t ∈ l) :
    t.map ρ ∈ l :=
  h ⟨t, ht, rfl⟩

/-! ## Lookahead -/

lemma unsigned_map (t : Text) : unsigned (t.map ρ) = (unsigned t).map ρ := by
  cases t with
  | nil => rfl
  | cons u t =>
      rw [List.map_cons, unsigned, unsigned, ρ.isSign_apply]
      split <;> rfl

lemma map_eq_zero_iff (t : Text) : t.map ρ = [zero] ↔ t = [zero] := by
  have hzero : zero ∈ named := by decide
  constructor
  · intro h
    obtain ⟨u, rfl, hu⟩ := List.map_eq_singleton_iff.1 h
    rw [(ρ.apply_eq_iff hzero u).1 hu]
  · rintro rfl
    rw [List.map_singleton, ρ.apply_named zero hzero]

lemma continues_map (kind : TokenKind) (l : Text) (u : CodeUnit) :
    kind.continues (l.map ρ) (ρ u) = kind.continues l u := by
  cases kind with
  | identifier => exact ρ.isIdentifierChar_apply u
  | integer =>
      have hzero : (unsigned (l.map ρ) != [zero]) = (unsigned l != [zero]) := by
        rw [Bool.eq_iff_iff, bne_iff_ne, bne_iff_ne, ρ.unsigned_map, ne_eq, ρ.map_eq_zero_iff]
      rw [TokenKind.continues, TokenKind.continues, ρ.isDigit_apply, hzero,
        ρ.beq_apply (by decide)]
  | decimal => exact ρ.isDigit_apply u
  | character => rfl
  | string => rfl
  | operator =>
      rcases l with _ | ⟨v, _ | ⟨w, l⟩⟩
      · rfl
      · simp only [List.map_cons, List.map_nil, TokenKind.continues, ρ.isSign_apply,
          ρ.isDigit_apply, ρ.isOperatorPair_apply]
      · rfl

lemma ends_map {kind : TokenKind} {l rest : Text} (h : Ends kind l rest) :
    Ends kind (l.map ρ) (rest.map ρ) := by
  intro v hv
  rw [List.head?_map] at hv
  obtain ⟨u, hu, rfl⟩ := Option.mem_map.1 hv
  exact (ρ.continues_map kind l u).trans (h u hu)

lemma step_apply (loc : Location) (u : CodeUnit) : loc.step (ρ u) = loc.step u := by
  simp only [Location.step, ρ.apply_eq_iff (show lineFeed ∈ named by decide)]

lemma after_map (loc : Location) (t : Text) : loc.after (t.map ρ) = loc.after t := by
  induction t generalizing loc with
  | nil => rfl
  | cons u t ih =>
      rw [List.map_cons, Location.after_cons, Location.after_cons, ρ.step_apply, ih]

end Renaming

/-! ## Tokens and failures -/

/-- The token that the renamed text has in the same place. -/
def Token.rename (ρ : Renaming) (token : Token) : Token :=
  { token with lexeme := token.lexeme.map ρ }

/-- The fault of the renamed text.  A unit that is no escape is exchanged; line breaks and signs are
not. -/
def Fault.rename (ρ : Renaming) : Fault → Fault
  | .unknownEscape u => .unknownEscape (ρ u)
  | cause => cause

def Failure.rename (ρ : Renaming) (failure : Failure) : Failure where
  fault := failure.fault.rename ρ
  pending := failure.pending.map ρ
  location := failure.location

lemma Fault.code_rename (ρ : Renaming) (cause : Fault) : (cause.rename ρ).code = cause.code := by
  cases cause <;> rfl

/-- The name under which an error quotes the text. -/
def ErrorCode.quoted? : ErrorCode → Option Text
  | .invalidEscape => some (Text.ofString "char")
  | .invalidDecimal => some (Text.ofString "value")
  | _ => none

def Value.rename (ρ : Renaming) : Value → Value
  | .text t => .text (t.map ρ)
  | v => v

/-- The context with the text under one name exchanged. -/
def Context.rename (ρ : Renaming) (quoted : Option Text) (context : Context) : Context :=
  context.map fun entry => (entry.1, if quoted = some entry.1 then entry.2.rename ρ else entry.2)

lemma Context.rename_naming (ρ : Renaming) (name : String) (t : Text) :
    (Failure.naming name t).rename ρ (some (Text.ofString name)) =
      Failure.naming name (t.map ρ) := by
  simp [Context.rename, Failure.naming, Value.rename]

/-- What is reported of a renamed failure. -/
lemma Failure.context_rename (ρ : Renaming) (failure : Failure) :
    (failure.rename ρ).context =
      failure.context.rename ρ failure.fault.code.quoted? := by
  obtain ⟨cause, pending, location⟩ := failure
  cases cause with
  | unknownEscape u => exact (Context.rename_naming ρ "char" [u]).symm
  | missingFraction => exact (Context.rename_naming ρ "value" pending).symm
  | missingDigit sign => cases sign <;> rfl
  | _ => rfl

namespace Renaming

variable (ρ : Renaming)

/-! ## Runs -/

lemma apply_of_isLineBreak {u : CodeUnit} (hu : u.isLineBreak = true) : ρ u = u := by
  simp only [isLineBreak, Bool.or_eq_true, beq_iff_eq] at hu
  rcases hu with rfl | rfl <;> exact ρ.apply_named _ (by decide)

/-- **What breaks a start breaks its image.** -/
theorem breaks_map {start : Text} {next : Option CodeUnit} {cause : Fault}
    (h : Breaks start next cause) : Breaks (start.map ρ) (next.map ρ) (cause.rename ρ) := by
  have hdot : ρ dot = dot := ρ.apply_named dot (by decide)
  have hsingle : ρ singleQuote = singleQuote := ρ.apply_named singleQuote (by decide)
  have hdouble : ρ doubleQuote = doubleQuote := ρ.apply_named doubleQuote (by decide)
  have hbackslash : ρ backslash = backslash := ρ.apply_named backslash (by decide)
  cases h with
  | @fraction i next hi hnext =>
      have hnext' : ∀ v ∈ next.map ρ, v.isDigit = false := by simpa using hnext
      simpa [hdot, Fault.rename] using Breaks.fraction (ρ.map_mem ρ.map_integer_le hi) hnext'
  | characterEnd => simpa [hsingle, Fault.rename] using Breaks.characterEnd
  | characterEmpty => simpa [hsingle, Fault.rename] using Breaks.characterEmpty
  | characterLineBreak hu =>
      simpa [hsingle, Fault.rename, ρ.apply_of_isLineBreak hu] using Breaks.characterLineBreak hu
  | characterEscapeEnd => simpa [hsingle, hbackslash, Fault.rename] using Breaks.characterEscapeEnd
  | @characterEscape u hu =>
      rw [← ρ.isCharacterEscape_apply] at hu
      simpa [hsingle, hbackslash, Fault.rename] using Breaks.characterEscape hu
  | @characterClose content _ hcontent hnext =>
      have hnext' : next.map ρ ≠ some singleQuote := by
        intro h
        obtain ⟨u, rfl, hu⟩ := Option.map_eq_some_iff.1 h
        exact hnext (congrArg some ((ρ.apply_eq_iff (by decide) u).1 hu))
      have hcontent' := ρ.map_mem ρ.map_characterContent_le hcontent
      simpa [hsingle, Fault.rename] using Breaks.characterClose hcontent' hnext'
  | @stringClose content _ hcontent hnext =>
      have hnext' : ∀ v ∈ next.map ρ, v.isLineBreak = true := by simpa using hnext
      have hcontent' := ρ.map_mem ρ.map_stringContent_le hcontent
      simpa [hdouble, Fault.rename] using Breaks.stringClose hcontent' hnext'
  | @stringEscapeEnd content hcontent =>
      have hcontent' := ρ.map_mem ρ.map_stringContent_le hcontent
      simpa [hdouble, hbackslash, Fault.rename] using Breaks.stringEscapeEnd hcontent'
  | @stringEscape content u hcontent hu =>
      rw [← ρ.isStringEscape_apply] at hu
      have hcontent' := ρ.map_mem ρ.map_stringContent_le hcontent
      simpa [hdouble, hbackslash, Fault.rename] using Breaks.stringEscape hcontent' hu

/-- **What has been read of a text is read of its image.** -/
theorem reads_map {loc : Location} {pre rest : Text} {tokens : List Token}
    (h : Reads loc pre rest tokens) :
    Reads loc (pre.map ρ) (rest.map ρ) (tokens.map (Token.rename ρ)) := by
  induction h with
  | done loc rest => exact Reads.done loc (rest.map ρ)
  | @gap loc u pre rest tokens hu _ ih =>
      rw [← ρ.isWhitespace_apply] at hu
      rw [← ρ.step_apply] at ih
      exact Reads.gap hu ih
  | @token loc kind l pre rest tokens hl hend _ ih =>
      rw [← ρ.after_map loc l] at ih
      have hend' := ρ.ends_map hend
      rw [List.map_append] at hend' ⊢
      exact Reads.token (ρ.map_mem (ρ.map_language_le kind) hl) hend' ih

theorem lex_map_eq_ok {base : Location} {t : Text} {tokens : List Token}
    (h : lex base t = .ok tokens) :
    lex base (t.map ρ) = .ok (tokens.map (Token.rename ρ)) :=
  lex_eq_ok_iff.2 (ρ.reads_map (lex_eq_ok_iff.1 h))

theorem lex_map_eq_error {base : Location} {t : Text} {failure : Failure}
    (h : lex base t = .error failure) :
    lex base (t.map ρ) = .error (failure.rename ρ) := by
  obtain ⟨pre, start, rest, tokens, cause, rfl, hreads, hbreaks, rfl⟩ := lex_eq_error_iff.1 h
  have hreads' := ρ.reads_map hreads
  have hbreaks' := ρ.breaks_map hbreaks
  rw [List.map_append] at hreads'
  rw [← List.head?_map] at hbreaks'
  rw [List.map_append, List.map_append, hreads'.lex_eq_error hbreaks', ← List.map_append,
    ρ.after_map, Failure.rename]

/-- **The lexer depends on classes of units only.**  Take any map of units that keeps the named ones
and stays within each class, one-to-one or not.  If a text lexes, then so does its image, and the
tokens are of the same kinds, in the same places, and have the images of the lexemes.  If a text
fails, then its image fails under the same code in the same place.  The context is the same too, but
for the unit that is no escape and the number without a fraction, which are shown as their images. -/
theorem lex_rename (base : Location) (t : Text) :
    (∀ tokens, lex base t = .ok tokens →
      lex base (t.map ρ) =
        .ok (tokens.map fun token => ⟨token.kind, token.lexeme.map ρ, token.offset⟩)) ∧
    ∀ failure, lex base t = .error failure →
      ∃ failure', lex base (t.map ρ) = .error failure' ∧
        failure'.diagnostic.code = failure.diagnostic.code ∧
        failure'.diagnostic.location = failure.diagnostic.location ∧
        failure'.diagnostic.context =
          failure.diagnostic.context.map (Context.rename ρ failure.diagnostic.code.quoted?) := by
  refine ⟨fun tokens => ρ.lex_map_eq_ok, fun failure h => ?_⟩
  simp only [Failure.code_diagnostic, Failure.location_diagnostic, Failure.context_diagnostic]
  refine ⟨failure.rename ρ, ρ.lex_map_eq_error h, failure.fault.code_rename ρ, rfl, ?_⟩
  exact congrArg some (failure.context_rename ρ)

/-- The name `q9` with an `é` behind it, and its image `A1#`; then `"\q`, where the unit behind the
backslash is no escape, and neither is the one that stands for it. -/
theorem lex_rename_representative :
    (lex Location.start [0x71, nine, 0xE9] =
        .ok [⟨.identifier, [0x71, nine], 0⟩, ⟨.operator, [0xE9], 2⟩] ∧
      lex Location.start [0x41, 0x31, 0x23] =
        .ok [⟨.identifier, [0x41, 0x31], 0⟩, ⟨.operator, [0x23], 2⟩]) ∧
    lex Location.start [doubleQuote, backslash, 0x71] =
        .error ⟨.unknownEscape 0x71, [doubleQuote, backslash], ⟨1, 3, 2⟩⟩ ∧
      ∃ failure', lex Location.start [doubleQuote, backslash, 0x41] = .error failure' ∧
        failure'.diagnostic.code = .invalidEscape ∧
        failure'.diagnostic.location = ⟨1, 3, 2⟩ ∧
        failure'.diagnostic.context = some [(Text.ofString "char", .text [0x41])] := by
  have hok : lex Location.start [0x71, nine, 0xE9] =
      .ok [⟨.identifier, [0x71, nine], 0⟩, ⟨.operator, [0xE9], 2⟩] := by cbv
  have herror : lex Location.start [doubleQuote, backslash, 0x71] =
      .error ⟨.unknownEscape 0x71, [doubleQuote, backslash], ⟨1, 3, 2⟩⟩ := by cbv
  obtain ⟨failure', hfailure', hcode, hlocation, hcontext⟩ :=
    (representative.lex_rename _ _).2 _ herror
  refine ⟨⟨hok, (representative.lex_rename _ _).1 _ hok⟩, herror, failure', hfailure', hcode,
    hlocation, ?_⟩
  rw [hcontext]
  rfl

end Renaming

end Lexis
