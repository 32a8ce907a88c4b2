import Lexis.Diagnostic
import Lexis.Proofs.Restart

/-!
# What a failure is reported as

A failure comes with a code and with a context.  Both can be told from the text: from what opens the
construct that fails, from how far it was read, and from the unit that stands there.

* `Text.isEscaped` — the escaped units of a literal, one after the other.
* `Cursor.StopsAt` — where the construct that fails begins.  It refers to a run alone.
* `CharacterDiagnosis`, `StringDiagnosis`, `NumberDiagnosis` — what is reported of each construct.
* `Text.Stands` — a start in its place, which is all that the three are read off.
* **`lex_failure_diagnosis`** — a failure is reported under one of six codes, and under which one.

Nothing but a literal or a number can fail.  A name or an operator is complete with its first unit,
and the three codes that are left belong to callers who ask for a token where none can be.
-/

namespace Lexis

open CodeUnit Grammar

/-! ## Escaped units -/

namespace Text

/-- Whether unit `k` is escaped: in front of it stands a backslash that is not escaped itself. -/
def isEscaped (t : Text) : Nat → Bool
  | 0 => false
  | k + 1 => t[k]? == some backslash && !t.isEscaped k

/-- Only what stands in front of a unit can escape it. -/
lemma isEscaped_congr {t t' : Text} {k : Nat} (h : ∀ i < k, t[i]? = t'[i]?) :
    t.isEscaped k = t'.isEscaped k := by
  induction k with
  | zero => rfl
  | succ k ih =>
      have hfront := ih fun i hi => h i (Nat.lt_succ_of_lt hi)
      rw [isEscaped, isEscaped, hfront, h k (Nat.lt_succ_self k)]

/-- Behind a text whose last unit escapes nothing, everything starts anew. -/
lemma isEscaped_append {t : Text} (ht : t.isEscaped t.length = false) (more : Text) (k : Nat) :
    (t ++ more).isEscaped (t.length + k) = more.isEscaped k := by
  induction k with
  | zero =>
      rw [Nat.add_zero, isEscaped, ← ht]
      exact isEscaped_congr fun i hi => List.getElem?_append_left hi
  | succ k ih =>
      rw [← Nat.add_assoc, isEscaped, isEscaped, ih,
        List.getElem?_append_right (Nat.le_add_right _ _), Nat.add_sub_cancel_left]

/-- The last unit in the content of a string escapes nothing, as each backslash comes with what it
escapes. -/
lemma isEscaped_of_mem_stringContent {content : Text} (h : content ∈ stringContent) :
    content.isEscaped content.length = false := by
  refine stringContent_induction
    (motive := fun content => content.isEscaped content.length = false) rfl ?plain ?escape content h
  case plain =>
    intro u t hu _ ih
    have hplain : isEscaped [u] 1 = false := by
      simp only [isStringPlain, Bool.and_eq_true, bne_iff_ne] at hu
      simp [isEscaped, hu.1.2]
    have happend := isEscaped_append hplain t t.length
    rwa [ih, List.singleton_append, Nat.add_comm] at happend
  case escape =>
    intro u t _ _ ih
    have hpair : isEscaped [backslash, u] 2 = false := by simp [isEscaped]
    have happend := isEscaped_append hpair t t.length
    rwa [ih, Nat.add_comm] at happend

end Text

/-! ## Where reading stops -/

/-- A run comes to `s` with nothing pending, and there the next token is this failure. -/
def Cursor.StopsAt (base : Location) (input : Text) (s : Nat) (failure : Failure) : Prop :=
  ∃ c c' : Cursor, Relation.ReflTransGen Cursor.Turn (Cursor.start input base) c ∧
    c.index = s ∧ c.mark = s ∧ c.nextToken = (.error failure, c')

/-- In `input`, the text `start` stands from `s` up to `p`, and behind it `next`. -/
structure Text.Stands (input : Text) (s p : Nat) (start : Text) (next : Option CodeUnit) :
    Prop where
  stop_eq : p = s + start.length
  slice_eq : input.slice s p = start
  unit_eq : ∀ i < start.length, input[s + i]? = start[i]?
  next_eq : input[p]? = next
  length_eq : next = none → p = input.length

variable {base loc : Location} {input start t : Text} {s p : Nat} {next : Option CodeUnit}
  {q u : CodeUnit}

namespace Text

lemma stands_append (pre start rest : Text) :
    Stands (pre ++ (start ++ rest)) pre.length (pre ++ start).length start rest.head? where
  stop_eq := List.length_append
  slice_eq := by
    rw [slice_natCast, ← List.append_assoc, List.take_left, List.drop_left]
  unit_eq i hi := by
    rw [List.getElem?_append_right (Nat.le_add_right _ _), Nat.add_sub_cancel_left,
      List.getElem?_append_left hi]
  next_eq := by
    rw [← List.append_assoc, List.getElem?_append_right (Nat.le_refl _), Nat.sub_self,
      List.head?_eq_getElem?]
  length_eq hnone := by
    rw [List.head?_eq_none_iff.1 hnone, List.append_nil]

namespace Stands

lemma first_eq (h : input.Stands s p (q :: t) next) : input[s]? = some q :=
  h.unit_eq 0 (Nat.succ_pos _)

lemma lt_length (h : input.Stands s p start (some u)) : p < input.length :=
  (List.getElem?_eq_some_iff.1 h.next_eq).1

/-- Behind the quote that opens a literal, whether a unit is escaped is a matter of the literal. -/
lemma isEscaped_eq (h : input.Stands s p (q :: t) next) :
    isEscaped (input.drop (s + 1)) (p - (s + 1)) = t.isEscaped t.length := by
  have hlength : p - (s + 1) = t.length := by
    rw [h.stop_eq, List.length_cons]
    omega
  rw [hlength]
  refine isEscaped_congr fun i hi => ?_
  have hunit := h.unit_eq (i + 1) (Nat.succ_lt_succ hi)
  rwa [List.getElem?_cons_succ, Nat.add_comm i, ← Nat.add_assoc, ← List.getElem?_drop] at hunit

end Stands

end Text

/-! ## Character literals -/

/-- What is reported of a character literal at `s` that fails at `p`. -/
structure CharacterDiagnosis (input : Text) (s p : Nat) (d : LexicalDiagnostic) : Prop where
  empty_iff : d.code = .emptyCharacter ↔ p = s + 1 ∧ input[p]? = some singleQuote
  content_iff : d.code = .invalidCharacterContent ↔
    p = s + 1 ∧ (input[p]? = some lineFeed ∨ input[p]? = some carriageReturn)
  escape_iff : d.code = .invalidEscape ↔
    input[s + 1]? = some backslash ∧ p = s + 2 ∧
      ∃ u, input[p]? = some u ∧ u.isCharacterEscape = false
  unterminated_iff : d.code = .unterminatedCharacter ↔
    d.code ≠ .emptyCharacter ∧ d.code ≠ .invalidCharacterContent ∧ d.code ≠ .invalidEscape
  /-- A literal that is not closed fails at the end, or where its closing quote should stand. -/
  of_unterminated : d.code = .unterminatedCharacter →
    p = input.length ∨
      (input[s + 1]? ≠ some backslash ∧ p = s + 2 ∨ input[s + 1]? = some backslash ∧ p = s + 3) ∧
        input[p]? ≠ some singleQuote
  context_lineFeed : d.code = .invalidCharacterContent → input[p]? = some lineFeed →
    d.context = some (Failure.naming "char" [backslash, lowerN])
  context_carriageReturn : d.code = .invalidCharacterContent → input[p]? = some carriageReturn →
    d.context = some (Failure.naming "char" [backslash, lowerR])
  context_escape : d.code = .invalidEscape →
    ∀ u ∈ input[p]?, d.context = some (Failure.naming "char" [u])
  context_nil : d.code = .emptyCharacter ∨ d.code = .unterminatedCharacter → d.context = some []

namespace Text.Stands

lemma character_end (h : input.Stands s p [singleQuote] none) :
    CharacterDiagnosis input s p (Failure.diagnostic ⟨.unclosedCharacter, [singleQuote], loc⟩) := by
  obtain ⟨rfl, -, -, -, hlength⟩ := h
  have hend : s + 1 = input.length := hlength rfl
  constructor <;> simp [Fault.code, Failure.context, hend]

lemma character_empty (h : input.Stands s p [singleQuote] (some singleQuote)) :
    CharacterDiagnosis input s p (Failure.diagnostic ⟨.emptyCharacter, [singleQuote], loc⟩) := by
  obtain ⟨rfl, -, -, hnext, -⟩ := h
  have hnext : input[s + 1]? = some singleQuote := hnext
  constructor <;> simp [Fault.code, Failure.context, hnext, singleQuote, lineFeed, carriageReturn]

lemma character_lineBreak (h : input.Stands s p [singleQuote] (some u))
    (hu : u.isLineBreak = true) :
    CharacterDiagnosis input s p (Failure.diagnostic ⟨.rawLineBreak u, [singleQuote], loc⟩) := by
  obtain ⟨rfl, -, -, hnext, -⟩ := h
  have hnext : input[s + 1]? = some u := hnext
  obtain rfl | rfl : u = lineFeed ∨ u = carriageReturn := by simpa [isLineBreak] using hu
  · constructor <;> simp [Fault.code, Failure.context, hnext, singleQuote, lineFeed, carriageReturn]
  · constructor <;> simp [Fault.code, Failure.context, hnext, singleQuote, lineFeed, carriageReturn]

lemma character_escapeEnd (h : input.Stands s p [singleQuote, backslash] none) :
    CharacterDiagnosis input s p
      (Failure.diagnostic ⟨.unclosedCharacter, [singleQuote, backslash], loc⟩) := by
  obtain ⟨rfl, -, -, -, hlength⟩ := h
  have hend : s + 2 = input.length := hlength rfl
  constructor <;> simp [Fault.code, Failure.context, hend]

lemma character_escape (h : input.Stands s p [singleQuote, backslash] (some u))
    (hu : u.isCharacterEscape = false) :
    CharacterDiagnosis input s p
      (Failure.diagnostic ⟨.unknownEscape u, [singleQuote, backslash], loc⟩) := by
  obtain ⟨rfl, -, hunit, hnext, -⟩ := h
  have hfirst : input[s + 1]? = some backslash := hunit 1 (Nat.lt_succ_self 1)
  have hnext : input[s + 2]? = some u := hnext
  constructor <;> simp [Fault.code, Failure.context, hfirst, hnext, hu]

lemma character_close (h : input.Stands s p (singleQuote :: t) next) (ht : t ∈ characterContent)
    (hnext : next ≠ some singleQuote) :
    CharacterDiagnosis input s p
      (Failure.diagnostic ⟨.unclosedCharacter, singleQuote :: t, loc⟩) := by
  have hp := h.next_eq
  obtain ⟨rfl, -, hunit, -, -⟩ := h
  rw [← hp] at hnext
  rcases mem_characterContent.1 ht with ⟨u, rfl, hu⟩ | ⟨u, rfl, hu⟩
  · have hfirst : input[s + 1]? = some u := hunit 1 (Nat.lt_succ_self 1)
    have hback : u ≠ backslash := by
      simp only [isCharacterPlain, Bool.and_eq_true, bne_iff_ne] at hu
      exact hu.1.2
    have hnext : input[s + 2]? ≠ some singleQuote := hnext
    constructor <;> simp [Fault.code, Failure.context, hfirst, hback, hnext]
  · have hfirst : input[s + 1]? = some backslash := hunit 1 (Nat.succ_lt_succ (Nat.succ_pos 1))
    have hnext : input[s + 3]? ≠ some singleQuote := hnext
    constructor <;> simp [Fault.code, Failure.context, hfirst, hnext]

end Text.Stands

/-! ## String literals -/

/-- What is reported of a string literal at `s` that fails at `p`. -/
structure StringDiagnosis (input : Text) (s p : Nat) (d : LexicalDiagnostic) : Prop where
  escape_iff : d.code = .invalidEscape ↔
    p < input.length ∧ Text.isEscaped (input.drop (s + 1)) (p - (s + 1)) = true
  unterminated_iff : d.code = .unterminatedString ↔ d.code ≠ .invalidEscape
  of_escape : d.code = .invalidEscape →
    ∃ u, input[p]? = some u ∧ u.isStringEscape = false ∧
      d.context = some (Failure.naming "char" [u])
  of_unterminated : d.code = .unterminatedString →
    (p = input.length ∨ input[p]? = some lineFeed ∨ input[p]? = some carriageReturn) ∧
      d.context = some []

namespace Text.Stands

lemma string_close (h : input.Stands s p (doubleQuote :: t) next) (ht : t ∈ stringContent)
    (hnext : ∀ u ∈ next, u.isLineBreak = true) :
    StringDiagnosis input s p (Failure.diagnostic ⟨.unclosedString, doubleQuote :: t, loc⟩) := by
  have hescaped := h.isEscaped_eq
  rw [isEscaped_of_mem_stringContent ht] at hescaped
  have hstop : p = input.length ∨ input[p]? = some lineFeed ∨ input[p]? = some carriageReturn := by
    rw [h.next_eq]
    cases next with
    | none => exact Or.inl (h.length_eq rfl)
    | some u => simpa [isLineBreak] using Or.inr (hnext u rfl)
  constructor <;> simp [Fault.code, Failure.context, hescaped, hstop]

lemma string_escapeEnd (h : input.Stands s p (doubleQuote :: t) none) :
    StringDiagnosis input s p (Failure.diagnostic ⟨.unclosedString, doubleQuote :: t, loc⟩) := by
  have hend := h.length_eq rfl
  constructor <;> simp [Fault.code, Failure.context, hend]

lemma string_escape (h : input.Stands s p (doubleQuote :: (t ++ [backslash])) (some u))
    (ht : t ∈ stringContent) (hu : u.isStringEscape = false) :
    StringDiagnosis input s p
      (Failure.diagnostic ⟨.unknownEscape u, doubleQuote :: (t ++ [backslash]), loc⟩) := by
  have hescaped := h.isEscaped_eq
  rw [List.length_append, isEscaped_append (isEscaped_of_mem_stringContent ht)] at hescaped
  have hescaped : isEscaped (input.drop (s + 1)) (p - (s + 1)) = true := hescaped
  have hlt := h.lt_length
  refine ⟨?_, ?_, fun _ => ⟨u, h.next_eq, hu, Failure.context_diagnostic _⟩, ?_⟩ <;>
    simp [Fault.code, hescaped, hlt]

end Text.Stands

/-! ## Numbers -/

/-- What is reported of a number at `s` that fails at `p`. -/
structure NumberDiagnosis (input : Text) (s p : Nat) (d : LexicalDiagnostic) : Prop where
  code_eq : d.code = .invalidDecimal
  begins : ∃ u, input[s]? = some u ∧
    (u.isDigit = true ∨ u.isSign = true ∧ ∃ v, input[s + 1]? = some v ∧ v.isDigit = true)
  slice_eq : ∃ i ∈ TokenKind.integer.language, input.slice s p = i ++ [dot]
  next_eq : p = input.length ∨ ∃ u, input[p]? = some u ∧ u.isDigit = false
  context_eq : d.context = some (Failure.naming "value" (input.slice s p))

/-- A number begins with a digit, perhaps behind a sign. -/
lemma exists_digit_of_mem_integer {i : Text} (hi : i ∈ integer) :
    (∃ u m, i = u :: m ∧ u.isDigit = true) ∨
      ∃ u v m, i = u :: v :: m ∧ u.isSign = true ∧ v.isDigit = true := by
  rcases mem_integer.1 hi with hm | ⟨u, m, rfl, hu, hm⟩
  · obtain ⟨v, m, rfl, hv⟩ := exists_digit_of_mem_magnitude hm
    exact Or.inl ⟨v, m, rfl, hv⟩
  · obtain ⟨v, m, rfl, hv⟩ := exists_digit_of_mem_magnitude hm
    exact Or.inr ⟨u, v, m, rfl, hu, hv⟩

lemma Text.Stands.number_fraction {i : Text} (h : input.Stands s p (i ++ [dot]) next)
    (hi : i ∈ integer) (hnext : ∀ u ∈ next, u.isDigit = false) :
    NumberDiagnosis input s p (Failure.diagnostic ⟨.missingFraction, i ++ [dot], loc⟩) where
  code_eq := Failure.code_diagnostic _
  begins := by
    rcases exists_digit_of_mem_integer hi with ⟨u, m, rfl, hu⟩ | ⟨u, v, m, rfl, hu, hv⟩
    · exact ⟨u, h.first_eq, Or.inl hu⟩
    · exact ⟨u, h.first_eq, Or.inr ⟨hu, v, h.unit_eq 1 (by simp), hv⟩⟩
  slice_eq := ⟨i, hi, h.slice_eq⟩
  next_eq := by
    rw [h.next_eq]
    cases next with
    | none => exact Or.inl (h.length_eq rfl)
    | some u => exact Or.inr ⟨u, rfl, hnext u rfl⟩
  context_eq := by
    rw [h.slice_eq, Failure.context_diagnostic]
    rfl

/-! ## All failures -/

/-- What is reported of the construct at `s`, by what opens it. -/
structure Diagnosis (input : Text) (s p : Nat) (d : LexicalDiagnostic) : Prop where
  character : input[s]? = some singleQuote → CharacterDiagnosis input s p d
  string : input[s]? = some doubleQuote → StringDiagnosis input s p d
  number : input[s]? ≠ some singleQuote → input[s]? ≠ some doubleQuote → NumberDiagnosis input s p d

namespace Diagnosis

variable {d : LexicalDiagnostic}

lemma of_character (hs : input[s]? = some singleQuote) (h : CharacterDiagnosis input s p d) :
    Diagnosis input s p d where
  character _ := h
  string hs' := by
    rw [hs] at hs'
    exact absurd hs' (by decide)
  number hs' := absurd hs hs'

lemma of_string (hs : input[s]? = some doubleQuote) (h : StringDiagnosis input s p d) :
    Diagnosis input s p d where
  character hs' := by
    rw [hs] at hs'
    exact absurd hs' (by decide)
  string _ := h
  number _ hs' := absurd hs hs'

/-- A number begins with neither quote. -/
lemma of_number (h : NumberDiagnosis input s p d) : Diagnosis input s p d := by
  obtain ⟨u, hs, hu⟩ := h.begins
  refine ⟨fun hs' => ?_, fun hs' => ?_, fun _ _ => h⟩
  · obtain rfl : u = singleQuote := Option.some.inj (hs.symm.trans hs')
    rcases hu with hu | ⟨hu, -⟩ <;> exact absurd hu (by decide)
  · obtain rfl : u = doubleQuote := Option.some.inj (hs.symm.trans hs')
    rcases hu with hu | ⟨hu, -⟩ <;> exact absurd hu (by decide)

end Diagnosis

variable {cause : Fault}

/-- **What breaks a start is what is reported.**  There is one case for each way to break. -/
theorem Breaks.diagnosis (h : Breaks start next cause) (hstands : input.Stands s p start next)
    (loc : Location) : Diagnosis input s p (Failure.diagnostic ⟨cause, start, loc⟩) := by
  cases h with
  | fraction hi hnext => exact Diagnosis.of_number (hstands.number_fraction hi hnext)
  | characterEnd => exact Diagnosis.of_character hstands.first_eq hstands.character_end
  | characterEmpty => exact Diagnosis.of_character hstands.first_eq hstands.character_empty
  | characterLineBreak hu =>
      exact Diagnosis.of_character hstands.first_eq (hstands.character_lineBreak hu)
  | characterEscapeEnd => exact Diagnosis.of_character hstands.first_eq hstands.character_escapeEnd
  | characterEscape hu =>
      exact Diagnosis.of_character hstands.first_eq (hstands.character_escape hu)
  | characterClose hcontent hnext =>
      exact Diagnosis.of_character hstands.first_eq (hstands.character_close hcontent hnext)
  | stringClose hcontent hnext =>
      exact Diagnosis.of_string hstands.first_eq (hstands.string_close hcontent hnext)
  | stringEscapeEnd => exact Diagnosis.of_string hstands.first_eq hstands.string_escapeEnd
  | stringEscape hcontent hu =>
      exact Diagnosis.of_string hstands.first_eq (hstands.string_escape hcontent hu)

/-- The identifiers under which a text can fail. -/
def lexicalIds : List String :=
  ["IMP-L001", "IMP-L002", "IMP-L003", "IMP-L004", "IMP-L005", "IMP-L007"]

lemma Breaks.exists_id (h : Breaks start next cause) :
    ∃ id ∈ lexicalIds, cause.code.id = Text.ofString id := by
  cases h with
  | characterEnd => exact ⟨"IMP-L001", by simp [lexicalIds], rfl⟩
  | characterEscapeEnd => exact ⟨"IMP-L001", by simp [lexicalIds], rfl⟩
  | characterClose => exact ⟨"IMP-L001", by simp [lexicalIds], rfl⟩
  | characterEmpty => exact ⟨"IMP-L002", by simp [lexicalIds], rfl⟩
  | characterLineBreak => exact ⟨"IMP-L003", by simp [lexicalIds], rfl⟩
  | characterEscape => exact ⟨"IMP-L004", by simp [lexicalIds], rfl⟩
  | stringEscape => exact ⟨"IMP-L004", by simp [lexicalIds], rfl⟩
  | stringClose => exact ⟨"IMP-L005", by simp [lexicalIds], rfl⟩
  | stringEscapeEnd => exact ⟨"IMP-L005", by simp [lexicalIds], rfl⟩
  | fraction => exact ⟨"IMP-L007", by simp [lexicalIds], rfl⟩

/-- The catalogue has the identifier of every diagnostic, and builds the same diagnostic from it. -/
lemma LexicalDiagnostic.ofId_id (d : LexicalDiagnostic) :
    ofId (some d.code.id) d.body d.location d.context = .ok d := by
  rw [ofId, ErrorCode.require_of_ofId? (ErrorCode.ofId?_id d.code)]

/-- **Every failure is reported as what it is.**  Its identifier is found in the catalogue and is one
of six.  The construct that fails begins at `s`, where a run asks for its next token, and was read up
to `p`, which is the offset of the failure.  By what opens the construct, the code and the context
are those that `CharacterDiagnosis`, `StringDiagnosis` and `NumberDiagnosis` say. -/
theorem lex_failure_diagnosis {failure : Failure} (h : lex base input = .error failure) :
    failure.report = .ok failure.diagnostic ∧
    LexicalDiagnostic.ofId (some failure.diagnostic.code.id) failure.diagnostic.body
      failure.diagnostic.location failure.diagnostic.context = .ok failure.diagnostic ∧
    (∃ id ∈ lexicalIds, failure.diagnostic.code.id = Text.ofString id) ∧
    ∃ s p : Nat, Cursor.StopsAt base input s failure ∧
      failure.diagnostic.offset = base.offset + p ∧ s < p ∧ p ≤ input.length ∧
      failure.pending = input.slice s p ∧
      (input[s]? = some singleQuote → CharacterDiagnosis input s p failure.diagnostic) ∧
      (input[s]? = some doubleQuote → StringDiagnosis input s p failure.diagnostic) ∧
      (input[s]? ≠ some singleQuote → input[s]? ≠ some doubleQuote →
        NumberDiagnosis input s p failure.diagnostic) := by
  obtain ⟨pre, start, rest, tokens, cause, rfl, hreads, hbreaks, rfl⟩ := lex_eq_error_iff.1 h
  have hstands := Text.stands_append pre start rest
  obtain ⟨c, hturns, hbetween⟩ := (Cursor.between_start _ base).exists_turns_of_reads hreads
  have hstops : Cursor.StopsAt base (pre ++ (start ++ rest)) pre.length _ :=
    ⟨c, _, hturns, hbetween.index_eq, hbetween.mark_eq, hbetween.nextToken_of_breaks hbreaks⟩
  have hpos : 0 < start.length := List.length_pos_iff.2 hbreaks.exists_completion.1
  obtain ⟨hcharacter, hstring, hnumber⟩ := hbreaks.diagnosis hstands _
  refine ⟨Failure.report_eq _, LexicalDiagnostic.ofId_id _, ?_, pre.length, (pre ++ start).length,
    hstops, ?_, ?_, ?_, hstands.slice_eq.symm, hcharacter, hstring, hnumber⟩
  · rw [Failure.code_diagnostic]
    exact hbreaks.exists_id
  · rw [Failure.offset_diagnostic]
    exact Location.offset_after base (pre ++ start)
  · rw [List.length_append]
    omega
  · simp only [List.length_append]
    omega

/-- In `"\\\q` the third backslash is not escaped, since the second one is.  So it escapes the unit
behind it, which is no escape. -/
theorem lex_failure_diagnosis_third_backslash :
    let input : Text := [doubleQuote, backslash, backslash, backslash, 0x71]
    ∃ failure, lex Location.start input = .error failure ∧
      Cursor.StopsAt Location.start input 0 failure ∧ StringDiagnosis input 0 4 failure.diagnostic ∧
        Text.isEscaped (input.drop 1) 3 = true ∧ failure.diagnostic.code = .invalidEscape := by
  intro input
  have hlex : lex Location.start input =
      .error ⟨.unknownEscape 0x71, input.take 4, ⟨1, 5, 4⟩⟩ := by cbv
  obtain ⟨-, -, -, s, p, hstops, hp, hlt, -, hslice, -, hstring, -⟩ := lex_failure_diagnosis hlex
  obtain rfl : p = 4 := by
    rw [Failure.offset_diagnostic] at hp
    have hp : (4 : Int) = 0 + p := hp
    omega
  obtain rfl : s = 0 := by
    have hlength := congrArg List.length hslice
    rw [Text.slice_natCast, List.length_drop] at hlength
    have hlength : 4 = 4 - s := hlength
    omega
  have hdiagnosis := hstring rfl
  have hcode := Failure.code_diagnostic ⟨.unknownEscape 0x71, input.take 4, ⟨1, 5, 4⟩⟩
  exact ⟨_, hlex, hstops, hdiagnosis, (hdiagnosis.escape_iff.1 hcode).2, hcode⟩

end Lexis
