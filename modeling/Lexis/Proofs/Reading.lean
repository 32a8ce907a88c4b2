import Lexis.Proofs.Grammar
import Mathlib.Data.List.TakeWhile

/-!
# Readers and the grammar

What stands at the front of a text is either a lexeme that the next unit does not continue, or the
start of a lexeme that the next unit breaks.  Both are said here without running a reader, and then
the readers are shown to find exactly that.

* `TokenKind.continues`, `Ends` — whether the unit behind a lexeme is taken for a part of it.
* `Breaks` — the starts of lexemes that cannot go on, each with its fault.
* `Finds` — what a finding says of the text it was made in.
* **`scan_dispatch_eq_iff`** — the reader that `Reader.dispatch` picks makes the one finding that
  holds of the text.

Everything asked of the text behind a lexeme is asked of its first unit alone.  So whatever a
theorem about whole runs needs (one unit of lookahead, indifference to what follows a gap, a
failure that no continuation repairs) is read off the two relations.
-/

namespace Lexis

open CodeUnit Grammar

/-! ## Lookahead -/

/-- The digits of an integer, without its sign. -/
def unsigned : Text → Text
  | [] => []
  | u :: rest => if u.isSign then rest else u :: rest

/-- Whether the reader of a kind goes on past a lexeme when `u` stands right behind it.  For an
integer that means a dot, also where no digit follows the dot. -/
def TokenKind.continues : TokenKind → Text → CodeUnit → Bool
  | identifier, _, u => u.isIdentifierChar
  | integer, i, u => u == dot || (u.isDigit && unsigned i != [zero])
  | decimal, _, u => u.isDigit
  | operator, [v], u => (v.isSign && u.isDigit) || isOperatorPair v u
  | _, _, _ => false

/-- A lexeme ends where `rest` begins. -/
def Ends (kind : TokenKind) (lexeme rest : Text) : Prop :=
  ∀ u ∈ rest.head?, kind.continues lexeme u = false

/-- `Breaks start next cause`: the text `start` begins a lexeme, and `next`, which is the unit
behind it or the end of the text, makes it impossible to go on. -/
inductive Breaks : Text → Option CodeUnit → Fault → Prop
  | fraction {i : Text} {next : Option CodeUnit} (hi : i ∈ integer)
      (hnext : ∀ u ∈ next, u.isDigit = false) : Breaks (i ++ [dot]) next .missingFraction
  | characterEnd : Breaks [singleQuote] none .unclosedCharacter
  | characterEmpty : Breaks [singleQuote] (some singleQuote) .emptyCharacter
  | characterLineBreak {u : CodeUnit} (hu : u.isLineBreak = true) :
      Breaks [singleQuote] (some u) (.rawLineBreak u)
  | characterEscapeEnd : Breaks [singleQuote, backslash] none .unclosedCharacter
  | characterEscape {u : CodeUnit} (hu : u.isCharacterEscape = false) :
      Breaks [singleQuote, backslash] (some u) (.unknownEscape u)
  | characterClose {content : Text} {next : Option CodeUnit} (hcontent : content ∈ characterContent)
      (hnext : next ≠ some singleQuote) : Breaks (singleQuote :: content) next .unclosedCharacter
  | stringClose {content : Text} {next : Option CodeUnit} (hcontent : content ∈ stringContent)
      (hnext : ∀ u ∈ next, u.isLineBreak = true) :
      Breaks (doubleQuote :: content) next .unclosedString
  | stringEscapeEnd {content : Text} (hcontent : content ∈ stringContent) :
      Breaks (doubleQuote :: (content ++ [backslash])) none .unclosedString
  | stringEscape {content : Text} {u : CodeUnit} (hcontent : content ∈ stringContent)
      (hu : u.isStringEscape = false) :
      Breaks (doubleQuote :: (content ++ [backslash])) (some u) (.unknownEscape u)

/-- What a finding says of the text it was made in. -/
inductive Finds : Text → Scan → Prop
  | token {kind : TokenKind} {lexeme : Text} (rest : Text) (hlexeme : lexeme ∈ kind.language)
      (hend : Ends kind lexeme rest) : Finds (lexeme ++ rest) (.token kind lexeme.length)
  | fault {cause : Fault} {start : Text} (rest : Text) (hbreaks : Breaks start rest.head? cause) :
      Finds (start ++ rest) (.fault cause start.length)

lemma finds_token_iff {t : Text} {kind : TokenKind} {n : Nat} :
    Finds t (.token kind n) ↔
      ∃ l rest, t = l ++ rest ∧ l.length = n ∧ l ∈ kind.language ∧ Ends kind l rest := by
  constructor
  · intro h
    cases h with
    | token rest hlexeme hend => exact ⟨_, rest, rfl, rfl, hlexeme, hend⟩
  · rintro ⟨l, rest, rfl, rfl, hlexeme, hend⟩
    exact Finds.token rest hlexeme hend

lemma finds_fault_iff {t : Text} {cause : Fault} {n : Nat} :
    Finds t (.fault cause n) ↔
      ∃ start rest, t = start ++ rest ∧ start.length = n ∧ Breaks start rest.head? cause := by
  constructor
  · intro h
    cases h with
    | fault rest hbreaks => exact ⟨_, rest, rfl, rfl, hbreaks⟩
  · rintro ⟨start, rest, rfl, rfl, hbreaks⟩
    exact Finds.fault rest hbreaks

/-! ## Classes that exclude each other

The readers test a unit against one class after the other.  What the tests before have ruled out is
no more than this.
-/

lemma isDigit_of_isNonZeroDigit {u : CodeUnit} (hu : u.isNonZeroDigit = true) :
    u.isDigit = true := by
  rw [isNonZeroDigit, Bool.and_eq_true] at hu
  exact hu.1

lemma isSign_eq_false_of_isDigit {u : CodeUnit} (hu : u.isDigit = true) : u.isSign = false := by
  grind [isDigit, isSign]

lemma isIdentifierStart_eq_false_of_isDigit {u : CodeUnit} (hu : u.isDigit = true) :
    u.isIdentifierStart = false := by
  grind [isDigit, isIdentifierStart, isLetter]

lemma isIdentifierStart_eq_false_of_isSign {u : CodeUnit} (hu : u.isSign = true) :
    u.isIdentifierStart = false := by
  simp only [isSign, Bool.or_eq_true, beq_iff_eq] at hu
  rcases hu with rfl | rfl <;> decide

/-- A line break means nothing in a literal but its end. -/
lemma ne_of_isLineBreak {u : CodeUnit} (hu : u.isLineBreak = true) :
    u ≠ singleQuote ∧ u ≠ doubleQuote ∧ u ≠ backslash := by
  simp only [isLineBreak, Bool.or_eq_true, beq_iff_eq] at hu
  rcases hu with rfl | rfl <;> decide

/-! ## Runs of a class

The greedy loops of the readers are `List.takeWhile`.  A run is cut off where the class stops.
-/

lemma exists_run (p : CodeUnit → Bool) (t : Text) :
    ∃ run rest, t = run ++ rest ∧ (∀ u ∈ run, p u = true) ∧ ∀ u ∈ rest.head?, p u = false := by
  refine ⟨t.takeWhile p, t.dropWhile p, List.takeWhile_append_dropWhile.symm, ?_, ?_⟩
  · intro u hu
    exact List.mem_takeWhile_imp hu
  intro u hu
  have hstop := List.head?_dropWhile_not p t
  rwa [Option.mem_def.1 hu] at hstop

lemma takeWhile_run {p : CodeUnit → Bool} {run rest : Text} (hrun : ∀ u ∈ run, p u = true)
    (hrest : ∀ u ∈ rest.head?, p u = false) : (run ++ rest).takeWhile p = run := by
  rw [List.takeWhile_append_of_pos hrun]
  cases rest with
  | nil => rw [List.takeWhile_nil, List.append_nil]
  | cons u rest =>
      have hu : p u = false := hrest u rfl
      rw [List.takeWhile_cons_of_neg (by simp [hu]), List.append_nil]

lemma digitRun_append {run rest : Text} (hrun : ∀ u ∈ run, u.isDigit = true)
    (hrest : ∀ u ∈ rest.head?, u.isDigit = false) : digitRun (run ++ rest) = run.length := by
  rw [digitRun, takeWhile_run hrun hrest]

/-! ## Names -/

lemma dispatch_identifier {u : CodeUnit} (hu : u.isIdentifierStart = true) (rest : Text) :
    Reader.dispatch (u :: rest) = .identifier := by
  rw [Reader.dispatch, if_pos hu]

lemma scanIdentifier_append {u : CodeUnit} {run rest : Text} (hu : u.isIdentifierStart = true)
    (hrun : ∀ v ∈ run, v.isIdentifierChar = true)
    (hrest : ∀ v ∈ rest.head?, v.isIdentifierChar = false) :
    scanIdentifier (u :: (run ++ rest)) = .token .identifier (u :: run).length := by
  rw [scanIdentifier, if_pos hu, takeWhile_run hrun hrest, Nat.add_comm, List.length_cons]

lemma finds_scanIdentifier {u : CodeUnit} (hu : u.isIdentifierStart = true) (t : Text) :
    Finds (u :: t) (scanIdentifier (u :: t)) := by
  obtain ⟨run, rest, rfl, hrun, hrest⟩ := exists_run isIdentifierChar t
  have hmem : u :: run ∈ TokenKind.identifier.language := mem_identifier.2 ⟨u, run, rfl, hu, hrun⟩
  rw [scanIdentifier_append hu hrun hrest]
  exact Finds.token rest hmem hrest

/-! ## Numbers

A number is read as an integer first, whatever follows.  What `scanFraction` does then depends on
the text behind it only.
-/

/-- What may stand behind an integer for its digits to end there. -/
def DigitsEnd (i rest : Text) : Prop :=
  ∀ u ∈ rest.head?, u.isDigit = true → unsigned i = [zero]

/-- A magnitude begins with a digit. -/
lemma exists_digit_of_mem_magnitude {m : Text} (hm : m ∈ magnitude) :
    ∃ u rest, m = u :: rest ∧ u.isDigit = true := by
  rcases mem_magnitude.1 hm with rfl | ⟨u, rest, rfl, hu, -⟩
  · exact ⟨zero, [], rfl, by decide⟩
  · exact ⟨u, rest, rfl, isDigit_of_isNonZeroDigit hu⟩

lemma unsigned_of_mem_magnitude {m : Text} (hm : m ∈ magnitude) : unsigned m = m := by
  obtain ⟨u, rest, rfl, hu⟩ := exists_digit_of_mem_magnitude hm
  simp [unsigned, isSign_eq_false_of_isDigit hu]

lemma unsigned_sign_cons {s : CodeUnit} (hs : s.isSign = true) (m : Text) :
    unsigned (s :: m) = m := by
  simp [unsigned, hs]

/-- Every text that begins with a digit begins with the digits of a whole number. -/
lemma exists_magnitude {u : CodeUnit} (hu : u.isDigit = true) (t : Text) :
    ∃ m rest, u :: t = m ++ rest ∧ m ∈ magnitude ∧
      ∀ v ∈ rest.head?, v.isDigit = true → m = [zero] := by
  by_cases hzero : u = zero
  · subst hzero
    refine ⟨[zero], t, rfl, mem_magnitude.2 (Or.inl rfl), ?_⟩
    intro v _ _
    rfl
  · obtain ⟨run, rest, rfl, hrun, hrest⟩ := exists_run isDigit t
    have hu' : u.isNonZeroDigit = true := by simp [isNonZeroDigit, hu, hzero]
    refine ⟨u :: run, rest, rfl, mem_magnitude.2 (Or.inr ⟨u, run, rfl, hu', hrun⟩), ?_⟩
    intro v hv hdigit
    rw [hrest v hv] at hdigit
    exact Bool.noConfusion hdigit

lemma integerRun_append {m rest : Text} (hm : m ∈ magnitude)
    (hend : ∀ u ∈ rest.head?, u.isDigit = true → m = [zero]) :
    integerRun (m ++ rest) = m.length := by
  rcases mem_magnitude.1 hm with rfl | ⟨u, run, rfl, hu, hrun⟩
  · rfl
  · have hzero : u ≠ zero := by
      simp only [isNonZeroDigit, Bool.and_eq_true, bne_iff_ne] at hu
      exact hu.2
    have hrest : ∀ v ∈ rest.head?, v.isDigit = false := by
      intro v hv
      by_contra hdigit
      have halone := hend v hv (by simpa using hdigit)
      exact hzero (List.cons.inj halone).1
    rw [List.cons_append, integerRun, if_neg hzero, if_pos (isDigit_of_isNonZeroDigit hu),
      digitRun_append hrun hrest, Nat.add_comm, List.length_cons]

lemma scanUnsigned_append {m rest : Text} (sign : Option CodeUnit) (hm : m ∈ magnitude)
    (hend : ∀ u ∈ rest.head?, u.isDigit = true → m = [zero]) :
    scanUnsigned sign (m ++ rest) = scanFraction m.length rest := by
  obtain ⟨u, run, rfl, -⟩ := exists_digit_of_mem_magnitude hm
  have hrun := integerRun_append hm hend
  rw [List.length_cons] at hrun
  rw [scanUnsigned, hrun]
  simp

lemma shift_scanFraction (k n : Nat) (t : Text) :
    (scanFraction n t).shift k = scanFraction (k + n) t := by
  cases t with
  | nil => rfl
  | cons u rest =>
      simp only [scanFraction]
      split
      · split <;> simp only [Scan.shift, Nat.add_assoc]
      · rfl

lemma scanNumber_append {i rest : Text} (hi : i ∈ integer) (hend : DigitsEnd i rest) :
    scanNumber (i ++ rest) = scanFraction i.length rest := by
  rcases mem_integer.1 hi with hm | ⟨s, m, rfl, hs, hm⟩
  · rw [DigitsEnd, unsigned_of_mem_magnitude hm] at hend
    rw [← scanUnsigned_append none hm hend]
    obtain ⟨u, run, rfl, hu⟩ := exists_digit_of_mem_magnitude hm
    rw [List.cons_append, scanNumber, if_neg (by simp [isSign_eq_false_of_isDigit hu])]
  · rw [DigitsEnd, unsigned_sign_cons hs] at hend
    rw [List.cons_append, scanNumber, if_pos hs, scanUnsigned_append (some s) hm hend,
      shift_scanFraction, List.length_cons, Nat.add_comm]

lemma dispatch_of_mem_integer {i : Text} (hi : i ∈ integer) (rest : Text) :
    Reader.dispatch (i ++ rest) = .number := by
  rcases mem_integer.1 hi with hm | ⟨s, m, rfl, hs, hm⟩
  · obtain ⟨u, run, rfl, hu⟩ := exists_digit_of_mem_magnitude hm
    simp [Reader.dispatch, isIdentifierStart_eq_false_of_isDigit hu, hu]
  · obtain ⟨u, run, rfl, hu⟩ := exists_digit_of_mem_magnitude hm
    simp [Reader.dispatch, Reader.startsWithDigit, isIdentifierStart_eq_false_of_isSign hs, hs, hu]

/-- What the number reader is let loose on begins with an integer. -/
lemma exists_integer {u : CodeUnit} {rest : Text}
    (hu : u.isDigit = true ∨ u.isSign = true ∧ Reader.startsWithDigit rest = true) :
    ∃ i rest', u :: rest = i ++ rest' ∧ i ∈ integer ∧ DigitsEnd i rest' := by
  rcases hu with hu | ⟨hu, hrest⟩
  · obtain ⟨m, rest', heq, hm, hend⟩ := exists_magnitude hu rest
    refine ⟨m, rest', heq, mem_integer.2 (Or.inl hm), ?_⟩
    rwa [DigitsEnd, unsigned_of_mem_magnitude hm]
  · cases rest with
    | nil => cases hrest
    | cons v rest =>
        obtain ⟨m, rest', heq, hm, hend⟩ := exists_magnitude hrest rest
        refine ⟨u :: m, rest', by rw [heq, List.cons_append],
          mem_integer.2 (Or.inr ⟨u, m, rfl, hu, hm⟩), ?_⟩
        rwa [DigitsEnd, unsigned_sign_cons hu]

/-- Behind an integer stand a fraction, a dot that has none, or something else. -/
lemma finds_scanFraction {i rest : Text} (hi : i ∈ integer) (hend : DigitsEnd i rest) :
    Finds (i ++ rest) (scanFraction i.length rest) := by
  have hends : (∀ u ∈ rest.head?, u ≠ dot) → Ends .integer i rest := by
    intro hdot u hu
    have hu' := hend u hu
    have hdot := hdot u hu
    simp only [TokenKind.continues]
    grind
  have hmem : i ∈ TokenKind.integer.language := hi
  cases rest with
  | nil => exact Finds.token [] hmem (hends (by simp))
  | cons u rest =>
      by_cases hu : u = dot
      · obtain ⟨run, rest, rfl, hrun, hrest⟩ := exists_run isDigit rest
        rw [scanFraction, if_pos hu, digitRun_append hrun hrest]
        subst hu
        cases run with
        | nil =>
            have hbreaks := Finds.fault rest (Breaks.fraction hi hrest)
            rwa [List.append_assoc, List.length_append] at hbreaks
        | cons v run =>
            have hmem : i ++ dot :: (v :: run) ∈ TokenKind.decimal.language :=
              mem_decimal.2 ⟨i, hi, v :: run, List.cons_ne_nil v run, hrun, rfl⟩
            have htoken : Finds (i ++ dot :: (v :: run) ++ rest) _ := Finds.token rest hmem hrest
            rw [List.append_assoc, List.length_append] at htoken
            have hlength :
                i.length + (dot :: v :: run).length = i.length + 1 + (run.length + 1) := by
              simp only [List.length_cons]
              omega
            rwa [hlength] at htoken
      · rw [scanFraction, if_neg hu]
        exact Finds.token (u :: rest) hmem (hends (by simpa using hu))

lemma scanFraction_eq_integer {i rest : Text} (n : Nat) (hend : Ends .integer i rest) :
    scanFraction n rest = .token .integer n := by
  cases rest with
  | nil => rfl
  | cons u rest =>
      have hu := hend u rfl
      simp only [TokenKind.continues, Bool.or_eq_false_iff, beq_eq_false_iff_ne] at hu
      rw [scanFraction, if_neg hu.1]

lemma digitsEnd_of_ends {i rest : Text} (hend : Ends .integer i rest) : DigitsEnd i rest := by
  intro u hu hdigit
  have hcontinues := hend u hu
  simp only [TokenKind.continues] at hcontinues
  grind

/-- A dot ends the digits before it. -/
lemma digitsEnd_dot (i rest : Text) : DigitsEnd i (dot :: rest) := by
  intro u hu hdigit
  obtain rfl : dot = u := Option.some.inj hu
  exact absurd hdigit (by decide)

/-! ## Character literals -/

lemma finds_scanCharacterEnd {content rest : Text} (hcontent : content ∈ characterContent) :
    Finds (singleQuote :: (content ++ rest)) (scanCharacterEnd (content.length + 1) rest) := by
  have hfault : rest.head? ≠ some singleQuote →
      Finds (singleQuote :: (content ++ rest))
        (.fault .unclosedCharacter (content.length + 1)) := by
    intro hrest
    exact Finds.fault rest (Breaks.characterClose hcontent hrest)
  cases rest with
  | nil => exact hfault (by simp)
  | cons u rest =>
      by_cases hu : u = singleQuote
      · have hmem : singleQuote :: (content ++ [singleQuote]) ∈ TokenKind.character.language :=
          mem_quoted.2 ⟨content, hcontent, rfl⟩
        have htoken : Finds (singleQuote :: (content ++ [singleQuote]) ++ rest) _ :=
          Finds.token rest hmem fun _ _ => rfl
        rw [scanCharacterEnd, if_pos hu, hu]
        simpa using htoken
      · rw [scanCharacterEnd, if_neg hu]
        exact hfault (by simpa using hu)

lemma finds_scanCharacterBody (t : Text) : Finds (singleQuote :: t) (scanCharacterBody t) := by
  cases t with
  | nil => exact Finds.fault [] Breaks.characterEnd
  | cons u rest =>
      simp only [scanCharacterBody]
      split_ifs with hback hquote hbreak
      · subst hback
        cases rest with
        | nil => exact Finds.fault [] Breaks.characterEscapeEnd
        | cons v rest =>
            simp only
            split_ifs with hv
            · exact finds_scanCharacterEnd (mem_characterContent.2 (Or.inr ⟨v, rfl, hv⟩))
            · exact Finds.fault (v :: rest) (Breaks.characterEscape (by simpa using hv))
      · subst hquote
        exact Finds.fault (singleQuote :: rest) Breaks.characterEmpty
      · exact Finds.fault (u :: rest) (Breaks.characterLineBreak hbreak)
      · have hplain : isCharacterPlain u = true := by simp [isCharacterPlain, hback, hquote, hbreak]
        exact finds_scanCharacterEnd (mem_characterContent.2 (Or.inl ⟨u, rfl, hplain⟩))

lemma scanCharacterBody_append {content : Text} (hcontent : content ∈ characterContent)
    (rest : Text) :
    scanCharacterBody (content ++ rest) = scanCharacterEnd (content.length + 1) rest := by
  rcases mem_characterContent.1 hcontent with ⟨u, rfl, hu⟩ | ⟨u, rfl, hu⟩
  · simp only [isCharacterPlain, Bool.and_eq_true, bne_iff_ne, Bool.not_eq_true'] at hu
    simp [scanCharacterBody, hu]
  · simp [scanCharacterBody, hu]

/-! ## String literals

What the reader has gone over is the content so far.  Each turn of its loop joins one unit or one
escape to it, so the finding is stated for a content and the text behind it, and follows the
reader from there.
-/

lemma Scan.shift_zero (s : Scan) : s.shift 0 = s := by
  cases s <;> simp only [shift, Nat.zero_add]

lemma Scan.shift_shift (m n : Nat) (s : Scan) : (s.shift n).shift m = s.shift (m + n) := by
  cases s <;> simp only [shift, Nat.add_assoc]

lemma scanStringBody_plain {u : CodeUnit} (hu : isStringPlain u = true) (t : Text) :
    scanStringBody (u :: t) = (scanStringBody t).shift 1 := by
  simp only [isStringPlain, Bool.and_eq_true, bne_iff_ne, Bool.not_eq_true'] at hu
  obtain ⟨⟨hquote, hback⟩, hbreak⟩ := hu
  rw [scanStringBody.eq_def]
  simp only [if_neg hquote, if_neg hback, hbreak, Bool.false_eq_true, if_false]

lemma scanStringBody_escape {u : CodeUnit} (hu : u.isStringEscape = true) (t : Text) :
    scanStringBody (backslash :: u :: t) = (scanStringBody t).shift 2 := by
  have hne : backslash ≠ doubleQuote := by decide
  rw [scanStringBody.eq_def]
  simp only [if_neg hne, if_true, if_pos hu]

lemma scanStringBody_quote (t : Text) : scanStringBody (doubleQuote :: t) = .token .string 1 := by
  rw [scanStringBody.eq_def]
  simp only [if_true]

lemma scanStringBody_stop {t : Text} (ht : ∀ u ∈ t.head?, u.isLineBreak = true) :
    scanStringBody t = .fault .unclosedString 0 := by
  cases t with
  | nil => rfl
  | cons u t =>
      have hu : u.isLineBreak = true := ht u rfl
      obtain ⟨-, hquote, hback⟩ := ne_of_isLineBreak hu
      rw [scanStringBody.eq_def]
      simp only [if_neg hquote, if_neg hback, if_pos hu]

lemma scanStringBody_unknownEscape {u : CodeUnit} (hu : u.isStringEscape = false) (t : Text) :
    scanStringBody (backslash :: u :: t) = .fault (.unknownEscape u) 1 := by
  have hne : backslash ≠ doubleQuote := by decide
  rw [scanStringBody.eq_def]
  simp only [if_neg hne, if_true, hu, Bool.false_eq_true, if_false]

lemma scanStringBody_append {content : Text} (hcontent : content ∈ stringContent) (rest : Text) :
    scanStringBody (content ++ rest) = (scanStringBody rest).shift content.length := by
  refine stringContent_induction (motive := fun content =>
    scanStringBody (content ++ rest) = (scanStringBody rest).shift content.length)
    ?nil ?plain ?escape content hcontent
  case nil => simp [Scan.shift_zero]
  case plain =>
    intro u t hu _ ih
    rw [List.cons_append, scanStringBody_plain hu, ih, Scan.shift_shift, List.length_cons,
      Nat.add_comm]
  case escape =>
    intro u t hu _ ih
    rw [List.cons_append, List.cons_append, scanStringBody_escape hu, ih, Scan.shift_shift,
      List.length_cons, List.length_cons, Nat.add_comm]

lemma finds_scanStringBody {content : Text} (hcontent : content ∈ stringContent) (t : Text) :
    Finds (doubleQuote :: (content ++ t)) ((scanStringBody t).shift (content.length + 1)) := by
  fun_induction scanStringBody t generalizing content with
  | case1 =>
      exact Finds.fault [] (Breaks.stringClose hcontent (by simp))
  | case2 rest =>
      have hmem : doubleQuote :: (content ++ [doubleQuote]) ∈ TokenKind.string.language :=
        mem_quoted.2 ⟨content, hcontent, rfl⟩
      have htoken : Finds (doubleQuote :: (content ++ [doubleQuote]) ++ rest) _ :=
        Finds.token rest hmem fun _ _ => rfl
      simpa [Scan.shift] using htoken
  | case3 =>
      have hfault : Finds (doubleQuote :: (content ++ [backslash]) ++ []) _ :=
        Finds.fault [] (Breaks.stringEscapeEnd hcontent)
      simpa [Scan.shift] using hfault
  | case4 v rest hv _ ih =>
      have hmem := append_mem_stringContent hcontent (escape_mem_stringContent hv)
      have hlength : (content ++ [backslash, v]).length + 1 = content.length + 1 + 2 := by simp
      have hfinds := ih hmem
      rwa [List.append_assoc, hlength, ← Scan.shift_shift] at hfinds
  | case5 v rest hv _ =>
      have hfault : Finds (doubleQuote :: (content ++ [backslash]) ++ v :: rest) _ :=
        Finds.fault (v :: rest) (Breaks.stringEscape hcontent (by simpa using hv))
      simpa [Scan.shift] using hfault
  | case6 u rest _ _ hbreak =>
      exact Finds.fault (u :: rest) (Breaks.stringClose hcontent (by simpa using hbreak))
  | case7 u rest hquote hback hbreak ih =>
      have hplain : isStringPlain u = true := by simp [isStringPlain, hback, hquote, hbreak]
      have hmem := append_mem_stringContent hcontent (plain_mem_stringContent hplain)
      have hlength : (content ++ [u]).length + 1 = content.length + 1 + 1 := by simp
      have hfinds := ih hmem
      rwa [List.append_assoc, hlength, ← Scan.shift_shift] at hfinds

/-! ## Operators -/

lemma dispatch_operator {u : CodeUnit} {rest : Text} (hu : isOperatorUnit u = true)
    (hsign : u.isSign = true → Reader.startsWithDigit rest = false) :
    Reader.dispatch (u :: rest) = .operator := by
  simp only [isOperatorUnit, Bool.not_eq_true', Bool.or_eq_false_iff, beq_eq_false_iff_ne] at hu
  obtain ⟨⟨⟨⟨⟨-, hletter⟩, hdigit⟩, hunderscore⟩, hsingle⟩, hdouble⟩ := hu
  have hstart : u.isIdentifierStart = false := by simp [isIdentifierStart, hletter, hunderscore]
  rw [Reader.dispatch]
  cases hs : u.isSign with
  | false => simp [hstart, hdigit, hsingle, hdouble]
  | true => simp [hstart, hdigit, hsingle, hdouble, hsign hs]

lemma isOperatorUnit_of_isOperatorPair {u v : CodeUnit} (h : isOperatorPair u v = true) :
    isOperatorUnit u = true ∧ u.isSign = false ∧ isOperatorUnit v = true := by
  simp only [isOperatorPair, Bool.or_eq_true, Bool.and_eq_true, beq_iff_eq] at h
  rcases h with (⟨rfl, rfl⟩ | ⟨rfl, rfl⟩) | ⟨((rfl | rfl) | rfl) | rfl, rfl⟩ <;> decide

lemma finds_scanOperator {u : CodeUnit} {rest : Text} (hu : isOperatorUnit u = true)
    (hsign : u.isSign = true → Reader.startsWithDigit rest = false) :
    Finds (u :: rest) (scanOperator (u :: rest)) := by
  have hmem : [u] ∈ TokenKind.operator.language := mem_operator.2 (Or.inr ⟨u, rfl, hu⟩)
  cases rest with
  | nil => exact Finds.token [] hmem (by simp [Ends])
  | cons v rest =>
      rw [scanOperator]
      split_ifs with hpair
      · have hmem : [u, v] ∈ TokenKind.operator.language :=
          mem_operator.2 (Or.inl ⟨u, v, rfl, hpair⟩)
        exact Finds.token rest hmem fun _ _ => rfl
      · refine Finds.token (v :: rest) hmem ?_
        intro w hw
        obtain rfl : v = w := Option.some.inj hw
        simp only [TokenKind.continues, Bool.or_eq_false_iff, Bool.and_eq_false_imp]
        exact ⟨hsign, by simpa using hpair⟩

/-! ## The reader that is picked -/

/-- **Soundness.**  The finding of the picked reader holds of every text that does not begin with
whitespace. -/
theorem finds_scan_dispatch {u : CodeUnit} (hu : u.isWhitespace = false) (rest : Text) :
    Finds (u :: rest) ((Reader.dispatch (u :: rest)).scan (u :: rest)) := by
  by_cases hstart : u.isIdentifierStart = true
  · rw [dispatch_identifier hstart]
    exact finds_scanIdentifier hstart rest
  by_cases hnumber : u.isDigit = true ∨ u.isSign = true ∧ Reader.startsWithDigit rest = true
  · obtain ⟨i, rest', heq, hi, hend⟩ := exists_integer hnumber
    rw [heq, dispatch_of_mem_integer hi, Reader.scan, scanNumber_append hi hend]
    exact finds_scanFraction hi hend
  by_cases hsingle : u = singleQuote
  · subst hsingle
    exact finds_scanCharacterBody rest
  by_cases hdouble : u = doubleQuote
  · subst hdouble
    exact finds_scanStringBody nil_mem_stringContent rest
  · have hunit : isOperatorUnit u = true := by
      simp only [isIdentifierStart, Bool.or_eq_true, beq_iff_eq] at hstart
      simp only [isOperatorUnit]
      grind
    have hsign : u.isSign = true → Reader.startsWithDigit rest = false := by grind
    rw [dispatch_operator hunit hsign]
    exact finds_scanOperator hunit hsign

lemma scan_of_mem_decimal {l rest : Text} (hl : l ∈ decimal) (hend : Ends .decimal l rest) :
    (Reader.dispatch (l ++ rest)).scan (l ++ rest) = .token .decimal l.length := by
  obtain ⟨i, hi, f, hne, hf, rfl⟩ := mem_decimal.1 hl
  obtain ⟨u, run, rfl⟩ := List.exists_cons_of_ne_nil hne
  have hlength : (i ++ dot :: u :: run).length = i.length + 1 + (run.length + 1) := by
    simp only [List.length_append, List.length_cons]
    omega
  rw [hlength, List.append_assoc, List.cons_append, dispatch_of_mem_integer hi, Reader.scan,
    scanNumber_append hi (digitsEnd_dot _ _), scanFraction, if_pos rfl,
    digitRun_append hf hend, List.length_cons]

lemma scan_of_mem_operator {l rest : Text} (hl : l ∈ operator) (hend : Ends .operator l rest) :
    (Reader.dispatch (l ++ rest)).scan (l ++ rest) = .token .operator l.length := by
  rcases mem_operator.1 hl with ⟨u, v, rfl, hpair⟩ | ⟨u, rfl, hu⟩
  · obtain ⟨hu, hsign, -⟩ := isOperatorUnit_of_isOperatorPair hpair
    have hreader : Reader.dispatch (u :: v :: rest) = .operator :=
      dispatch_operator hu (by simp [hsign])
    rw [List.cons_append, List.cons_append, List.nil_append, hreader, Reader.scan, scanOperator,
      if_pos hpair]
    rfl
  · cases rest with
    | nil =>
        rw [List.append_nil, dispatch_operator hu fun _ => rfl]
        rfl
    | cons v rest =>
        have hv := hend v rfl
        simp only [TokenKind.continues, Bool.or_eq_false_iff, Bool.and_eq_false_imp] at hv
        have hreader : Reader.dispatch (u :: v :: rest) = .operator :=
          dispatch_operator hu hv.1
        rw [List.cons_append, List.nil_append, hreader, Reader.scan, scanOperator,
          if_neg (by simp [hv.2])]
        rfl

lemma scan_of_mem_language {kind : TokenKind} {lexeme rest : Text}
    (hlexeme : lexeme ∈ kind.language) (hend : Ends kind lexeme rest) :
    (Reader.dispatch (lexeme ++ rest)).scan (lexeme ++ rest) = .token kind lexeme.length := by
  cases kind with
  | identifier =>
      obtain ⟨u, run, rfl, hu, hrun⟩ := mem_identifier.1 hlexeme
      rw [List.cons_append, dispatch_identifier hu]
      exact scanIdentifier_append hu hrun hend
  | integer =>
      have hi : lexeme ∈ integer := hlexeme
      rw [dispatch_of_mem_integer hi, Reader.scan, scanNumber_append hi (digitsEnd_of_ends hend),
        scanFraction_eq_integer _ hend]
  | decimal => exact scan_of_mem_decimal hlexeme hend
  | character =>
      obtain ⟨content, hcontent, rfl⟩ := mem_quoted.1 hlexeme
      rw [List.cons_append, List.append_assoc]
      show scanCharacterBody (content ++ ([singleQuote] ++ rest)) = _
      rw [scanCharacterBody_append hcontent, List.cons_append, scanCharacterEnd, if_pos rfl,
        List.length_cons, List.length_append, List.length_singleton]
  | string =>
      obtain ⟨content, hcontent, rfl⟩ := mem_quoted.1 hlexeme
      rw [List.cons_append, List.append_assoc]
      show (scanStringBody (content ++ (doubleQuote :: rest))).shift 1 = _
      rw [scanStringBody_append hcontent, Scan.shift_shift, scanStringBody_quote, Scan.shift]
      simp only [List.length_cons, List.length_append, List.length_nil]
      congr 1
      omega
  | operator => exact scan_of_mem_operator hlexeme hend

lemma scan_of_breaks {cause : Fault} {start rest : Text} (h : Breaks start rest.head? cause) :
    (Reader.dispatch (start ++ rest)).scan (start ++ rest) = .fault cause start.length := by
  generalize hnext : rest.head? = next at h
  cases h with
  | fraction hi hdigit =>
      subst hnext
      rw [List.append_assoc, dispatch_of_mem_integer hi, Reader.scan, List.cons_append,
        scanNumber_append hi (digitsEnd_dot _ _), scanFraction, if_pos rfl]
      rw [show digitRun ([] ++ rest) = 0 from digitRun_append (by simp) hdigit,
        List.length_append, List.length_singleton]
  | characterEnd =>
      rw [List.head?_eq_none_iff.1 hnext]
      rfl
  | characterEmpty =>
      obtain ⟨rest, rfl⟩ := List.head?_eq_some_iff.1 hnext
      rfl
  | @characterLineBreak u hu =>
      obtain ⟨rest, rfl⟩ := List.head?_eq_some_iff.1 hnext
      obtain ⟨hquote, -, hback⟩ := ne_of_isLineBreak hu
      show scanCharacterBody (u :: rest) = _
      simp [scanCharacterBody, hquote, hback, hu]
  | characterEscapeEnd =>
      rw [List.head?_eq_none_iff.1 hnext]
      rfl
  | @characterEscape u hu =>
      obtain ⟨rest, rfl⟩ := List.head?_eq_some_iff.1 hnext
      show scanCharacterBody (backslash :: u :: rest) = _
      simp [scanCharacterBody, hu]
  | @characterClose content _ hcontent hquote =>
      subst hnext
      show scanCharacterBody (content ++ rest) = _
      rw [scanCharacterBody_append hcontent, List.length_cons]
      cases rest with
      | nil => rfl
      | cons u rest => rw [scanCharacterEnd, if_neg (by simpa using hquote)]
  | @stringClose content _ hcontent hbreak =>
      subst hnext
      show (scanStringBody (content ++ rest)).shift 1 = _
      rw [scanStringBody_append hcontent, scanStringBody_stop hbreak, Scan.shift, Scan.shift,
        List.length_cons, Nat.add_comm]
  | @stringEscapeEnd content hcontent =>
      rw [List.head?_eq_none_iff.1 hnext, List.append_nil]
      show (scanStringBody (content ++ [backslash])).shift 1 = _
      rw [scanStringBody_append hcontent, List.length_cons, List.length_append, Nat.add_comm]
      rfl
  | @stringEscape content u hcontent hu =>
      obtain ⟨rest, rfl⟩ := List.head?_eq_some_iff.1 hnext
      show (scanStringBody (content ++ [backslash] ++ u :: rest)).shift 1 = _
      rw [List.append_assoc, scanStringBody_append hcontent, List.cons_append, List.nil_append,
        scanStringBody_unknownEscape hu, Scan.shift, Scan.shift, List.length_cons,
        List.length_append, Nat.add_comm]
      rfl

/-- **Completeness.**  Whatever holds of a text is what the picked reader finds. -/
theorem scan_dispatch_of_finds {t : Text} {s : Scan} (h : Finds t s) :
    (Reader.dispatch t).scan t = s := by
  cases h with
  | token rest hlexeme hend => exact scan_of_mem_language hlexeme hend
  | fault rest hbreaks => exact scan_of_breaks hbreaks

/-- **The readers and the grammar agree.** -/
theorem scan_dispatch_eq_iff {u : CodeUnit} (hu : u.isWhitespace = false) (rest : Text) (s : Scan) :
    (Reader.dispatch (u :: rest)).scan (u :: rest) = s ↔ Finds (u :: rest) s := by
  constructor
  · rintro rfl
    exact finds_scan_dispatch hu rest
  · exact scan_dispatch_of_finds

end Lexis
