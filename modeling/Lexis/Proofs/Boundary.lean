import Lexis.Proofs.Reading

/-!
# The edges of a lexeme

What a reader finds depends on a lexeme and on the unit behind it.  This file collects what theorems
about whole texts need to know of that place.

* `continues_of_isWhitespace`, `exists_cons_of_mem_language`, `isWhitespace_getLast` — whitespace
  ends every lexeme, and neither opens nor closes one.
* `TokenKind.eq_of_mem_language` — no lexeme belongs to two kinds.
* `continues_of_append_mem`, `append_mem_of_continues` — the unit behind a lexeme tells whether
  there is a longer one.
* `Breaks.exists_completion` — a start that breaks could have been completed.

That the six languages are disjoint and that a longer lexeme shows itself in the next unit need no
comparison of the kinds with each other.  A reader is a function, so a text that held two findings
would have to be read in two ways.
-/

namespace Lexis

open CodeUnit Grammar

/-! ## First and last units

Whitespace neither opens nor closes a lexeme, and it continues none.
-/

lemma isWhitespace_eq_false_of_isIdentifierChar {u : CodeUnit} (hu : u.isIdentifierChar = true) :
    u.isWhitespace = false := by
  grind [isIdentifierChar, isIdentifierStart, isLetter, isDigit, isWhitespace]

lemma isWhitespace_eq_false_of_isDigit {u : CodeUnit} (hu : u.isDigit = true) :
    u.isWhitespace = false :=
  isWhitespace_eq_false_of_isIdentifierChar (by simp [isIdentifierChar, hu])

lemma isWhitespace_eq_false_of_isOperatorUnit {u : CodeUnit} (hu : isOperatorUnit u = true) :
    u.isWhitespace = false := by
  simp only [isOperatorUnit, Bool.not_eq_true', Bool.or_eq_false_iff] at hu
  exact hu.1.1.1.1.1

/-- What continues a lexeme stands in a name or in a number, or is an operator. -/
lemma isWhitespace_eq_false_of_continues {kind : TokenKind} {lexeme : Text} {u : CodeUnit}
    (hu : kind.continues lexeme u = true) : u.isWhitespace = false := by
  cases kind with
  | identifier => exact isWhitespace_eq_false_of_isIdentifierChar hu
  | integer =>
      simp only [TokenKind.continues, Bool.or_eq_true, beq_iff_eq, Bool.and_eq_true] at hu
      rcases hu with rfl | ⟨hdigit, -⟩
      · decide
      · exact isWhitespace_eq_false_of_isDigit hdigit
  | decimal => exact isWhitespace_eq_false_of_isDigit hu
  | character => cases hu
  | string => cases hu
  | operator =>
      -- only an operator of one unit is continued by anything
      rcases lexeme with _ | ⟨v, _ | ⟨w, t⟩⟩
      · cases hu
      · simp only [TokenKind.continues, Bool.or_eq_true, Bool.and_eq_true] at hu
        rcases hu with ⟨-, hdigit⟩ | hpair
        · exact isWhitespace_eq_false_of_isDigit hdigit
        · exact isWhitespace_eq_false_of_isOperatorUnit
            (isOperatorUnit_of_isOperatorPair hpair).2.2
      · cases hu

lemma continues_of_isWhitespace {u : CodeUnit} (hu : u.isWhitespace = true) (kind : TokenKind)
    (lexeme : Text) : kind.continues lexeme u = false := by
  by_contra hcontinues
  rw [Bool.not_eq_false] at hcontinues
  rw [isWhitespace_eq_false_of_continues hcontinues] at hu
  cases hu

lemma ends_of_isWhitespace {u : CodeUnit} (hu : u.isWhitespace = true) (kind : TokenKind)
    (lexeme rest : Text) : Ends kind lexeme (u :: rest) := by
  intro v hv
  obtain rfl : u = v := Option.some.inj hv
  exact continues_of_isWhitespace hu kind lexeme

lemma ends_nil (kind : TokenKind) (lexeme : Text) : Ends kind lexeme [] := by
  intro u hu
  cases hu

/-- A lexeme is not empty. -/
lemma ne_nil_of_mem_language {kind : TokenKind} {l : Text} (h : l ∈ kind.language) : l ≠ [] :=
  List.ne_nil_of_length_pos (Reader.token_length_pos (scan_of_mem_language h (ends_nil kind l)))

lemma isWhitespace_of_mem_integer {i : Text} (hi : i ∈ integer) :
    ∀ u ∈ i, u.isWhitespace = false := by
  have hmagnitude : ∀ m ∈ magnitude, ∀ u ∈ m, u.isWhitespace = false := by
    intro m hm
    rcases mem_magnitude.1 hm with rfl | ⟨u, run, rfl, hu, hrun⟩
    · exact List.forall_mem_singleton.2 (by decide)
    · intro v hv
      rcases List.mem_cons.1 hv with rfl | hv
      · exact isWhitespace_eq_false_of_isDigit (isDigit_of_isNonZeroDigit hu)
      · exact isWhitespace_eq_false_of_isDigit (hrun v hv)
  rcases mem_integer.1 hi with hm | ⟨s, m, rfl, hs, hm⟩
  · exact hmagnitude i hm
  · exact List.forall_mem_cons.2 ⟨by grind [isSign, isWhitespace], hmagnitude m hm⟩

/-- Only literals hold whitespace. -/
lemma isWhitespace_of_mem_language {kind : TokenKind} {l : Text} (h : l ∈ kind.language)
    (hcharacter : kind ≠ .character) (hstring : kind ≠ .string) :
    ∀ u ∈ l, u.isWhitespace = false := by
  cases kind with
  | identifier =>
      obtain ⟨u, run, rfl, hu, hrun⟩ := mem_identifier.1 h
      intro v hv
      rcases List.mem_cons.1 hv with rfl | hv
      · exact isWhitespace_eq_false_of_isIdentifierChar (by simp [isIdentifierChar, hu])
      · exact isWhitespace_eq_false_of_isIdentifierChar (hrun v hv)
  | integer => exact isWhitespace_of_mem_integer h
  | decimal =>
      obtain ⟨i, hi, f, -, hf, rfl⟩ := mem_decimal.1 h
      refine List.forall_mem_append.2 ⟨isWhitespace_of_mem_integer hi,
        List.forall_mem_cons.2 ⟨by decide, ?_⟩⟩
      intro v hv
      exact isWhitespace_eq_false_of_isDigit (hf v hv)
  | character => exact absurd rfl hcharacter
  | string => exact absurd rfl hstring
  | operator =>
      rcases mem_operator.1 h with ⟨u, v, rfl, hpair⟩ | ⟨u, rfl, hu⟩
      · obtain ⟨hu, -, hv⟩ := isOperatorUnit_of_isOperatorPair hpair
        simp [isWhitespace_eq_false_of_isOperatorUnit hu, isWhitespace_eq_false_of_isOperatorUnit hv]
      · simp [isWhitespace_eq_false_of_isOperatorUnit hu]

lemma exists_cons_of_mem_language {kind : TokenKind} {l : Text} (h : l ∈ kind.language) :
    ∃ u t, l = u :: t ∧ u.isWhitespace = false := by
  by_cases hcharacter : kind = .character
  · subst hcharacter
    obtain ⟨content, -, rfl⟩ := mem_quoted.1 h
    exact ⟨singleQuote, _, rfl, by decide⟩
  by_cases hstring : kind = .string
  · subst hstring
    obtain ⟨content, -, rfl⟩ := mem_quoted.1 h
    exact ⟨doubleQuote, _, rfl, by decide⟩
  · obtain ⟨u, t, rfl⟩ := List.exists_cons_of_ne_nil (ne_nil_of_mem_language h)
    exact ⟨u, t, rfl, isWhitespace_of_mem_language h hcharacter hstring u List.mem_cons_self⟩

lemma isWhitespace_getLast {kind : TokenKind} {l : Text} (h : l ∈ kind.language) :
    ∀ u ∈ l.getLast?, u.isWhitespace = false := by
  intro u hu
  by_cases hcharacter : kind = .character
  · subst hcharacter
    obtain ⟨content, -, rfl⟩ := mem_quoted.1 h
    rw [← List.cons_append, List.getLast?_concat] at hu
    obtain rfl : singleQuote = u := Option.some.inj hu
    decide
  by_cases hstring : kind = .string
  · subst hstring
    obtain ⟨content, -, rfl⟩ := mem_quoted.1 h
    rw [← List.cons_append, List.getLast?_concat] at hu
    obtain rfl : doubleQuote = u := Option.some.inj hu
    decide
  · exact isWhitespace_of_mem_language h hcharacter hstring u (List.mem_of_getLast? hu)

/-! ## Starts that can be completed

What breaks a start is the next unit alone.  With other units behind it, every start goes on to be
a lexeme.
-/

lemma Breaks.exists_completion {start : Text} {next : Option CodeUnit} {cause : Fault}
    (h : Breaks start next cause) :
    start ≠ [] ∧ ∃ v, ∃ kind : TokenKind, start ++ v ∈ kind.language := by
  have hcharacter : ∀ content ∈ characterContent,
      singleQuote :: (content ++ [singleQuote]) ∈ TokenKind.character.language := by
    intro content hcontent
    exact mem_quoted.2 ⟨content, hcontent, rfl⟩
  have hstring : ∀ content ∈ stringContent,
      doubleQuote :: (content ++ [doubleQuote]) ∈ TokenKind.string.language := by
    intro content hcontent
    exact mem_quoted.2 ⟨content, hcontent, rfl⟩
  have hplain : [lowerN] ∈ characterContent := mem_characterContent.2 (Or.inl ⟨_, rfl, by decide⟩)
  have hescape : [backslash, lowerN] ∈ characterContent :=
    mem_characterContent.2 (Or.inr ⟨_, rfl, by decide⟩)
  have hstringEscape : ∀ content ∈ stringContent,
      content ++ [backslash, lowerN] ∈ stringContent := by
    intro content hcontent
    exact append_mem_stringContent hcontent (escape_mem_stringContent (by decide))
  cases h with
  | @fraction i _ hi _ =>
      have hmem : i ++ dot :: [zero] ∈ TokenKind.decimal.language :=
        mem_decimal.2 ⟨i, hi, [zero], List.cons_ne_nil _ _,
          List.forall_mem_singleton.2 (by decide), rfl⟩
      exact ⟨by simp, [zero], .decimal, by simpa using hmem⟩
  | characterEnd => exact ⟨by simp, [lowerN, singleQuote], .character, hcharacter _ hplain⟩
  | characterEmpty => exact ⟨by simp, [lowerN, singleQuote], .character, hcharacter _ hplain⟩
  | characterLineBreak hu => exact ⟨by simp, [lowerN, singleQuote], .character, hcharacter _ hplain⟩
  | characterEscapeEnd => exact ⟨by simp, [lowerN, singleQuote], .character, hcharacter _ hescape⟩
  | characterEscape hu => exact ⟨by simp, [lowerN, singleQuote], .character, hcharacter _ hescape⟩
  | @characterClose content _ hcontent _ =>
      exact ⟨by simp, [singleQuote], .character, hcharacter content hcontent⟩
  | @stringClose content _ hcontent _ =>
      exact ⟨by simp, [doubleQuote], .string, hstring content hcontent⟩
  | @stringEscapeEnd content hcontent =>
      refine ⟨by simp, [lowerN, doubleQuote], .string, ?_⟩
      simpa using hstring _ (hstringEscape content hcontent)
  | @stringEscape content u hcontent _ =>
      refine ⟨by simp, [lowerN, doubleQuote], .string, ?_⟩
      simpa using hstring _ (hstringEscape content hcontent)

/-- A start that breaks does not begin with whitespace. -/
lemma Breaks.exists_cons {start : Text} {next : Option CodeUnit} {cause : Fault}
    (h : Breaks start next cause) : ∃ u t, start = u :: t ∧ u.isWhitespace = false := by
  obtain ⟨hne, v, kind, hmem⟩ := h.exists_completion
  obtain ⟨u, t, rfl⟩ := List.exists_cons_of_ne_nil hne
  obtain ⟨u', t', heq, hu⟩ := exists_cons_of_mem_language hmem
  obtain ⟨rfl, -⟩ := List.cons.inj heq
  exact ⟨u, t, rfl, hu⟩

/-! ## The languages among each other -/

/-- **No lexeme belongs to two kinds.** -/
theorem TokenKind.eq_of_mem_language {kind kind' : TokenKind} {l : Text}
    (h : l ∈ kind.language) (h' : l ∈ kind'.language) : kind = kind' := by
  have hscan := scan_of_mem_language h (ends_nil kind l)
  rw [scan_of_mem_language h' (ends_nil kind' l)] at hscan
  exact (Scan.token.inj hscan).1.symm

/-- A lexeme that goes on to be a longer one is continued by the unit behind it. -/
theorem continues_of_append_mem {kind kind' : TokenKind} {l more : Text} {u : CodeUnit}
    (h : l ∈ kind.language) (h' : l ++ u :: more ∈ kind'.language) :
    kind.continues l u = true := by
  by_contra hstop
  have hend : Ends kind l (u :: more) := by
    intro v hv
    obtain rfl : u = v := Option.some.inj hv
    simpa using hstop
  have hscan := scan_of_mem_language h' (ends_nil kind' _)
  rw [List.append_nil, scan_of_mem_language h hend] at hscan
  have hlength := (Scan.token.inj hscan).2
  rw [List.length_append, List.length_cons] at hlength
  omega

lemma singleton_mem_magnitude {u : CodeUnit} (hu : u.isDigit = true) : [u] ∈ magnitude := by
  by_cases hzero : u = zero
  · exact mem_magnitude.2 (Or.inl (by rw [hzero]))
  · have hu' : u.isNonZeroDigit = true := by simp [isNonZeroDigit, hu, hzero]
    exact mem_magnitude.2 (Or.inr ⟨u, [], rfl, hu', by simp⟩)

lemma append_mem_magnitude {m : Text} {u : CodeUnit} (hm : m ∈ magnitude) (hzero : m ≠ [zero])
    (hu : u.isDigit = true) : m ++ [u] ∈ magnitude := by
  obtain ⟨v, run, rfl, hv, hrun⟩ := (mem_magnitude.1 hm).resolve_left hzero
  refine mem_magnitude.2 (Or.inr ⟨v, run ++ [u], rfl, hv, ?_⟩)
  simpa [or_imp, forall_and] using ⟨hrun, hu⟩

/-- A unit that continues a lexeme makes a longer one of it, unless it is the dot behind an
integer. -/
theorem append_mem_of_continues {kind : TokenKind} {l : Text} {u : CodeUnit}
    (h : l ∈ kind.language) (hu : kind.continues l u = true)
    (hdot : ¬ (kind = .integer ∧ u = dot)) : ∃ kind' : TokenKind, l ++ [u] ∈ kind'.language := by
  cases kind with
  | identifier =>
      obtain ⟨v, run, rfl, hv, hrun⟩ := mem_identifier.1 h
      refine ⟨.identifier, mem_identifier.2 ⟨v, run ++ [u], rfl, hv, ?_⟩⟩
      simpa [or_imp, forall_and] using ⟨hrun, hu⟩
  | integer =>
      have hu' : u ≠ dot := by
        intro heq
        exact hdot ⟨rfl, heq⟩
      simp only [TokenKind.continues, Bool.or_eq_true, beq_iff_eq, hu', false_or, Bool.and_eq_true,
        bne_iff_ne] at hu
      obtain ⟨hdigit, hzero⟩ := hu
      refine ⟨.integer, mem_integer.2 ?_⟩
      rcases mem_integer.1 h with hm | ⟨s, m, rfl, hs, hm⟩
      · rw [unsigned_of_mem_magnitude hm] at hzero
        exact Or.inl (append_mem_magnitude hm hzero hdigit)
      · rw [unsigned_sign_cons hs] at hzero
        exact Or.inr ⟨s, m ++ [u], rfl, hs, append_mem_magnitude hm hzero hdigit⟩
  | decimal =>
      obtain ⟨i, hi, f, hne, hf, rfl⟩ := mem_decimal.1 h
      refine ⟨.decimal, mem_decimal.2 ⟨i, hi, f ++ [u], by simp, ?_, by simp⟩⟩
      simpa [or_imp, forall_and] using ⟨hf, hu⟩
  | character => cases hu
  | string => cases hu
  | operator =>
      rcases mem_operator.1 h with ⟨v, w, rfl, -⟩ | ⟨v, rfl, -⟩
      · cases hu
      · simp only [TokenKind.continues, Bool.or_eq_true, Bool.and_eq_true] at hu
        rcases hu with ⟨hsign, hdigit⟩ | hpair
        · have hmem := singleton_mem_magnitude hdigit
          exact ⟨.integer, mem_integer.2 (Or.inr ⟨v, [u], rfl, hsign, hmem⟩)⟩
        · exact ⟨.operator, mem_operator.2 (Or.inl ⟨v, u, rfl, hpair⟩)⟩

end Lexis
