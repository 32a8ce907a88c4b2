import Lexis.Scan
import Mathlib.Computability.Language

/-!
# The lexical grammar

The readers of `Lexis.Scan` decide what a token is while they run.  This file says it without
running anything: each kind of token is a regular language over code units.

* `Grammar.identifier`, `Grammar.integer`, `Grammar.decimal`, `Grammar.character`,
  `Grammar.string`, `Grammar.operator` — the six languages.
* `TokenKind.language` — the language of a kind.
* `Grammar.lexeme` — their union.

The languages are written with the operations of a Kleene algebra, and each comes with a lemma that
says in plain terms which texts it holds.  After that nothing opens a product or a star again.
-/

namespace Lexis

open CodeUnit
open scoped Computability

namespace Grammar

/-! ## The languages -/

/-- The texts of one unit of a class. -/
def unit (p : CodeUnit → Bool) : Language CodeUnit := {t | ∃ u, p u = true ∧ t = [u]}

/-- `[A-Za-z_][A-Za-z0-9_-]*` -/
def identifier : Language CodeUnit := unit isIdentifierStart * (unit isIdentifierChar)∗

/-- `0|[1-9][0-9]*`: a number has no leading zero. -/
def magnitude : Language CodeUnit := {[zero]} + unit isNonZeroDigit * (unit isDigit)∗

/-- `[+-]?(0|[1-9][0-9]*)` -/
def integer : Language CodeUnit := (1 + unit isSign) * magnitude

/-- An integer, a dot, and at least one digit. -/
def decimal : Language CodeUnit := integer * ({[dot]} * (unit isDigit * (unit isDigit)∗))

/-- A language between two quotes of one sort. -/
def quoted (q : CodeUnit) (l : Language CodeUnit) : Language CodeUnit := {[q]} * (l * {[q]})

/-- What a character literal holds unescaped. -/
def isCharacterPlain (u : CodeUnit) : Bool :=
  u != singleQuote && u != backslash && !u.isLineBreak

/-- The one thing between the quotes of a character literal. -/
def characterContent : Language CodeUnit :=
  unit isCharacterPlain + {[backslash]} * unit isCharacterEscape

def character : Language CodeUnit := quoted singleQuote characterContent

/-- What a string literal holds unescaped. -/
def isStringPlain (u : CodeUnit) : Bool :=
  u != doubleQuote && u != backslash && !u.isLineBreak

/-- What stands between the quotes of a string literal. -/
def stringContent : Language CodeUnit :=
  (unit isStringPlain + {[backslash]} * unit isStringEscape)∗

def string : Language CodeUnit := quoted doubleQuote stringContent

/-- `&&`, `||`, `!=`, `==`, `<=` and `>=` -/
def operatorPair : Language CodeUnit :=
  {[ampersand, ampersand], [bar, bar], [exclamation, equals], [equals, equals], [less, equals],
    [greater, equals]}

/-- An operator of one unit is any unit that nothing else claims. -/
def isOperatorUnit (u : CodeUnit) : Bool :=
  !(u.isWhitespace || u.isLetter || u.isDigit || u == underscore || u == singleQuote ||
    u == doubleQuote)

def operator : Language CodeUnit := operatorPair + unit isOperatorUnit

/-- A lexeme, of whatever kind. -/
def lexeme : Language CodeUnit :=
  identifier + integer + decimal + character + string + operator

end Grammar

/-- The lexemes of a kind of token. -/
def TokenKind.language : TokenKind → Language CodeUnit
  | identifier => Grammar.identifier
  | integer => Grammar.integer
  | decimal => Grammar.decimal
  | character => Grammar.character
  | string => Grammar.string
  | operator => Grammar.operator

namespace Grammar

/-! ## What the languages hold -/

lemma mem_singleton {t w : Text} : t ∈ ({w} : Language CodeUnit) ↔ t = w := Iff.rfl

lemma mem_unit_mul {p : CodeUnit → Bool} {l : Language CodeUnit} {t : Text} :
    t ∈ unit p * l ↔ ∃ u rest, t = u :: rest ∧ p u = true ∧ rest ∈ l := by
  rw [Language.mem_mul]
  constructor
  · rintro ⟨_, ⟨u, hu, rfl⟩, rest, hrest, rfl⟩
    exact ⟨u, rest, rfl, hu, hrest⟩
  · rintro ⟨u, rest, rfl, hu, hrest⟩
    exact ⟨[u], ⟨u, hu, rfl⟩, rest, hrest, rfl⟩

lemma mem_singleton_mul {w t : Text} {l : Language CodeUnit} :
    t ∈ ({w} : Language CodeUnit) * l ↔ ∃ rest ∈ l, t = w ++ rest := by
  rw [Language.mem_mul]
  constructor
  · rintro ⟨_, rfl, rest, hrest, rfl⟩
    exact ⟨rest, hrest, rfl⟩
  · rintro ⟨rest, hrest, rfl⟩
    exact ⟨w, rfl, rest, hrest, rfl⟩

/-- A run of a class is a text whose every unit is in the class. -/
lemma mem_kstar_unit {p : CodeUnit → Bool} {t : Text} :
    t ∈ (unit p)∗ ↔ ∀ u ∈ t, p u = true := by
  rw [Language.mem_kstar]
  constructor
  · rintro ⟨parts, rfl, hparts⟩ u hu
    obtain ⟨part, hpart, hu⟩ := List.mem_flatten.1 hu
    obtain ⟨v, hv, rfl⟩ := hparts part hpart
    rw [List.mem_singleton.1 hu]
    exact hv
  · intro h
    refine ⟨t.map ([·]), (List.flatMap_singleton' t).symm, ?_⟩
    intro part hpart
    obtain ⟨u, hu, rfl⟩ := List.mem_map.1 hpart
    exact ⟨u, h u hu, rfl⟩

lemma mem_unit_mul_kstar {p q : CodeUnit → Bool} {t : Text} :
    t ∈ unit p * (unit q)∗ ↔ ∃ u rest, t = u :: rest ∧ p u = true ∧ ∀ v ∈ rest, q v = true := by
  simp only [mem_unit_mul, mem_kstar_unit]

lemma mem_identifier {t : Text} :
    t ∈ identifier ↔
      ∃ u rest, t = u :: rest ∧ u.isIdentifierStart = true ∧
        ∀ v ∈ rest, v.isIdentifierChar = true :=
  mem_unit_mul_kstar

lemma mem_magnitude {t : Text} :
    t ∈ magnitude ↔
      t = [zero] ∨
        ∃ u rest, t = u :: rest ∧ u.isNonZeroDigit = true ∧ ∀ v ∈ rest, v.isDigit = true := by
  rw [magnitude, Language.mem_add, mem_singleton, mem_unit_mul_kstar]

lemma mem_integer {t : Text} :
    t ∈ integer ↔ t ∈ magnitude ∨ ∃ s m, t = s :: m ∧ s.isSign = true ∧ m ∈ magnitude := by
  rw [integer, add_mul, one_mul, Language.mem_add, mem_unit_mul]

lemma mem_decimal {t : Text} :
    t ∈ decimal ↔
      ∃ i ∈ integer, ∃ f, f ≠ [] ∧ (∀ u ∈ f, u.isDigit = true) ∧ t = i ++ dot :: f := by
  rw [decimal, Language.mem_mul]
  simp only [mem_singleton_mul, mem_unit_mul_kstar]
  constructor
  · rintro ⟨i, hi, _, ⟨_, ⟨u, rest, rfl, hu, hrest⟩, rfl⟩, rfl⟩
    exact ⟨i, hi, u :: rest, List.cons_ne_nil u rest, List.forall_mem_cons.2 ⟨hu, hrest⟩, rfl⟩
  · rintro ⟨i, hi, f, hne, hf, rfl⟩
    obtain ⟨u, rest, rfl⟩ := List.exists_cons_of_ne_nil hne
    have hf := List.forall_mem_cons.1 hf
    exact ⟨i, hi, _, ⟨_, ⟨u, rest, rfl, hf.1, hf.2⟩, rfl⟩, rfl⟩

lemma mem_characterContent {t : Text} :
    t ∈ characterContent ↔
      (∃ u, t = [u] ∧ isCharacterPlain u = true) ∨
        ∃ u, t = [backslash, u] ∧ u.isCharacterEscape = true := by
  simp only [characterContent, Language.mem_add, mem_singleton_mul]
  constructor
  · rintro (⟨u, hu, rfl⟩ | ⟨_, ⟨u, hu, rfl⟩, rfl⟩)
    · exact Or.inl ⟨u, rfl, hu⟩
    · exact Or.inr ⟨u, rfl, hu⟩
  · rintro (⟨u, rfl, hu⟩ | ⟨u, rfl, hu⟩)
    · exact Or.inl ⟨u, hu, rfl⟩
    · exact Or.inr ⟨[u], ⟨u, hu, rfl⟩, rfl⟩

lemma mem_quoted {q : CodeUnit} {l : Language CodeUnit} {t : Text} :
    t ∈ quoted q l ↔ ∃ content ∈ l, t = q :: (content ++ [q]) := by
  rw [quoted, mem_singleton_mul]
  constructor
  · rintro ⟨_, ⟨content, hcontent, _, rfl, rfl⟩, rfl⟩
    exact ⟨content, hcontent, rfl⟩
  · rintro ⟨content, hcontent, rfl⟩
    exact ⟨_, Language.append_mem_mul hcontent (mem_singleton.2 rfl), rfl⟩

lemma mem_operatorPair {t : Text} :
    t ∈ operatorPair ↔ ∃ u v, t = [u, v] ∧ isOperatorPair u v = true := by
  constructor
  · rintro (rfl | rfl | rfl | rfl | rfl | rfl) <;> exact ⟨_, _, rfl, by decide⟩
  · rintro ⟨u, v, rfl, h⟩
    simp only [isOperatorPair, Bool.or_eq_true, Bool.and_eq_true, beq_iff_eq] at h
    rcases h with (⟨rfl, rfl⟩ | ⟨rfl, rfl⟩) | ⟨((rfl | rfl) | rfl) | rfl, rfl⟩
    · exact Or.inl rfl
    · exact Or.inr (Or.inl rfl)
    · exact Or.inr (Or.inr (Or.inl rfl))
    · exact Or.inr (Or.inr (Or.inr (Or.inl rfl)))
    · exact Or.inr (Or.inr (Or.inr (Or.inr (Or.inl rfl))))
    · exact Or.inr (Or.inr (Or.inr (Or.inr (Or.inr rfl))))

lemma mem_operator {t : Text} :
    t ∈ operator ↔
      (∃ u v, t = [u, v] ∧ isOperatorPair u v = true) ∨ ∃ u, t = [u] ∧ isOperatorUnit u = true := by
  rw [operator, Language.mem_add, mem_operatorPair]
  exact or_congr_right (exists_congr fun u => and_comm)

lemma mem_lexeme {t : Text} : t ∈ lexeme ↔ ∃ kind : TokenKind, t ∈ kind.language := by
  simp only [lexeme, Language.mem_add]
  constructor
  · rintro (((((h | h) | h) | h) | h) | h)
    · exact ⟨.identifier, h⟩
    · exact ⟨.integer, h⟩
    · exact ⟨.decimal, h⟩
    · exact ⟨.character, h⟩
    · exact ⟨.string, h⟩
    · exact ⟨.operator, h⟩
  · rintro ⟨kind, h⟩
    cases kind <;> simp only [TokenKind.language] at h <;> tauto

/-! ### The content of a string

It is built from unescaped units and escapes by joining, and an induction principle takes it apart
from the left.
-/

lemma nil_mem_stringContent : [] ∈ stringContent := Language.nil_mem_kstar _

lemma append_mem_stringContent {s t : Text} (hs : s ∈ stringContent) (ht : t ∈ stringContent) :
    s ++ t ∈ stringContent := by
  have hst := Language.append_mem_mul hs ht
  rwa [stringContent, kstar_mul_kstar] at hst

lemma plain_mem_stringContent {u : CodeUnit} (hu : isStringPlain u = true) :
    [u] ∈ stringContent :=
  (le_kstar : _ ≤ stringContent) (Or.inl ⟨u, hu, rfl⟩)

lemma escape_mem_stringContent {u : CodeUnit} (hu : u.isStringEscape = true) :
    [backslash, u] ∈ stringContent :=
  (le_kstar : _ ≤ stringContent) (Or.inr (mem_singleton_mul.2 ⟨[u], ⟨u, hu, rfl⟩, rfl⟩))

theorem stringContent_induction {motive : Text → Prop} (nil : motive [])
    (plain : ∀ u t, isStringPlain u = true → t ∈ stringContent → motive t → motive (u :: t))
    (escape : ∀ u t, u.isStringEscape = true → t ∈ stringContent → motive t →
      motive (backslash :: u :: t)) :
    ∀ t ∈ stringContent, motive t := by
  intro t ht
  obtain ⟨parts, rfl, hparts⟩ := Language.mem_kstar.1 ht
  clear ht
  induction parts with
  | nil => exact nil
  | cons part parts ih =>
      have hrest := List.forall_mem_cons.1 hparts
      have hmem : parts.flatten ∈ stringContent := Language.join_mem_kstar hrest.2
      rcases hrest.1 with ⟨u, hu, rfl⟩ | ⟨_, rfl, _, ⟨u, hu, rfl⟩, rfl⟩
      · exact plain u _ hu hmem (ih hrest.2)
      · exact escape u _ hu hmem (ih hrest.2)

end Grammar

end Lexis
