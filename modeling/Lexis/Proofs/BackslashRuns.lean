import Lexis.Proofs.Diagnosis
import Mathlib.Algebra.Ring.Parity
import Mathlib.Data.List.DropRight
import Mathlib.Order.Bounds.Basic

/-!
# Where a string ends

The reader of a string takes a backslash together with the unit behind it, and so it never looks back.
Without the reader, the same thing is told from a position and what stands in front of it: the unit there
is escaped exactly if the backslashes right in front of it, back to the opening quote at most, are odd in
number.  A string therefore ends at the first double quote behind an even number of backslashes.

* `Text.backslashRun` — the number of backslashes in front of a position.
* `Text.odd_backslashRun_iff` — its parity is `Text.isEscaped`, which goes forward unit by unit.
* `Text.Continues`, `Text.ClosesString`, `Text.BreaksString` — what a position means to a string, by the
  unit there and that parity.
* `exists_content` — what the reader goes over is content, and one of four things stops it there.
* `exists_stringEnd` — hence it stops at the first position at which the string does not go on.
* **`Cursor.read_string_parity`** — the string is closed, and where, or else it breaks, and where.
-/

namespace Lexis

open CodeUnit Grammar

lemma isLineBreak_eq_false_of_isStringEscape {u : CodeUnit} (hu : u.isStringEscape = true) :
    u.isLineBreak = false := by
  grind [isStringEscape, isCharacterEscape, isLineBreak]

/-! ## Runs of backslashes -/

namespace Text

variable {t : Text} {start i : Nat} {u : CodeUnit}

/-- How many backslashes in a row stand right in front of position `i`, none of them in front of
`start`. -/
def backslashRun (t : Text) (start i : Nat) : Nat :=
  ((t.slice start i).rtakeWhile (· == backslash)).length

lemma backslashRun_self (t : Text) (start : Nat) : t.backslashRun start start = 0 := by
  simp [backslashRun, slice_natCast]

/-- A backslash makes the run longer, and anything else ends it. -/
lemma backslashRun_succ (hstart : start ≤ i) (hu : t[i]? = some u) :
    t.backslashRun start (i + 1) = if u = backslash then t.backslashRun start i + 1 else 0 := by
  have hlt : i < t.length := (List.getElem?_eq_some_iff.1 hu).1
  have hslice : t.slice start (i + 1 : Nat) = t.slice start i ++ [u] := by
    rw [slice_natCast, slice_natCast, List.take_add_one, hu, Option.toList_some,
      List.drop_append_of_le_length (by rw [List.length_take]; omega)]
  rw [backslashRun, hslice, List.rtakeWhile_concat]
  by_cases hback : u = backslash <;> simp [backslashRun, hback]

/-- **Parity tells what is escaped.**  The induction goes forward: a backslash in front of a unit changes
the parity and escapes the unit, unless it is escaped itself. -/
theorem odd_backslashRun_iff {k : Nat} (hk : start + k ≤ t.length) :
    Odd (t.backslashRun start (start + k)) ↔ isEscaped (t.drop start) k = true := by
  induction k with
  | zero => simp [backslashRun_self, isEscaped]
  | succ k ih =>
      have hunit : t[start + k]? = some t[start + k] := List.getElem?_eq_getElem (by omega)
      have hlast := ih (by omega)
      rw [← Nat.add_assoc, backslashRun_succ (Nat.le_add_right start k) hunit, isEscaped,
        List.getElem?_drop, hunit]
      by_cases hback : t[start + k] = backslash
      · simp [hback, Nat.odd_add_one, hlast]
      · simp [hback]

/-! ## What a position means to a string

All of this is about a text in which the content of a string begins at `start`.
-/

/-- The string goes on behind position `i`. -/
def Continues (t : Text) (start i : Nat) : Prop :=
  ∃ u, t[i]? = some u ∧ (Odd (t.backslashRun start i) → u.isStringEscape = true) ∧
    (Even (t.backslashRun start i) → u ≠ doubleQuote ∧ u.isLineBreak = false)

/-- The string that is opened at `s` goes on up to position `p`. -/
def ContinuesUpTo (t : Text) (s p : Nat) : Prop := ∀ i, s < i → i < p → t.Continues (s + 1) i

/-- A double quote that is not escaped. -/
def IsClosingQuote (t : Text) (start i : Nat) : Prop :=
  t[i]? = some doubleQuote ∧ Even (t.backslashRun start i)

/-- An escaped unit that is no escape. -/
def IsUnknownEscape (t : Text) (start i : Nat) : Prop :=
  Odd (t.backslashRun start i) ∧ ∃ u, t[i]? = some u ∧ u.isStringEscape = false

/-- A line break that is not escaped. -/
def IsRawLineBreak (t : Text) (start i : Nat) : Prop :=
  Even (t.backslashRun start i) ∧ ∃ u, t[i]? = some u ∧ u.isLineBreak = true

/-- The string that is opened at `s` is closed at `j`: the first double quote behind an even run of
backslashes stands there, no line break before it, and only escapes behind odd runs. -/
structure ClosesString (t : Text) (s j : Nat) : Prop where
  isLeast : IsLeast {i | s < i ∧ t.IsClosingQuote (s + 1) i} j
  no_lineBreak : ∀ i, s < i → i < j → ∀ u ∈ t[i]?, u.isLineBreak = false
  escapes : ∀ i, s < i → i < j → Odd (t.backslashRun (s + 1) i) →
    ∀ u ∈ t[i]?, u.isStringEscape = true

/-- The string that is opened at `s` breaks at `i`, if it has not come to an end before. -/
def BreaksString (t : Text) (s i : Nat) : Prop :=
  t.IsUnknownEscape (s + 1) i ∨ t.IsRawLineBreak (s + 1) i ∨ i = t.length

variable {s j p : Nat}

lemma Continues.not_isClosingQuote (h : t.Continues start i) : ¬ t.IsClosingQuote start i := by
  rintro ⟨hquote, heven⟩
  obtain ⟨u, hu, -, hplain⟩ := h
  rw [hu, Option.some.injEq] at hquote
  exact (hplain heven).1 hquote

lemma Continues.not_breaksString (h : t.Continues (s + 1) i) : ¬ t.BreaksString s i := by
  obtain ⟨u, hu, hescape, hplain⟩ := h
  rintro (⟨hodd, v, hv, hunknown⟩ | ⟨heven, v, hv, hbreak⟩ | rfl)
  · obtain rfl : u = v := Option.some.inj (hu.symm.trans hv)
    simp [hescape hodd] at hunknown
  · obtain rfl : u = v := Option.some.inj (hu.symm.trans hv)
    simp [(hplain heven).2] at hbreak
  · simp at hu

/-- An unknown escape is at a unit, and behind an odd run, while all else that breaks a string is not. -/
lemma IsUnknownEscape.not_end (h : t.IsUnknownEscape start i) :
    ¬ (t.IsRawLineBreak start i ∨ i = t.length) := by
  obtain ⟨hodd, u, hu, -⟩ := h
  rintro (⟨heven, -⟩ | rfl)
  · exact Nat.not_even_iff_odd.2 hodd heven
  · simp at hu

/-- A closing quote up to which the string goes on is where it is closed. -/
lemma closesString_of_continues (hlt : s < p) (hgo : t.ContinuesUpTo s p)
    (hquote : t.IsClosingQuote (s + 1) p) : t.ClosesString s p where
  isLeast := by
    refine ⟨⟨hlt, hquote⟩, ?_⟩
    rintro i ⟨hi, hclosing⟩
    by_contra hip
    exact (hgo i hi (Nat.not_le.1 hip)).not_isClosingQuote hclosing
  no_lineBreak i hi hip u hu := by
    obtain ⟨v, hv, hescape, hplain⟩ := hgo i hi hip
    obtain rfl : v = u := Option.some.inj (hv.symm.trans hu)
    rcases Nat.even_or_odd (t.backslashRun (s + 1) i) with heven | hodd
    · exact (hplain heven).2
    · exact isLineBreak_eq_false_of_isStringEscape (hescape hodd)
  escapes i hi hip hodd u hu := by
    obtain ⟨v, hv, hescape, -⟩ := hgo i hi hip
    obtain rfl : v = u := Option.some.inj (hv.symm.trans hu)
    exact hescape hodd

lemma isLeast_breaksString (hlt : s < p) (hgo : t.ContinuesUpTo s p)
    (hbreaks : t.BreaksString s p) : IsLeast {i | s < i ∧ t.BreaksString s i} p := by
  refine ⟨⟨hlt, hbreaks⟩, ?_⟩
  rintro i ⟨hi, hbreak⟩
  by_contra hip
  exact (hgo i hi (Nat.not_le.1 hip)).not_breaksString hbreak

/-- A string that breaks where it has not come to an end before is not closed anywhere. -/
lemma not_closesString_of_continues (hlt : s < p) (hgo : t.ContinuesUpTo s p)
    (hbreaks : t.BreaksString s p) : ¬ t.ClosesString s j := by
  intro h
  obtain ⟨⟨hj, hquote, heven⟩, -⟩ := h.isLeast
  have hend : j < t.length := (List.getElem?_eq_some_iff.1 hquote).1
  -- the closing quote is not before `p`, where the string would go on behind it
  have hpj : p ≤ j := by
    by_contra hjp
    exact (hgo j hj (Nat.not_le.1 hjp)).not_isClosingQuote ⟨hquote, heven⟩
  rcases hbreaks with ⟨hodd, u, hu, hunknown⟩ | ⟨-, u, hu, hbreak⟩ | rfl
  · rcases Nat.lt_or_eq_of_le hpj with hpj | rfl
    · simp [h.escapes p hlt hpj hodd u hu] at hunknown
    · exact Nat.not_even_iff_odd.2 hodd heven
  · rcases Nat.lt_or_eq_of_le hpj with hpj | rfl
    · simp [h.no_lineBreak p hlt hpj u hu] at hbreak
    · obtain rfl : doubleQuote = u := Option.some.inj (hquote.symm.trans hu)
      exact absurd hbreak (by decide)
  · omega

/-- **In the content of a string, nothing ends it.**  An escaped unit is an escape, and any other is
neither a double quote nor a line break. -/
lemma unit_of_mem_stringContent {content : Text} (h : content ∈ stringContent) {k : Nat}
    (hu : content[k]? = some u) :
    (content.isEscaped k = true → u.isStringEscape = true) ∧
      (content.isEscaped k = false → u ≠ doubleQuote ∧ u.isLineBreak = false) := by
  refine stringContent_induction (motive := fun content => ∀ k u, content[k]? = some u →
      (content.isEscaped k = true → u.isStringEscape = true) ∧
        (content.isEscaped k = false → u ≠ doubleQuote ∧ u.isLineBreak = false))
    ?nil ?plain ?escape content h k u hu
  case nil => simp
  case plain =>
    intro v t hv _ ih k u hu
    simp only [isStringPlain, Bool.and_eq_true, bne_iff_ne, Bool.not_eq_true'] at hv
    obtain ⟨⟨hquote, hback⟩, hbreak⟩ := hv
    cases k with
    | zero =>
        obtain rfl : v = u := by simpa using hu
        simp [isEscaped, hquote, hbreak]
    | succ k =>
        have hfront : isEscaped [v] 1 = false := by simp [isEscaped, hback]
        have happend := isEscaped_append hfront t k
        rw [List.length_singleton, List.singleton_append, Nat.add_comm] at happend
        rw [happend]
        exact ih k u (by simpa using hu)
  case escape =>
    intro v t hv _ ih k u hu
    rcases k with _ | _ | k
    · obtain rfl : backslash = u := by simpa using hu
      exact ⟨by simp [isEscaped], fun _ => by decide⟩
    · obtain rfl : v = u := by simpa using hu
      simp [isEscaped, hv]
    · have hfront : isEscaped [backslash, v] 2 = false := by simp [isEscaped]
      have happend := isEscaped_append hfront t k
      rw [show [backslash, v].length + k = k + 2 by simp [Nat.add_comm]] at happend
      simp only [List.cons_append, List.nil_append] at happend
      rw [happend]
      exact ih k u (by simpa using hu)

/-- A string goes on as long as its content does, and the unit behind the content is not escaped. -/
lemma continues_of_drop_eq {content rest : Text} (hs : s < t.length)
    (hdrop : t.drop (s + 1) = content ++ rest) (hcontent : content ∈ stringContent) :
    t.ContinuesUpTo s (s + 1 + content.length) ∧
      Even (t.backslashRun (s + 1) (s + 1 + content.length)) := by
  have hlength : s + 1 + content.length ≤ t.length := by
    have hlengths := congrArg List.length hdrop
    rw [List.length_drop, List.length_append] at hlengths
    omega
  -- in front of the end of the content, only the content matters
  have hescaped : ∀ k ≤ content.length,
      Odd (t.backslashRun (s + 1) (s + 1 + k)) ↔ content.isEscaped k = true := by
    intro k hk
    rw [odd_backslashRun_iff (by omega), hdrop,
      isEscaped_congr fun i hi => List.getElem?_append_left (by omega)]
  constructor
  · intro i hi hlt
    obtain ⟨k, rfl⟩ := Nat.exists_eq_add_of_lt hi
    have hk : k < content.length := by omega
    have hunit : t[s + k + 1]? = some content[k] := by
      rw [show s + k + 1 = s + 1 + k by omega, ← List.getElem?_drop, hdrop,
        List.getElem?_append_left hk, List.getElem?_eq_getElem hk]
    obtain ⟨hescape, hplain⟩ := unit_of_mem_stringContent hcontent (List.getElem?_eq_getElem hk)
    have hparity := hescaped k hk.le
    rw [show s + 1 + k = s + k + 1 by omega] at hparity
    refine ⟨content[k], hunit, fun hodd => hescape (hparity.1 hodd), fun heven => hplain ?_⟩
    rwa [← Bool.not_eq_true, ← hparity, Nat.not_odd_iff_even]
  · rw [← Nat.not_odd_iff_even, hescaped content.length (Nat.le_refl _),
      isEscaped_of_mem_stringContent hcontent]
    exact Bool.false_ne_true

/-- A backslash that is not escaped is gone past, and it escapes the unit behind it. -/
lemma ContinuesUpTo.succ_of_backslash (hgo : t.ContinuesUpTo s p) (hlt : s < p)
    (hback : t[p]? = some backslash) (heven : Even (t.backslashRun (s + 1) p)) :
    t.ContinuesUpTo s (p + 1) ∧ Odd (t.backslashRun (s + 1) (p + 1)) := by
  constructor
  · intro i hi hip
    rcases Nat.lt_succ_iff_lt_or_eq.1 hip with hip | rfl
    · exact hgo i hi hip
    · refine ⟨backslash, hback, fun hodd => ?_, fun _ => by decide⟩
      exact absurd heven (Nat.not_even_iff_odd.2 hodd)
  · rw [backslashRun_succ hlt hback, if_pos rfl]
    exact heven.add_one

end Text

/-! ## What the reader goes over -/

/-- What ends the content of a string, and what the reader finds there. -/
inductive ContentEnd : Text → Scan → Prop
  | quote (rest : Text) : ContentEnd (doubleQuote :: rest) (.token .string 1)
  | stop {rest : Text} (hstop : ∀ u ∈ rest.head?, u.isLineBreak = true) :
      ContentEnd rest (.fault .unclosedString 0)
  | escapeEnd : ContentEnd [backslash] (.fault .unclosedString 1)
  | unknownEscape {u : CodeUnit} (rest : Text) (hu : u.isStringEscape = false) :
      ContentEnd (backslash :: u :: rest) (.fault (.unknownEscape u) 1)

lemma exists_content (t : Text) :
    ∃ content rest found, t = content ++ rest ∧ content ∈ stringContent ∧ ContentEnd rest found ∧
      scanStringBody t = found.shift content.length := by
  fun_induction scanStringBody t with
  | case1 => exact ⟨[], [], _, rfl, nil_mem_stringContent, .stop (by simp), rfl⟩
  | case2 rest => exact ⟨[], doubleQuote :: rest, _, rfl, nil_mem_stringContent, .quote rest, rfl⟩
  | case3 => exact ⟨[], [backslash], _, rfl, nil_mem_stringContent, .escapeEnd, rfl⟩
  | case4 v t hv _ ih =>
      obtain ⟨content, rest, found, rfl, hcontent, hend, hscan⟩ := ih
      refine ⟨backslash :: v :: content, rest, found, rfl,
        append_mem_stringContent (escape_mem_stringContent hv) hcontent, hend, ?_⟩
      rw [hscan, Scan.shift_shift, List.length_cons, List.length_cons, Nat.add_comm]
  | case5 v t hv _ =>
      exact ⟨[], backslash :: v :: t, _, rfl, nil_mem_stringContent,
        .unknownEscape t (by simpa using hv), rfl⟩
  | case6 u t _ _ hbreak =>
      exact ⟨[], u :: t, _, rfl, nil_mem_stringContent, .stop (by simpa using hbreak), rfl⟩
  | case7 u t hquote hback hbreak ih =>
      obtain ⟨content, rest, found, rfl, hcontent, hend, hscan⟩ := ih
      have hplain : isStringPlain u = true := by simp [isStringPlain, hback, hquote, hbreak]
      refine ⟨u :: content, rest, found, rfl,
        append_mem_stringContent (plain_mem_stringContent hplain) hcontent, hend, ?_⟩
      rw [hscan, Scan.shift_shift, List.length_cons, Nat.add_comm]

/-- Why a string that is opened at `s` breaks at `p`. -/
inductive StringFault (t : Text) (s p : Nat) : Fault → Prop
  | unknownEscape {u : CodeUnit} (h : t.IsUnknownEscape (s + 1) p) :
      StringFault t s p (.unknownEscape u)
  | unclosed (h : t.IsRawLineBreak (s + 1) p ∨ p = t.length) : StringFault t s p .unclosedString

namespace StringFault

variable {t : Text} {s p : Nat} {cause : Fault}

lemma breaksString (h : StringFault t s p cause) : t.BreaksString s p := by
  cases h with
  | unknownEscape h => exact Or.inl h
  | unclosed h => exact Or.inr h

lemma code_eq_invalidEscape (h : StringFault t s p cause) (hp : t.IsUnknownEscape (s + 1) p) :
    cause.code = .invalidEscape := by
  cases h with
  | unknownEscape => rfl
  | unclosed h => exact absurd h hp.not_end

lemma code_eq_unterminatedString (h : StringFault t s p cause)
    (hp : t.IsRawLineBreak (s + 1) p ∨ p = t.length) : cause.code = .unterminatedString := by
  cases h with
  | unknownEscape h => exact absurd hp h.not_end
  | unclosed => rfl

end StringFault

/-- What the reader of a string that is opened at `s` finds, by what stands at the position `p` up to
which the string goes on. -/
inductive StringEnd (t : Text) (s p : Nat) : Scan → Prop
  | closed (h : t.IsClosingQuote (s + 1) p) : StringEnd t s p (.token .string (p + 1 - s))
  | broken {cause : Fault} (h : StringFault t s p cause) : StringEnd t s p (.fault cause (p - s))

/-- **The reader of a string stops at the first position at which the string does not go on.** -/
theorem exists_stringEnd {t : Text} {s : Nat} (hquote : t[s]? = some doubleQuote) :
    ∃ p, s < p ∧ t.ContinuesUpTo s p ∧ StringEnd t s p (scanString (t.drop s)) := by
  obtain ⟨hs, hunit⟩ := List.getElem?_eq_some_iff.1 hquote
  obtain ⟨content, rest, found, hdrop, hcontent, hend, hscan⟩ := exists_content (t.drop (s + 1))
  obtain ⟨hgo, heven⟩ := Text.continues_of_drop_eq hs hdrop hcontent
  have hread : scanString (t.drop s) = found.shift (1 + content.length) := by
    rw [List.drop_eq_getElem_cons hs, hunit, scanString, if_pos rfl, hscan, Scan.shift_shift]
  have hlength : t.length = s + 1 + content.length + rest.length := by
    have hlengths := congrArg List.length hdrop
    rw [List.length_drop, List.length_append] at hlengths
    omega
  -- behind the content stands the rest
  generalize hp : s + 1 + content.length = p at hgo heven hlength
  have hrest : ∀ k, t[p + k]? = rest[k]? := by
    intro k
    rw [← hp, Nat.add_assoc, ← List.getElem?_drop, hdrop, List.getElem?_append_right (by omega),
      Nat.add_sub_cancel_left]
  rw [hread]
  cases hend with
  | quote rest =>
      refine ⟨p, by omega, hgo, ?_⟩
      rw [Scan.shift, show 1 + content.length + 1 = p + 1 - s by omega]
      exact .closed ⟨hrest 0, heven⟩
  | stop hstop =>
      refine ⟨p, by omega, hgo, ?_⟩
      rw [Scan.shift, show 1 + content.length + 0 = p - s by omega]
      refine .broken (.unclosed ?_)
      cases rest with
      | nil => exact Or.inr hlength.symm
      | cons u rest => exact Or.inl ⟨heven, u, hrest 0, hstop u rfl⟩
  | escapeEnd =>
      obtain ⟨hgo, -⟩ := hgo.succ_of_backslash (by omega) (hrest 0) heven
      refine ⟨p + 1, by omega, hgo, ?_⟩
      rw [Scan.shift, show 1 + content.length + 1 = p + 1 - s by omega]
      exact .broken (.unclosed (Or.inr hlength.symm))
  | unknownEscape rest hu =>
      obtain ⟨hgo, hodd⟩ := hgo.succ_of_backslash (by omega) (hrest 0) heven
      refine ⟨p + 1, by omega, hgo, ?_⟩
      rw [Scan.shift, show 1 + content.length + 1 = p + 1 - s by omega]
      exact .broken (.unknownEscape ⟨hodd, _, hrest 1, hu⟩)

/-! ## The literal at a cursor -/

namespace Cursor

variable {c : Cursor} {s p : Nat}

lemma read_string_of_closed (hc : c.Settled) (hindex : c.index = s)
    (hscan : Reader.string.scan c.ahead = .token .string (p + 1 - s)) :
    c.read .string =
      (.ok ⟨.string, c.source.slice s (p + 1 : Nat), s + c.baseOffset⟩,
        (c.advanceBy (p + 1 - s)).setMark) := by
  have hlexeme : c.ahead.take (p + 1 - s) = c.source.slice s (p + 1 : Nat) := by
    rw [ahead_of_nonneg hc.nonneg, hindex, Int.toNat_natCast, Text.slice_natCast, List.drop_take]
  rw [read_of_token hc hscan, hlexeme, location, hindex]

/-- A read that fails reports the place at which it stops. -/
lemma exists_failure_of_scan (reader : Reader) (hindex : c.index = s) (hlt : s < p) {cause : Fault}
    (hscan : reader.scan c.ahead = .fault cause (p - s)) :
    ∃ failure, c.read reader = (.error failure, c.advanceBy (p - s)) ∧
      failure.diagnostic.offset = p + c.baseOffset ∧ failure.diagnostic.code = cause.code := by
  refine ⟨(c.advanceBy (p - s)).failure cause, read_eq_of_fault hscan, ?_, Failure.code_diagnostic _⟩
  rw [Failure.offset_diagnostic]
  show (c.advanceBy (p - s)).index + (c.advanceBy (p - s)).baseOffset = _
  rw [index_advanceBy, baseOffset_advanceBy, hindex]
  omega

/-- **A string literal ends at the first double quote behind an even run of backslashes.**  At a cursor
with nothing pending, on the double quote at `s`, the reader returns exactly if there is such a quote, no
line break in front of it, and only escapes behind odd runs.  The lexeme is the text up to that quote.
Otherwise the reader fails at the first position that breaks the string: at an escaped unit that is no
escape, or at a line break that is not escaped, or at the end of the text. -/
theorem read_string_parity (hindex : c.index = s) (hmark : c.mark = c.index)
    (hquote : c.source[s]? = some doubleQuote) :
    (∀ token c', c.read .string = (.ok token, c') ↔
      ∃ j, c.source.ClosesString s j ∧
        token = ⟨.string, c.source.slice s (j + 1 : Nat), s + c.baseOffset⟩ ∧
        c' = (c.advanceBy (j + 1 - s)).setMark) ∧
    ((¬ ∃ j, c.source.ClosesString s j) →
      ∃ p failure, IsLeast {i | s < i ∧ c.source.BreaksString s i} p ∧
        c.read .string = (.error failure, c.advanceBy (p - s)) ∧
        failure.diagnostic.offset = p + c.baseOffset ∧
        (c.source.IsUnknownEscape (s + 1) p →
          failure.diagnostic.code.id = Text.ofString "IMP-L004") ∧
        (c.source.IsRawLineBreak (s + 1) p ∨ p = c.source.length →
          failure.diagnostic.code.id = Text.ofString "IMP-L005")) := by
  have hs : s < c.source.length := (List.getElem?_eq_some_iff.1 hquote).1
  have hc : c.Settled := ⟨hmark, by omega, by omega⟩
  obtain ⟨p, hlt, hgo, hend⟩ := exists_stringEnd hquote
  have hahead : c.source.drop s = c.ahead := by
    rw [ahead_of_nonneg hc.nonneg, hindex, Int.toNat_natCast]
  rw [hahead] at hend
  generalize hscan : scanString c.ahead = found at hend
  cases hend with
  | closed hclosing =>
      have hcloses := Text.closesString_of_continues hlt hgo hclosing
      have hread := read_string_of_closed hc hindex hscan
      refine ⟨fun token c' => ?_, fun hnone => absurd ⟨p, hcloses⟩ hnone⟩
      rw [hread]
      constructor
      · intro h
        cases h
        exact ⟨p, hcloses, rfl, rfl⟩
      · rintro ⟨j, hj, rfl, rfl⟩
        rw [hj.isLeast.unique hcloses.isLeast]
  | broken hfault =>
      have hbreaks := hfault.breaksString
      obtain ⟨failure, hread, hoffset, hcode⟩ :=
        exists_failure_of_scan .string hindex hlt hscan
      refine ⟨fun token c' => ?_, fun _ => ⟨p, failure, Text.isLeast_breaksString hlt hgo hbreaks,
        hread, hoffset, ?_, ?_⟩⟩
      · rw [hread]
        refine iff_of_false (by simp) ?_
        rintro ⟨j, hj, -⟩
        exact Text.not_closesString_of_continues hlt hgo hbreaks hj
      · intro hp
        rw [hcode, hfault.code_eq_invalidEscape hp]
        rfl
      · intro hp
        rw [hcode, hfault.code_eq_unterminatedString hp]
        rfl

/-- In `"a\"\\"` the second quote is escaped.  The third is not, since the backslash in front of it is.  In
`"\\\"` three backslashes escape the quote behind them, and the string is open when the text ends. -/
theorem read_string_parity_escaped_quote :
    let closed : Text :=
      [doubleQuote, lowerA, backslash, doubleQuote, backslash, backslash, doubleQuote]
    let c := Cursor.start closed Location.start
    let openEnded : Text := [doubleQuote, backslash, backslash, backslash, doubleQuote]
    let d := Cursor.start openEnded Location.start
    c.read .string = (.ok ⟨.string, closed, 0⟩, (c.advanceBy 7).setMark) ∧ closed.ClosesString 0 6 ∧
      (¬ ∃ j, openEnded.ClosesString 0 j) ∧ IsLeast {i | 0 < i ∧ openEnded.BreaksString 0 i} 5 ∧
      ∃ failure, d.read .string = (.error failure, d.advanceBy 5) ∧
        failure.diagnostic.code.id = Text.ofString "IMP-L005" := by
  intro closed c openEnded d
  have hclosed : c.read .string = (.ok ⟨.string, closed, 0⟩, (c.advanceBy 7).setMark) := by decide
  have hopen : d.read .string =
      (.error ⟨.unclosedString, openEnded, ⟨1, 6, 5⟩⟩, d.advanceBy 5) := by decide
  have hclosedFirst : closed[0]? = some doubleQuote := rfl
  have hopenFirst : openEnded[0]? = some doubleQuote := rfl
  obtain ⟨j, hj, -, hcursor⟩ :=
    ((read_string_parity (c := c) (s := 0) rfl rfl hclosedFirst).1 _ _).1 hclosed
  obtain ⟨hiff, hbroken⟩ := read_string_parity (c := d) (s := 0) rfl rfl hopenFirst
  have hnone : ¬ ∃ j, openEnded.ClosesString 0 j := by
    rintro ⟨j, hj⟩
    have hok := (hiff _ _).2 ⟨j, hj, rfl, rfl⟩
    rw [hopen] at hok
    cases hok
  obtain ⟨p, failure, hleast, hread, -, -, hid⟩ := hbroken hnone
  obtain rfl : j = 6 := by
    have hindex := congrArg Cursor.index hcursor
    simp only [index_setMark, index_advanceBy] at hindex
    omega
  obtain rfl : p = 5 := by
    have hindex := congrArg (fun r => r.2.index) (hopen.symm.trans hread)
    simp only [index_advanceBy] at hindex
    omega
  exact ⟨hclosed, hj, hnone, hleast, failure, hread, hid (Or.inr rfl)⟩

end Cursor

end Lexis
