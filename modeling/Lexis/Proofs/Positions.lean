import Lexis.Proofs.CursorFront
import Lexis.Proofs.Effects
import Lexis.Proofs.Runs

/-!
# Where a position is

A cursor keeps an index, a line and a column, and moves them apart from each other.  They cannot come
apart: line and column are a function of the text, the location of its front and the index, whatever
calls have been made and however they have ended.  The function goes on behind the end of the text,
where every further call to advance takes a column.

* `Location.place` — that function.  It counts the line feeds before a position, and measures the
  column from the last of them.
* `Location.place_succ` — its steps, which are those of a cursor that advances.
* `Location.after_take_eq_place` — inside the text it is where reading arrives.
* `Cursor.At` — a cursor at a position, preserved by all that calls do (`Cursor.At.effect`).
* **`Session.location_exact`** — so every location that is seen or reported is the right one.
-/

namespace Lexis

open CodeUnit

namespace Text

/-- The position of the last line feed before `i`. -/
def lastLineFeed? (t : Text) : Nat → Option Nat
  | 0 => none
  | i + 1 => if t[i]? = some lineFeed then some i else t.lastLineFeed? i

theorem lastLineFeed?_eq_none_iff {t : Text} {i : Nat} :
    t.lastLineFeed? i = none ↔ ∀ q < i, t[q]? ≠ some lineFeed := by
  induction i with
  | zero => simp [lastLineFeed?]
  | succ i ih =>
      by_cases hi : t[i]? = some lineFeed
      · simp only [lastLineFeed?, if_pos hi, reduceCtorEq, false_iff]
        exact fun h => h i (Nat.lt_succ_self i) hi
      · rw [lastLineFeed?, if_neg hi, ih, Nat.forall_lt_succ_right]
        exact ⟨fun h => ⟨h, hi⟩, And.left⟩

theorem lastLineFeed?_eq_some_iff {t : Text} {i p : Nat} :
    t.lastLineFeed? i = some p ↔
      p < i ∧ t[p]? = some lineFeed ∧ ∀ q, p < q → q < i → t[q]? ≠ some lineFeed := by
  induction i with
  | zero => simp [lastLineFeed?]
  | succ i ih =>
      by_cases hi : t[i]? = some lineFeed
      · rw [lastLineFeed?, if_pos hi, Option.some.injEq]
        constructor
        · rintro rfl
          exact ⟨Nat.lt_succ_self i, hi, fun q hpq hqi => absurd hqi (by omega)⟩
        · rintro ⟨hlt, -, hlast⟩
          by_contra hne
          exact hlast i (by omega) (Nat.lt_succ_self i) hi
      · rw [lastLineFeed?, if_neg hi, ih]
        constructor
        · rintro ⟨hlt, hp, hlast⟩
          refine ⟨by omega, hp, fun q hpq hqi => ?_⟩
          obtain hq | rfl := Nat.lt_succ_iff_lt_or_eq.1 hqi
          · exact hlast q hpq hq
          · exact hi
        · rintro ⟨hlt, hp, hlast⟩
          obtain hlt | rfl := Nat.lt_succ_iff_lt_or_eq.1 hlt
          · exact ⟨hlt, hp, fun q hpq hqi => hlast q hpq (by omega)⟩
          · exact absurd hp hi

end Text

namespace Location

/-- **The location of position `i`** in a text that begins at `base`, also for an `i` behind the end.  On
the first line the columns go on from that of `base`; on any other, the unit behind the line feed has
column one. -/
def place (base : Location) (t : Text) (i : Nat) : Location where
  line := base.line + (t.take i).count lineFeed
  column :=
    match t.lastLineFeed? i with
    | some p => i - p
    | none => base.column + i
  offset := base.offset + i

variable (base : Location) (t : Text)

@[simp] lemma place_zero : base.place t 0 = base := by
  simp [place, Text.lastLineFeed?]

lemma offset_place (i : Nat) : (base.place t i).offset = base.offset + i := rfl

/-- Behind a line feed, the columns count from there. -/
lemma column_place_of_lineFeed {i p : Nat} (hlt : p < i) (hp : t[p]? = some lineFeed)
    (hlast : ∀ q, p < q → q < i → t[q]? ≠ some lineFeed) : (base.place t i).column = i - p := by
  rw [place, Text.lastLineFeed?_eq_some_iff.2 ⟨hlt, hp, hlast⟩]

lemma column_place_of_first_line {i : Nat} (h : ∀ q < i, t[q]? ≠ some lineFeed) :
    (base.place t i).column = base.column + i := by
  rw [place, Text.lastLineFeed?_eq_none_iff.2 h]

lemma place_succ (i : Nat) :
    base.place t (i + 1) =
      if t[i]? = some lineFeed then
        ⟨(base.place t i).line + 1, 1, (base.place t i).offset + 1⟩
      else ⟨(base.place t i).line, (base.place t i).column + 1, (base.place t i).offset + 1⟩ := by
  by_cases hi : t[i]? = some lineFeed
  · simp only [place, List.take_add_one, hi, Text.lastLineFeed?, if_pos, Option.toList_some,
      List.count_append, List.count_singleton_self, mk.injEq]
    omega
  · have hcount : (t[i]?.toList).count lineFeed = 0 := by
      rw [List.count_eq_zero]
      simpa using hi
    simp only [place, List.take_add_one, Text.lastLineFeed?, if_neg hi, List.count_append, hcount,
      mk.injEq, Nat.add_zero, true_and]
    cases t.lastLineFeed? i <;> simp only <;> omega

/-- Inside the text, reading from its front arrives there. -/
lemma after_take_eq_place {i : Nat} (hi : i ≤ t.length) :
    base.after (t.take i) = base.place t i := by
  induction i with
  | zero => rw [List.take_zero, after_nil, place_zero]
  | succ i ih =>
      have hunit : t[i]? = some t[i] := List.getElem?_eq_getElem hi
      rw [List.take_add_one, hunit, Option.toList_some, after_append, ih (by omega), after_cons,
        after_nil, step, place_succ, hunit]
      simp only [Option.some.injEq]

end Location

namespace Cursor

/-- A cursor in `source`, at position `i`, that says so. -/
structure At (source : Text) (base : Location) (i : Nat) (c : Cursor) : Prop where
  source_eq : c.source = source
  index_eq : c.index = i
  location_eq : c.location = base.place source i

namespace At

variable {source : Text} {base : Location} {i : Nat} {c : Cursor}

lemma start (source : Text) (base : Location) : (Cursor.start source base).At source base 0 where
  source_eq := rfl
  index_eq := rfl
  location_eq := by simp [Cursor.start, location]

lemma setMark (h : c.At source base i) : c.setMark.At source base i :=
  ⟨h.source_eq, h.index_eq, h.location_eq⟩

lemma advance (h : c.At source base i) : c.advance.At source base (i + 1) where
  source_eq := by rw [source_advance, h.source_eq]
  index_eq := by rw [index_advance, h.index_eq, Int.natCast_succ]
  location_eq := by
    have hunit : c.unit? 0 = source[i]? := by
      simp [unit?, h.index_eq, h.source_eq, show ¬ ((i : Int) < 0) by omega]
    rw [location_advance_eq, Location.place_succ, hunit, h.location_eq]

lemma advanceBy (h : c.At source base i) (n : Nat) : (c.advanceBy n).At source base (i + n) := by
  induction n generalizing c i with
  | zero => exact h
  | succ n ih =>
      rw [advanceBy_succ, Nat.add_comm n, ← Nat.add_assoc]
      exact ih h.advance

/-- Whatever a call does, the cursor is at some position afterwards. -/
lemma effect {answer : Except CallError Answer} {c' : Cursor} (h : c.At source base i)
    (heffect : Call.Effect c (answer, c')) : ∃ j, c'.At source base j := by
  obtain ⟨n, rfl | rfl⟩ := heffect.exists_advanceBy
  · exact ⟨i + n, h.advanceBy n⟩
  · exact ⟨i + n, (h.advanceBy n).setMark⟩

end At

end Cursor

namespace Call

/-- The location that an answer has in it: the one asked for, or that of a diagnostic or a failure. -/
def location? : Except CallError Answer → Option Location
  | .ok (.location loc) => some loc
  | .ok (.diagnostic d) => some d.location
  | .error (.failure f) => some f.diagnostic.location
  | _ => none

/-- A call never answers another location than that of the cursor it leaves. -/
lemma Effect.location?_eq {c c' : Cursor} {answer : Except CallError Answer} {loc : Location}
    (h : Effect c (answer, c')) (hloc : location? answer = some loc) : loc = c'.location := by
  cases h with
  | flag b n => cases hloc
  | text t n => cases hloc
  | mark => cases hloc
  | token kind n => cases hloc
  | failure fault n => exact (Option.some.inj hloc).symm.trans (Failure.location_diagnostic _)
  | location => exact (Option.some.inj hloc).symm
  | diagnostic code context => exact (Option.some.inj hloc).symm
  | unknown e => cases hloc

end Call

/-- The failure of `lex` is at a position of the text. -/
lemma exists_place_of_lex_eq_error {base : Location} {source : Text} {failure : Failure}
    (h : lex base source = .error failure) : ∃ p, failure.location = base.place source p := by
  obtain ⟨pre, start, rest, -, cause, rfl, -, -, rfl⟩ := lex_eq_error_iff.1 h
  refine ⟨(pre ++ start).length, ?_⟩
  rw [← List.append_assoc, ← Location.after_take_eq_place _ _ (by simp), List.take_left]

namespace Session

variable {source : Text} {base : Location} {calls : List Call}

/-- Behind every call the cursor is at some position, and no answer has another location in it. -/
lemma exists_at_of_mem {answer : Except CallError Answer} {c : Cursor}
    (hmem : (answer, c) ∈ perform (Cursor.start source base) (calls.map .call)) :
    ∃ i, c.At source base i ∧ ∀ loc, Call.location? answer = some loc → loc = c.location := by
  have hstart : ∃ i, (Cursor.start source base).At source base i := ⟨0, .start source base⟩
  have hstep : ∀ d answer' d', (∃ i, d.At source base i) → Call.Effect d (answer', d') →
      ∃ i, d'.At source base i := by
    rintro d answer' d' ⟨i, hd⟩ heffect
    exact hd.effect heffect
  obtain ⟨d, ⟨i, hd⟩, heffect⟩ := exists_effect_of_mem hstep hstart hmem
  obtain ⟨j, hc⟩ := hd.effect heffect
  exact ⟨j, hc, fun loc hloc => heffect.location?_eq hloc⟩

lemma exists_at {c : Cursor}
    (hc : c ∈ Cursor.start source base ::
      (perform (Cursor.start source base) (calls.map .call)).map Prod.snd) :
    ∃ i, c.At source base i := by
  obtain rfl | hc := List.mem_cons.1 hc
  · exact ⟨0, .start source base⟩
  · obtain ⟨⟨answer, c⟩, hmem, rfl⟩ := List.mem_map.1 hc
    obtain ⟨i, hat, -⟩ := exists_at_of_mem hmem
    exact ⟨i, hat⟩

/-- **Reported positions are exact.**  From the front of a text, let any calls be made, some of which may
fail or go behind the end.  At every moment the location of the cursor is the place of its index: the
line counts the line feeds before the index, and the column its distance from the last of them, or goes
on from `base` if there is none.  Every location that a call answers is the place that belongs to its
offset, and so is that of every failure, also of `lex`. -/
theorem location_exact (source : Text) (base : Location) (calls : List Call) :
    (∀ c ∈ Cursor.start source base ::
        (perform (Cursor.start source base) (calls.map .call)).map Prod.snd,
      ∃ i : Nat, c.index = i ∧ c.location = base.place source i ∧
        c.line = base.line + (source.take i).count lineFeed ∧
        (∀ p < i, source[p]? = some lineFeed →
          (∀ q, p < q → q < i → source[q]? ≠ some lineFeed) → c.column = i - p) ∧
        ((∀ q < i, source[q]? ≠ some lineFeed) → c.column = base.column + i)) ∧
    (∀ answer c, (answer, c) ∈ perform (Cursor.start source base) (calls.map .call) →
      ∀ loc, Call.location? answer = some loc →
        ∃ p : Nat, loc.offset - base.offset = p ∧ loc = base.place source p) ∧
    ∀ failure, lex base source = .error failure →
      ∃ p : Nat, failure.diagnostic.offset - base.offset = p ∧
        failure.diagnostic.location = base.place source p := by
  have hoffset (p : Nat) : (base.place source p).offset - base.offset = p := by
    rw [Location.offset_place]
    omega
  refine ⟨?_, ?_, ?_⟩
  · intro c hc
    obtain ⟨i, hat⟩ := exists_at hc
    have hline : c.line = (base.place source i).line := congrArg Location.line hat.location_eq
    have hcolumn : c.column = (base.place source i).column :=
      congrArg Location.column hat.location_eq
    refine ⟨i, hat.index_eq, hat.location_eq, hline, ?_, ?_⟩
    · intro p hlt hp hlast
      rw [hcolumn, Location.column_place_of_lineFeed base source hlt hp hlast]
    · intro hnone
      rw [hcolumn, Location.column_place_of_first_line base source hnone]
  · intro answer c hmem loc hloc
    obtain ⟨i, hat, hall⟩ := exists_at_of_mem hmem
    obtain rfl := hall loc hloc
    exact ⟨i, by rw [hat.location_eq, hoffset], hat.location_eq⟩
  · intro failure hfailure
    obtain ⟨p, hp⟩ := exists_place_of_lex_eq_error hfailure
    have hdiagnostic : failure.diagnostic.location = base.place source p :=
      failure.location_diagnostic.trans hp
    exact ⟨p, by rw [LexicalDiagnostic.offset, hdiagnostic, hoffset], hdiagnostic⟩

/-- The string in front is broken off by the line feed.  Lexing fails there, and so does a call to read
it.  Of the two calls to advance that follow, one goes to the end and one behind it. -/
theorem location_exact_unclosed_string :
    lex ⟨3, 7, 10⟩ [doubleQuote, lineFeed] =
        .error ⟨.unclosedString, [doubleQuote], ⟨3, 8, 11⟩⟩ ∧
      ⟨3, 8, 11⟩ = Location.place ⟨3, 7, 10⟩ [doubleQuote, lineFeed] 1 ∧
      ⟨4, 1, 12⟩ = Location.place ⟨3, 7, 10⟩ [doubleQuote, lineFeed] 2 ∧
      ⟨4, 2, 13⟩ = Location.place ⟨3, 7, 10⟩ [doubleQuote, lineFeed] 3 := by
  have hlex : lex ⟨3, 7, 10⟩ [doubleQuote, lineFeed] =
      .error ⟨.unclosedString, [doubleQuote], ⟨3, 8, 11⟩⟩ := by cbv
  have hrun : perform (Cursor.start [doubleQuote, lineFeed] ⟨3, 7, 10⟩)
      ([.read .string, .advance, .advance, .location].map .call) =
        [(.error (.failure ⟨.unclosedString, [doubleQuote], ⟨3, 8, 11⟩⟩),
            ⟨[doubleQuote, lineFeed], 10, 1, 0, 3, 8⟩),
          (.ok (.text [lineFeed]), ⟨[doubleQuote, lineFeed], 10, 2, 0, 4, 1⟩),
          (.ok (.text []), ⟨[doubleQuote, lineFeed], 10, 3, 0, 4, 2⟩),
          (.ok (.location ⟨4, 2, 13⟩), ⟨[doubleQuote, lineFeed], 10, 3, 0, 4, 2⟩)] := by cbv
  obtain ⟨hcursors, hanswers, hfailures⟩ := location_exact [doubleQuote, lineFeed] ⟨3, 7, 10⟩
    [.read .string, .advance, .advance, .location]
  rw [hrun] at hcursors hanswers
  refine ⟨hlex, ?_, ?_, ?_⟩
  · obtain ⟨p, hp, hplace⟩ := hfailures _ hlex
    obtain rfl : p = 1 := Int.natCast_inj.1 hp.symm
    exact hplace
  · obtain ⟨i, hi, hplace, -⟩ := hcursors ⟨[doubleQuote, lineFeed], 10, 2, 0, 4, 1⟩ (by simp)
    obtain rfl : i = 2 := Int.natCast_inj.1 hi.symm
    exact hplace
  · obtain ⟨p, hp, hplace⟩ := hanswers (.ok (.location ⟨4, 2, 13⟩))
      ⟨[doubleQuote, lineFeed], 10, 3, 0, 4, 2⟩ (by simp) _ rfl
    obtain rfl : p = 3 := Int.natCast_inj.1 hp.symm
    exact hplace

end Session

end Lexis
