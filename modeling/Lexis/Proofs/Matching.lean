import Lexis.CharClass
import Lexis.Cursor
import Mathlib.Data.List.Basic

/-!
# Matching a row of predicates

`Cursor.sees` tests a whole pattern from where the cursor stands, and looks further ahead for each of
its places.  `Cursor.consume` goes past what has matched.  Who reads a text makes several small
matches one after the other instead, and moves in between.  Both are the same, because looking ahead is
the same as going there and looking at what comes next (`accepts_advanceBy`).  That does not depend on
the cursor: it may stand in front of the text, where every place counts as being there and holds nothing,
and the match may go past line feeds, which change line and column on the way.

* `Cursor.sees_iff` — when a pattern matches, place by place.
* **`Cursor.sees_append`** — a pattern matches if its front does and, from behind that, its back.
* **`Cursor.consume_append`** — consuming it is consuming front and back, or else nothing.
* **`Cursor.consume_flatten`** — and so for any number of parts.
* **`Cursor.consumeEach_eq_false_iff`** — the difference is in what a mismatch leaves behind.  Part by
  part the cursor stays behind the last part that has matched.  A single pattern gives everything back.
* **`Cursor.consume_all_or_nothing`** — what a caller can rely on.
-/

namespace Lexis

namespace Cursor

open CodeUnit

variable {c : Cursor}

/-! ## Looking ahead is going there -/

lemma reaches_advanceBy (c : Cursor) (n k : Nat) :
    (c.advanceBy n).reaches k = c.reaches ((n + k : Nat) : Int) := by
  simp only [reaches, source_advanceBy, index_advanceBy, Int.natCast_add, Int.add_assoc]

lemma look_advanceBy (c : Cursor) (n k : Nat) :
    (c.advanceBy n).look k = c.look ((n + k : Nat) : Int) := by
  simp only [look, unit?, source_advanceBy, index_advanceBy, Int.natCast_add, Int.add_assoc]

/-- **A place of a pattern cannot tell how far the cursor has come** to where it is tested. -/
lemma accepts_advanceBy (c : Cursor) (n k : Nat) (place : Option Predicate) :
    (c.advanceBy n).accepts k place = c.accepts (n + k) place := by
  cases place with
  | none => rfl
  | some p => simp only [accepts, reaches_advanceBy, look_advanceBy]

/-! ## Patterns and their parts -/

/-- Every place has a predicate, lies in front of the end, and accepts the unit there.  In front of the
text there is none, and the predicate is asked about the empty text. -/
theorem sees_iff {p : Pattern} :
    c.sees p = true ↔
      ∀ (k : Nat) (place : Option Predicate), p[k]? = some place →
        ∃ test, place = some test ∧ c.index + k < c.source.length ∧ test (c.look k) = true := by
  have haccepts : ∀ (k : Nat) (place : Option Predicate), c.accepts k place = true ↔
      ∃ test, place = some test ∧ c.index + k < c.source.length ∧ test (c.look k) = true := by
    intro k place
    cases place <;> simp [accepts, reaches]
  simp only [sees, List.all_eq_true, Prod.forall, List.mem_zipIdx_iff_getElem?, haccepts]
  exact forall_comm

lemma sees_eq_all (c : Cursor) (p : Pattern) :
    c.sees p = p.zipIdx.all fun x => c.accepts x.2 x.1 := rfl

/-- **A pattern matches part by part.**  The places of the back are as far from the front's end as they
are behind the front. -/
theorem sees_append (c : Cursor) (p q : Pattern) :
    c.sees (p ++ q) = (c.sees p && (c.advanceBy p.length).sees q) := by
  have hback : (c.advanceBy p.length).sees q =
      (q.zipIdx p.length).all fun x => c.accepts x.2 x.1 := by
    rw [List.zipIdx_eq_map_add, List.all_map, sees_eq_all]
    simp only [accepts_advanceBy]
    rfl
  rw [hback, sees_eq_all, sees_eq_all, List.zipIdx_append, List.all_append, Nat.zero_add]

lemma consume_of_sees {p : Pattern} (h : c.sees p = true) :
    c.consume p = (true, c.advanceBy p.length) := by
  rw [consume, if_pos h]

/-- A mismatch leaves the cursor alone. -/
lemma consume_of_not_sees {p : Pattern} (h : c.sees p = false) : c.consume p = (false, c) := by
  rw [consume, if_neg (by simp [h])]

@[simp] lemma fst_consume (c : Cursor) (p : Pattern) : (c.consume p).1 = c.sees p := by
  cases h : c.sees p with
  | true => rw [consume_of_sees h]
  | false => rw [consume_of_not_sees h]

/-- **Consuming a pattern is consuming its front and then its back, or nothing at all.** -/
theorem consume_append (c : Cursor) (p q : Pattern) :
    c.consume (p ++ q) =
      if (c.consume p).1 && ((c.consume p).2.consume q).1 then (c.consume p).2.consume q
      else (false, c) := by
  cases hfront : c.sees p with
  | false => simp [consume_of_not_sees, sees_append, hfront]
  | true =>
      rw [consume_of_sees hfront]
      cases hback : (c.advanceBy p.length).sees q with
      | false => simp [consume_of_not_sees, sees_append, hfront, hback]
      | true => simp [consume_of_sees, sees_append, hfront, hback, advanceBy_add]

lemma fst_consume_append (c : Cursor) (p q : Pattern) :
    (c.consume (p ++ q)).1 = ((c.consume p).1 && ((c.consume p).2.consume q).1) := by
  rw [consume_append]
  cases hparts : (c.consume p).1 && ((c.consume p).2.consume q).1 with
  | false => rfl
  | true => exact (Bool.and_eq_true_iff.1 hparts).2

/-- Patterns consumed one after the other, up to the first that does not match. -/
def consumeEach (c : Cursor) : List Pattern → Bool × Cursor
  | [] => (true, c)
  | p :: parts =>
      let (matched, c') := c.consume p
      if matched then c'.consumeEach parts else (false, c')

/-- **Cutting a pattern into parts** changes what a mismatch leaves behind and nothing else. -/
theorem consume_flatten (c : Cursor) (parts : List Pattern) :
    c.consume parts.flatten =
      if (c.consumeEach parts).1 then c.consumeEach parts else (false, c) := by
  induction parts generalizing c with
  | nil => rfl
  | cons p parts ih =>
      rw [List.flatten_cons, consume_append, consumeEach]
      cases hfront : c.sees p with
      | false => simp [consume_of_not_sees hfront]
      | true =>
          simp only [consume_of_sees hfront, ih]
          cases (c.advanceBy p.length).consumeEach parts with
          | mk matched c' => cases matched <;> simp

/-- **A mismatch part by part** leaves the cursor behind the parts that have matched, in front of the one
that has not. -/
theorem consumeEach_eq_false_iff {parts : List Pattern} {c' : Cursor} :
    c.consumeEach parts = (false, c') ↔
      ∃ front part back, parts = front ++ part :: back ∧ c.sees front.flatten = true ∧
        c' = c.advanceBy front.flatten.length ∧ c'.sees part = false := by
  induction parts generalizing c with
  | nil => simp [consumeEach]
  | cons p parts ih =>
      rw [consumeEach]
      cases hfirst : c.sees p with
      | false =>
          simp only [consume_of_not_sees hfirst]
          constructor
          · intro h
            cases h
            exact ⟨[], p, parts, rfl, rfl, rfl, hfirst⟩
          · rintro ⟨front, part, back, hparts, hfront, rfl, -⟩
            cases front with
            | nil => rfl
            | cons q front =>
                obtain ⟨rfl, -⟩ := List.cons.inj hparts
                simp [sees_append, hfirst] at hfront
      | true =>
          simp only [consume_of_sees hfirst, if_true, ih]
          constructor
          · rintro ⟨front, part, back, rfl, hfront, rfl, hpart⟩
            refine ⟨p :: front, part, back, rfl, ?_, ?_, hpart⟩
            · simp [sees_append, hfirst, hfront]
            · simp [advanceBy_add]
          · rintro ⟨front, part, back, hparts, hfront, rfl, hpart⟩
            cases front with
            | nil =>
                obtain ⟨rfl, -⟩ := List.cons.inj hparts
                rw [List.flatten_nil, List.length_nil, advanceBy_zero, hfirst] at hpart
                cases hpart
            | cons q front =>
                obtain ⟨rfl, rfl⟩ := List.cons.inj hparts
                rw [List.flatten_cons, sees_append, hfirst, Bool.true_and] at hfront
                refine ⟨front, part, back, rfl, hfront, ?_, hpart⟩
                simp [advanceBy_add]

/-- **Matching is all or nothing, and patterns can be put together.**  Wherever the cursor stands, a
pattern is seen if each of its places has a predicate, lies in front of the end and accepts the unit
there, and it is consumed exactly where it is seen.  One pattern behind another is consumed exactly if
the first is and then, from where that has left the cursor, the second.  Both ways arrive at the same
cursor, which has advanced once for each place of both.  A pattern that does not match leaves the
cursor as it was, however far its front would have matched. -/
theorem consume_all_or_nothing (c : Cursor) (p q : Pattern) :
    (c.sees p = true ↔
      ∀ (k : Nat) (place : Option Predicate), p[k]? = some place →
        ∃ test, place = some test ∧ c.index + k < c.source.length ∧ test (c.look k) = true) ∧
    (c.consume p).1 = c.sees p ∧
    ((c.consume (p ++ q)).1 = true ↔
      (c.consume p).1 = true ∧ ((c.consume p).2.consume q).1 = true) ∧
    ((c.consume (p ++ q)).1 = true →
      (c.consume (p ++ q)).2 = c.advanceBy (p.length + q.length) ∧
      ((c.consume p).2.consume q).2 = c.advanceBy (p.length + q.length)) ∧
    ((c.consume (p ++ q)).1 = false → (c.consume (p ++ q)).2 = c) := by
  refine ⟨sees_iff, fst_consume c p, ?_, ?_, ?_⟩
  · rw [fst_consume_append, Bool.and_eq_true]
  · intro hmatched
    rw [fst_consume, sees_append, Bool.and_eq_true] at hmatched
    obtain ⟨hfront, hback⟩ := hmatched
    have hparts : (c.consume p).2.consume q = (true, c.advanceBy (p.length + q.length)) := by
      rw [consume_of_sees hfront, consume_of_sees hback, advanceBy_add]
    have hwhole : c.consume (p ++ q) = (c.consume p).2.consume q := by
      rw [consume_append, hparts]
      simp [hfront]
    rw [hwhole, hparts]
    exact ⟨rfl, rfl⟩
  · intro hfailed
    rw [fst_consume] at hfailed
    rw [consume_of_not_sees hfailed]

/-- From one unit in front of a text, over a line feed in it, and with an empty place behind what
matches. -/
theorem consume_all_or_nothing_line_feed :
    let c : Cursor := ⟨[lowerA, lineFeed, lowerB], 10, -1, 2, 1, 1⟩
    let front : Pattern := [some (.exactly []), some CharClass.letter.predicate]
    let back : Pattern := [some CharClass.lineBreak.predicate]
    (c.consume (front ++ back)).1 = true ∧
      (c.consume (front ++ back)).2 = ⟨[lowerA, lineFeed, lowerB], 10, 2, 2, 2, 1⟩ ∧
      (c.consume front).1 = true ∧
      (c.consume (front ++ [none])).1 = false ∧ (c.consume (front ++ [none])).2 = c := by
  intro c front back
  obtain ⟨-, -, hmatches, harrives, -⟩ := consume_all_or_nothing c front back
  obtain ⟨-, -, -, -, hfails⟩ := consume_all_or_nothing c front [none]
  have hfront : (c.consume front).1 = true := by decide
  have hmatched : (c.consume (front ++ back)).1 = true := hmatches.2 ⟨hfront, by decide⟩
  have hfailed : (c.consume (front ++ [none])).1 = false := by decide
  exact ⟨hmatched, (harrives hmatched).1, hfront, hfailed, hfails hfailed⟩

end Cursor

end Lexis
