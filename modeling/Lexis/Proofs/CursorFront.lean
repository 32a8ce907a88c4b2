import Lexis.Run
import Mathlib.Data.List.Basic

/-!
# A cursor and the text ahead of it

A cursor holds positions; the readers work on the text that is left.  This file translates: moving
the cursor is dropping units from the text ahead, and its line, column and index move as
`Location.after` says.

* `Cursor.Settled` — inside the text, with nothing pending.
* `ahead_advanceBy`, `location_advanceBy`, `pending_advanceBy` — what moving does to the text ahead,
  to the location and to the pending text.
* `consume_blank_of_ahead`, `exists_ahead_of_nextToken` — the unit ahead tells whether whitespace is
  skipped, and a token needs a unit that is none.
* **`Cursor.read_of_token`**, **`Cursor.read_of_fault`** — a read at a settled cursor, in terms of
  what its reader finds in the text ahead.

A read is thereby the same computation as a step of `lex`, and a fact about one is a fact about the
other.
-/

namespace Lexis

namespace Cursor

variable {c : Cursor}

/-! ## The text ahead -/

lemma ahead_of_nonneg (h : 0 ≤ c.index) : c.ahead = c.source.drop c.index.toNat := by
  rw [ahead, if_neg (by omega)]

lemma unit?_zero_of_nonneg (h : 0 ≤ c.index) : c.unit? 0 = c.ahead.head? := by
  rw [ahead_of_nonneg h, unit?, Int.add_zero, if_neg (by omega), List.head?_drop]

lemma nonneg_of_ahead {u : CodeUnit} {rest : Text} (h : c.ahead = u :: rest) : 0 ≤ c.index := by
  by_contra hneg
  rw [ahead, if_pos (by omega)] at h
  cases h

lemma unit?_zero_of_ahead {u : CodeUnit} {rest : Text} (h : c.ahead = u :: rest) :
    c.unit? 0 = some u := by
  rw [unit?_zero_of_nonneg (nonneg_of_ahead h), h, List.head?_cons]

lemma exists_ahead (hstart : 0 ≤ c.index) (hend : c.index < c.source.length) :
    ∃ u rest, c.ahead = u :: rest := by
  rw [ahead_of_nonneg hstart]
  exact List.exists_cons_of_ne_nil (List.ne_nil_of_length_pos (by rw [List.length_drop]; omega))

lemma reaches_zero_of_ahead {u : CodeUnit} {rest : Text} (h : c.ahead = u :: rest) :
    c.reaches 0 = true := by
  have hstart := nonneg_of_ahead h
  have hlength : 0 < (c.source.drop c.index.toNat).length := by
    rw [← ahead_of_nonneg hstart, h]
    exact Nat.succ_pos _
  rw [List.length_drop] at hlength
  simp only [reaches, decide_eq_true_eq]
  omega

lemma exists_ahead_of_reaches (hstart : 0 ≤ c.index) (hreach : c.reaches 0 = true) :
    ∃ u rest, c.ahead = u :: rest := by
  rw [reaches, decide_eq_true_eq] at hreach
  exact exists_ahead hstart (by omega)

/-! ## Moving -/

lemma ahead_advanceBy (h : 0 ≤ c.index) (n : Nat) : (c.advanceBy n).ahead = c.ahead.drop n := by
  rw [ahead_of_nonneg h, ahead_of_nonneg (by rw [index_advanceBy]; omega), source_advanceBy,
    index_advanceBy, List.drop_drop]
  congr 1
  omega

/-- One step of the location, also where there is no unit to step over. -/
lemma location_advance_eq (c : Cursor) :
    c.advance.location =
      if c.unit? 0 = some CodeUnit.lineFeed then ⟨c.location.line + 1, 1, c.location.offset + 1⟩
      else ⟨c.location.line, c.location.column + 1, c.location.offset + 1⟩ := by
  have hoffset : c.index + 1 + c.baseOffset = c.index + c.baseOffset + 1 := by omega
  rw [advance]
  split_ifs <;> simp only [location, hoffset]

lemma location_advance {u : CodeUnit} (h : c.unit? 0 = some u) :
    c.advance.location = c.location.step u := by
  rw [location_advance_eq, h, Location.step]
  simp only [Option.some.injEq]

/-- The location moves along the units that the cursor goes past. -/
lemma location_advanceBy (h : 0 ≤ c.index) {n : Nat} (hn : n ≤ c.ahead.length) :
    (c.advanceBy n).location = c.location.after (c.ahead.take n) := by
  induction n generalizing c with
  | zero => rw [advanceBy_zero, List.take_zero, Location.after_nil]
  | succ n ih =>
      obtain ⟨u, rest, hahead⟩ : ∃ u rest, c.ahead = u :: rest :=
        List.exists_cons_of_ne_nil (List.ne_nil_of_length_pos (by omega))
      have htail : c.advance.ahead = rest := by
        have hadvance := ahead_advanceBy h 1
        rwa [hahead] at hadvance
      rw [hahead, List.length_cons] at hn
      rw [advanceBy_succ, ih (by rw [index_advance]; omega) (by rw [htail]; omega), htail,
        location_advance (unit?_zero_of_ahead hahead), hahead, List.take_succ_cons,
        Location.after_cons]

/-! ## Reading

Whatever is pending, a failure is at the place up to which the reader has gone.
-/

lemma read_eq_of_fault {reader : Reader} {cause : Fault} {n : Nat}
    (hscan : reader.scan c.ahead = .fault cause n) :
    c.read reader = (.error ((c.advanceBy n).failure cause), c.advanceBy n) := by
  rw [read, hscan]

/-! ## Reading where nothing is pending -/

/-- A cursor inside its text with nothing pending. -/
structure Settled (c : Cursor) : Prop where
  mark_eq : c.mark = c.index
  nonneg : 0 ≤ c.index
  le_length : c.index ≤ c.source.length

/-- What the cursor goes past from there on is pending. -/
lemma pending_advanceBy (hc : c.Settled) (n : Nat) :
    (c.advanceBy n).pending = c.ahead.take n := by
  obtain ⟨i, hi⟩ := Int.eq_ofNat_of_zero_le hc.nonneg
  rw [pending, source_advanceBy, mark_advanceBy, index_advanceBy, hc.mark_eq, hi,
    ahead_of_nonneg hc.nonneg, hi, ← Int.natCast_add, Text.slice_natCast, Int.toNat_natCast,
    List.take_drop]

lemma length_scan_le_ahead {reader : Reader} {u : CodeUnit} {rest : Text}
    (hahead : c.ahead = u :: rest) : (reader.scan c.ahead).length ≤ c.ahead.length :=
  Reader.length_scan_le reader c.ahead (Or.inr (by rw [hahead]; exact List.cons_ne_nil u rest))

theorem read_of_token (hc : c.Settled) {reader : Reader} {kind : TokenKind} {n : Nat}
    (hscan : reader.scan c.ahead = .token kind n) :
    c.read reader =
      (.ok ⟨kind, c.ahead.take n, c.location.offset⟩, (c.advanceBy n).setMark) := by
  rw [read, hscan]
  simp only [emit, pending_advanceBy hc, mark_advanceBy, baseOffset_advanceBy, hc.mark_eq, location]

theorem read_of_fault (hc : c.Settled) {reader : Reader} {u : CodeUnit} {rest : Text}
    (hahead : c.ahead = u :: rest) {cause : Fault} {n : Nat}
    (hscan : reader.scan c.ahead = .fault cause n) :
    c.read reader =
      (.error ⟨cause, c.ahead.take n, c.location.after (c.ahead.take n)⟩, c.advanceBy n) := by
  have hn : n ≤ c.ahead.length := by
    have hlength : (reader.scan c.ahead).length ≤ c.ahead.length := length_scan_le_ahead hahead
    rwa [hscan] at hlength
  rw [read, hscan]
  simp only [failure, pending_advanceBy hc, location_advanceBy hc.nonneg hn]

/-! ## What comes next -/

lemma atWhitespace_of_ahead {u : CodeUnit} {rest : Text} (hahead : c.ahead = u :: rest) :
    c.atWhitespace = u.isWhitespace := by
  rw [atWhitespace, unit?_zero_of_ahead hahead, Option.any_some]

lemma consume_blank_of_ahead {u : CodeUnit} {rest : Text} (hahead : c.ahead = u :: rest) :
    c.consume blank = if u.isWhitespace = true then (true, c.advance) else (false, c) := by
  rw [consume_blank, reaches_zero_of_ahead hahead, atWhitespace_of_ahead hahead, Bool.true_and]

/-- A token is read in front of something other than whitespace. -/
lemma exists_ahead_of_nextToken {token : Token} {c' : Cursor} (hstart : 0 ≤ c.index)
    (h : c.nextToken = (.ok token, c')) :
    ∃ u rest, c.ahead = u :: rest ∧ u.isWhitespace = false := by
  obtain ⟨u, rest, hahead⟩ := exists_ahead_of_reaches hstart (reaches_of_nextToken h)
  have hblank := atWhitespace_of_nextToken h
  rw [atWhitespace_of_ahead hahead] at hblank
  exact ⟨u, rest, hahead, hblank⟩

/-- Away from whitespace and from the end, the next token is what the picked reader reads. -/
theorem nextToken_eq_read {u : CodeUnit} {rest : Text} (hahead : c.ahead = u :: rest)
    (hu : u.isWhitespace = false) : c.nextToken = c.read (Reader.dispatch c.ahead) := by
  have hgap : c.atWhitespace = false := by
    rw [atWhitespace_of_ahead hahead, hu]
  simp [nextToken, reaches_zero_of_ahead hahead, hgap]

end Cursor

end Lexis
