import Lexis.Text

/-!
# Decimal numerals

Integers as text, in base ten and with no leading zero: `Text.ofNat` and `Text.ofInt`.  The two
facts about `Text.ofNat` that a reader of numerals relies on stand beside it: a numeral is not empty
(`ofNat_ne_nil`) and holds digits only (`isDigit_of_mem_ofNat`).
-/

namespace Lexis

namespace CodeUnit

theorem isDigit_ofChar {c : Char} (h : c.isDigit = true) : (ofChar c).isDigit = true := by
  have hlo : 48 ≤ c.toNat := by
    simp only [Char.isDigit, Bool.and_eq_true, decide_eq_true_eq, ge_iff_le] at h
    exact UInt32.le_iff_toNat_le.mp h.1
  have hhi : c.toNat ≤ 57 := by
    simp only [Char.isDigit, Bool.and_eq_true, decide_eq_true_eq, ge_iff_le] at h
    exact UInt32.le_iff_toNat_le.mp h.2
  have hu : (ofChar c).toNat = c.toNat := by
    rw [ofChar, UInt16.toNat_ofNat', Nat.mod_eq_of_lt (by omega)]
  simp [isDigit, zero, nine, UInt16.le_iff_toNat_le, hu, hlo, hhi]

end CodeUnit

namespace Text

/-- A natural number in decimal digits. -/
def ofNat (n : Nat) : Text := (Nat.toDigits 10 n).map CodeUnit.ofChar

/-- An integer in decimal digits, with a hyphen in front when it is negative. -/
def ofInt : Int → Text
  | .ofNat n => ofNat n
  | .negSucc n => CodeUnit.hyphen :: ofNat (n + 1)

theorem ofNat_ne_nil (n : Nat) : ofNat n ≠ [] := by
  simp [ofNat, Nat.toDigits_ne_nil]

theorem isDigit_of_mem_ofNat {n : Nat} {u : CodeUnit} (h : u ∈ ofNat n) : u.isDigit = true := by
  obtain ⟨c, hc, rfl⟩ := List.mem_map.mp h
  exact CodeUnit.isDigit_ofChar (Nat.isDigit_of_mem_toDigits (by decide) (by decide) hc)

end Text

end Lexis
