/-!
# The shortest decimal that reads back

A double-precision number is `m · 2^q / 2^1074` up to its sign, for natural numbers `m` and `q`, and
every real number close enough to it rounds to it.  `Magnitude.shortest` finds the decimal with the
fewest digits among those, and of several the one nearest to the number.

The search is exact: all of it is done in natural numbers, in the unit `1 / (2^1075 · 10^1074)`, in
which the number, the bounds of its interval and every power of ten from `10^-1074` up are whole.
It tries the powers of ten from the coarsest on.  On the grid of multiples of one power only the two
neighbours of the number can be nearest to it, so the first grid on which one of them lies in the
interval gives the answer, and the grid of `10^-1074`, on which the number itself lies, ends the
search.

What the search promises is `shortestFrom_covers`: the decimal that it finds rounds to the number,
and no point of a coarser grid does.
-/

namespace Lexis

/-- The decimal `coefficient · 10^exponent`. -/
structure Decimal where
  coefficient : Nat
  exponent : Int
deriving DecidableEq, Repr

/-- The positive dyadic number `significand · 2^scale / 2^1074`, as double precision holds it: the
significand has at most 53 bits, and all 53 unless the scale is zero. -/
structure Magnitude where
  significand : Nat
  scale : Nat
deriving DecidableEq, Repr

namespace Magnitude

/-- The smallest number of double precision is `2^-1074`. -/
def depth : Nat := 1074

/-- The highest bit of a significand of 53 bits. -/
def leadingBit : Nat := 0x10000000000000

def twoPow (n : Nat) : Nat := Nat.pow 2 n

def fivePow (n : Nat) : Nat := Nat.pow 5 n

def tenPow (n : Nat) : Nat := Nat.pow 10 n

/-- What makes every power of ten from `10^-1074` up whole. -/
def fineness : Nat := tenPow depth

/-- The number in units of `1 / (2^1075 · 10^1074)`. -/
def value (x : Magnitude) : Nat := x.significand * twoPow (x.scale + 1) * fineness

/-- The upper bound of the interval that rounds to the number: half way to the next one. -/
def upper (x : Magnitude) : Nat := x.value + twoPow x.scale * fineness

/-- The lower bound: half way to the previous number, which is twice as close below a power of two,
where the scale changes. -/
def lower (x : Magnitude) : Nat :=
  if x.significand = leadingBit ∧ 0 < x.scale then x.value - twoPow (x.scale - 1) * fineness
  else x.value - twoPow x.scale * fineness

/-- Whether a number rounds to this one.  A tie between two neighbours goes to the even significand,
so the bounds belong to the interval just when this significand is even. -/
def covers (x : Magnitude) (y : Nat) : Bool :=
  if x.significand % 2 = 0 then x.lower ≤ y && y ≤ x.upper else x.lower < y && y < x.upper

/-- The distance between two multiples of `10^(n - 1074)`. -/
def gridStep (n : Nat) : Nat := tenPow n * twoPow (depth + 1)

/-- The multiple of a grid step that covers the number best: of the two multiples next to it, the
one in the interval, or the nearer when both are, or the even one when both are as near. -/
def nearest? (x : Magnitude) (step : Nat) : Option Nat :=
  let below := x.value / step
  let above := below + 1
  match x.covers (below * step), x.covers (above * step) with
  | false, false => none
  | true, false => some below
  | false, true => some above
  | true, true =>
      let down := x.value - below * step
      let up := above * step - x.value
      if down < up then some below
      else if up < down then some above
      else some (if below % 2 = 0 then below else above)

/-- The search over the grids from `10^(n - 1074)` down. -/
def shortestFrom (x : Magnitude) : Nat → Decimal
  | 0 => ⟨x.value / gridStep 0, -depth⟩
  | n + 1 =>
      match x.nearest? (gridStep (n + 1)) with
      | some k => ⟨k, (n + 1 : Nat) - depth⟩
      | none => shortestFrom x n

/-- **The shortest decimal that rounds to the number.**  No number of double precision reaches
`10^309`, so the search starts there. -/
def shortest (x : Magnitude) : Decimal := x.shortestFrom (309 + depth)

/-! ## Powers -/

theorem twoPow_succ (n : Nat) : twoPow (n + 1) = twoPow n * 2 := rfl

theorem tenPow_zero : tenPow 0 = 1 := rfl

theorem twoPow_pos (n : Nat) : 0 < twoPow n := by
  induction n with
  | zero => exact Nat.one_pos
  | succ n ih => exact Nat.mul_pos ih (by decide)

theorem tenPow_pos (n : Nat) : 0 < tenPow n := by
  induction n with
  | zero => exact Nat.one_pos
  | succ n ih => exact Nat.mul_pos ih (by decide)

/-- A power of ten splits into powers of two and five. -/
theorem tenPow_eq (n : Nat) : tenPow n = twoPow n * fivePow n := by
  induction n with
  | zero => rfl
  | succ n ih =>
      calc tenPow (n + 1) = tenPow n * 10 := rfl
        _ = twoPow n * fivePow n * (2 * 5) := by rw [ih]
        _ = twoPow n * 2 * (fivePow n * 5) := Nat.mul_mul_mul_comm _ _ _ _
        _ = twoPow (n + 1) * fivePow (n + 1) := rfl

/-! ## The interval

It holds the number, and with two points all that lies between them.
-/

theorem fineness_pos : 0 < fineness := tenPow_pos depth

theorem gridStep_pos (n : Nat) : 0 < gridStep n :=
  Nat.mul_pos (tenPow_pos n) (twoPow_pos (depth + 1))

theorem value_lt_upper (x : Magnitude) : x.value < x.upper :=
  Nat.lt_add_of_pos_right (Nat.mul_pos (twoPow_pos x.scale) fineness_pos)

theorem lower_lt_value {x : Magnitude} (h : 0 < x.significand) : x.lower < x.value := by
  have hvalue : 0 < x.value :=
    Nat.mul_pos (Nat.mul_pos h (twoPow_pos _)) fineness_pos
  have hgap : ∀ n, 0 < twoPow n * fineness := fun n => Nat.mul_pos (twoPow_pos n) fineness_pos
  unfold lower
  split
  · exact Nat.sub_lt hvalue (hgap _)
  · exact Nat.sub_lt hvalue (hgap _)

theorem covers_value {x : Magnitude} (h : 0 < x.significand) : x.covers x.value = true := by
  have hlower := lower_lt_value h
  have hupper := value_lt_upper x
  unfold covers
  split
  · simp only [Bool.and_eq_true, decide_eq_true_eq]
    omega
  · simp only [Bool.and_eq_true, decide_eq_true_eq]
    omega

theorem covers_of_between {x : Magnitude} {a b c : Nat} (ha : x.covers a = true)
    (hc : x.covers c = true) (hab : a ≤ b) (hbc : b ≤ c) : x.covers b = true := by
  unfold covers at *
  split at ha
  · next heven =>
      rw [if_pos heven] at hc ⊢
      simp only [Bool.and_eq_true, decide_eq_true_eq] at *
      omega
  · next hodd =>
      rw [if_neg hodd] at hc ⊢
      simp only [Bool.and_eq_true, decide_eq_true_eq] at *
      omega

/-! ## One grid

If any point of a grid rounds to the number, one of the number's two neighbours on the grid does,
because the other points lie further out on the same side.
-/

theorem covers_of_nearest? {x : Magnitude} {step k : Nat} (h : x.nearest? step = some k) :
    x.covers (k * step) = true := by
  unfold nearest? at h
  simp only at h
  split at h
  · cases h
  · next hbelow _ =>
      cases h
      exact hbelow
  · next _ habove =>
      cases h
      exact habove
  · next hbelow habove =>
      split at h
      · cases h
        exact hbelow
      · split at h
        · cases h
          exact habove
        · split at h
          · cases h
            exact hbelow
          · cases h
            exact habove

theorem covers_eq_false_of_nearest? {x : Magnitude} {step : Nat} (hx : 0 < x.significand)
    (hstep : 0 < step) (h : x.nearest? step = none) (k : Nat) : x.covers (k * step) = false := by
  have hboth : x.covers (x.value / step * step) = false ∧
      x.covers ((x.value / step + 1) * step) = false := by
    unfold nearest? at h
    simp only at h
    split at h
    · next hbelow habove => exact ⟨hbelow, habove⟩
    · cases h
    · cases h
    · split at h
      · cases h
      · split at h <;> cases h
  rw [← Bool.not_eq_true]
  intro hk
  rcases Nat.lt_or_ge x.value (k * step) with hlt | hge
  · have hbetween : (x.value / step + 1) * step ≤ k * step :=
      Nat.mul_le_mul_right _ ((Nat.div_lt_iff_lt_mul hstep).mpr hlt)
    have hvalue : x.value ≤ (x.value / step + 1) * step := by
      rw [Nat.mul_comm]
      exact Nat.le_of_lt (Nat.lt_mul_div_succ _ hstep)
    have habove := covers_of_between (covers_value hx) hk hvalue hbetween
    rw [hboth.2] at habove
    cases habove
  · have hbetween : k * step ≤ x.value / step * step :=
      Nat.mul_le_mul_right _ ((Nat.le_div_iff_mul_le hstep).mpr hge)
    have hbelow := covers_of_between hk (covers_value hx) hbetween (Nat.div_mul_le_self _ _)
    rw [hboth.1] at hbelow
    cases hbelow

/-! ## The search -/

/-- The finest grid holds the number itself. -/
theorem value_div_gridStep_zero (x : Magnitude) :
    x.value / gridStep 0 * gridStep 0 = x.value := by
  have hdvd : gridStep 0 ∣ x.value := by
    refine ⟨x.significand * twoPow x.scale * fivePow depth, ?_⟩
    rw [value, fineness, gridStep, tenPow_zero, tenPow_eq, twoPow_succ, twoPow_succ]
    simp only [Nat.one_mul, Nat.mul_assoc, Nat.mul_comm, Nat.mul_left_comm]
  exact Nat.div_mul_cancel hdvd

/-- **The decimal that the search finds rounds to the number, and no point of a coarser grid
does.** -/
theorem shortestFrom_covers {x : Magnitude} (hx : 0 < x.significand) (n : Nat) :
    ∃ i ≤ n, (x.shortestFrom n).exponent = (i : Int) - depth ∧
      x.covers ((x.shortestFrom n).coefficient * gridStep i) = true ∧
      ∀ j, i < j → j ≤ n → ∀ k, x.covers (k * gridStep j) = false := by
  induction n with
  | zero =>
      refine ⟨0, Nat.le_refl _, by simp [shortestFrom], ?_, fun j hj hj' => by omega⟩
      rw [shortestFrom, value_div_gridStep_zero]
      exact covers_value hx
  | succ n ih =>
      rw [shortestFrom]
      split
      · next k hk =>
          exact ⟨n + 1, Nat.le_refl _, rfl, covers_of_nearest? hk, fun j hj hj' => by omega⟩
      · next hnone =>
          obtain ⟨i, hi, hexponent, hcovers, hcoarser⟩ := ih
          refine ⟨i, by omega, hexponent, hcovers, fun j hj hj' => ?_⟩
          rcases Nat.lt_or_ge n j with hlt | hge
          · obtain rfl : j = n + 1 := by omega
            exact covers_eq_false_of_nearest? hx (gridStep_pos _) hnone
          · exact hcoarser j hj hge

end Magnitude

/-- A double-precision number as its sign and size. -/
inductive BinaryFloat
  | notANumber
  | infinite (negative : Bool)
  | finite (negative : Bool) (magnitude : Magnitude)
deriving DecidableEq, Repr

/-- The number of a 64-bit pattern: a sign bit, 11 bits of exponent and 52 of significand.  The
leading bit of a significand is not written, except that the lowest exponent has none. -/
def BinaryFloat.ofBits (bits : UInt64) : BinaryFloat :=
  let negative := bits >>> 63 == 1
  let exponent := (bits >>> 52 &&& 0x7FF).toNat
  let fraction := (bits &&& 0xFFFFFFFFFFFFF).toNat
  if exponent = 0x7FF then if fraction = 0 then .infinite negative else .notANumber
  else if exponent = 0 then .finite negative ⟨fraction, 0⟩
  else .finite negative ⟨Magnitude.leadingBit + fraction, exponent - 1⟩

end Lexis
