import Lexis.Text

/-!
# Characters as code units

`Text.ofString` writes each character as one unit, or as a surrogate pair when it lies outside the
basic plane.  `Text.toString?` reads units back and refuses a text with a half that stands alone.
`toString?_ofString` says that no string is lost on the way.
-/

namespace Lexis

namespace CodeUnit

/-- A character as its units: itself, or the two halves of its surrogate pair. -/
def encode (c : Char) : List CodeUnit :=
  if c.toNat < 0x10000 then [ofChar c]
  else
    [UInt16.ofNat (0xD800 + (c.toNat - 0x10000) / 0x400),
      UInt16.ofNat (0xDC00 + (c.toNat - 0x10000) % 0x400)]

/-- The character that a surrogate pair stands for. -/
def pair (high low : CodeUnit) : Char :=
  Char.ofNat (0x10000 + (high.toNat - 0xD800) * 0x400 + (low.toNat - 0xDC00))

end CodeUnit

namespace Text

/-- The code units of a string. -/
def ofString (s : String) : Text := s.toList.flatMap CodeUnit.encode

/-- The characters of a text, if every surrogate in it is half of a pair. -/
def toChars? : Text → Option (List Char)
  | [] => some []
  | u :: rest =>
      if u.isHighSurrogate then
        match rest with
        | [] => none
        | v :: rest' =>
            if v.isLowSurrogate then (toChars? rest').map (CodeUnit.pair u v :: ·) else none
      else if u.isLowSurrogate then none
      else (toChars? rest).map (Char.ofNat u.toNat :: ·)

/-- The string that a text spells, if it is well formed. -/
def toString? (t : Text) : Option String := (toChars? t).map String.ofList

/-! ## Reading back what was written

One character is read back from the front of a text whatever follows it: its units are a lone unit
outside the surrogate ranges, or a high half and a low half.  The rest is induction on the string.
-/

/-- No character's number lies in the surrogate ranges. -/
theorem toNat_not_surrogate (c : Char) : c.toNat < 0xD800 ∨ 0xDFFF < c.toNat ∧ c.toNat < 0x110000 :=
  c.valid

/-- A unit outside the surrogate ranges is a character by itself. -/
theorem toChars?_cons_of_toNat {u : CodeUnit} (h : u.toNat < 0xD800 ∨ 0xDFFF < u.toNat) (t : Text) :
    toChars? (u :: t) = (toChars? t).map (Char.ofNat u.toNat :: ·) := by
  have hhigh : u.isHighSurrogate = false := by
    simp [CodeUnit.isHighSurrogate, UInt16.le_iff_toNat_le]
    omega
  have hlow : u.isLowSurrogate = false := by
    simp [CodeUnit.isLowSurrogate, UInt16.le_iff_toNat_le]
    omega
  rw [toChars?.eq_def]
  simp [hhigh, hlow]

/-- A high half followed by a low half is one character. -/
theorem toChars?_cons_cons_of_toNat {u v : CodeUnit} {i j : Nat} (hi : i < 0x400) (hj : j < 0x400)
    (hu : u.toNat = 0xD800 + i) (hv : v.toNat = 0xDC00 + j) (t : Text) :
    toChars? (u :: v :: t) =
      (toChars? t).map (Char.ofNat (0x10000 + i * 0x400 + j) :: ·) := by
  have hhigh : u.isHighSurrogate = true := by
    simp [CodeUnit.isHighSurrogate, UInt16.le_iff_toNat_le]
    omega
  have hlow : v.isLowSurrogate = true := by
    simp [CodeUnit.isLowSurrogate, UInt16.le_iff_toNat_le]
    omega
  rw [toChars?.eq_def]
  simp [hhigh, hlow, CodeUnit.pair, hu, hv]

theorem toChars?_encode_append (c : Char) (t : Text) :
    toChars? (CodeUnit.encode c ++ t) = (toChars? t).map (c :: ·) := by
  have hc := toNat_not_surrogate c
  rw [CodeUnit.encode]
  split
  · next h =>
      have hu : (CodeUnit.ofChar c).toNat = c.toNat := by
        rw [CodeUnit.ofChar, UInt16.toNat_ofNat', Nat.mod_eq_of_lt (by omega)]
      rw [List.singleton_append, toChars?_cons_of_toNat (by omega), hu, Char.ofNat_toNat]
  · next h =>
      rw [List.cons_append, List.singleton_append,
        toChars?_cons_cons_of_toNat (i := (c.toNat - 0x10000) / 0x400)
          (j := (c.toNat - 0x10000) % 0x400) (by omega) (by omega)
          (by rw [UInt16.toNat_ofNat', Nat.mod_eq_of_lt (by omega)])
          (by rw [UInt16.toNat_ofNat', Nat.mod_eq_of_lt (by omega)]),
        show 0x10000 + (c.toNat - 0x10000) / 0x400 * 0x400 + (c.toNat - 0x10000) % 0x400 = c.toNat by
          omega,
        Char.ofNat_toNat]

theorem toChars?_flatMap_encode (cs : List Char) :
    toChars? (cs.flatMap CodeUnit.encode) = some cs := by
  induction cs with
  | nil => rfl
  | cons c cs ih => rw [List.flatMap_cons, toChars?_encode_append, ih]; rfl

/-- **Every string survives the passage through code units.** -/
theorem toString?_ofString (s : String) : toString? (ofString s) = some s := by
  simp [toString?, ofString, toChars?_flatMap_encode]

end Text

end Lexis
