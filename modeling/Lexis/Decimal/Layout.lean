import Lexis.Decimal.Shortest
import Lexis.Text.Encoding
import Lexis.Text.Numeral

/-!
# Writing a decimal

A `Layout` says which decimals are written in positions and which with an exponent, and how numbers
that are not finite are spelled.  `Layout.write` puts the shortest decimal of a number into that form.
-/

namespace Lexis

open CodeUnit

/-- The decisions of a number format. -/
structure Layout where
  /-- The largest number of digits before the point that is written in positions. -/
  widest : Int
  /-- The smallest number of digits before the point that is written in positions; it is negative
  when zeros follow the point. -/
  narrowest : Int
  notANumber : String
  infinity : String

namespace Layout

/-- A decimal with `digits` and the point after the first `point` of them, which may lie outside
the digits on either side. -/
def position (layout : Layout) (digits : Text) (point : Int) : Text :=
  if digits.length ≤ point ∧ point ≤ layout.widest then
    digits ++ List.replicate (point.toNat - digits.length) zero
  else if 0 < point ∧ point ≤ layout.widest then
    digits.take point.toNat ++ CodeUnit.dot :: digits.drop point.toNat
  else if layout.narrowest ≤ point ∧ point ≤ 0 then
    zero :: CodeUnit.dot :: (List.replicate (-point).toNat zero ++ digits)
  else
    let mantissa := match digits with
      | first :: second :: rest => first :: CodeUnit.dot :: second :: rest
      | single => single
    let power := point - 1
    mantissa ++ lowerE :: (if power < 0 then hyphen else plus) :: Text.ofNat power.natAbs

def writeDecimal (layout : Layout) (d : Decimal) : Text :=
  let digits := Text.ofNat d.coefficient
  layout.position digits (digits.length + d.exponent)

/-- A number in this layout.  Zero has no sign. -/
def write (layout : Layout) : BinaryFloat → Text
  | .notANumber => Text.ofString layout.notANumber
  | .infinite negative => signed negative (Text.ofString layout.infinity)
  | .finite negative x =>
      if x.significand = 0 then [zero] else signed negative (layout.writeDecimal x.shortest)
where
  signed (negative : Bool) (t : Text) : Text := if negative then hyphen :: t else t

end Layout

end Lexis
