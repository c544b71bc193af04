/-
The shortest decimal of a floating-point number: of the decimals that read
back as the number, one with the fewest digits, and of these the nearest.
-/
import DocScribe.Text.Basic

namespace DocScribe
namespace Decimal

/-- A finite number that is not negative: `significand * 2 ^ exponent`. -/
structure Binary where
  significand : Nat
  exponent : Int
  /-- The next number below is half as far away as the next one above. -/
  closeBelow : Bool

/-- The size of a finite number, from its bits. -/
def Binary.ofBits (bits : UInt64) : Binary :=
  let e := (bits >>> 52).toNat % 2048
  let fraction := bits.toNat % 1 <<< 52
  if e = 0 then ⟨fraction, -1074, false⟩ else ⟨1 <<< 52 + fraction, (e : Int) - 1075, fraction = 0 && 1 < e⟩

/-- Whether `a * 10 ^ i` is less than `n * 2 ^ j`. -/
def below (a : Nat) (i : Int) (n : Nat) (j : Int) : Bool :=
  (a * Nat.pow 10 i.toNat) <<< (-j).toNat < (n * Nat.pow 10 (-i).toNat) <<< j.toNat

/-- Whether `n * 2 ^ j` is less than `a * 10 ^ i`. -/
def above (a : Nat) (i : Int) (n : Nat) (j : Int) : Bool :=
  (n * Nat.pow 10 (-i).toNat) <<< j.toNat < (a * Nat.pow 10 i.toNat) <<< (-j).toNat

/-- Whether `digits * 10 ^ scale` reads back as a number: it lies between the
middles to the numbers next to it, which belong to it when its significand is
even. -/
def readsBack (x : Binary) (digits : Nat) (scale : Int) : Bool :=
  let low := 4 * x.significand - (if x.closeBelow then 1 else 2)
  let high := 4 * x.significand + 2
  if x.significand % 2 = 0 then
    !below digits scale low (x.exponent - 2) && !above digits scale high (x.exponent - 2)
  else above digits scale low (x.exponent - 2) && below digits scale high (x.exponent - 2)

/-- The largest whole number of units `10 ^ scale` that a number is not less
than. -/
def wholeUnits (x : Binary) (scale : Int) : Nat :=
  (x.significand * Nat.pow 10 (-scale).toNat) <<< x.exponent.toNat /
    Nat.pow 10 scale.toNat <<< (-x.exponent).toNat

/-- Whether a number is nearer to the unit above than to the one below, or as
near. -/
def nearerAbove (x : Binary) (units : Nat) (scale : Int) : Bool :=
  !above (2 * units + 1) scale (2 * x.significand) x.exponent

/-- The decimal on a grid that reads back as a number. -/
def onGrid? (x : Binary) (scale : Int) : Option (Nat × Int) :=
  let units := wholeUnits x scale
  match readsBack x units scale && units ≠ 0, readsBack x (units + 1) scale with
  | true, true => some (if nearerAbove x units scale then units + 1 else units, scale)
  | true, false => some (units, scale)
  | false, true => some (units + 1, scale)
  | false, false => none

/-- The grids that are tried, from the coarsest on. -/
def grids : List Int := (List.range 650).map fun n : Nat => 310 - (n : Int)

/-- The digits of the shortest decimal of a number that is not zero, and the
power of ten that they are multiplied by. -/
def shortest (x : Binary) : Nat × Int := (grids.findSome? (onGrid? x)).getD (0, 0)

/-- The digits of a decimal written out, with at least one digit after the
point. -/
def positional (digits : Nat) (scale : Int) : Text :=
  let ds := Text.ofNat digits
  if 0 ≤ scale then ds ++ List.replicate scale.toNat '0' ++ ['.', '0']
  else
    let places := (-scale).toNat
    let padded := List.replicate (places + 1 - ds.length) '0' ++ ds
    padded.take (padded.length - places) ++ '.' :: padded.drop (padded.length - places)

/-- A floating-point number written out in the fewest digits that read back. -/
def text (x : Float) : Text :=
  if x.isNaN then "NaN"
  else
    let sign : Text := if x.toBits.toNat < 1 <<< 63 then [] else ['-']
    if x.isInf then sign ++ ("inf" : Text)
    else
      let b := Binary.ofBits x.toBits
      if b.significand = 0 then sign ++ ("0.0" : Text)
      else
        let (digits, scale) := shortest b
        sign ++ positional digits scale

end Decimal
end DocScribe
