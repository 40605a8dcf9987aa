import ScreenActions.Number.Shortest

/-! Decimals with a 96-bit mantissa and up to 28 places, which keep their scale. -/

namespace ScreenActions

open Number

/-- Mantissas are below this. -/
def Decimal.limit : Nat := twos 96

def Decimal.maxScale : Nat := 28

/-- `±mantissa · 10^(-scale)`. -/
structure Decimal where
  negative : Bool
  mantissa : Nat
  scale : Nat
  mantissa_lt : mantissa < Decimal.limit
  scale_le : scale ≤ Decimal.maxScale
  deriving DecidableEq, Repr

namespace Decimal

def make? (negative : Bool) (mantissa scale : Nat) : Option Decimal :=
  if h : mantissa < limit ∧ scale ≤ maxScale then some ⟨negative, mantissa, scale, h.1, h.2⟩ else none

/-- A decimal read from a text: a zero has no sign. -/
def makeUnsignedZero? (negative : Bool) (mantissa scale : Nat) : Option Decimal :=
  make? (negative && mantissa != 0) mantissa scale

def text (d : Decimal) : List Char :=
  let digits := paddedText (d.scale + 1) d.mantissa
  let whole := digits.take (digits.length - d.scale)
  let places := digits.drop (digits.length - d.scale)
  Binary64.signText d.negative ++ whole ++ if places.isEmpty then [] else '.' :: places

/-- Numeric equality: the scale does not matter, nor the sign of zero. -/
def sameNumber (a b : Decimal) : Bool :=
  a.mantissa * tens b.scale == b.mantissa * tens a.scale &&
    (a.negative == b.negative || a.mantissa == 0)

/-- The whole part, toward zero. -/
def truncate (d : Decimal) : Int :=
  let whole : Int := ((d.mantissa / tens d.scale : Nat) : Int)
  if d.negative then -whole else whole

def ofInt? (n : Int) : Option Decimal := make? (n < 0) n.natAbs 0

/-- The nearest double by way of the whole and the fractional part, rounded to the scale. -/
def toBinary64 (d : Decimal) : Binary64 :=
  if d.scale = 0 then Binary64.ofInt d.truncate
  else
    let unit := Binary64.ofNat (tens d.scale)
    let whole := Binary64.ofNat (d.mantissa / tens d.scale)
    let fraction := d.mantissa % tens d.scale
    let x :=
      if fraction = 0 then whole
      else
        let sum := Binary64.addMagnitudes whole (Binary64.div (Binary64.ofNat fraction) unit)
        Binary64.div (Binary64.round (Binary64.mul sum unit)) unit
    if d.negative then x.neg else x

/-- Fives multiplied in while twos are divided out, `count` times: a mantissa that would leave 96
bits loses its last bit instead. Gives the mantissa and the exponent of ten. -/
def foldTwos (mantissa : Nat) (exponent : Int) : Nat → Nat × Int
  | 0 => (mantissa, exponent)
  | count + 1 =>
      if mantissa % 2 = 0 then foldTwos (mantissa / 2) (exponent + 1) count
      else if mantissa * 5 < limit then foldTwos (mantissa * 5) exponent count
      else foldTwos (mantissa / 2) (exponent + 1) count

/-- Twos multiplied in, `count` times: a mantissa that would leave 96 bits is divided by five. -/
def unfoldTwos (mantissa : Nat) (exponent : Int) : Nat → Nat × Int
  | 0 => (mantissa, exponent)
  | count + 1 =>
      if mantissa < twos 95 then unfoldTwos (mantissa * 2) (exponent - 1) count
      else unfoldTwos (mantissa / 5) exponent count

/-- Places beyond the largest scale are rounded off one by one, a half upward; nothing is left of
a mantissa that comes to zero. -/
def dropPlaces (mantissa : Nat) (exponent : Int) : Nat → Nat × Int
  | 0 => (mantissa, exponent)
  | count + 1 =>
      if mantissa / 10 = 0 then (0, 0)
      else dropPlaces (roundDivUp mantissa 10) (exponent + 1) count

/-- Places beyond the 53 bits of a double are rounded off, a half upward. -/
def dropExcess (mantissa scale : Nat) : Nat × Nat :=
  match scale with
  | 0 => (mantissa, 0)
  | s + 1 => if mantissa < twos 52 then (mantissa, s + 1) else dropExcess (roundDivUp mantissa 10) s

/-- Zeros at the end of the fraction are removed. -/
def dropZeros (mantissa scale : Nat) : Nat × Nat :=
  match scale with
  | 0 => (mantissa, 0)
  | s + 1 => if mantissa % 10 = 0 then dropZeros (mantissa / 10) s else (mantissa, s + 1)

/-- The decimal of a finite double, to the digits that a double guarantees. -/
def ofBinary64? : Binary64 → Option Decimal
  | .finite s m e =>
      if m = 0 then make? s 0 0
      else
        let (m, k) :=
          if e ≤ 0 then foldTwos m e (-e).toNat else unfoldTwos m e e.toNat
        if 0 < k then make? s (m * tens k.toNat) 0
        else
          let (m, k) := dropPlaces m k (-28 - k).toNat
          let (m, scale) := dropExcess m (-k).toNat
          let (m, scale) := dropZeros m scale
          make? s m scale
  | _ => none

end Decimal
end ScreenActions
