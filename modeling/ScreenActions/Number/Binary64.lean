import ScreenActions.Number.Numeral

/-! Double precision numbers as exact binary fractions. Each operation is the exact result rounded
to the nearest double, a tie to the even mantissa. -/

namespace ScreenActions

open Number

/-- A finite number is `±mantissa · 2^exponent`. Rounding gives mantissas below `2^53` that are at
least `2^52` unless the exponent is `-1074`. -/
inductive Binary64
  | nan
  | infinite (negative : Bool)
  | finite (negative : Bool) (mantissa : Nat) (exponent : Int)
  deriving DecidableEq, Repr

namespace Binary64

def zero : Binary64 := .finite false 0 (-1074)

/-- `num · 2^shift / den` for either sign of `shift`, as a fraction. -/
def scaled (num den : Nat) (shift : Int) : Nat × Nat :=
  if 0 ≤ shift then (num * twos shift.toNat, den) else (num, den * twos (-shift).toNat)

/-- The exponent of the unit in the last place of `num / den`. -/
def unitExponent (num den : Nat) : Int :=
  let guess : Int := (Nat.log2 num : Int) - Nat.log2 den - 52
  let (a, b) := scaled num den (-guess)
  max (if a / b < twos 52 then guess - 1 else guess) (-1074)

/-- The double nearest to `num / den`. -/
def ofRatio (negative : Bool) (num den : Nat) : Binary64 :=
  if num = 0 || den = 0 then .finite negative 0 (-1074)
  else
    let e := unitExponent num den
    let (a, b) := scaled num den (-e)
    let m := roundDivEven a b
    let (m, e) := if m = twos 53 then (twos 52, e + 1) else (m, e)
    if 971 < e then .infinite negative else .finite negative m e

def ofNat (n : Nat) : Binary64 := ofRatio false n 1

def ofInt (n : Int) : Binary64 := ofRatio (n < 0) n.natAbs 1

/-- Magnitude of a finite number as a fraction. -/
def magnitude (m : Nat) (e : Int) : Nat × Nat := scaled m 1 e

def isFinite : Binary64 → Bool
  | .finite .. => true
  | _ => false

def neg : Binary64 → Binary64
  | .nan => .nan
  | .infinite s => .infinite !s
  | .finite s m e => .finite (!s) m e

/-- Sum of two numbers that are not negative. -/
def addMagnitudes : Binary64 → Binary64 → Binary64
  | .finite _ m e, .finite _ m' e' =>
      let (a, b) := magnitude m e
      let (c, d) := magnitude m' e'
      ofRatio false (a * d + c * b) (b * d)
  | .nan, _ | _, .nan => .nan
  | _, _ => .infinite false

def mul : Binary64 → Binary64 → Binary64
  | .finite s m e, .finite s' m' e' =>
      let (a, b) := magnitude m e
      let (c, d) := magnitude m' e'
      ofRatio (s != s') (a * c) (b * d)
  | .nan, _ | _, .nan => .nan
  | .infinite s, .finite s' m _ | .finite s m _, .infinite s' =>
      if m = 0 then .nan else .infinite (s != s')
  | .infinite s, .infinite s' => .infinite (s != s')

/-- Quotient by a number that is not zero. -/
def div : Binary64 → Binary64 → Binary64
  | .finite s m e, .finite s' m' e' =>
      let (a, b) := magnitude m e
      let (c, d) := magnitude m' e'
      ofRatio (s != s') (a * d) (b * c)
  | .infinite s, .finite s' _ _ => .infinite (s != s')
  | .finite s _ _, .infinite s' => .finite (s != s') 0 (-1074)
  | _, _ => .nan

/-- The nearest whole number, a half away from zero. -/
def round : Binary64 → Binary64
  | .finite s m e =>
      let (a, b) := magnitude m e
      ofRatio s (roundDivUp a b) 1
  | x => x

/-- The whole part, toward zero. -/
def truncate? : Binary64 → Option Int
  | .finite s m e =>
      let (a, b) := magnitude m e
      some (if s then -((a / b : Nat) : Int) else ((a / b : Nat) : Int))
  | _ => none

def isWhole : Binary64 → Bool
  | .finite _ m e => let (a, b) := magnitude m e; a % b == 0
  | _ => false

/-- The largest number of single precision. -/
def singleMax : Nat := (twos 24 - 1) * twos 104

/-- Whether the magnitude is above the largest number of single precision. -/
def exceedsSingle : Binary64 → Bool
  | .finite _ m e => let (a, b) := magnitude m e; singleMax * b < a
  | .infinite _ => true
  | .nan => false

/-- Numeric equality: a number that is not one differs from itself, and the zeros are equal. -/
def sameNumber : Binary64 → Binary64 → Bool
  | .nan, _ | _, .nan => false
  | .finite s m e, .finite s' m' e' => (m == 0 && m' == 0) || (s == s' && m == m' && e == e')
  | x, y => x == y

end Binary64
end ScreenActions
