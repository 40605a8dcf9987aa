import ScreenActions.Number.Binary64

/-! Texts of doubles: the fewest digits that read back, the exact whole number, and reading. -/

namespace ScreenActions.Binary64

open Number

/-- The reals that round to a finite number lie between two fractions over `den`; the ends belong
to them when the mantissa is even. -/
structure Interval where
  low : Nat
  value : Nat
  high : Nat
  den : Nat
  closed : Bool

def interval (m : Nat) (e : Int) : Interval :=
  let narrow := m == twos 52 && e != -1074
  let (unit, den) := scaled 1 1 (e - 2)
  { low := (if narrow then 4 * m - 1 else 4 * m - 2) * unit
    value := 4 * m * unit
    high := (4 * m + 2) * unit
    den := den
    closed := m % 2 == 0 }

/-- Whether `n · 10^k` rounds to the number of the interval. -/
def Interval.holds (i : Interval) (n : Nat) (k : Int) : Bool :=
  let (a, b) := if 0 ≤ k then (n * tens k.toNat, 1) else (n, tens (-k).toNat)
  let x := a * i.den
  if i.closed then i.low * b ≤ x && x ≤ i.high * b else i.low * b < x && x < i.high * b

/-- The neighbours of the value on the grid of step `10^k`, the nearer one first. -/
def Interval.neighbours (i : Interval) (k : Int) : List Nat :=
  let (num, den) :=
    if 0 ≤ k then (i.value, i.den * tens k.toNat) else (i.value * tens (-k).toNat, i.den)
  let q := num / den
  if den ≤ 2 * (num % den) then [q + 1, q] else [q, q + 1]

/-- The first grid, from step `10^k` downward, that has a point in the interval. -/
def Interval.search (i : Interval) (k : Int) : Nat → Nat × Int
  | 0 => (i.value / i.den, 0)
  | fuel + 1 =>
      match (i.neighbours k).find? (i.holds · k) with
      | some n => (n, k)
      | none => i.search (k - 1) fuel

/-- An exponent of ten above the magnitude of `m · 2^e`. -/
def topExponent (m : Nat) (e : Int) : Int := ((Nat.log2 m : Int) + 1 + e) * 30103 / 100000 + 1

/-- The fewest digits that read back as a finite number other than zero, and their exponent of
ten. -/
def shortest (m : Nat) (e : Int) : Nat × Int :=
  (interval m e).search (topExponent m e) 24

def signText (negative : Bool) : List Char := if negative then ['-'] else []

/-- Digits times a power of ten, written without an exponent. -/
def positional (digits : List Char) (k : Int) : List Char :=
  if 0 ≤ k then digits ++ List.replicate k.toNat '0'
  else
    let places := (-k).toNat
    let whole := digits.length - places
    let front := digits.take whole
    (if front.isEmpty then ['0'] else front) ++ '.' ::
      (List.replicate (places - digits.length) '0' ++ digits.drop whole)

/-- The shortest text that reads back, without an exponent. -/
def text : Binary64 → List Char
  | .nan => "NaN".toList
  | .infinite s => signText s ++ "inf".toList
  | .finite s m e =>
      if m = 0 then signText s ++ ['0']
      else let (n, k) := shortest m e; signText s ++ positional (naturalText n) k

/-- A whole number in full with one zero after the point, any other as `text`. -/
def pointText : Binary64 → List Char
  | .finite s m e =>
      if isWhole (.finite s m e) then
        let (a, b) := magnitude m e
        signText s ++ naturalText (a / b) ++ ".0".toList
      else text (.finite s m e)
  | x => text x

/-- Digits, an optional fraction and an optional exponent of a numeral. -/
structure Numeral where
  whole : List Char
  fraction : List Char
  exponent : Int

def scanExponent : List Char → Option Int
  | [] => some 0
  | c :: cs =>
      if c = 'e' || c = 'E' then
        match cs with
        | '-' :: ds => (natural? ds).map fun n => -(n : Int)
        | '+' :: ds => (natural? ds).map fun n => (n : Int)
        | ds => (natural? ds).map fun n => (n : Int)
      else none

def scanNumeral (s : List Char) : Option Numeral :=
  let whole := s.takeWhile isDigit
  let rest := s.dropWhile isDigit
  let (fraction, rest) := match rest with
    | '.' :: r => (r.takeWhile isDigit, r.dropWhile isDigit)
    | r => ([], r)
  if whole.isEmpty && fraction.isEmpty then none
  else (scanExponent rest).map fun e => ⟨whole, fraction, e⟩

/-- The double nearest to `digits · 10^k`. Far exponents are cut off, where the result is zero or
infinite for every mantissa of that length. -/
def ofDecimal (negative : Bool) (digits : Nat) (length : Nat) (k : Int) : Binary64 :=
  if digits = 0 then .finite negative 0 (-1074)
  else if 400 < k then .infinite negative
  else if k + length < -400 then .finite negative 0 (-1074)
  else if 0 ≤ k then ofRatio negative (digits * tens k.toNat) 1
  else ofRatio negative digits (tens (-k).toNat)

def Numeral.value (negative : Bool) (n : Numeral) : Binary64 :=
  let digits := n.whole ++ n.fraction
  ofDecimal negative (digitsValue 0 digits) digits.length (n.exponent - n.fraction.length)

def special? (negative : Bool) (s : List Char) : Option Binary64 :=
  let word := s.map Char.toLower
  if word = "inf".toList || word = "infinity".toList then some (.infinite negative)
  else if word = "nan".toList then some .nan
  else none

/-- A decimal numeral, `inf`, `infinity` or `nan` in any case, with an optional sign. -/
def ofText? (s : List Char) : Option Binary64 :=
  let (negative, body) := match s with
    | '-' :: rest => (true, rest)
    | '+' :: rest => (false, rest)
    | rest => (false, rest)
  match special? negative body with
  | some x => some x
  | none => (scanNumeral body).map (Numeral.value negative)

/-- The shortest digits with a point, or with an exponent where the point is far away. -/
def scientificText : Binary64 → List Char
  | .nan => "NaN".toList
  | .infinite s => signText s ++ "inf".toList
  | .finite s m e =>
      if m = 0 then signText s ++ "0.0".toList
      else
        let (n, k) := shortest m e
        let digits := naturalText n
        let point := (digits.length : Int) + k
        signText s ++
          if 0 ≤ k && point ≤ 16 then positional digits k ++ ".0".toList
          else if -5 < point && point ≤ 16 then positional digits k
          else
            let tail := 'e' :: integerText (point - 1)
            match digits with
            | [d] => d :: tail
            | d :: ds => d :: '.' :: ds ++ tail
            | [] => tail

end ScreenActions.Binary64
