/-! Decimal and hexadecimal numerals in ASCII digits. -/

namespace ScreenActions.Number

def isDigit (c : Char) : Bool := '0' ≤ c && c ≤ '9'

def digitValue (c : Char) : Nat := c.toNat - '0'.toNat

def hexValue? (c : Char) : Option Nat :=
  if isDigit c then some (digitValue c)
  else if 'a' ≤ c && c ≤ 'f' then some (c.toNat - 'a'.toNat + 10)
  else if 'A' ≤ c && c ≤ 'F' then some (c.toNat - 'A'.toNat + 10)
  else none

/-- The power of ten with an exponent. -/
def tens (k : Nat) : Nat := Nat.pow 10 k

/-- The power of two with an exponent. -/
def twos (k : Nat) : Nat := Nat.pow 2 k

/-- The number that a row of digits denotes, continued from `acc`. -/
def digitsValue (acc : Nat) (digits : List Char) : Nat :=
  digits.foldl (fun n c => 10 * n + digitValue c) acc

/-- One digit or more, and nothing else. -/
def natural? (s : List Char) : Option Nat :=
  if !s.isEmpty && s.all isDigit then some (digitsValue 0 s) else none

/-- A natural number up to `limit`, with an optional plus sign. -/
def unsigned? (limit : Nat) (s : List Char) : Option Nat :=
  let digits := match s with
    | '+' :: rest => rest
    | _ => s
  (natural? digits).bind fun n => if n ≤ limit then some n else none

/-- An integer between `low` and `high`, with an optional sign. -/
def integer? (low high : Int) (s : List Char) : Option Int :=
  let read := match s with
    | '-' :: rest => (natural? rest).map fun n => -(n : Int)
    | '+' :: rest => (natural? rest).map fun n => (n : Int)
    | _ => (natural? s).map fun n => (n : Int)
  read.bind fun n => if low ≤ n ∧ n ≤ high then some n else none

/-- Digits of any radix up to 16, with an optional plus sign. -/
def radix? (radix : Nat) (s : List Char) : Option Nat :=
  let digits := match s with
    | '+' :: rest => rest
    | _ => s
  if digits.isEmpty then none
  else digits.foldl (fun acc c =>
    acc.bind fun n => (hexValue? c).bind fun d => if d < radix then some (radix * n + d) else none)
    (some 0)

def int64Min : Int := -0x8000000000000000
def int64Max : Int := 0x7FFFFFFFFFFFFFFF
def int32Min : Int := -0x80000000
def int32Max : Int := 0x7FFFFFFF
def wordMax : Nat := 0xFFFFFFFFFFFFFFFF

def int64? (s : List Char) : Option Int := integer? int64Min int64Max s

/-- The nearest 64-bit integer. -/
def clampInt64 (n : Int) : Int := max int64Min (min int64Max n)

def naturalText (n : Nat) : List Char := Nat.toDigits 10 n

/-- At least `width` digits, filled with zeros on the left. -/
def paddedText (width n : Nat) : List Char :=
  let digits := naturalText n
  List.replicate (width - digits.length) '0' ++ digits

def integerText (n : Int) : List Char :=
  if n < 0 then '-' :: naturalText n.natAbs else naturalText n.natAbs

/-- Quotient rounded to the nearest integer, a half to the even one. -/
def roundDivEven (num den : Nat) : Nat :=
  let q := num / den
  let r := num % den
  if 2 * r < den then q else if den < 2 * r then q + 1 else q + q % 2

/-- Quotient rounded to the nearest integer, a half upward. -/
def roundDivUp (num den : Nat) : Nat :=
  let q := num / den
  if 2 * (num % den) < den then q else q + 1

end ScreenActions.Number
