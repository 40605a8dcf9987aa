import ScreenActions.Text.Blank
import ScreenActions.Number.Decimal

/-! Reading decimals, in positional and in scientific notation. -/

namespace ScreenActions.Decimal

open Number

/-- The digit at which a mantissa is cut off: a separator or a second point counts as zero. -/
def cutDigit? (c : Char) : Option Nat :=
  if isDigit c then some (digitValue c) else if c = '_' || c = '.' then some 0 else none

/-- The mantissa rounded by the first digit that it cannot hold, a half upward. A mantissa that
grows out of 96 bits gives up one place. -/
def roundAt (negative : Bool) (mantissa scale : Nat) (c : Char) : Option Decimal :=
  (cutDigit? c).bind fun digit =>
    if digit < 5 then makeUnsignedZero? negative mantissa scale
    else if mantissa + 1 < limit then makeUnsignedZero? negative (mantissa + 1) scale
    else if scale = 0 then none
    else makeUnsignedZero? negative ((mantissa + 5) / 10) (scale - 1)

/-- Digits with at most one point; underscores may stand after the first digit. What follows the
first digit beyond the precision is not read. -/
def scan (negative point digits : Bool) (mantissa scale : Nat) : List Char → Option Decimal
  | [] => if digits then makeUnsignedZero? negative mantissa scale else none
  | c :: cs =>
      if point && maxScale ≤ scale then roundAt negative mantissa scale c
      else if isDigit c then
        let next := mantissa * 10 + digitValue c
        if next < limit then scan negative point true next (if point then scale + 1 else 0) cs
        else if point then roundAt negative mantissa scale c
        else none
      else if c = '.' && !point then scan negative true digits mantissa scale cs
      else if c = '_' && digits then scan negative point digits mantissa scale cs
      else none

def ofText? : List Char → Option Decimal
  | '-' :: s => if s.isEmpty then none else scan true false false 0 0 s
  | '+' :: s => if s.isEmpty then none else scan false false false 0 0 s
  | s => scan false false false 0 0 s

/-- The same digits rounded to `places` places, a half upward. -/
def rescaleTo? (d : Decimal) (places : Nat) : Option Decimal :=
  if d.scale ≤ places then make? d.negative (d.mantissa * tens (places - d.scale)) places
  else make? d.negative (roundDivUp d.mantissa (tens (d.scale - places))) places

/-- `d · 10^(-k)`; places beyond the largest scale are rounded off. -/
def shiftDown? (d : Decimal) (k : Nat) : Option Decimal :=
  if maxScale < k then none
  else if d.scale + k ≤ maxScale then make? d.negative d.mantissa (d.scale + k)
  else (rescaleTo? d (maxScale - k)).bind fun r => make? r.negative r.mantissa maxScale

/-- `d · 10^k`, without a fraction when all places are used up. -/
def shiftUp? (d : Decimal) (k : Nat) : Option Decimal :=
  if k ≤ d.scale then make? d.negative d.mantissa (d.scale - k)
  else if maxScale < k then none
  else makeUnsignedZero? d.negative (d.mantissa * tens (k - d.scale)) 0

/-- A decimal, a letter `e` and an exponent. -/
def ofScientific? (s : List Char) : Option Decimal :=
  let base := s.takeWhile fun c => c != 'e' && c != 'E'
  match s.dropWhile fun c => c != 'e' && c != 'E' with
  | [] => none
  | _ :: exponent =>
      (ofText? base).bind fun d =>
        match exponent with
        | '-' :: k => (unsigned? (twos 32 - 1) k).bind (shiftDown? d)
        | k => (unsigned? (twos 32 - 1) k).bind (shiftUp? d)

def read? (s : List Char) : Option Decimal :=
  (ofText? s).or (ofScientific? s)

end ScreenActions.Decimal
