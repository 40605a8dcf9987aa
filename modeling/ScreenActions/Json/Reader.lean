import ScreenActions.Text.Blank
import ScreenActions.Number.Numeral
import ScreenActions.Number.Shortest
import ScreenActions.Json.Basic

/-! Reading JSON documents. -/

namespace ScreenActions.Json

open Number

def skipBlanks (s : List Char) : List Char :=
  s.dropWhile fun c => c == ' ' || c == '\n' || c == '\t' || c == '\r'

/-- The parts of a number as it is written. -/
structure NumberParts where
  negative : Bool
  whole : List Char
  fraction : List Char
  point : Bool
  exponent : Option Int

/-- Digits taken into a 64-bit significand, and the count of those that no longer fit. -/
def takeWhole : Nat → List Char → Nat × Nat
  | n, [] => (n, 0)
  | n, c :: cs =>
      let next := 10 * n + digitValue c
      if next ≤ wordMax then takeWhole next cs else (n, cs.length + 1)

/-- Fraction digits taken into the significand until one no longer fits; the rest are dropped.
The count of digits taken comes with it. -/
def takeFraction (n taken : Nat) : List Char → Nat × Nat
  | [] => (n, taken)
  | c :: cs =>
      let next := 10 * n + digitValue c
      if next ≤ wordMax then takeFraction next (taken + 1) cs else (n, taken)

/-- The double of a significand times a power of ten: one product or quotient by the nearest double
of the power, after quotients by `10^308` while the exponent is below `-308`. -/
def scale (x : Binary64) (k : Int) : Nat → Binary64
  | 0 => x
  | fuel + 1 =>
      if 0 ≤ k then Binary64.mul x (Binary64.ofNat (tens k.toNat))
      else if -308 ≤ k then Binary64.div x (Binary64.ofNat (tens (-k).toNat))
      else scale (Binary64.div x (Binary64.ofNat (tens 308))) (k + 308) fuel

/-- A number that is not an integer of 64 bits; none when it exceeds the doubles. -/
def NumberParts.toFloat? (p : NumberParts) : Option Json :=
  let (n, excess) := takeWhole 0 p.whole
  let (n, taken) := takeFraction n 0 p.fraction
  let zero : Binary64 := .finite p.negative 0 (-1074)
  let k : Int := excess - taken + p.exponent.getD 0
  if n = 0 then some (.float zero)
  else if 308 < k then none
  else if k < -700 then some (.float zero)
  else
    match scale (Binary64.ofNat n) k 4 with
    | .finite _ m e => some (.float (.finite p.negative m e))
    | _ => none

def NumberParts.toJson? (p : NumberParts) : Option Json :=
  if p.point || p.exponent.isSome then p.toFloat?
  else
    let n := digitsValue 0 p.whole
    if p.negative then
      if n = 0 then some (.float (.finite true 0 (-1074)))
      else if n ≤ twos 63 then some (.int (-(n : Int)))
      else p.toFloat?
    else if n ≤ wordMax then some (.int n)
    else p.toFloat?

/-- An exponent after its letter. -/
def readExponent (s : List Char) : Option (Int × List Char) :=
  let (negative, s) := match s with
    | '-' :: r => (true, r)
    | '+' :: r => (false, r)
    | r => (false, r)
  let digits := s.takeWhile isDigit
  if digits.isEmpty then none
  else
    let n : Int := min (digitsValue 0 digits : Int) int32Max
    some (if negative then -n else n, s.dropWhile isDigit)

def readNumber (s : List Char) : Option (Json × List Char) := do
  let (negative, s) := match s with
    | '-' :: r => (true, r)
    | r => (false, r)
  let whole := s.takeWhile isDigit
  let s := s.dropWhile isDigit
  if whole.isEmpty || (whole.length > 1 && whole.head? == some '0') then none
  let (fraction, point, s) ← match s with
    | '.' :: r =>
        let digits := r.takeWhile isDigit
        if digits.isEmpty then none else some (digits, true, r.dropWhile isDigit)
    | r => some ([], false, r)
  let (exponent, s) ← match s with
    | c :: r =>
        if c = 'e' || c = 'E' then (readExponent r).map fun (e, r) => (some e, r)
        else some (none, c :: r)
    | [] => some (none, [])
  let number ← NumberParts.toJson? ⟨negative, whole, fraction, point, exponent⟩
  some (number, s)

/-- Four hexadecimal digits. -/
def readUnit : List Char → Option (Nat × List Char)
  | a :: b :: c :: d :: s => do
      let n ← [a, b, c, d].foldl (fun acc c => acc.bind fun n => (hexValue? c).map (16 * n + ·))
        (some 0)
      some (n, s)
  | _ => none

/-- The character of an escape after `\u`; a high surrogate needs the escape of a low one. -/
def readEscapedChar (s : List Char) : Option (Char × List Char) := do
  let (n, s) ← readUnit s
  if 0xDC00 ≤ n && n ≤ 0xDFFF then none
  else if 0xD800 ≤ n && n ≤ 0xDBFF then
    match s with
    | '\\' :: 'u' :: s =>
        let (low, s) ← readUnit s
        if 0xDC00 ≤ low && low ≤ 0xDFFF then
          some (Char.ofNat (0x10000 + (n - 0xD800) * 0x400 + (low - 0xDC00)), s)
        else none
    | _ => none
  else some (Char.ofNat n, s)

def simpleEscape? (c : Char) : Option Char :=
  match c with
  | '"' => some '"'
  | '\\' => some '\\'
  | '/' => some '/'
  | 'b' => some '\x08'
  | 'f' => some '\x0c'
  | 'n' => some '\n'
  | 'r' => some '\r'
  | 't' => some '\t'
  | _ => none

/-- The characters up to the closing quote, gathered from last to first. -/
def readChars (acc : List Char) : Nat → List Char → Option (String × List Char)
  | 0, _ => none
  | fuel + 1, s =>
      match s with
      | [] => none
      | '"' :: s => some (String.ofList acc.reverse, s)
      | '\\' :: 'u' :: s => (readEscapedChar s).bind fun (c, s) => readChars (c :: acc) fuel s
      | '\\' :: c :: s => (simpleEscape? c).bind fun c => readChars (c :: acc) fuel s
      | c :: s => if c.toNat < 0x20 || c = '\\' then none else readChars (c :: acc) fuel s

def readString (s : List Char) : Option (String × List Char) := readChars [] (s.length + 1) s

abbrev Reader (α : Type) := List Char → Option (α × List Char)

/-- Items up to the closing bracket, after the opening one and with one item at least. -/
def readItems (item : Reader Json) (acc : List Json) : Nat → Reader (List Json)
  | 0, _ => none
  | fuel + 1, s => (item (skipBlanks s)).bind fun (v, s) =>
      match skipBlanks s with
      | ',' :: s => readItems item (v :: acc) fuel s
      | ']' :: s => some ((v :: acc).reverse, s)
      | _ => none

/-- Members up to the closing brace, after the opening one and with one member at least. -/
def readMembers (item : Reader Json) (acc : List (String × Json)) :
    Nat → Reader (List (String × Json))
  | 0, _ => none
  | fuel + 1, s =>
      match skipBlanks s with
      | '"' :: s => (readString s).bind fun (name, s) =>
          match skipBlanks s with
          | ':' :: s => (item (skipBlanks s)).bind fun (v, s) =>
              match skipBlanks s with
              | ',' :: s => readMembers item ((name, v) :: acc) fuel s
              | '}' :: s => some (((name, v) :: acc).reverse, s)
              | _ => none
          | _ => none
      | _ => none

def readArray (item : Reader Json) (s : List Char) : Option (Json × List Char) :=
  match skipBlanks s with
  | ']' :: s => some (.array [], s)
  | s => (readItems item [] (s.length + 1) s).map fun (v, s) => (.array v, s)

def readObject (item : Reader Json) (s : List Char) : Option (Json × List Char) :=
  match skipBlanks s with
  | '}' :: s => some (.object [], s)
  | s => (readMembers item [] (s.length + 1) s).map fun (v, s) => (.object v, s)

/-- A value whose arrays and objects nest at most `depth` deep. -/
def readValue (depth : Nat) (s : List Char) : Option (Json × List Char) :=
  match s with
  | '"' :: s => (readString s).map fun (t, s) => (.string t, s)
  | '[' :: s =>
      match depth with
      | 0 => none
      | depth + 1 => readArray (readValue depth) s
  | '{' :: s =>
      match depth with
      | 0 => none
      | depth + 1 => readObject (readValue depth) s
  | 'n' :: 'u' :: 'l' :: 'l' :: s => some (.null, s)
  | 't' :: 'r' :: 'u' :: 'e' :: s => some (.bool true, s)
  | 'f' :: 'a' :: 'l' :: 's' :: 'e' :: s => some (.bool false, s)
  | s => readNumber s

def maxDepth : Nat := 127

/-- A document with blanks around it. -/
def ofText? (s : String) : Option Json :=
  (readValue maxDepth (skipBlanks s.toList)).bind fun (v, s) =>
    if (skipBlanks s).isEmpty then some v else none

end ScreenActions.Json
