import ScreenActions.Number.Numeral
import ScreenActions.Text.Blank
import ScreenActions.Calendar.Date

/-! Reading dates and times by patterns of fields. -/

namespace ScreenActions

open Number Text

/-- One item of a pattern. -/
inductive PatternItem
  | year | month | day | hour | minute | second
  /-- An optional point and fraction of a second. -/
  | fraction
  /-- Any number of blanks, none included. -/
  | blanks
  | literal (c : Char)
  deriving DecidableEq, Repr

/-- The fields that a pattern has read; a field that it lacks is zero. -/
structure Fields where
  year : Int := 0
  month : Nat := 0
  day : Nat := 0
  hour : Nat := 0
  minute : Nat := 0
  second : Nat := 0
  nanos : Nat := 0
  deriving DecidableEq, Repr

/-- One digit or more, at most `width` of them. -/
def scanDigits (width : Nat) (s : List Char) : Option (Nat × List Char) :=
  let digits := (s.take width).takeWhile isDigit
  if digits.isEmpty then none else some (digitsValue 0 digits, s.drop digits.length)

/-- A number of at most two digits between `low` and `high`, after any blanks. -/
def scanField (low high : Nat) (s : List Char) : Option (Nat × List Char) :=
  (scanDigits 2 (trimStart s)).bind fun (n, rest) =>
    if low ≤ n ∧ n ≤ high then some (n, rest) else none

/-- Four digits at most, or any number of them after a sign. -/
def scanYear (s : List Char) : Option (Int × List Char) :=
  match trimStart s with
  | '-' :: r => (scanDigits r.length r).map fun (n, rest) => (-(n : Int), rest)
  | '+' :: r => (scanDigits r.length r).map fun (n, rest) => ((n : Int), rest)
  | r => (scanDigits 4 r).map fun (n, rest) => ((n : Int), rest)

/-- A fraction in nanoseconds; digits beyond the ninth are dropped. -/
def scanFraction (s : List Char) : Option (Nat × List Char) :=
  let digits := (s.take 9).takeWhile isDigit
  if digits.isEmpty then none
  else some (digitsValue 0 digits * tens (9 - digits.length),
    (s.drop digits.length).dropWhile isDigit)

def PatternItem.scan (f : Fields) (s : List Char) : PatternItem → Option (Fields × List Char)
  | .year => (scanYear s).map fun (n, r) => ({ f with year := n }, r)
  | .month => (scanField 1 12 s).map fun (n, r) => ({ f with month := n }, r)
  | .day => (scanField 1 31 s).map fun (n, r) => ({ f with day := n }, r)
  | .hour => (scanField 0 23 s).map fun (n, r) => ({ f with hour := n }, r)
  | .minute => (scanField 0 59 s).map fun (n, r) => ({ f with minute := n }, r)
  | .second => (scanField 0 60 s).map fun (n, r) => ({ f with second := n }, r)
  | .fraction =>
      match s with
      | '.' :: r => (scanFraction r).map fun (n, r) => ({ f with nanos := n }, r)
      | r => some (f, r)
  | .blanks => some (f, trimStart s)
  | .literal c =>
      match s with
      | a :: r => if a = c then some (f, r) else none
      | [] => none

def scanPattern (items : List PatternItem) (f : Fields) (s : List Char) :
    Option (Fields × List Char) :=
  match items with
  | [] => some (f, s)
  | item :: items => (item.scan f s).bind fun (f, r) => scanPattern items f r

/-- The fields of a text that the pattern reads to its end. -/
def readPattern? (items : List PatternItem) (s : List Char) : Option Fields :=
  (scanPattern items {} s).bind fun (f, r) => if r.isEmpty then some f else none

def Fields.date? (f : Fields) : Option Date := Date.make? f.year f.month f.day

/-- Second 60 is the leap second after second 59. -/
def Fields.time? (f : Fields) : Option Time :=
  let leap := f.second == 60
  Time.make? (3600 * f.hour + 60 * f.minute + if leap then 59 else f.second)
    (f.nanos + if leap then 1000000000 else 0)

def Fields.timestamp? (f : Fields) : Option Timestamp :=
  f.date?.bind fun d => f.time?.map fun t => ⟨d, t⟩

namespace Pattern

def date : List PatternItem := [.year, .literal '-', .month, .literal '-', .day]

def minutes : List PatternItem := [.hour, .literal ':', .minute]

def seconds : List PatternItem := minutes ++ [.literal ':', .second, .fraction]

/-- The patterns of a timestamp, in the order in which they are tried. -/
def timestamps : List (List PatternItem) :=
  [date ++ .blanks :: seconds, date ++ .literal 'T' :: seconds, date ++ .blanks :: minutes]

end Pattern

def exactDigits (width : Nat) (s : List Char) : Option (Nat × List Char) :=
  let digits := s.take width
  if digits.length = width && digits.all isDigit then some (digitsValue 0 digits, s.drop width)
  else none

def expect (c : Char) : List Char → Option (List Char)
  | a :: r => if a = c then some r else none
  | [] => none

/-- The offset of a zone in seconds: `Z`, or a sign, two digits, a colon and two digits. -/
def scanOffset : List Char → Option (Int × List Char)
  | [] => none
  | c :: s =>
      if c = 'Z' || c = 'z' then some (0, s)
      else if c = '+' || c = '-' || c = '−' then do
        let (hours, s) ← exactDigits 2 s
        let s ← expect ':' s
        let (minutes, s) ← exactDigits 2 s
        if 59 < minutes || 23 < hours then none
        else
          let offset : Int := 3600 * hours + 60 * minutes
          some (if c = '+' then offset else -offset, s)
      else none

/-- A timestamp with the offset of its zone, brought to offset zero. -/
def zonedTimestamp? (s : List Char) : Option Timestamp := do
  let (year, s) ← exactDigits 4 s
  let s ← expect '-' s
  let (month, s) ← exactDigits 2 s
  let s ← expect '-' s
  let (day, s) ← exactDigits 2 s
  let s ← match s with
    | c :: r => if c = 'T' || c = 't' || c = ' ' then some r else none
    | [] => none
  let (hour, s) ← exactDigits 2 s
  let s ← expect ':' s
  let (minute, s) ← exactDigits 2 s
  let s ← expect ':' s
  let (second, s) ← exactDigits 2 s
  let (nanos, s) ← match s with
    | '.' :: r => scanFraction r
    | r => some (0, r)
  let (offset, s) ← scanOffset s
  if !s.isEmpty || 23 < hour || 59 < minute || 60 < second then none
  else
    let f : Fields := ⟨year, month, day, hour, minute, second, nanos⟩
    f.timestamp?.bind (·.shift? (-offset))

/-- A timestamp by one of the patterns, with a zone, or a date at midnight. -/
def Timestamp.ofText? (s : List Char) : Option Timestamp :=
  (Pattern.timestamps.findSome? fun p => (readPattern? p s).bind Fields.timestamp?).or
    ((zonedTimestamp? s).or
      (((readPattern? Pattern.date s).bind Fields.date?).map Timestamp.atMidnight))

def Date.ofText? (s : List Char) : Option Date :=
  (readPattern? Pattern.date s).bind Fields.date?

def Time.ofText? (s : List Char) : Option Time :=
  ((readPattern? Pattern.seconds s).bind Fields.time?).or
    ((readPattern? Pattern.minutes s).bind Fields.time?)

end ScreenActions
