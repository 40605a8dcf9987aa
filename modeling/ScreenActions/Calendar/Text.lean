import ScreenActions.Number.Numeral
import ScreenActions.Text.Blank
import ScreenActions.Calendar.Date

/-! Texts of dates, times and timestamps. -/

namespace ScreenActions

open Number

/-- Four digits; a year outside `0 … 9999` carries its sign. -/
def yearText (year : Int) : List Char :=
  if 0 ≤ year && year ≤ 9999 then paddedText 4 year.toNat
  else (if year < 0 then '-' else '+') :: paddedText 4 year.natAbs

def Date.text (d : Date) : List Char :=
  yearText d.year ++ '-' :: paddedText 2 d.month ++ '-' :: paddedText 2 d.day

/-- The time of day to the second. -/
def Time.text (t : Time) : List Char :=
  paddedText 2 t.hour ++ ':' :: paddedText 2 t.minute ++ ':' :: paddedText 2 t.second

/-- The fraction of a second without the zeros at its end, but with one digit at least. -/
def fractionText (nanos : Nat) : List Char :=
  if nanos = 0 then ['0']
  else ((paddedText 9 nanos).reverse.dropWhile (· == '0')).reverse

def Timestamp.text (t : Timestamp) : List Char :=
  t.date.text ++ ' ' :: t.time.text ++ '.' :: fractionText t.time.nanos

end ScreenActions
