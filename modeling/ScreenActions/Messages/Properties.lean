import ScreenActions.Keyed
import ScreenActions.Number.Numeral
import ScreenActions.Text.Blank

/-! The text form of messages: entries `key = value` on lines, with comments, continued lines and
escapes. -/

namespace ScreenActions.Properties

open Text

/-- A line goes on with the next one when it ends in an odd number of backslashes. -/
def isContinued (line : List Char) : Bool :=
  (line.reverse.takeWhile (· == '\\')).length % 2 == 1

def isComment (line : List Char) : Bool :=
  match line with
  | c :: _ => c == '#' || c == '!'
  | [] => false

/-- Lines joined where one goes on with the next, without the blanks at the start of each; empty
lines and comments are left out. -/
def joinLines (pending : Option (List Char)) : List (List Char) → List (List Char)
  | [] => pending.toList
  | line :: rest =>
      let line := trimStart line
      if pending.isNone && (line.isEmpty || isComment line) then joinLines none rest
      else
        let text := pending.getD [] ++ line
        if isContinued text then joinLines (some text.dropLast) rest
        else text :: joinLines none rest

def isSeparator (c : Char) : Bool := c == '=' || c == ':'

/-- The key as it is written, and what follows from the first separator or blank that no backslash
precedes. -/
def cutKey : List Char → List Char × List Char
  | [] => ([], [])
  | '\\' :: c :: s => let (key, rest) := cutKey s; ('\\' :: c :: key, rest)
  | c :: s =>
      if isSeparator c || isBlank c then ([], c :: s)
      else let (key, rest) := cutKey s; (c :: key, rest)

/-- The value as it is written: blanks around one separator are dropped. -/
def valueText (rest : List Char) : List Char :=
  match trimStart rest with
  | c :: s => if isSeparator c then trimStart s else c :: s
  | [] => []

/-- The character of four hexadecimal digits; anything else stays as it is written. -/
def unicode (digits : List Char) : List Char :=
  match (Number.radix? 16 digits).filter Nat.isValidChar with
  | some n => [Char.ofNat n]
  | none => '\\' :: 'u' :: digits

def escaped (c : Char) : Char :=
  if c = 't' then '\t'
  else if c = 'n' then '\n'
  else if c = 'r' then '\r'
  else if c = 'f' then '\x0c'
  else c

/-- A backslash is dropped with nothing after it, and otherwise gives a character by name, by its
code or as itself. -/
def unescape : List Char → List Char
  | [] => []
  | ['\\'] => []
  | '\\' :: 'u' :: a :: b :: c :: d :: s => unicode [a, b, c, d] ++ unescape s
  | '\\' :: 'u' :: s => unicode s
  | '\\' :: c :: s => escaped c :: unescape s
  | c :: s => c :: unescape s

def entry (line : List Char) : String × String :=
  let (key, rest) := cutKey line
  (String.ofList (unescape key), String.ofList (unescape (valueText rest)))

/-- The entries of a text; the last entry of a key counts. -/
def parse (text : String) : Keyed String :=
  Keyed.ofEntries ((joinLines none (lines text.toList)).map entry)

end ScreenActions.Properties
