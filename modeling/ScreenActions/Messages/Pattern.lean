import ScreenActions.Number.Numeral
import ScreenActions.Text.Blank

/-! Message patterns with numbered arguments in braces. -/

namespace ScreenActions.MessagePattern

open Text

/-- The number in a reference: digits with blanks around them and an optional format after a
comma, which holds no line feed. -/
def argumentIndex? (inner : List Char) : Option Nat :=
  let s := trimStart inner
  let digits := s.takeWhile Number.isDigit
  let wellFormed := match trimStart (s.dropWhile Number.isDigit) with
    | [] => true
    | c :: format => c == ',' && !format.contains '\n'
  if wellFormed then Number.unsigned? Number.wordMax digits else none

/-- A reference in braces: the argument, or the reference as it is written. -/
def argument (args : List String) (inner : List Char) : List Char :=
  match (argumentIndex? inner).bind (args[·]?) with
  | some text => text.toList
  | none => '{' :: inner ++ ['}']

mutual
/-- Text outside references. Two quotes are one; a single quote turns quoting on or off, and braces
are text while it is on. -/
def formatText (args : List String) (quoted : Bool) : List Char → List Char
  | [] => []
  | '\'' :: '\'' :: s => '\'' :: formatText args quoted s
  | c :: s =>
      if c = '\'' then formatText args (!quoted) s
      else if c = '{' && !quoted then formatBrace args [] s
      else c :: formatText args quoted s

/-- Text inside a reference, gathered from last to first; one that is not closed is text. -/
def formatBrace (args : List String) (inner : List Char) : List Char → List Char
  | [] => '{' :: inner.reverse
  | c :: s =>
      if c = '}' then argument args inner.reverse ++ formatText args false s
      else formatBrace args (c :: inner) s
end

def format (pattern : String) (args : List String) : String :=
  String.ofList (formatText args false pattern.toList)

end ScreenActions.MessagePattern
