/-! Characters and positions of YAML texts. -/

namespace ScreenActions.Yaml

def isBlank (c : Char) : Bool := c == ' ' || c == '\t'

/-- Line feed, carriage return, next line, line separator and paragraph separator. -/
def isBreak (c : Char) : Bool :=
  c == '\n' || c == '\r' || c == '\u0085' || c == '\u2028' || c == '\u2029'

/-- A character that no word goes past. -/
def isGap (c : Char) : Bool := isBlank c || isBreak c

/-- The characters of anchors, handles and directive names. -/
def isWordChar (c : Char) : Bool := c.isAlphanum || c == '_' || c == '-'

/-- The characters that a text may hold. -/
def isPrintable (c : Char) : Bool :=
  let n := c.toNat
  n == 9 || n == 0xA || n == 0xD || (0x20 ≤ n && n ≤ 0x7E) || n == 0x85 ||
    (0xA0 ≤ n && n ≤ 0xD7FF) || (0xE000 ≤ n && n ≤ 0xFFFD) || 0x10000 ≤ n

/-- The character that a line break stands for in a scalar. -/
def breakChar (c : Char) : Char := if c == '\u2028' || c == '\u2029' then c else '\n'

/-- Whether a text starts with a blank or a line break or is at its end. -/
def startsGap : List Char → Bool
  | [] => true
  | c :: _ => isGap c

/-- A line that separates documents begins with one of these. -/
def startsDocumentMark : List Char → Bool
  | '-' :: '-' :: '-' :: s => startsGap s
  | '.' :: '.' :: '.' :: s => startsGap s
  | _ => false

/-- What is left of a text, and where that is. -/
structure Cursor where
  rest : List Char
  index : Nat := 0
  line : Nat := 0
  column : Nat := 0

namespace Cursor

/-- Past one line break or other character; a carriage return and a line feed are one break. -/
def next (c : Cursor) : Cursor :=
  match c.rest with
  | [] => c
  | '\r' :: '\n' :: s => ⟨s, c.index + 2, c.line + 1, 0⟩
  | x :: s =>
      if isBreak x then ⟨s, c.index + 1, c.line + 1, 0⟩
      else ⟨s, c.index + 1, c.line, c.column + 1⟩

/-- Past `n` characters of one line. -/
def skip (c : Cursor) (n : Nat) : Cursor :=
  { c with rest := c.rest.drop n, index := c.index + n, column := c.column + n }

def advance : Nat → Cursor → Cursor
  | 0, c => c
  | n + 1, c => advance n c.next

/-- At the place where `rest`, an end of the text, begins. -/
def moveTo (c : Cursor) (rest : List Char) : Cursor :=
  let steps := (c.rest.take (c.rest.length - rest.length)).foldl
    (fun (n, afterReturn) x => (if afterReturn && x == '\n' then n else n + 1, x == '\r'))
    ((0, false) : Nat × Bool)
  c.advance steps.1

end Cursor
end ScreenActions.Yaml
