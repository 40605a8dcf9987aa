import ScreenActions.Number.Numeral
import ScreenActions.Text.Blank

/-! Texts inside markup: a character with a meaning there stands as a numeric reference. -/

namespace ScreenActions.Text.Markup

def isSpecial (c : Char) : Bool := c == '<' || c == '>' || c == '&' || c == '"' || c == '\''

/-- The decimal number of a character between an ampersand with a hash and a semicolon. -/
def reference (c : Char) : List Char := '&' :: '#' :: Number.naturalText c.toNat ++ [';']

def escape (s : List Char) : List Char :=
  s.flatMap fun c => if isSpecial c then reference c else [c]

/-- The character of a reference after its ampersand, and the length of the reference. -/
def readReference (s : List Char) : Option (Char × Nat) :=
  match s with
  | '#' :: s => do
      let (digits, _) ← cutFirst ';' s
      let n ← Number.natural? digits
      if n.isValidChar then some (Char.ofNat n, digits.length + 2) else none
  | _ => none

/-- The text behind its references. An ampersand that begins none is refused. -/
def unescape : List Char → Option (List Char)
  | [] => some []
  | c :: s =>
      if c = '&' then
        match readReference s with
        | some (x, n) => (unescape (s.drop n)).map (x :: ·)
        | none => none
      else (unescape s).map (c :: ·)
termination_by s => s.length

def escapeText (s : String) : String := String.ofList (escape s.toList)

end ScreenActions.Text.Markup
