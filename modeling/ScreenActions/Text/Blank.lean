/-! Texts as lists of characters: blanks, trimming, splitting and searching. -/

namespace ScreenActions.Text

/-- The characters with the Unicode property White_Space. -/
def isBlank (c : Char) : Bool :=
  let n := c.toNat
  (9 ≤ n && n ≤ 13) || n == 0x20 || n == 0x85 || n == 0xA0 || n == 0x1680 ||
    (0x2000 ≤ n && n ≤ 0x200A) || n == 0x2028 || n == 0x2029 || n == 0x202F ||
    n == 0x205F || n == 0x3000

abbrev trimStart (s : List Char) : List Char := s.dropWhile isBlank

def trimEnd (s : List Char) : List Char := (s.reverse.dropWhile isBlank).reverse

def trim (s : List Char) : List Char := trimEnd (trimStart s)

def isAllBlank (s : List Char) : Bool := s.all isBlank

/-- The pieces between the characters that satisfy `p`; there is always one piece. -/
def splitAll (p : Char → Bool) : List Char → List (List Char)
  | [] => [[]]
  | c :: cs =>
      if p c then [] :: splitAll p cs
      else match splitAll p cs with
        | [] => [[c]]
        | w :: ws => (c :: w) :: ws

/-- Both sides of the first `sep`. -/
def cutFirst (sep : Char) : List Char → Option (List Char × List Char)
  | [] => none
  | c :: cs =>
      if c = sep then some ([], cs)
      else (cutFirst sep cs).map fun (a, b) => (c :: a, b)

/-- Both sides of the last `sep`. -/
def cutLast (sep : Char) (s : List Char) : Option (List Char × List Char) :=
  (cutFirst sep s.reverse).map fun (a, b) => (b.reverse, a.reverse)

/-- What follows `lead` at the start of a text. -/
def stripLead? : List Char → List Char → Option (List Char)
  | [], s => some s
  | _ :: _, [] => none
  | a :: lead, c :: s => if a = c then stripLead? lead s else none

theorem stripLead?_eq_some_iff {lead s rest : List Char} :
    stripLead? lead s = some rest ↔ s = lead ++ rest := by
  induction lead generalizing s with
  | nil => simp [stripLead?]
  | cons a lead ih =>
    cases s with
    | nil => simp [stripLead?]
    | cons c s =>
      rw [stripLead?, List.cons_append, List.cons.injEq]
      split
      · next h => simp [h, ih]
      · next h => simp [Ne.symm h]

/-- What precedes `tail` at the end of a text. -/
def stripTail? (tail s : List Char) : Option (List Char) :=
  (stripLead? tail.reverse s.reverse).map List.reverse

def startsWith (lead s : List Char) : Bool := (stripLead? lead s).isSome

theorem startsWith_iff {lead s : List Char} :
    startsWith lead s = true ↔ ∃ rest, s = lead ++ rest := by
  simp only [startsWith, Option.isSome_iff_exists, stripLead?_eq_some_iff]

def endsWith (tail s : List Char) : Bool := (stripTail? tail s).isSome

/-- Whether `part` occurs in a text. -/
def occursIn (part : List Char) : List Char → Bool
  | [] => part.isEmpty
  | c :: cs => startsWith part (c :: cs) || occursIn part cs

/-- Texts joined by `sep`. -/
def join (sep : String) (parts : List String) : String := String.intercalate sep parts

def trimText (s : String) : String := String.ofList (trim s.toList)

def isBlankText (s : String) : Bool := isAllBlank s.toList

/-- ASCII letters lowered, other characters kept. -/
def lower (s : String) : String := String.ofList (s.toList.map Char.toLower)

/-- ASCII letters raised, other characters kept. -/
def upper (s : String) : String := String.ofList (s.toList.map Char.toUpper)

/-- The end of a line, given its characters from last to first: one carriage return is dropped. -/
def closeLine : List Char → List Char
  | '\r' :: line => line.reverse
  | line => line.reverse

def linesFrom (line : List Char) : List Char → List (List Char)
  | [] => if line.isEmpty then [] else [line.reverse]
  | c :: cs => if c = '\n' then closeLine line :: linesFrom [] cs else linesFrom (c :: line) cs

/-- Lines end with a line feed or a carriage return and a line feed; the last line may be open. -/
def lines (s : List Char) : List (List Char) := linesFrom [] s

end ScreenActions.Text
