import ScreenActions.Yaml.Scalar

/-! Tokens of YAML texts. Indentation becomes tokens that open and close blocks, and a key that is
recognised by the colon after it gets its token in front. -/

namespace ScreenActions.Yaml

inductive Token
  | version (major minor : Nat)
  /-- A handle and what it stands for. -/
  | handle (name lead : String)
  | documentStart
  | documentEnd
  | blockSequenceStart
  | blockMappingStart
  | blockEnd
  | flowSequenceStart
  | flowSequenceEnd
  | flowMappingStart
  | flowMappingEnd
  | blockEntry
  | flowEntry
  | key
  | value
  | alias (name : String)
  | anchor (name : String)
  | tag (handle rest : String)
  | scalar (text : String) (plain : Bool)
  deriving DecidableEq, Inhabited, Repr

/-- A place where a key may have begun: its token would stand at `position`. -/
structure PossibleKey where
  position : Nat
  index : Nat
  line : Nat
  column : Nat
  /-- Whether nothing but a key can stand there. -/
  required : Bool

/-- A key stays on one line and within 1024 characters. -/
def PossibleKey.isStale (k : PossibleKey) (c : Cursor) : Bool :=
  k.line < c.line || k.index + 1024 < c.index

structure Scanner where
  cursor : Cursor
  tokens : Array Token := #[]
  /-- Columns of the open blocks, the innermost first. -/
  blocks : List Nat := []
  /-- The possible key of the block context. -/
  blockKey : Option PossibleKey := none
  /-- The possible keys of the open brackets, the innermost first. -/
  flowKeys : List (Option PossibleKey) := []
  keyAllowed : Bool := true

namespace Scanner

def inFlow (s : Scanner) : Bool := !s.flowKeys.isEmpty

def emit (s : Scanner) (t : Token) : Scanner := { s with tokens := s.tokens.push t }

def moveTo (s : Scanner) (rest : List Char) : Scanner := { s with cursor := s.cursor.moveTo rest }

def allowKey (s : Scanner) (allowed : Bool) : Scanner := { s with keyAllowed := allowed }

/-- The leftmost column inside the innermost block. -/
def base (s : Scanner) : Nat :=
  match s.blocks with
  | [] => 0
  | column :: _ => column + 1

def possibleKey (s : Scanner) : Option PossibleKey :=
  match s.flowKeys with
  | [] => s.blockKey
  | k :: _ => k

def setKey (s : Scanner) (k : Option PossibleKey) : Scanner :=
  match s.flowKeys with
  | [] => { s with blockKey := k }
  | _ :: ks => { s with flowKeys := k :: ks }

/-- Gives up the possible key, unless it is required. -/
def dropKey (s : Scanner) : Option Scanner :=
  if s.possibleKey.any (·.required) then none else some (s.setKey none)

/-- Gives up all keys that can no longer be keys, unless one of them is required. -/
def dropStaleKeys (s : Scanner) : Option Scanner :=
  let stale : Option PossibleKey → Bool := fun k => k.any (·.isStale s.cursor)
  if (s.blockKey :: s.flowKeys).any fun k => stale k && k.any (·.required) then none
  else
    some { s with
      blockKey := if stale s.blockKey then none else s.blockKey
      flowKeys := s.flowKeys.map fun k => if stale k then none else k }

/-- Marks the place at hand as one where a key may begin. -/
def saveKey (s : Scanner) : Option Scanner :=
  if s.keyAllowed then
    s.dropKey.map (·.setKey (some {
      position := s.tokens.size
      index := s.cursor.index
      line := s.cursor.line
      column := s.cursor.column
      required := !s.inFlow && s.blocks.head? == some s.cursor.column }))
  else some s

/-- Opens a block at a column to the right of the innermost one, with its token at `position`. -/
def openBlock (s : Scanner) (column position : Nat) (t : Token) : Scanner :=
  if s.inFlow || column < s.base then s
  else { s with
    blocks := column :: s.blocks
    tokens := s.tokens.insertIdxIfInBounds position t }

/-- Closes the blocks that `closes` holds of. -/
def closeBlocks (s : Scanner) (closes : Nat → Bool) : Scanner :=
  if s.inFlow then s
  else
    let count := (s.blocks.takeWhile closes).length
    { s with
      blocks := s.blocks.drop count
      tokens := s.tokens ++ Array.replicate count .blockEnd }

/-- Past blanks, comments and line breaks. A tab is no blank where a key may begin; a mark of the
byte order may begin a line and takes up a column. -/
def skipGapFrom (inFlow keyAllowed lineStart : Bool) : List Char → Bool × List Char
  | [] => (keyAllowed, [])
  | '#' :: s => skipComment s
  | c :: s =>
      if c = ' ' || (c = '\t' && (inFlow || !keyAllowed)) || (c = '\ufeff' && lineStart) then
        skipGapFrom inFlow keyAllowed false s
      else if isBreak c then skipGapFrom inFlow (keyAllowed || !inFlow) true s
      else (keyAllowed, c :: s)
where
  /-- Past the rest of a comment and its line break. -/
  skipComment : List Char → Bool × List Char
    | [] => (keyAllowed, [])
    | c :: s =>
        if isBreak c then skipGapFrom inFlow (keyAllowed || !inFlow) true s else skipComment s

def skipGap (s : Scanner) : Scanner :=
  let (allowed, rest) :=
    skipGapFrom s.inFlow s.keyAllowed (s.cursor.column == 0) s.cursor.rest
  (s.moveTo rest).allowKey allowed

/-- A word and what follows it. -/
def takeWord (s : List Char) : String × List Char :=
  (String.ofList (s.takeWhile isWordChar), s.dropWhile isWordChar)

/-- Leaves the blocks and takes a line of its own: a directive or a mark between documents. -/
def leaveBlocks (s : Scanner) : Option Scanner :=
  ((s.closeBlocks fun _ => true).dropKey).map (·.allowKey false)

def isUriChar (verbatim : Bool) (c : Char) : Bool :=
  isWordChar c || ";/?:@&=+$.!~*'()%".toList.contains c || (verbatim && ",[]".toList.contains c)

def octet? : List Char → Option Nat
  | '%' :: a :: b :: _ => do return 16 * (← Number.hexValue? a) + (← Number.hexValue? b)
  | _ => none

/-- The count of octets of a character whose first octet is given. -/
def octetCount? (n : Nat) : Option Nat :=
  if n < 0x80 then some 1
  else if n / 0x20 = 6 then some 2
  else if n / 0x10 = 0xE then some 3
  else if n / 8 = 0x1E then some 4
  else none

/-- The character behind percent signs with two hexadecimal digits each. -/
def readOctets (s : List Char) : Option (Char × Nat) := do
  let first ← octet? s
  let count ← octetCount? first
  let others ← (List.range (count - 1)).mapM fun i => octet? (s.drop (3 * (i + 1)))
  if others.all fun n => n / 0x40 = 2 then
    let lead := if count = 1 then first else first % Number.twos (7 - count)
    some (Char.ofNat (others.foldl (fun acc n => 64 * acc + n % 64) lead), 3 * count)
  else none

/-- The characters of a tag, with their escapes resolved. -/
def readUri (verbatim : Bool) (out : List Char) (s : List Char) : Option (List Char × List Char) :=
  match s with
  | [] => some (out.reverse, [])
  | c :: r =>
      if c = '%' then
        match readOctets (c :: r) with
        | some (x, n) => readUri verbatim (x :: out) (r.drop (n - 1))
        | none => none
      else if isUriChar verbatim c then readUri verbatim (c :: out) r
      else some (out.reverse, c :: r)
termination_by s.length

/-- A handle: an exclamation mark, and a word between it and a second one if there is one. -/
def readHandle : List Char → Option (List Char × List Char)
  | '!' :: s =>
      let word := s.takeWhile isWordChar
      match s.dropWhile isWordChar with
      | '!' :: r => some ('!' :: word ++ ['!'], r)
      | r => some ('!' :: word, r)
  | _ => none

/-- A tag: verbatim between angles, after a handle, or after a lone exclamation mark. -/
def readTag (s : List Char) : Option (Token × List Char) :=
  match s with
  | '!' :: '<' :: s => do
      let (uri, s) ← readUri true [] s
      match uri, s with
      | _ :: _, '>' :: s => some (.tag "" (String.ofList uri), s)
      | _, _ => none
  | _ => do
      let (name, r) ← readHandle s
      if 1 < name.length && name.getLast? == some '!' then
        let (uri, r) ← readUri false [] r
        if uri.isEmpty then none else some (.tag (String.ofList name) (String.ofList uri), r)
      else
        let (uri, r) ← readUri false [] r
        let word := name.drop 1 ++ uri
        if word.isEmpty then some (.tag "" "!", r) else some (.tag "!" (String.ofList word), r)

/-- The number of a version, of nine digits at most. -/
def readVersionNumber (s : List Char) : Option (Nat × List Char) :=
  let digits := s.takeWhile Number.isDigit
  if digits.length ≤ 9 then
    (Number.natural? digits).map fun n => (n, s.dropWhile Number.isDigit)
  else none

/-- A directive after its percent sign, with the end of its line. -/
def readDirective (s : List Char) : Option (Token × List Char) := do
  let (name, s) := takeWord s
  if !startsGap s then none
  let s := s.dropWhile isBlank
  let (token, s) ← match name with
    | "YAML" => do
        let (major, s) ← readVersionNumber s
        match s with
        | '.' :: s =>
            let (minor, s) ← readVersionNumber s
            some (Token.version major minor, s)
        | _ => none
    | "TAG" => do
        let (handle, s) ← readHandle s
        if handle != ['!'] && (handle.length < 2 || handle.getLast? != some '!') then none
        match s with
        | c :: _ => if !isBlank c then none
        | [] => none
        let (lead, s) ← readUri true [] (s.dropWhile isBlank)
        if lead.isEmpty || !startsGap s then none
        some (Token.handle (String.ofList handle) (String.ofList lead), s)
    | _ => none
  some (token, ← readLineEnd s)

/-- The name of an anchor or an alias after its sign. -/
def readName (s : List Char) : Option (String × List Char) :=
  let (name, rest) := takeWord s
  if !name.isEmpty && (startsGap rest || "?:,]\x7d%@\u0060".toList.contains (rest.headD ' ')) then
    some (name, rest)
  else none

/-- Emits a token of one character. -/
def indicator (s : Scanner) (t : Token) : Scanner :=
  { s with cursor := s.cursor.skip 1, tokens := s.tokens.push t }

def openFlow (s : Scanner) (t : Token) : Option Scanner := do
  let s ← s.saveKey
  some ({ s with flowKeys := none :: s.flowKeys, keyAllowed := true }.indicator t)

def closeFlow (s : Scanner) (t : Token) : Option Scanner := do
  let s ← s.dropKey
  some ({ s with flowKeys := s.flowKeys.drop 1, keyAllowed := false }.indicator t)

/-- Opens a block at the place at hand, where one may begin. -/
def openBlockHere (s : Scanner) (t : Token) : Option Scanner :=
  if s.inFlow then some s
  else if s.keyAllowed then some (s.openBlock s.cursor.column s.tokens.size t)
  else none

def entry (s : Scanner) : Option Scanner := do
  let s ← (← s.openBlockHere .blockSequenceStart).dropKey
  some ((s.allowKey true).indicator .blockEntry)

def explicitKey (s : Scanner) : Option Scanner := do
  let s ← (← s.openBlockHere .blockMappingStart).dropKey
  some ((s.allowKey !s.inFlow).indicator .key)

/-- A colon makes a key of what began at the possible key. -/
def value (s : Scanner) : Option Scanner :=
  match s.possibleKey with
  | some k =>
      let s := { s with tokens := s.tokens.insertIdxIfInBounds k.position .key }
      let s := s.openBlock k.column k.position .blockMappingStart
      some (((s.setKey none).allowKey false).indicator .value)
  | none => do
      let s ← s.openBlockHere .blockMappingStart
      some ((s.allowKey !s.inFlow).indicator .value)

def quoted (s : Scanner) (single : Bool) (r : List Char) : Option Scanner := do
  let s ← s.saveKey
  let (text, rest) ← readQuoted single [] r
  some (((s.moveTo rest).allowKey false).emit (.scalar (String.ofList text) false))

def block (s : Scanner) (literal : Bool) (r : List Char) : Option Scanner := do
  let s ← s.dropKey
  let (text, rest) ← readBlock literal s.base r
  some (((s.moveTo rest).allowKey true).emit (.scalar (String.ofList text) false))

def plain (s : Scanner) : Option Scanner := do
  let s ← s.saveKey
  let p ← readPlain s.inFlow s.base [] {} s.cursor.rest
  some (((s.moveTo p.rest).allowKey p.broken).emit (.scalar (String.ofList p.text) true))

/-- An anchor, an alias or a tag, any of which may begin a key. -/
def property (s : Scanner) (read : Option (Token × List Char)) : Option Scanner := do
  let s ← s.saveKey
  let (token, rest) ← read
  some (((s.moveTo rest).allowKey false).emit token)

def documentMark (s : Scanner) (t : Token) : Option Scanner :=
  s.leaveBlocks.map fun s => { s with cursor := s.cursor.skip 3 }.emit t

def directive (s : Scanner) (r : List Char) : Option Scanner := do
  let s ← s.leaveBlocks
  let (token, rest) ← readDirective r
  some ((s.moveTo rest).emit token)

/-- Whether a plain scalar can begin with a character before `r`. -/
def startsPlain (inFlow : Bool) (c : Char) (r : List Char) : Bool :=
  !("-?:,[]\x7b\x7d#&*!|>'\"%@\u0060".toList.contains c || isGap c) ||
    (c == '-' && !(r.head?.any isBlank)) ||
    (!inFlow && (c == '?' || c == ':') && !startsGap r)

/-- The next token, of which `c` is the first character. -/
def token (s : Scanner) (c : Char) (r : List Char) : Option Scanner :=
  let lineStart := s.cursor.column = 0
  if lineStart && c = '%' then s.directive r
  else if lineStart && startsDocumentMark (c :: r) then
    s.documentMark (if c = '-' then .documentStart else .documentEnd)
  else if c = '[' then s.openFlow .flowSequenceStart
  else if c = '\x7b' then s.openFlow .flowMappingStart
  else if c = ']' then s.closeFlow .flowSequenceEnd
  else if c = '\x7d' then s.closeFlow .flowMappingEnd
  else if c = ',' then s.dropKey.map fun s => (s.allowKey true).indicator .flowEntry
  else if c = '-' && startsGap r then s.entry
  else if c = '?' && (s.inFlow || startsGap r) then s.explicitKey
  else if c = ':' && (s.inFlow || startsGap r) then s.value
  else if c = '*' then s.property ((readName r).map fun (name, rest) => (.alias name, rest))
  else if c = '&' then s.property ((readName r).map fun (name, rest) => (.anchor name, rest))
  else if c = '!' then
    s.property ((readTag (c :: r)).filter fun (_, rest) =>
      startsGap rest || (s.inFlow && rest.head? == some ','))
  else if c = '|' && !s.inFlow then s.block true r
  else if c = '>' && !s.inFlow then s.block false r
  else if c = '\'' then s.quoted true r
  else if c = '"' then s.quoted false r
  else if startsPlain s.inFlow c r then s.plain
  else none

/-- All tokens from the cursor on. Each takes at least one character. -/
def finish (s : Scanner) : Option (Array Token) :=
  match (s.skipGap).dropStaleKeys with
  | none => none
  | some t =>
      match t.cursor.rest with
      | [] => ((t.closeBlocks fun _ => true).dropKey).map Scanner.tokens
      | c :: r =>
          match (t.closeBlocks (t.cursor.column < ·)).token c r with
          | none => none
          | some next =>
              if next.cursor.rest.length < s.cursor.rest.length then next.finish else none
termination_by s.cursor.rest.length

end Scanner

/-- The tokens of a text that holds nothing but printable characters. -/
def Token.ofText? (text : String) : Option (List Token) :=
  let chars := text.toList
  if chars.all isPrintable then
    (Scanner.finish { cursor := { rest := chars } }).map Array.toList
  else none

end ScreenActions.Yaml
