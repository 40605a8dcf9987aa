import ScreenActions.Keyed
import ScreenActions.Yaml.Token

/-! Trees of YAML documents. -/

namespace ScreenActions.Yaml

inductive Node
  | scalar (text : String) (plain : Bool) (tag : Option String)
  | list (items : List Node)
  | record (members : List (Node × Node))
  /-- The node with a numbered anchor. -/
  | alias (anchor : Nat)
  deriving Inhabited, Repr

/-- What is written where nothing is. -/
def Node.empty : Node := .scalar "" true none

/-- What is left of the tokens of a document, and what its nodes have declared. -/
structure Reader where
  tokens : List Token
  /-- Handles and what they stand for. -/
  handles : Keyed String
  /-- The numbers of the anchors by their names. -/
  anchors : Keyed Nat := []
  /-- The anchored nodes by their numbers, the latest first. -/
  nodes : List (Nat × Node) := []

/-- A step of reading, which may fail. -/
abbrev Reading := StateT Reader Option

namespace Reading

def peek : Reading (Option Token) := return (← get).tokens.head?

def skip : Reading Unit := modify fun r => { r with tokens := r.tokens.drop 1 }

/-- Takes the token at hand if it is the one given. -/
def accept (t : Token) : Reading Bool := do
  if (← peek) == some t then
    skip
    return true
  else return false

def expect (t : Token) : Reading Unit := do
  if !(← accept t) then failure

/-- Whether one of the tokens given is at hand. -/
def atAny (ts : List Token) : Reading Bool := return (← peek).any ts.contains

/-- A number for an anchor: the count of the names declared before. -/
def declare (name : String) : Reading Nat := do
  let r ← get
  let n := r.anchors.length
  set { r with anchors := Keyed.insert name n r.anchors }
  return n

/-- The anchor and the tag before a node, in either order. -/
def properties : Reading (Option String × Option Token) := do
  match ← peek with
  | some (.anchor name) =>
      skip
      match ← peek with
      | some (.tag h t) =>
          skip
          return (some name, some (.tag h t))
      | _ => return (some name, none)
  | some (.tag h t) =>
      skip
      match ← peek with
      | some (.anchor name) =>
          skip
          return (some name, some (.tag h t))
      | _ => return (none, some (.tag h t))
  | _ => return (none, none)

/-- A tag in full; its handle has to be known. -/
def resolveTag : Option Token → Reading (Option String)
  | some (.tag "" rest) => return some rest
  | some (.tag h rest) => do
      match Keyed.get? (← get).handles h with
      | some lead => return some (lead ++ rest)
      | none => failure
  | _ => return none

/-- The tag of a scalar; a lone exclamation mark says nothing. -/
def scalarTag (tag : Option String) : Option String := tag.filter fun t => !t.isEmpty && t != "!"

mutual
/-- A node inside (`block`) or outside blocks. Where `inline` is set, the entries of a list may
stand in the column of the key before them. -/
def node (fuel : Nat) (block inline : Bool) : Reading Node :=
  match fuel with
  | 0 => failure
  | fuel + 1 => do
      if let some (.alias name) ← peek then
        skip
        match Keyed.get? (← get).anchors name with
        | some n => return .alias n
        | none => failure
      else
        let (name, tag) ← properties
        let tag ← resolveTag tag
        let number ← match name with
          | some name => some <$> declare name
          | none => pure none
        let content ← content fuel block inline (number.isSome || tag.isSome) tag
        if let some n := number then
          modify fun r => { r with nodes := (n, content) :: r.nodes }
        return content

/-- A node after its properties; one that has some may be empty. -/
def content (fuel : Nat) (block inline optional : Bool) (tag : Option String) : Reading Node :=
  match fuel with
  | 0 => failure
  | fuel + 1 => do
      match ← peek with
      | some .blockEntry =>
          if inline then return .list (← inlineItems fuel)
          else if optional then return .scalar "" true (scalarTag tag)
          else failure
      | some (.scalar text plain) =>
          skip
          return .scalar text plain (scalarTag tag)
      | some .flowSequenceStart =>
          skip
          return .list (← flowItems fuel true)
      | some .flowMappingStart =>
          skip
          return .record (← flowMembers fuel true)
      | some .blockSequenceStart =>
          if block then
            skip
            return .list (← blockItems fuel)
          else if optional then return .scalar "" true (scalarTag tag)
          else failure
      | some .blockMappingStart =>
          if block then
            skip
            return .record (← blockMembers fuel)
          else if optional then return .scalar "" true (scalarTag tag)
          else failure
      | _ => if optional then return .scalar "" true (scalarTag tag) else failure

/-- A node, or an empty one where one of the tokens given follows. -/
def optionalNode (fuel : Nat) (block inline : Bool) (ends : List Token) : Reading Node :=
  match fuel with
  | 0 => failure
  | fuel + 1 => do
      if ← atAny ends then return .empty else node fuel block inline

/-- The items of a block list up to its end. -/
def blockItems (fuel : Nat) : Reading (List Node) :=
  match fuel with
  | 0 => failure
  | fuel + 1 => do
      if ← accept .blockEntry then
        let item ← optionalNode fuel true false [.blockEntry, .blockEnd]
        return item :: (← blockItems fuel)
      else
        expect .blockEnd
        return []

/-- The items of a list in the column of a key. -/
def inlineItems (fuel : Nat) : Reading (List Node) :=
  match fuel with
  | 0 => failure
  | fuel + 1 => do
      if ← accept .blockEntry then
        let item ← optionalNode fuel true false [.blockEntry, .key, .value, .blockEnd]
        return item :: (← inlineItems fuel)
      else return []

/-- The members of a block record up to its end. What a key or a value sign announces may be
missing. -/
def blockMembers (fuel : Nat) : Reading (List (Node × Node)) :=
  match fuel with
  | 0 => failure
  | fuel + 1 => do
      if ← accept .blockEnd then return []
      else
        let ends := [.key, .value, .blockEnd]
        expect .key
        let key ← optionalNode fuel true true ends
        let value ← if ← accept .value then optionalNode fuel true true ends else pure .empty
        return (key, value) :: (← blockMembers fuel)

/-- The items of a list in brackets. A key among them makes a record of one member. -/
def flowItems (fuel : Nat) (first : Bool) : Reading (List Node) :=
  match fuel with
  | 0 => failure
  | fuel + 1 => do
      if ← accept .flowSequenceEnd then return []
      else
        if !first then expect .flowEntry
        if ← accept .flowSequenceEnd then return []
        else
          let item ← if ← accept .key then do
              let ends := [.value, .flowEntry, .flowSequenceEnd]
              let key ← if ← atAny ends then do
                  skip
                  pure .empty
                else node fuel false false
              let value ← if ← accept .value then
                  optionalNode fuel false false [.flowEntry, .flowSequenceEnd]
                else pure .empty
              pure (.record [(key, value)])
            else node fuel false false
          return item :: (← flowItems fuel false)

/-- The members of a record in braces. A key or a value may be missing. -/
def flowMembers (fuel : Nat) (first : Bool) : Reading (List (Node × Node)) :=
  match fuel with
  | 0 => failure
  | fuel + 1 => do
      if ← accept .flowMappingEnd then return []
      else
        if !first then expect .flowEntry
        if ← accept .flowMappingEnd then return []
        else if ← accept .key then
          let key ← optionalNode fuel false false [.value, .flowEntry, .flowMappingEnd]
          let value ← if ← accept .value then
              optionalNode fuel false false [.flowEntry, .flowMappingEnd]
            else pure .empty
          return (key, value) :: (← flowMembers fuel false)
        else
          let key ← node fuel false false
          return (key, .empty) :: (← flowMembers fuel false)
end

/-- Directives before a document; `version` tells whether there was one for the version. -/
def directives (version : Bool) : List Token → Reading Unit
  | .version major minor :: rest => do
      if version || major != 1 || (minor != 1 && minor != 2) then failure
      skip
      directives true rest
  | .handle name lead :: rest => do
      let r ← get
      if Keyed.contains r.handles name then failure
      set { r with handles := Keyed.insert name lead r.handles }
      skip
      directives version rest
  | _ => return

/-- The handles of every document, unless it declares them itself. -/
def defaultHandles : Keyed String := [("!", "!"), ("!!", "tag:yaml.org,2002:")]

/-- The only document of a text. One that is not begun by a mark may be missing. -/
def document : Reading Node := do
  let tokens := (← get).tokens
  let fuel := 4 * tokens.length + 8
  let root ← match tokens with
    | [] => pure Node.empty
    | .version .. :: _ | .handle .. :: _ | .documentStart :: _ => do
        directives false tokens
        expect .documentStart
        modify fun r => { r with handles := Keyed.extend defaultHandles r.handles }
        match ← peek with
        | none | some .documentEnd => pure Node.empty
        | _ => node fuel true false
    | _ => do
        modify fun r => { r with handles := defaultHandles }
        node fuel true false
  if (← get).tokens.all (· == .documentEnd) then return root else failure

end Reading

/-- The document of a text and its anchored nodes. -/
def Node.ofText? (text : String) : Option (Node × List (Nat × Node)) := do
  let tokens ← Token.ofText? text
  let (root, r) ← Reading.document.run { tokens := tokens, handles := [] }
  return (root, r.nodes)

end ScreenActions.Yaml
