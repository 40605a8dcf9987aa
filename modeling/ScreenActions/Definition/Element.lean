import ScreenActions.Keyed
import ScreenActions.Number.Shortest
import ScreenActions.Definition.Document

/-! Elements of definitions: a tag, attributes and child elements. -/

namespace ScreenActions

inductive DefinitionError
  | unsupportedAction (tag : String)
  | unsupportedCondition (tag : String)
  | fromFieldAndValue (fromField value : String)
  | missingAttribute (tag name : String)
  | invalidAttribute (tag name value : String)
  | unreadable
  | malformedYaml
  | malformedJson
  deriving DecidableEq, Repr

def DefinitionError.message : DefinitionError → String
  | .unsupportedAction tag => "Action element not supported with name: " ++ tag
  | .unsupportedCondition tag => "Condition element not supported with name: " ++ tag
  | .fromFieldAndValue fromField value =>
      "Cannot specify a from-field [" ++ fromField ++ "] and a value [" ++ value ++
        "] on the set action in a screen widget"
  | .missingAttribute tag name =>
      "Missing required attribute [" ++ name ++ "] on <" ++ tag ++ ">"
  | .invalidAttribute tag name value =>
      "Invalid value [" ++ value ++ "] for attribute [" ++ name ++ "] on <" ++ tag ++ ">"
  | .unreadable => "Failed to read screen definition"
  | .malformedYaml => "Failed to parse screen definition YAML"
  | .malformedJson => "Failed to parse screen definition JSON"

structure Element where
  tag : String
  attributes : Keyed String := []
  children : List Element := []
  deriving Inhabited, Repr

namespace Element

/-- The value of an attribute, empty when it is absent. -/
def attr (e : Element) (name : String) : String := (Keyed.get? e.attributes name).getD ""

def hasAttr (e : Element) (name : String) : Bool := !(e.attr name).isEmpty

/-- The value of an attribute that is neither absent nor empty. -/
def requireAttr (e : Element) (name : String) : Except DefinitionError String :=
  let value := e.attr name
  if value.isEmpty then .error (.missingAttribute e.tag name) else .ok value

/-- An attribute `true` or `false`, or the default when it is absent or empty. -/
def boolAttr (e : Element) (name : String) (default : Bool) : Except DefinitionError Bool :=
  let value := e.attr name
  if value.isEmpty then .ok default
  else if value = "true" then .ok true
  else if value = "false" then .ok false
  else .error (.invalidAttribute e.tag name value)

def childrenNamed (e : Element) (tag : String) : List Element := e.children.filter (·.tag == tag)

def firstChild? (e : Element) (tag : String) : Option Element := e.children.find? (·.tag == tag)

/-- The text of an attribute value: a scalar that is not null. Integers of 64 bits are written as
such, larger ones as doubles. -/
def attributeText? : Scalar → Option String
  | .text s => some s
  | .bool b => some (if b then "true" else "false")
  | .int n =>
      some (String.ofList
        (if n ≤ Number.int64Max then Number.integerText n else (Binary64.ofInt n).text))
  | .float x => some (String.ofList x.text)
  | .null | .foreign => none

def attributes? (d : Document) : Option (Keyed String) :=
  d.entries?.bind fun entries =>
    (entries.mapM fun ((k, v) : String × Document) =>
      match v with
      | .scalar _ s _ => (attributeText? s).map fun t => (k, t)
      | _ => none).map Keyed.ofEntries

/-- An element whose children nest at most `depth` deep. -/
def ofDocumentWithin? (depth : Nat) (d : Document) : Option Element :=
  (d.fields? ["tag", "attributes", "children"]).bind fun fields =>
    match fields with
    | [some tag, attributes, children] => do
        let tag ← tag.text?
        let attributes ← match attributes with
          | some d => attributes? d
          | none => some []
        let children ← match children with
          | some d => d.items?.bind fun items =>
              match depth with
              | 0 => if items.isEmpty then some [] else none
              | depth + 1 => items.mapM (ofDocumentWithin? depth)
          | none => some []
        some ⟨tag, attributes, children⟩
    | _ => none

/-- A bound on nesting above that of any document that can be read. -/
def maxDepth : Nat := 128

def ofDocument? (d : Document) : Option Element := ofDocumentWithin? maxDepth d

end Element
end ScreenActions
