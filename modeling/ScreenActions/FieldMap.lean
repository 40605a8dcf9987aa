import ScreenActions.Context
import ScreenActions.Definition.Element
import ScreenActions.Template

/-! Mappings of fields into the input of a service or a query. -/

namespace ScreenActions

inductive FieldMapSource
  | field (path : FieldPath)
  | value (template : Template)
  deriving Repr

structure FieldMap where
  target : FieldPath
  source : FieldMapSource
  deriving Repr

namespace FieldMap

/-- A value counts before a field to read from; with neither, the field of the same name is
read. -/
def ofElement (e : Element) : Except DefinitionError FieldMap := do
  let name ← e.requireAttr "field-name"
  let source :=
    if e.hasAttr "value" then .value (Template.ofText (e.attr "value"))
    else if e.hasAttr "from-field" then .field (FieldPath.ofText (e.attr "from-field"))
    else .field (FieldPath.ofText name)
  return ⟨FieldPath.ofText name, source⟩

/-- The mappings among the children of an element, in their order. -/
def ofChildren (e : Element) : Except DefinitionError (List FieldMap) :=
  (e.childrenNamed "field-map").mapM ofElement

/-- The value to be written; a field that is missing gives null. -/
def resolve (m : FieldMap) (heap : BundleHeap) (c : Context) : Value :=
  match m.source with
  | .field p => (p.getValue? heap c).getD .null
  | .value t => t.expand heap c

/-- Each value written at its target in turn, up to the first failure. -/
def expandAll (maps : List FieldMap) (heap : BundleHeap) (c : Context) (target : ValueMap) :
    ValueMap × Except PathError Unit :=
  match maps with
  | [] => (target, .ok ())
  | m :: rest =>
      match m.target.put target (m.resolve heap c) with
      | (target, .ok ()) => expandAll rest heap c target
      | failed => failed

end FieldMap
end ScreenActions
