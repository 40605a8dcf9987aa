import ScreenActions.FieldPath

/-! Reading and writing by path in whatever holds fields under names. -/

namespace ScreenActions

/-- A holder of fields under names. -/
class FieldStore (σ : Type) where
  lookup : σ → String → Option Value
  /-- Write a field where plain writes go. -/
  store : σ → String → Value → σ
  /-- Write a field where `lookup` finds it; nothing happens when it finds none. -/
  replace : σ → String → Value → σ

instance : FieldStore ValueMap where
  lookup m key := Keyed.get? m key
  store m key v := Keyed.insert key v m
  replace m key v := if Keyed.contains m key then Keyed.insert key v m else m

namespace FieldPath

variable {σ : Type} [FieldStore σ]

/-- The value at a path. -/
def get? (p : FieldPath) (s : σ) : Option Value :=
  p.root?.bind fun (root, rest) => (FieldStore.lookup s root).bind (·.get? rest)

/-- The value at a path, which may end in a message of a bundle map. -/
def getValue? (p : FieldPath) (heap : BundleHeap) (s : σ) : Option Value :=
  p.root?.bind fun (root, rest) => (FieldStore.lookup s root).bind (·.resolve? heap rest)

/-- The store with a value at a path, and whether writing succeeded. A root that is missing or null
becomes a container first. -/
def put (p : FieldPath) (s : σ) (v : Value) : σ × Except PathError Unit :=
  match p.root? with
  | none => (s, .error .emptyPath)
  | some (root, []) => (FieldStore.store s root v, .ok ())
  | some (root, seg :: rest) =>
      let found := FieldStore.lookup s root
      let s := if found.all Value.isNull then
        FieldStore.store s root (Value.emptyContainer seg) else s
      match FieldStore.lookup s root with
      | none => (s, .error .emptyPath)
      | some target =>
          let (target, result) := Value.put p.text v (seg :: rest) target
          (FieldStore.replace s root target, result)

end FieldPath
end ScreenActions
