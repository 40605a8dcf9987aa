import ScreenActions.FieldStore
import ScreenActions.Value.Text

/-! Text templates with placeholders for fields. -/

namespace ScreenActions

open Text

/-- A piece of a template. The name in a nested placeholder is a template itself. -/
inductive TemplatePiece
  | text (s : String)
  | field (path : FieldPath)
  | nested (pieces : List TemplatePiece)
  deriving Repr

namespace TemplatePiece

/-- The text up to the brace that closes a placeholder, and what follows the brace; `depth` counts
the placeholders opened inside. -/
def cutClose (depth : Nat) : List Char → Option (List Char × List Char)
  | [] => none
  | '$' :: '{' :: s => (cutClose (depth + 1) s).map fun (a, b) => ('$' :: '{' :: a, b)
  | c :: s =>
      if c = '}' then
        match depth with
        | 0 => some ([], s)
        | depth + 1 => (cutClose depth s).map fun (a, b) => (c :: a, b)
      else (cutClose depth s).map fun (a, b) => (c :: a, b)

theorem eq_append_of_cutClose {depth : Nat} {s inner rest : List Char}
    (h : cutClose depth s = some (inner, rest)) : s = inner ++ '}' :: rest := by
  fun_induction cutClose depth s generalizing inner rest with
  | case1 => cases h
  | case2 depth s ih =>
      obtain ⟨⟨a, b⟩, hab, h⟩ := Option.map_eq_some_iff.1 h
      obtain ⟨rfl, rfl⟩ := Prod.mk.inj h
      simp only [List.cons_append, ih hab]
  | case3 s =>
      obtain ⟨rfl, rfl⟩ := Prod.mk.inj (Option.some.inj h)
      rfl
  | case4 s _ depth ih =>
      obtain ⟨⟨a, b⟩, hab, h⟩ := Option.map_eq_some_iff.1 h
      obtain ⟨rfl, rfl⟩ := Prod.mk.inj h
      simp only [List.cons_append, ih hab]
  | case5 depth c s _ _ ih =>
      obtain ⟨⟨a, b⟩, hab, h⟩ := Option.map_eq_some_iff.1 h
      obtain ⟨rfl, rfl⟩ := Prod.mk.inj h
      simp only [List.cons_append, ih hab]

theorem length_of_cutClose {depth : Nat} {s inner rest : List Char}
    (h : cutClose depth s = some (inner, rest)) : inner.length + rest.length + 1 = s.length := by
  rw [eq_append_of_cutClose h, List.length_append, List.length_cons, Nat.add_assoc]

/-- The text gathered so far, from last to first; an empty one is no piece. -/
def flush (text : List Char) : List TemplatePiece :=
  if text.isEmpty then [] else [.text (String.ofList text.reverse)]

/-- Pieces of a template that continues the text gathered so far. A backslash before an opening
placeholder makes it text; one that is not closed makes all that follows text. -/
def read (text : List Char) (s : List Char) : List TemplatePiece :=
  match s with
  | [] => flush text
  | '\\' :: '$' :: '{' :: s => read ('{' :: '$' :: text) s
  | '$' :: '{' :: s =>
      match h : cutClose 0 s with
      | none => flush (s.reverse ++ '{' :: '$' :: text)
      | some (inner, rest) =>
          have := length_of_cutClose h
          flush text ++
            (if occursIn ['$', '{'] inner then .nested (read [] inner)
              else .field (FieldPath.ofText (String.ofList inner))) :: read [] rest
  | c :: s => read (c :: text) s
termination_by s.length
decreasing_by all_goals simp_wf <;> omega

variable {σ : Type} [FieldStore σ]

def valueText (heap : BundleHeap) : Option Value → String
  | some v => v.display heap
  | none => ""

mutual
/-- The text of a piece: a field that is missing gives nothing. -/
def expand (heap : BundleHeap) (s : σ) : TemplatePiece → String
  | .text t => t
  | .field p => valueText heap (p.getValue? heap s)
  | .nested pieces =>
      valueText heap ((FieldPath.ofText (expandAll heap s pieces)).getValue? heap s)

def expandAll (heap : BundleHeap) (s : σ) : List TemplatePiece → String
  | [] => ""
  | p :: ps => expand heap s p ++ expandAll heap s ps
end

end TemplatePiece

/-- A template as it is written, and its pieces. -/
structure Template where
  source : String
  pieces : List TemplatePiece
  deriving Repr

namespace Template

variable {σ : Type} [FieldStore σ]

def ofText (source : String) : Template := ⟨source, TemplatePiece.read [] source.toList⟩

def isEmpty (t : Template) : Bool := t.source.isEmpty

def expandText (t : Template) (heap : BundleHeap) (s : σ) : String :=
  TemplatePiece.expandAll heap s t.pieces

/-- The value of a template: one placeholder alone gives the field itself or null, anything else a
text. -/
def expand (t : Template) (heap : BundleHeap) (s : σ) : Value :=
  match t.pieces with
  | [.field p] => (p.getValue? heap s).getD .null
  | [.nested pieces] =>
      ((FieldPath.ofText (TemplatePiece.expandAll heap s pieces)).getValue? heap s).getD .null
  | _ => .text (t.expandText heap s)

/-- The expansion of a text that is read for this purpose only. -/
def expandOnce (source : String) (heap : BundleHeap) (s : σ) : String :=
  if occursIn ['$', '{'] source.toList then (ofText source).expandText heap s else source

end Template
end ScreenActions
