import ScreenActions.Proofs.PathLens
import ScreenActions.Proofs.PathSpelling

/-!
Appending to the list at a path. The list is made if nothing or null is there, and each further
value goes after those that it has.
-/

namespace ScreenActions

open FieldStore (lookup)
open Text

namespace Value

/-- The items that an appended one comes after: those of a list, and none in place of null or if
there is nothing. -/
def itemsIn? : Option Value → Option (List Value)
  | none => some []
  | some .null => some []
  | some (.list items) => some items
  | some _ => none

variable {path : String} {segs rest : List PathSegment} {seg : PathSegment} {v x : Value}
  {items : List Value}

theorem itemsIn?_get?_getD (o : Option Value) (segs : List PathSegment) :
    itemsIn? ((o.getD .null).get? segs) = itemsIn? (o.bind (·.get? segs)) := by
  cases o with
  | none => cases segs <;> rfl
  | some t => rfl

theorem itemsIn?_get?_entered (v : Value) (seg : PathSegment) (rest : List PathSegment) :
    itemsIn? ((v.entered seg).get? rest) = itemsIn? (v.get? (seg :: rest)) := by
  rw [entered, itemsIn?_get?_getD, ← descends_get?.read_opened v seg (List.cons_ne_nil _ _)]
  rfl

/-- What is appended at the end of a path is the last item of the list there. -/
theorem get?_put_append (happend : .append ∉ segs)
    (h : (put path x (segs ++ [.append]) v).2 = .ok ()) :
    ∃ items, itemsIn? (v.get? segs) = some items ∧
      (put path x (segs ++ [.append]) v).1.get? segs = some (.list (items ++ [x])) := by
  induction segs generalizing v with
  | nil =>
    cases v with
    | null => exact ⟨[], rfl, rfl⟩
    | list items => exact ⟨items, rfl, rfl⟩
    | _ => cases h
  | cons seg rest ih =>
    obtain ⟨hseg, hrest⟩ := List.ne_and_not_mem_of_not_mem_cons happend
    rw [List.cons_append] at h ⊢
    rcases put_cons path x v seg (rest ++ [.append]) with ⟨v', hset, hput⟩ | ⟨-, e, hput⟩
    · rw [hput] at h ⊢
      obtain ⟨items, hitems, hget⟩ := ih hrest h
      refine ⟨items, (itemsIn?_get?_entered v seg rest).symm.trans hitems, ?_⟩
      rw [get?, member?_of_setMember? (Ne.symm hseg) hset]
      exact hget
    · rw [hput] at h
      cases h

theorem put_append_of_list (path : String) (x : Value) (h : v.get? segs = some (.list items)) :
    (put path x (segs ++ [.append]) v).2 = .ok () := by
  induction segs generalizing v with
  | nil =>
    obtain rfl := Option.some.inj h
    rfl
  | cons seg rest ih =>
    obtain ⟨child, hmember, hchild⟩ := Option.bind_eq_some_iff.mp h
    obtain ⟨hopened, hentered⟩ := entered_of_member? hmember
    obtain ⟨w, hw⟩ := Option.isSome_iff_exists.mp (setMember?_isSome_of_member? hmember
      (put path x (rest ++ [.append]) (v.entered seg)).1)
    have hset : (v.opened seg).setMember? seg (put path x (rest ++ [.append]) (v.entered seg)).1 =
        some w := by rw [hopened, hw]
    rw [List.cons_append, put_cons_of_setMember? hset, hentered]
    exact ih hchild

end Value

namespace FieldPath

variable {σ : Type} [FieldStore σ]

/-- The path that appends to the list at the path. -/
def appending (p : FieldPath) : FieldPath := ⟨p.text ++ "[]", p.segments ++ [.append]⟩

/-- Values put one after the other, and whether each of them could be. -/
def putAll (p : FieldPath) (s : σ) : List Value → σ × List (Except PathError Unit)
  | [] => (s, [])
  | v :: vs =>
      let (s, result) := p.put s v
      let (s, results) := putAll p s vs
      (s, result :: results)

theorem putAll_cons (p : FieldPath) (s : σ) (v : Value) (vs : List Value) :
    p.putAll s (v :: vs) =
      ((p.putAll (p.put s v).1 vs).1, (p.put s v).2 :: (p.putAll (p.put s v).1 vs).2) := rfl

/-- It is the path of the text with a pair of brackets after it. -/
theorem ofText_append_brackets {text : String} (h : BracketsClosed (ofText text).text.toList) :
    ofText ((ofText text).text ++ "[]") = (ofText text).appending := by
  have hname : (ofText text).text.toList = trim text.toList := String.toList_ofList
  have hbrackets : ((ofText text).text ++ "[]").toList = trim text.toList ++ ['[', ']'] := by
    rw [String.toList_append, hname]
    rfl
  have htrim : trim (trim text.toList ++ ['[', ']']) = trim text.toList ++ ['[', ']'] := by
    apply trim_eq_self
    · intro c hc
      rw [List.head?_append] at hc
      cases hhead : (trim text.toList).head? with
      | none =>
        rw [hhead] at hc
        exact Option.some.inj hc ▸ by decide
      | some d =>
        rw [hhead] at hc
        exact Option.some.inj hc ▸ head_trim text.toList d hhead
    · intro c hc
      rw [List.getLast?_append] at hc
      exact Option.some.inj hc ▸ by decide
  rw [hname] at h
  rw [ofText]
  simp only [hbrackets, htrim, readKey_append_brackets h]
  rw [← hbrackets, String.ofList_toList]
  rfl

theorem root?_appending (p : FieldPath) :
    p.appending.root? = p.root?.map fun (root, rest) => (root, rest ++ [.append]) := by
  unfold root? appending
  rcases p.segments with _ | ⟨seg, rest⟩
  · rfl
  · cases seg <;> rfl

variable [LawfulFieldStore σ] {p : FieldPath} {s : σ} {root : String} {rest : List PathSegment}
  {v : Value} {items : List Value}

theorem put_appending (h : p.root? = some (root, rest)) (s : σ) (v : Value) :
    p.appending.put s v =
      (place s root
        (Value.put p.appending.text v (rest ++ [.append]) ((lookup s root).getD .null)).1,
      (Value.put p.appending.text v (rest ++ [.append]) ((lookup s root).getD .null)).2) := by
  have hroot : p.appending.root? = some (root, rest ++ [.append]) := by rw [root?_appending, h]; rfl
  obtain ⟨seg, segs, hsegs⟩ := List.exists_cons_of_ne_nil
    (List.append_ne_nil_of_right_ne_nil rest (List.cons_ne_nil PathSegment.append []))
  rw [hsegs] at hroot ⊢
  exact put_of_root_cons hroot s v

/-- What could be appended is the last item of the list at the path. -/
theorem get?_put_appending (happend : .append ∉ p.segments)
    (h : (p.appending.put s v).2 = .ok ()) :
    ∃ items, Value.itemsIn? (p.get? s) = some items ∧
      p.get? (p.appending.put s v).1 = some (.list (items ++ [v])) := by
  cases hroot : p.root? with
  | none =>
    rw [put, root?_appending, hroot] at h
    cases h
  | some found =>
    obtain ⟨root, rest⟩ := found
    rw [segments_of_root hroot] at happend
    rw [put_appending hroot] at h ⊢
    obtain ⟨items, hitems, hget⟩ :=
      Value.get?_put_append (List.not_mem_of_not_mem_cons happend) h
    rw [Value.itemsIn?_get?_getD] at hitems
    refine ⟨items, by simpa [get?, hroot] using hitems, ?_⟩
    rw [get?, hroot]
    simpa [lookup_place] using hget

theorem put_appending_of_list (v : Value) (h : p.get? s = some (.list items)) :
    (p.appending.put s v).2 = .ok () := by
  obtain ⟨root, rest, t, hroot, ht, hget⟩ := exists_of_get?_eq_some h
  rw [put_appending hroot, ht]
  exact Value.put_append_of_list _ v hget

/-- Values are appended to a list one after the other. -/
theorem get?_putAll_appending (happend : .append ∉ p.segments)
    (h : p.get? s = some (.list items)) (vs : List Value) :
    (p.appending.putAll s vs).2 = vs.map (fun _ => .ok ()) ∧
      p.get? (p.appending.putAll s vs).1 = some (.list (items ++ vs)) := by
  induction vs generalizing s items with
  | nil => exact ⟨rfl, by rwa [List.append_nil]⟩
  | cons v vs ih =>
    have hok := put_appending_of_list v h
    obtain ⟨items', hitems, hget⟩ := get?_put_appending happend hok
    rw [h] at hitems
    obtain rfl := Option.some.inj hitems
    obtain ⟨hresults, hall⟩ := ih hget
    rw [putAll_cons, hok, hresults, List.append_cons items v vs]
    exact ⟨rfl, hall⟩

/-- If there is a list at the path, or nothing but null, and a first value could be appended, then
so could all that follow it, and they stand in their order after the items from before. -/
def AppendsInOrder (p : FieldPath) (s : σ) : Prop :=
  ∀ items v vs, Value.itemsIn? (p.get? s) = some items → (p.appending.put s v).2 = .ok () →
    (p.appending.putAll s (v :: vs)).2 = (v :: vs).map (fun _ => .ok ()) ∧
      p.get? (p.appending.putAll s (v :: vs)).1 = some (.list (items ++ v :: vs))

theorem appendsInOrder (happend : .append ∉ p.segments) (s : σ) : p.AppendsInOrder s := by
  intro items v vs hitems hok
  obtain ⟨items', hitems', hget⟩ := get?_put_appending happend hok
  obtain rfl : items = items' := Option.some.inj (hitems.symm.trans hitems')
  obtain ⟨hresults, hall⟩ := get?_putAll_appending happend hget vs
  rw [putAll_cons, hok, hresults, List.append_cons items v vs]
  exact ⟨rfl, hall⟩

/-- Values that are appended at a path, in maps and in contexts, are not lost. The path to append at
is the text of the path and a pair of brackets, as long as the text closes its own brackets. -/
theorem appendsInOrder_map_and_context {p : FieldPath} (happend : .append ∉ p.segments) :
    ((∀ m : ValueMap, p.AppendsInOrder m) ∧ ∀ c : Context, p.AppendsInOrder c) ∧
    ∀ text, p = ofText text → BracketsClosed p.text.toList →
      ofText (p.text ++ "[]") = p.appending := by
  refine ⟨⟨appendsInOrder happend, appendsInOrder happend⟩, ?_⟩
  rintro text rfl hclosed
  exact ofText_append_brackets hclosed

theorem appendsInOrder_below_top :
    let p := ofText "order.items"
    let c : Context := { below := [[("order", .map [("items", .list [.text "WG-1111"])])]] }
    PathSegment.append ∉ p.segments ∧ (p.appending.put c .null).2 = .ok () ∧
      ofText "order.items[]" = p.appending ∧
      p.get? (p.appending.putAll c [.null, .text "WG-2222"]).1 =
        some (.list [.text "WG-1111", .null, .text "WG-2222"]) := by
  intro p c
  have happend : PathSegment.append ∉ p.segments := by decide
  have hok : (p.appending.put c .null).2 = .ok () := rfl
  obtain ⟨⟨-, happends⟩, -⟩ := appendsInOrder_map_and_context happend
  exact ⟨happend, hok, by decide, (happends c [.text "WG-1111"] .null [.text "WG-2222"] rfl hok).2⟩

/-- An open bracket takes in the pair that follows it. -/
example : (ofText "order[0").segments = [.key "order[0"] ∧
    (ofText "order[0[]").segments = [.key "order", .key "0["] := by decide

end FieldPath
end ScreenActions
