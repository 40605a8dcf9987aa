import Mathlib.Data.List.Forall2
import ScreenActions.Proofs.ContextViews

/-!
What a write that fails leaves behind. It may have made containers in place of null and nothing, and
then it fails at an index past the end of a list that it has just made. Nothing that can be read is
lost.
-/

namespace ScreenActions

open FieldStore (lookup store replace)

namespace Value

/-- A value that is neither null nor a container of others. -/
def isLeaf : Value → Bool
  | .null | .list _ | .map _ | .entity .. => false
  | _ => true

/-- What may stand in place of a value after a write that failed: the value itself or a container of
the same kind, and a list with no fewer items. -/
inductive Retains : Value → Value → Prop
  | same (v : Value) : Retains v v
  | list {items items' : List Value} (h : items.length ≤ items'.length) :
      Retains (.list items) (.list items')
  | map (entries entries' : List (String × Value)) : Retains (.map entries) (.map entries')
  | entity (name : String) (fields fields' : List (String × Value)) :
      Retains (.entity name fields) (.entity name fields')

variable {read : Value → List PathSegment → Option Value} {path : String} {new v v' x y : Value}
  {seg seg' : PathSegment} {segs segs' : List PathSegment} {e : PathError}

theorem Retains.eq_of_isLeaf (h : v.Retains v') (hv : v.isLeaf = true) : v' = v := by
  cases h with
  | same => rfl
  | list => cases hv
  | map => cases hv
  | entity => cases hv

theorem Retains.exists_list {items : List Value} (h : (Value.list items).Retains v') :
    ∃ items', v' = .list items' ∧ items.length ≤ items'.length := by
  cases h with
  | same => exact ⟨items, rfl, Nat.le_refl _⟩
  | list hlength => exact ⟨_, rfl, hlength⟩

theorem retains_of_setMember? (h : v.setMember? seg x = some v') : v.Retains v' := by
  obtain ⟨entries, k, rfl, -, rfl⟩ | ⟨name, fields, k, rfl, -, rfl⟩ |
    ⟨items, i, rfl, -, -, rfl⟩ | ⟨items, rfl, -, rfl⟩ := setMember?_cases h
  · exact .map _ _
  · exact .entity _ _ _
  · exact .list (by simp)
  · exact .list (by simp)

/-- A member stays where another one is put, or is the one that is put in place. -/
theorem member?_or_of_setMember? (h : v.setMember? seg x = some v') (hy : v.member? seg' = some y) :
    v'.member? seg' = some y ∨ seg' = seg ∧ v'.member? seg = some x := by
  by_cases happend : seg = .append
  · subst happend
    obtain ⟨_, _, -, hseg, -⟩ | ⟨_, _, _, -, hseg, -⟩ | ⟨_, _, -, hseg, -, -⟩ |
      ⟨items, rfl, -, rfl⟩ := setMember?_cases h
    · cases hseg
    · cases hseg
    · cases hseg
    · cases seg' with
      | index i =>
        left
        have hi : i < items.length := (List.getElem?_eq_some_iff.mp hy).1
        exact (List.getElem?_append_left hi).trans hy
      | key k => cases hy
      | append => cases hy
  · by_cases hseg : seg' = seg
    · exact .inr ⟨hseg, member?_of_setMember? happend h⟩
    · exact .inl ((member?_of_setMember?_of_ne happend (Ne.symm hseg) h).trans hy)

/-- Wherever a value other than null is read before a write that fails, it or what has taken in what
was made is read after it. -/
theorem read_put_of_error (hread : Descends read) (h : (put path new segs v).2 = .error e)
    (hx : read v segs' = some x) (hnull : x.isNull = false) :
    ∃ y, read (put path new segs v).1 segs' = some y ∧ x.Retains y := by
  induction segs generalizing v segs' with
  | nil => cases h
  | cons seg rest ih =>
    cases segs' with
    | nil =>
      obtain rfl : v = x := Option.some.inj ((hread.nil v).symm.trans hx)
      have hopened : v.opened seg = v := if_neg (by simp [hnull])
      refine ⟨_, hread.nil _, ?_⟩
      rcases put_cons path new v seg rest with ⟨v', hset, hput⟩ | ⟨-, _, hput⟩
      · rw [hput]
        exact retains_of_setMember? (hopened ▸ hset)
      · rw [hput, hopened]
        exact .same v
    | cons seg' rest' =>
      rw [← hread.read_opened v seg (List.cons_ne_nil _ _)] at hx
      rcases put_cons path new v seg rest with ⟨v', hset, hput⟩ | ⟨-, _, hput⟩
      · rw [hput] at h ⊢
        obtain ⟨hbundle, hbundle'⟩ := bundle?_of_setMember? hset
        rw [hread.cons hbundle] at hx
        obtain ⟨child, hmember, hchild⟩ := Option.bind_eq_some_iff.mp hx
        rw [hread.cons hbundle']
        rcases member?_or_of_setMember? hset hmember with hkept | ⟨rfl, hplaced⟩
        · exact ⟨x, by rw [hkept]; exact hchild, .same x⟩
        · rw [hplaced]
          have hentered : v.entered seg' = child := by rw [entered, hmember]; rfl
          exact ih h (hentered ▸ hchild)
      · exact ⟨x, by rw [hput]; exact hx, .same x⟩

/-- Writing into null makes a container for each segment, which takes whatever the segment is but an
index other than the first. -/
theorem indexOutOfBounds_of_put_null (h : (put path new segs .null).2 = .error e) :
    ∃ i, e = .indexOutOfBounds path i 0 := by
  induction segs with
  | nil => cases h
  | cons seg rest ih =>
    cases seg with
    | key k => exact ih h
    | append => exact ih h
    | index i =>
      rcases Nat.eq_zero_or_pos i with rfl | hi
      · exact ih h
      · have hput : (put path new (.index i :: rest) .null).2 =
            .error (.indexOutOfBounds path i 0) := by
          simp [put, isNull, emptyContainer, Nat.not_le_of_lt hi]
        rw [hput] at h
        cases h
        exact ⟨i, rfl⟩

/-- A write that fails has changed nothing, or fails at an index into an empty list. -/
theorem put_eq_self_or_indexOutOfBounds (h : (put path new segs v).2 = .error e) :
    (put path new segs v).1 = v ∨ ∃ i, e = .indexOutOfBounds path i 0 := by
  induction segs generalizing v with
  | nil => cases h
  | cons seg rest ih =>
    cases hnull : v.isNull with
    | true =>
      obtain rfl : v = .null := by cases v <;> first | rfl | cases hnull
      exact .inr (indexOutOfBounds_of_put_null h)
    | false =>
      have hopened : v.opened seg = v := if_neg (by simp [hnull])
      rcases put_cons path new v seg rest with ⟨v', hset, hput⟩ | ⟨-, _, hput⟩
      · rw [hput] at h ⊢
        cases hmember : v.member? seg with
        | none =>
          have hentered : v.entered seg = .null := by rw [entered, hopened, hmember]; rfl
          rw [hentered] at h
          exact .inr (indexOutOfBounds_of_put_null h)
        | some child =>
          obtain ⟨-, hentered⟩ := entered_of_member? hmember
          rw [hentered] at h
          refine (ih h).imp_left fun hsame => ?_
          rw [hopened, hentered, hsame, setMember?_of_member? hmember] at hset
          exact (Option.some.inj hset).symm
      · rw [hput, hopened]
        exact .inl rfl

end Value

namespace FieldPath

section Stores

variable {σ : Type} [FieldStore σ]

/-- Every leaf is read at its path as before, and no list has fewer items. -/
structure Unharmed (s s' : σ) : Prop where
  get? : ∀ (q : FieldPath) x, q.get? s = some x → x.isLeaf = true → q.get? s' = some x
  getValue? : ∀ (q : FieldPath) heap x, q.getValue? heap s = some x → x.isLeaf = true →
    q.getValue? heap s' = some x
  list : ∀ (q : FieldPath) items, q.get? s = some (.list items) →
    ∃ items', q.get? s' = some (.list items') ∧ items.length ≤ items'.length

theorem Unharmed.refl (s : σ) : Unharmed s s :=
  ⟨fun _ _ h _ => h, fun _ _ _ h _ => h, fun _ items h => ⟨items, h, Nat.le_refl _⟩⟩

variable [LawfulFieldStore σ] {p q : FieldPath} {s : σ} {v x : Value} {e : PathError}

theorem readBy_put_of_error {read : Value → List PathSegment → Option Value}
    (hread : Value.Descends read) (h : (p.put s v).2 = .error e) (hx : q.readBy read s = some x)
    (hnull : x.isNull = false) : ∃ y, q.readBy read (p.put s v).1 = some y ∧ x.Retains y := by
  rcases p.put_cases s v with ⟨-, hput⟩ | ⟨root, -, hput⟩ | ⟨root, seg, rest, -, hput⟩
  · exact ⟨x, by rw [hput]; exact hx, .same x⟩
  · rw [hput] at h
    cases h
  · rw [hput] at h ⊢
    obtain ⟨⟨root', rest'⟩, hroot', hrest'⟩ := Option.bind_eq_some_iff.mp hx
    obtain ⟨t, ht, hread'⟩ := Option.bind_eq_some_iff.mp hrest'
    simp only [readBy, hroot', Option.bind_some, lookup_place]
    split
    · next heq =>
      subst heq
      rw [ht] at h ⊢
      exact Value.read_put_of_error hread h hread' hnull
    · rw [ht]
      exact ⟨x, hread', .same x⟩

theorem unharmed_put (h : (p.put s v).2 = .error e) : Unharmed s (p.put s v).1 where
  get? q x hx hleaf := by
    have hnull : x.isNull = false := by cases x <;> first | rfl | cases hleaf
    obtain ⟨y, hy, hretains⟩ := readBy_put_of_error Value.descends_get? h hx hnull
    exact hretains.eq_of_isLeaf hleaf ▸ hy
  getValue? q heap x hx hleaf := by
    have hnull : x.isNull = false := by cases x <;> first | rfl | cases hleaf
    obtain ⟨y, hy, hretains⟩ := readBy_put_of_error (Value.descends_resolve? heap) h hx hnull
    exact hretains.eq_of_isLeaf hleaf ▸ hy
  list q items hx := by
    obtain ⟨y, hy, hretains⟩ := readBy_put_of_error Value.descends_get? h hx rfl
    obtain ⟨items', rfl, hlength⟩ := hretains.exists_list
    exact ⟨items', hy, hlength⟩

end Stores

variable {p : FieldPath} {m : ValueMap} {c : Context} {v : Value} {e : PathError} {root : String}
  {rest : List PathSegment}

theorem put_map (h : p.root? = some (root, rest)) (m : ValueMap) (v : Value) :
    p.put m v = (Keyed.insert root (Value.put p.text v rest ((Keyed.get? m root).getD .null)).1 m,
      (Value.put p.text v rest ((Keyed.get? m root).getD .null)).2) := by
  cases rest with
  | nil => exact put_of_root h m v
  | cons seg rest =>
    have hplace : ∀ x, place m root x = Keyed.insert root x m := by
      intro x
      unfold place
      split
      · rfl
      · next hfound =>
        refine if_pos ?_
        cases hm : lookup m root with
        | none => exact absurd (by rw [hm]; rfl) hfound
        | some t => exact congrArg Option.isSome hm
    rw [put_of_root_cons h, hplace]
    rfl

/-- A map is written into like the value that it is. -/
theorem put_map_eq_self_or_indexOutOfBounds (h : (p.put m v).2 = .error e) :
    (p.put m v).1 = m ∨ ∃ i, e = .indexOutOfBounds p.text i 0 := by
  cases hroot : p.root? with
  | none =>
    left
    rw [put, hroot]
  | some found =>
    obtain ⟨root, rest⟩ := found
    have hvalue : Value.put p.text v (.key root :: rest) (.map m) =
        (.map (p.put m v).1, (p.put m v).2) := by
      rw [put_map hroot]
      rfl
    have hcases := Value.put_eq_self_or_indexOutOfBounds (by rw [hvalue]; exact h)
    rw [hvalue] at hcases
    exact hcases.imp_left fun hsame => Value.map.inj hsame

theorem getD_of_all_isNull {found : Option Value} (h : found.all Value.isNull = true) :
    found.getD .null = .null := by
  cases found with
  | none => rfl
  | some t => cases t <;> first | rfl | cases h

/-- A write to a context is a write to one of its maps. -/
theorem exists_maps_put (p : FieldPath) (c : Context) (v : Value) :
    ∃ upper m lower, c.maps = upper ++ m :: lower ∧
      (p.put c v).1.maps = upper ++ (p.put m v).1 :: lower ∧ (p.put c v).2 = (p.put m v).2 := by
  have htop : c.maps = [] ++ c.top :: (c.below ++ c.global.toList) := rfl
  rcases p.put_cases c v with ⟨hroot, hput⟩ | ⟨root, hroot, hput⟩ | ⟨root, seg, rest, hroot, hput⟩
  · have hmap : p.put c.top v = (c.top, .error .emptyPath) := by rw [put, hroot]
    exact ⟨[], c.top, _, htop, by rw [hput, hmap]; rfl, by rw [hput, hmap]⟩
  · have hmap : p.put c.top v = (Keyed.insert root v c.top, .ok ()) := put_of_root hroot c.top v
    exact ⟨[], c.top, _, htop, by rw [hput, hmap]; rfl, by rw [hput, hmap]⟩
  · by_cases hnull : (lookup c root).all Value.isNull = true
    -- The root is made in the top layer, which has nothing but null under it.
    · have hsame : (Keyed.get? c.top root).getD .null = (lookup c root).getD .null := by
        cases hfound : Keyed.get? c.top root with
        | none => exact (getD_of_all_isNull hnull).symm
        | some t =>
          have hlookup : lookup c root = some t := by
            change c.get? root = some t
            simp [Context.get?, Context.stack, hfound]
          rw [hlookup]
      refine ⟨[], c.top, _, htop, ?_, ?_⟩
      · rw [hput, put_map hroot, hsame, place, if_pos hnull]
        rfl
      · rw [hput, put_map hroot, hsame]
    · obtain ⟨t, ht⟩ : ∃ t, c.get? root = some t := by
        cases ht : c.get? root with
        | none => exact absurd (by rw [show lookup c root = none from ht]; rfl) hnull
        | some t => exact ⟨t, rfl⟩
      obtain ⟨upper, m, lower, hentry⟩ := Context.get?_eq_some_iff.mp ht
      have hsame : Keyed.get? m root = lookup c root := hentry.entry.trans ht.symm
      refine ⟨upper, m, lower, hentry.maps_eq, ?_, ?_⟩
      · rw [hput, put_map hroot, hsame, place, if_neg hnull]
        exact (hentry.replace _).maps_eq
      · rw [hput, put_map hroot, hsame]

/-- A write that fails does no harm to a map or a context. It has changed nothing, or fails at an
index into an empty list, and in any of the maps, and so in the context, leaves stay as they are
read and lists keep their items. -/
theorem unchanged_or_unharmed_of_failed_put {p : FieldPath} {v : Value} {e : PathError} :
    (∀ m : ValueMap, (p.put m v).2 = .error e →
      ((p.put m v).1 = m ∨ ∃ i, e = .indexOutOfBounds p.text i 0) ∧ Unharmed m (p.put m v).1) ∧
    ∀ c : Context, (p.put c v).2 = .error e →
      ((p.put c v).1 = c ∨ ∃ i, e = .indexOutOfBounds p.text i 0) ∧ Unharmed c (p.put c v).1 ∧
        List.Forall₂ Unharmed c.maps (p.put c v).1.maps := by
  refine ⟨fun m h => ⟨put_map_eq_self_or_indexOutOfBounds h, unharmed_put h⟩, fun c h => ?_⟩
  obtain ⟨upper, m, lower, hmaps, hput, hresult⟩ := exists_maps_put p c v
  rw [hresult] at h
  refine ⟨(put_map_eq_self_or_indexOutOfBounds h).imp_left fun hsame => ?_, ?_, ?_⟩
  · refine Context.ext_maps (oneMapDiffers_put p c v).1 ?_
    rw [hput, hsame, hmaps]
  · exact unharmed_put (hresult.trans h)
  · have hsame : ∀ ms : List ValueMap, List.Forall₂ Unharmed ms ms := fun ms =>
      List.forall₂_same.mpr fun m _ => .refl m
    rw [hput, hmaps]
    exact List.rel_append (hsame upper) (.cons (unharmed_put h) (hsame lower))

theorem unharmed_of_failed_append :
    let p := ofText "order.lines[].sku[2]"
    let m : ValueMap := [("order", .map [("lines", .list [.text "WG-1111"])])]
    let m' : ValueMap :=
      [("order", .map [("lines", .list [.text "WG-1111", .map [("sku", .list [])]])])]
    let c : Context := { below := [m] }
    let e : PathError := .indexOutOfBounds "order.lines[].sku[2]" 2 0
    p.put m .null = (m', .error e) ∧ Unharmed m m' ∧ (p.put c .null).2 = .error e ∧
      (p.put c .null).1.maps = [[], m'] ∧ Unharmed c (p.put c .null).1 ∧
      List.Forall₂ Unharmed c.maps (p.put c .null).1.maps := by
  intro p m m' c e
  have hput : p.put m .null = (m', .error e) := rfl
  have herror : (p.put c .null).2 = .error e := rfl
  have hharm := (unchanged_or_unharmed_of_failed_put.1 m (congrArg Prod.snd hput)).2
  rw [hput] at hharm
  exact ⟨hput, hharm, herror, rfl, (unchanged_or_unharmed_of_failed_put.2 c herror).2⟩

end FieldPath
end ScreenActions
