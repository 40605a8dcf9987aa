import ScreenActions.Proofs.ContextMaps
import ScreenActions.Proofs.MemberWrites
import ScreenActions.Proofs.PlainPath

/-!
A field path as a lens. What is written at a path is read back there and hides what was written
before, writing what is read changes no read, and what is written reaches only the paths that go on
from it and those that lead to it.
-/

namespace ScreenActions

open FieldStore (lookup store replace)

/-- The laws of a holder of fields: a field is read as it was written last, wherever that was. -/
class LawfulFieldStore (σ : Type) [FieldStore σ] : Prop where
  lookup_store (s : σ) (key : String) (v : Value) (key' : String) :
    lookup (store s key v) key' = if key = key' then some v else lookup s key'
  lookup_replace {s : σ} {key : String} (h : (lookup s key).isSome = true) (v : Value)
    (key' : String) : lookup (replace s key v) key' = if key = key' then some v else lookup s key'
  store_store (s : σ) (key : String) (v w : Value) :
    store (store s key v) key w = store s key w
  replace_store (s : σ) (key : String) (v w : Value) :
    replace (store s key v) key w = store s key w
  replace_replace (s : σ) (key : String) (v w : Value) :
    replace (replace s key v) key w = replace s key w

instance : LawfulFieldStore ValueMap where
  lookup_store m key v key' := Keyed.get?_insert m key v key'
  lookup_replace {m key} h v key' := by
    have hfound : Keyed.contains m key = true := h
    have hreplace : replace m key v = Keyed.insert key v m := if_pos hfound
    rw [hreplace]
    exact Keyed.get?_insert m key v key'
  store_store m key v w := Keyed.insert_insert m key v w
  replace_store m key v w := by
    have hreplace : replace (store m key v) key w = Keyed.insert key w (Keyed.insert key v m) :=
      if_pos (Keyed.contains_insert_self m key v)
    rw [hreplace]
    exact Keyed.insert_insert m key v w
  replace_replace m key v w := by
    by_cases hfound : Keyed.contains m key = true
    · have hreplace : ∀ x, replace m key x = Keyed.insert key x m := fun x => if_pos hfound
      have hagain : replace (Keyed.insert key v m) key w =
          Keyed.insert key w (Keyed.insert key v m) :=
        if_pos (Keyed.contains_insert_self m key v)
      rw [hreplace v, hreplace w, hagain, Keyed.insert_insert]
    · have hreplace : ∀ x, replace m key x = m := fun x => if_neg hfound
      rw [hreplace v]

instance : LawfulFieldStore Context where
  lookup_store := Context.get?_insert
  lookup_replace := Context.get?_replace
  store_store := Context.insert_insert
  replace_store := Context.replace_insert
  replace_replace := Context.replace_replace

namespace FieldPath

variable {σ : Type} [FieldStore σ]

/-- A value at a root, where a read finds the root, or where plain writes go if a read finds nothing
or null. -/
def place (s : σ) (root : String) (v : Value) : σ :=
  if (lookup s root).all Value.isNull then store s root v else replace s root v

/-- The value at a path, for either way of reading it. -/
def readBy (read : Value → List PathSegment → Option Value) (p : FieldPath) (s : σ) :
    Option Value :=
  p.root?.bind fun (root, rest) => (lookup s root).bind (read · rest)

variable [LawfulFieldStore σ] {p q : FieldPath} {s : σ} {root : String}

theorem lookup_place (s : σ) (root : String) (v : Value) (key : String) :
    lookup (place s root v) key = if root = key then some v else lookup s key := by
  unfold place
  split
  · exact LawfulFieldStore.lookup_store s root v key
  · next h =>
    apply LawfulFieldStore.lookup_replace
    cases hs : lookup s root with
    | none => exact absurd (by rw [hs]; rfl) h
    | some t => rfl

theorem place_place {v : Value} (hv : v.isNull = false) (s : σ) (root : String) (w : Value) :
    place (place s root v) root w = place s root w := by
  have hfound : ((lookup (place s root v) root).all Value.isNull) = false := by
    rw [lookup_place, if_pos rfl]
    exact hv
  have hsecond : place (place s root v) root w = replace (place s root v) root w := by
    rw [place, hfound]
    rfl
  rw [hsecond]
  by_cases hnull : (lookup s root).all Value.isNull = true
  · rw [place, if_pos hnull, place, if_pos hnull, LawfulFieldStore.replace_store]
  · rw [place, if_neg hnull, place, if_neg hnull, LawfulFieldStore.replace_replace]

theorem put_of_root_cons {seg : PathSegment} {rest : List PathSegment}
    (h : p.root? = some (root, seg :: rest)) (s : σ) (v : Value) :
    p.put s v = (place s root (Value.put p.text v (seg :: rest) ((lookup s root).getD .null)).1,
      (Value.put p.text v (seg :: rest) ((lookup s root).getD .null)).2) := by
  unfold put
  rw [h]
  dsimp only
  by_cases hnull : (lookup s root).all Value.isNull = true
  -- The root is made: writing into the new container is writing into null.
  · have htarget : (lookup s root).getD .null = .null := by
      cases hs : lookup s root with
      | none => rfl
      | some t =>
        rw [hs] at hnull
        cases t <;> first | rfl | cases hnull
    have hmade : Value.put p.text v (seg :: rest) (Value.emptyContainer seg) =
        Value.put p.text v (seg :: rest) .null := by
      cases seg <;> rfl
    rw [if_pos hnull, LawfulFieldStore.lookup_store, if_pos rfl, htarget, place, if_pos hnull]
    dsimp only
    rw [hmade, LawfulFieldStore.replace_store]
  · rw [if_neg hnull, place, if_neg hnull]
    cases hs : lookup s root with
    | none => exact absurd (by rw [hs]; rfl) hnull
    | some t => rfl

/-- A path leads nowhere, names a field, or goes on from one. -/
theorem put_cases (p : FieldPath) (s : σ) (v : Value) :
    (p.root? = none ∧ p.put s v = (s, .error .emptyPath)) ∨
    (∃ root, p.root? = some (root, []) ∧ p.put s v = (store s root v, .ok ())) ∨
    ∃ root seg rest, p.root? = some (root, seg :: rest) ∧
      p.put s v = (place s root (Value.put p.text v (seg :: rest) ((lookup s root).getD .null)).1,
        (Value.put p.text v (seg :: rest) ((lookup s root).getD .null)).2) := by
  rcases h : p.root? with _ | ⟨root, _ | ⟨seg, rest⟩⟩
  · left
    exact ⟨rfl, by unfold put; rw [h]⟩
  · right; left
    exact ⟨root, rfl, put_of_root h s v⟩
  · right; right
    exact ⟨root, seg, rest, rfl, put_of_root_cons h s v⟩

theorem segments_of_root {rest : List PathSegment} (h : p.root? = some (root, rest)) :
    p.segments = .key root :: rest := by
  unfold root? at h
  split at h
  · next hsegments =>
    cases h
    exact hsegments
  · cases h

/-- What is written at a path is read there. -/
theorem readBy_put {read : Value → List PathSegment → Option Value} (hread : Value.Descends read)
    (happend : .append ∉ p.segments) {v : Value} (h : (p.put s v).2 = .ok ()) :
    p.readBy read (p.put s v).1 = some v := by
  rcases p.put_cases s v with ⟨-, hput⟩ | ⟨root, hroot, hput⟩ | ⟨root, seg, rest, hroot, hput⟩
  · rw [hput] at h
    cases h
  · rw [hput, readBy, hroot]
    simp [LawfulFieldStore.lookup_store, hread.nil]
  · rw [hput] at h ⊢
    rw [segments_of_root hroot] at happend
    have hvalue := Value.read_put hread (List.not_mem_of_not_mem_cons happend) h
    rw [readBy, hroot]
    simpa [lookup_place] using hvalue

/-- A second value at a path is written as if the first one had not been. -/
theorem put_put (happend : .append ∉ p.segments) {v : Value} (h : (p.put s v).2 = .ok ())
    (w : Value) : p.put (p.put s v).1 w = ((p.put s w).1, .ok ()) := by
  rcases p.put_cases s v with ⟨-, hput⟩ | ⟨root, hroot, hput⟩ | ⟨root, seg, rest, hroot, hput⟩
  · rw [hput] at h
    cases h
  · rw [put_of_root hroot, put_of_root hroot, put_of_root hroot, LawfulFieldStore.store_store]
  · rw [hput] at h ⊢
    rw [segments_of_root hroot] at happend
    have hvalue := Value.put_put (List.not_mem_of_not_mem_cons happend) h w
    rw [put_of_root_cons hroot, put_of_root_cons hroot, lookup_place, if_pos rfl,
      Option.getD_some, hvalue, place_place (Value.isNull_put_cons _ _ _ _ _)]

omit [LawfulFieldStore σ] in
theorem exists_of_get?_eq_some {v : Value} (h : p.get? s = some v) :
    ∃ root rest t, p.root? = some (root, rest) ∧ lookup s root = some t ∧ t.get? rest = some v := by
  obtain ⟨⟨root, rest⟩, hroot, hrest⟩ := Option.bind_eq_some_iff.mp h
  obtain ⟨t, ht, hget⟩ := Option.bind_eq_some_iff.mp hrest
  exact ⟨root, rest, t, hroot, ht, hget⟩

/-- Writing where nothing but null is found changes the store. -/
theorem put_ne {v : Value} (hv : v.isNull = false)
    (hs : (p.get? s).all Value.isNull = true) (h : (p.put s v).2 = .ok ()) : (p.put s v).1 ≠ s := by
  intro heq
  rcases p.put_cases s v with ⟨-, hput⟩ | ⟨root, hroot, hput⟩ | ⟨root, seg, rest, hroot, hput⟩
  · rw [hput] at h
    cases h
  · rw [hput] at heq
    have hlookup : lookup s root = some v := by
      rw [← heq, LawfulFieldStore.lookup_store, if_pos rfl]
    have hget : p.get? s = some v := by
      simp [get?, hroot, hlookup, Value.get?]
    rw [hget, Option.all_some, hv] at hs
    cases hs
  · rw [hput] at h heq
    dsimp only at h heq
    cases ht : lookup s root with
    | none =>
      have hplaced := lookup_place s root (Value.put p.text v (seg :: rest) .null).1 root
      rw [ht, Option.getD_none] at heq
      rw [heq, ht, if_pos rfl] at hplaced
      cases hplaced
    | some t =>
      have hplaced := lookup_place s root (Value.put p.text v (seg :: rest) t).1 root
      rw [ht, Option.getD_some] at h heq
      rw [heq, ht, if_pos rfl] at hplaced
      have hget : p.get? s = t.get? (seg :: rest) := by simp [get?, hroot, ht]
      exact Value.put_ne hv (hget ▸ hs) h (Option.some.inj hplaced).symm

/-- Writing what is read at a path succeeds and leaves every field as it reads. -/
theorem lookup_put_of_get? {v : Value} (h : p.get? s = some v) :
    (p.put s v).2 = .ok () ∧ ∀ key, lookup (p.put s v).1 key = lookup s key := by
  obtain ⟨root, rest, t, hroot, ht, hget⟩ := exists_of_get?_eq_some h
  have hsame : ∀ key, (if root = key then some t else lookup s key) = lookup s key := by
    intro key
    split
    · next heq => rw [← heq, ht]
    · rfl
  cases rest with
  | nil =>
    obtain rfl : t = v := Option.some.inj hget
    rw [put_of_root hroot]
    exact ⟨rfl, fun key => (LawfulFieldStore.lookup_store s root t key).trans (hsame key)⟩
  | cons seg rest =>
    have hvalue : Value.put p.text v (seg :: rest) t = (t, .ok ()) :=
      Value.put_of_get? hget
    rw [put_of_root_cons hroot, ht, Option.getD_some, hvalue]
    exact ⟨rfl, fun key => (lookup_place s root t key).trans (hsame key)⟩

/-- Writing at a path leaves what is read where neither path goes on from the other. -/
theorem readBy_put_of_apart {read : Value → List PathSegment → Option Value}
    (hread : Value.Descends read) (happend : .append ∉ p.segments)
    (hpq : ¬p.segments <+: q.segments) (hqp : ¬q.segments <+: p.segments) (s : σ) (v : Value) :
    q.readBy read (p.put s v).1 = q.readBy read s := by
  rcases hq : q.root? with _ | ⟨root', rest'⟩
  · rw [readBy, readBy, hq]
    rfl
  rcases p.put_cases s v with ⟨-, hput⟩ | ⟨root, hroot, hput⟩ | ⟨root, seg, rest, hroot, hput⟩
  · rw [hput]
  · have hne : root ≠ root' := by
      rintro rfl
      rw [segments_of_root hroot, segments_of_root hq] at hpq
      exact hpq (List.cons_prefix_cons.mpr ⟨rfl, List.nil_prefix⟩)
    simp only [hput, readBy, hq, Option.bind_some, LawfulFieldStore.lookup_store, if_neg hne]
  · rw [segments_of_root hroot] at happend hpq hqp
    rw [segments_of_root hq] at hpq hqp
    simp only [hput, readBy, hq, Option.bind_some, lookup_place]
    by_cases heq : root = root'
    · subst heq
      have hrest' : rest' ≠ [] := by
        rintro rfl
        exact hqp (List.cons_prefix_cons.mpr ⟨rfl, List.nil_prefix⟩)
      rw [if_pos rfl, Option.bind_some, Value.read_put_of_apart hread v
        (List.not_mem_of_not_mem_cons happend)
        (fun h => hpq (List.cons_prefix_cons.mpr ⟨rfl, h⟩))
        (fun h => hqp (List.cons_prefix_cons.mpr ⟨rfl, h⟩))]
      cases lookup s root with
      | none => exact hread.read_null hrest'
      | some t => rfl
    · rw [if_neg heq]

/-- A read at the path does not tell the two holders apart. -/
def ReadsSame (q : FieldPath) (s s' : σ) : Prop :=
  q.get? s' = q.get? s ∧ ∀ heap, q.getValue? heap s' = q.getValue? heap s

omit [LawfulFieldStore σ] in
/-- A read is the same where the field that it starts at is. -/
theorem readsSame_of_lookup {s' : σ}
    (h : ∀ root rest, q.root? = some (root, rest) → lookup s' root = lookup s root) :
    q.ReadsSame s s' := by
  unfold ReadsSame get? getValue?
  cases hroot : q.root? with
  | none => exact ⟨rfl, fun _ => rfl⟩
  | some root =>
    have hlookup := h root.1 root.2 hroot
    simp [hlookup]

omit [LawfulFieldStore σ] in
theorem ReadsSame.refl (q : FieldPath) (s : σ) : q.ReadsSame s s := ⟨rfl, fun _ => rfl⟩

omit [LawfulFieldStore σ] in
theorem ReadsSame.trans {s' s'' : σ} (h : q.ReadsSame s s') (h' : q.ReadsSame s' s'') :
    q.ReadsSame s s'' :=
  ⟨h'.1.trans h.1, fun heap => (h'.2 heap).trans (h.2 heap)⟩

/-- The path does not start at the key. -/
def NotRooted (p : FieldPath) (key : String) : Prop := ∀ rest, p.root? ≠ some (key, rest)

theorem lookup_put_of_notRooted {key : String} (h : p.NotRooted key) (s : σ) (v : Value) :
    lookup (p.put s v).1 key = lookup s key := by
  rcases p.put_cases s v with ⟨-, hput⟩ | ⟨root, hroot, hput⟩ | ⟨root, seg, rest, hroot, hput⟩
  · rw [hput]
  · have hne : root ≠ key := fun heq => h [] (heq ▸ hroot)
    rw [hput, LawfulFieldStore.lookup_store, if_neg hne]
  · have hne : root ≠ key := fun heq => h (seg :: rest) (heq ▸ hroot)
    rw [hput, lookup_place, if_neg hne]

/-- The laws of a lens, for a path and what it is read from and written to. -/
structure LensAt (p : FieldPath) (s : σ) : Prop where
  get_put : ∀ v, (p.put s v).2 = .ok () →
    p.get? (p.put s v).1 = some v ∧ ∀ heap, p.getValue? heap (p.put s v).1 = some v
  put_put : ∀ v w, (p.put s v).2 = .ok () → p.put (p.put s v).1 w = ((p.put s w).1, .ok ())
  put_get : ∀ v, p.get? s = some v →
    (p.put s v).2 = .ok () ∧ ∀ q : FieldPath, q.ReadsSame s (p.put s v).1

theorem lensAt (happend : .append ∉ p.segments) (s : σ) : p.LensAt s where
  get_put v h :=
    ⟨readBy_put Value.descends_get? happend h,
      fun heap => readBy_put (Value.descends_resolve? heap) happend h⟩
  put_put v w h := FieldPath.put_put happend h w
  put_get v h := by
    obtain ⟨hok, hlookup⟩ := lookup_put_of_get? h
    exact ⟨hok, fun q => readsSame_of_lookup fun root _ _ => hlookup root⟩

/-- A path that appends nothing is a lawful lens on maps and on contexts. -/
theorem lensAt_map_and_context {p : FieldPath} (happend : .append ∉ p.segments) :
    (∀ m : ValueMap, p.LensAt m) ∧ ∀ c : Context, p.LensAt c :=
  ⟨lensAt happend, lensAt happend⟩

theorem lensAt_context_item :
    let p := ofText "order.items[0].sku"
    let c : Context := { below := [[("order", .map [("items", .null)])]] }
    PathSegment.append ∉ p.segments ∧ p.LensAt c ∧ p.put c (.text "WG-1111") =
      ({ below := [[("order", .map [("items", .list [.map [("sku", .text "WG-1111")]])])]] },
        .ok ()) :=
  ⟨by decide, (lensAt_map_and_context (by decide)).2 _, rfl⟩

/-- Neither path goes on from the other. -/
def Apart (p q : FieldPath) : Prop := ¬p.segments <+: q.segments ∧ ¬q.segments <+: p.segments

instance (p q : FieldPath) : Decidable (p.Apart q) := inferInstanceAs (Decidable (_ ∧ _))

theorem readsSame_put (happend : .append ∉ p.segments) (h : p.Apart q) (s : σ) (v : Value) :
    q.ReadsSame s (p.put s v).1 :=
  ⟨readBy_put_of_apart Value.descends_get? happend h.1 h.2 s v,
    fun heap => readBy_put_of_apart (Value.descends_resolve? heap) happend h.1 h.2 s v⟩

theorem oneMapDiffers_put (p : FieldPath) (c : Context) (v : Value) :
    c.OneMapDiffers (p.put c v).1 := by
  rcases p.put_cases c v with ⟨-, hput⟩ | ⟨root, -, hput⟩ | ⟨root, seg, rest, -, hput⟩
  · rw [hput]
    exact c.oneMapDiffers_self
  · rw [hput]
    exact c.oneMapDiffers_insert root v
  · rw [hput, place]
    split
    · exact c.oneMapDiffers_insert root _
    · exact c.oneMapDiffers_replace root _

/-- Writing at a path that appends nothing, also if it fails on the way, leaves what is read at all
paths that are apart from it, and changes one map of a context at most. -/
theorem readsSame_and_oneMapDiffers_put {p : FieldPath} (happend : .append ∉ p.segments)
    (v : Value) :
    (∀ q : FieldPath, p.Apart q → (∀ m : ValueMap, q.ReadsSame m (p.put m v).1) ∧
      ∀ c : Context, q.ReadsSame c (p.put c v).1) ∧
    ∀ c : Context, c.OneMapDiffers (p.put c v).1 :=
  ⟨fun _ hq => ⟨fun m => readsSame_put happend hq m v, fun c => readsSame_put happend hq c v⟩,
    fun c => oneMapDiffers_put p c v⟩

theorem readsSame_of_failed_put :
    let p := ofText "order.items[3].sku"
    let q := ofText "order.items.sku"
    let c : Context := { below := [[("order", .map [("items", .null)])]] }
    PathSegment.append ∉ p.segments ∧ p.Apart q ∧
      p.put c (.text "WG-1111") = ({ below := [[("order", .map [("items", .list [])])]] },
        .error (.indexOutOfBounds "order.items[3].sku" 3 0)) ∧
      q.ReadsSame c (p.put c (.text "WG-1111")).1 ∧
      c.OneMapDiffers (p.put c (.text "WG-1111")).1 := by
  intro p q c
  have happend : PathSegment.append ∉ p.segments := by decide
  have hapart : p.Apart q := by decide
  obtain ⟨hreads, hmaps⟩ := readsSame_and_oneMapDiffers_put happend (.text "WG-1111")
  exact ⟨happend, hapart, rfl, (hreads q hapart).2 c, hmaps c⟩

end FieldPath
end ScreenActions
