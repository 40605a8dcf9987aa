import Mathlib.Data.List.Induction
import Mathlib.Data.List.Nodup
import ScreenActions.Keyed

/-!
The laws of lookups, which hold of entries in any order, and maps in increasing order of their keys.
Inserting keeps the order, and two such maps with the same entries under each key are the same list.
-/

namespace ScreenActions.Keyed

variable {α β : Type}

/-- A map with its entries in key order. -/
structure OrderedMap (α : Type) where
  entries : Keyed α
  ordered : entries.Ordered

theorem contains_insert_self (m : Keyed α) (k : String) (v : α) :
    contains (insert k v m) k = true := by
  unfold contains
  rw [get?_insert_self]
  rfl

theorem contains_insert {m : Keyed α} {key : String} (k : String) (v : α)
    (h : contains m key = true) : contains (insert k v m) key = true := by
  unfold contains at h ⊢
  rw [get?_insert]
  split
  · rfl
  · exact h

theorem contains_extend {m : Keyed α} {key : String} (upper : Keyed α)
    (h : contains m key = true) : contains (extend m upper) key = true := by
  induction upper with
  | nil => exact h
  | cons e upper ih => exact contains_insert e.1 e.2 ih

theorem insert_insert (m : Keyed α) (k : String) (v w : α) :
    insert k w (insert k v m) = insert k w m := by
  induction m with
  | nil => simp [insert]
  | cons e m ih =>
    obtain ⟨k', v'⟩ := e
    by_cases heq : k = k'
    · simp [insert, heq]
    by_cases hnew : k < k' ∧ contains m k = false
    · have hput : ∀ x, insert k x ((k', v') :: m) = (k, x) :: (k', v') :: m := fun x => by
        rw [insert, if_neg heq, if_pos hnew]
      rw [hput, hput, insert, if_pos rfl]
    · have hput : ∀ x, insert k x ((k', v') :: m) = (k', v') :: insert k x m := fun x => by
        rw [insert, if_neg heq, if_neg hnew]
      rw [hput, hput, insert, if_neg heq, if_neg (by simp [contains_insert_self]), ih]

/-- Inserting what is there changes nothing. -/
theorem insert_of_get? {m : Keyed α} {k : String} {v : α} (h : get? m k = some v) :
    insert k v m = m := by
  induction m with
  | nil => cases h
  | cons e m ih =>
    obtain ⟨k', v'⟩ := e
    rw [get?] at h
    by_cases heq : k' = k
    · rw [if_pos heq] at h
      obtain rfl := Option.some.inj h
      rw [insert, if_pos heq.symm, heq]
    · rw [if_neg heq] at h
      rw [insert, if_neg (Ne.symm heq), if_neg (by simp [contains, h]), ih h]

theorem mem_of_get? {m : Keyed α} {k : String} {v : α} (h : get? m k = some v) : (k, v) ∈ m := by
  induction m with
  | nil => cases h
  | cons e m ih =>
    obtain ⟨k', v'⟩ := e
    rw [get?] at h
    split at h
    · next hk =>
      obtain rfl := hk
      obtain rfl := Option.some.inj h
      exact List.mem_cons_self
    · exact List.mem_cons_of_mem _ (ih h)

theorem mem_insert {m : Keyed α} {k : String} {v : α} {e : String × α} (h : e ∈ insert k v m) :
    e = (k, v) ∨ e ∈ m := by
  induction m with
  | nil => simpa [insert] using h
  | cons e' m ih =>
    obtain ⟨k', v'⟩ := e'
    rw [insert] at h
    split at h
    · exact (List.mem_cons.mp h).imp_right (List.mem_cons_of_mem _)
    · split at h
      · exact List.mem_cons.mp h
      · rcases List.mem_cons.mp h with h | h
        · exact .inr (h ▸ List.mem_cons_self)
        · exact (ih h).imp_right (List.mem_cons_of_mem _)

theorem get?_eq_none_iff {m : Keyed α} {k : String} : get? m k = none ↔ ∀ e ∈ m, e.1 ≠ k := by
  induction m with
  | nil => simp [get?]
  | cons e m ih =>
    rw [get?, List.forall_mem_cons, ← ih]
    by_cases hk : e.1 = k <;> simp [hk]

/-- In the entries after a key there is no smaller one. -/
theorem contains_eq_false_of_lt {m : Keyed α} {k key : String} (h : ∀ e ∈ m, k < e.1)
    (hlt : key < k) : contains m key = false := by
  have hnone : get? m key = none := get?_eq_none_iff.mpr fun e he heq =>
    String.lt_asymm hlt (heq ▸ h e he)
  rw [contains, hnone]
  rfl

theorem Ordered.insert {m : Keyed α} (h : Ordered m) (k : String) (v : α) :
    Ordered (insert k v m) := by
  induction m with
  | nil => simp [Keyed.insert, Ordered]
  | cons e m ih =>
    obtain ⟨k', v'⟩ := e
    obtain ⟨hhead, htail⟩ := List.pairwise_cons.mp h
    rw [Keyed.insert]
    split
    · next hk =>
      obtain rfl := hk
      exact List.pairwise_cons.mpr ⟨hhead, htail⟩
    · next hne =>
      split
      · next hnew =>
        refine List.pairwise_cons.mpr ⟨fun e he => ?_, h⟩
        rcases List.mem_cons.mp he with rfl | he
        · exact hnew.1
        · exact String.lt_trans hnew.1 (hhead e he)
      · next hold =>
        have hnlt : ¬k < k' := fun hlt => hold ⟨hlt, contains_eq_false_of_lt hhead hlt⟩
        have hlt : k' < k := Std.lt_of_le_of_ne (String.not_lt.mp hnlt) (Ne.symm hne)
        refine List.pairwise_cons.mpr ⟨fun e he => ?_, ih htail⟩
        rcases mem_insert he with rfl | he
        · exact hlt
        · exact hhead e he

theorem Ordered.erase {m : Keyed α} (h : Ordered m) (k : String) : Ordered (erase k m) :=
  List.Pairwise.filter _ h

theorem Ordered.extend {m : Keyed α} (h : Ordered m) (upper : Keyed α) :
    Ordered (extend m upper) := by
  induction upper with
  | nil => exact h
  | cons e upper ih => exact ih.insert e.1 e.2

theorem ofEntries_concat (entries : List (String × α)) (e : String × α) :
    ofEntries (entries ++ [e]) = insert e.1 e.2 (ofEntries entries) :=
  List.foldl_concat _ _ _ _

theorem ordered_ofEntries (entries : List (String × α)) : Ordered (ofEntries entries) := by
  induction entries using List.reverseRecOn with
  | nil => exact List.Pairwise.nil
  | append_singleton entries e ih =>
    rw [ofEntries_concat]
    exact ih.insert e.1 e.2

/-- The last entry of a key counts. -/
theorem get?_ofEntries (entries : List (String × α)) (key : String) :
    get? (ofEntries entries) key = get? entries.reverse key := by
  induction entries using List.reverseRecOn with
  | nil => rfl
  | append_singleton entries e ih =>
    rw [ofEntries_concat, get?_insert, List.reverse_concat, get?, ih]

theorem Ordered.nodup {m : Keyed α} (h : Ordered m) : (m.map Prod.fst).Nodup := by
  refine List.pairwise_map.mpr (h.imp ?_)
  intro a b hlt heq
  rw [heq] at hlt
  exact String.lt_irrefl _ hlt

theorem get?_of_mem {m : Keyed α} (h : (m.map Prod.fst).Nodup) {k : String} {v : α}
    (hmem : (k, v) ∈ m) : get? m k = some v := by
  induction m with
  | nil => cases hmem
  | cons e m ih =>
    obtain ⟨k', v'⟩ := e
    obtain ⟨hhead, htail⟩ := List.nodup_cons.mp h
    rcases List.mem_cons.mp hmem with heq | hmem
    · cases heq
      simp [get?]
    · have hne : k' ≠ k := by
        rintro rfl
        exact hhead (List.mem_map.mpr ⟨_, hmem, rfl⟩)
      simp [get?, hne, ih htail hmem]

theorem get?_extend (m upper : Keyed α) (key : String) :
    get? (extend m upper) key = (get? upper key).or (get? m key) := by
  induction upper with
  | nil => rfl
  | cons e upper ih =>
    have hcons : extend m (e :: upper) = insert e.1 e.2 (extend m upper) := rfl
    rw [hcons, get?_insert, get?, ih]
    split <;> rfl

/-- In maps laid over each other from the first to the last, the last one that has a key counts. -/
theorem get?_foldl_extend (layers : List (Keyed α)) (m : Keyed α) (key : String) :
    get? (layers.foldl extend m) key =
      (layers.reverse.findSome? (get? · key)).or (get? m key) := by
  induction layers generalizing m with
  | nil => rfl
  | cons l layers ih =>
    rw [List.foldl_cons, ih, get?_extend, List.reverse_cons, List.findSome?_append,
      List.findSome?_singleton, Option.or_assoc]

/-- The entries under the keys determine a map in key order. -/
theorem Ordered.ext {m m' : Keyed α} (h : Ordered m) (h' : Ordered m')
    (hget : ∀ k, get? m k = get? m' k) : m = m' := by
  have hperm : m.Perm m' := by
    refine (List.perm_ext_iff_of_nodup h.nodup.of_map h'.nodup.of_map).mpr fun ⟨k, v⟩ => ?_
    constructor
    · intro hmem
      exact mem_of_get? (hget k ▸ get?_of_mem h.nodup hmem)
    · intro hmem
      exact mem_of_get? ((hget k).symm ▸ get?_of_mem h'.nodup hmem)
  exact hperm.eq_of_pairwise (fun _ _ _ _ hab hba => absurd hba (String.lt_asymm hab)) h h'

theorem Ordered.foldl_extend {m : Keyed α} (h : Ordered m) (layers : List (Keyed α)) :
    Ordered (layers.foldl Keyed.extend m) := by
  induction layers generalizing m with
  | nil => exact h
  | cons l layers ih => exact ih (h.extend l)

theorem ordered_foldr_extend {layers : List (Keyed α)} (h : ∀ l ∈ layers, Ordered l) :
    Ordered (layers.foldr extend []) := by
  cases layers with
  | nil => exact List.Pairwise.nil
  | cons l layers => exact (h l List.mem_cons_self).extend _

theorem get?_foldr_extend (layers : List (Keyed α)) (key : String) :
    get? (layers.foldr extend []) key = layers.reverse.findSome? (get? · key) := by
  induction layers with
  | nil => rfl
  | cons l layers ih =>
    rw [List.foldr_cons, get?_extend, ih, List.reverse_cons, List.findSome?_append,
      List.findSome?_singleton]

/-- It does not matter from which end maps are laid over each other. -/
theorem foldr_extend_eq_foldl {layers : List (Keyed α)} (h : ∀ l ∈ layers, Ordered l) :
    layers.foldr extend [] = layers.foldl extend [] := by
  have hnil : Ordered ([] : Keyed α) := List.Pairwise.nil
  refine Ordered.ext (ordered_foldr_extend h) (hnil.foldl_extend layers) fun key => ?_
  rw [get?_foldr_extend, get?_foldl_extend]
  simp [get?]

theorem extend_self {m : Keyed α} (h : Ordered m) : extend m m = m := by
  refine Ordered.ext (h.extend m) h fun key => ?_
  rw [get?_extend, Option.or_self]

theorem extend_nil {m : Keyed α} (h : Ordered m) : extend [] m = m := by
  refine Ordered.ext (Ordered.extend List.Pairwise.nil m) h fun key => ?_
  rw [get?_extend]
  exact Option.or_none

/-- Entries that a function gives for some keys. -/
theorem get?_filterMap (keys : List String) (f : String → Option α) (key : String) :
    get? (keys.filterMap fun k => (f k).map fun v => (k, v)) key =
      if key ∈ keys then f key else none := by
  induction keys with
  | nil => rfl
  | cons k keys ih =>
    by_cases hk : k = key
    · subst hk
      cases hf : f k with
      | none => simp [hf, ih]
      | some v => simp [hf, get?]
    · cases hf : f k with
      | none => simp [hf, ih, Ne.symm hk]
      | some v => simp [hf, get?, ih, hk, Ne.symm hk]

theorem get?_ofEntries_filterMap (keys : List String) (f : String → Option α) (key : String) :
    get? (ofEntries (keys.filterMap fun k => (f k).map fun v => (k, v))) key =
      if key ∈ keys then f key else none := by
  rw [get?_ofEntries, ← List.filterMap_reverse, get?_filterMap]
  simp only [List.mem_reverse]

theorem get?_filter (m : Keyed α) (p : String → Bool) (key : String) :
    get? (m.filter fun e => p e.1) key = if p key then get? m key else none := by
  induction m with
  | nil => simp [get?]
  | cons e m ih =>
    obtain ⟨k, v⟩ := e
    by_cases hk : k = key
    · subst hk
      cases hp : p k <;> simp [hp, ih, get?]
    · cases hp : p k <;> simp [hp, ih, get?, hk]

theorem get?_erase (m : Keyed α) (k key : String) :
    get? (erase k m) key = if k = key then none else get? m key := by
  induction m with
  | nil => simp [erase, get?]
  | cons e m ih =>
    obtain ⟨k', v'⟩ := e
    unfold erase at ih ⊢
    by_cases hk : k' = k
    · subst hk
      by_cases hkey : k' = key
      · subst hkey
        simpa using ih
      · simpa [get?, hkey] using ih
    · by_cases hkey : k = key
      · subst hkey
        simpa [get?, hk] using ih
      · simp [get?, hk, hkey, ih]

theorem insert_erase {m : Keyed α} (h : Ordered m) {k : String} {v : α}
    (hget : get? m k = some v) : insert k v (erase k m) = m := by
  refine Ordered.ext ((h.erase k).insert k v) h fun key => ?_
  rw [get?_insert, get?_erase]
  split
  · next hk => rw [← hk, hget]
  · rfl

theorem erase_of_get?_eq_none {m : Keyed α} {k : String} (h : get? m k = none) :
    erase k m = m := by
  refine List.filter_eq_self.mpr fun e he => ?_
  simpa using get?_eq_none_iff.mp h e he

theorem erase_insert {m : Keyed α} {k : String} (v : α) (h : get? m k = none) :
    erase k (insert k v m) = m := by
  induction m with
  | nil => simp [erase, insert]
  | cons e m ih =>
    obtain ⟨k', v'⟩ := e
    rw [get?] at h
    by_cases heq : k' = k
    · rw [if_pos heq] at h
      cases h
    · rw [if_neg heq] at h
      have hrest := erase_of_get?_eq_none h
      unfold erase at ih hrest ⊢
      rw [insert, if_neg (Ne.symm heq)]
      split
      · simp [heq, hrest]
      · simp [heq, ih h]

theorem perm_insert {m : Keyed α} {k : String} (v : α) (h : ∀ e ∈ m, e.1 ≠ k) :
    (insert k v m).Perm ((k, v) :: m) := by
  induction m with
  | nil => exact .refl _
  | cons e m ih =>
    obtain ⟨hne, htail⟩ := List.forall_mem_cons.mp h
    obtain ⟨k', v'⟩ := e
    rw [insert, if_neg (Ne.symm hne)]
    split
    · exact .refl _
    · exact ((ih htail).cons _).trans (.swap _ _ _)

theorem perm_ofEntries {entries : List (String × α)} (h : (entries.map Prod.fst).Nodup) :
    (ofEntries entries).Perm entries := by
  induction entries using List.reverseRecOn with
  | nil => exact .refl _
  | append_singleton entries e ih =>
    rw [List.map_append, List.nodup_append] at h
    have hperm := ih h.1
    rw [ofEntries_concat]
    refine (perm_insert e.2 fun e' he' => ?_).trans
      ((hperm.cons e).trans (List.perm_append_singleton e entries).symm)
    exact h.2.2 _ (List.mem_map_of_mem (hperm.mem_iff.mp he')) _ List.mem_cons_self

theorem ofEntries_of_ordered {m : Keyed α} (h : Ordered m) : ofEntries m = m :=
  (perm_ofEntries h.nodup).eq_of_pairwise
    (fun _ _ _ _ hab hba => absurd hba (String.lt_asymm hab)) (ordered_ofEntries m) h

theorem get?_mapValues (f : α → β) (m : Keyed α) (key : String) :
    get? (mapValues f m) key = (get? m key).map f := by
  induction m with
  | nil => rfl
  | cons e m ih =>
    unfold mapValues at ih ⊢
    rw [List.map_cons, get?, get?, ih]
    split <;> rfl

theorem Ordered.mapValues {m : Keyed α} (h : Ordered m) (f : α → β) :
    Ordered (Keyed.mapValues f m) :=
  List.pairwise_map.mpr h

theorem contains_mapValues (f : α → β) (m : Keyed α) (key : String) :
    contains (mapValues f m) key = contains m key := by
  rw [contains, get?_mapValues, Option.isSome_map, contains]

theorem mapValues_insert (f : α → β) (k : String) (v : α) (m : Keyed α) :
    mapValues f (insert k v m) = insert k (f v) (mapValues f m) := by
  induction m with
  | nil => rfl
  | cons e m ih =>
    obtain ⟨k', v'⟩ := e
    have hcons : ∀ m, mapValues f ((k', v') :: m) = (k', f v') :: mapValues f m := fun _ => rfl
    rw [hcons, insert, insert, contains_mapValues]
    split
    · rfl
    · split
      · rfl
      · rw [hcons, ih]

theorem mapValues_ofEntries (f : α → β) (entries : List (String × α)) :
    mapValues f (ofEntries entries) = ofEntries (mapValues f entries) := by
  induction entries using List.reverseRecOn with
  | nil => rfl
  | append_singleton entries e ih =>
    have hconcat : mapValues f (entries ++ [e]) = mapValues f entries ++ [(e.1, f e.2)] :=
      List.map_append
    rw [ofEntries_concat, mapValues_insert, ih, hconcat, ofEntries_concat]

end ScreenActions.Keyed
