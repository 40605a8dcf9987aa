import ScreenActions.Context
import ScreenActions.Proofs.KeyedOrder

/-!
A context as the list of its maps, in the order in which a read searches them. A field is rewritten
in the first map that has it.
-/

namespace ScreenActions.Context

/-- The layers from the top downward, then the global map. -/
def maps (c : Context) : List ValueMap := c.stack ++ c.global.toList

theorem ext_maps {c c' : Context} (hdepth : c'.depth = c.depth) (hmaps : c'.maps = c.maps) :
    c' = c := by
  obtain ⟨top, below, global⟩ := c
  obtain ⟨top', below', global'⟩ := c'
  obtain ⟨hstack, hglobal⟩ := List.append_inj hmaps hdepth
  cases hstack
  cases global <;> cases global' <;> cases hglobal <;> rfl

theorem get?_eq_findSome? (c : Context) (key : String) :
    c.get? key = c.maps.findSome? (Keyed.get? · key) := by
  unfold get? maps
  rw [List.findSome?_append]
  cases c.global <;> simp

theorem maps_insert (c : Context) (key : String) (v : Value) :
    (c.insert key v).maps = c.maps.set 0 (Keyed.insert key v c.top) := rfl

/-- The contexts have the same layers, and a global map both or neither, but for what stands in one
of these maps. -/
def OneMapDiffers (c c' : Context) : Prop :=
  c'.depth = c.depth ∧ ∃ i m, c'.maps = c.maps.set i m

/-- The maps with a field rewritten in the first one that has it. -/
def replaceFirst (key : String) (v : Value) : List ValueMap → List ValueMap
  | [] => []
  | m :: ms =>
      if Keyed.contains m key then Keyed.insert key v m :: ms else m :: replaceFirst key v ms

theorem replaceFirst_append (key : String) (v : Value) (ms ms' : List ValueMap) :
    replaceFirst key v (ms ++ ms') =
      if ms.any (Keyed.contains · key) then replaceFirst key v ms ++ ms'
      else ms ++ replaceFirst key v ms' := by
  induction ms with
  | nil => rfl
  | cons m ms ih =>
    cases hm : Keyed.contains m key with
    | true => simp [replaceFirst, hm]
    | false =>
      by_cases hany : ms.any (Keyed.contains · key) = true
      · rw [if_pos hany] at ih
        simp only [List.cons_append, List.any_cons, replaceFirst, hm, hany, ih]
        simp
      · rw [if_neg hany] at ih
        simp only [List.cons_append, List.any_cons, replaceFirst, hm, hany, ih]
        simp

theorem replaceIn_eq (key : String) (v : Value) (ms : List ValueMap) :
    replaceIn key v ms =
      if ms.any (Keyed.contains · key) then some (replaceFirst key v ms) else none := by
  induction ms with
  | nil => rfl
  | cons m ms ih =>
    cases hm : Keyed.contains m key with
    | true => simp [replaceIn, replaceFirst, hm]
    | false =>
      by_cases hany : ms.any (Keyed.contains · key) = true
      · rw [if_pos hany] at ih
        simp [replaceIn, replaceFirst, hm, ih, hany]
      · rw [if_neg hany] at ih
        simp [replaceIn, hm, ih, hany]

theorem length_replaceFirst (key : String) (v : Value) (ms : List ValueMap) :
    (replaceFirst key v ms).length = ms.length := by
  induction ms with
  | nil => rfl
  | cons m ms ih =>
    rw [replaceFirst]
    split
    · rfl
    · rw [List.length_cons, ih, List.length_cons]

/-- Rewriting a field keeps the number of layers and rewrites it in the first map that has it. -/
theorem maps_replace (c : Context) (key : String) (v : Value) :
    (c.replace key v).depth = c.depth ∧ (c.replace key v).maps = replaceFirst key v c.maps := by
  obtain ⟨top, below, global⟩ := c
  unfold replace maps stack depth
  simp only [List.cons_append, replaceFirst, replaceIn_eq, replaceFirst_append]
  by_cases htop : Keyed.contains top key = true
  · simp [htop]
  · by_cases hbelow : below.any (Keyed.contains · key) = true
    · simp [htop, hbelow, length_replaceFirst]
    · cases global with
      | none => simp [htop, hbelow, replaceFirst]
      | some g =>
        by_cases hg : Keyed.contains g key = true <;> simp [htop, hbelow, hg, replaceFirst]

theorem replaceFirst_of_not_any {key : String} {ms : List ValueMap}
    (h : ms.any (Keyed.contains · key) = false) (v : Value) : replaceFirst key v ms = ms := by
  induction ms with
  | nil => rfl
  | cons m ms ih =>
    obtain ⟨hm, hms⟩ : Keyed.contains m key = false ∧ ms.any (Keyed.contains · key) = false := by
      simpa using h
    rw [replaceFirst, hm, ih hms]
    rfl

theorem stack_replace (c : Context) (key : String) (v : Value) :
    (c.replace key v).stack = replaceFirst key v c.stack := by
  obtain ⟨hdepth, hmaps⟩ := maps_replace c key v
  unfold maps at hmaps
  rw [replaceFirst_append] at hmaps
  split at hmaps
  · exact (List.append_inj hmaps (hdepth.trans (length_replaceFirst key v c.stack).symm)).1
  · next h =>
    rw [replaceFirst_of_not_any (by simpa using h)]
    exact (List.append_inj hmaps hdepth).1

/-- A field of the global map is found as before where another field is rewritten. -/
theorem global_replace {c : Context} {g : ValueMap} (hg : c.global = some g) (key : String)
    (v : Value) : ∃ g', (c.replace key v).global = some g' ∧
      ∀ key', key ≠ key' → Keyed.get? g' key' = Keyed.get? g key' := by
  unfold replace
  split
  · exact ⟨g, hg, fun _ _ => rfl⟩
  · split
    · exact ⟨g, hg, fun _ _ => rfl⟩
    · rw [hg]
      dsimp only
      split
      · exact ⟨_, rfl, fun key' hne => Keyed.get?_insert_of_ne g v hne⟩
      · exact ⟨g, hg, fun _ _ => rfl⟩

theorem replaceFirst_replaceFirst (key : String) (v w : Value) (ms : List ValueMap) :
    replaceFirst key w (replaceFirst key v ms) = replaceFirst key w ms := by
  induction ms with
  | nil => rfl
  | cons m ms ih =>
    cases hm : Keyed.contains m key with
    | true => simp [replaceFirst, hm, Keyed.contains_insert_self, Keyed.insert_insert]
    | false => simp [replaceFirst, hm, ih]

theorem findSome?_replaceFirst {key : String} {ms : List ValueMap}
    (h : (ms.findSome? (Keyed.get? · key)).isSome = true) (v : Value) (key' : String) :
    (replaceFirst key v ms).findSome? (Keyed.get? · key') =
      if key = key' then some v else ms.findSome? (Keyed.get? · key') := by
  induction ms with
  | nil => cases h
  | cons m ms ih =>
    cases hm : Keyed.get? m key with
    | some x =>
      have hcontains : Keyed.contains m key = true := by rw [Keyed.contains, hm]; rfl
      rw [replaceFirst, if_pos hcontains, List.findSome?_cons, List.findSome?_cons,
        Keyed.get?_insert]
      by_cases heq : key = key'
      · rw [if_pos heq, if_pos heq]
      · rw [if_neg heq, if_neg heq]
    | none =>
      have hcontains : ¬Keyed.contains m key = true := by simp [Keyed.contains, hm]
      rw [List.findSome?_cons, hm] at h
      rw [replaceFirst, if_neg hcontains, List.findSome?_cons, List.findSome?_cons, ih h]
      by_cases heq : key = key'
      · rw [← heq, hm, if_pos rfl]
      · rw [if_neg heq, if_neg heq]

theorem get?_insert (c : Context) (key : String) (v : Value) (key' : String) :
    (c.insert key v).get? key' = if key = key' then some v else c.get? key' := by
  simp only [get?, stack, insert, List.findSome?_cons, Keyed.get?_insert]
  by_cases heq : key = key'
  · rw [if_pos heq, if_pos heq]
    rfl
  · rw [if_neg heq, if_neg heq]

theorem get?_replace {c : Context} {key : String} (h : (c.get? key).isSome = true) (v : Value)
    (key' : String) : (c.replace key v).get? key' = if key = key' then some v else c.get? key' := by
  rw [get?_eq_findSome?] at h
  rw [get?_eq_findSome?, get?_eq_findSome?, (maps_replace c key v).2, findSome?_replaceFirst h]

theorem insert_insert (c : Context) (key : String) (v w : Value) :
    (c.insert key v).insert key w = c.insert key w := by
  simp only [insert, Keyed.insert_insert]

theorem replace_insert (c : Context) (key : String) (v w : Value) :
    (c.insert key v).replace key w = c.insert key w := by
  have hreplace : (c.insert key v).replace key w = (c.insert key v).insert key w :=
    if_pos (Keyed.contains_insert_self c.top key v)
  rw [hreplace, insert_insert]

theorem replace_replace (c : Context) (key : String) (v w : Value) :
    (c.replace key v).replace key w = c.replace key w := by
  obtain ⟨hdepth, hmaps⟩ := maps_replace c key v
  obtain ⟨hdepth', hmaps'⟩ := maps_replace c key w
  obtain ⟨hdepth'', hmaps''⟩ := maps_replace (c.replace key v) key w
  apply ext_maps
  · rw [hdepth'', hdepth, hdepth']
  · rw [hmaps'', hmaps, hmaps', replaceFirst_replaceFirst]

theorem exists_replaceFirst_eq_set (key : String) (v : Value) (ms : List ValueMap) :
    ∃ i m, replaceFirst key v ms = ms.set i m := by
  induction ms with
  | nil => exact ⟨0, [], rfl⟩
  | cons m ms ih =>
    rw [replaceFirst]
    split
    · exact ⟨0, _, rfl⟩
    · obtain ⟨i, m', heq⟩ := ih
      exact ⟨i + 1, m', by rw [heq, List.set_cons_succ]⟩

theorem oneMapDiffers_self (c : Context) : c.OneMapDiffers c := ⟨rfl, 0, c.top, rfl⟩

theorem oneMapDiffers_insert (c : Context) (key : String) (v : Value) :
    c.OneMapDiffers (c.insert key v) :=
  ⟨rfl, 0, _, maps_insert c key v⟩

theorem oneMapDiffers_replace (c : Context) (key : String) (v : Value) :
    c.OneMapDiffers (c.replace key v) := by
  obtain ⟨hdepth, hmaps⟩ := maps_replace c key v
  obtain ⟨i, m, hset⟩ := exists_replaceFirst_eq_set key v c.maps
  exact ⟨hdepth, i, m, hmaps.trans hset⟩

end ScreenActions.Context
