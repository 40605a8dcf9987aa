import ScreenActions.Proofs.PathLens

/-!
Contexts through any changes. A read, the test for a field and all visible fields in one map find
the same entry, which is the one that a write in place reaches, and a context never loses its last
layer.
-/

namespace ScreenActions

/-- A change of a context. -/
inductive ContextChange
  | push
  | pop
  | insert (key : String) (v : Value)
  | extend (m : ValueMap)
  | erase (key : String)
  | replace (key : String) (v : Value)
  /-- Whatever is written to the global map, if there is one. -/
  | writeGlobal (write : ValueMap → ValueMap)
  | put (p : FieldPath) (v : Value)

namespace ContextChange

def apply (c : Context) : ContextChange → Context
  | .push => c.push
  | .pop => c.pop.1
  | .insert key v => c.insert key v
  | .extend m => c.extend m
  | .erase key => (c.erase key).1
  | .replace key v => c.replace key v
  | .writeGlobal write => { c with global := c.global.map write }
  | .put p v => (p.put c v).1

/-- The number of layers after a change: the last one stays. -/
def depth (n : Nat) : ContextChange → Nat
  | .push => n + 1
  | .pop => max 1 (n - 1)
  | _ => n

end ContextChange

namespace Context

/-- The entry of a key in the first map that has one, from the top layer down to the global map. -/
structure EntryAt (c : Context) (key : String) (upper : List ValueMap) (m : ValueMap)
    (lower : List ValueMap) (v : Value) : Prop where
  maps_eq : c.maps = upper ++ m :: lower
  entry : Keyed.get? m key = some v
  hidden : ∀ m' ∈ upper, Keyed.get? m' key = none

variable {c : Context} {key : String} {v : Value} {upper lower : List ValueMap} {m : ValueMap}

theorem get?_eq_some_iff :
    c.get? key = some v ↔ ∃ upper m lower, c.EntryAt key upper m lower v := by
  rw [get?_eq_findSome?, List.findSome?_eq_some_iff]
  exact ⟨fun ⟨upper, m, lower, hmaps, hentry, hhidden⟩ => ⟨upper, m, lower, hmaps, hentry, hhidden⟩,
    fun ⟨upper, m, lower, h⟩ => ⟨upper, m, lower, h.maps_eq, h.entry, h.hidden⟩⟩

theorem EntryAt.get?_eq (h : c.EntryAt key upper m lower v) : c.get? key = some v :=
  get?_eq_some_iff.mpr ⟨upper, m, lower, h⟩

theorem contains_eq_true_iff : c.contains key = true ↔ ∃ v, c.get? key = some v :=
  Option.isSome_iff_exists

theorem get?_flatten (c : Context) (key : String) : Keyed.get? c.flatten key = c.get? key := by
  rw [flatten, Keyed.get?_foldl_extend, layers, List.reverse_reverse, get?]
  cases c.global <;> rfl

theorem replaceFirst_of_entry (h : ∀ m' ∈ upper, Keyed.get? m' key = none)
    (hm : Keyed.get? m key = some v) (w : Value) :
    replaceFirst key w (upper ++ m :: lower) = upper ++ Keyed.insert key w m :: lower := by
  induction upper with
  | nil => simp [replaceFirst, Keyed.contains, hm]
  | cons m' upper ih =>
    obtain ⟨hm', hupper⟩ := List.forall_mem_cons.mp h
    simp [replaceFirst, Keyed.contains, hm', ih hupper]

/-- A write in place reaches the entry that a read finds. -/
theorem EntryAt.replace (h : c.EntryAt key upper m lower v) (w : Value) :
    (c.replace key w).EntryAt key upper (Keyed.insert key w m) lower w where
  maps_eq := by
    rw [(maps_replace c key w).2, h.maps_eq, replaceFirst_of_entry h.hidden h.entry]
  entry := Keyed.get?_insert_self m key w
  hidden := h.hidden

theorem EntryAt.replace_self (h : c.EntryAt key upper m lower v) : c.replace key v = c := by
  refine ext_maps (maps_replace c key v).1 ?_
  rw [(h.replace v).maps_eq, Keyed.insert_of_get? h.entry, h.maps_eq]

theorem replace_of_get?_eq_none (h : c.get? key = none) (w : Value) : c.replace key w = c := by
  rw [get?_eq_findSome?, List.findSome?_eq_none_iff] at h
  have hany : c.maps.any (Keyed.contains · key) = false := by
    simpa [Keyed.contains, Option.isSome_iff_ne_none] using h
  refine ext_maps (maps_replace c key w).1 ?_
  rw [(maps_replace c key w).2, replaceFirst_of_not_any hany]

theorem depth_apply (c : Context) (change : ContextChange) :
    (change.apply c).depth = change.depth c.depth := by
  cases change with
  | pop =>
    obtain ⟨top, below, global⟩ := c
    cases below with
    | nil => rfl
    | cons next rest => exact (Nat.max_eq_right (Nat.succ_pos _)).symm
  | replace key v => exact (maps_replace c key v).1
  | put p v => exact (FieldPath.oneMapDiffers_put p c v).1
  | _ => rfl

/-- The context after changes, one after the other. -/
def changed (c : Context) (changes : List ContextChange) : Context :=
  changes.foldl ContextChange.apply c

theorem depth_changed (c : Context) (changes : List ContextChange) :
    (c.changed changes).depth = changes.foldl ContextChange.depth c.depth := by
  induction changes generalizing c with
  | nil => rfl
  | cons change changes ih =>
    rw [List.foldl_cons, ← depth_apply]
    exact ih (change.apply c)

/-- After any changes of a context there is a layer left, and for every key a read finds the entry
of the first map that has one, the test for the key and all visible fields in one map agree with it,
and a write in place goes to that entry, is read from then on and changes no other read. -/
theorem views_agree_after_changes (c : Context) (changes : List ContextChange) :
    let c' := c.changed changes
    c'.layers ≠ [] ∧ c'.layers.length = changes.foldl ContextChange.depth c.depth ∧
    ∀ key,
      (∀ v, c'.get? key = some v ↔ ∃ upper m lower, c'.EntryAt key upper m lower v) ∧
      (c'.contains key = true ↔ ∃ v, c'.get? key = some v) ∧
      Keyed.get? c'.flatten key = c'.get? key ∧
      (c'.get? key = none → ∀ w, c'.replace key w = c') ∧
      ∀ upper m lower v, c'.EntryAt key upper m lower v → c'.replace key v = c' ∧
        ∀ w, (c'.replace key w).depth = c'.depth ∧
          (c'.replace key w).maps = upper ++ Keyed.insert key w m :: lower ∧
          ∀ key', (c'.replace key w).get? key' = if key = key' then some w else c'.get? key' := by
  intro c'
  have hlength : c'.layers.length = c'.depth := List.length_reverse
  have hne : c'.layers ≠ [] := List.reverse_ne_nil_iff.mpr (List.cons_ne_nil _ _)
  refine ⟨hne, hlength.trans (depth_changed c changes), fun key => ?_⟩
  refine ⟨fun _ => get?_eq_some_iff, contains_eq_true_iff, c'.get?_flatten key,
    replace_of_get?_eq_none, fun upper m lower v hentry => ?_⟩
  refine ⟨hentry.replace_self, fun w => ⟨(maps_replace c' key w).1, ?_, fun key' => ?_⟩⟩
  · exact (hentry.replace w).maps_eq
  · exact get?_replace (by rw [hentry.get?_eq]; rfl) w key'

theorem views_agree_after_changes_of_fresh :
    let c : Context := { global := some [] }
    let changes : List ContextChange :=
      [.insert "user" (.text "Ann"), .writeGlobal (Keyed.insert "theme" (.map [])), .push, .pop,
        .pop, .push, .insert "user" .null, .put (.ofText "theme.name") (.text "dark")]
    let c' := c.changed changes
    c'.layers.length = 2 ∧
      Keyed.get? c'.flatten "user" = some .null ∧
      c'.maps =
        [[("user", .null)], [("user", .text "Ann")], [("theme", .map [("name", .text "dark")])]] ∧
      (c'.replace "theme" .null).maps =
        [[("user", .null)], [("user", .text "Ann")], [("theme", .null)]] ∧
      (c'.replace "theme" .null).get? "theme" = some .null := by
  intro c changes c'
  obtain ⟨-, hlength, hviews⟩ := views_agree_after_changes c changes
  have hentry : c'.EntryAt "theme" [[("user", .null)], [("user", .text "Ann")]]
      [("theme", .map [("name", .text "dark")])] [] (.map [("name", .text "dark")]) :=
    ⟨rfl, rfl, by simp [Keyed.get?]⟩
  obtain ⟨-, hmaps, hread⟩ := ((hviews "theme").2.2.2.2 _ _ _ _ hentry).2 .null
  exact ⟨hlength, (hviews "user").2.2.1, rfl, hmaps, hread "theme"⟩

end Context
end ScreenActions
