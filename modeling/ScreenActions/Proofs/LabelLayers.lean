import Mathlib.Data.List.Basic
import ScreenActions.Messages.Source
import ScreenActions.Proofs.BundleHeap

/-!
The layers of a message map into which resources are loaded by name: each name once, in the order of
first loads, so that a key is answered by the first resource that has it.
-/

namespace List

variable {α β : Type} [BEq α] [LawfulBEq α]

theorem eraseDups_concat (as : List α) (a : α) [Decidable (a ∈ as)] :
    (as ++ [a]).eraseDups = if a ∈ as then as.eraseDups else as.eraseDups ++ [a] := by
  rw [eraseDups_append]
  split
  · next h => simp [removeAll, h]
  · next h => simp [removeAll, h, eraseDups_cons]

/-- What is found first is found at a first occurrence. -/
theorem findSome?_eraseDups (f : α → Option β) : ∀ as : List α,
    as.eraseDups.findSome? f = as.findSome? f
  | [] => rfl
  | a :: as => by
    have : (as.filter fun b => !b == a).length < as.length + 1 :=
      Nat.lt_succ_of_le (length_filter_le _ as)
    rw [eraseDups_cons, findSome?_cons, findSome?_cons]
    cases ha : f a with
    | some b => rfl
    | none =>
      have hfilter : (as.filter fun b => !b == a).filterMap f = as.filterMap f := by
        rw [filterMap_filter]
        refine filterMap_congr fun b _ => ?_
        by_cases hb : b = a <;> simp [hb, ha]
      dsimp only
      rw [findSome?_eraseDups f (as.filter _), ← head?_filterMap, hfilter, head?_filterMap]
termination_by as => as.length

end List

namespace ScreenActions

open Messages

namespace MemorySource

/-- What a family gives for a locale. -/
def named (m : MemorySource) (locale : Option Locale) (name : String) : Bundle :=
  let family := (Keyed.get? m name).getD []
  ⟨name, locale, ((tags locale).filterMap (Keyed.get? family)).foldl Keyed.extend []⟩

variable {m : MemorySource} {locale : Option Locale}

theorem eq_named_of_bundle {resource : String} {b : Bundle}
    (h : m.bundle resource locale = .ok b) : b = m.named locale (resourceName resource) := by
  unfold bundle at h
  dsimp only at h
  split at h
  · cases h
  · next family hfamily =>
    cases h
    simp only [named, hfamily, Option.getD_some]

/-- The layers that loading resources of these names leaves. -/
def layers (m : MemorySource) (locale : Option Locale) (names : List String) : BundleStack :=
  names.eraseDups.map (m.named locale)

theorem resources_layers (names : List String) :
    (m.layers locale names).resources = names.eraseDups := by
  unfold layers BundleStack.resources
  rw [List.map_map]
  exact List.map_id _

theorem sameSource_named (name name' : String) :
    (m.named locale name).sameSource (m.named locale name') = (name == name') := by
  simp [Bundle.sameSource, named]

/-- Loading one more resource puts it at the bottom, unless its name is there already. -/
theorem layers_concat (names : List String) (name : String) :
    m.layers locale (names ++ [name]) =
      ((m.layers locale names).addBottom (m.named locale name)).1 := by
  have hany : (m.layers locale names).any (·.sameSource (m.named locale name)) =
      decide (name ∈ names) := by
    simp only [layers, List.any_map, Function.comp_def, sameSource_named, List.any_beq',
      List.contains_eq_mem, List.mem_eraseDups]
  unfold BundleStack.addBottom
  rw [hany, layers, List.eraseDups_concat]
  by_cases h : name ∈ names
  · simp [h, layers]
  · simp [h, layers]

theorem get?_layers (names : List String) (key : String) :
    (m.layers locale names).get? key =
      names.findSome? fun name => (m.named locale name).get? key := by
  unfold layers BundleStack.get?
  rw [List.findSome?_map, List.findSome?_eraseDups]
  rfl

/-- Without a load the slot has no map, and otherwise it has one with the layers of the names. -/
def Holds (m : MemorySource) (locale : Option Locale) (heap : BundleHeap)
    (slot : Option BundleHandle) (names : List String) : Prop :=
  match slot with
  | none => names = []
  | some h => names ≠ [] ∧ h < heap.length ∧ heap.stack h = m.layers locale names

variable {heap : BundleHeap} {slot : Option BundleHandle} {names : List String}

theorem Holds.load (hs : m.Holds locale heap slot names) (name : String) :
    m.Holds locale (heap.load (m.named locale name) slot).2
      (some (heap.load (m.named locale name) slot).1) (names ++ [name]) := by
  cases slot with
  | none =>
    obtain rfl : names = [] := hs
    refine ⟨by simp, ?_, ?_⟩
    · simp [BundleHeap.load, BundleHeap.alloc]
    · exact (BundleHeap.stack_alloc_self heap _).trans (by simp [layers, List.eraseDups_cons])
  | some h =>
    obtain ⟨-, hlt, hstack⟩ := hs
    refine ⟨by simp, BundleHeap.lt_length_load hlt, ?_⟩
    rw [layers_concat, ← hstack]
    exact BundleHeap.stack_addBottom_self _ hlt

/-- Loading into one slot leaves what another one holds. -/
theorem Holds.load_of_ne (hs : m.Holds locale heap slot names) (b : Bundle)
    {other : Option BundleHandle} (hne : ∀ h, slot = some h → other ≠ some h) :
    m.Holds locale (heap.load b other).2 slot names := by
  cases slot with
  | none => exact hs
  | some h =>
    obtain ⟨hnames, hlt, hstack⟩ := hs
    refine ⟨hnames, BundleHeap.lt_length_load hlt, ?_⟩
    rw [BundleHeap.stack_load_of_ne hlt (hne h rfl), hstack]

/-- Loading into one slot does not give it the map of another one. -/
theorem Holds.load_fst_ne (hs : m.Holds locale heap slot names) (b : Bundle)
    {other : Option BundleHandle} (hne : ∀ h, slot = some h → other ≠ some h) :
    ∀ h, slot = some h → (heap.load b other).1 ≠ h := by
  rintro h rfl
  exact BundleHeap.load_fst_ne hs.2.1 (hne h rfl)

end MemorySource
end ScreenActions
