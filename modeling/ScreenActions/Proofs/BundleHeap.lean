import ScreenActions.Bundle

/-!
What making a message map, and adding to one, does to the maps of all handles.
-/

namespace ScreenActions.BundleHeap

theorem stack_alloc_of_lt {heap : BundleHeap} {h : BundleHandle} (b : Bundle)
    (hh : h < heap.length) : stack (heap.alloc b).2 h = stack heap h := by
  simp only [stack, alloc, List.getElem?_append_left hh]

theorem stack_alloc_self (heap : BundleHeap) (b : Bundle) :
    stack (heap.alloc b).2 heap.length = [b] := by
  simp [stack, alloc]

theorem stack_addBottom_of_ne {heap : BundleHeap} {h k : BundleHandle} (b : Bundle) (hk : k ≠ h) :
    stack (heap.addBottom h b).1 k = stack heap k := by
  simp only [stack, addBottom, List.getElem?_set_ne (Ne.symm hk)]

theorem stack_addBottom_self {heap : BundleHeap} {h : BundleHandle} (b : Bundle)
    (hh : h < heap.length) :
    stack (heap.addBottom h b).1 h = ((stack heap h).addBottom b).1 := by
  simp only [stack, addBottom, List.getElem?_set_self hh, Option.getD_some]

@[simp] theorem length_addBottom (heap : BundleHeap) (h : BundleHandle) (b : Bundle) :
    (heap.addBottom h b).1.length = heap.length := by
  simp [addBottom]

@[simp] theorem length_alloc (heap : BundleHeap) (b : Bundle) :
    (heap.alloc b).2.length = heap.length + 1 := by
  simp [alloc]

theorem prefix_stack_alloc (heap : BundleHeap) (b : Bundle) (h : BundleHandle) :
    stack heap h <+: stack (heap.alloc b).2 h := by
  by_cases hh : h < heap.length
  · simp only [stack_alloc_of_lt b hh, List.prefix_rfl]
  · have hnil : stack heap h = [] := by
      simp only [stack, List.getElem?_eq_none (Nat.le_of_not_lt hh), Option.getD_none]
    rw [hnil]
    exact List.nil_prefix

/-- The bundles that a message map has stay on top, in their order. -/
theorem prefix_stack_addBottom (heap : BundleHeap) (h k : BundleHandle) (b : Bundle) :
    stack heap k <+: stack (heap.addBottom h b).1 k := by
  by_cases hk : k = h
  · subst hk
    by_cases hlt : k < heap.length
    · rw [stack_addBottom_self b hlt]
      unfold BundleStack.addBottom
      split
      · exact List.prefix_rfl
      · exact List.prefix_append _ _
    · have hset : (heap.addBottom k b).1 = heap :=
        List.set_eq_of_length_le (Nat.le_of_not_lt hlt)
      simp only [hset, List.prefix_rfl]
  · simp only [stack_addBottom_of_ne b hk, List.prefix_rfl]

/-- A bundle put below the others of a map, or made a map of its own: the handle of the map, and
all maps then. -/
def load (heap : BundleHeap) (b : Bundle) : Option BundleHandle → BundleHandle × BundleHeap
  | none => heap.alloc b
  | some h => (h, (heap.addBottom h b).1)

variable {heap : BundleHeap} {b : Bundle} {h : BundleHandle} {slot : Option BundleHandle}

theorem lt_length_load (hh : h < heap.length) : h < (heap.load b slot).2.length := by
  cases slot with
  | none => simpa only [load, length_alloc] using Nat.lt_succ_of_lt hh
  | some k => simpa only [load, length_addBottom] using hh

/-- Loading into one map leaves the others as they are. -/
theorem stack_load_of_ne (hh : h < heap.length) (hslot : slot ≠ some h) :
    stack (heap.load b slot).2 h = stack heap h := by
  cases slot with
  | none => exact stack_alloc_of_lt b hh
  | some k => exact stack_addBottom_of_ne b fun hk => hslot (by rw [hk])

/-- A map that is loaded into is not one of the others. -/
theorem load_fst_ne (hh : h < heap.length) (hslot : slot ≠ some h) : (heap.load b slot).1 ≠ h := by
  cases slot with
  | none => exact Nat.ne_of_gt hh
  | some k => exact fun hk => hslot (congrArg some hk)

end ScreenActions.BundleHeap
