import ScreenActions.Proofs.BundleHeap
import ScreenActions.Proofs.KeyedOrder

/-!
Message maps behind handles, through any calls by the handles and their clones. Reading a key,
asking for it and all messages in one map agree, and a map only ever grows at its bottom.
-/

namespace ScreenActions

theorem Bundle.sameSource_iff {a b : Bundle} :
    a.sameSource b = true ↔ a.resource = b.resource ∧ a.locale = b.locale := by
  simp [sameSource]

namespace BundleStack

/-- No two bundles have one resource and locale. -/
def Apart (s : BundleStack) : Prop :=
  s.Pairwise fun a b => ¬(a.resource = b.resource ∧ a.locale = b.locale)

/-- The message is that of the topmost bundle that has the key. -/
def TopMessage (s : BundleStack) (key message : String) : Prop :=
  ∃ upper b lower, s = upper ++ b :: lower ∧ b.get? key = some message ∧
    ∀ b' ∈ upper, b'.get? key = none

variable {s s' : BundleStack} {b : Bundle} {key message : String}

theorem get?_eq_some_iff : s.get? key = some message ↔ s.TopMessage key message :=
  List.findSome?_eq_some_iff

theorem contains_eq_true_iff : s.contains key = true ↔ ∃ message, s.get? key = some message := by
  rw [← Option.isSome_iff_exists, get?, List.findSome?_isSome_iff, contains, List.any_eq_true]
  rfl

theorem get?_flatten (s : BundleStack) (key : String) :
    Keyed.get? s.flatten key = s.get? key := by
  have hfold : s.flatten = (s.reverse.map Bundle.messages).foldl Keyed.extend [] :=
    List.foldl_map.symm
  rw [hfold, Keyed.get?_foldl_extend, ← List.map_reverse, List.reverse_reverse, List.findSome?_map]
  exact Option.or_none

theorem get?_of_prefix (h : s <+: s') (hkey : s.get? key = some message) :
    s'.get? key = some message := by
  obtain ⟨lower, rfl⟩ := h
  rw [get?, List.findSome?_append, ← get?, hkey]
  rfl

theorem addBottom_eq_false_iff :
    (s.addBottom b).2 = false ↔ (s.addBottom b).1 = s := by
  unfold addBottom
  split <;> simp

theorem addBottom_eq_false_iff_exists :
    (s.addBottom b).2 = false ↔ ∃ a ∈ s, a.resource = b.resource ∧ a.locale = b.locale := by
  have hany : s.any (·.sameSource b) = true ↔
      ∃ a ∈ s, a.resource = b.resource ∧ a.locale = b.locale := by
    simp only [List.any_eq_true, Bundle.sameSource_iff]
  rw [← hany]
  unfold addBottom
  split <;> simp_all

theorem addBottom_of_eq_true (h : (s.addBottom b).2 = true) : (s.addBottom b).1 = s ++ [b] := by
  unfold addBottom at h ⊢
  split at h
  · cases h
  · next hnew => rw [if_neg hnew]

theorem Apart.addBottom (h : s.Apart) (b : Bundle) : (s.addBottom b).1.Apart := by
  unfold BundleStack.addBottom
  split
  · exact h
  · next hnew =>
    refine List.pairwise_append.mpr ⟨h, List.pairwise_singleton _ _, fun a ha b' hb' => ?_⟩
    obtain rfl := List.mem_singleton.mp hb'
    exact fun hsame => hnew (List.any_eq_true.mpr ⟨a, ha, Bundle.sameSource_iff.mpr hsame⟩)

end BundleStack

namespace BundleHeap

/-- Adding a bundle is refused exactly if it changes none of the maps. -/
theorem addBottom_eq_false_iff {heap : BundleHeap} {h : BundleHandle} (hh : h < heap.length)
    (b : Bundle) : (heap.addBottom h b).2 = false ↔ (heap.addBottom h b).1 = heap := by
  refine BundleStack.addBottom_eq_false_iff.trans ⟨fun hsame => ?_, fun hsame => ?_⟩
  · have hstack : stack heap h = heap[h] := by rw [stack, List.getElem?_eq_getElem hh]; rfl
    change heap.set h ((stack heap h).addBottom b).1 = heap
    rw [hsame, hstack, List.set_getElem_self]
  · rw [← stack_addBottom_self b hh, hsame]

end BundleHeap

/-- A call on message maps, each reached by the place of a handle among those got so far. -/
inductive BundleCall
  | create (top : Bundle)
  | clone (i : Nat)
  | addBottom (i : Nat) (b : Bundle)
  deriving DecidableEq, Repr

/-- All message maps and the handles got so far. -/
structure BundleHolder where
  heap : BundleHeap := []
  handles : List BundleHandle := []
  deriving DecidableEq, Repr

namespace BundleHolder

/-- A clone is the same handle once more. A place without a handle does nothing. -/
def step (s : BundleHolder) : BundleCall → BundleHolder
  | .create top => ⟨(s.heap.alloc top).2, s.handles ++ [(s.heap.alloc top).1]⟩
  | .clone i => { s with handles := s.handles ++ s.handles[i]?.toList }
  | .addBottom i b => match s.handles[i]? with
      | none => s
      | some h => { s with heap := (s.heap.addBottom h b).1 }

def run (s : BundleHolder) (calls : List BundleCall) : BundleHolder := calls.foldl step s

/-- Every handle has its map, and the bundles of every map are apart. -/
structure Valid (s : BundleHolder) : Prop where
  lt_length : ∀ h ∈ s.handles, h < s.heap.length
  apart : ∀ stack ∈ s.heap, BundleStack.Apart stack

variable {s : BundleHolder} {call : BundleCall} {calls : List BundleCall} {h : BundleHandle}

theorem valid_empty : Valid {} := ⟨nofun, nofun⟩

theorem Valid.apart_stack (hs : s.Valid) (hh : h ∈ s.handles) : (s.heap.stack h).Apart := by
  have hlt := hs.lt_length h hh
  rw [BundleHeap.stack, List.getElem?_eq_getElem hlt]
  exact hs.apart _ (List.getElem_mem hlt)

theorem Valid.step (hs : s.Valid) (call : BundleCall) : (s.step call).Valid := by
  cases call with
  | create top =>
    constructor
    · intro h hh
      rw [BundleHolder.step, BundleHeap.length_alloc]
      rcases List.mem_append.mp hh with hh | hh
      · exact Nat.lt_succ_of_lt (hs.lt_length h hh)
      · rw [List.mem_singleton.mp hh]
        exact Nat.lt_succ_self _
    · exact List.forall_mem_append.mpr
        ⟨hs.apart, List.forall_mem_singleton.mpr (List.pairwise_singleton _ _)⟩
  | clone i =>
    refine ⟨fun h hh => ?_, hs.apart⟩
    rcases List.mem_append.mp hh with hh | hh
    · exact hs.lt_length h hh
    · exact hs.lt_length h (List.mem_of_getElem? (Option.mem_toList.mp hh))
  | addBottom i b =>
    rw [BundleHolder.step]
    cases hi : s.handles[i]? with
    | none => exact hs
    | some h =>
      have hmem := List.mem_of_getElem? hi
      refine ⟨fun h' hh' => ?_, fun stack hstack => ?_⟩
      · rw [BundleHeap.length_addBottom]
        exact hs.lt_length h' hh'
      · rcases List.mem_or_eq_of_mem_set hstack with hstack | rfl
        · exact hs.apart stack hstack
        · exact (hs.apart_stack hmem).addBottom b

theorem Valid.run (hs : s.Valid) (calls : List BundleCall) : (s.run calls).Valid := by
  induction calls generalizing s with
  | nil => exact hs
  | cons call calls ih => exact ih (hs.step call)

/-- What a call leaves of a map is on top of it. -/
theorem prefix_stack_step (s : BundleHolder) (call : BundleCall) (h : BundleHandle) :
    s.heap.stack h <+: (s.step call).heap.stack h := by
  cases call with
  | create top => exact s.heap.prefix_stack_alloc top h
  | clone i => exact List.prefix_rfl
  | addBottom i b =>
    rw [step]
    cases s.handles[i]? with
    | none => exact List.prefix_rfl
    | some k => exact s.heap.prefix_stack_addBottom k h b

theorem prefix_stack_run (s : BundleHolder) (calls : List BundleCall) (h : BundleHandle) :
    s.heap.stack h <+: (s.run calls).heap.stack h := by
  induction calls generalizing s with
  | nil => exact List.prefix_rfl
  | cons call calls ih => exact (s.prefix_stack_step call h).trans (ih (s.step call))

/-- After any calls, and for every handle, the ways to look at its map agree, no two of its bundles
have one resource and locale, and later calls leave the messages that it gives. A bundle is refused
exactly if its resource and locale are there, which is exactly if nothing changes, and otherwise
goes to the bottom. -/
theorem views_agree_and_messages_stay {calls : List BundleCall} {h : BundleHandle}
    (hh : h ∈ (run {} calls).handles) :
    let s := run {} calls
    let stack := s.heap.stack h
    (∀ key, (∀ message, s.heap.message? h key = some message ↔ stack.TopMessage key message) ∧
      (stack.contains key = true ↔ ∃ message, s.heap.message? h key = some message) ∧
      Keyed.get? stack.flatten key = s.heap.message? h key) ∧
    (stack.Pairwise fun a b => ¬(a.resource = b.resource ∧ a.locale = b.locale)) ∧
    (∀ later, stack <+: (s.run later).heap.stack h ∧ ∀ key message,
      s.heap.message? h key = some message → (s.run later).heap.message? h key = some message) ∧
    ∀ b, ((s.heap.addBottom h b).2 = false ↔ (s.heap.addBottom h b).1 = s.heap) ∧
      ((s.heap.addBottom h b).2 = false ↔
        ∃ a ∈ stack, a.resource = b.resource ∧ a.locale = b.locale) ∧
      ((s.heap.addBottom h b).2 = true →
        BundleHeap.stack (s.heap.addBottom h b).1 h = stack ++ [b]) := by
  intro s stack
  have hvalid : s.Valid := valid_empty.run calls
  have hlt := hvalid.lt_length h hh
  refine ⟨fun key => ⟨fun message => ?_, ?_, ?_⟩, hvalid.apart_stack hh, fun later => ?_,
    fun b => ?_⟩
  · exact BundleStack.get?_eq_some_iff
  · exact BundleStack.contains_eq_true_iff
  · exact BundleStack.get?_flatten stack key
  · have htop := s.prefix_stack_run later h
    exact ⟨htop, fun _ _ hkey => BundleStack.get?_of_prefix htop hkey⟩
  · refine ⟨BundleHeap.addBottom_eq_false_iff hlt b,
      BundleStack.addBottom_eq_false_iff_exists, fun hadded => ?_⟩
    rw [BundleHeap.stack_addBottom_self b hlt]
    exact BundleStack.addBottom_of_eq_true hadded

theorem views_agree_and_messages_stay_through_clone :
    let common : Bundle := ⟨"CommonUi", none, [("ok", "OK"), ("title", "Common")]⟩
    let order : Bundle := ⟨"OrderUi", none, [("cart", "Cart"), ("title", "Order")]⟩
    let calls : List BundleCall :=
      [.create order, .create common, .clone 1, .addBottom 2 order, .addBottom 1 common]
    let s := run {} calls
    1 ∈ s.handles ∧ s.handles = [0, 1, 1] ∧ s.heap.stack 1 = [common, order] ∧
      Keyed.get? (s.heap.stack 1).flatten "title" = some "Common" ∧
      (s.heap.addBottom 1 order).1 = s.heap ∧
      ∀ later, (s.run later).heap.message? 1 "cart" = some "Cart" := by
  intro common order calls s
  have hhandle : 1 ∈ s.handles := by decide
  obtain ⟨hviews, -, hlater, hadd⟩ := views_agree_and_messages_stay hhandle
  refine ⟨hhandle, rfl, rfl, ?_, ?_, fun later => ?_⟩
  · exact (hviews "title").2.2
  · exact (hadd order).1.mp rfl
  · exact (hlater later).2 "cart" "Cart" rfl

end BundleHolder
end ScreenActions
