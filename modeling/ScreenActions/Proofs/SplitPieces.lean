import Mathlib.Algebra.Order.BigOperators.Group.List
import Mathlib.Algebra.Order.Ring.Nat
import ScreenActions.Text.Blank

/-!
The pieces of a text between separators: none has a separator in it, pieces put together are found
again, and their lengths add up to that of the text.
-/

namespace ScreenActions.Text

variable {p : Char → Bool}

theorem splitAll_eq_splitOnP (p : Char → Bool) (s : List Char) : splitAll p s = s.splitOnP p := by
  induction s with
  | nil => rfl
  | cons c s ih =>
    rw [splitAll, List.splitOnP_cons_eq_if_modifyHead, ih]
    obtain ⟨w, ws, heq⟩ := List.exists_cons_of_ne_nil (List.splitOnP_ne_nil p s)
    rw [heq]
    rfl

theorem splitAll_intercalate {sep : Char} (hsep : p sep = true) {pieces : List (List Char)}
    (hne : pieces ≠ []) (h : ∀ w ∈ pieces, ∀ c ∈ w, p c = false) :
    splitAll p ([sep].intercalate pieces) = pieces := by
  rw [splitAll_eq_splitOnP]
  induction pieces with
  | nil => exact absurd rfl hne
  | cons w ws ih =>
    obtain ⟨hw, hws⟩ := List.forall_mem_cons.mp h
    by_cases hlast : ws = []
    · rw [hlast, List.intercalate_singleton]
      exact List.splitOnP_eq_singleton hw
    · rw [List.intercalate_cons_of_ne_nil hlast, List.append_assoc, List.singleton_append,
        List.splitOnP_append_cons_of_forall_mem hw sep hsep, ih hlast hws]

theorem not_separator_of_mem_splitAll {s w : List Char} (hw : w ∈ splitAll p s) :
    ∀ c ∈ w, p c = false := by
  induction s generalizing w with
  | nil => simp_all [splitAll]
  | cons c s ih =>
    rw [splitAll] at hw
    split at hw
    · rcases List.mem_cons.mp hw with rfl | hw
      · simp
      · exact ih hw
    · next hc =>
      cases hs : splitAll p s with
      | nil => simp_all
      | cons v vs =>
        rw [hs] at hw ih
        rcases List.mem_cons.mp hw with rfl | hw
        · exact List.forall_mem_cons.mpr ⟨by simpa using hc, ih List.mem_cons_self⟩
        · exact ih (List.mem_cons_of_mem v hw)

theorem sum_length_splitAll (p : Char → Bool) (s : List Char) :
    ((splitAll p s).map fun w => w.length + 1).sum = s.length + 1 := by
  induction s with
  | nil => rfl
  | cons c s ih =>
    rw [splitAll]
    split
    · simp [ih]
      omega
    · cases hs : splitAll p s with
      | nil => simp [hs] at ih
      | cons v vs =>
        rw [hs] at ih
        simp only [List.map_cons, List.sum_cons, List.length_cons] at ih ⊢
        omega

theorem length_intercalate (sep : Char) {pieces : List (List Char)} (hne : pieces ≠ []) :
    ([sep].intercalate pieces).length + 1 = (pieces.map fun w => w.length + 1).sum := by
  induction pieces with
  | nil => exact absurd rfl hne
  | cons w ws ih =>
    by_cases hlast : ws = []
    · simp [hlast]
    · have := ih hlast
      rw [List.intercalate_cons_of_ne_nil hlast]
      simp only [List.length_append, List.length_singleton, List.map_cons, List.sum_cons]
      omega

/-- Without some of its pieces a text is not longer. -/
theorem sum_length_le_of_sublist {pieces pieces' : List (List Char)} (h : pieces.Sublist pieces') :
    (pieces.map fun w => w.length + 1).sum ≤ (pieces'.map fun w => w.length + 1).sum :=
  (h.map _).sum_le_sum fun _ _ => Nat.zero_le _

end ScreenActions.Text
