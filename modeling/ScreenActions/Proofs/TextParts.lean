import ScreenActions.Text.Blank

/-!
Parts of texts: what a text begins with, ends with and has in it, the two sides of a separator, and
what remains without the blanks at the ends.
-/

namespace ScreenActions.Text

/-! ### Searches -/

theorem startsWith_iff_isPrefix {lead s : List Char} :
    startsWith lead s = true ↔ lead <+: s := by
  rw [startsWith_iff]
  exact exists_congr fun rest => eq_comm

theorem endsWith_iff_isSuffix {tail s : List Char} : endsWith tail s = true ↔ tail <:+ s := by
  rw [endsWith, stripTail?, Option.isSome_map, ← List.reverse_prefix]
  exact startsWith_iff_isPrefix

theorem occursIn_iff_isInfix {part s : List Char} : occursIn part s = true ↔ part <:+: s := by
  induction s with
  | nil => simp [occursIn]
  | cons c s ih =>
    rw [occursIn, Bool.or_eq_true, startsWith_iff_isPrefix, ih, List.infix_cons_iff]

section Separators

variable {sep : Char} {s : List Char}

theorem cutFirst_append (h : sep ∉ s) (rest : List Char) :
    cutFirst sep (s ++ sep :: rest) = some (s, rest) := by
  induction s with
  | nil => simp [cutFirst]
  | cons c s ih =>
    rw [List.mem_cons, not_or] at h
    simp [cutFirst, Ne.symm h.1, ih h.2]

theorem cutFirst_of_not_mem (h : sep ∉ s) : cutFirst sep s = none := by
  induction s with
  | nil => rfl
  | cons c s ih =>
    rw [List.mem_cons, not_or] at h
    rw [cutFirst, if_neg (Ne.symm h.1), ih h.2, Option.map_none]

theorem cutLast_of_not_mem (h : sep ∉ s) : cutLast sep s = none := by
  rw [cutLast, cutFirst_of_not_mem (by simpa using h), Option.map_none]

theorem cutLast_append (h : sep ∉ s) (front : List Char) :
    cutLast sep (front ++ sep :: s) = some (front, s) := by
  have hreverse : (front ++ sep :: s).reverse = s.reverse ++ sep :: front.reverse := by simp
  rw [cutLast, hreverse, cutFirst_append (by simpa using h)]
  simp

/-- The last of its kind has none after it. -/
theorem exists_last_of_mem (h : sep ∈ s) : ∃ front back, s = front ++ sep :: back ∧ sep ∉ back := by
  obtain ⟨back, front, hreverse, hback⟩ := List.eq_append_cons_of_mem (List.mem_reverse.mpr h)
  have hs : s = front.reverse ++ sep :: back.reverse := by
    rw [← List.reverse_reverse s, hreverse]
    simp
  exact ⟨_, _, hs, by simpa using hback⟩

end Separators

/-! ### Trimming -/

theorem trimStart_of_head {s : List Char} (h : ∀ c ∈ s.head?, isBlank c = false) :
    trimStart s = s := by
  cases s with
  | nil => rfl
  | cons c s => exact List.dropWhile_cons_of_neg (by simp [h c rfl])

theorem trimEnd_of_getLast {s : List Char} (h : ∀ c ∈ s.getLast?, isBlank c = false) :
    trimEnd s = s := by
  have hs : trimStart s.reverse = s.reverse :=
    trimStart_of_head fun c hc => h c (by rwa [List.head?_reverse] at hc)
  exact (congrArg List.reverse hs).trans (List.reverse_reverse s)

theorem head_trimStart (s : List Char) : ∀ c ∈ (trimStart s).head?, isBlank c = false := by
  intro c hc
  have h := List.head?_dropWhile_not isBlank s
  rw [Option.mem_def.mp hc] at h
  simpa using h

theorem trimEnd_isPrefix (s : List Char) : trimEnd s <+: s := by
  have h := List.reverse_prefix.mpr (List.dropWhile_suffix isBlank (l := s.reverse))
  rwa [List.reverse_reverse] at h

theorem head_trim (s : List Char) : ∀ c ∈ (trim s).head?, isBlank c = false := by
  intro c hc
  obtain ⟨t, ht⟩ := trimEnd_isPrefix (trimStart s)
  apply head_trimStart s
  rw [Option.mem_def] at hc ⊢
  rw [← ht, List.head?_append, show (trimEnd (trimStart s)).head? = some c from hc]
  rfl

theorem trim_eq_self {s : List Char} (hhead : ∀ c ∈ s.head?, isBlank c = false)
    (hlast : ∀ c ∈ s.getLast?, isBlank c = false) : trim s = s := by
  rw [trim, trimStart_of_head hhead, trimEnd_of_getLast hlast]

theorem getLast_trimEnd (s : List Char) : ∀ c ∈ (trimEnd s).getLast?, isBlank c = false := by
  intro c hc
  rw [trimEnd, List.getLast?_reverse] at hc
  exact head_trimStart s.reverse c hc

theorem trim_sublist (s : List Char) : (trim s).Sublist s :=
  (trimEnd_isPrefix _).sublist.trans (List.dropWhile_sublist isBlank)

theorem mem_of_mem_trim {c : Char} {s : List Char} (h : c ∈ trim s) : c ∈ s :=
  (trim_sublist s).subset h

/-- A text that is not longer than without the blanks around it does not end in one. -/
theorem getLast_of_length_le_trim {s : List Char} (h : s.length ≤ (trim s).length) :
    ∀ c ∈ s.getLast?, isBlank c = false := by
  have hs : trim s = s := (trim_sublist s).eq_of_length_le h
  rw [← hs]
  exact getLast_trimEnd (trimStart s)

end ScreenActions.Text
