/-! Finite maps from texts, as entries in increasing order of their keys. -/

namespace ScreenActions

abbrev Keyed (α : Type) := List (String × α)

namespace Keyed

variable {α β : Type}

/-- Keys increase from each entry to the next. -/
def Ordered (m : Keyed α) : Prop := m.Pairwise fun a b => a.1 < b.1

def get? : Keyed α → String → Option α
  | [], _ => none
  | (k, v) :: m, key => if k = key then some v else get? m key

def contains (m : Keyed α) (key : String) : Bool := (get? m key).isSome

/-- A value put in the place of that of its key, or before the first greater key. The place of a key
is looked for in all entries, so that the laws of lookups hold of entries in any order. -/
def insert (key : String) (value : α) : Keyed α → Keyed α
  | [] => [(key, value)]
  | (k, v) :: m =>
      if key = k then (key, value) :: m
      else if key < k ∧ contains m key = false then (key, value) :: (k, v) :: m
      else (k, v) :: insert key value m

def erase (key : String) (m : Keyed α) : Keyed α := m.filter fun e => e.1 != key

/-- The entries of `upper`, and those of `m` under other keys. -/
def extend (m upper : Keyed α) : Keyed α := upper.foldr (fun e acc => insert e.1 e.2 acc) m

/-- The map of a list of entries; the last entry of a key counts. -/
def ofEntries (entries : List (String × α)) : Keyed α :=
  entries.foldl (fun acc e => insert e.1 e.2 acc) []

def mapValues (f : α → β) (m : Keyed α) : Keyed β := m.map fun e => (e.1, f e.2)

theorem get?_insert (m : Keyed α) (k : String) (v : α) (key : String) :
    get? (insert k v m) key = if k = key then some v else get? m key := by
  induction m with
  | nil => simp [insert, get?]
  | cons e m ih =>
      obtain ⟨k', v'⟩ := e
      simp only [insert]
      split
      · next h => subst h; by_cases hk : k = key <;> simp [get?, hk]
      · split
        · simp [get?]
        · next h _ =>
            simp only [get?, ih]
            by_cases hk : k = key
            · subst hk; simp [Ne.symm h]
            · simp [hk]

@[simp] theorem get?_insert_self (m : Keyed α) (k : String) (v : α) :
    get? (insert k v m) k = some v := by simp [get?_insert]

theorem get?_insert_of_ne (m : Keyed α) {k key : String} (v : α) (h : k ≠ key) :
    get? (insert k v m) key = get? m key := by simp [get?_insert, h]

end Keyed
end ScreenActions
