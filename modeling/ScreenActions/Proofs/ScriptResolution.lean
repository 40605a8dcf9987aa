import Mathlib.Data.List.Induction
import ScreenActions.Proofs.TextParts
import ScreenActions.Script

/-!
Runners after a sequence of registrations. A suffix keeps its most recent registration, and a
location goes to the suffix whose most recent registration came first.
-/

namespace ScreenActions.ScriptRunners

open Text

variable {ρ : Type}

/-- The runners after the registrations of a history, from the first to the last. -/
def registered (history : List (ScriptRegistration ρ)) : ScriptRunners ρ :=
  history.foldl register []

theorem registered_concat (history : List (ScriptRegistration ρ)) (r : ScriptRegistration ρ) :
    registered (history ++ [r]) = register (registered history) r :=
  List.foldl_append

/-! ### One registration for each suffix -/

/-- No two registrations are for the same suffix. -/
def Distinct (rs : ScriptRunners ρ) : Prop := rs.Pairwise fun a b => a.suffix ≠ b.suffix

theorem Distinct.register {rs : ScriptRunners ρ} (h : Distinct rs) (r : ScriptRegistration ρ) :
    Distinct (register rs r) := by
  refine List.pairwise_append.mpr ⟨h.filter _, List.pairwise_singleton _ _, ?_⟩
  intro a ha b hb
  obtain rfl := List.mem_singleton.mp hb
  simpa using (List.mem_filter.mp ha).2

theorem distinct_registered (history : List (ScriptRegistration ρ)) :
    Distinct (registered history) := by
  induction history using List.reverseRecOn with
  | nil => exact List.Pairwise.nil
  | append_singleton history r ih =>
    rw [registered_concat]
    exact ih.register r

/-! ### The registrations that count -/

/-- Those registrations of a history that no later one for the same suffix replaces. -/
def latest : List (ScriptRegistration ρ) → List (ScriptRegistration ρ)
  | [] => []
  | r :: later => if later.any (·.suffix == r.suffix) then latest later else r :: latest later

theorem latest_concat (history : List (ScriptRegistration ρ)) (r : ScriptRegistration ρ) :
    latest (history ++ [r]) = register (latest history) r := by
  induction history with
  | nil => rfl
  | cons q later ih =>
    rw [List.cons_append, latest, latest, ih, List.any_append]
    by_cases hr : r.suffix = q.suffix
    · rw [if_pos (by simp [hr])]
      split <;> simp [register, hr]
    · have hany : [r].any (·.suffix == q.suffix) = false := by simpa using hr
      rw [hany, Bool.or_false]
      split
      · rfl
      · simp [register, Ne.symm hr]

theorem registered_eq_latest (history : List (ScriptRegistration ρ)) :
    registered history = latest history := by
  induction history using List.reverseRecOn with
  | nil => rfl
  | append_singleton history r ih => rw [registered_concat, latest_concat, ih]

theorem mem_of_mem_latest {history : List (ScriptRegistration ρ)} {r : ScriptRegistration ρ}
    (h : r ∈ latest history) : r ∈ history := by
  induction history with
  | nil => cases h
  | cons q later ih =>
    rw [latest] at h
    split at h
    · exact List.mem_cons_of_mem q (ih h)
    · exact (List.mem_cons.mp h).elim (· ▸ List.mem_cons_self)
        fun h => List.mem_cons_of_mem q (ih h)

/-- No suffix is lost. -/
theorem exists_mem_latest {history : List (ScriptRegistration ρ)} {r : ScriptRegistration ρ}
    (h : r ∈ history) : ∃ r' ∈ latest history, r'.suffix = r.suffix := by
  induction history generalizing r with
  | nil => cases h
  | cons q later ih =>
    rw [latest]
    split
    · next hlater =>
      rcases List.mem_cons.mp h with rfl | h
      · obtain ⟨r', hr', hsuffix⟩ := List.any_eq_true.mp hlater
        obtain ⟨r'', hr'', hsuffix'⟩ := ih hr'
        exact ⟨r'', hr'', hsuffix'.trans (beq_iff_eq.mp hsuffix)⟩
      · exact ih h
    · rcases List.mem_cons.mp h with rfl | h
      · exact ⟨r, List.mem_cons_self, rfl⟩
      · obtain ⟨r', hr', hsuffix⟩ := ih h
        exact ⟨r', List.mem_cons_of_mem q hr', hsuffix⟩

/-- The registration at place `i` of a history is the most recent one for its suffix. -/
def MostRecentAt (history : List (ScriptRegistration ρ)) (i : Nat) (r : ScriptRegistration ρ) :
    Prop :=
  history[i]? = some r ∧ ∀ j r', i < j → history[j]? = some r' → r'.suffix ≠ r.suffix

/-- The location ends in the suffix. -/
def Ends (location suffix : String) : Prop := suffix.toList <:+ location.toList

/-- Of the most recent registrations for suffixes that end the location, `r` came first. -/
def FirstServing (location : String) (history : List (ScriptRegistration ρ))
    (r : ScriptRegistration ρ) : Prop :=
  ∃ i, MostRecentAt history i r ∧ Ends location r.suffix ∧
    ∀ j r', MostRecentAt history j r' → Ends location r'.suffix → i ≤ j

section History

variable {q r : ScriptRegistration ρ} {later : List (ScriptRegistration ρ)} {location : String}

theorem mostRecentAt_cons_zero :
    MostRecentAt (q :: later) 0 r ↔ q = r ∧ ∀ r' ∈ later, r'.suffix ≠ q.suffix := by
  constructor
  · rintro ⟨hr, hlater⟩
    obtain rfl : q = r := by simpa using hr
    refine ⟨rfl, fun r' hr' => ?_⟩
    obtain ⟨j, hj⟩ := List.mem_iff_getElem?.mp hr'
    exact hlater (j + 1) r' (Nat.succ_pos j) (by simpa using hj)
  · rintro ⟨rfl, hlater⟩
    refine ⟨rfl, fun j r' hj hr' => ?_⟩
    obtain ⟨j, rfl⟩ := Nat.exists_eq_succ_of_ne_zero (Nat.ne_of_gt hj)
    exact hlater r' (List.mem_of_getElem? (by simpa using hr'))

theorem mostRecentAt_cons_succ {i : Nat} :
    MostRecentAt (q :: later) (i + 1) r ↔ MostRecentAt later i r := by
  refine and_congr (by simp) ⟨fun h j r' hj hr' => ?_, fun h j r' hj hr' => ?_⟩
  · exact h (j + 1) r' (Nat.succ_lt_succ hj) (by simpa using hr')
  · obtain ⟨j, rfl⟩ := Nat.exists_eq_succ_of_ne_zero (Nat.ne_of_gt (Nat.zero_lt_of_lt hj))
    exact h j r' (Nat.lt_of_succ_lt_succ hj) (by simpa using hr')

theorem firstServing_cons_of_recent (hq : Ends location q.suffix)
    (hlater : ∀ r' ∈ later, r'.suffix ≠ q.suffix) :
    FirstServing location (q :: later) r ↔ q = r := by
  have hzero : MostRecentAt (q :: later) 0 q := mostRecentAt_cons_zero.mpr ⟨rfl, hlater⟩
  constructor
  · rintro ⟨i, hi, -, hfirst⟩
    obtain rfl := Nat.le_zero.mp (hfirst 0 q hzero hq)
    exact (mostRecentAt_cons_zero.mp hi).1
  · rintro rfl
    exact ⟨0, hzero, hq, fun j r' _ _ => Nat.zero_le j⟩

/-- A registration that does not serve the location, or is replaced, does not count. -/
theorem firstServing_cons_of_not
    (h : ¬(Ends location q.suffix ∧ ∀ r' ∈ later, r'.suffix ≠ q.suffix)) :
    FirstServing location (q :: later) r ↔ FirstServing location later r := by
  have hzero : ∀ r', MostRecentAt (q :: later) 0 r' → ¬Ends location r'.suffix := by
    intro r' hr' hends
    obtain ⟨rfl, hlater⟩ := mostRecentAt_cons_zero.mp hr'
    exact h ⟨hends, hlater⟩
  constructor
  · rintro ⟨i, hi, hends, hfirst⟩
    cases i with
    | zero => exact absurd hends (hzero r hi)
    | succ i =>
      refine ⟨i, mostRecentAt_cons_succ.mp hi, hends, fun j r' hj hends' => ?_⟩
      exact Nat.le_of_succ_le_succ (hfirst (j + 1) r' (mostRecentAt_cons_succ.mpr hj) hends')
  · rintro ⟨i, hi, hends, hfirst⟩
    refine ⟨i + 1, mostRecentAt_cons_succ.mpr hi, hends, fun j r' hj hends' => ?_⟩
    cases j with
    | zero => exact absurd hends' (hzero r' hj)
    | succ j => exact Nat.succ_le_succ (hfirst j r' (mostRecentAt_cons_succ.mp hj) hends')

end History

theorem find?_latest_eq_some_iff {history : List (ScriptRegistration ρ)} {location : String}
    {r : ScriptRegistration ρ} :
    (latest history).find? (fun r => endsWith r.suffix.toList location.toList) = some r ↔
      FirstServing location history r := by
  induction history with
  | nil => simp [latest, FirstServing, MostRecentAt]
  | cons q later ih =>
    have hany : later.any (·.suffix == q.suffix) = true ↔ ¬∀ r' ∈ later, r'.suffix ≠ q.suffix := by
      simp
    rw [latest]
    split
    · next hlater => rw [ih, firstServing_cons_of_not fun h => hany.mp hlater h.2]
    · next hlater =>
      have hrecent := not_not.mp (mt hany.mpr hlater)
      rw [List.find?_cons]
      split
      · next hq =>
        rw [firstServing_cons_of_recent (endsWith_iff_isSuffix.mp hq) hrecent, Option.some.injEq]
      · next hq =>
        have hends : ¬Ends location q.suffix := fun h =>
          Bool.false_ne_true (hq ▸ endsWith_iff_isSuffix.mpr h)
        rw [ih, firstServing_cons_of_not fun h => hends h.1]

theorem find?_latest_eq_none_iff {history : List (ScriptRegistration ρ)} {location : String} :
    (latest history).find? (fun r => endsWith r.suffix.toList location.toList) = none ↔
      ∀ r ∈ history, ¬Ends location r.suffix := by
  simp only [List.find?_eq_none, endsWith_iff_isSuffix]
  constructor
  · intro h r hr
    obtain ⟨r', hr', hsuffix⟩ := exists_mem_latest hr
    exact hsuffix ▸ h r' hr'
  · exact fun h r hr => h r (mem_of_mem_latest hr)

/-! ### Locations -/

/-- What a location leads to after the registrations of a history. -/
inductive LeadsTo (history : List (ScriptRegistration ρ)) (location : String) :
    Option (ScriptTarget ρ) → Prop
  | script {r : ScriptRegistration ρ} (first : FirstServing location history r) :
      LeadsTo history location (some (.script r.kind r.runner))
  | method {resource name : String} (unserved : ∀ r ∈ history, ¬Ends location r.suffix)
      (xml : ".xml#".toList <:+: location.toList) (parts : resource ++ "#" ++ name = location)
      (last : '#' ∉ name.toList) : LeadsTo history location (some (.method resource name))
  | nothing (unserved : ∀ r ∈ history, ¬Ends location r.suffix)
      (other : ¬".xml#".toList <:+: location.toList) : LeadsTo history location none

theorem splitLocation_append {name : String} (h : '#' ∉ name.toList) (resource : String) :
    splitLocation (resource ++ "#" ++ name) = (resource, name) := by
  have hchars : (resource ++ "#" ++ name).toList = resource.toList ++ '#' :: name.toList := by simp
  simp only [splitLocation, hchars, cutLast_append h, String.ofList_toList]

theorem exists_splitLocation {location : String} (h : '#' ∈ location.toList) :
    ∃ resource name, splitLocation location = (resource, name) ∧
      resource ++ "#" ++ name = location ∧ '#' ∉ name.toList := by
  obtain ⟨resource, name, hlocation, hname⟩ := exists_last_of_mem h
  obtain rfl : String.ofList resource ++ "#" ++ String.ofList name = location := by
    rw [← String.toList_inj, hlocation]
    simp
  have hlast : '#' ∉ (String.ofList name).toList := by simpa using hname
  exact ⟨_, _, splitLocation_append hlast _, rfl, hlast⟩

theorem resolve?_of_find?_eq_some {rs : ScriptRunners ρ} {location : String}
    {r : ScriptRegistration ρ}
    (h : rs.find? (fun r => endsWith r.suffix.toList location.toList) = some r) :
    resolve? rs location = some (.script r.kind r.runner) := by
  rw [resolve?, h]

theorem resolve?_of_find?_eq_none {rs : ScriptRunners ρ} {location : String}
    (h : rs.find? (fun r => endsWith r.suffix.toList location.toList) = none) :
    resolve? rs location =
      if occursIn ".xml#".toList location.toList then
        some (.method (splitLocation location).1 (splitLocation location).2)
      else none := by
  rw [resolve?, h]

theorem leadsTo_resolve? (history : List (ScriptRegistration ρ)) (location : String) :
    LeadsTo history location (resolve? (latest history) location) := by
  cases hfind : (latest history).find? fun r => endsWith r.suffix.toList location.toList with
  | some r =>
    rw [resolve?_of_find?_eq_some hfind]
    exact .script (find?_latest_eq_some_iff.mp hfind)
  | none =>
    rw [resolve?_of_find?_eq_none hfind]
    have hunserved := find?_latest_eq_none_iff.mp hfind
    split
    · next hxml =>
      have hpart := occursIn_iff_isInfix.mp hxml
      obtain ⟨resource, name, hsplit, hparts, hlast⟩ :=
        exists_splitLocation (hpart.subset (by simp))
      rw [hsplit]
      exact .method hunserved hpart hparts hlast
    · next hxml => exact .nothing hunserved (mt occursIn_iff_isInfix.mpr hxml)

/-- A location leads to one target only. -/
theorem LeadsTo.resolve?_eq {history : List (ScriptRegistration ρ)} {location : String}
    {target : Option (ScriptTarget ρ)} (h : LeadsTo history location target) :
    resolve? (latest history) location = target := by
  cases h with
  | script first => exact resolve?_of_find?_eq_some (find?_latest_eq_some_iff.mpr first)
  | method unserved xml parts last =>
    rw [resolve?_of_find?_eq_none (find?_latest_eq_none_iff.mpr unserved),
      if_pos (occursIn_iff_isInfix.mpr xml), ← parts, splitLocation_append last]
  | nothing unserved other =>
    rw [resolve?_of_find?_eq_none (find?_latest_eq_none_iff.mpr unserved),
      if_neg (mt occursIn_iff_isInfix.mp other)]

/-- A script is what some registered suffix asks for. -/
theorem LeadsTo.script_iff {history : List (ScriptRegistration ρ)} {location : String}
    {target : Option (ScriptTarget ρ)} (h : LeadsTo history location target) :
    (∃ kind runner, target = some (.script kind runner)) ↔
      ∃ r ∈ history, Ends location r.suffix := by
  cases h with
  | @script r first =>
    obtain ⟨i, hi, hends, -⟩ := first
    exact iff_of_true ⟨_, _, rfl⟩ ⟨r, List.mem_of_getElem? hi.1, hends⟩
  | method unserved => exact iff_of_false (by simp) (by simpa using unserved)
  | nothing unserved => exact iff_of_false (by simp) (by simpa using unserved)

/-- After any registrations there is one for each suffix, a location resolves to a script exactly
if a registered suffix ends it, and to the target that the history leads it to. -/
theorem distinct_registered_and_resolve?_iff (history : List (ScriptRegistration ρ)) :
    Distinct (registered history) ∧ ∀ location : String,
      ((∃ kind runner,
          resolve? (registered history) location = some (.script kind runner)) ↔
        ∃ r ∈ history, Ends location r.suffix) ∧
      ∀ target, resolve? (registered history) location = target ↔
        LeadsTo history location target := by
  refine ⟨distinct_registered history, fun location => ?_⟩
  rw [registered_eq_latest]
  have hleads := leadsTo_resolve? history location
  refine ⟨hleads.script_iff, fun target => ⟨?_, LeadsTo.resolve?_eq⟩⟩
  rintro rfl
  exact hleads

/-- A suffix that is registered again moves behind the others that end a location. -/
example : ((registered [⟨"", "any", 0⟩, ⟨".js", "js", 1⟩, ⟨"", "any", 2⟩]).resolve?
    "find.js") = some (.script "js" 1) := by
  rfl

end ScreenActions.ScriptRunners
