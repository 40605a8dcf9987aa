import ScreenActions.Action.List
import ScreenActions.Proofs.Step

/-!
Runs of action lists. A list runs like its parts one after the other, and a run fails exactly where
the actions before one have completed and that one fails.
-/

namespace ScreenActions

open Step

/-- The failure of an action that `n` others come before. -/
def ActionFailure.shift (n : Nat) (f : ActionFailure) : ActionFailure :=
  { f with index := n + f.index }

namespace ActionList

variable {ω : Type} {env : ActionEnv ω}

/-- The actions succeed in their order, each on the state that the one before it has left. -/
inductive Completes (env : ActionEnv ω) : ActionList → RunState ω → RunState ω → Prop
  | nil (s : RunState ω) : Completes env [] s s
  | cons {a : ScreenAction} {rest : ActionList} {s t u : RunState ω}
      (step : outcome (a.run env) s = (.ok (), t)) (tail : Completes env rest t u) :
      Completes env (a :: rest) s u

/-- The first action of a list fails with its place and tag, or the others run after it. -/
theorem outcome_runFrom_cons (env : ActionEnv ω) (i : Nat) (a : ScreenAction) (rest : ActionList)
    (s : RunState ω) :
    outcome (runFrom env i (a :: rest)) s = match outcome (a.run env) s with
      | (.ok (), t) => outcome (runFrom env (i + 1) rest) t
      | (.error e, t) => (.error ⟨i, a.tag, e⟩, t) := by
  rw [runFrom, outcome_bind, outcome_mapError]
  rcases outcome (a.run env) s with ⟨answer, t⟩
  cases answer <;> rfl

/-- The place of the first action only moves the place of a failure. -/
theorem runFrom_add (env : ActionEnv ω) (n i : Nat) (actions : ActionList) :
    runFrom env (n + i) actions = mapError (ActionFailure.shift n) (runFrom env i actions) := by
  apply Step.ext
  intro s
  induction actions generalizing i s with
  | nil => rfl
  | cons a rest ih =>
    rw [outcome_mapError, outcome_runFrom_cons, outcome_runFrom_cons]
    rcases outcome (a.run env) s with ⟨answer, t⟩
    cases answer with
    | error e => rfl
    | ok _ => exact ih (i + 1) t

theorem runFrom_append (env : ActionEnv ω) (i : Nat) (a b : ActionList) :
    runFrom env i (a ++ b) = runFrom env i a >>= fun _ => runFrom env (i + a.length) b := by
  apply Step.ext
  intro s
  induction a generalizing i s with
  | nil => rfl
  | cons x a ih =>
    rw [List.cons_append, outcome_runFrom_cons, outcome_bind, outcome_runFrom_cons]
    rcases outcome (x.run env) s with ⟨answer, t⟩
    cases answer with
    | error e => rfl
    | ok _ =>
      simp only [ih, outcome_bind, List.length_cons]
      rw [show i + 1 + a.length = i + (a.length + 1) by omega]

theorem runFrom_eq_ok_iff {i : Nat} {actions : ActionList} {s t : RunState ω} :
    outcome (runFrom env i actions) s = (.ok (), t) ↔ Completes env actions s t := by
  constructor
  · intro h
    induction actions generalizing i s with
    | nil =>
      cases h
      exact .nil _
    | cons a rest ih =>
      rw [outcome_runFrom_cons] at h
      rcases ha : outcome (a.run env) s with ⟨answer, m⟩
      rw [ha] at h
      cases answer with
      | error e => cases h
      | ok _ => exact .cons ha (ih h)
  · intro h
    induction h generalizing i with
    | nil => rfl
    | cons step tail ih => rw [outcome_runFrom_cons, step]; exact ih

theorem run_eq_ok_iff {actions : ActionList} {s t : RunState ω} :
    outcome (actions.run env) s = (.ok (), t) ↔ Completes env actions s t :=
  runFrom_eq_ok_iff

/-- A run fails where the actions before one complete and that one fails; its failure carries the
place, the tag and the error of that action, and the state stays as that action leaves it. -/
theorem runFrom_eq_error_iff {i : Nat} {actions : ActionList} {s t : RunState ω}
    {f : ActionFailure} :
    outcome (runFrom env i actions) s = (.error f, t) ↔
      ∃ before a after m, actions = before ++ a :: after ∧ f.index = i + before.length ∧
        f.tag = a.tag ∧ Completes env before s m ∧ outcome (a.run env) m = (.error f.source, t) := by
  constructor
  · intro h
    induction actions generalizing i s with
    | nil => cases h
    | cons x rest ih =>
      rw [outcome_runFrom_cons] at h
      rcases hx : outcome (x.run env) s with ⟨answer, m⟩
      rw [hx] at h
      cases answer with
      | error e =>
        cases h
        exact ⟨[], x, rest, s, rfl, rfl, rfl, .nil s, hx⟩
      | ok _ =>
        obtain ⟨before, a, after, m', rfl, hi, ht, hc, ha⟩ := ih h
        refine ⟨x :: before, a, after, m', rfl, ?_, ht, .cons hx hc, ha⟩
        rw [hi, List.length_cons]
        omega
  · rintro ⟨before, a, after, m, rfl, hi, ht, hc, ha⟩
    rw [runFrom_append, outcome_bind_of_ok (runFrom_eq_ok_iff.mpr hc), outcome_runFrom_cons, ha]
    cases f
    simp only at hi ht
    rw [hi, ht]

/-- A list that is put together runs like its parts, the failures of the second one moved by the
length of the first; and a run fails exactly where the actions before one have completed in their
order and that one fails with the tag and the error reported, and leaves the state as it stays. -/
theorem run_append_and_run_eq_error_iff (env : ActionEnv ω) :
    (∀ a b : ActionList, run env (a ++ b) =
      run env a >>= fun _ => mapError (ActionFailure.shift a.length) (run env b)) ∧
    ∀ (actions : ActionList) (s t : RunState ω) (f : ActionFailure),
      outcome (run env actions) s = (.error f, t) ↔
        ∃ before a after m, actions = before ++ a :: after ∧ f.index = before.length ∧
          f.tag = a.tag ∧ Completes env before s m ∧
          outcome (a.run env) m = (.error f.source, t) := by
  constructor
  · intro a b
    unfold run
    rw [runFrom_append, Nat.zero_add, ← runFrom_add, Nat.add_zero]
  · intro actions s t f
    unfold run
    simp only [runFrom_eq_error_iff, Nat.zero_add]

end ActionList
end ScreenActions
