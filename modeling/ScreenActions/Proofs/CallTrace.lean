import ScreenActions.Proofs.ActionRun

/-!
What actions ask their dispatcher and their delegator. The calls are traced with their answers; an
action does the same whatever its collaborators keep besides, so it runs the same when it is traced.
-/

namespace ScreenActions

/-- A call of a collaborator with its answer. -/
inductive ActionCall
  | service (name : String) (input : ValueMap) (answer : Except ServiceError ValueMap)
  | primaryKey (entity : String) (answer : Except EntityError (List String))
  | findOne (entity : String) (key : ValueMap) (useCache : Bool)
      (answer : Except EntityError (Option Entity))

variable {ω ε δ α β : Type}

/-- What the collaborators keep, with what they were asked and answered so far. -/
structure Traced (ω : Type) where
  calls : List ActionCall := []
  world : ω

namespace Traced

/-- An answer that is traced. -/
def asked (call : α → ActionCall) (f : ω → α × ω) : Traced ω → α × Traced ω := fun t =>
  let (answer, w) := f t.world
  (answer, ⟨t.calls ++ [call answer], w⟩)

/-- An answer that leaves no trace. -/
def passed (f : ω → α × ω) : Traced ω → α × Traced ω := fun t =>
  let (answer, w) := f t.world
  (answer, ⟨t.calls, w⟩)

/-- The dispatcher with its runs of services traced. -/
def dispatcher (d : Dispatcher ω) : Dispatcher (Traced ω) where
  validInput service m := passed (d.validInput service m)
  run service input := asked (.service service input) (d.run service input)

/-- The delegator with what is asked for a single entity traced. -/
def delegator (d : Delegator ω) : Delegator (Traced ω) where
  primaryKey entity := asked (.primaryKey entity) (d.primaryKey entity)
  findOne entity key useCache :=
    asked (.findOne entity key useCache) (d.findOne entity key useCache)
  findList q := passed (d.findList q)
  relatedOne e relation useCache := passed (d.relatedOne e relation useCache)
  related e relation fields orderBy useCache :=
    passed (d.related e relation fields orderBy useCache)

/-- The two collaborators that are traced. -/
def env (env : ActionEnv ω) : ActionEnv (Traced ω) where
  dispatcher := env.dispatcher.map dispatcher
  delegator := env.delegator.map delegator

end Traced

namespace RunState

/-- The state with nothing traced yet. -/
def untraced (s : RunState ω) : RunState (Traced ω) :=
  ⟨s.context, s.heap, s.session, s.application, ⟨[], s.world⟩⟩

/-- The state without the trace. -/
def withoutTrace (s : RunState (Traced ω)) : RunState ω :=
  ⟨s.context, s.heap, s.session, s.application, s.world.world⟩

end RunState

@[simp] theorem mapError_ok (f : ε → δ) (a : α) : (Except.ok a).mapError f = .ok a := rfl

theorem eq_ok_of_mapError {f : ε → δ} {x : Except ε α} {a : α} (h : x.mapError f = .ok a) :
    x = .ok a := by
  cases x with
  | error e => cases h
  | ok b => cases h; rfl

namespace Step

/-- The first step does what the second does, and leaves a trace besides. -/
def Traces (x : Step (Traced ω) ε α) (x' : Step ω ε α) : Prop :=
  ∀ s : RunState (Traced ω),
    outcome x' s.withoutTrace = Prod.map id RunState.withoutTrace (outcome x s)

namespace Traces

variable {x : Step (Traced ω) ε α} {x' : Step ω ε α}

theorem pure (a : α) : Traces (Pure.pure a : Step (Traced ω) ε α) (Pure.pure a) := fun _ => rfl

theorem answer (r : Except ε α) :
    Traces (ExceptT.mk (Pure.pure r) : Step (Traced ω) ε α) (ExceptT.mk (Pure.pure r)) :=
  fun _ => rfl

theorem put (p : FieldPath) (v : Value) :
    Traces (Step.put p v : Step (Traced ω) PathError Unit) (Step.put p v) :=
  fun _ => rfl

theorem call_asked (traced : Except ε α → ActionCall) (f : ω → Except ε α × ω) :
    Traces (Step.call (Traced.asked traced f)) (Step.call f) := by
  intro s
  rw [outcome_call, outcome_call]
  rfl

theorem call_passed (f : ω → Except ε α × ω) :
    Traces (Step.call (Traced.passed f)) (Step.call f) := by
  intro s
  rw [outcome_call, outcome_call]
  rfl

theorem mapError (hx : Traces x x') (f : ε → δ) :
    Traces (Step.mapError f x) (Step.mapError f x') := by
  intro s
  rw [outcome_mapError, outcome_mapError, hx]
  rfl

theorem bind {g : α → Step (Traced ω) ε β} {g' : α → Step ω ε β} (hx : Traces x x')
    (hg : ∀ a, Traces (g a) (g' a)) : Traces (x >>= g) (x' >>= g') := by
  intro s
  rw [outcome_bind, outcome_bind, hx s]
  rcases outcome x s with ⟨r, t⟩
  cases r with
  | error _ => rfl
  | ok a => exact hg a t

end Traces

/-- The step leaves no trace and changes nothing but what the collaborators keep. -/
def Untraced (x : Step (Traced ω) ε α) : Prop :=
  ∀ s : RunState (Traced ω), ∃ w, (outcome x s).2 = { s with world := ⟨s.world.calls, w⟩ }

namespace Untraced

variable {x : Step (Traced ω) ε α}

theorem pure (a : α) : Untraced (Pure.pure a : Step (Traced ω) ε α) := fun s =>
  ⟨s.world.world, rfl⟩

theorem answer (r : Except ε α) : Untraced (ExceptT.mk (Pure.pure r) : Step (Traced ω) ε α) :=
  fun s => ⟨s.world.world, rfl⟩

theorem call_passed (f : ω → Except ε α × ω) : Untraced (Step.call (Traced.passed f)) := by
  intro s
  rw [outcome_call]
  exact ⟨_, rfl⟩

theorem mapError (hx : Untraced x) (f : ε → δ) : Untraced (Step.mapError f x) := hx

theorem bind {f : α → Step (Traced ω) ε β} (hx : Untraced x) (hf : ∀ a, Untraced (f a)) :
    Untraced (x >>= f) := by
  intro s
  obtain ⟨w, hw⟩ := hx s
  rcases h : outcome x s with ⟨r, t⟩
  rw [h] at hw
  dsimp only at hw
  subst hw
  cases r with
  | error e => exact ⟨w, by rw [outcome_bind_of_error h]⟩
  | ok a =>
    rw [outcome_bind_of_ok h]
    exact hf a _

end Untraced

/-- The calls that a step of a run makes when it starts on a state. -/
def callsOf (x : Step (Traced ω) ε α) (s : RunState ω) : List ActionCall :=
  (outcome x s.untraced).2.world.calls

/-- The traced course of a step. -/
theorem Traces.exists_outcome {x : Step (Traced ω) ε α} {x' : Step ω ε α} {s t : RunState ω}
    {r : Except ε α} (hx : Traces x x') (h : outcome x' s = (r, t)) :
    ∃ u, outcome x s.untraced = (r, u) ∧ u.withoutTrace = t ∧ callsOf x s = u.world.calls := by
  have hs : outcome x' s = Prod.map id RunState.withoutTrace (outcome x s.untraced) := hx s.untraced
  rw [h] at hs
  rcases hout : outcome x s.untraced with ⟨r', u⟩
  rw [hout] at hs
  obtain ⟨rfl, rfl⟩ := Prod.mk.inj hs
  exact ⟨u, rfl, rfl, by rw [callsOf, hout]⟩

end Step

/-- A list runs the same when it is traced, if each of its actions does. -/
theorem ActionList.traces_runFrom {env : ActionEnv ω} {actions : ActionList}
    (h : ∀ a ∈ actions, Step.Traces (a.run (Traced.env env)) (a.run env)) (i : Nat) :
    Step.Traces (runFrom (Traced.env env) i actions) (runFrom env i actions) := by
  induction actions generalizing i with
  | nil => exact .pure _
  | cons a rest ih =>
    obtain ⟨ha, hrest⟩ := List.forall_mem_cons.mp h
    exact .bind (ha.mapError _) fun _ => ih hrest (i + 1)

end ScreenActions
