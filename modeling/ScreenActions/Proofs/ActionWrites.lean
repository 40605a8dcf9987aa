import ScreenActions.Action.List
import ScreenActions.Proofs.Step

/-!
The write that each action ends with. Everything before it leaves the context, the bundle maps and
the stores alone.
-/

namespace ScreenActions

open Step

variable {ω : Type}

namespace EntityOne

theorem find_endsIn (a : EntityOne) (delegator : Delegator ω) :
    EndsIn (Writes a.valueName FinderError.path) (a.find delegator) := by
  refine quiet_get.bind_endsIn fun s => ?_
  dsimp only
  split
  · refine ((quiet_call _).mapError _).bind_endsIn fun fields => ?_
    refine (quiet_pure _).bind_endsIn fun key => (quiet_answer _).bind_endsIn fun _ => ?_
    exact ((quiet_call _).mapError _).bind_endsIn fun found => .last ⟨_, rfl⟩
  · refine (quiet_pure _).bind_endsIn fun key => (quiet_answer _).bind_endsIn fun _ => ?_
    exact ((quiet_call _).mapError _).bind_endsIn fun found => .last ⟨_, rfl⟩

/-- Finding by primary key ends in a write of the value. -/
theorem run_endsIn (a : EntityOne) (env : ActionEnv ω) :
    EndsIn (Writes a.valueName (.finder "primary key" ∘ .path)) (a.run env) := by
  refine (quiet_require _ _).bind_endsIn fun delegator => ?_
  exact (a.find_endsIn delegator).mapError fun y hy => hy.mapError _

end EntityOne

theorem ListQuery.find_endsIn (q : ListQuery) (delegator : Delegator ω)
    (condition : Option EntityCondition) :
    EndsIn (Writes q.listName FinderError.path) (q.find delegator condition) := by
  refine quiet_get.bind_endsIn fun s => ?_
  refine ((quiet_call _).mapError _).bind_endsIn fun found => ?_
  exact .last ⟨_, rfl⟩

/-- Finding by equal fields ends in a write of the list. -/
theorem EntityAnd.run_endsIn (a : EntityAnd) (env : ActionEnv ω) :
    EndsIn (Writes a.query.listName (.finder "and" ∘ .path)) (a.run env) := by
  refine (quiet_require _ _).bind_endsIn fun delegator => ?_
  have hfind : EndsIn (Writes a.query.listName FinderError.path) (a.find delegator) := by
    refine quiet_get.bind_endsIn fun s => ?_
    exact (quiet_answer _).bind_endsIn fun _ => a.query.find_endsIn delegator _
  exact hfind.mapError fun y hy => hy.mapError _

/-- Finding by a condition ends in a write of the list. -/
theorem EntityByCondition.run_endsIn (a : EntityByCondition) (env : ActionEnv ω) :
    EndsIn (Writes a.query.listName (.finder "condition" ∘ .path)) (a.run env) := by
  refine (quiet_require _ _).bind_endsIn fun delegator => ?_
  have hfind : EndsIn (Writes a.query.listName FinderError.path) (a.find delegator) :=
    quiet_get.bind_endsIn fun s => a.query.find_endsIn delegator _
  exact hfind.mapError fun y hy => hy.mapError _

/-- Following a relation to one entity ends in a write of that entity. -/
theorem RelatedOne.run_endsIn (a : RelatedOne) (env : ActionEnv ω) :
    EndsIn (Writes a.toValueName .path) (a.run env) := by
  refine quiet_get.bind_endsIn fun s => ?_
  refine (quiet_answer _).bind_endsIn fun source => ?_
  cases source with
  | none => exact (quiet_pure _).endsIn
  | some entity =>
    refine (quiet_require _ _).bind_endsIn fun delegator => ?_
    refine ((quiet_call _).mapError _).bind_endsIn fun found => ?_
    exact .last ⟨_, rfl⟩

/-- Following a relation to many entities ends in a write of their list. -/
theorem RelatedList.run_endsIn (a : RelatedList) (env : ActionEnv ω) :
    EndsIn (Writes a.listName .path) (a.run env) := by
  refine quiet_get.bind_endsIn fun s => ?_
  refine (quiet_answer _).bind_endsIn fun source => ?_
  cases source with
  | none => exact (quiet_pure _).endsIn
  | some entity =>
    refine (quiet_require _ _).bind_endsIn fun delegator => ?_
    refine ((quiet_call _).mapError _).bind_endsIn fun found => ?_
    exact .last ⟨_, rfl⟩

/-- Reading a message ends in a write of its text. -/
theorem PropertyToField.run_endsIn (a : PropertyToField) (env : ActionEnv ω) :
    EndsIn (Writes a.field .path) (a.run env) := by
  refine quiet_get.bind_endsIn fun s => ?_
  refine (quiet_require _ _).bind_endsIn fun properties => ?_
  refine (quiet_call _).bind_endsIn fun message => ?_
  exact .last ⟨_, rfl⟩

namespace ServiceCall

/-- The results in the map that they are named for, or all in the top layer. -/
def Keeps (a : ServiceCall) (y : Step ω ActionError Unit) : Prop :=
  ∃ result, y = match a.resultMapName with
    | some p => keepUnder p result
    | none => modifyContext (·.extend result)

/-- Calling a service ends in keeping its results. -/
theorem run_endsIn (a : ServiceCall) (env : ActionEnv ω) :
    EndsIn a.Keeps (a.run env) := by
  refine quiet_get.bind_endsIn fun s => ?_
  dsimp only
  split
  · exact (quiet_throw _).endsIn
  have hinput : ∀ (dispatcher : Dispatcher ω) service source,
      Quiet (validInput dispatcher service source) := by
    intro dispatcher service source
    cases source with
    | none => exact quiet_pure _
    | some m => exact quiet_call _
  refine (quiet_require _ _).bind_endsIn fun dispatcher => ?_
  refine ((hinput _ _ _).mapError _).bind_endsIn fun input => ?_
  refine (quiet_answer _).bind_endsIn fun _ => ?_
  refine ((quiet_call _).mapError _).bind_endsIn fun result => ?_
  exact .last ⟨result, rfl⟩

end ServiceCall

/-- A method ends in its fields being taken into the top layer. -/
theorem ScriptCall.run_endsIn_of_method {a : ScriptCall} {env : ActionEnv ω}
    {resource name : String} (h : env.scripts.resolve? a.location = some (.method resource name)) :
    EndsIn (fun y => ∃ results, y = modifyContext (·.extend results)) (a.run env) := by
  unfold ScriptCall.run
  rw [h]
  refine (quiet_require _ _).bind_endsIn fun methods => ?_
  refine (quiet_get.bind fun s => quiet_pure _).bind_endsIn fun c => ?_
  refine ((quiet_call _).mapError _).bind_endsIn fun results => ?_
  exact .last ⟨results, rfl⟩

namespace SetField

/-- The write to the store asked for, or to the context unless the global map is asked for. -/
def writeTarget (a : SetField) (s : RunState ω) (v : Value) :
    Option ScopedStore → Step ω ActionError Unit
  | some store =>
      set (withStore s
        (store.set (ScopedStore.trailKey (s.context.widgetTrail s.heap) a.field.text) v) a.toScope)
  | none => if a.global.isTrue s.heap s.context then pure () else mapError .path (put a.field v)

/-- The write to the global map, if that is asked for. -/
def writeGlobal (a : SetField) (s : RunState ω) (v : Value) : Step ω ActionError Unit :=
  if a.global.isTrue s.heap s.context then
    if s.context.global.isSome then mapError .path (putGlobal a.field v)
    else mapError .path (put a.field v)
  else pure ()

/-- All writes of a value that is ready. -/
def write (a : SetField) (s : RunState ω) (v : Value) (target : Option ScopedStore) :
    Step ω ActionError Unit := do
  a.writeTarget s v target
  a.writeGlobal s v
  mapError .path (putWithin Context.pageKey a.field v)

/-- The value and the store are found before anything is written. -/
theorem outcome_run (a : SetField) (s : RunState ω) :
    outcome a.run s = match a.newValue s with
      | .error e => (.error e, s)
      | .ok v => match store? s a.toScope with
        | .error e => (.error e, s)
        | .ok target => outcome (a.write s v target) s := by
  unfold SetField.run
  rw [outcome_bind_of_ok (outcome_get s)]
  dsimp only
  cases hv : a.newValue s with
  | error e => exact outcome_bind_of_error (outcome_answer _ s)
  | ok v =>
    rw [outcome_bind_of_ok (outcome_answer _ s)]
    cases htarget : store? s a.toScope with
    | error e => exact outcome_bind_of_error (outcome_answer _ s)
    | ok target =>
      rw [outcome_bind_of_ok (outcome_answer _ s)]
      unfold write writeTarget writeGlobal
      cases target <;> cases a.global.isTrue s.heap s.context <;> cases s.context.global.isSome <;>
        rfl

end SetField
end ScreenActions
