import ScreenActions.Proofs.CallTrace

/-!
Service actions in three parts: the input is put together, the service runs, and its results are
kept. What is kept is a change of the context alone.
-/

namespace ScreenActions

open Step

namespace ServiceCall

variable {ω : Type}

/-- The name of the service that is called on a state. -/
def serviceOn (a : ServiceCall) (s : RunState ω) : String :=
  a.serviceName.expandText s.heap s.context

/-- The input as it is put together on a state. -/
def inputOn (a : ServiceCall) (dispatcher : Dispatcher ω) (s : RunState ω) :
    Step ω ActionError ValueMap := do
  let mode := a.autoFieldMap.expandText s.heap s.context
  let input ← mapError (.service (a.serviceOn s))
    (validInput dispatcher (a.serviceOn s) (inputSource mode s.context))
  let (input, written) := FieldMap.expandAll a.fieldMaps s.heap s.context input
  ExceptT.mk (pure (written.mapError .path))
  return input

/-- A context with the query string of a result. -/
def withQueryString (result : ValueMap) (c : Context) : Context :=
  let queryString := (Keyed.get? result queryStringKey).getD .null
  let c := match queryString with
    | .text s =>
        if s.isEmpty then c else c.insert queryStringEncodedKey (.text (encodeAmpersands s))
    | _ => c
  (c.insert queryStringKey queryString).insert queryStringMapKey
    ((Keyed.get? result queryStringMapKey).getD .null)

/-- A context with the results that are kept in it. -/
def kept (a : ServiceCall) (result : ValueMap) (c : Context) : Except PathError Unit × Context :=
  match a.resultMapName with
  | some p =>
    match p.put c (.map result) with
    | (c, .ok ()) => (.ok (), withQueryString result c)
    | (c, .error e) => (.error e, c)
  | none => (.ok (), c.extend result)

/-- The results in the map that they are named for, or all in the top layer. -/
def keep (a : ServiceCall) (result : ValueMap) : Step ω ActionError Unit :=
  match a.resultMapName with
  | some p => keepUnder p result
  | none => modifyContext (·.extend result)

theorem outcome_keepUnder (p : FieldPath) (result : ValueMap) (s : RunState ω) :
    outcome (keepUnder p result) s = match p.put s.context (.map result) with
      | (c, .ok ()) => (.ok (), { s with context := withQueryString result c })
      | (c, .error e) => (.error (.path e), { s with context := c }) := by
  unfold keepUnder withQueryString
  simp only [outcome_bind, outcome_mapError, outcome_put]
  rcases p.put s.context (.map result) with ⟨c, answer⟩
  cases answer with
  | error e => rfl
  | ok _ =>
    cases (Keyed.get? result queryStringKey).getD .null with
    | text t => cases ht : t.isEmpty <;> simp [ht] <;> rfl
    | _ => rfl

theorem outcome_keep (a : ServiceCall) (result : ValueMap) (s : RunState ω) :
    outcome (a.keep result) s = ((a.kept result s.context).1.mapError .path,
      { s with context := (a.kept result s.context).2 }) := by
  unfold keep kept
  cases a.resultMapName with
  | none => rfl
  | some p =>
    dsimp only
    rw [outcome_keepUnder]
    rcases p.put s.context (.map result) with ⟨c, answer⟩
    cases answer <;> rfl

/-- A service runs if it has a name and there is a dispatcher. -/
theorem outcome_run (a : ServiceCall) (env : ActionEnv ω) (s : RunState ω) :
    outcome (a.run env) s =
      if a.serviceOn s = "" then (.error (.emptyServiceName a.serviceName.source), s)
      else match env.dispatcher with
        | none => (.error (.missingCollaborator "service dispatcher"), s)
        | some d => outcome (do
            let input ← a.inputOn d s
            let result ← mapError (.service (a.serviceOn s)) (call (d.run (a.serviceOn s) input))
            a.keep result) s := by
  unfold run
  rw [outcome_bind_of_ok (outcome_get s)]
  dsimp only
  by_cases hname : a.serviceOn s = ""
  · rw [if_pos hname, if_pos (by simpa [serviceOn] using hname)]
    rfl
  · rw [if_neg hname, if_neg (by simpa [serviceOn] using hname)]
    cases env.dispatcher with
    | none => rfl
    | some d =>
      simp only [inputOn, bind_assoc, pure_bind, Step.require]
      rfl

theorem traces_validInput (d : Dispatcher ω) (service : String) (source : Option ValueMap) :
    Traces (validInput (Traced.dispatcher d) service source) (validInput d service source) := by
  cases source with
  | none => exact .pure _
  | some m => exact .call_passed _

theorem traces_inputOn (a : ServiceCall) (d : Dispatcher ω) (s : RunState (Traced ω)) :
    Traces (a.inputOn (Traced.dispatcher d) s) (a.inputOn d s.withoutTrace) :=
  .bind (.mapError (traces_validInput d _ _) _) fun _ => .bind (.answer _) fun _ => .pure _

theorem traces_keep (a : ServiceCall) (result : ValueMap) :
    Traces (a.keep result : Step (Traced ω) ActionError Unit) (a.keep result) := by
  intro s
  rw [outcome_keep, outcome_keep]
  rfl

/-- A service action runs the same when it is traced. -/
theorem traces_run (a : ServiceCall) (env : ActionEnv ω) :
    Traces (a.run (Traced.env env)) (a.run env) := by
  intro s
  have hservice : a.serviceOn s.withoutTrace = a.serviceOn s := rfl
  rw [outcome_run, outcome_run, hservice]
  split
  · rfl
  · unfold Traced.env
    cases env.dispatcher with
    | none => rfl
    | some d =>
      refine Traces.bind (a.traces_inputOn d s) (fun input => ?_) s
      exact .bind (.mapError (.call_asked _ _) _) fun result => a.traces_keep result

theorem untraced_validInput (d : Dispatcher ω) (service : String) (source : Option ValueMap) :
    Untraced (validInput (Traced.dispatcher d) service source) := by
  cases source with
  | none => exact .pure _
  | some m => exact .call_passed _

theorem untraced_inputOn (a : ServiceCall) (d : Dispatcher ω) (s : RunState (Traced ω)) :
    Untraced (a.inputOn (Traced.dispatcher d) s) :=
  .bind (.mapError (untraced_validInput d _ _) _) fun _ => .bind (.answer _) fun _ => .pure _

/-- The calls that a service action makes on a state. -/
def calls (a : ServiceCall) (env : ActionEnv ω) (s : RunState ω) : List ActionCall :=
  callsOf (a.run (Traced.env env)) s

/-- Asking a service for results and keeping these leaves one call in the trace. -/
theorem calls_ask (a : ServiceCall) (d : Dispatcher ω) (service : String) (input : ValueMap)
    (s : RunState (Traced ω)) :
    (outcome (mapError (.service service) (call ((Traced.dispatcher d).run service input)) >>=
      a.keep) s).2.world.calls =
        s.world.calls ++ [.service service input (d.run service input s.world.world).1] := by
  rw [outcome_bind, outcome_mapError, outcome_call]
  have hrun : (Traced.dispatcher d).run service input s.world =
      ((d.run service input s.world.world).1, ⟨s.world.calls ++
        [.service service input (d.run service input s.world.world).1],
        (d.run service input s.world.world).2⟩) := rfl
  rw [hrun]
  cases (d.run service input s.world.world).1 with
  | error e => rfl
  | ok result =>
    simp only [mapError_ok]
    rw [outcome_keep]

/-- A service action that succeeds has asked a service for results, which it keeps. -/
theorem exists_result_of_run {a : ServiceCall} {env : ActionEnv ω} {s t : RunState (Traced ω)}
    (h : outcome (a.run (Traced.env env)) s = (.ok (), t)) :
    ∃ service input result,
      t.world.calls = s.world.calls ++ [.service service input (.ok result)] ∧
        a.kept result s.context = (.ok (), t.context) := by
  rw [outcome_run] at h
  unfold Traced.env at h
  cases hd : env.dispatcher with
  | none =>
    rw [hd] at h
    split at h <;> cases h
  | some d =>
    rw [hd] at h
    split at h
    · cases h
    obtain ⟨input, u, hinput, h⟩ := bind_eq_ok.mp h
    obtain ⟨v, hv⟩ := a.untraced_inputOn d s s
    rw [hinput] at hv
    dsimp only at hv
    subst hv
    have hask := a.calls_ask d (a.serviceOn s) input { s with world := ⟨s.world.calls, v⟩ }
    rw [h] at hask
    obtain ⟨result, w, hrun, hkeep⟩ := bind_eq_ok.mp h
    rw [mapError_eq_ok, outcome_call] at hrun
    obtain ⟨hresult, rfl⟩ := Prod.mk.inj hrun
    have hanswer : (d.run (a.serviceOn s) input v).1 = .ok result := hresult
    rw [outcome_keep] at hkeep
    obtain ⟨hok, rfl⟩ := Prod.mk.inj hkeep
    exact ⟨a.serviceOn s, input, result, by rw [hask, hanswer],
      Prod.ext (eq_ok_of_mapError hok) rfl⟩

end ServiceCall
end ScreenActions
