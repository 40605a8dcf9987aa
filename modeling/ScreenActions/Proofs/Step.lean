import ScreenActions.Action.Basic

/-!
Where steps end. A step that leaves all but the collaborators as it is can stand before any other
one, so an action is taken apart into such a plan and the write that follows it.
-/

namespace ScreenActions

namespace RunState

variable {ω : Type}

/-- Nothing but what the collaborators keep differs. -/
def SameButWorld (s t : RunState ω) : Prop := ∃ w, t = { s with world := w }

theorem SameButWorld.refl (s : RunState ω) : s.SameButWorld s := ⟨s.world, rfl⟩

theorem SameButWorld.trans {s t u : RunState ω} (h : s.SameButWorld t) (h' : t.SameButWorld u) :
    s.SameButWorld u := by
  obtain ⟨w, rfl⟩ := h
  obtain ⟨w', rfl⟩ := h'
  exact ⟨w', rfl⟩

end RunState

namespace Step

variable {ω ε δ α β : Type}

/-- The answer of a step and the state that it leaves. -/
def outcome (x : Step ω ε α) (s : RunState ω) : Except ε α × RunState ω := x s

/-- Steps are the same when they end alike on every state. -/
theorem ext {x y : Step ω ε α} (h : ∀ s, outcome x s = outcome y s) : x = y := funext h

@[simp] theorem outcome_get (s : RunState ω) :
    outcome (get : Step ω ε (RunState ω)) s = (.ok s, s) := rfl

@[simp] theorem outcome_modify (f : RunState ω → RunState ω) (s : RunState ω) :
    outcome (modify f : Step ω ε PUnit) s = (.ok (), f s) := rfl

@[simp] theorem outcome_answer (r : Except ε α) (s : RunState ω) :
    outcome (ExceptT.mk (pure r) : Step ω ε α) s = (r, s) := rfl

theorem outcome_eq_of_isOk {x : Step ω ε Unit} {s : RunState ω}
    (h : (outcome x s).1.isOk = true) : outcome x s = (.ok (), (outcome x s).2) := by
  rcases hx : outcome x s with ⟨answer, t⟩
  rw [hx] at h
  cases answer with
  | ok _ => rfl
  | error e => cases h

theorem outcome_bind (x : Step ω ε α) (f : α → Step ω ε β) (s : RunState ω) :
    outcome (x >>= f) s = match outcome x s with
      | (.ok a, t) => outcome (f a) t
      | (.error e, t) => (.error e, t) := by
  unfold outcome
  simp only [bind, ExceptT.bind, ExceptT.mk, StateT.bind]
  rcases x s with ⟨answer, t⟩
  cases answer <;> rfl

theorem outcome_bind_of_ok {x : Step ω ε α} {f : α → Step ω ε β} {s t : RunState ω} {a : α}
    (h : outcome x s = (.ok a, t)) : outcome (x >>= f) s = outcome (f a) t := by
  rw [outcome_bind, h]

theorem outcome_bind_of_error {x : Step ω ε α} {f : α → Step ω ε β} {s t : RunState ω} {e : ε}
    (h : outcome x s = (.error e, t)) : outcome (x >>= f) s = (.error e, t) := by
  rw [outcome_bind, h]

theorem bind_eq_ok {x : Step ω ε α} {f : α → Step ω ε β} {s u : RunState ω} {b : β} :
    outcome (x >>= f) s = (.ok b, u) ↔
      ∃ a t, outcome x s = (.ok a, t) ∧ outcome (f a) t = (.ok b, u) := by
  rw [outcome_bind]
  rcases outcome x s with ⟨answer, t⟩
  cases answer with
  | ok a => simp [and_assoc]
  | error e => simp

theorem bind_eq_error {x : Step ω ε α} {f : α → Step ω ε β} {s u : RunState ω} {e : ε} :
    outcome (x >>= f) s = (.error e, u) ↔ outcome x s = (.error e, u) ∨
      ∃ a t, outcome x s = (.ok a, t) ∧ outcome (f a) t = (.error e, u) := by
  rw [outcome_bind]
  rcases outcome x s with ⟨answer, t⟩
  cases answer with
  | ok a => simp [and_assoc]
  | error e' => simp

@[simp] theorem outcome_mapError (f : ε → δ) (x : Step ω ε α) (s : RunState ω) :
    outcome (mapError f x) s = ((outcome x s).1.mapError f, (outcome x s).2) := rfl

theorem mapError_eq_ok {f : ε → δ} {x : Step ω ε α} {s t : RunState ω} {a : α} :
    outcome (mapError f x) s = (.ok a, t) ↔ outcome x s = (.ok a, t) := by
  rw [outcome_mapError]
  rcases outcome x s with ⟨answer, u⟩
  cases answer with
  | ok a' =>
    constructor <;>
      · intro h
        cases h
        rfl
  | error e => exact ⟨nofun, nofun⟩

theorem mapError_eq_error {f : ε → δ} {x : Step ω ε α} {s t : RunState ω} {e : δ} :
    outcome (mapError f x) s = (.error e, t) ↔ ∃ e', outcome x s = (.error e', t) ∧ f e' = e := by
  rw [outcome_mapError]
  rcases outcome x s with ⟨answer, u⟩
  cases answer with
  | ok a => exact ⟨nofun, nofun⟩
  | error e' =>
    constructor
    · intro h
      cases h
      exact ⟨e', rfl, rfl⟩
    · rintro ⟨e'', h, rfl⟩
      cases h
      rfl

@[simp] theorem outcome_call (f : ω → Except ε α × ω) (s : RunState ω) :
    outcome (call f) s = ((f s.world).1, { s with world := (f s.world).2 }) := by
  rw [call, outcome_bind_of_ok (outcome_get s), outcome_bind_of_ok (outcome_modify _ s)]
  rcases f s.world with ⟨answer, w⟩
  cases answer <;> rfl

@[simp] theorem outcome_put (p : FieldPath) (v : Value) (s : RunState ω) :
    outcome (put p v) s =
      ((p.put s.context v).2, { s with context := (p.put s.context v).1 }) := rfl

/-- Whatever it answers, the step changes nothing but what the collaborators keep. -/
def Quiet (x : Step ω ε α) : Prop := ∀ s : RunState ω, s.SameButWorld (outcome x s).2

theorem Quiet.sameButWorld {x : Step ω ε α} {s t : RunState ω} {r : Except ε α} (hx : Quiet x)
    (h : outcome x s = (r, t)) : s.SameButWorld t := by
  have hs := hx s
  rwa [h] at hs

theorem quiet_pure (a : α) : Quiet (pure a : Step ω ε α) := RunState.SameButWorld.refl

theorem quiet_throw (e : ε) : Quiet (throw e : Step ω ε α) := RunState.SameButWorld.refl

theorem quiet_get : Quiet (get : Step ω ε (RunState ω)) := RunState.SameButWorld.refl

theorem quiet_answer (r : Except ε α) : Quiet (ExceptT.mk (pure r) : Step ω ε α) :=
  RunState.SameButWorld.refl

theorem quiet_call (f : ω → Except ε α × ω) : Quiet (call f) := by
  intro s
  rw [outcome_call]
  exact ⟨_, rfl⟩

theorem quiet_require (name : String) (a : Option α) :
    Quiet (require name a : Step ω ActionError α) := by
  cases a with
  | none => exact quiet_throw _
  | some a => exact quiet_pure a

theorem Quiet.mapError {x : Step ω ε α} (hx : Quiet x) (f : ε → δ) : Quiet (mapError f x) := hx

theorem Quiet.bind {x : Step ω ε α} {f : α → Step ω ε β} (hx : Quiet x) (hf : ∀ a, Quiet (f a)) :
    Quiet (x >>= f) := by
  intro s
  have hs := hx s
  rcases h : outcome x s with ⟨answer, t⟩
  rw [h] at hs
  cases answer with
  | error e =>
    rw [outcome_bind_of_error h]
    exact hs
  | ok a =>
    rw [outcome_bind_of_ok h]
    exact hs.trans (hf a t)

/-- The step is quiet but for a step of `Y` that it may end with. -/
def EndsIn (Y : Step ω ε α → Prop) (x : Step ω ε α) : Prop :=
  ∀ s : RunState ω, s.SameButWorld (outcome x s).2 ∨
    ∃ y t, Y y ∧ s.SameButWorld t ∧ outcome x s = outcome y t

variable {Y : Step ω ε α → Prop}

theorem EndsIn.last {x : Step ω ε α} (h : Y x) : EndsIn Y x :=
  fun s => .inr ⟨x, s, h, .refl s, rfl⟩

theorem Quiet.endsIn {x : Step ω ε α} (h : Quiet x) : EndsIn Y x := fun s => .inl (h s)

theorem Quiet.bind_endsIn {x : Step ω ε β} {f : β → Step ω ε α} (hx : Quiet x)
    (hf : ∀ b, EndsIn Y (f b)) : EndsIn Y (x >>= f) := by
  intro s
  have hs := hx s
  rcases h : outcome x s with ⟨answer, t⟩
  rw [h] at hs
  cases answer with
  | error e =>
    rw [outcome_bind_of_error h]
    exact .inl hs
  | ok b =>
    rw [outcome_bind_of_ok h]
    rcases hf b t with hq | ⟨y, u, hy, htu, hyu⟩
    · exact .inl (hs.trans hq)
    · exact .inr ⟨y, u, hy, hs.trans htu, hyu⟩

theorem EndsIn.mapError {x : Step ω ε α} {Z : Step ω δ α → Prop} {f : ε → δ} (hx : EndsIn Y x)
    (hY : ∀ y, Y y → Z (Step.mapError f y)) : EndsIn Z (Step.mapError f x) := by
  intro s
  rcases hx s with h | ⟨y, t, hy, hst, h⟩
  · exact .inl h
  · refine .inr ⟨Step.mapError f y, t, hY y hy, hst, ?_⟩
    rw [outcome_mapError, outcome_mapError, h]

/-- A value written at a path, with the failure of that wrapped. -/
def Writes (p : FieldPath) (wrap : PathError → ε) (x : Step ω ε Unit) : Prop :=
  ∃ v, x = mapError wrap (put p v)

theorem Writes.mapError {p : FieldPath} {wrap : PathError → ε} {x : Step ω ε Unit}
    (h : Writes p wrap x) (f : ε → δ) : Writes p (f ∘ wrap) (Step.mapError f x) := by
  obtain ⟨v, rfl⟩ := h
  refine ⟨v, ext fun s => ?_⟩
  simp only [outcome_mapError]
  cases (outcome (put p v) s).1 <;> rfl

end Step
end ScreenActions
