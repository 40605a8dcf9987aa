import ScreenActions.Action.Labels
import ScreenActions.Proofs.BundleHeap
import ScreenActions.Proofs.Step

/-!
Loading a resource into a message map, taken apart into what is asked of the collaborators and the
bundle being put into the map that is visible and into that of the global map.
-/

namespace ScreenActions

open Step

variable {ω : Type}

theorem Step.of_require_eq_ok {α : Type} {name : String} {collaborator : Option α} {a : α}
    {s t : RunState ω} (h : outcome (require name collaborator) s = (.ok a, t)) :
    collaborator = some a ∧ t = s := by
  cases collaborator with
  | none => cases h
  | some a => cases h; exact ⟨rfl, rfl⟩

namespace PropertyMap

theorem isNull_of_existing {a : PropertyMap} {slot : Option Value}
    (h : a.existing slot = .ok none) : slot.all Value.isNull = true := by
  unfold existing at h
  split at h
  · rfl
  · rfl
  · cases h
  · cases h

theorem bundle_of_existing {a : PropertyMap} {slot : Option Value} {k : BundleHandle}
    (h : a.existing slot = .ok (some k)) : slot = some (.bundle k) := by
  unfold existing at h
  split at h
  · cases h
  · cases h
  · cases h
    rfl
  · cases h

theorem existing_map_bundle (a : PropertyMap) (slot : Option BundleHandle) :
    a.existing (slot.map .bundle) = .ok slot := by
  cases slot <;> rfl

theorem outcome_alloc (b : Bundle) (s : RunState ω) :
    outcome (alloc b) s = (.ok s.heap.length, { s with heap := (s.heap.alloc b).2 }) := rfl

/-- A bundle put below the others of a map, or made a map of its own that is written. -/
def place (write : Value → Step ω PathError Unit) (b : Bundle) :
    Option BundleHandle → Step ω ActionError Unit
  | none => do mapError .path (write (.bundle (← alloc b)))
  | some h => addBottom h b

theorem outcome_place_none (write : Value → Step ω PathError Unit) (b : Bundle) (s : RunState ω) :
    outcome (place write b none) s = outcome (mapError .path (write (.bundle s.heap.length)))
      { s with heap := (s.heap.alloc b).2 } :=
  outcome_bind_of_ok (outcome_alloc b s)

theorem outcome_place_some (write : Value → Step ω PathError Unit) (b : Bundle) (h : BundleHandle)
    (s : RunState ω) : outcome (place write b (some h)) s =
      (.ok (), { s with heap := (s.heap.addBottom h b).1 }) := rfl

/-- A bundle put into the map of the global map, unless that is the one known already. -/
def placeGlobal (a : PropertyMap) (b : Bundle) (known : Option BundleHandle) :
    Step ω ActionError Unit := do
  match (← Step.context).global with
  | none => return
  | some g =>
      match ← ExceptT.mk (pure (a.existing (a.mapName.get? g))) with
      | none => place (putGlobal a.mapName) b none
      | some h => if known != some h then place (putGlobal a.mapName) b (some h)

theorem outcome_placeGlobal_of_none (a : PropertyMap) (b : Bundle) (known : Option BundleHandle)
    {s : RunState ω} (hs : s.context.global = none) :
    outcome (a.placeGlobal b known) s = (.ok (), s) := by
  have hcontext : outcome (Step.context : Step ω ActionError Context) s = (.ok s.context, s) := rfl
  rw [placeGlobal, outcome_bind_of_ok hcontext, hs]
  rfl

/-- The global map gets the bundle into a map of its own. -/
theorem outcome_placeGlobal {a : PropertyMap} (b : Bundle) {known own : Option BundleHandle}
    {s : RunState ω} {g : ValueMap} (hg : s.context.global = some g)
    (hown : a.existing (a.mapName.get? g) = .ok own) (hknown : ∀ h, own = some h → known ≠ some h) :
    outcome (a.placeGlobal b known) s = outcome (place (putGlobal a.mapName) b own) s := by
  have hcontext : outcome (Step.context : Step ω ActionError Context) s = (.ok s.context, s) := rfl
  have hslot : outcome (ExceptT.mk (pure (a.existing (a.mapName.get? g))) :
      Step ω ActionError (Option BundleHandle)) s = (.ok own, s) := by rw [outcome_answer, hown]
  rw [placeGlobal, outcome_bind_of_ok hcontext, hg]
  dsimp only
  rw [outcome_bind_of_ok hslot]
  cases own with
  | none => rfl
  | some h =>
    dsimp only
    rw [if_pos (by simpa using hknown h rfl)]

theorem run_eq (a : PropertyMap) (env : ActionEnv ω) :
    a.run env = (do
      let s ← get
      let properties ← Step.require propertySourceName env.properties
      let b ← mapError (.property (a.resource.expandText s.heap s.context))
        (call (properties.bundle (a.resource.expandText s.heap s.context) s.context.locale))
      let known ← ExceptT.mk (pure (a.existing (a.mapName.get? s.context)))
      place (put a.mapName) b known
      if a.global.isTrue s.heap s.context then a.placeGlobal b known) := by
  unfold PropertyMap.run
  refine bind_congr fun s => bind_congr fun properties => bind_congr fun b => ?_
  refine bind_congr fun known => ?_
  cases known with
  | none => exact (bind_assoc (alloc b) _ _).symm
  | some h => rfl

/-- A load that succeeds has got a bundle from the property source, found a message map or nothing
under its name, and put the bundle there and, with the global flag, into the global map. -/
theorem of_run_eq_ok {a : PropertyMap} {env : ActionEnv ω} {s t : RunState ω}
    (h : outcome (a.run env) s = (.ok (), t)) :
    ∃ properties b w known u, env.properties = some properties ∧
      properties.bundle (a.resource.expandText s.heap s.context) s.context.locale s.world =
        (.ok b, w) ∧
      a.existing (a.mapName.get? s.context) = .ok known ∧
      outcome (place (put a.mapName) b known) { s with world := w } = (.ok (), u) ∧
      outcome (if a.global.isTrue s.heap s.context then a.placeGlobal b known else pure ()) u =
        (.ok (), t) := by
  rw [run_eq, outcome_bind_of_ok (outcome_get s)] at h
  obtain ⟨properties, s₁, hrequire, hrest⟩ := bind_eq_ok.mp h
  obtain ⟨hproperties, rfl⟩ := of_require_eq_ok hrequire
  obtain ⟨b, s₂, hload, hrest⟩ := bind_eq_ok.mp hrest
  rw [mapError_eq_ok, outcome_call] at hload
  obtain ⟨hbundle, rfl⟩ := Prod.mk.inj hload
  obtain ⟨known, s₃, hslot, hplaces⟩ := bind_eq_ok.mp hrest
  obtain ⟨hknown, rfl⟩ := Prod.mk.inj hslot
  obtain ⟨_, u, hplace, hglobal⟩ := bind_eq_ok.mp hplaces
  exact ⟨properties, b, _, known, u, hproperties, Prod.ext hbundle rfl, hknown, hplace, hglobal⟩

end PropertyMap
end ScreenActions
