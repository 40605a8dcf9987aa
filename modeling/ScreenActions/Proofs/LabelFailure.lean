import ScreenActions.Proofs.FailureAtomicity
import ScreenActions.Proofs.LabelRuns
import ScreenActions.Proofs.MessageReads

/-!
What loading a resource into a message map leaves behind when it fails. The map of the global map is
looked at only after the visible one has taken the bundle, so that the state is as it was before
unless there was something to take.
-/

namespace ScreenActions

open Step

variable {ω : Type}

/-- The layers and the global map are as before, and so are the bundles of every message map that
can be got from them. -/
def RunState.Untouched (s t : RunState ω) : Prop :=
  t.context = s.context ∧ ∀ h, s.context.Reaches h → t.heap.stack h = s.heap.stack h

namespace BundleHeap

/-- The slot has no message map, or one that has no bundle of this resource and locale yet. -/
def Takes (heap : BundleHeap) (b : Bundle) : Option BundleHandle → Prop
  | none => True
  | some h => h < heap.length ∧
      ∀ b' ∈ heap.stack h, ¬(b'.resource = b.resource ∧ b'.locale = b.locale)

theorem stack_addBottom_eq_iff {heap : BundleHeap} {b : Bundle} {h : BundleHandle} :
    stack (heap.addBottom h b).1 h = stack heap h ↔ ¬heap.Takes b (some h) := by
  by_cases hh : h < heap.length
  · rw [stack_addBottom_self b hh, ← BundleStack.addBottom_eq_false_iff,
      BundleStack.addBottom_eq_false_iff_exists]
    simp [Takes, hh]
  · have hsame : (heap.addBottom h b).1 = heap := List.set_eq_of_length_le (Nat.le_of_not_lt hh)
    simp [Takes, hh, hsame]

end BundleHeap

namespace PropertyMap

/-- What a load has got before it writes: the bundle, the map that is visible under its name, and
what the property source keeps then. -/
def Prepares (a : PropertyMap) (env : ActionEnv ω) (s : RunState ω) (b : Bundle)
    (known : Option BundleHandle) (w : ω) : Prop :=
  ∃ properties, env.properties = some properties ∧
    properties.bundle (a.resource.expandText s.heap s.context) s.context.locale s.world =
      (.ok b, w) ∧
    a.existing (a.mapName.get? s.context) = .ok known

/-- There is a bundle to load that the map visible under the name does not have. -/
def Enters (a : PropertyMap) (env : ActionEnv ω) (s : RunState ω) : Prop :=
  ∃ b known w, a.Prepares env s b known w ∧ s.heap.Takes b known

variable {a : PropertyMap} {env : ActionEnv ω} {s t : RunState ω} {b : Bundle}
  {known : Option BundleHandle} {w : ω} {e : ActionError}

theorem Prepares.enters_iff (h : a.Prepares env s b known w) :
    a.Enters env s ↔ s.heap.Takes b known := by
  refine ⟨?_, fun htakes => ⟨b, known, w, h, htakes⟩⟩
  rintro ⟨b', known', w', ⟨properties', henv', hbundle', hknown'⟩, htakes⟩
  obtain ⟨properties, henv, hbundle, hknown⟩ := h
  obtain rfl : properties = properties' := Option.some.inj (henv.symm.trans henv')
  obtain ⟨hb, -⟩ := Prod.mk.inj (hbundle.symm.trans hbundle')
  obtain rfl := Except.ok.inj hb
  obtain rfl := Except.ok.inj (hknown.symm.trans hknown')
  exact htakes

theorem existing_eq_error {slot : Option Value} (h : a.existing slot = .error e) :
    ∃ v, slot = some v ∧ v.isNull = false ∧ v.bundle? = none ∧
      e = .notABundle a.mapName.text v.typeName := by
  unfold existing at h
  split at h
  · cases h
  · cases h
  · cases h
  · next v hnull hbundle =>
    cases h
    refine ⟨v, rfl, ?_, ?_, rfl⟩
    · cases v with
      | null => exact absurd rfl hnull
      | _ => rfl
    · cases v with
      | bundle k => exact absurd rfl (hbundle k)
      | _ => rfl

theorem place_failsByPath (write : Value → Step ω PathError Unit) (b : Bundle)
    (known : Option BundleHandle) : FailsByPath (place write b known) := by
  cases known with
  | none =>
    intro s t e h
    rw [outcome_place_none] at h
    exact failsByPath_mapError _ _ t e h
  | some h =>
    intro s t e herror
    cases herror

/-- Putting the bundle into the map that is visible leaves the state untouched exactly if that map
has the bundle already. -/
theorem untouched_place_iff (hknown : a.existing (a.mapName.get? s.context) = .ok known)
    (h : outcome (place (put a.mapName) b known) { s with world := w } = (.ok (), t)) :
    s.Untouched t ↔ ¬s.heap.Takes b known := by
  cases known with
  | none =>
    rw [outcome_place_none, mapError_eq_ok, outcome_put] at h
    obtain ⟨hput, rfl⟩ := Prod.mk.inj h
    have hchanged := FieldPath.put_ne rfl (isNull_of_existing hknown) hput
    exact ⟨fun huntouched => absurd huntouched.1 hchanged, fun htakes => absurd trivial htakes⟩
  | some k =>
    obtain rfl := (Prod.mk.inj h).2
    rw [← BundleHeap.stack_addBottom_eq_iff]
    refine ⟨fun huntouched => ?_, fun hstack => ⟨rfl, fun k' _ => ?_⟩⟩
    · exact huntouched.2 k (Context.reaches_of_get? (bundle_of_existing hknown))
    · by_cases hk : k' = k
      · exact hk ▸ hstack
      · exact BundleHeap.stack_addBottom_of_ne b hk

/-- The global map refuses a bundle only if it has something else under the name, and before it
changes. -/
theorem of_placeGlobal_eq_error (h : outcome (a.placeGlobal b known) s = (.error e, t))
    (he : ¬e.IsPath) :
    t = s ∧ ∃ g, s.context.global = some g ∧ a.existing (a.mapName.get? g) = .error e := by
  have hcontext : outcome (Step.context : Step ω ActionError Context) s = (.ok s.context, s) := rfl
  rw [placeGlobal, outcome_bind_of_ok hcontext] at h
  cases hg : s.context.global with
  | none =>
    rw [hg] at h
    cases h
  | some g =>
    rw [hg] at h
    rcases bind_eq_error.mp h with hslot | ⟨own, u, -, hplace⟩
    · obtain ⟨hown, rfl⟩ := Prod.mk.inj hslot
      exact ⟨rfl, g, rfl, hown⟩
    · cases own with
      | none => exact absurd (place_failsByPath _ _ _ _ _ _ hplace) he
      | some k =>
        dsimp only at hplace
        split at hplace
        · exact absurd (place_failsByPath _ _ _ _ _ _ hplace) he
        · cases hplace

/-- A load that fails for another reason than a path has nothing to write yet, or has put the bundle
into the visible map and finds something else in the global map. -/
theorem of_run_eq_error (h : outcome (a.run env) s = (.error e, t)) (he : ¬e.IsPath) :
    (s.SameButWorld t ∧ ¬a.Enters env s) ∨
    ∃ b known w, a.Prepares env s b known w ∧
      outcome (place (put a.mapName) b known) { s with world := w } = (.ok (), t) ∧
      a.global.isTrue s.heap s.context = true ∧
      ∃ g, t.context.global = some g ∧ a.existing (a.mapName.get? g) = .error e := by
  rw [run_eq, outcome_bind_of_ok (outcome_get s)] at h
  rcases bind_eq_error.mp h with hrequire | ⟨properties, s₁, hrequire, hrest⟩
  -- There is no property source.
  · refine .inl ⟨(quiet_require _ _).sameButWorld hrequire, ?_⟩
    rintro ⟨_, _, _, ⟨properties, henv, -⟩, -⟩
    rw [henv] at hrequire
    cases hrequire
  obtain ⟨henv, hs₁⟩ := of_require_eq_ok hrequire
  subst s₁
  rcases bind_eq_error.mp hrest with hload | ⟨b, s₂, hload, hrest⟩
  -- It does not give a bundle.
  · refine .inl ⟨((quiet_call _).mapError _).sameButWorld hload, ?_⟩
    rintro ⟨_, _, _, ⟨properties', henv', hbundle, -⟩, -⟩
    obtain rfl : properties = properties' := Option.some.inj (henv.symm.trans henv')
    rw [outcome_mapError, outcome_call, hbundle] at hload
    cases hload
  rw [mapError_eq_ok, outcome_call] at hload
  obtain ⟨hbundle, rfl⟩ := Prod.mk.inj hload
  rcases bind_eq_error.mp hrest with hslot | ⟨known, s₃, hslot, hplaces⟩
  -- Something else than a message map is visible under the name.
  · obtain ⟨hslot, rfl⟩ := Prod.mk.inj hslot
    refine .inl ⟨⟨_, rfl⟩, ?_⟩
    rintro ⟨_, _, _, ⟨_, -, -, hknown⟩, -⟩
    rw [hknown] at hslot
    cases hslot
  obtain ⟨hknown, rfl⟩ := Prod.mk.inj hslot
  rcases bind_eq_error.mp hplaces with hplace | ⟨_, u, hplace, hglobal⟩
  · exact absurd (place_failsByPath _ _ _ _ _ _ hplace) he
  -- The bundle is in the visible map, so that only the global map is left to fail.
  refine .inr ⟨b, known, _, ⟨properties, henv, Prod.ext hbundle rfl, hknown⟩, ?_⟩
  cases hflag : a.global.isTrue s.heap s.context with
  | false =>
    rw [hflag] at hglobal
    cases hglobal
  | true =>
    rw [hflag] at hglobal
    obtain ⟨rfl, hrefused⟩ := of_placeGlobal_eq_error hglobal he
    exact ⟨hplace, rfl, hrefused⟩

/-- A load that fails for another reason than a path leaves the layers, the global map and all
message maps in them as they were, unless it has a bundle that the visible map does not have. Then
that map has taken it when the load fails, for the global flag is set and the global map has
something else under the name. -/
theorem untouched_iff_of_failed_load (h : outcome (a.run env) s = (.error e, t))
    (he : ¬e.IsPath) :
    (s.Untouched t ↔ ¬a.Enters env s) ∧
      (a.Enters env s → a.global.isTrue s.heap s.context = true ∧
        ∃ g v, t.context.global = some g ∧ a.mapName.get? g = some v ∧ v.isNull = false ∧
          v.bundle? = none ∧ e = .notABundle a.mapName.text v.typeName) := by
  rcases of_run_eq_error h he with
    ⟨⟨w, rfl⟩, henters⟩ | ⟨b, known, w, hprepares, hplace, hflag, g, hg, hrefused⟩
  · exact ⟨⟨fun _ => henters, fun _ => ⟨rfl, fun _ _ => rfl⟩⟩, fun hyes => absurd hyes henters⟩
  · have ⟨_, _, _, hknown⟩ := hprepares
    obtain ⟨v, hv, hnull, hbundle, hmessage⟩ := existing_eq_error hrefused
    rw [hprepares.enters_iff]
    exact ⟨untouched_place_iff hknown hplace,
      fun _ => ⟨hflag, g, v, hg, hv, hnull, hbundle, hmessage⟩⟩

theorem untouched_of_load_of_known_bundle :
    let m : MemorySource := [("App", [("", [("cart", "Cart")])])]
    let env : ActionEnv Unit := { properties := some (m.source Unit) }
    let a : PropertyMap := ActionList.labelsOf "App" "true"
    let before : RunState Unit :=
      ⟨⟨[("labels", .bundle 0)], [], some [("labels", .text "Labels")]⟩,
        [[⟨"App", none, [("cart", "Cart")]⟩]], none, none, ()⟩
    let after := (outcome (a.run env) before).2
    let e : ActionError := .notABundle "labels" "String"
    outcome (a.run env) before = (.error e, after) ∧ ¬e.IsPath ∧ ¬a.Enters env before ∧
      before.Untouched after := by
  intro m env a before after e
  have hrun : outcome (a.run env) before = (.error e, after) := Prod.ext (by decide +kernel) rfl
  have hprepares : a.Prepares env before ⟨"App", none, [("cart", "Cart")]⟩ (some 0) () :=
    ⟨m.source Unit, rfl, by decide +kernel, by decide +kernel⟩
  have henters : ¬a.Enters env before := by
    rw [hprepares.enters_iff]
    exact fun htakes => htakes.2 _ (List.mem_singleton_self _) ⟨rfl, rfl⟩
  exact ⟨hrun, id, henters, (untouched_iff_of_failed_load hrun id).1.mpr henters⟩

/-- The labels have got the bundle when the load fails at the text in the global map. -/
theorem failed_load_touches_labels :
    let m : MemorySource := [("App", [("", [("cart", "Cart")])])]
    let env : ActionEnv Unit := { properties := some (m.source Unit) }
    let a : PropertyMap := ActionList.labelsOf "App" "true"
    let before : RunState Unit :=
      ⟨⟨[("labels", .bundle 0)], [], some [("labels", .text "Labels")]⟩,
        [[⟨"Shop", none, [("title", "Shop")]⟩]], none, none, ()⟩
    let after := (outcome (a.run env) before).2
    let e : ActionError := .notABundle "labels" "String"
    outcome (a.run env) before = (.error e, after) ∧ ¬e.IsPath ∧
      (before.heap.stack 0).resources = ["Shop"] ∧
      (after.heap.stack 0).resources = ["Shop", "App"] ∧ ¬before.Untouched after := by
  intro m env a before after e
  have hrun : outcome (a.run env) before = (.error e, after) := Prod.ext (by decide +kernel) rfl
  have hafter : (after.heap.stack 0).resources = ["Shop", "App"] := by decide +kernel
  refine ⟨hrun, id, rfl, hafter, fun huntouched => ?_⟩
  have hreaches : before.context.Reaches 0 := ⟨_, .head _, "labels", _, rfl, .self 0⟩
  have hsame : (after.heap.stack 0).resources = ["Shop"] :=
    congrArg BundleStack.resources (huntouched.2 0 hreaches)
  rw [hafter] at hsame
  cases hsame

end PropertyMap
end ScreenActions
