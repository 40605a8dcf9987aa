import ScreenActions.Proofs.ActionRun
import ScreenActions.Proofs.ActionWrites
import ScreenActions.Proofs.LabelSteps
import ScreenActions.Proofs.TopWrites

/-!
What a run leaves of the layers below the top one, of the global map and of the message maps in
them. Only dotted paths that go on from a field of a lower layer write there, and only loading more
messages under a name adds to the message map that is visible under it.
-/

namespace ScreenActions

open Step

namespace RunState

variable {ω : Type}

/-- From the first state to the second, the lower layers and the global map stay, and message maps
only get more bundles at their bottom. -/
structure KeepsBelow (s t : RunState ω) : Prop where
  context : s.context.OnlyTop t.context
  length : s.heap.length ≤ t.heap.length
  prefixes : ∀ h, s.heap.stack h <+: t.heap.stack h

theorem KeepsBelow.refl (s : RunState ω) : s.KeepsBelow s :=
  ⟨.refl _, Nat.le_refl _, fun _ => List.prefix_rfl⟩

theorem KeepsBelow.trans {s t u : RunState ω} (h : s.KeepsBelow t) (h' : t.KeepsBelow u) :
    s.KeepsBelow u :=
  ⟨h.context.trans h'.context, Nat.le_trans h.length h'.length,
    fun k => (h.prefixes k).trans (h'.prefixes k)⟩

theorem KeepsBelow.of_onlyTop {s t : RunState ω} (hc : s.context.OnlyTop t.context)
    (hh : t.heap = s.heap) : s.KeepsBelow t :=
  ⟨hc, hh ▸ Nat.le_refl _, fun _ => hh ▸ List.prefix_rfl⟩

end RunState

variable {ω : Type} {env : ActionEnv ω}

/-- Without the global flag, loading messages makes a new message map where there is none, or adds
to the one that is there. -/
theorem PropertyMap.eq_of_run {a : PropertyMap} {s t : RunState ω}
    (hglobal : a.global.isTrue s.heap s.context = false) (h : outcome (a.run env) s = (.ok (), t)) :
    ∃ b w, ((a.mapName.get? s.context).all Value.isNull = true ∧
        t = { s with
          context := (a.mapName.put s.context (.bundle s.heap.length)).1
          heap := (s.heap.alloc b).2
          world := w }) ∨
      ∃ k, a.mapName.get? s.context = some (.bundle k) ∧
        t = { s with heap := (s.heap.addBottom k b).1, world := w } := by
  obtain ⟨properties, b, w, known, u, -, -, hknown, hplace, hrest⟩ := of_run_eq_ok h
  rw [if_neg (by simp [hglobal])] at hrest
  obtain rfl : u = t := (Prod.mk.inj hrest).2
  refine ⟨b, w, ?_⟩
  cases known with
  | none =>
    left
    rw [outcome_place_none, mapError_eq_ok, outcome_put] at hplace
    exact ⟨isNull_of_existing hknown, (Prod.mk.inj hplace).2.symm⟩
  | some k =>
    right
    rw [outcome_place_some] at hplace
    exact ⟨k, bundle_of_existing hknown, (Prod.mk.inj hplace).2.symm⟩

theorem ServiceCall.writesTop_keepUnder {p : FieldPath} {s : RunState ω} (result : ValueMap)
    (hp : s.context.StartsAtTop p) : WritesTop (keepUnder p result) s := by
  have hinsert : ∀ (t : RunState ω) key v, WritesTop (modifyContext (·.insert key v) :
      Step ω ActionError Unit) t :=
    fun t key v => writesTop_modifyContext (t.context.onlyTop_insert key v)
  have hrest : ∀ (t : RunState ω) (queryString queryStringMap : Value), WritesTop (do
      modifyContext (·.insert queryStringKey queryString)
      modifyContext (·.insert queryStringMapKey queryStringMap) : Step ω ActionError Unit) t :=
    fun t _ _ => (hinsert t _ _).bind fun _ u _ => hinsert u _ _
  refine (writesTop_put _ _ hp).bind fun _ t _ => ?_
  dsimp only
  split
  · split
    · exact (hinsert t _ _).bind fun _ u _ => hrest u _ _
    · exact hrest t _ _
  · exact hrest t _ _

theorem ServiceCall.writesTop_run {a : ServiceCall} {s : RunState ω}
    (hp : ∀ p ∈ a.resultMapName, s.context.StartsAtTop p) : WritesTop (a.run env) s := by
  refine (a.run_endsIn env).writesTop fun y t hy hc => ?_
  obtain ⟨result, rfl⟩ := hy
  split
  · next p hname => exact writesTop_keepUnder _ (hc ▸ hp p hname)
  · exact writesTop_modifyContext (t.context.onlyTop_extend result)

/-- Without the global flag, and with no page map below the top layer, a value that is set goes to a
store or stays in the top layer. -/
theorem SetField.writesTop_write {a : SetField} {s : RunState ω} (v : Value)
    {target : Option ScopedStore} (hglobal : a.global.isTrue s.heap s.context = false)
    (hpage : s.context.MapAtTop Context.pageKey)
    (hfield : target = none → s.context.StartsAtTop a.field) :
    WritesTop (a.write s v target) s := by
  unfold write writeTarget writeGlobal
  simp only [hglobal, Bool.false_eq_true, if_false]
  refine WritesTop.bind ?_ fun _ t hst => ?_
  · cases target with
    | none => exact writesTop_put _ v (hfield rfl)
    | some store =>
      intro _ t h
      obtain rfl := (Prod.mk.inj h).2
      cases a.toScope <;> exact ⟨.refl _, rfl⟩
  · refine (writesTop_pure () t).bind fun _ u htu => ?_
    exact writesTop_putWithin _ a.field v (htu.mapAtTop (hst.mapAtTop hpage))

theorem SetField.writesTop_run {a : SetField} {s : RunState ω}
    (hglobal : a.global.isTrue s.heap s.context = false)
    (hpage : s.context.MapAtTop Context.pageKey)
    (hfield : a.toScope = .screen → s.context.StartsAtTop a.field) :
    WritesTop (a.run : Step ω ActionError Unit) s := by
  intro _ t h
  rw [outcome_run] at h
  split at h
  · cases h
  · split at h
    · cases h
    · next target hstore =>
      refine writesTop_write _ hglobal hpage ?_ () t h
      rintro rfl
      apply hfield
      unfold store? at hstore
      split at hstore
      · assumption
      · split at hstore <;> cases hstore
      · split at hstore <;> cases hstore

theorem relationSource_of_isNull {valueName : FieldPath} {relation : String} {c : Context}
    (h : (valueName.get? c).all Value.isNull = true) :
    relationSource valueName relation c = .ok none := by
  unfold relationSource
  rcases hv : valueName.get? c with _ | v
  · rfl
  · rw [hv] at h
    cases v <;> first | rfl | cases h

theorem RelatedOne.writesTop_run {a : RelatedOne} {s : RunState ω}
    (hp : ¬(a.valueName.get? s.context).all Value.isNull = true →
      s.context.StartsAtTop a.toValueName) : WritesTop (a.run env) s := by
  refine (a.run_endsIn env).writesTop_of_idle_or_startsAtTop (fun hnull => ?_) hp
  unfold run
  rw [outcome_bind_of_ok (outcome_get s), relationSource_of_isNull hnull]
  rfl

theorem RelatedList.writesTop_run {a : RelatedList} {s : RunState ω}
    (hp : ¬(a.valueName.get? s.context).all Value.isNull = true →
      s.context.StartsAtTop a.listName) : WritesTop (a.run env) s := by
  refine (a.run_endsIn env).writesTop_of_idle_or_startsAtTop (fun hnull => ?_) hp
  unfold run
  rw [outcome_bind_of_ok (outcome_get s), relationSource_of_isNull hnull]
  rfl

namespace ScreenAction

/-- The template of the global flag. -/
def global? : ScreenAction → Option Template
  | .setField a => some a.global
  | .propertyMap a => some a.global
  | _ => none

/-- The path of the context at which the action writes, if it succeeds on the state without the
global flag. Relations of nothing are not followed, and messages are added to a message map that is
there already. -/
def target? (s : RunState ω) : ScreenAction → Option FieldPath
  | .setField a => if a.toScope = .screen then some a.field else none
  | .propertyMap a => if (a.mapName.get? s.context).all Value.isNull then some a.mapName else none
  | .propertyToField a => some a.field
  | .script _ => none
  | .service a => a.resultMapName
  | .entityOne a => some a.valueName
  | .entityAnd a => some a.query.listName
  | .entityCondition a => some a.query.listName
  | .relatedOne a =>
      if (a.valueName.get? s.context).all Value.isNull then none else some a.toValueName
  | .related a =>
      if (a.valueName.get? s.context).all Value.isNull then none else some a.listName

/-- The action is no script, its global flag is not set, and it writes from the top layer on. -/
structure Plain (a : ScreenAction) (s : RunState ω) : Prop where
  not_script : ∀ b, a ≠ .script b
  not_global : ∀ flag ∈ a.global?, flag.isTrue s.heap s.context = false
  startsAtTop : ∀ p ∈ a.target? s, s.context.StartsAtTop p

/-- The action adds messages to the message map of a handle. -/
def LoadsInto (k : BundleHandle) (a : ScreenAction) (s : RunState ω) : Prop :=
  ∃ b, a = .propertyMap b ∧ b.mapName.get? s.context = some (.bundle k)

/-- A plain action other than loading a message map changes nothing but the top layer, the stores
and what the collaborators keep. -/
theorem writesTop_run {a : ScreenAction} {s : RunState ω} (ha : a.Plain s)
    (hpage : s.context.MapAtTop Context.pageKey) (hload : ∀ b, a ≠ .propertyMap b) :
    WritesTop (a.run env) s := by
  have hp := ha.startsAtTop
  cases a with
  | propertyMap b => exact absurd rfl (hload b)
  | script b => exact absurd rfl (ha.not_script b)
  | setField a =>
    refine SetField.writesTop_run (ha.not_global _ rfl) hpage fun hscope => hp _ ?_
    simp [target?, hscope]
  | propertyToField a => exact (a.run_endsIn env).writesTop_of_startsAtTop (hp _ rfl)
  | service a => exact ServiceCall.writesTop_run hp
  | entityOne a => exact (a.run_endsIn env).writesTop_of_startsAtTop (hp _ rfl)
  | entityAnd a => exact (a.run_endsIn env).writesTop_of_startsAtTop (hp _ rfl)
  | entityCondition a => exact (a.run_endsIn env).writesTop_of_startsAtTop (hp _ rfl)
  | relatedOne a => exact RelatedOne.writesTop_run fun hnull => hp _ (if_neg hnull)
  | related a => exact RelatedList.writesTop_run fun hnull => hp _ (if_neg hnull)

theorem keepsBelow_of_run {a : ScreenAction} {s t : RunState ω} (ha : a.Plain s)
    (hpage : s.context.MapAtTop Context.pageKey) (h : outcome (a.run env) s = (.ok (), t)) :
    s.KeepsBelow t ∧
      ∀ k < s.heap.length, ¬a.LoadsInto k s → t.heap.stack k = s.heap.stack k := by
  by_cases hload : ∃ b, a = .propertyMap b
  · obtain ⟨b, rfl⟩ := hload
    obtain ⟨bundle, w, ⟨hnull, rfl⟩ | ⟨k, hk, rfl⟩⟩ :=
      PropertyMap.eq_of_run (ha.not_global _ rfl) h
    · have hp := ha.startsAtTop b.mapName (if_pos hnull)
      refine ⟨⟨Context.onlyTop_put hp _, ?_, fun k => BundleHeap.prefix_stack_alloc _ _ k⟩,
        fun k hk _ => BundleHeap.stack_alloc_of_lt bundle hk⟩
      simp [BundleHeap.alloc]
    · refine ⟨⟨.refl _, ?_, fun j => BundleHeap.prefix_stack_addBottom _ k j _⟩, ?_⟩
      · simp [BundleHeap.addBottom]
      · intro j _ hj
        apply BundleHeap.stack_addBottom_of_ne
        rintro rfl
        exact hj ⟨b, rfl, hk⟩
  · have hwrites : WritesTop (a.run env) s := writesTop_run ha hpage fun b hb => hload ⟨b, hb⟩
    obtain ⟨hc, hheap⟩ := hwrites () t h
    exact ⟨.of_onlyTop hc hheap, fun k _ _ => by rw [hheap]⟩

end ScreenAction

namespace ActionList

/-- What holds of each action on the state that it runs on, in a run that goes on to the end or to
the first failure. -/
def Throughout (env : ActionEnv ω) (P : ScreenAction → RunState ω → Prop) :
    ActionList → RunState ω → Prop
  | [], _ => True
  | a :: rest, s => P a s ∧ ∀ t, outcome (a.run env) s = (.ok (), t) → Throughout env P rest t

theorem Completes.keepsBelow {actions : ActionList} {s t : RunState ω}
    (h : Completes env actions s t) (hpage : s.context.MapAtTop Context.pageKey)
    (hplain : Throughout env ScreenAction.Plain actions s) :
    s.KeepsBelow t ∧ ∀ k < s.heap.length,
      Throughout env (fun a u => ¬a.LoadsInto k u) actions s →
        t.heap.stack k = s.heap.stack k := by
  induction h with
  | nil s => exact ⟨.refl s, fun _ _ _ => rfl⟩
  | @cons a rest s m t step tail ih =>
    obtain ⟨hsm, hstacks⟩ := ScreenAction.keepsBelow_of_run hplain.1 hpage step
    obtain ⟨hmt, hstacks'⟩ := ih (hsm.context.mapAtTop hpage) (hplain.2 m step)
    refine ⟨hsm.trans hmt, fun k hk hload => ?_⟩
    rw [hstacks' k (Nat.lt_of_lt_of_le hk hsm.length) (hload.2 m step), hstacks k hk hload.1]

/-- A run of plain actions that succeeds, with no page map visible before it, leaves the lower
layers and the global map as they are. The message maps that there are keep their bundles in place
and get others only below them, and those that no action loads into keep just their bundles. -/
theorem run_keeps_lower_layers {actions : ActionList} {s t : RunState ω}
    (h : outcome (actions.run env) s = (.ok (), t))
    (hpage : ∀ m, s.context.get? Context.pageKey ≠ some (.map m))
    (hplain : Throughout env ScreenAction.Plain actions s) :
    t.context.below = s.context.below ∧ t.context.global = s.context.global ∧
      (∀ k, s.heap.stack k <+: t.heap.stack k) ∧
      ∀ k < s.heap.length, Throughout env (fun a u => ¬a.LoadsInto k u) actions s →
        t.heap.stack k = s.heap.stack k := by
  have hmap : s.context.MapAtTop Context.pageKey := fun m hm => absurd hm (hpage m)
  obtain ⟨hkeeps, hstacks⟩ := (run_eq_ok_iff.mp h).keepsBelow hmap hplain
  exact ⟨hkeeps.context.below, hkeeps.context.global, hkeeps.prefixes, hstacks⟩

/-- A source that answers every request with one message. -/
def greetingSource : PropertySource Unit :=
  ⟨fun resource locale w => (.ok ⟨resource, locale, [("greeting", "Hello")]⟩, w)⟩

/-- Sets a field to a text. -/
def setText (field text : String) : ScreenAction :=
  .setField ⟨.ofText field, .ofText "", ⟨text, [.text text]⟩, ⟨"", []⟩, ⟨"", []⟩, "",
    .screen, .screen⟩

/-- Loads the messages of a resource into the field that holds the labels. -/
def loadLabels (resource : String) : ScreenAction :=
  .propertyMap ⟨⟨resource, [.text resource]⟩, .ofText "labels", ⟨"", []⟩⟩

theorem run_keeps_lower_layers_loading_labels :
    let env : ActionEnv Unit := { properties := some greetingSource }
    let actions : ActionList := [setText "order.total" "2", loadLabels "Shop"]
    let below : List ValueMap := [[("labels", .bundle 0), ("order", .text "none")]]
    let global : Option ValueMap := some [("title", .text "Orders")]
    let before : RunState Unit :=
      ⟨⟨[("order", .map [])], below, global⟩, [[⟨"App", none, []⟩], []], none, none, ()⟩
    let after : RunState Unit :=
      ⟨⟨[("order", .map [("total", .text "2")])], below, global⟩,
        [[⟨"App", none, []⟩, ⟨"Shop", none, [("greeting", "Hello")]⟩], []], none, none, ()⟩
    outcome (run env actions) before = (.ok (), after) ∧
      after.context.below = before.context.below ∧ after.context.global = before.context.global ∧
      (∀ k, before.heap.stack k <+: after.heap.stack k) ∧
      after.heap.stack 1 = before.heap.stack 1 := by
  intro env actions below global before after
  have hrun : outcome (run env actions) before = (.ok (), after) := rfl
  have hpage : ∀ m, before.context.get? Context.pageKey ≠ some (.map m) := nofun
  have hplain : Throughout env ScreenAction.Plain actions before := by
    refine ⟨⟨nofun, ?_, ?_⟩, fun t ht => ⟨⟨nofun, ?_, ?_⟩, fun _ _ => trivial⟩⟩
    · rintro flag h
      cases h
      rfl
    · rintro p h root seg rest hroot
      cases h
      cases hroot
      exact .inl rfl
    · rintro flag h
      cases h
      rfl
    · cases ht
      nofun
  have hload : Throughout env (fun a u => ¬a.LoadsInto 1 u) actions before := by
    refine ⟨?_, fun t ht => ⟨?_, fun _ _ => trivial⟩⟩
    · rintro ⟨b, hb, -⟩
      cases hb
    · rintro ⟨b, hb, hslot⟩
      cases ht
      cases hb
      cases hslot
  obtain ⟨hbelow, hglobal, hprefix, hstacks⟩ := run_keeps_lower_layers hrun hpage hplain
  exact ⟨hrun, hbelow, hglobal, hprefix, hstacks 1 (by decide) hload⟩

/-- Messages are added to a message map that a lower layer holds: what is read there stays, and a
key that was not there has a message now. -/
theorem run_adds_messages_in_lower_layer :
    let env : ActionEnv Unit := { properties := some greetingSource }
    let actions : ActionList := [loadLabels "Shop"]
    let app : Bundle := ⟨"App", none, [("title", "Orders")]⟩
    let before : RunState Unit := ⟨⟨[], [[("labels", .bundle 0)]], none⟩, [[app]], none, none, ()⟩
    let after : RunState Unit := { before with
      heap := [[app, ⟨"Shop", none, [("greeting", "Hello")]⟩]] }
    outcome (run env actions) before = (.ok (), after) ∧
      (∀ m, before.context.get? Context.pageKey ≠ some (.map m)) ∧
      (∀ a ∈ actions, (∀ b, a ≠ .script b) ∧
        ∀ flag ∈ a.global?, flag.expandText before.heap before.context ≠ "true") ∧
      after.heap.stack 0 ≠ before.heap.stack 0 ∧
      before.heap.message? 0 "greeting" = none ∧
      after.heap.message? 0 "greeting" = some "Hello" ∧
      after.heap.message? 0 "title" = some "Orders" := by
  intro env actions app before after
  have hrun : outcome (run env actions) before = (.ok (), after) := rfl
  have hpage : ∀ m, before.context.get? Context.pageKey ≠ some (.map m) := nofun
  have hplain : ∀ a ∈ actions, (∀ b, a ≠ .script b) ∧
      ∀ flag ∈ a.global?, flag.expandText before.heap before.context ≠ "true" := by
    intro a ha
    obtain rfl := List.mem_singleton.mp ha
    refine ⟨nofun, fun flag hflag => ?_⟩
    obtain rfl := Option.some.inj hflag
    decide
  exact ⟨hrun, hpage, hplain, by simp [before, after, BundleHeap.stack], rfl, rfl, rfl⟩

end ActionList
end ScreenActions
