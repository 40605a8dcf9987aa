import ScreenActions.Proofs.ActionRun
import ScreenActions.Proofs.LabelLayers
import ScreenActions.Proofs.LabelSteps
import ScreenActions.Proofs.PlainPath

/-!
Runs that load resources into one message map. The map of the context has each resource once, in the
order of first loads, and so has the map that the global map gets of its own for the loads that ask
for it.
-/

namespace ScreenActions

open Messages Step

namespace Context

theorem get?_of_top {c : Context} {key : String} {v : Value} (h : Keyed.get? c.top key = some v) :
    c.get? key = some v := by
  simp [get?, stack, h]

theorem get?_insert_of_ne (c : Context) {key key' : String} (v : Value) (h : key ≠ key') :
    (c.insert key v).get? key' = c.get? key' := by
  simp only [get?, stack, insert, List.findSome?_cons, Keyed.get?_insert_of_ne c.top v h]

/-- The context with a field of its global map written. -/
def insertGlobal (c : Context) (g : ValueMap) (key : String) (v : Value) : Context :=
  { c with global := some (Keyed.insert key v g) }

theorem get?_insertGlobal_of_ne {c : Context} {g : ValueMap} (hg : c.global = some g)
    {key key' : String} (v : Value) (h : key ≠ key') :
    (c.insertGlobal g key v).get? key' = c.get? key' := by
  simp [get?, stack, insertGlobal, hg, Keyed.get?_insert_of_ne g v h]

theorem get?_eq_none {c : Context} {key : String} (h : c.get? key = none) :
    Keyed.get? c.top key = none ∧ ∀ g, c.global = some g → Keyed.get? g key = none := by
  obtain ⟨hstack, hglobal⟩ := Option.or_eq_none_iff.mp h
  refine ⟨List.findSome?_eq_none_iff.mp hstack _ (.head _), fun g hg => ?_⟩
  rwa [hg] at hglobal

theorem locale_eq_of_get? {c c' : Context} (h : c'.get? localeKey = c.get? localeKey) :
    c'.locale = c.locale := by
  unfold locale
  rw [h]

end Context

variable {ω : Type}

theorem Step.outcome_putGlobal {p : FieldPath} {name : String} (hp : p.root? = some (name, []))
    {s : RunState ω} {g : ValueMap} (hg : s.context.global = some g) (v : Value) :
    outcome (putGlobal p v) s =
      (.ok (), { s with context := s.context.insertGlobal g name v }) := by
  simp only [outcome, putGlobal, hg, FieldPath.put_of_root hp]
  rfl

/-- The maps of the context and of the global map under a name, with the names of the resources that
were loaded into each. -/
structure Labeled (m : MemorySource) (name : String) (locale : Option Locale) (s : RunState ω)
    (top own : Option BundleHandle) (names ownNames : List String) : Prop where
  locale_eq : s.context.locale = locale
  topSlot : Keyed.get? s.context.top name = top.map .bundle
  visible : s.context.get? name = top.map .bundle
  topHolds : m.Holds locale s.heap top names
  ownSlot : ∀ g, s.context.global = some g → Keyed.get? g name = own.map .bundle
  ownHolds : m.Holds locale s.heap own ownNames
  apart : ∀ h, own = some h → top ≠ some h

namespace PropertyMap

variable {m : MemorySource} {name : String} {locale : Option Locale} {s t : RunState ω}
  {top own : Option BundleHandle} {names ownNames : List String} {p : FieldPath}

theorem labeled_place (hp : p.root? = some (name, [])) (hname : name ≠ Context.localeKey)
    (hs : Labeled m name locale s top own names ownNames) (resource : String)
    (h : outcome (place (put p) (m.named locale resource) top) s = (.ok (), t)) :
    ∃ k, Labeled m name locale t (some k) own (names ++ [resource]) ownNames ∧
      t.context.global = s.context.global := by
  have hload := hs.topHolds.load resource
  have hown := hs.ownHolds.load_of_ne (m.named locale resource) hs.apart
  have hapart := hs.ownHolds.load_fst_ne (m.named locale resource) hs.apart
  refine ⟨(s.heap.load (m.named locale resource) top).1, ?_⟩
  cases top with
  | none =>
    rw [outcome_place_none, mapError_eq_ok, outcome_put, FieldPath.put_of_root hp] at h
    obtain rfl := (Prod.mk.inj h).2
    have htop : Keyed.get? (s.context.insert name (.bundle s.heap.length)).top name =
        some (.bundle s.heap.length) := Keyed.get?_insert_self _ _ _
    refine ⟨⟨?_, htop, Context.get?_of_top htop, hload, hs.ownSlot, hown, ?_⟩, rfl⟩
    · rw [← hs.locale_eq]
      exact Context.locale_eq_of_get? (Context.get?_insert_of_ne _ _ hname)
    · exact fun k hk heq => hapart k hk (Option.some.inj heq)
  | some k =>
    rw [outcome_place_some] at h
    obtain rfl := (Prod.mk.inj h).2
    exact ⟨⟨hs.locale_eq, hs.topSlot, hs.visible, hload, hs.ownSlot, hown, hs.apart⟩, rfl⟩

theorem labeled_placeGlobal {a : PropertyMap} (hp : a.mapName.root? = some (name, []))
    (hname : name ≠ Context.localeKey) {k : BundleHandle} {known : Option BundleHandle}
    (hs : Labeled m name locale s (some k) own names ownNames)
    (hknown : ∀ h, own = some h → known ≠ some h) (resource : String)
    (h : outcome (a.placeGlobal (m.named locale resource) known) s = (.ok (), t)) :
    ∃ own', Labeled m name locale t (some k) own' names
        (if s.context.global.isSome then ownNames ++ [resource] else ownNames) ∧
      t.context.global.isSome = s.context.global.isSome := by
  have hload := hs.ownHolds.load resource
  have hapart : ∀ h, some k = some h → own ≠ some h := fun h hk ho => hs.apart h ho hk
  have htop := hs.topHolds.load_of_ne (m.named locale resource) hapart
  have hne := hs.topHolds.load_fst_ne (m.named locale resource) hapart
  cases hg : s.context.global with
  | none =>
    rw [outcome_placeGlobal_of_none a _ known hg] at h
    obtain rfl := (Prod.mk.inj h).2
    exact ⟨own, hs, by rw [hg]⟩
  | some g =>
    have hslot : a.existing (a.mapName.get? g) = .ok own := by
      rw [FieldPath.get?_of_root hp, ← existing_map_bundle a own, ← hs.ownSlot g hg]
      rfl
    rw [outcome_placeGlobal _ hg hslot hknown] at h
    refine ⟨some (s.heap.load (m.named locale resource) own).1, ?_⟩
    cases own with
    | none =>
      have hput := outcome_putGlobal hp
        (s := { s with heap := (s.heap.alloc (m.named locale resource)).2 }) hg
        (.bundle s.heap.length)
      rw [outcome_place_none, mapError_eq_ok, hput] at h
      obtain rfl := (Prod.mk.inj h).2
      refine ⟨⟨?_, hs.topSlot, Context.get?_of_top hs.topSlot, htop, ?_, hload, ?_⟩, rfl⟩
      · rw [← hs.locale_eq]
        exact Context.locale_eq_of_get? (Context.get?_insertGlobal_of_ne hg _ hname)
      · rintro g' hg'
        cases hg'
        exact Keyed.get?_insert_self _ _ _
      · rintro h hh hk
        exact hne h hk (Option.some.inj hh)
    | some h' =>
      rw [outcome_place_some] at h
      obtain rfl := (Prod.mk.inj h).2
      exact ⟨⟨hs.locale_eq, hs.topSlot, hs.visible, htop, hs.ownSlot, hload, hs.apart⟩, by
        simp [hg]⟩

end PropertyMap

/-- A resource asked for, and whether it is asked for in the global map too. -/
structure LabelLoad where
  resource : String
  global : Bool
  deriving DecidableEq, Repr

namespace LabelLoad

/-- The name under which the resource is loaded. -/
def name (l : LabelLoad) : String := resourceName l.resource

end LabelLoad

namespace PropertyMap

/-- What the action asks for on a state. -/
def asks (a : PropertyMap) (s : RunState ω) : LabelLoad :=
  ⟨a.resource.expandText s.heap s.context, a.global.isTrue s.heap s.context⟩

/-- What the actions ask for, each on the state that the one before it leaves. -/
def loads (env : ActionEnv ω) : List PropertyMap → RunState ω → List LabelLoad
  | [], _ => []
  | a :: rest, s => a.asks s :: loads env rest (outcome (a.run env) s).2

variable {m : MemorySource} {name : String} {locale : Option Locale} {s t : RunState ω}
  {top own : Option BundleHandle} {names ownNames : List String} {env : ActionEnv ω}

/-- One action puts its resource into the map of the context and, if it asks for that and there is a
global map, into the one of the global map. -/
theorem labeled_run {a : PropertyMap} (henv : env.properties = some (m.source ω))
    (hp : a.mapName.root? = some (name, [])) (hname : name ≠ Context.localeKey)
    (hs : Labeled m name locale s top own names ownNames)
    (h : outcome (a.run env) s = (.ok (), t)) :
    m.bundle (a.asks s).resource locale = .ok (m.named locale (a.asks s).name) ∧
      t.context.global.isSome = s.context.global.isSome ∧
      ∃ top' own', Labeled m name locale t top' own' (names ++ [(a.asks s).name])
        (if s.context.global.isSome && (a.asks s).global then ownNames ++ [(a.asks s).name]
          else ownNames) := by
  obtain ⟨properties, b, w, known, u, hproperties, hload, hknown, hplace, hglobal⟩ :=
    of_run_eq_ok h
  obtain rfl : m.source ω = properties := Option.some.inj (henv.symm.trans hproperties)
  rw [hs.locale_eq] at hload
  obtain ⟨hbundle, rfl⟩ := Prod.mk.inj hload
  have hb : b = m.named locale (a.asks s).name := MemorySource.eq_named_of_bundle hbundle
  have htop : known = top := by
    rw [FieldPath.get?_of_root hp] at hknown
    have hslot : FieldStore.lookup s.context name = top.map .bundle := hs.visible
    rw [hslot, existing_map_bundle] at hknown
    exact (Except.ok.inj hknown).symm
  subst htop hb
  obtain ⟨k, hu, hug⟩ := labeled_place hp hname hs _ hplace
  refine ⟨hbundle, ?_⟩
  change outcome (if (a.asks s).global then _ else _) u = _ at hglobal
  cases hflag : (a.asks s).global with
  | false =>
    simp only [hflag, Bool.false_eq_true, if_false] at hglobal
    obtain rfl : u = t := (Prod.mk.inj hglobal).2
    refine ⟨by rw [hug], some k, own, ?_⟩
    simpa using hu
  | true =>
    simp only [hflag, if_true] at hglobal
    obtain ⟨own', ht, htg⟩ := labeled_placeGlobal hp hname hu hs.apart _ hglobal
    refine ⟨by rw [htg, hug], some k, own', ?_⟩
    simpa [hug] using ht

/-- The loads that reach the global map. -/
def globalLoads (s : RunState ω) (asked : List LabelLoad) : List LabelLoad :=
  asked.filter fun l => s.context.global.isSome && l.global

/-- Actions one after the other put all their resources into the maps, in their order. -/
theorem labeled_completes {maps : List PropertyMap} (henv : env.properties = some (m.source ω))
    (hmaps : ∀ a ∈ maps, a.mapName.root? = some (name, [])) (hname : name ≠ Context.localeKey)
    (hs : Labeled m name locale s top own names ownNames)
    (h : ActionList.Completes env (maps.map .propertyMap) s t) :
    (∀ l ∈ loads env maps s, m.bundle l.resource locale = .ok (m.named locale l.name)) ∧
      t.context.global.isSome = s.context.global.isSome ∧
      ∃ top' own', Labeled m name locale t top' own' (names ++ (loads env maps s).map (·.name))
        (ownNames ++ (globalLoads s (loads env maps s)).map (·.name)) := by
  induction maps generalizing s top own names ownNames with
  | nil =>
    cases h
    exact ⟨nofun, rfl, top, own, by simpa [loads, globalLoads] using hs⟩
  | cons a maps ih =>
    obtain ⟨ha, hmaps⟩ := List.forall_mem_cons.mp hmaps
    cases h with
    | @cons _ _ _ u _ step tail =>
      have hu : (outcome (a.run env) s).2 = u := congrArg Prod.snd step
      obtain ⟨hbundle, hug, top', own', hlabeled⟩ := labeled_run henv ha hname hs step
      obtain ⟨hbundles, htg, top'', own'', ht⟩ := ih hmaps hlabeled tail
      rw [loads, hu]
      refine ⟨List.forall_mem_cons.mpr ⟨hbundle, hbundles⟩, htg.trans hug, top'', own'', ?_⟩
      -- Whether there is a global map stays the same, so both steps count the same loads.
      have howned : (if s.context.global.isSome && (a.asks s).global then
            ownNames ++ [(a.asks s).name] else ownNames) ++
            (globalLoads u (loads env maps u)).map (·.name) =
          ownNames ++ (globalLoads s (a.asks s :: loads env maps u)).map (·.name) := by
        unfold globalLoads
        rw [hug, List.filter_cons]
        split <;> simp
      rw [howned] at ht
      simpa using ht

end PropertyMap

/-- The slot has a message map with layers of these names, or nothing if there are none. -/
def HoldsLayers (heap : BundleHeap) (slot : Option Value) (names : List String) : Prop :=
  match names with
  | [] => slot = none
  | _ => ∃ h, slot = some (.bundle h) ∧ (heap.stack h).resources = names

theorem MemorySource.Holds.holdsLayers {m : MemorySource} {locale : Option Locale}
    {heap : BundleHeap} {slot : Option BundleHandle} {names : List String}
    (h : m.Holds locale heap slot names) :
    HoldsLayers heap (slot.map .bundle) names.eraseDups := by
  cases slot with
  | none =>
    obtain rfl : names = [] := h
    rfl
  | some k =>
    obtain ⟨hnames, -, hstack⟩ := h
    unfold HoldsLayers
    split
    · next hnil =>
      cases names with
      | nil => exact absurd rfl hnames
      | cons name names => simp [List.eraseDups_cons] at hnil
    · exact ⟨k, rfl, by rw [hstack, resources_layers]⟩

/-- A key after the name of the map is answered by the first of the names whose resource has it. -/
theorem MemorySource.Holds.getValue? {m : MemorySource} {locale : Option Locale}
    {heap : BundleHeap} {slot : Option BundleHandle} {names : List String}
    (h : m.Holds locale heap slot names) {c : Context} {p : FieldPath} {name key : String}
    (hp : p.root? = some (name, [.key key])) (hslot : c.get? name = slot.map .bundle) :
    p.getValue? heap c =
      (names.findSome? fun resource => (m.named locale resource).get? key).map .text := by
  cases slot with
  | none =>
    obtain rfl : names = [] := h
    exact FieldPath.getValue?_of_none hp hslot heap
  | some k =>
    obtain ⟨-, -, hstack⟩ := h
    rw [FieldPath.getValue?_of_bundle hp hslot, BundleHeap.message?, hstack, get?_layers]

namespace ActionList

/-- Loading resources from memory under one name, which is free before. The map in the top layer has
the resources in the order of their first loads, each once, and a key is answered by the first
resource that has it; the global map gets a map of its own, for the loads that ask for it. -/
theorem run_layers_resources {m : MemorySource} {env : ActionEnv ω}
    (henv : env.properties = some (m.source ω)) {attr : String}
    (hplain : FieldPath.Plain attr.toList) (hne : Text.trimText attr ≠ "")
    (hlocale : Text.trimText attr ≠ Context.localeKey) {maps : List PropertyMap}
    (hmaps : ∀ a ∈ maps, a.mapName = FieldPath.ofText attr) {s t : RunState ω}
    (hfree : s.context.get? (Text.trimText attr) = none)
    (h : outcome (run env (maps.map .propertyMap)) s = (.ok (), t)) :
    let name := Text.trimText attr
    let loads := PropertyMap.loads env maps s
    HoldsLayers t.heap (Keyed.get? t.context.top name) (loads.map (·.name)).eraseDups ∧
    (∀ key : String, FieldPath.Plain key.toList → key ≠ "" →
      (∀ c ∈ key.toList.getLast?, Text.isBlank c = false) →
      (FieldPath.ofText (name ++ "." ++ key)).getValue? t.heap t.context =
        (loads.findSome? fun l =>
          (m.bundle l.resource s.context.locale).toOption.bind (·.get? key)).map .text) ∧
    (s.context.global.isSome → ∃ g, t.context.global = some g ∧
      HoldsLayers t.heap (Keyed.get? g name)
        ((loads.filter (·.global)).map (·.name)).eraseDups ∧
      ∀ k, Keyed.get? g name = some (.bundle k) →
        Keyed.get? t.context.top name ≠ some (.bundle k)) := by
  intro name loads
  have hroot := FieldPath.root?_ofText hplain hne
  have hstart : Labeled m name s.context.locale s none none [] [] := by
    obtain ⟨htop, hown⟩ := Context.get?_eq_none hfree
    exact ⟨rfl, htop, hfree, rfl, hown, rfl, nofun⟩
  obtain ⟨hbundles, hglobal, top, own, ht⟩ := PropertyMap.labeled_completes henv
    (fun a ha => hmaps a ha ▸ hroot) hlocale hstart (run_eq_ok_iff.mp h)
  refine ⟨?_, ?_, ?_⟩
  · rw [ht.topSlot]
    exact ht.topHolds.holdsLayers
  · intro key hkey hkne hend
    have hpair := FieldPath.root?_ofText_pair hplain hne hkey hkne hend
    have hloads : loads.findSome? (fun l => (m.named s.context.locale l.name).get? key) =
        loads.findSome? fun l =>
          (m.bundle l.resource s.context.locale).toOption.bind (·.get? key) := by
      rw [← List.head?_filterMap, ← List.head?_filterMap]
      refine congrArg List.head? (List.filterMap_congr fun l hl => ?_)
      rw [hbundles l hl]
      rfl
    rw [ht.topHolds.getValue? hpair ht.visible, ← hloads, List.nil_append, List.findSome?_map]
    rfl
  · intro hsome
    obtain ⟨g, hg⟩ := Option.isSome_iff_exists.mp (hglobal ▸ hsome)
    refine ⟨g, hg, ?_, ?_⟩
    · have hloads : PropertyMap.globalLoads s loads = loads.filter (·.global) := by
        simp [PropertyMap.globalLoads, hsome]
      rw [ht.ownSlot g hg, ← hloads]
      exact ht.ownHolds.holdsLayers
    · intro k hk
      rw [ht.ownSlot g hg] at hk
      rw [ht.topSlot]
      obtain ⟨k', hk', hbundle⟩ := Option.map_eq_some_iff.mp hk
      obtain rfl := Value.bundle.inj hbundle
      simpa using ht.apart k' hk'

/-- Loads a resource into the labels, and into those of the global map if the flag is `true`. -/
def labelsOf (resource flag : String) : PropertyMap :=
  ⟨⟨resource, [.text resource]⟩, .ofText "labels", ⟨flag, [.text flag]⟩⟩

theorem run_layers_resources_loaded_twice :
    let m : MemorySource :=
      [("App", [("", [("title", "Orders")])]),
        ("Shop", [("", [("cart", "Cart"), ("title", "Shop")])])]
    let env : ActionEnv Unit := { properties := some (m.source Unit) }
    let maps : List PropertyMap :=
      [labelsOf "App" "", labelsOf "Shop.properties" "true", labelsOf "App.properties" "true",
        labelsOf "Shop" ""]
    let before : RunState Unit :=
      ⟨⟨[("user", .text "Ann")], [[]], some []⟩, [], none, none, ()⟩
    let after := (outcome (run env (maps.map .propertyMap)) before).2
    outcome (run env (maps.map .propertyMap)) before = (.ok (), after) ∧
      before.context.get? "labels" = none ∧
      HoldsLayers after.heap (Keyed.get? after.context.top "labels") ["App", "Shop"] ∧
      (FieldPath.ofText "labels.title").getValue? after.heap after.context =
        some (.text "Orders") ∧
      ∃ g, after.context.global = some g ∧
        HoldsLayers after.heap (Keyed.get? g "labels") ["Shop", "App"] ∧
        ∀ k, Keyed.get? g "labels" = some (.bundle k) →
          Keyed.get? after.context.top "labels" ≠ some (.bundle k) := by
  intro m env maps before after
  have hrun : outcome (run env (maps.map .propertyMap)) before = (.ok (), after) :=
    outcome_eq_of_isOk (by decide +kernel)
  have hname : Text.trimText "labels" = "labels" := by decide +kernel
  have hmaps : ∀ a ∈ maps, a.mapName = FieldPath.ofText "labels" := by simp [maps, labelsOf]
  have hfree : before.context.get? (Text.trimText "labels") = none := by
    rw [hname]
    rfl
  have hnames : ((PropertyMap.loads env maps before).map (·.name)).eraseDups = ["App", "Shop"] := by
    decide +kernel
  have hownNames : (((PropertyMap.loads env maps before).filter (·.global)).map
      (·.name)).eraseDups = ["Shop", "App"] := by decide +kernel
  have hmessage : ((PropertyMap.loads env maps before).findSome? fun l =>
      (m.bundle l.resource before.context.locale).toOption.bind (·.get? "title")) =
        some "Orders" := by decide +kernel
  obtain ⟨hlayers, hread, hglobal⟩ := run_layers_resources (m := m) rfl (by decide +kernel)
    (by decide +kernel) (by decide +kernel) hmaps hfree hrun
  have hlast : "title".toList.getLast? = some 'e' := by decide +kernel
  have hend : ∀ c ∈ "title".toList.getLast?, Text.isBlank c = false := by
    rw [hlast]
    rintro c ⟨⟩
    rfl
  have htitle := hread "title" (by decide +kernel) (by decide) hend
  obtain ⟨g, hg, howned, hapart⟩ := hglobal rfl
  rw [hname] at hlayers howned hapart
  rw [hname, hmessage] at htitle
  rw [hnames] at hlayers
  rw [hownNames] at howned
  exact ⟨hrun, rfl, hlayers, htitle, g, hg, howned, hapart⟩

/-- A blank at the end of a key is not part of the path, so the message of such a key is not
read. -/
theorem run_misses_key_ending_in_blank :
    let m : MemorySource := [("App", [("", [("title ", "Orders")])])]
    let env : ActionEnv Unit := { properties := some (m.source Unit) }
    let maps : List PropertyMap := [labelsOf "App" ""]
    let before : RunState Unit := ⟨{}, [], none, none, ()⟩
    let after := (outcome (run env (maps.map .propertyMap)) before).2
    outcome (run env (maps.map .propertyMap)) before = (.ok (), after) ∧
      before.context.get? "labels" = none ∧ FieldPath.Plain "title ".toList ∧
      ((PropertyMap.loads env maps before).findSome? fun l =>
        (m.bundle l.resource before.context.locale).toOption.bind (·.get? "title ")) =
          some "Orders" ∧
      (FieldPath.ofText ("labels" ++ "." ++ "title ")).getValue? after.heap after.context =
        none := by
  intro m env maps before after
  have hrun : outcome (run env (maps.map .propertyMap)) before = (.ok (), after) :=
    outcome_eq_of_isOk (by decide +kernel)
  have hmissed : ((FieldPath.ofText ("labels" ++ "." ++ "title ")).getValue? after.heap
      after.context).isNone = true := by decide +kernel
  exact ⟨hrun, rfl, by decide +kernel, by decide +kernel, Option.isNone_iff_eq_none.mp hmissed⟩

end ActionList
end ScreenActions
