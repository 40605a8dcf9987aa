import ScreenActions.Proofs.CallTrace
import ScreenActions.Proofs.FieldMapping
import ScreenActions.Proofs.PathLens
import ScreenActions.Proofs.TemplateExpansion

/-!
Finding an entity by its primary key. The last field map with a name gives the value of a key field,
before what the field takes by itself from the visible fields and the `parameters` map; what is
found, or null, stands under the value name.
-/

namespace ScreenActions

open Step

namespace Entity

variable {r : Entity} {names : List String} {name : String} {v : Value}

theorem get?_select_iff : Keyed.get? (r.select names).fields name = some v ↔
    Keyed.get? r.fields name = some v ∧ (names = [] ∨ name ∈ names) := by
  unfold select
  cases names with
  | nil => simp
  | cons n names =>
    have hfilter := Keyed.get?_filter r.fields (n :: names).contains name
    simp only [List.isEmpty_cons, Bool.false_eq_true, if_false, hfilter, List.contains_iff_mem]
    split <;> simp_all

theorem name_select (r : Entity) (names : List String) : (r.select names).name = r.name := by
  unfold select
  split <;> rfl

theorem ordered_select (h : Keyed.Ordered r.fields) (names : List String) :
    Keyed.Ordered (r.select names).fields := by
  unfold select
  split
  · exact h
  · exact List.Pairwise.filter _ h

end Entity

theorem childFieldNames_eq_ok {e : Element} {tag : String} {names : List String}
    (h : childFieldNames e tag = .ok names) :
    names = (e.childrenNamed tag).map (·.attr "field-name") := by
  unfold childFieldNames at h
  rw [mapM_eq_ok_iff] at h
  generalize e.childrenNamed tag = children at h ⊢
  induction h with
  | nil => rfl
  | @cons m name _ _ hname _ ih =>
    rw [List.map_cons, ← ih, Element.eq_attr_of_requireAttr hname]

namespace EntityOne

/-- What a key field takes by itself: the visible value unless that is null, or else the parameter
unless that is null. -/
inductive AutoValue (c : Context) (name : String) : Value → Prop
  | visible {v : Value} (found : c.get? name = some v) (nonnull : v.isNull = false) :
      AutoValue c name v
  | parameter {v : Value} (hidden : (c.get? name).all Value.isNull = true)
      (found : c.parameter? name = some v) (nonnull : v.isNull = false) : AutoValue c name v

variable {ω : Type} {c : Context} {fields : List String} {name : String} {v : Value}

theorem filter_nonnull_of_hidden {o : Option Value} (h : o.all Value.isNull = true) :
    o.filter (!·.isNull) = none := by
  cases o with
  | none => rfl
  | some w => simpa using h

theorem autoValue?_eq_some_iff : autoValue? c name = some v ↔ AutoValue c name v := by
  unfold autoValue?
  simp only [Context.get?_parameters, Option.filter_eq_some_iff]
  constructor
  · rintro ⟨h, hv⟩
    have nonnull : v.isNull = false := by simpa using hv
    by_cases hidden : (c.get? name).all Value.isNull = true
    · rw [filter_nonnull_of_hidden hidden] at h
      exact .parameter hidden h nonnull
    · cases hfound : c.get? name with
      | none => exact absurd (by rw [hfound]; rfl) hidden
      | some w =>
        have hw : w.isNull = false := by simpa [hfound] using hidden
        obtain ⟨rfl, -⟩ : w = v ∧ v.isNull = false := by simpa [hfound, hw] using h
        exact .visible hfound nonnull
  · rintro (⟨found, nonnull⟩ | ⟨hidden, found, nonnull⟩)
    · simp [found, nonnull]
    · rw [filter_nonnull_of_hidden hidden]
      exact ⟨found, by simp [nonnull]⟩

theorem ordered_autoKey (c : Context) (fields : List String) : Keyed.Ordered (autoKey c fields) :=
  Keyed.ordered_ofEntries _

theorem get?_autoKey_iff :
    Keyed.get? (autoKey c fields) name = some v ↔ name ∈ fields ∧ AutoValue c name v := by
  rw [autoKey, Keyed.get?_ofEntries_filterMap, ← autoValue?_eq_some_iff]
  simp

/-- The name of the entity that is looked up on a state. -/
def entityOn (a : EntityOne) (s : RunState ω) : String := a.entityName.expandText s.heap s.context

/-- The fields of the primary key, if they are to take values by themselves. -/
def fieldsOn (a : EntityOne) (delegator : Delegator ω) (s : RunState ω) :
    Step ω FinderError (List String) :=
  if a.autoFieldMap then mapError .entity (call (delegator.primaryKey (a.entityOn s))) else pure []

/-- The key as it is put together on a state. -/
def keyOn (a : EntityOne) (delegator : Delegator ω) (s : RunState ω) :
    Step ω FinderError ValueMap := do
  let fields ← a.fieldsOn delegator s
  let (key, written) := FieldMap.expandAll a.fieldMaps s.heap s.context (autoKey s.context fields)
  ExceptT.mk (pure (written.mapError .path))
  return key

/-- What is kept of what was found. -/
def foundValue (a : EntityOne) (found : Option Entity) : Value :=
  match found with
  | some e => (e.select a.select).value
  | none => .null

/-- The key is put together, the entity is looked up and what was found is written. -/
theorem outcome_find (a : EntityOne) (delegator : Delegator ω) (s : RunState ω) :
    outcome (a.find delegator) s = outcome (do
      let key ← a.keyOn delegator s
      let found ← mapError .entity
        (call (delegator.findOne (a.entityOn s) key (a.useCache.isTrue s.heap s.context)))
      mapError .path (put a.valueName (a.foundValue found))) s := by
  unfold find keyOn fieldsOn
  rw [outcome_bind_of_ok (outcome_get s)]
  cases a.autoFieldMap <;>
    simp only [Bool.false_eq_true, if_false, if_true, bind_assoc, pure_bind] <;> rfl

section Trace

variable {e : Element} {a : EntityOne}

theorem traces_keyOn (a : EntityOne) (d : Delegator ω) (s : RunState (Traced ω)) :
    Traces (a.keyOn (Traced.delegator d) s) (a.keyOn d s.withoutTrace) := by
  refine .bind ?_ fun fields => .bind (.answer _) fun _ => .pure _
  unfold fieldsOn
  split
  · exact .mapError (.call_asked _ _) _
  · exact .pure _

theorem outcome_run (a : EntityOne) (env : ActionEnv ω) (s : RunState ω) :
    outcome (a.run env) s = match env.delegator with
      | none => (.error (.missingCollaborator delegatorName), s)
      | some d => outcome (mapError (.finder "primary key") (a.find d)) s := by
  unfold run
  cases env.delegator <;> rfl

/-- Finding by primary key runs the same when it is traced. -/
theorem traces_run (a : EntityOne) (env : ActionEnv ω) :
    Traces (a.run (Traced.env env)) (a.run env) := by
  intro s
  rw [outcome_run, outcome_run]
  unfold Traced.env
  cases env.delegator with
  | none => rfl
  | some d =>
    refine Traces.mapError (fun s => ?_) _ s
    rw [outcome_find, outcome_find]
    refine Traces.bind (a.traces_keyOn d s) (fun key => ?_) s
    exact .bind (.mapError (.call_asked _ _) _) fun found => .mapError (.put _ _) _

/-- The calls that finding by primary key makes on a state. -/
def calls (a : EntityOne) (env : ActionEnv ω) (s : RunState ω) : List ActionCall :=
  callsOf (a.run (Traced.env env)) s

theorem of_ofElement_eq_ok (h : ofElement e = .ok a) :
    a.entityName = Template.ofText (e.attr "entity-name") ∧
      a.valueName = FieldPath.ofText (e.attr "value-name") ∧
      (a.autoFieldMap = false ↔ e.attr "auto-field-map" = "false") ∧
      FieldMap.ofChildren e = .ok a.fieldMaps ∧
      a.select = (e.childrenNamed "select-field").map (·.attr "field-name") := by
  obtain ⟨entityName, hentity, h⟩ := exists_of_bind_eq_ok h
  obtain ⟨valueName, hvalue, h⟩ := exists_of_bind_eq_ok h
  obtain ⟨auto, hauto, h⟩ := exists_of_bind_eq_ok h
  obtain ⟨maps, hmaps, h⟩ := exists_of_bind_eq_ok h
  obtain ⟨select, hselect, h⟩ := exists_of_bind_eq_ok h
  cases Element.eq_attr_of_requireAttr hentity
  cases Element.eq_attr_of_requireAttr hvalue
  cases h
  refine ⟨rfl, rfl, ?_, hmaps, childFieldNames_eq_ok hselect⟩
  unfold Element.boolAttr at hauto
  by_cases hempty : e.attr "auto-field-map" = ""
  · simp_all
  · by_cases htrue : e.attr "auto-field-map" = "true"
    · simp_all
    · by_cases hfalse : e.attr "auto-field-map" = "false" <;> simp_all

/-- The calls that the fields of a key are asked for with. -/
def keyCalls (a : EntityOne) (entity : String) (fields : List String) : List ActionCall :=
  if a.autoFieldMap then [.primaryKey entity (.ok fields)] else []

/-- A key with the values of field maps, and under the fields given what they take by themselves. -/
def KeyOf (e : Element) (s : RunState ω) (fields : List String) (key : ValueMap) : Prop :=
  Keyed.Ordered key ∧ ∀ name v, Keyed.get? key name = some v ↔
    e.FieldValue s.heap s.context
      (fun name v => name ∈ fields ∧ AutoValue s.context name v) name v

theorem outcome_fieldsOn (hauto : a.autoFieldMap = true) (d : Delegator ω)
    (s : RunState (Traced ω)) :
    outcome (a.fieldsOn (Traced.delegator d) s) s =
      ((d.primaryKey (a.entityOn s) s.world.world).1.mapError .entity,
        { s with world := ⟨s.world.calls ++
            [.primaryKey (a.entityOn s) (d.primaryKey (a.entityOn s) s.world.world).1],
          (d.primaryKey (a.entityOn s) s.world.world).2⟩ }) := by
  rw [fieldsOn, if_pos hauto, outcome_mapError, outcome_call]
  rfl

theorem outcome_keyOn_of_fields {d : Delegator ω} {s t : RunState ω} {key : ValueMap}
    (hfields : outcome (a.fieldsOn d s) s = (.ok fields, t))
    (hkey : FieldMap.expandAll a.fieldMaps s.heap s.context (autoKey s.context fields) =
      (key, .ok ())) : outcome (a.keyOn d s) s = (.ok key, t) := by
  rw [keyOn, outcome_bind_of_ok hfields]
  simp only [hkey]
  rfl

/-- Either the delegator refuses the fields of the key, or there is a key. -/
theorem keyOn_cases {d : Delegator ω} {s : RunState (Traced ω)}
    (hmaps : FieldMap.ofChildren e = .ok a.fieldMaps)
    (hnames : ∀ m ∈ e.childrenNamed "field-map", FieldPath.PlainName (m.attr "field-name")) :
    (∃ err t, outcome (a.keyOn (Traced.delegator d) s) s = (.error (.entity err), t) ∧
      t.world.calls = s.world.calls ++ [.primaryKey (a.entityOn s) (.error err)]) ∨
    ∃ fields key w, outcome (a.keyOn (Traced.delegator d) s) s =
        (.ok key, { s with world := ⟨s.world.calls ++ a.keyCalls (a.entityOn s) fields, w⟩ }) ∧
      (a.autoFieldMap = false → fields = []) ∧ KeyOf e s fields key := by
  have hkey : ∀ fields, ∃ key, FieldMap.expandAll a.fieldMaps s.heap s.context
      (autoKey s.context fields) = (key, .ok ()) ∧ KeyOf e s fields key := fun fields =>
    FieldMap.expandAll_iff_fieldValue hmaps hnames s.heap s.context
      (ordered_autoKey s.context fields) fun _ _ => get?_autoKey_iff
  cases hauto : a.autoFieldMap with
  | false =>
    obtain ⟨key, hexpand, hof⟩ := hkey []
    have hfields : outcome (a.fieldsOn (Traced.delegator d) s) s = (.ok [], s) := by
      rw [fieldsOn, hauto]
      rfl
    refine .inr ⟨[], key, s.world.world, ?_, fun _ => rfl, hof⟩
    rw [outcome_keyOn_of_fields hfields hexpand, keyCalls, hauto]
    simp
  | true =>
    have hfields := outcome_fieldsOn hauto d s
    generalize d.primaryKey (a.entityOn s) s.world.world = asked at hfields
    obtain ⟨answer, w⟩ := asked
    cases answer with
    | error err =>
      exact .inl ⟨err, _, by rw [keyOn, outcome_bind_of_error hfields], rfl⟩
    | ok fields =>
      obtain ⟨key, hexpand, hof⟩ := hkey fields
      refine .inr ⟨fields, key, w, ?_, nofun, hof⟩
      rw [outcome_keyOn_of_fields hfields hexpand, keyCalls, hauto]
      rfl

/-- Looking an entity up and writing what was found leaves one call in the trace. -/
theorem exists_answer_of_lookup {d : Delegator ω} {entity : String} {key : ValueMap}
    {useCache : Bool} {s t : RunState (Traced ω)} {answer : Except FinderError Unit}
    (h : outcome (mapError .entity (call ((Traced.delegator d).findOne entity key useCache)) >>=
      fun found => mapError .path (put a.valueName (a.foundValue found))) s = (answer, t)) :
    ∃ found, t.world.calls = s.world.calls ++ [.findOne entity key useCache found] ∧
      (answer = .ok () → ∃ r, found = .ok r ∧
        a.valueName.put s.context (a.foundValue r) = (t.context, .ok ())) := by
  have hfind : (Traced.delegator d).findOne entity key useCache s.world =
      ((d.findOne entity key useCache s.world.world).1, ⟨s.world.calls ++
        [.findOne entity key useCache (d.findOne entity key useCache s.world.world).1],
        (d.findOne entity key useCache s.world.world).2⟩) := rfl
  rw [outcome_bind, outcome_mapError, outcome_call, hfind] at h
  generalize d.findOne entity key useCache s.world.world = asked at h
  obtain ⟨found, w⟩ := asked
  refine ⟨found, ?_⟩
  cases found with
  | error err =>
    cases h
    exact ⟨rfl, nofun⟩
  | ok r =>
    simp only [mapError_ok, outcome_mapError, outcome_put] at h
    obtain ⟨rfl, rfl⟩ := Prod.mk.inj h
    exact ⟨rfl, fun hok => ⟨r, rfl, Prod.ext rfl (eq_ok_of_mapError hok)⟩⟩

/-- Finding by primary key ends where the delegator refuses the fields of the key, or an entity is
looked up with a key and what was found is written. -/
theorem find_cases {d : Delegator ω} {s t : RunState (Traced ω)} {answer : Except FinderError Unit}
    (hmaps : FieldMap.ofChildren e = .ok a.fieldMaps)
    (hnames : ∀ m ∈ e.childrenNamed "field-map", FieldPath.PlainName (m.attr "field-name"))
    (h : outcome (a.find (Traced.delegator d)) s = (answer, t)) :
    (∃ err err', answer = .error err ∧
      t.world.calls = s.world.calls ++ [.primaryKey (a.entityOn s) (.error err')]) ∨
    ∃ fields key found, (a.autoFieldMap = false → fields = []) ∧ KeyOf e s fields key ∧
      t.world.calls = s.world.calls ++ a.keyCalls (a.entityOn s) fields ++
        [.findOne (a.entityOn s) key (a.useCache.isTrue s.heap s.context) found] ∧
      (answer = .ok () → ∃ r, found = .ok r ∧
        a.valueName.put s.context (a.foundValue r) = (t.context, .ok ())) := by
  rw [outcome_find] at h
  rcases keyOn_cases (d := d) (s := s) hmaps hnames with
    ⟨err, u, hkey, hcalls⟩ | ⟨fields, key, w, hkey, hauto, hof⟩
  · rw [outcome_bind_of_error hkey] at h
    cases h
    exact .inl ⟨_, err, rfl, hcalls⟩
  · rw [outcome_bind_of_ok hkey] at h
    obtain ⟨found, hcalls, hput⟩ := exists_answer_of_lookup h
    exact .inr ⟨fields, key, found, hauto, hof, hcalls, hput⟩

/-- The value for what was found: null for nothing, and an entity with all its fields, or only with
those that children of the element select. -/
inductive FoundAs (e : Element) : Option Entity → Value → Prop
  | nothing : FoundAs e none .null
  | entity {r : Entity} {fields : ValueMap} (order : Keyed.Ordered r.fields → Keyed.Ordered fields)
      (selected : ∀ name v, Keyed.get? fields name = some v ↔
        Keyed.get? r.fields name = some v ∧ (e.childrenNamed "select-field" = [] ∨
          ∃ m ∈ e.childrenNamed "select-field", m.attr "field-name" = name)) :
      FoundAs e (some r) (.entity r.name fields)

theorem foundAs_foundValue
    (hselect : a.select = (e.childrenNamed "select-field").map (·.attr "field-name"))
    (found : Option Entity) : FoundAs e found (a.foundValue found) := by
  cases found with
  | none => exact .nothing
  | some r =>
    have hvalue : a.foundValue (some r) = .entity r.name (r.select a.select).fields := by
      rw [← r.name_select a.select]
      rfl
    rw [hvalue]
    refine .entity (fun h => r.ordered_select h a.select) fun name v => ?_
    rw [Entity.get?_select_iff, hselect, List.map_eq_nil_iff, List.mem_map]

theorem calls_eq {env : ActionEnv ω} {d : Delegator ω} (henv : env.delegator = some d)
    (s : RunState ω) :
    a.calls env s = (outcome (a.find (Traced.delegator d)) s.untraced).2.world.calls := by
  have hdelegator : (Traced.env env).delegator = some (Traced.delegator d) := by
    simp [Traced.env, henv]
  rw [calls, callsOf, outcome_run, hdelegator]
  rfl

theorem calls_eq_nil {env : ActionEnv ω} (henv : env.delegator = none) (s : RunState ω) :
    a.calls env s = [] := by
  have hdelegator : (Traced.env env).delegator = none := by simp [Traced.env, henv]
  rw [calls, callsOf, outcome_run, hdelegator]
  rfl

theorem exists_find_of_run {env : ActionEnv ω} {d : Delegator ω} (henv : env.delegator = some d)
    {s t : RunState ω} (h : outcome (a.run env) s = (.ok (), t)) :
    ∃ u, outcome (a.find (Traced.delegator d)) s.untraced = (.ok (), u) ∧
      u.context = t.context := by
  obtain ⟨u, hu, rfl, -⟩ := (a.traces_run env).exists_outcome h
  have hdelegator : (Traced.env env).delegator = some (Traced.delegator d) := by
    simp [Traced.env, henv]
  rw [outcome_run, hdelegator] at hu
  exact ⟨u, mapError_eq_ok.mp hu, rfl⟩

/-- A run fails before any entity is looked up, or an entity is looked up with a key and what was
found is written. -/
theorem run_cases (hmaps : FieldMap.ofChildren e = .ok a.fieldMaps)
    (hnames : ∀ m ∈ e.childrenNamed "field-map", FieldPath.PlainName (m.attr "field-name"))
    (env : ActionEnv ω) (s : RunState ω) :
    ((∀ call ∈ a.calls env s, ∃ entity err, call = .primaryKey entity (.error err)) ∧
      ∀ t, outcome (a.run env) s ≠ (.ok (), t)) ∨
    ∃ fields key found, (a.autoFieldMap = false → fields = []) ∧ KeyOf e s fields key ∧
      a.calls env s = a.keyCalls (a.entityOn s) fields ++
        [.findOne (a.entityOn s) key (a.useCache.isTrue s.heap s.context) found] ∧
      ∀ t, outcome (a.run env) s = (.ok (), t) → ∃ r, found = .ok r ∧
        a.valueName.put s.context (a.foundValue r) = (t.context, .ok ()) := by
  cases hd : env.delegator with
  | none =>
    refine .inl ⟨by rw [calls_eq_nil hd]; nofun, fun t hrun => ?_⟩
    rw [outcome_run, hd] at hrun
    cases hrun
  | some d =>
    have hcalls := calls_eq (a := a) hd s
    rcases hfind : outcome (a.find (Traced.delegator d)) s.untraced with ⟨answer, u⟩
    rw [hfind] at hcalls
    rcases find_cases hmaps hnames hfind with
      ⟨err, err', rfl, hu⟩ | ⟨fields, key, found, hfields, hkey, hu, hput⟩
    · refine .inl ⟨fun call hcall => ?_, fun t hrun => ?_⟩
      · rw [hcalls, hu] at hcall
        exact ⟨_, err', List.mem_singleton.mp hcall⟩
      · obtain ⟨u', hfind', -⟩ := exists_find_of_run hd hrun
        rw [hfind] at hfind'
        cases hfind'
    · refine .inr ⟨fields, key, found, hfields, hkey, hcalls.trans hu, fun t hrun => ?_⟩
      obtain ⟨u', hfind', hcontext⟩ := exists_find_of_run hd hrun
      obtain ⟨rfl, rfl⟩ := Prod.mk.inj (hfind.symm.trans hfind')
      exact hcontext ▸ hput rfl

theorem eq_of_findOne_mem {entity entity' : String} {fields : List String} {key : ValueMap}
    {useCache : Bool} {answer : Except EntityError (Option Entity)} {lookup : ActionCall}
    (h : .findOne entity' key useCache answer ∈ a.keyCalls entity fields ++ [lookup]) :
    .findOne entity' key useCache answer = lookup := by
  rcases List.mem_append.mp h with h | h
  · unfold keyCalls at h
    split at h
    · cases List.mem_singleton.mp h
    · cases h
  · exact List.mem_singleton.mp h

/-- An entity is looked up with a key in which each name has the value of the last field map with
that name, or else, for a field of the primary key, the visible value or the parameter that is not
null; no other name is in the key. If the action succeeds, its last call looked an entity up, and
what was found stands under the value name. -/
theorem findOne_key_and_found_value {env : ActionEnv ω} {s : RunState ω}
    (ha : ofElement e = .ok a)
    (hnames : ∀ m ∈ e.childrenNamed "field-map", FieldPath.PlainName (m.attr "field-name"))
    (happend : .append ∉ (FieldPath.ofText (e.attr "value-name")).segments) :
    (∀ entity key useCache answer, .findOne entity key useCache answer ∈ a.calls env s →
      entity = (Template.ofText (e.attr "entity-name")).expandText s.heap s.context ∧
      Keyed.Ordered key ∧ ∃ fields,
        (e.attr "auto-field-map" = "false" ∧ fields = [] ∨
          e.attr "auto-field-map" ≠ "false" ∧ .primaryKey entity (.ok fields) ∈ a.calls env s) ∧
        ∀ name v, Keyed.get? key name = some v ↔ e.FieldValue s.heap s.context
          (fun name v => name ∈ fields ∧ AutoValue s.context name v) name v) ∧
    ∀ t, outcome (a.run env) s = (.ok (), t) → ∃ entity key useCache found v,
      (a.calls env s).getLast? = some (.findOne entity key useCache (.ok found)) ∧
      (FieldPath.ofText (e.attr "value-name")).get? t.context = some v ∧ FoundAs e found v := by
  obtain ⟨hentity, hvalue, hauto, hmaps, hselect⟩ := of_ofElement_eq_ok ha
  rcases run_cases hmaps hnames env s with
    ⟨hcalls, hrun⟩ | ⟨fields, key, found, hfields, ⟨hordered, hkey⟩, hcalls, hrun⟩
  · refine ⟨fun entity key useCache answer hmem => ?_, fun t h => absurd h (hrun t)⟩
    obtain ⟨_, _, hcall⟩ := hcalls _ hmem
    cases hcall
  refine ⟨fun entity key' useCache answer hmem => ?_, fun t h => ?_⟩
  · rw [hcalls] at hmem
    obtain ⟨rfl, rfl, -, -⟩ := ActionCall.findOne.inj (eq_of_findOne_mem hmem)
    refine ⟨by rw [entityOn, hentity], hordered, fields, ?_, hkey⟩
    rw [ne_eq, ← hauto, hcalls, keyCalls]
    cases hon : a.autoFieldMap with
    | false => exact .inl ⟨rfl, hfields hon⟩
    | true => exact .inr ⟨nofun, by simp⟩
  · obtain ⟨r, rfl, hput⟩ := hrun t h
    refine ⟨a.entityOn s, key, a.useCache.isTrue s.heap s.context, r, a.foundValue r,
      by rw [hcalls, List.getLast?_concat], ?_, foundAs_foundValue hselect r⟩
    have hlens := (FieldPath.lensAt happend s.context).get_put (a.foundValue r)
    rw [← hvalue, hput] at hlens
    rw [← hvalue]
    exact (hlens rfl).1

/-- A delegator that has each item of an order, with a note besides its key. -/
def orderItems : Delegator Nat where
  primaryKey _ n := (.ok ["orderId", "seqId", "shopId"], n)
  findOne entity key _ n := (.ok (some ⟨entity, Keyed.insert "note" (.text "gift") key⟩), n + 1)
  findList _ n := (.ok [], n)
  relatedOne _ _ _ n := (.ok none, n)
  related _ _ _ _ _ n := (.ok [], n)

theorem item_found_by_shadowed_parameter :
    let e : Element := ⟨"entity-one", [("entity-name", "OrderItem"), ("value-name", "page.item")],
      [⟨"field-map", [("field-name", "seqId"), ("from-field", "orderId")], []⟩,
        ⟨"field-map", [("field-name", "seqId"), ("from-field", "line.seqId")], []⟩,
        ⟨"select-field", [("field-name", "note")], []⟩]⟩
    let env : ActionEnv Nat := { delegator := some orderItems }
    let c : Context :=
      { top := [("line", .map [("seqId", .text "00001")]), ("orderId", .null)]
        below := [[("parameters", .map [("orderId", .text "WS10000")])]] }
    let s : RunState Nat := ⟨c, [], none, none, 0⟩
    let key : ValueMap := [("orderId", .text "WS10000"), ("seqId", .text "00001")]
    let item : Entity := ⟨"OrderItem", Keyed.insert "note" (.text "gift") key⟩
    ∃ a t v, ofElement e = .ok a ∧
      (∀ m ∈ e.childrenNamed "field-map", FieldPath.PlainName (m.attr "field-name")) ∧
      .append ∉ (FieldPath.ofText (e.attr "value-name")).segments ∧
      a.calls env s = [.primaryKey "OrderItem" (.ok ["orderId", "seqId", "shopId"]),
        .findOne "OrderItem" key false (.ok (some item))] ∧
      (∀ name v, Keyed.get? key name = some v ↔ e.FieldValue s.heap c
        (fun name v => name ∈ ["orderId", "seqId", "shopId"] ∧ AutoValue c name v) name v) ∧
      outcome (a.run env) s = (.ok (), t) ∧
      (FieldPath.ofText "page.item").get? t.context = some v ∧ FoundAs e (some item) v := by
  intro e env c s key item
  let a : EntityOne := ⟨⟨"OrderItem", [.text "OrderItem"]⟩, FieldPath.ofText "page.item", ⟨"", []⟩,
    true, [⟨FieldPath.ofText "seqId", .field (FieldPath.ofText "orderId")⟩,
      ⟨FieldPath.ofText "seqId", .field (FieldPath.ofText "line.seqId")⟩], ["note"]⟩
  have ha : ofElement e = .ok a := by
    have hentity : Template.ofText "OrderItem" = ⟨"OrderItem", [.text "OrderItem"]⟩ :=
      Template.ofText_of_not_occursIn (by decide)
    have hcache : Template.ofText "" = ⟨"", []⟩ := Template.ofText_of_not_occursIn rfl
    simp only [a, ← hentity, ← hcache]
    rfl
  have hnames : ∀ m ∈ e.childrenNamed "field-map", FieldPath.PlainName (m.attr "field-name") := by
    decide
  have happend : .append ∉ (FieldPath.ofText (e.attr "value-name")).segments := by decide
  have hcalls : a.calls env s = [.primaryKey "OrderItem" (.ok ["orderId", "seqId", "shopId"]),
      .findOne "OrderItem" key false (.ok (some item))] := rfl
  have hrun : outcome (a.run env) s = (.ok (), (outcome (a.run env) s).2) := rfl
  obtain ⟨hkey, hfound⟩ := @findOne_key_and_found_value Nat e a env s ha hnames happend
  have hmem : .findOne "OrderItem" key false (.ok (some item)) ∈ a.calls env s := by simp [hcalls]
  obtain ⟨-, -, fields, hfields, hget⟩ := hkey _ key false _ hmem
  obtain rfl : fields = ["orderId", "seqId", "shopId"] := by
    rcases hfields with ⟨hfalse, -⟩ | ⟨-, hasked⟩
    · exact absurd hfalse (by decide)
    · simpa [hcalls] using hasked
  obtain ⟨_, _, _, found, v, hlast, hv, hfoundAs⟩ := hfound _ hrun
  obtain rfl : found = some item := by
    rw [hcalls] at hlast
    cases hlast
    rfl
  exact ⟨a, _, v, ha, hnames, happend, hcalls, hget, hrun, hv, hfoundAs⟩

end Trace

end EntityOne
end ScreenActions
