import ScreenActions.Proofs.FieldMapping
import ScreenActions.Proofs.ServiceRun

/-!
The input of a service that is registered. The last field map with a name gives its value, before
what a declared parameter takes by itself from the visible fields, from the `parameters` map or from
a map that is named.
-/

namespace ScreenActions

open Step

theorem ServiceRegistry.get?_project (names : List String) (m : ValueMap) (name : String) :
    Keyed.get? (project names m) name = if name ∈ names then Keyed.get? m name else none :=
  Keyed.get?_ofEntries_filterMap names (Keyed.get? m) name

namespace ServiceCall

/-- What a parameter takes by itself, for an `auto-field-map` that expands to a text: the visible
field, or else the entry of the `parameters` map; or the entry of the map that is named. -/
inductive AutoValue (mode : String) (c : Context) (name : String) : Value → Prop
  | visible {v : Value} (all : mode = "true") (found : c.get? name = some v) :
      AutoValue mode c name v
  | parameter {v : Value} (all : mode = "true") (hidden : c.get? name = none)
      (found : c.parameter? name = some v) : AutoValue mode c name v
  | member {v : Value} {m : ValueMap} (named : mode ∉ ["", "false", "true"])
      (map : (FieldPath.ofText mode).get? c = some (.map m))
      (found : Keyed.get? m name = some v) : AutoValue mode c name v

variable {ω : Type} {mode name : String} {c : Context} {v : Value}

theorem get?_inputSource_true :
    (inputSource "true" c).bind (Keyed.get? · name) = (c.get? name).or (c.parameter? name) := by
  simp only [inputSource, if_true, Option.bind_some, Keyed.get?_extend, Context.get?_flatten,
    Context.get?_parameters]

theorem inputSource_of_not_true (h : mode ≠ "true") :
    inputSource mode c = if mode ∈ ["", "false"] then none
      else ((FieldPath.ofText mode).get? c).bind Value.map? := by
  simp [inputSource, h]

/-- The map that the input is taken from has the values that a parameter takes by itself. -/
theorem get?_inputSource_iff :
    (inputSource mode c).bind (Keyed.get? · name) = some v ↔ AutoValue mode c name v := by
  constructor
  · intro h
    by_cases htrue : mode = "true"
    · subst htrue
      rw [get?_inputSource_true] at h
      cases hfound : c.get? name with
      | some w =>
        rw [hfound] at h
        exact .visible rfl (hfound.trans h)
      | none =>
        rw [hfound] at h
        exact .parameter rfl hfound h
    · rw [inputSource_of_not_true htrue] at h
      split at h
      · cases h
      · next hnamed =>
        obtain ⟨m, hm, hfound⟩ := Option.bind_eq_some_iff.mp h
        obtain ⟨source, hsource, hmap⟩ := Option.bind_eq_some_iff.mp hm
        cases source with
        | map entries =>
          obtain rfl := Option.some.inj hmap
          exact .member (by simp_all) hsource hfound
        | _ => cases hmap
  · rintro (⟨rfl, found⟩ | ⟨rfl, hidden, found⟩ | ⟨named, map, found⟩)
    · rw [get?_inputSource_true, found]
      rfl
    · rw [get?_inputSource_true, hidden, found]
      rfl
    · have hmode : mode ≠ "true" ∧ mode ∉ ["", "false"] := by simp_all
      rw [inputSource_of_not_true hmode.1, if_neg hmode.2, map]
      exact found

/-- What the declared parameters take by themselves. -/
def autoInput (parameters : List String) (mode : String) (c : Context) : ValueMap :=
  ((inputSource mode c).map (ServiceRegistry.project parameters)).getD []

theorem ordered_autoInput (parameters : List String) (mode : String) (c : Context) :
    Keyed.Ordered (autoInput parameters mode c) := by
  unfold autoInput
  cases inputSource mode c with
  | none => exact List.Pairwise.nil
  | some m => exact Keyed.ordered_ofEntries _

theorem get?_autoInput_iff {parameters : List String} :
    Keyed.get? (autoInput parameters mode c) name = some v ↔
      name ∈ parameters ∧ AutoValue mode c name v := by
  rw [← get?_inputSource_iff, autoInput]
  cases inputSource mode c with
  | none => simp [Keyed.get?]
  | some m => simp [ServiceRegistry.get?_project]

theorem outcome_validInput {r : ServiceRegistry ω} {service : String} {svc : Service ω}
    (h : Keyed.get? r service = some svc) (mode : String) (c : Context) (s : RunState (Traced ω)) :
    outcome (validInput (Traced.dispatcher r.dispatcher) service (inputSource mode c)) s =
      (.ok (autoInput svc.parameters mode c), s) := by
  unfold autoInput
  cases inputSource mode c with
  | none => rfl
  | some m =>
    simp only [validInput, outcome_call, Traced.dispatcher, Traced.passed,
      ServiceRegistry.dispatcher, h]
    rfl

variable {e : Element} {a : ServiceCall}

theorem of_ofElement_eq_ok (h : ofElement e = .ok a) :
    a.serviceName = Template.ofText (e.attr "service-name") ∧
      a.autoFieldMap = Template.ofText (e.attr "auto-field-map") ∧
      FieldMap.ofChildren e = .ok a.fieldMaps := by
  obtain ⟨name, hname, h⟩ := exists_of_bind_eq_ok h
  obtain ⟨maps, hmaps, h⟩ := exists_of_bind_eq_ok h
  cases Element.eq_attr_of_requireAttr hname
  cases h
  exact ⟨rfl, rfl, hmaps⟩

/-- For a registered service the input is put together without a failure and without a trace. -/
theorem outcome_inputOn {r : ServiceRegistry ω} {svc : Service ω} {s : RunState (Traced ω)}
    (ha : ofElement e = .ok a)
    (hnames : ∀ m ∈ e.childrenNamed "field-map", FieldPath.PlainName (m.attr "field-name"))
    (hsvc : Keyed.get? r (a.serviceOn s) = some svc) :
    let mode := a.autoFieldMap.expandText s.heap s.context
    ∃ input, outcome (a.inputOn (Traced.dispatcher r.dispatcher) s) s = (.ok input, s) ∧
      Keyed.Ordered input ∧ ∀ name v, Keyed.get? input name = some v ↔
        e.FieldValue s.heap s.context
          (fun name v => name ∈ svc.parameters ∧ AutoValue mode s.context name v) name v := by
  intro mode
  obtain ⟨-, -, hmaps⟩ := of_ofElement_eq_ok ha
  obtain ⟨input, hexpand, hordered, hget⟩ := FieldMap.expandAll_iff_fieldValue hmaps hnames s.heap
    s.context (ordered_autoInput svc.parameters mode s.context)
    fun _ _ => get?_autoInput_iff
  refine ⟨input, ?_, hordered, hget⟩
  have hvalid := outcome_validInput hsvc mode s.context s
  rw [inputOn, outcome_bind_of_ok (mapError_eq_ok.mpr hvalid)]
  simp only [hexpand]
  rfl

/-- An action that names a registered service runs it once. In the input each name has the value of
the last field map with that name, or else, for a declared parameter, what it takes by itself from
the visible fields, the `parameters` map or the map that is named; no other name is in the input. -/
theorem calls_eq_and_get?_input_iff {env : ActionEnv ω} {r : ServiceRegistry ω} {svc : Service ω}
    {s : RunState ω} {service mode : String} (ha : ofElement e = .ok a)
    (hnames : ∀ m ∈ e.childrenNamed "field-map", FieldPath.PlainName (m.attr "field-name"))
    (henv : env.dispatcher = some r.dispatcher)
    (hservice : (Template.ofText (e.attr "service-name")).expandText s.heap s.context = service)
    (hne : service ≠ "") (hsvc : Keyed.get? r service = some svc)
    (hmode : (Template.ofText (e.attr "auto-field-map")).expandText s.heap s.context = mode) :
    ∃ input, a.calls env s =
        [.service service input ((svc.handler input s.world).1.mapError (.failed service))] ∧
      Keyed.Ordered input ∧ ∀ name v, Keyed.get? input name = some v ↔
        e.FieldValue s.heap s.context
          (fun name v => name ∈ svc.parameters ∧ AutoValue mode s.context name v) name v := by
  obtain ⟨hname, hauto, -⟩ := of_ofElement_eq_ok ha
  have hon : a.serviceOn s.untraced = service := by
    rw [← hservice, ← hname]
    rfl
  obtain ⟨input, hinput, hordered, hget⟩ := outcome_inputOn ha hnames (s := s.untraced)
    (hon.symm ▸ hsvc)
  have hdispatcher : (Traced.env env).dispatcher = some (Traced.dispatcher r.dispatcher) := by
    simp [Traced.env, henv]
  have hanswer : (r.dispatcher.run service input s.world).1 =
      (svc.handler input s.world).1.mapError (.failed service) := by
    simp [ServiceRegistry.dispatcher, hsvc]
  refine ⟨input, ?_, hordered, ?_⟩
  · have hask := calls_ask a r.dispatcher service input s.untraced
    rw [calls, callsOf, outcome_run, hdispatcher, hon, if_neg hne]
    dsimp only
    rw [outcome_bind_of_ok hinput, hask, ← hanswer]
    rfl
  · rw [hauto] at hget
    exact hmode ▸ hget

theorem get?_input_of_shadowed_parameter :
    let e : Element := ⟨"service", [("auto-field-map", "true"), ("service-name", "holdOrder")],
      [⟨"field-map", [("field-name", "status"), ("from-field", "orderId")], []⟩,
        ⟨"field-map", [("field-name", "status"), ("from-field", "order.next")], []⟩,
        ⟨"field-map", [("field-name", "reason")], []⟩]⟩
    let svc : Service Nat :=
      ⟨"holdOrder", ["orderId", "partyId", "status"], fun input n => (.ok input, n + 1)⟩
    let r : ServiceRegistry Nat := ServiceRegistry.register [] svc
    let env : ActionEnv Nat := { dispatcher := some r.dispatcher }
    let c : Context :=
      { top := [("orderId", .null)]
        below := [[("order", .map [("next", .text "held")]),
          ("parameters", .map [("orderId", .text "WS10000"), ("partyId", .text "admin")])]] }
    let s : RunState Nat := ⟨c, [], none, none, 0⟩
    ∃ a input, ofElement e = .ok a ∧
      (∀ m ∈ e.childrenNamed "field-map", FieldPath.PlainName (m.attr "field-name")) ∧
      Keyed.get? r "holdOrder" = some svc ∧
      a.calls env s = [.service "holdOrder" input (.ok input)] ∧
      Keyed.get? input "orderId" = some .null ∧
      Keyed.get? input "partyId" = some (.text "admin") ∧
      Keyed.get? input "status" = some (.text "held") ∧
      Keyed.get? input "reason" = some .null := by
  intro e svc r env c s
  obtain ⟨a, ha⟩ : ∃ a, ofElement e = .ok a := ⟨_, rfl⟩
  have hnames : ∀ m ∈ e.childrenNamed "field-map", FieldPath.PlainName (m.attr "field-name") := by
    decide
  have henv : env.dispatcher = some r.dispatcher := rfl
  have hservice : (Template.ofText (e.attr "service-name")).expandText s.heap s.context =
      "holdOrder" := by
    decide +kernel
  have hmode : (Template.ofText (e.attr "auto-field-map")).expandText s.heap s.context =
      "true" := by
    decide +kernel
  have hsvc : Keyed.get? r "holdOrder" = some svc := rfl
  obtain ⟨input, hcalls, -, hget⟩ :=
    calls_eq_and_get?_input_iff ha hnames henv hservice (by decide) hsvc hmode
  have hstatus := (hget "status" _).mpr (.mapped rfl)
  have hreason := (hget "reason" _).mpr (.mapped rfl)
  exact ⟨a, input, ha, hnames, hsvc, hcalls,
    (hget _ _).mpr (.byItself rfl ⟨by decide, .visible rfl rfl⟩),
    (hget _ _).mpr (.byItself rfl ⟨by decide, .parameter rfl rfl rfl⟩), hstatus, hreason⟩

end ServiceCall
end ScreenActions
