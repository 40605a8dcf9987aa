import ScreenActions.Proofs.ActionGrammar
import ScreenActions.Proofs.PathLens
import ScreenActions.Proofs.ServiceRun
import ScreenActions.Proofs.TemplateExpansion

/-!
The query string that service actions keep. It is always that of the last result, while the encoded
one is that of the last result with a query string to encode.
-/

namespace ScreenActions

open Step

/-- The results that a call has answered with. -/
def ActionCall.result? : ActionCall → Option ValueMap
  | .service _ _ (.ok result) => some result
  | _ => none

namespace ServiceCall

/-- The keys that a result with a query string is kept under besides its name. -/
def queryStringKeys : List String := [queryStringKey, queryStringMapKey, queryStringEncodedKey]

/-- The query string of a result that is to be encoded: a text that is not empty. -/
def queryText? (result : ValueMap) : Option String :=
  (Keyed.get? result queryStringKey).bind fun v => v.text?.filter (· ≠ "")

/-- The encoded query string, if it is visible, is that of the visible query string. -/
def QueryStringFresh (c : Context) : Prop :=
  ∀ v, c.get? queryStringEncodedKey = some v →
    ∃ t, c.get? queryStringKey = some (.text t) ∧ v = .text (encodeAmpersands t)

/-- The query string and its map are those of the last result; the encoded query string is that of
the last result with one to encode. -/
structure Promoted (results : List ValueMap) (c : Context) : Prop where
  queryString : c.get? queryStringKey =
    results.getLast?.map fun r => (Keyed.get? r queryStringKey).getD .null
  queryStringMap : c.get? queryStringMapKey =
    results.getLast?.map fun r => (Keyed.get? r queryStringMapKey).getD .null
  encoded : c.get? queryStringEncodedKey =
    (results.reverse.findSome? queryText?).map fun t => .text (encodeAmpersands t)

variable {ω : Type} {a : ServiceCall} {env : ActionEnv ω} {results : List ValueMap}
  {result : ValueMap} {c c' : Context}

theorem withQueryString_eq (result : ValueMap) (c : Context) :
    withQueryString result c =
      (((queryText? result).elim c fun t =>
        c.insert queryStringEncodedKey (.text (encodeAmpersands t))).insert queryStringKey
          ((Keyed.get? result queryStringKey).getD .null)).insert queryStringMapKey
            ((Keyed.get? result queryStringMapKey).getD .null) := by
  unfold withQueryString queryText?
  rcases hv : Keyed.get? result queryStringKey with _ | v
  · rfl
  · cases v with
    | text t => by_cases ht : t = "" <;> simp [ht, Value.text?, Option.filter]
    | _ => rfl

theorem promoted_nil (h : ∀ key ∈ queryStringKeys, c.get? key = none) : Promoted [] c where
  queryString := h _ (by simp [queryStringKeys])
  queryStringMap := h _ (by simp [queryStringKeys])
  encoded := h _ (by simp [queryStringKeys])

theorem Promoted.withQueryString (h : Promoted results c) (result : ValueMap) :
    Promoted (results ++ [result]) (withQueryString result c) where
  queryString := by
    have hne : queryStringMapKey ≠ queryStringKey := by decide
    rw [withQueryString_eq, Context.get?_insert, if_neg hne, Context.get?_insert, if_pos rfl,
      List.getLast?_concat]
    rfl
  queryStringMap := by
    rw [withQueryString_eq, Context.get?_insert, if_pos rfl, List.getLast?_concat]
    rfl
  encoded := by
    have hmap : queryStringMapKey ≠ queryStringEncodedKey := by decide
    have hkey : queryStringKey ≠ queryStringEncodedKey := by decide
    rw [withQueryString_eq, Context.get?_insert, if_neg hmap, Context.get?_insert, if_neg hkey,
      List.reverse_append, List.reverse_singleton, List.singleton_append, List.findSome?_cons]
    cases queryText? result with
    | none => exact h.encoded
    | some t => exact (Context.get?_insert c _ _ _).trans (if_pos rfl)

theorem Promoted.of_get? (h : Promoted results c)
    (hsame : ∀ key ∈ queryStringKeys, c'.get? key = c.get? key) : Promoted results c' where
  queryString := (hsame _ (by simp [queryStringKeys])).trans h.queryString
  queryStringMap := (hsame _ (by simp [queryStringKeys])).trans h.queryStringMap
  encoded := (hsame _ (by simp [queryStringKeys])).trans h.encoded

/-- A result that is kept under a name is one more that is promoted. -/
theorem Promoted.kept {p : FieldPath} (h : Promoted results c) (hp : a.resultMapName = some p)
    (hroot : ∀ key ∈ queryStringKeys, p.NotRooted key)
    (hkept : a.kept result c = (.ok (), c')) : Promoted (results ++ [result]) c' := by
  have hsame : ∀ key ∈ queryStringKeys, (p.put c (.map result)).1.get? key = c.get? key :=
    fun key hkey => FieldPath.lookup_put_of_notRooted (hroot key hkey) c (.map result)
  unfold ServiceCall.kept at hkept
  rw [hp] at hkept
  rcases hput : p.put c (.map result) with ⟨put, answer⟩
  rw [hput] at hsame
  simp only [hput] at hkept
  cases answer with
  | error e => cases hkept
  | ok _ =>
    cases hkept
    exact (h.of_get? hsame).withQueryString result

/-- The results that a list of service actions gets are promoted one after the other. -/
theorem Promoted.completes {actions : List ServiceCall} {s t : RunState (Traced ω)}
    (h : Promoted results s.context)
    (hnames : ∀ a ∈ actions,
      ∃ p, a.resultMapName = some p ∧ ∀ key ∈ queryStringKeys, p.NotRooted key)
    (hrun : ActionList.Completes (Traced.env env) (actions.map .service) s t) :
    ∃ later, later.length = actions.length ∧
      t.world.calls.map ActionCall.result? =
        s.world.calls.map ActionCall.result? ++ later.map some ∧
      Promoted (results ++ later) t.context := by
  induction actions generalizing results s with
  | nil =>
    cases hrun
    exact ⟨[], rfl, by simp, by simpa using h⟩
  | cons a rest ih =>
    obtain ⟨⟨p, hp, hroot⟩, hrest⟩ := List.forall_mem_cons.mp hnames
    obtain _ | ⟨step, tail⟩ := hrun
    obtain ⟨service, input, result, hcalls, hkept⟩ := exists_result_of_run step
    obtain ⟨later, hlength, hlater, hpromoted⟩ := ih (h.kept hp hroot hkept) hrest tail
    refine ⟨result :: later, by simp [hlength], ?_, by simpa using hpromoted⟩
    rw [hlater, hcalls]
    simp [ActionCall.result?]

theorem queryText?_eq_some_iff {t : String} :
    queryText? result = some t ↔ Keyed.get? result queryStringKey = some (.text t) ∧ t ≠ "" := by
  unfold queryText?
  rcases Keyed.get? result queryStringKey with _ | v
  · simp
  · cases v <;> simp [Value.text?, Option.filter_eq_some_iff]

theorem get?_of_getD_eq_text {m : ValueMap} {key t : String}
    (h : (Keyed.get? m key).getD .null = .text t) : Keyed.get? m key = some (.text t) := by
  cases hv : Keyed.get? m key with
  | none => rw [hv] at h; cases h
  | some v => rw [hv] at h; exact congrArg some h

theorem encodeAmpersands_ne_empty {t : String} (h : t ≠ "") : encodeAmpersands t ≠ "" := by
  intro hempty
  have hchars : (t.toList.flatMap fun c => if c = '&' then ['%', '2', '6'] else [c]) = [] := by
    simpa [encodeAmpersands] using congrArg String.toList hempty
  have hnil : t.toList = [] := by
    refine List.eq_nil_iff_forall_not_mem.mpr fun c hc => ?_
    have hc' := List.flatMap_eq_nil_iff.mp hchars c hc
    split at hc' <;> cases hc'
  exact h (String.toList_eq_nil_iff.mp hnil)

/-- The encoded query string is that of the visible one if no result has had any to encode, or if
the last one has. -/
theorem Promoted.fresh_iff (h : Promoted results c) : QueryStringFresh c ↔
    (∀ r ∈ results, queryText? r = none) ∨
      ∃ r t, results.getLast? = some r ∧ queryText? r = some t := by
  constructor
  · intro hfresh
    cases hfound : results.reverse.findSome? queryText? with
    | none =>
      left
      simpa [List.findSome?_eq_none_iff] using hfound
    | some t =>
      right
      obtain ⟨r', -, hr'⟩ := List.exists_of_findSome?_eq_some hfound
      have htext : t ≠ "" := (queryText?_eq_some_iff.mp hr').2
      have hvisible : c.get? queryStringEncodedKey = some (.text (encodeAmpersands t)) := by
        rw [h.encoded, hfound]
        rfl
      obtain ⟨u, hu, hencoded⟩ := hfresh _ hvisible
      rw [h.queryString] at hu
      obtain ⟨r, hr, hquery⟩ := Option.map_eq_some_iff.mp hu
      have hget := get?_of_getD_eq_text hquery
      -- Nothing that is not empty has the code of the empty text.
      have hne : u ≠ "" := by
        rintro rfl
        exact encodeAmpersands_ne_empty htext (Value.text.inj hencoded)
      exact ⟨r, u, hr, queryText?_eq_some_iff.mpr ⟨hget, hne⟩⟩
  · rintro (hnone | ⟨r, t, hr, ht⟩) v hv
    · rw [h.encoded, List.findSome?_eq_none_iff.mpr (by simpa using hnone)] at hv
      cases hv
    · have hget := (queryText?_eq_some_iff.mp ht).1
      obtain ⟨earlier, rfl⟩ := List.getLast?_eq_some_iff.mp hr
      rw [h.encoded, List.reverse_append, List.reverse_singleton, List.singleton_append,
        List.findSome?_cons, ht] at hv
      refine ⟨t, ?_, (Option.some.inj hv).symm⟩
      rw [h.queryString, hr, Option.map_some, hget, Option.getD_some]

/-- After service actions that keep their results under names of their own, the query string and its
map are those of the last result, and the encoded one is that of the last result with a text to
encode. So the encoded one is that of the visible one exactly if no result has had a text to encode
or the last one has. -/
theorem promoted_and_fresh_iff {actions : List ServiceCall} {s t : RunState ω}
    (hnames : ∀ a ∈ actions,
      ∃ p, a.resultMapName = some p ∧ ∀ key ∈ queryStringKeys, p.NotRooted key)
    (hs : ∀ key ∈ queryStringKeys, s.context.get? key = none)
    (hrun : outcome (ActionList.run env (actions.map .service)) s = (.ok (), t)) :
    ∃ results : List ValueMap, results.length = actions.length ∧
      (callsOf (ActionList.run (Traced.env env) (actions.map .service)) s).map ActionCall.result? =
        results.map some ∧
      Promoted results t.context ∧
      (QueryStringFresh t.context ↔ (∀ r ∈ results, queryText? r = none) ∨
        ∃ r text, results.getLast? = some r ∧ queryText? r = some text) := by
  have htraces : Traces (ActionList.run (Traced.env env) (actions.map .service))
      (ActionList.run env (actions.map .service)) := by
    refine ActionList.traces_runFrom (fun a ha => ?_) 0
    obtain ⟨call, -, rfl⟩ := List.mem_map.mp ha
    exact call.traces_run env
  obtain ⟨u, htraced, rfl, hcalls⟩ := htraces.exists_outcome hrun
  obtain ⟨results, hlength, hresults, hpromoted⟩ :=
    (promoted_nil (c := s.untraced.context) hs).completes hnames
      (ActionList.run_eq_ok_iff.mp htraced)
  exact ⟨results, hlength, hcalls ▸ hresults, hpromoted, Promoted.fresh_iff hpromoted⟩

/-- A service that answers with a fixed result and counts its runs. -/
def constant (name : String) (result : ValueMap) : Service Nat :=
  ⟨name, [], fun _ n => (.ok result, n + 1)⟩

/-- One service with a query string and one without. -/
def orderServices : ServiceRegistry Nat :=
  ServiceRegistry.register (ServiceRegistry.register [] (constant "countOrders" []))
    (constant "findOrders" [("queryString", .text "a=1&b=2")])

/-- A call that keeps what it gets as `found`. -/
def foundCall (service : String) : ServiceCall :=
  ⟨⟨service, [.text service]⟩, some (FieldPath.ofText "found"), ⟨"", []⟩, []⟩

theorem ofElement_foundCall {service : String}
    (h : Template.ofText service = ⟨service, [.text service]⟩) (hne : service ≠ "") :
    ofElement ⟨"service", [("result-map-name", "found"), ("service-name", service)], []⟩ =
      .ok (foundCall service) := by
  have hauto : Template.ofText "" = ⟨"", []⟩ := Template.ofText_of_not_occursIn rfl
  have hempty : ¬service.isEmpty = true := by simpa using hne
  have hrequired : Element.requireAttr
      ⟨"service", [("result-map-name", "found"), ("service-name", service)], []⟩ "service-name" =
        .ok service := if_neg hempty
  rw [foundCall, ← h, ← hauto, ofElement, hrequired]
  rfl

theorem foundCalls_notRooted (services : List String) : ∀ a ∈ services.map foundCall,
    ∃ p, a.resultMapName = some p ∧ ∀ key ∈ queryStringKeys, p.NotRooted key := by
  intro a ha
  obtain ⟨service, -, rfl⟩ := List.mem_map.mp ha
  refine ⟨_, rfl, fun key hkey rest hroot => ?_⟩
  have hroot' : some ("found", []) = some (key, rest) := hroot
  obtain ⟨rfl, -⟩ := Prod.mk.inj (Option.some.inj hroot')
  exact absurd hkey (by decide)

theorem fresh_after_last_query_string :
    let env : ActionEnv Nat := { dispatcher := some orderServices.dispatcher }
    let s : RunState Nat := ⟨{}, [], none, none, 0⟩
    let t : RunState Nat := ⟨{ top := [("found", .map [("queryString", .text "a=1&b=2")]),
      ("queryString", .text "a=1&b=2"), ("queryStringEncoded", .text "a=1%26b=2"),
      ("queryStringMap", .null)] }, [], none, none, 2⟩
    let actions := ["countOrders", "findOrders"].map foundCall
    (∀ a ∈ actions, ∃ p, a.resultMapName = some p ∧ ∀ key ∈ queryStringKeys, p.NotRooted key) ∧
      (∀ key ∈ queryStringKeys, s.context.get? key = none) ∧
      outcome (ActionList.run env (actions.map .service)) s = (.ok (), t) ∧
      QueryStringFresh t.context := by
  intro env s t actions
  have hnames : ∀ a ∈ actions,
      ∃ p, a.resultMapName = some p ∧ ∀ key ∈ queryStringKeys, p.NotRooted key :=
    foundCalls_notRooted _
  have hs : ∀ key ∈ queryStringKeys, s.context.get? key = none := by decide
  have hrun : outcome (ActionList.run env (actions.map .service)) s = (.ok (), t) := rfl
  obtain ⟨results, -, -, hpromoted, hfresh⟩ := promoted_and_fresh_iff hnames hs hrun
  have hquery : t.context.get? queryStringKey = some (.text "a=1&b=2") := rfl
  obtain ⟨r, hr, hlast⟩ := Option.map_eq_some_iff.mp (hpromoted.queryString.symm.trans hquery)
  have htext : queryText? r = some "a=1&b=2" :=
    queryText?_eq_some_iff.mpr ⟨get?_of_getD_eq_text hlast, by decide⟩
  exact ⟨hnames, hs, hrun, hfresh.mpr (.inr ⟨r, _, hr, htext⟩)⟩

theorem stale_after_result_without_query_string :
    let element (service : String) : Element :=
      ⟨"service", [("result-map-name", "found"), ("service-name", service)], []⟩
    let env : ActionEnv Nat := { dispatcher := some orderServices.dispatcher }
    let s : RunState Nat := ⟨{}, [], none, none, 0⟩
    let t : RunState Nat := ⟨{ top := [("found", .map []), ("queryString", .null),
      ("queryStringEncoded", .text "a=1%26b=2"), ("queryStringMap", .null)] }, [], none, none, 2⟩
    let actions := ["findOrders", "countOrders"].map foundCall
    ["findOrders", "countOrders"].mapM (fun service => ofElement (element service)) = .ok actions ∧
      (∀ a ∈ actions, ∃ p, a.resultMapName = some p ∧ ∀ key ∈ queryStringKeys, p.NotRooted key) ∧
      (∀ key ∈ queryStringKeys, s.context.get? key = none) ∧
      outcome (ActionList.run env (actions.map .service)) s = (.ok (), t) ∧
      ¬QueryStringFresh t.context := by
  intro element env s t actions
  have hactions : ["findOrders", "countOrders"].mapM (fun service => ofElement (element service)) =
      .ok actions := by
    have hfind : Template.ofText "findOrders" = ⟨"findOrders", [.text "findOrders"]⟩ :=
      Template.ofText_of_not_occursIn (by decide)
    have hcount : Template.ofText "countOrders" = ⟨"countOrders", [.text "countOrders"]⟩ :=
      Template.ofText_of_not_occursIn (by decide)
    rw [mapM_eq_ok_iff]
    exact .cons (ofElement_foundCall hfind (by decide))
      (.cons (ofElement_foundCall hcount (by decide)) .nil)
  refine ⟨hactions, foundCalls_notRooted _, by decide, rfl, fun hfresh => ?_⟩
  obtain ⟨text, htext, -⟩ := hfresh (.text "a=1%26b=2") rfl
  cases htext

end ServiceCall
end ScreenActions
