import ScreenActions.Proofs.ActionWrites
import ScreenActions.Proofs.PathLens
import ScreenActions.Proofs.TrailLookup

/-!
Where a set action leaves its value. The value goes to the store of its scope or to the context, to
the global map if that is asked for, and into a visible page map; nothing apart from it changes.
-/

namespace ScreenActions

open Step
open FieldStore (lookup)

variable {ω : Type}

namespace Context

/-- The layers are the same but for a page map that is visible in one of them. -/
def SameButPage (c c' : Context) : Prop :=
  c'.stack = c.stack ∨ ∃ page page', c.get? pageKey = some (.map page) ∧
    c'.stack = replaceFirst pageKey (.map page') c.stack

/-- A read does not tell contexts apart whose global maps it does not tell apart. -/
theorem readsSame_of_global {c : Context} {g g' : ValueMap} {q : FieldPath}
    (hg : c.global = some g) (h : q.ReadsSame g g') :
    q.ReadsSame c { c with global := some g' } := by
  have hread : ∀ read : Value → List PathSegment → Option Value,
      q.readBy read g' = q.readBy read g →
        q.readBy read { c with global := some g' } = q.readBy read c := by
    intro read hglobal
    unfold FieldPath.readBy at hglobal ⊢
    cases hroot : q.root? with
    | none => rfl
    | some root =>
      obtain ⟨root, rest⟩ := root
      simp only [hroot, Option.bind_some] at hglobal
      have hget : ∀ g'' : ValueMap, lookup { c with global := some g'' } root =
          (c.stack.findSome? (Keyed.get? · root)).or (lookup g'' root) := fun _ => rfl
      have hc : lookup c root = lookup { c with global := some g } root := by rw [← hg]
      simp only [Option.bind_some, hget, hc]
      cases c.stack.findSome? (Keyed.get? · root) with
      | none => simpa using hglobal
      | some x => rfl
  exact ⟨hread Value.get? h.1, fun heap => hread (Value.resolve? heap) (h.2 heap)⟩

/-- The context with a value at a path of its page, if that is a visible map. -/
def mirror (c : Context) (p : FieldPath) (v : Value) : Context × Except PathError Unit :=
  match c.get? pageKey with
  | some (.map page) =>
      (c.replace pageKey (.map (p.put (σ := ValueMap) page v).1), (p.put (σ := ValueMap) page v).2)
  | _ => (c, .ok ())

theorem mirror_cases (c : Context) (p : FieldPath) (v : Value) :
    ((∀ page, c.get? pageKey ≠ some (.map page)) ∧ c.mirror p v = (c, .ok ())) ∨
      ∃ page, c.get? pageKey = some (.map page) ∧
        c.mirror p v = (c.replace pageKey (.map (p.put (σ := ValueMap) page v).1),
          (p.put (σ := ValueMap) page v).2) := by
  unfold mirror
  split
  · next page h => exact .inr ⟨page, h, rfl⟩
  · next h => exact .inl ⟨h, rfl⟩

/-- The mirror in the page leaves all other fields alone. -/
theorem get?_mirror (c : Context) (p : FieldPath) (v : Value) {key : String}
    (h : pageKey ≠ key) : (c.mirror p v).1.get? key = c.get? key := by
  rcases c.mirror_cases p v with ⟨-, hmirror⟩ | ⟨page, hpage, hmirror⟩
  · rw [hmirror]
  · rw [hmirror, get?_replace (by rw [hpage]; rfl), if_neg h]

theorem readsSame_mirror (c : Context) (p : FieldPath) (v : Value) {q : FieldPath}
    (h : q.NotRooted pageKey) : q.ReadsSame c (c.mirror p v).1 :=
  FieldPath.readsSame_of_lookup fun _ rest hroot =>
    c.get?_mirror p v fun heq => h rest (heq ▸ hroot)

theorem sameButPage_mirror (c : Context) (p : FieldPath) (v : Value) :
    c.SameButPage (c.mirror p v).1 := by
  rcases c.mirror_cases p v with ⟨-, hmirror⟩ | ⟨page, hpage, hmirror⟩
  · rw [hmirror]
    exact .inl rfl
  · rw [hmirror]
    exact .inr ⟨page, _, hpage, c.stack_replace pageKey _⟩

theorem global_mirror {c : Context} {g : ValueMap} (hg : c.global = some g) {p : FieldPath}
    (h : p.NotRooted pageKey) (v : Value) :
    ∃ g', (c.mirror p v).1.global = some g' ∧ p.ReadsSame g g' := by
  rcases c.mirror_cases p v with ⟨-, hmirror⟩ | ⟨page, -, hmirror⟩
  · rw [hmirror]
    exact ⟨g, hg, .refl p g⟩
  · rw [hmirror]
    obtain ⟨g', hg', hfields⟩ := global_replace hg pageKey (.map (p.put (σ := ValueMap) page v).1)
    exact ⟨g', hg', FieldPath.readsSame_of_lookup fun root rest hroot =>
      hfields root fun heq => h rest (heq ▸ hroot)⟩

end Context

namespace SetField

/-- The global flag is `true`. -/
def Global (a : SetField) (s : RunState ω) : Prop := a.global.expandText s.heap s.context = "true"

instance (a : SetField) (s : RunState ω) : Decidable (a.Global s) :=
  inferInstanceAs (Decidable (_ = _))

/-- The key of the field in a store: its name under the widget trail. -/
def scopedKey (a : SetField) (s : RunState ω) : String :=
  ScopedStore.trailKey (s.context.widgetTrail s.heap) a.field.text

/-- The value in the context, but for the mirror in the page. -/
def place (a : SetField) (s : RunState ω) (v : Value) : Context × Except PathError Unit :=
  if a.Global s then
    match s.context.global with
    | some g =>
        ({ s.context with global := some (a.field.put (σ := ValueMap) g v).1 },
          (a.field.put (σ := ValueMap) g v).2)
    | none => a.field.put s.context v
  else if a.toScope = .screen then a.field.put s.context v
  else (s.context, .ok ())

/-- The state with the value in the store of its scope. -/
def keep (a : SetField) (s : RunState ω) (v : Value) : RunState ω :=
  { s with
    session := if a.toScope = .user then s.session.map (·.set (a.scopedKey s) v) else s.session
    application := if a.toScope = .application then s.application.map (·.set (a.scopedKey s) v)
      else s.application }

theorem outcome_putWithin_page (p : FieldPath) (v : Value) (s : RunState ω) :
    outcome (putWithin Context.pageKey p v) s =
      ((s.context.mirror p v).2, { s with context := (s.context.mirror p v).1 }) := by
  rcases s.context.mirror_cases p v with ⟨hpage, hmirror⟩ | ⟨page, hpage, hmirror⟩
  · rw [hmirror]
    simp only [outcome, putWithin]
  · rw [hmirror]
    simp only [outcome, putWithin, hpage]

theorem outcome_putGlobal {s : RunState ω} {g : ValueMap} (hg : s.context.global = some g)
    (p : FieldPath) (v : Value) : outcome (putGlobal p v) s =
      ((p.put (σ := ValueMap) g v).2,
        { s with context := { s.context with global := some (p.put (σ := ValueMap) g v).1 } }) := by
  simp only [outcome, putGlobal, hg]

theorem store?_eq_ok {s : RunState ω} {scope : FieldScope} {target : Option ScopedStore}
    (h : store? s scope = .ok target) :
    (scope = .screen ∧ target = none) ∨
      (∃ store, scope = .user ∧ s.session = some store ∧ target = some store) ∨
      ∃ store, scope = .application ∧ s.application = some store ∧ target = some store := by
  cases scope with
  | screen => exact .inl ⟨rfl, (Except.ok.inj h).symm⟩
  | user =>
    cases hstore : s.session with
    | none =>
      simp only [store?, hstore] at h
      cases h
    | some store =>
      simp only [store?, hstore] at h
      exact .inr (.inl ⟨store, rfl, rfl, (Except.ok.inj h).symm⟩)
  | application =>
    cases hstore : s.application with
    | none =>
      simp only [store?, hstore] at h
      cases h
    | some store =>
      simp only [store?, hstore] at h
      exact .inr (.inr ⟨store, rfl, rfl, (Except.ok.inj h).symm⟩)

section Write

variable {a : SetField} {s : RunState ω} (v : Value)

theorem isTrue_global_iff : a.global.isTrue s.heap s.context = true ↔ a.Global s := by
  simp [Template.isTrue, Global]

/-- With a store, or with the global flag, the first write is that to the store. -/
theorem outcome_writeTarget {target : Option ScopedStore} (h : store? s a.toScope = .ok target)
    (hplain : a.Global s ∨ a.toScope ≠ .screen) :
    outcome (a.writeTarget s v target) s = (.ok (), a.keep s v) := by
  rcases store?_eq_ok h with
    ⟨hscope, rfl⟩ | ⟨store, hscope, hsome, rfl⟩ | ⟨store, hscope, hsome, rfl⟩
  · have hglobal := isTrue_global_iff.mpr (hplain.resolve_right (not_not_intro hscope))
    simp only [writeTarget, hglobal, if_true, keep, hscope]
    rfl
  · simp only [writeTarget, keep, hscope, hsome]
    rfl
  · simp only [writeTarget, keep, hscope, hsome]
    rfl

theorem outcome_writeGlobal {t : RunState ω} (hc : t.context = s.context) (h : a.Global s) :
    outcome (a.writeGlobal s v) t =
      ((a.place s v).2.mapError .path, { t with context := (a.place s v).1 }) := by
  rw [writeGlobal, if_pos (isTrue_global_iff.mpr h), place, if_pos h]
  cases hg : s.context.global with
  | none => simp [hc]
  | some g =>
    have hput := outcome_putGlobal (hc.symm ▸ hg : t.context.global = some g) a.field v
    simp only [Option.isSome_some, if_true, outcome_mapError, hput, hc]

/-- The writes to the store, the context and the global map together. -/
theorem outcome_writeTarget_writeGlobal {target : Option ScopedStore}
    (h : store? s a.toScope = .ok target) :
    outcome (do a.writeTarget s v target; a.writeGlobal s v) s =
      ((a.place s v).2.mapError .path, { a.keep s v with context := (a.place s v).1 }) := by
  by_cases hglobal : a.Global s
  · rw [outcome_bind_of_ok (outcome_writeTarget v h (.inl hglobal))]
    exact outcome_writeGlobal v rfl hglobal
  have hidle : a.writeGlobal s v = pure () := by
    rw [writeGlobal, if_neg (isTrue_global_iff.not.mpr hglobal)]
  rw [hidle]
  by_cases hscope : a.toScope = .screen
  · rcases store?_eq_ok h with ⟨-, rfl⟩ | ⟨_, huser, -⟩ | ⟨_, happlication, -⟩
    · have hflag : ¬a.global.isTrue s.heap s.context = true := isTrue_global_iff.not.mpr hglobal
      have hkeep : a.keep s v = s := by simp [keep, hscope]
      simp only [writeTarget, if_neg hflag, bind_pure_unit, outcome_mapError, outcome_put, place,
        if_neg hglobal, if_pos hscope, hkeep]
    · cases hscope.symm.trans huser
    · cases hscope.symm.trans happlication
  · rw [outcome_bind_of_ok (outcome_writeTarget v h (.inr hscope)), place, if_neg hglobal,
      if_neg hscope]
    rfl

end Write

/-- The writes of a value, put together. -/
theorem write_eq_ok {a : SetField} {s t : RunState ω} {v : Value} {target : Option ScopedStore}
    (hstore : store? s a.toScope = .ok target)
    (h : outcome (a.write s v target) s = (.ok (), t)) :
    (a.place s v).2 = .ok () ∧ ((a.place s v).1.mirror a.field v).2 = .ok () ∧
      t = { a.keep s v with context := ((a.place s v).1.mirror a.field v).1 } := by
  obtain ⟨_, s₁, htarget, h⟩ := bind_eq_ok.mp h
  obtain ⟨_, s₂, hglobal, h⟩ := bind_eq_ok.mp h
  have hmain : outcome (do a.writeTarget s v target; a.writeGlobal s v) s = (.ok (), s₂) :=
    bind_eq_ok.mpr ⟨_, s₁, htarget, hglobal⟩
  rw [outcome_writeTarget_writeGlobal v hstore] at hmain
  obtain ⟨hplace, rfl⟩ := Prod.mk.inj hmain
  rw [mapError_eq_ok, outcome_putWithin_page] at h
  obtain ⟨hmirror, rfl⟩ := Prod.mk.inj h
  refine ⟨?_, hmirror, rfl⟩
  cases hok : (a.place s v).2 with
  | ok _ => rfl
  | error e =>
    rw [hok] at hplace
    cases hplace

/-- The value goes to the context by a plain write: without the global flag to the screen, or with
the flag where there is no global map. -/
def ToContext (a : SetField) (s : RunState ω) : Prop :=
  (a.toScope = .screen ∧ ¬a.Global s) ∨ (a.Global s ∧ s.context.global = none)

instance (a : SetField) (s : RunState ω) : Decidable (a.ToContext s) :=
  inferInstanceAs (Decidable ((_ ∧ _) ∨ (_ ∧ _)))

section Place

variable {a : SetField} {s : RunState ω} {v : Value}

theorem place_cases (a : SetField) (s : RunState ω) (v : Value) :
    (a.ToContext s ∧ a.place s v = a.field.put s.context v) ∨
      (∃ g, a.Global s ∧ s.context.global = some g ∧ a.place s v =
        ({ s.context with global := some (a.field.put (σ := ValueMap) g v).1 },
          (a.field.put (σ := ValueMap) g v).2)) ∨
      ¬a.Global s ∧ ¬a.ToContext s ∧ a.place s v = (s.context, .ok ()) := by
  unfold place
  by_cases hglobal : a.Global s
  · rw [if_pos hglobal]
    cases hg : s.context.global with
    | none => exact .inl ⟨.inr ⟨hglobal, hg⟩, rfl⟩
    | some g => exact .inr (.inl ⟨g, hglobal, rfl, rfl⟩)
  · rw [if_neg hglobal]
    by_cases hscope : a.toScope = .screen
    · exact .inl ⟨.inl ⟨hscope, hglobal⟩, if_pos hscope⟩
    · refine .inr (.inr ⟨hglobal, ?_, if_neg hscope⟩)
      rintro (⟨h, -⟩ | ⟨h, -⟩)
      · exact hscope h
      · exact hglobal h

theorem get?_place (happend : .append ∉ a.field.segments) (hok : (a.place s v).2 = .ok ())
    (h : a.ToContext s) : a.field.get? (a.place s v).1 = some v := by
  rcases a.place_cases s v with ⟨-, hplace⟩ | ⟨g, hglobal, hg, -⟩ | ⟨-, hnot, -⟩
  · rw [hplace] at hok ⊢
    exact ((FieldPath.lensAt happend s.context).get_put v hok).1
  · rcases h with ⟨-, hnot⟩ | ⟨-, hnone⟩
    · exact absurd hglobal hnot
    · rw [hg] at hnone
      cases hnone
  · exact absurd h hnot

theorem global_place (happend : .append ∉ a.field.segments) (hok : (a.place s v).2 = .ok ())
    (h : a.Global s) {g : ValueMap} (hg : s.context.global = some g) :
    ∃ g', (a.place s v).1.global = some g' ∧ a.field.get? (σ := ValueMap) g' = some v := by
  rcases a.place_cases s v with ⟨⟨-, hnot⟩ | ⟨-, hnone⟩, -⟩ | ⟨g', -, hg', hplace⟩ | ⟨hnot, -, -⟩
  · exact absurd h hnot
  · rw [hg] at hnone
    cases hnone
  · rw [hplace] at hok ⊢
    exact ⟨_, rfl, ((FieldPath.lensAt happend g').get_put v hok).1⟩
  · exact absurd h hnot

theorem stack_place (h : ¬a.ToContext s) : (a.place s v).1.stack = s.context.stack := by
  rcases a.place_cases s v with ⟨hcontext, -⟩ | ⟨g, -, -, hplace⟩ | ⟨-, -, hplace⟩
  · exact absurd hcontext h
  · rw [hplace]
    rfl
  · rw [hplace]

theorem readsSame_place (happend : .append ∉ a.field.segments) {q : FieldPath}
    (h : a.field.Apart q) : q.ReadsSame s.context (a.place s v).1 := by
  rcases a.place_cases s v with ⟨-, hplace⟩ | ⟨g, -, hg, hplace⟩ | ⟨-, -, hplace⟩
  · rw [hplace]
    exact FieldPath.readsSame_put happend h s.context v
  · rw [hplace]
    exact Context.readsSame_of_global hg (FieldPath.readsSame_put happend h g v)
  · rw [hplace]
    exact .refl q s.context

theorem get?_place_of_notRooted {key : String} (h : a.field.NotRooted key) (s : RunState ω)
    (v : Value) : (a.place s v).1.get? key = s.context.get? key := by
  rcases a.place_cases s v with ⟨-, hplace⟩ | ⟨g, -, hg, hplace⟩ | ⟨-, -, hplace⟩
  · rw [hplace]
    exact FieldPath.lookup_put_of_notRooted h s.context v
  · have hfield : Keyed.get? (a.field.put (σ := ValueMap) g v).1 key = Keyed.get? g key :=
      FieldPath.lookup_put_of_notRooted h g v
    rw [hplace]
    simp only [Context.get?, Context.stack, hg, Option.bind_some, hfield]
  · rw [hplace]

end Place

/-- What the field to read from has in its scope: in the context, or in a store under the longest
part of the widget trail. -/
inductive Reads (a : SetField) (s : RunState ω) : Option Value → Prop
  | screen (scope : a.fromScope = .screen) :
      Reads a s (a.fromField.getValue? s.heap s.context)
  | kept {store : ScopedStore} {v : Value}
      (scope : a.fromScope = .user ∧ s.session = some store ∨
        a.fromScope = .application ∧ s.application = some store)
      (h : store.HasUnder (s.context.widgetTrail s.heap) a.fromField.text v) : Reads a s (some v)
  | absent {store : ScopedStore}
      (scope : a.fromScope = .user ∧ s.session = some store ∨
        a.fromScope = .application ∧ s.application = some store)
      (h : ∀ v, ¬store.HasUnder (s.context.widgetTrail s.heap) a.fromField.text v) :
      Reads a s none

/-- The value before defaults and conversion: what the field to read from has, without such a field
the text of the template, and null where there is nothing. -/
inductive HasSource (a : SetField) (s : RunState ω) : Value → Prop
  | found {v : Value} (given : a.fromField.text ≠ "") (h : a.Reads s (some v)) : HasSource a s v
  | missing (given : a.fromField.text ≠ "") (h : a.Reads s none) : HasSource a s .null
  | template (hfield : a.fromField.text = "") (given : a.value.source ≠ "") :
      HasSource a s (.text (a.value.expandText s.heap s.context))
  | nothing (hfield : a.fromField.text = "") (hvalue : a.value.source = "") : HasSource a s .null

/-- The second value is the first one in the declared type, if one is declared. -/
inductive Types (a : SetField) (s : RunState ω) (x : Value) : Value → Prop
  | same (hname : a.typeName = "") : Types a s x x
  | converted {v : Value} (given : a.typeName ≠ "")
      (h : x.convert s.heap a.typeName = .ok v) : Types a s x v

/-- The value is the source, or the default as a text in the place of a source with nothing in it,
in the declared type. -/
inductive Takes (a : SetField) (s : RunState ω) (v : Value) : Prop
  | source {x : Value} (h : a.HasSource s x) (hx : ¬x.Void ∨ a.default.source = "")
      (typed : a.Types s x v)
  | default {x : Value} (h : a.HasSource s x) (hx : x.Void) (given : a.default.source ≠ "")
      (typed : a.Types s (.text (a.default.expandText s.heap s.context)) v)

theorem reads_of_store? {a : SetField} {s : RunState ω} {target : Option ScopedStore}
    (h : store? s a.fromScope = .ok target) : a.Reads s (match target with
      | some store => store.findInTrail? (s.context.widgetTrail s.heap) a.fromField.text
      | none => a.fromField.getValue? s.heap s.context) := by
  have hkept : ∀ store : ScopedStore, (a.fromScope = .user ∧ s.session = some store ∨
      a.fromScope = .application ∧ s.application = some store) →
      a.Reads s (store.findInTrail? (s.context.widgetTrail s.heap) a.fromField.text) := by
    intro store hscope
    cases hfound : store.findInTrail? (s.context.widgetTrail s.heap) a.fromField.text with
    | some v => exact .kept hscope (ScopedStore.findInTrail?_eq_some_iff.mp hfound)
    | none =>
      refine .absent hscope fun v hv => ?_
      cases hfound.symm.trans (ScopedStore.findInTrail?_eq_some_iff.mpr hv)
  rcases store?_eq_ok h with
    ⟨hscope, rfl⟩ | ⟨store, hscope, hsome, rfl⟩ | ⟨store, hscope, hsome, rfl⟩
  · exact .screen hscope
  · exact hkept store (.inl ⟨hscope, hsome⟩)
  · exact hkept store (.inr ⟨hscope, hsome⟩)

theorem source_of_reads {a : SetField} {s : RunState ω} {found : Option Value}
    (given : a.fromField.text ≠ "") (h : a.Reads s found) : a.HasSource s (found.getD .null) := by
  cases found with
  | none => exact .missing given h
  | some v => exact .found given h

theorem source_of_eq_ok {a : SetField} {s : RunState ω} {x : Value} (h : a.source s = .ok x) :
    a.HasSource s x := by
  unfold source at h
  by_cases hfield : a.fromField.text = ""
  · rw [if_neg (by simp [FieldPath.isEmpty, hfield])] at h
    by_cases hvalue : a.value.source = ""
    · rw [if_neg (by simp [Template.isEmpty, hvalue])] at h
      cases h
      exact .nothing hfield hvalue
    · rw [if_pos (by simp [Template.isEmpty, hvalue])] at h
      cases h
      exact .template hfield hvalue
  · rw [if_pos (by simp [FieldPath.isEmpty, hfield])] at h
    cases hstore : store? s a.fromScope with
    | error e =>
      rw [hstore] at h
      cases h
    | ok target =>
      have hreads := source_of_reads hfield (reads_of_store? hstore)
      rw [hstore] at h
      cases target <;> cases h <;> exact hreads

theorem types_of_typed {a : SetField} {s : RunState ω} {x v : Value}
    (h : a.typed s.heap x = .ok v) : a.Types s x v := by
  unfold typed at h
  by_cases hname : a.typeName = ""
  · rw [if_pos (by simp [hname])] at h
    cases h
    exact .same hname
  · rw [if_neg (by simpa using hname)] at h
    refine .converted hname ?_
    cases hconvert : x.convert s.heap a.typeName with
    | ok _ =>
      rw [hconvert] at h
      cases h
      rfl
    | error _ =>
      rw [hconvert] at h
      cases h

theorem takes_of_newValue {a : SetField} {s : RunState ω} {v : Value} (h : a.newValue s = .ok v) :
    a.Takes s v := by
  unfold newValue at h
  cases hx : a.source s with
  | error e =>
    rw [hx] at h
    cases h
  | ok x =>
    have hsource := source_of_eq_ok hx
    rw [hx] at h
    have htypes : a.Types s _ v := types_of_typed h
    by_cases hdefault : x.Void ∧ a.default.source ≠ ""
    · rw [if_pos (by simpa [Value.isEmpty_iff, Template.isEmpty] using hdefault)] at htypes
      exact .default hsource hdefault.1 hdefault.2 htypes
    · rw [if_neg (by simpa [Value.isEmpty_iff, Template.isEmpty] using hdefault)] at htypes
      exact .source hsource ((not_and_or.mp hdefault).imp_right not_not.mp) htypes

/-- What a set action has done when it succeeds with a value. -/
structure Written (a : SetField) (s : RunState ω) (session application : ScopedStore) (v : Value)
    (t : RunState ω) : Prop where
  visible : a.ToContext s → a.field.get? t.context = some v
  inGlobal : a.Global s → ∀ g, s.context.global = some g →
    ∃ g', t.context.global = some g' ∧ a.field.get? (σ := ValueMap) g' = some v
  layers : ¬a.ToContext s → s.context.SameButPage t.context
  inSession : ∃ store : ScopedStore, t.session = some store ∧ ∀ key, store.get? key =
    if a.toScope = .user ∧ key = a.scopedKey s then if v.isNull then none else some v
    else session.get? key
  inApplication : ∃ store : ScopedStore, t.application = some store ∧ ∀ key, store.get? key =
    if a.toScope = .application ∧ key = a.scopedKey s then if v.isNull then none else some v
    else application.get? key
  apart : ∀ q : FieldPath, a.field.Apart q → q.NotRooted Context.pageKey →
    q.ReadsSame s.context t.context
  inPage : ∀ page : ValueMap, s.context.get? Context.pageKey = some (.map page) →
    ∃ page' : ValueMap, t.context.get? Context.pageKey = some (.map page') ∧
      a.field.get? page' = some v ∧ ∀ q : FieldPath, a.field.Apart q → q.ReadsSame page page'
  noPage : (∀ page, s.context.get? Context.pageKey ≠ some (.map page)) →
    t.context.get? Context.pageKey = s.context.get? Context.pageKey
  elsewhere : t.heap = s.heap ∧ t.world = s.world

theorem exists_kept (store : ScopedStore) (scope target : FieldScope) (key : String) (v : Value) :
    ∃ store' : ScopedStore,
      (if scope = target then (some store).map (·.set key v) else some store) = some store' ∧
      ∀ key', store'.get? key' =
        if scope = target ∧ key' = key then if v.isNull then none else some v
        else store.get? key' := by
  by_cases hscope : scope = target
  · refine ⟨store.set key v, if_pos hscope, fun key' => ?_⟩
    rw [ScopedStore.get?_set]
    by_cases hkey : key = key'
    · cases hnull : v.isNull <;> simp [hscope, hkey, hnull]
    · simp [hkey, Ne.symm hkey]
  · exact ⟨store, if_neg hscope, fun key' => by simp [hscope]⟩

/-- Both writes of a value that is ready, and what they amount to. -/
theorem written_of_place {a : SetField} {s : RunState ω} {session application : ScopedStore}
    (hsession : s.session = some session) (happlication : s.application = some application)
    (happend : .append ∉ a.field.segments) (hpage : a.field.NotRooted Context.pageKey) {v : Value}
    (hplace : (a.place s v).2 = .ok ()) (hmirror : ((a.place s v).1.mirror a.field v).2 = .ok ()) :
    a.Written s session application v
      { a.keep s v with context := ((a.place s v).1.mirror a.field v).1 } where
  visible h := by
    have hmirrored := ((a.place s v).1.readsSame_mirror a.field v hpage).1
    exact hmirrored.trans (get?_place happend hplace h)
  inGlobal h g hg := by
    obtain ⟨g', hg', hget⟩ := global_place happend hplace h hg
    obtain ⟨g'', hg'', hsame⟩ := Context.global_mirror hg' hpage v
    exact ⟨g'', hg'', hsame.1.trans hget⟩
  layers h := by
    have hmirrored := (a.place s v).1.sameButPage_mirror a.field v
    unfold Context.SameButPage at hmirrored ⊢
    rwa [stack_place h, get?_place_of_notRooted hpage] at hmirrored
  inSession := by
    have hkept := exists_kept session a.toScope .user (a.scopedKey s) v
    rwa [← hsession] at hkept
  inApplication := by
    have hkept := exists_kept application a.toScope .application (a.scopedKey s) v
    rwa [← happlication] at hkept
  apart q hq hroot :=
    (readsSame_place happend hq).trans ((a.place s v).1.readsSame_mirror a.field v hroot)
  inPage page h := by
    have hvisible := (get?_place_of_notRooted hpage s v).trans h
    rcases (a.place s v).1.mirror_cases a.field v with ⟨hnone, -⟩ | ⟨page', hpage', hmirrored⟩
    · exact absurd hvisible (hnone page)
    · obtain rfl : page' = page := Value.map.inj (Option.some.inj (hpage'.symm.trans hvisible))
      rw [hmirrored] at hmirror ⊢
      refine ⟨_, ?_, ((FieldPath.lensAt happend page').get_put v hmirror).1,
        fun q hq => FieldPath.readsSame_put happend hq page' v⟩
      rw [Context.get?_replace (by rw [hpage']; rfl), if_pos rfl]
  noPage h := by
    have hsame := get?_place_of_notRooted hpage s v
    rcases (a.place s v).1.mirror_cases a.field v with ⟨-, hmirrored⟩ | ⟨page, hvisible, -⟩
    · rw [hmirrored, hsame]
    · exact absurd (hsame.symm.trans hvisible) (h page)
  elsewhere := ⟨rfl, rfl⟩

/-- A set action that succeeds has written its value where it says and nowhere else. -/
theorem exists_written_of_run {env : ActionEnv ω} {a : SetField} {s t : RunState ω}
    {session application : ScopedStore} (hsession : s.session = some session)
    (happlication : s.application = some application) (happend : .append ∉ a.field.segments)
    (hpage : a.field.NotRooted Context.pageKey)
    (hrun : outcome ((ScreenAction.setField a).run env) s = (.ok (), t)) :
    ∃ v, a.Takes s v ∧ a.Written s session application v t := by
  change outcome a.run s = _ at hrun
  rw [outcome_run] at hrun
  cases hv : a.newValue s with
  | error e =>
    rw [hv] at hrun
    cases hrun
  | ok v =>
    cases hstore : store? s a.toScope with
    | error e =>
      rw [hv, hstore] at hrun
      cases hrun
    | ok target =>
      simp only [hv, hstore] at hrun
      obtain ⟨hplace, hmirror, rfl⟩ := write_eq_ok hstore hrun
      exact ⟨v, takes_of_newValue hv,
        written_of_place hsession happlication happend hpage hplace hmirror⟩

/-- Sets the size of a view for the application and in the global map, from the session. -/
def viewSizeSetting : SetField :=
  ⟨.ofText "view.size", .ofText "size", ⟨"", []⟩,
    ⟨"2${tens}", [.text "2", .field (.ofText "tens")]⟩, ⟨"true", [.text "true"]⟩, "Integer",
    .application, .user⟩

/-- A widget in a request with a page and with a global map. -/
def viewState (session : ScopedStore) : RunState Unit :=
  ⟨⟨[("_WIDGETTRAIL_", .list [.text "FindOrders", .text "List"])], [[("page", .map [])]],
      some [("tens", .text "0")]⟩,
    [], some session, some [("view.size", .int 3)], ()⟩

def viewRun (session : ScopedStore) : Except ActionError Unit × RunState Unit :=
  outcome ((ScreenAction.setField viewSizeSetting).run {}) (viewState session)

def storedSizes : ScopedStore := [("FindOrders|size", .text "50"), ("size", .text "10")]

/-- The size is that of a part of the trail, and without one the default. -/
theorem exists_written_of_run_from_session :
    .append ∉ viewSizeSetting.field.segments ∧
      viewSizeSetting.field.NotRooted Context.pageKey ∧
      viewRun storedSizes = (.ok (), (viewRun storedSizes).2) ∧
      viewRun [] = (.ok (), (viewRun []).2) ∧
      (viewRun storedSizes).2.application =
        some [("FindOrders|List|view.size", .int 50), ("view.size", .int 3)] ∧
      (viewRun storedSizes).2.context.global =
        some [("tens", .text "0"), ("view", .map [("size", .int 50)])] ∧
      viewSizeSetting.Takes (viewState storedSizes) (.int 50) ∧
      viewSizeSetting.Written (viewState storedSizes) storedSizes [("view.size", .int 3)] (.int 50)
        (viewRun storedSizes).2 ∧
      (viewRun []).2.application =
        some [("FindOrders|List|view.size", .int 20), ("view.size", .int 3)] ∧
      ∃ v, viewSizeSetting.Takes (viewState []) v ∧
        viewSizeSetting.Written (viewState []) [] [("view.size", .int 3)] v (viewRun []).2 := by
  have happend : .append ∉ viewSizeSetting.field.segments := by decide
  have hpage : viewSizeSetting.field.NotRooted Context.pageKey := by
    intro rest h
    have hroot : viewSizeSetting.field.root? = some ("view", [.key "size"]) := by decide
    have hsame : "view" = Context.pageKey :=
      congrArg Prod.fst (Option.some.inj (hroot.symm.trans h))
    exact absurd hsame (by decide)
  have hrun : viewRun storedSizes = (.ok (), (viewRun storedSizes).2) :=
    outcome_eq_of_isOk (by decide)
  have hrun' : viewRun [] = (.ok (), (viewRun []).2) := outcome_eq_of_isOk (by decide)
  obtain ⟨v, htakes, hwritten⟩ := exists_written_of_run rfl rfl happend hpage hrun
  have happlication : (viewRun storedSizes).2.application =
    some [("FindOrders|List|view.size", .int 50), ("view.size", .int 3)] := rfl
  obtain rfl : v = .int 50 := by
    obtain ⟨store, hstore, hget⟩ := hwritten.inApplication
    obtain rfl := Option.some.inj (happlication.symm.trans hstore)
    have hkept : some (Value.int 50) = if v.isNull then none else some v :=
      hget "FindOrders|List|view.size"
    cases v <;> cases hkept
    rfl
  exact ⟨happend, hpage, hrun, hrun', happlication, rfl, htakes, hwritten, rfl,
    exists_written_of_run rfl rfl happend hpage hrun'⟩

end SetField
end ScreenActions
