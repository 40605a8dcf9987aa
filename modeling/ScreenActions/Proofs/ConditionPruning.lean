import ScreenActions.Entity.Condition
import ScreenActions.Proofs.SplitPieces

/-!
What is sent of a condition. Resolving takes the ignored expressions and the lists left empty out of
the condition and puts a comparison in the place of each expression that remains.
-/

namespace ScreenActions

open Text

namespace JoinOperator

/-- The verdict of a list on the verdicts of its members. -/
def combine : JoinOperator → List Bool → Bool
  | .and, verdicts => verdicts.all id
  | .or, verdicts => verdicts.any id

end JoinOperator

/-- A single comparison as it is sent. -/
structure Comparison where
  field : String
  operator : ComparisonOperator
  value : Value
  ignoreCase : Bool
  deriving Repr

namespace EntityCondition

def ofComparison (r : Comparison) : EntityCondition :=
  .expr r.field r.operator r.value r.ignoreCase

/-- No list of the condition is empty, at any depth. -/
inductive Populated : EntityCondition → Prop
  | expr (r : Comparison) : Populated (ofComparison r)
  | list (join : JoinOperator) {conditions : List EntityCondition} (hne : conditions ≠ [])
      (h : ∀ r ∈ conditions, Populated r) : Populated (.list join conditions)

/-- The comparisons from left to right, each with the joins of the lists around it. -/
def comparisons : EntityCondition → List (List JoinOperator × Comparison)
  | .expr field operator value ignoreCase => [([], ⟨field, operator, value, ignoreCase⟩)]
  | .list join conditions => (conditions.flatMap comparisons).map (Prod.map (join :: ·) id)

/-- The verdict of a condition where each comparison holds or not. -/
def holds (verdict : Comparison → Bool) : EntityCondition → Bool
  | .expr field operator value ignoreCase => verdict ⟨field, operator, value, ignoreCase⟩
  | .list join conditions => join.combine (conditions.map (holds verdict))

end EntityCondition

namespace ConditionSpec

@[elab_as_elim, induction_eliminator]
theorem induction {motive : ConditionSpec → Prop} (expr : ∀ e, motive (.expr e))
    (list : ∀ join specs, (∀ spec ∈ specs, motive spec) → motive (.list join specs)) :
    ∀ spec, motive spec
  | .expr e => expr e
  | .list join specs => list join specs fun spec _ => induction expr list spec

/-- The expressions from left to right, each with the joins of the lists around it. -/
def expressions : ConditionSpec → List (List JoinOperator × ConditionExpr)
  | .expr e => [([], e)]
  | .list join specs => (specs.flatMap expressions).map (Prod.map (join :: ·) id)

/-- The verdict of a condition where each expression holds or not. -/
def holds (verdict : ConditionExpr → Bool) : ConditionSpec → Bool
  | .expr e => verdict e
  | .list join specs => join.combine (specs.map (holds verdict))

/-- The condition without the expressions that are not kept and the lists that they leave empty. -/
def prune? (keep : ConditionExpr → Bool) : ConditionSpec → Option ConditionSpec
  | .expr e => if keep e then some (.expr e) else none
  | .list join specs =>
      match specs.filterMap (prune? keep) with
      | [] => none
      | kept => some (.list join kept)

/-- The condition with a comparison in the place of each expression. -/
def toCondition (comparison : ConditionExpr → Comparison) : ConditionSpec → EntityCondition
  | .expr e => .ofComparison (comparison e)
  | .list join specs => .list join (specs.map (toCondition comparison))

section Prune

variable (keep : ConditionExpr → Bool)

theorem prune?_list (join : JoinOperator) (specs : List ConditionSpec) :
    (list join specs).prune? keep = if specs.filterMap (prune? keep) = [] then none
      else some (.list join (specs.filterMap (prune? keep))) := by
  rw [prune?]
  cases specs.filterMap (prune? keep) <;> rfl

theorem prune?_eq_none_iff (spec : ConditionSpec) :
    spec.prune? keep = none ↔ ∀ e ∈ spec.expressions, keep e.2 = false := by
  induction spec with
  | expr e => simp [prune?, expressions]
  | list join specs ih =>
    rw [prune?_list, expressions, List.forall_mem_map, List.forall_mem_flatMap]
    simp only [ite_eq_left_iff, reduceCtorEq, imp_false, not_not, List.filterMap_eq_nil_iff]
    exact forall₂_congr ih

theorem expressions_prune? (spec : ConditionSpec) :
    (spec.prune? keep).elim [] expressions = spec.expressions.filter (keep ·.2) := by
  induction spec with
  | expr e => cases hkeep : keep e <;> simp [prune?, expressions, hkeep]
  | list join specs ih =>
    have hmembers : (specs.filterMap (prune? keep)).flatMap expressions =
        (specs.flatMap expressions).filter (keep ·.2) := by
      rw [List.filterMap_eq_flatMap_toList, List.flatMap_assoc, List.filter_flatMap]
      refine List.flatMap_congr fun spec hspec => ?_
      rw [← ih spec hspec]
      cases spec.prune? keep <;> simp
    have hkept : ((list join specs).prune? keep).elim [] expressions =
        ((specs.filterMap (prune? keep)).flatMap expressions).map (Prod.map (join :: ·) id) := by
      rw [prune?_list]
      split
      · next hnil =>
        rw [hnil]
        rfl
      · rw [Option.elim_some, expressions]
    rw [hkept, hmembers, expressions, List.filter_map]
    rfl

theorem populated_of_prune? {spec kept : ConditionSpec} (h : spec.prune? keep = some kept)
    (comparison : ConditionExpr → Comparison) : (kept.toCondition comparison).Populated := by
  induction spec generalizing kept with
  | expr e =>
    obtain ⟨-, rfl⟩ : keep e = true ∧ expr e = kept := by simpa [prune?] using h
    rw [toCondition]
    exact .expr _
  | list join specs ih =>
    rw [prune?_list] at h
    split at h
    · cases h
    · next hne =>
      obtain rfl := Option.some.inj h
      rw [toCondition]
      refine .list join (by simpa using hne) (List.forall_mem_map.mpr fun kept hkept => ?_)
      obtain ⟨spec, hspec, hkept⟩ := List.mem_filterMap.mp hkept
      exact ih spec hspec hkept

end Prune

section ToCondition

variable (comparison : ConditionExpr → Comparison)

theorem comparisons_toCondition (spec : ConditionSpec) :
    (spec.toCondition comparison).comparisons = spec.expressions.map (Prod.map id comparison) := by
  induction spec with
  | expr e =>
    simp [toCondition, expressions, EntityCondition.ofComparison, EntityCondition.comparisons]
  | list join specs ih =>
    rw [toCondition, EntityCondition.comparisons, expressions, List.flatMap_map,
      List.flatMap_congr ih, ← List.map_flatMap, List.map_map, List.map_map]
    rfl

theorem holds_toCondition (verdict : Comparison → Bool) (spec : ConditionSpec) :
    (spec.toCondition comparison).holds verdict = spec.holds (verdict ∘ comparison) := by
  induction spec with
  | expr e => simp [toCondition, holds, EntityCondition.ofComparison, EntityCondition.holds]
  | list join specs ih =>
    rw [toCondition, EntityCondition.holds, holds, List.map_map]
    exact congrArg join.combine (List.map_congr_left ih)

end ToCondition

end ConditionSpec

namespace ConditionExpr

variable (e : ConditionExpr) (heap : BundleHeap) (c : Context)

/-- The value of an expression: what its field holds, null if there is no such field, and without a
field what its template gives. -/
inductive HasValue : Value → Prop
  | found {p : FieldPath} {v : Value} (source : e.source = some p)
      (h : p.getValue? heap c = some v) : HasValue v
  | missing {p : FieldPath} (source : e.source = some p) (h : p.getValue? heap c = none) :
      HasValue .null
  | template (source : e.source = none) : HasValue (e.value.expand heap c)

/-- Neither the template nor the value makes the expression ignored. -/
def Remains : Prop :=
  e.ignored.expandText heap c ≠ "true" ∧ ∃ v, e.HasValue heap c v ∧
    (e.ignoreIfNull = true → v ≠ .null) ∧ (e.ignoreIfEmpty = true → ¬v.Void)

/-- A comparison has the value of its expression, cut at commas for the operators that compare with
a collection. -/
inductive ComparesAs : Comparison → Prop
  | cut {parts : List String} (collects : e.operator ∈ [.isIn, .notIn, .between])
      (hne : parts ≠ []) (hparts : ∀ part ∈ parts, ',' ∉ part.toList)
      (h : e.HasValue heap c (.text (join "," parts))) :
      ComparesAs ⟨e.field, e.operator, .list (parts.map fun part => .text (trimText part)),
        e.ignoreCase⟩
  | whole {v : Value} (hwhole : e.operator ∉ [.isIn, .notIn, .between] ∨ ∀ s, v ≠ .text s)
      (h : e.HasValue heap c v) : ComparesAs ⟨e.field, e.operator, v, e.ignoreCase⟩

def comparison : Comparison :=
  ⟨e.field, e.operator, listed e.operator (e.sourceValue heap c), e.ignoreCase⟩

variable {heap c} in
theorem hasValue_iff {v : Value} : e.HasValue heap c v ↔ e.sourceValue heap c = v := by
  constructor
  · rintro (⟨hsource, h⟩ | ⟨hsource, h⟩ | hsource)
    · simp [sourceValue, hsource, h]
    · simp [sourceValue, hsource, h]
    · simp [sourceValue, hsource]
  · rintro rfl
    unfold sourceValue
    split
    · next p hsource =>
      cases h : p.getValue? heap c with
      | none => exact .missing hsource h
      | some v => exact .found hsource h
    · next hsource => exact .template hsource

variable {heap c} in
theorem isIgnored_eq_false_iff : e.isIgnored heap c = false ↔ e.Remains heap c := by
  simp [isIgnored, Remains, hasValue_iff, Template.isTrue, and_assoc, ← Value.isNull_iff,
    ← Value.isEmpty_iff]

instance : Decidable (e.Remains heap c) := decidable_of_iff _ e.isIgnored_eq_false_iff

theorem takesList_iff {operator : ComparisonOperator} :
    operator.takesList = true ↔ operator ∈ [.isIn, .notIn, .between] := by
  cases operator <;> decide

theorem join_splitAll (s : String) :
    join "," ((splitAll (· == ',') s.toList).map String.ofList) = s := by
  rw [← String.toList_inj, join, String.toList_intercalate, List.map_map,
    splitAll_eq_splitOnP, ← List.splitOn_eq_splitOnP]
  simp [Function.comp_def]

theorem listed_eq_self {operator : ComparisonOperator} {v : Value}
    (h : operator ∉ [.isIn, .notIn, .between] ∨ ∀ s, v ≠ .text s) : listed operator v = v := by
  unfold listed
  split
  · next s =>
    rw [if_neg (takesList_iff.not.mpr (h.resolve_right fun hne => hne s rfl))]
  · rfl

theorem comparesAs_comparison : e.ComparesAs heap c (e.comparison heap c) := by
  have hvalue := e.hasValue_iff.mpr (rfl : e.sourceValue heap c = _)
  rw [comparison]
  by_cases hcut : e.operator ∈ [.isIn, .notIn, .between] ∧ ∃ s, e.sourceValue heap c = .text s
  · obtain ⟨hlist, s, htext⟩ := hcut
    have hparts : ∀ part ∈ (splitAll (· == ',') s.toList).map String.ofList,
        ',' ∉ part.toList := by
      rw [List.forall_mem_map]
      intro part hpart hcomma
      have hfalse := not_separator_of_mem_splitAll hpart ',' (by simpa using hcomma)
      simp at hfalse
    rw [htext, ← join_splitAll s] at hvalue
    have hcut := ComparesAs.cut hlist (by simp [splitAll_eq_splitOnP]) hparts hvalue
    simpa [htext, listed, takesList_iff.mpr hlist, trimText, Function.comp_def] using hcut
  · have hwhole : e.operator ∉ [.isIn, .notIn, .between] ∨ ∀ s, e.sourceValue heap c ≠ .text s := by
      rwa [not_and_or, not_exists] at hcut
    rw [listed_eq_self hwhole]
    exact .whole hwhole hvalue

theorem resolve?_eq : e.resolve? heap c =
    if e.Remains heap c then some (.ofComparison (e.comparison heap c)) else none := by
  rw [resolve?]
  by_cases hremains : e.Remains heap c
  · rw [if_pos hremains, (isIgnored_eq_false_iff e).mpr hremains]
    rfl
  · rw [if_neg hremains, if_pos (by simpa [← isIgnored_eq_false_iff] using hremains)]

end ConditionExpr

namespace ConditionSpec

variable (heap : BundleHeap) (c : Context)

theorem resolveAll_eq_filterMap (specs : List ConditionSpec) :
    resolveAll heap c specs = specs.filterMap (resolve? heap c) := by
  induction specs with
  | nil => rfl
  | cons spec specs ih =>
    rw [resolveAll, ih, List.filterMap_cons]
    cases resolve? heap c spec <;> rfl

/-- Resolving is pruning with the comparisons in the places of the expressions. -/
theorem resolve?_eq_map_prune? (spec : ConditionSpec) : spec.resolve? heap c =
    (spec.prune? (·.Remains heap c)).map (toCondition (·.comparison heap c)) := by
  induction spec with
  | expr e =>
    rw [resolve?, ConditionExpr.resolve?_eq, prune?]
    split <;> simp_all [toCondition]
  | list join specs ih =>
    have hmembers : resolveAll heap c specs =
        (specs.filterMap (prune? (·.Remains heap c))).map (toCondition (·.comparison heap c)) := by
      rw [resolveAll_eq_filterMap, List.map_filterMap]
      exact List.filterMap_congr ih
    rw [resolve?, prune?_list, hmembers]
    cases specs.filterMap (prune? (·.Remains heap c)) <;> simp [toCondition]

/-- What a condition is resolved to has no empty list. Its comparisons are those of the expressions
that remain, in their order and under their joins; without one there is no condition. Whatever
comparisons hold, it holds like the condition without the ignored expressions and the emptied
lists. -/
theorem resolve?_prunes (spec : ConditionSpec) (heap : BundleHeap) (c : Context) :
    (∀ r, spec.resolve? heap c = some r → r.Populated) ∧
      List.Forall₂ (fun e r => r.1 = e.1 ∧ e.2.ComparesAs heap c r.2)
        (spec.expressions.filter (·.2.Remains heap c))
        ((spec.resolve? heap c).elim [] EntityCondition.comparisons) ∧
      (spec.resolve? heap c = none ↔ ∀ e ∈ spec.expressions, ¬e.2.Remains heap c) ∧
      ∃ comparison : ConditionExpr → Comparison,
        (∀ e : ConditionExpr, e.ComparesAs heap c (comparison e)) ∧
          ∀ verdict : Comparison → Bool, (spec.resolve? heap c).map (·.holds verdict) =
            (spec.prune? (·.Remains heap c)).map (·.holds (verdict ∘ comparison)) := by
  let keep : ConditionExpr → Bool := (·.Remains heap c)
  let comparison : ConditionExpr → Comparison := (·.comparison heap c)
  have hcompares : ∀ e : ConditionExpr, e.ComparesAs heap c (comparison e) :=
    (·.comparesAs_comparison heap c)
  rw [show spec.resolve? heap c = (spec.prune? keep).map (toCondition comparison) from
    resolve?_eq_map_prune? heap c spec]
  refine ⟨fun r hr => ?_, ?_, ?_, comparison, hcompares, fun verdict => ?_⟩
  · obtain ⟨kept, hkept, rfl⟩ := Option.map_eq_some_iff.mp hr
    exact populated_of_prune? keep hkept comparison
  · have hcomparisons : ((spec.prune? keep).map (toCondition comparison)).elim []
        EntityCondition.comparisons =
          (spec.expressions.filter (keep ·.2)).map (Prod.map id comparison) := by
      rw [← expressions_prune? keep spec]
      cases spec.prune? keep with
      | none => rfl
      | some kept => exact comparisons_toCondition comparison kept
    rw [hcomparisons, List.forall₂_map_right_iff, List.forall₂_same]
    exact fun e _ => ⟨rfl, hcompares e.2⟩
  · rw [Option.map_eq_none_iff, prune?_eq_none_iff]
    simp [keep]
  · rw [Option.map_map]
    exact Option.map_congr fun kept _ => holds_toCondition comparison verdict kept

/-- Compares with a field of the context. -/
def ofField (field : String) (operator : ComparisonOperator) (path : String) : ConditionExpr :=
  ⟨field, operator, some (.ofText path), ⟨"", []⟩, false, false, false, ⟨"", []⟩⟩

/-- Without the status that is null and the type that is empty, the list in the middle vanishes with
the list in it. -/
theorem resolve?_prunes_nested :
    let status := { ofField "statusId" .equals "status" with ignoreIfNull := true }
    let kind := { ofField "typeId" .like "" with
      source := none, value := ⟨"${kind}", [.field (.ofText "kind")]⟩, ignoreIfEmpty := true }
    let ids := { ofField "orderId" .isIn "ids" with ignoreCase := true }
    let party := ofField "partyId" .notIn "party"
    let skipped := { ofField "storeId" .equals "ids" with ignored := ⟨"true", [.text "true"]⟩ }
    let spec := list .and [
      .list .or [.expr status, .list .and [.expr kind, .list .or []]],
      .list .or [.expr ids, .expr skipped, .list .and [.expr party]]]
    let c : Context := ⟨[("ids", .text "A, B ,")], [[("kind", .text "")]], none⟩
    let r := EntityCondition.list .and [.list .or [
      .expr "orderId" .isIn (.list [.text "A", .text "B", .text ""]) true,
      .list .and [.expr "partyId" .notIn .null false]]]
    spec.resolve? [] c = some r ∧ r.Populated ∧
      ids.ComparesAs [] c ⟨"orderId", .isIn, .list [.text "A", .text "B", .text ""], true⟩ ∧
      party.ComparesAs [] c ⟨"partyId", .notIn, .null, false⟩ ∧
      spec.expressions.filter (·.2.Remains [] c) =
        [([.and, .or], ids), ([.and, .or, .and], party)] ∧
      ∃ comparison : ConditionExpr → Comparison,
        (∀ e : ConditionExpr, e.ComparesAs [] c (comparison e)) ∧
          ∀ verdict : Comparison → Bool,
            r.holds verdict = (verdict (comparison ids) || verdict (comparison party)) := by
  intro status kind ids party skipped spec c r
  have hresolve : spec.resolve? [] c = some r := rfl
  have hexpressions : spec.expressions = [([.and, .or], status), ([.and, .or, .and], kind),
      ([.and, .or], ids), ([.and, .or], skipped), ([.and, .or, .and], party)] := by
    simp [spec, expressions]
  have hremain : spec.expressions.filter (·.2.Remains [] c) =
      [([.and, .or], ids), ([.and, .or, .and], party)] := by
    rw [hexpressions]
    rfl
  have hprune : spec.prune? (·.Remains [] c) = some (list .and
      [.list .or [.expr ids, .list .and [.expr party]]]) := by
    have hkept : [status, kind, ids, skipped, party].map (fun e => decide (e.Remains [] c)) =
      [false, false, true, false, true] := rfl
    simp only [List.map_cons, List.map_nil, List.cons.injEq] at hkept
    simp [spec, prune?_list, prune?, hkept]
  obtain ⟨hpopulated, hcompares, -, comparison, hcomparison, hholds⟩ := resolve?_prunes spec [] c
  have hcomparisons : r.comparisons = [([.and, .or],
      ⟨"orderId", .isIn, .list [.text "A", .text "B", .text ""], true⟩),
        ([.and, .or, .and], ⟨"partyId", .notIn, .null, false⟩)] := by
    simp [r, EntityCondition.comparisons]
  rw [hremain, hresolve, Option.elim_some, hcomparisons] at hcompares
  simp only [List.forall₂_cons, List.forall₂_nil_left_iff, true_and, and_true] at hcompares
  obtain ⟨hids, hparty⟩ := hcompares
  refine ⟨hresolve, hpopulated r hresolve, hids, hparty, hremain, comparison, hcomparison,
    fun verdict => ?_⟩
  have hverdict := hholds verdict
  rw [hresolve, hprune] at hverdict
  simpa [holds, JoinOperator.combine] using hverdict

end ConditionSpec
end ScreenActions
