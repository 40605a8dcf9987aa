import Mathlib.Data.List.Induction
import ScreenActions.Proofs.KeyedOrder
import ScreenActions.Scope

/-!
Values kept under widget trails. The key of a trail and a name spells both of them, so a store
answers like one with two keys: the longest part of a trail under which a name has a value counts.
-/

namespace ScreenActions

namespace ScopedStore

/-- A part of a key that has no separator in it. -/
def Unbarred (s : String) : Prop := '|' ∉ s.toList

instance (s : String) : Decidable (Unbarred s) := inferInstanceAs (Decidable (¬_))

/-- Each entry of the trail has a character, and none of them is the separator. -/
def PlainTrail (trail : List String) : Prop := ∀ entry ∈ trail, entry ≠ "" ∧ Unbarred entry

instance (trail : List String) : Decidable (PlainTrail trail) := List.decidableBAll _ trail

theorem PlainTrail.of_isPrefix {p t : List String} (ht : PlainTrail t) (hp : p <+: t) :
    PlainTrail p :=
  fun entry hentry => ht entry (hp.subset hentry)

theorem join_ne_empty {trail : List String} (ht : PlainTrail trail) (hne : trail ≠ []) :
    Text.join trailSeparator trail ≠ "" := by
  obtain ⟨entry, rest, rfl⟩ := List.exists_cons_of_ne_nil hne
  have hentry := (ht entry List.mem_cons_self).1
  cases rest with
  | nil => simpa [Text.join] using hentry
  | cons next rest => simp [Text.join, hentry]

/-- The name stands in the key like one more entry of the trail. -/
theorem trailKey_eq_join {trail : List String} (ht : PlainTrail trail) (name : String) :
    trailKey trail name = Text.join trailSeparator (trail ++ [name]) := by
  unfold trailKey
  by_cases hne : trail = []
  · simp [hne, Text.join]
  · have hjoin : (Text.join trailSeparator trail).isEmpty = false := by
      simpa using join_ne_empty ht hne
    simp only [hjoin]
    rw [Text.join, Text.join, String.intercalate_append_of_ne_nil hne (List.cons_ne_nil _ _),
      String.intercalate_singleton]
    rfl

theorem splitOn_trailKey {trail : List String} {name : String} (ht : PlainTrail trail)
    (hn : Unbarred name) :
    (trailKey trail name).toList.splitOn '|' = (trail ++ [name]).map String.toList := by
  rw [trailKey_eq_join ht, Text.join, String.toList_intercalate]
  refine List.splitOn_intercalate '|' ?_ (by simp)
  intro part hpart
  obtain ⟨entry, hentry, rfl⟩ := List.mem_map.mp hpart
  rcases List.mem_append.mp hentry with hentry | hentry
  · exact (ht entry hentry).2
  · exact List.mem_singleton.mp hentry ▸ hn

theorem trailKey_inj {trail trail' : List String} {name name' : String} (ht : PlainTrail trail)
    (ht' : PlainTrail trail') (hn : Unbarred name) (hn' : Unbarred name') :
    trailKey trail name = trailKey trail' name' ↔ trail = trail' ∧ name = name' := by
  constructor
  · intro h
    have hparts : (trail ++ [name]).map String.toList = (trail' ++ [name']).map String.toList := by
      rw [← splitOn_trailKey ht hn, ← splitOn_trailKey ht' hn', h]
    have hsame := List.map_injective_iff.mpr (fun _ _ => String.toList_inj.mp) hparts
    exact (List.append_inj' hsame rfl).imp_right fun h => (List.cons.inj h).1
  · rintro ⟨rfl, rfl⟩
    rfl

theorem get?_set (s : ScopedStore) (key : String) (v : Value) (key' : String) :
    (s.set key v).get? key' =
      if key = key' then (some v).filter (!·.isNull) else s.get? key' := by
  unfold set get?
  cases hv : v.isNull with
  | true => simp [Keyed.get?_erase, Option.filter, hv]
  | false => simp [Keyed.get?_insert, Option.filter, hv]

theorem mem_prefixes {p t : List String} : p ∈ prefixes t ↔ p <+: t := by
  unfold prefixes
  simp only [List.mem_map, List.mem_reverse, List.mem_range]
  constructor
  · rintro ⟨n, -, rfl⟩
    exact List.take_prefix n t
  · intro hp
    exact ⟨p.length, Nat.lt_succ_of_le hp.length_le, (List.prefix_iff_eq_take.mp hp).symm⟩

theorem pairwise_prefixes (t : List String) :
    (prefixes t).Pairwise fun p q => q.length < p.length := by
  unfold prefixes
  rw [List.pairwise_map, List.pairwise_reverse]
  refine (List.pairwise_lt_range).imp_of_mem ?_
  intro m n hm hn hlt
  have hn := List.mem_range.mp hn
  simp only [List.length_take]
  omega

/-- What is found first over the parts of a trail is what the longest of them has. -/
theorem findSome?_prefixes {α : Type} {f : List String → Option α} {t : List String} {a : α} :
    (prefixes t).findSome? f = some a ↔
      ∃ p, p <+: t ∧ f p = some a ∧ ∀ q, q <+: t → p.length < q.length → f q = none := by
  have hpair := pairwise_prefixes t
  rw [List.findSome?_eq_some_iff]
  constructor
  · rintro ⟨longer, p, shorter, heq, hp, hnone⟩
    refine ⟨p, mem_prefixes.mp (heq ▸ by simp), hp, fun q hq hlt => ?_⟩
    have hmem := mem_prefixes.mpr hq
    rw [heq] at hmem hpair
    rcases List.mem_append.mp hmem with hlonger | hrest
    · exact hnone q hlonger
    · rcases List.mem_cons.mp hrest with rfl | hshorter
      · omega
      · have := (List.pairwise_cons.mp (List.pairwise_append.mp hpair).2.1).1 q hshorter
        omega
  · rintro ⟨p, hp, ha, hnone⟩
    obtain ⟨longer, shorter, heq⟩ := List.append_of_mem (mem_prefixes.mpr hp)
    refine ⟨longer, p, shorter, heq, ha, fun q hq => ?_⟩
    rw [heq] at hpair
    exact hnone q (mem_prefixes.mp (heq ▸ by simp [hq]))
      ((List.pairwise_append.mp hpair).2.2 q hq p List.mem_cons_self)

/-- The store has the value under the name and the longest part of the trail that has one there. -/
def HasUnder (s : ScopedStore) (trail : List String) (name : String) (v : Value) : Prop :=
  ∃ p, p <+: trail ∧ (s.get? (trailKey p name) = some v ∧ v ≠ .null) ∧
    ∀ q, q <+: trail → p.length < q.length → ∀ u, s.get? (trailKey q name) = some u → u = .null

theorem filter_isNull_eq_some_iff {found : Option Value} {v : Value} :
    found.filter (!·.isNull) = some v ↔ found = some v ∧ v ≠ .null := by
  simp [Option.filter_eq_some_iff, ← Value.isNull_iff]

theorem filter_isNull_eq_none_iff {found : Option Value} :
    found.filter (!·.isNull) = none ↔ ∀ u, found = some u → u = .null := by
  simp [Option.filter_eq_none_iff, Value.isNull_iff]

theorem findInTrail?_eq_some_iff {s : ScopedStore} {trail : List String} {name : String}
    {v : Value} : s.findInTrail? trail name = some v ↔ s.HasUnder trail name v := by
  simp only [findInTrail?, findSome?_prefixes, filter_isNull_eq_some_iff,
    filter_isNull_eq_none_iff, HasUnder]

end ScopedStore

/-- A value written under a trail and a name. -/
structure TrailWrite where
  trail : List String
  name : String
  value : Value

namespace TrailWrite

open ScopedStore

def Plain (w : TrailWrite) : Prop := PlainTrail w.trail ∧ Unbarred w.name

instance (w : TrailWrite) : Decidable w.Plain := inferInstanceAs (Decidable (_ ∧ _))

def isUnder (trail : List String) (name : String) (w : TrailWrite) : Bool :=
  w.trail == trail && w.name == name

/-- The store after writes that were made one after the other on an empty one. -/
def store (writes : List TrailWrite) : ScopedStore :=
  writes.foldl (fun s w => s.set (trailKey w.trail w.name) w.value) []

/-- The value that was written last under a trail and a name. -/
def last? (writes : List TrailWrite) (trail : List String) (name : String) : Option Value :=
  ((writes.filter (isUnder trail name)).getLast?).map value

/-- The last value written under the trail and the name is this one and not null. -/
def Leaves (writes : List TrailWrite) (trail : List String) (name : String) (v : Value) : Prop :=
  last? writes trail name = some v ∧ v.isNull = false

theorem last?_concat (writes : List TrailWrite) (w : TrailWrite) (trail : List String)
    (name : String) : last? (writes ++ [w]) trail name =
      if isUnder trail name w then some w.value else last? writes trail name := by
  unfold last?
  by_cases h : isUnder trail name w = true
  · simp [h]
  · simp [h]

variable {writes : List TrailWrite} {trail : List String} {name : String}

/-- Each key holds what was last written under its trail and name, unless that is null. -/
theorem get?_store (hw : ∀ w ∈ writes, w.Plain) (ht : PlainTrail trail) (hn : Unbarred name) :
    (store writes).get? (trailKey trail name) =
      (last? writes trail name).filter (!·.isNull) := by
  induction writes using List.reverseRecOn with
  | nil => rfl
  | append_singleton writes w ih =>
    obtain ⟨hws, hw⟩ := List.forall_mem_append.mp hw
    obtain ⟨hwt, hwn⟩ := hw w List.mem_cons_self
    have hkey : trailKey w.trail w.name = trailKey trail name ↔ isUnder trail name w = true := by
      rw [trailKey_inj hwt ht hwn hn]
      simp [isUnder]
    rw [store, List.foldl_concat, get?_set, last?_concat]
    by_cases h : isUnder trail name w = true
    · rw [if_pos (hkey.mpr h), if_pos h]
    · rw [if_neg (mt hkey.mp h), if_neg h]
      exact ih hws

theorem filter_get?_store (hw : ∀ w ∈ writes, w.Plain) (ht : PlainTrail trail)
    (hn : Unbarred name) {v : Value} :
    ((store writes).get? (trailKey trail name)).filter (!·.isNull) = some v ↔
      Leaves writes trail name v := by
  rw [get?_store hw ht hn]
  simp [Option.filter_eq_some_iff, Leaves]

theorem filter_get?_store_eq_none (hw : ∀ w ∈ writes, w.Plain) (ht : PlainTrail trail)
    (hn : Unbarred name) :
    ((store writes).get? (trailKey trail name)).filter (!·.isNull) = none ↔
      ∀ v, ¬Leaves writes trail name v := by
  rw [Option.eq_none_iff_forall_ne_some]
  exact forall_congr' fun v => not_congr (filter_get?_store hw ht hn)

theorem findInTrail?_eq_some (hw : ∀ w ∈ writes, w.Plain) (ht : PlainTrail trail)
    (hn : Unbarred name) {v : Value} : findInTrail? (store writes) trail name = some v ↔
      ∃ p, p <+: trail ∧ Leaves writes p name v ∧
        ∀ q, q <+: trail → p.length < q.length → ∀ u, ¬Leaves writes q name u := by
  rw [findInTrail?, findSome?_prefixes]
  refine exists_congr fun p => and_congr_right fun hp =>
    and_congr (filter_get?_store hw (ht.of_isPrefix hp) hn) ?_
  exact forall₃_congr fun q hq _ => filter_get?_store_eq_none hw (ht.of_isPrefix hq) hn

/-- The write is under the name and a part of the trail. -/
def isAbove (trail : List String) (name : String) (w : TrailWrite) : Bool :=
  w.trail.isPrefixOf trail && w.name == name

theorem last?_filter_isAbove {p : List String} (hp : p <+: trail) :
    last? (writes.filter (isAbove trail name)) p name = last? writes p name := by
  have habove : ∀ w, isUnder p name w = true → isAbove trail name w = true := by
    intro w hw
    simp only [isUnder, Bool.and_eq_true, beq_iff_eq] at hw
    simp [isAbove, hw, hp]
  unfold last?
  rw [List.filter_filter]
  congr 3
  funext w
  exact Bool.and_eq_left_iff_imp.mpr (habove w)

theorem leaves_filter_isAbove {p : List String} (hp : p <+: trail) (v : Value) :
    Leaves (writes.filter (isAbove trail name)) p name v ↔ Leaves writes p name v := by
  rw [Leaves, last?_filter_isAbove hp, Leaves]

/-- A lookup finds the last value that was written under the name and the longest part of the trail
whose last value is not null, and nothing if there is no such part. Writes under other names, or
under trails that are no part of this one, play no role. -/
theorem findInTrail?_longest_part (hw : ∀ w ∈ writes, w.Plain) (ht : PlainTrail trail)
    (hn : Unbarred name) :
    (∀ v, findInTrail? (store writes) trail name = some v ↔
      ∃ p, p <+: trail ∧ Leaves writes p name v ∧
        ∀ q, q <+: trail → p.length < q.length → ∀ u, ¬Leaves writes q name u) ∧
      (findInTrail? (store writes) trail name = none ↔
        ∀ p, p <+: trail → ∀ v, ¬Leaves writes p name v) ∧
      findInTrail? (store (writes.filter (isAbove trail name))) trail name =
        findInTrail? (store writes) trail name := by
  refine ⟨fun v => findInTrail?_eq_some hw ht hn, ?_, ?_⟩
  · rw [findInTrail?, List.findSome?_eq_none_iff]
    simp only [mem_prefixes]
    exact forall₂_congr fun p hp => filter_get?_store_eq_none hw (ht.of_isPrefix hp) hn
  · have hfiltered : ∀ w ∈ writes.filter (isAbove trail name), w.Plain :=
      fun w hmem => hw w (List.mem_filter.mp hmem).1
    refine Option.ext fun v => ?_
    rw [findInTrail?_eq_some hfiltered ht hn, findInTrail?_eq_some hw ht hn]
    refine exists_congr fun p => and_congr_right fun hp =>
      and_congr (leaves_filter_isAbove hp v) ?_
    exact forall₄_congr fun q hq _ u => not_congr (leaves_filter_isAbove hq u)

/-- The null that is written last under the whole trail uncovers the value of a part of it. -/
theorem findInTrail?_longest_part_uncovered :
    let trail := ["Orders", "List"]
    let writes : List TrailWrite := [
      ⟨[], "page", .int 0⟩, ⟨["Orders"], "page", .int 1⟩, ⟨["Orders", "List"], "page", .int 2⟩,
      ⟨["Orders", "List"], "size", .int 3⟩, ⟨["List"], "page", .int 4⟩,
      ⟨["Orders", "List"], "page", .null⟩]
    (∀ w ∈ writes, w.Plain) ∧ PlainTrail trail ∧ Unbarred "page" ∧
      findInTrail? (store writes) trail "page" = some (.int 1) ∧
      (∃ p, p <+: trail ∧ Leaves writes p "page" (.int 1) ∧
        ∀ q, q <+: trail → p.length < q.length → ∀ u, ¬Leaves writes q "page" u) ∧
      findInTrail? (store writes) ["Items"] "size" = none ∧
      (∀ p, p <+: ["Items"] → ∀ v, ¬Leaves writes p "size" v) ∧
      findInTrail? (store (writes.filter (isAbove trail "page"))) trail "page" = some (.int 1) := by
  intro trail writes
  have hw : ∀ w ∈ writes, w.Plain := by decide +kernel
  have ht : PlainTrail trail := by decide +kernel
  have hn : Unbarred "page" := by decide +kernel
  have hfound : findInTrail? (store writes) trail "page" = some (.int 1) := by rfl
  have hnone : findInTrail? (store writes) ["Items"] "size" = none := by rfl
  obtain ⟨hsome, -, hfilter⟩ := findInTrail?_longest_part hw ht hn
  have hmissing : findInTrail? (store writes) ["Items"] "size" = none ↔
      ∀ p, p <+: ["Items"] → ∀ v, ¬Leaves writes p "size" v :=
    (findInTrail?_longest_part hw (by decide +kernel) (by decide +kernel)).2.1
  exact ⟨hw, ht, hn, hfound, (hsome _).mp hfound, hnone, hmissing.mp hnone, hfilter.trans hfound⟩

end TrailWrite
end ScreenActions
