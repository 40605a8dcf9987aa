import ScreenActions.Proofs.BundleViews
import ScreenActions.Proofs.PathLens

/-!
Message maps on the way of a path. Reading with messages finds what plain reading finds, and besides
that only the message of a last key after a message map.
-/

namespace ScreenActions

namespace Value

/-- The message map is the value, or that of one of its members. -/
inductive Reaches : Value → BundleHandle → Prop
  | self (h : BundleHandle) : Reaches (.bundle h) h
  | member {v child : Value} {seg : PathSegment} {h : BundleHandle} :
      v.member? seg = some child → Reaches child h → Reaches v h

theorem reaches_of_get? {v : Value} {segs : List PathSegment} {h : BundleHandle}
    (hget : v.get? segs = some (.bundle h)) : v.Reaches h := by
  induction segs generalizing v with
  | nil =>
    obtain rfl := Option.some.inj hget
    exact .self h
  | cons seg rest ih =>
    obtain ⟨child, hmember, hchild⟩ := Option.bind_eq_some_iff.mp hget
    exact .member hmember (ih hchild)

/-- The segments lead to a message map and end in a key after it, whose message is the value. -/
def MessageAt (heap : BundleHeap) (v : Value) (segs : List PathSegment) (x : Value) : Prop :=
  ∃ init key h message, segs = init ++ [.key key] ∧ v.get? init = some (.bundle h) ∧
    (heap.stack h).TopMessage key message ∧ x = .text message

variable {heap : BundleHeap} {v x : Value} {seg : PathSegment} {rest segs : List PathSegment}

theorem not_messageAt_nil : ¬v.MessageAt heap [] x := by
  rintro ⟨init, key, h, message, hsegs, -⟩
  exact List.append_ne_nil_of_right_ne_nil init (List.cons_ne_nil _ _) hsegs.symm

/-- The message is that of the value itself, or is found from a member on. -/
theorem messageAt_cons_iff : v.MessageAt heap (seg :: rest) x ↔
    (∃ key h message, v = .bundle h ∧ seg = .key key ∧ rest = [] ∧
      (heap.stack h).TopMessage key message ∧ x = .text message) ∨
    ∃ child, v.member? seg = some child ∧ child.MessageAt heap rest x := by
  constructor
  · rintro ⟨init, key, h, message, hsegs, hget, htop, rfl⟩
    cases init with
    | nil =>
      obtain ⟨rfl, rfl⟩ := List.cons.inj hsegs
      exact .inl ⟨key, h, message, Option.some.inj hget, rfl, rfl, htop, rfl⟩
    | cons seg' init =>
      obtain ⟨rfl, rfl⟩ := List.cons.inj hsegs
      obtain ⟨child, hmember, hchild⟩ := Option.bind_eq_some_iff.mp hget
      exact .inr ⟨child, hmember, init, key, h, message, rfl, hchild, htop, rfl⟩
  · rintro (⟨key, h, message, rfl, rfl, rfl, htop, rfl⟩ |
      ⟨child, hmember, init, key, h, message, rfl, hchild, htop, rfl⟩)
    · exact ⟨[], key, h, message, rfl, rfl, htop, rfl⟩
    · exact ⟨seg :: init, key, h, message, rfl,
        Option.bind_eq_some_iff.mpr ⟨child, hmember, hchild⟩, htop, rfl⟩

/-- A message map has no members, and gives a message for a last key only. -/
theorem resolve?_bundle_eq_some_iff {h : BundleHandle} :
    (bundle h).resolve? heap (seg :: rest) = some x ↔ ∃ key message,
      seg = .key key ∧ rest = [] ∧ (heap.stack h).TopMessage key message ∧ x = .text message := by
  cases seg with
  | key key =>
    cases rest with
    | nil =>
      rw [show (bundle h).resolve? heap [.key key] = (heap.message? h key).map .text from rfl,
        Option.map_eq_some_iff]
      constructor
      · rintro ⟨message, hmessage, rfl⟩
        exact ⟨key, message, rfl, rfl, BundleStack.get?_eq_some_iff.mp hmessage, rfl⟩
      · rintro ⟨_, message, hkey, -, htop, rfl⟩
        cases hkey
        exact ⟨message, BundleStack.get?_eq_some_iff.mpr htop, rfl⟩
    | cons seg' rest => simp [resolve?]
  | index i => simp [resolve?, member?]
  | append => simp [resolve?, member?]

theorem resolve?_eq_some_iff :
    v.resolve? heap segs = some x ↔ v.get? segs = some x ∨ v.MessageAt heap segs x := by
  induction segs generalizing v with
  | nil => exact ⟨.inl, fun h => h.resolve_right not_messageAt_nil⟩
  | cons seg rest ih =>
    rw [messageAt_cons_iff]
    cases hv : v.bundle? with
    | none =>
      have hbundle : ∀ h, v ≠ .bundle h := by
        rintro h rfl
        cases hv
      rw [(descends_resolve? heap).cons hv, get?]
      simp only [Option.bind_eq_some_iff, ih, hbundle, false_and, exists_false, false_or]
      constructor
      · rintro ⟨child, hmember, hchild | hchild⟩
        · exact .inl ⟨child, hmember, hchild⟩
        · exact .inr ⟨child, hmember, hchild⟩
      · rintro (⟨child, hmember, hchild⟩ | ⟨child, hmember, hchild⟩)
        · exact ⟨child, hmember, .inl hchild⟩
        · exact ⟨child, hmember, .inr hchild⟩
    | some h =>
      obtain rfl : v = .bundle h := by
        cases v <;> cases hv
        rfl
      rw [resolve?_bundle_eq_some_iff]
      simp [get?, member?]

theorem get?_eq_none_of_messageAt (h : v.MessageAt heap segs x) : v.get? segs = none := by
  obtain ⟨init, key, k, message, rfl, hget, -⟩ := h
  induction init generalizing v with
  | nil =>
    obtain rfl := Option.some.inj hget
    rfl
  | cons seg init ih =>
    obtain ⟨child, hmember, hchild⟩ := Option.bind_eq_some_iff.mp hget
    exact Option.bind_eq_none_iff.mpr fun child' hmember' =>
      Option.some.inj (hmember.symm.trans hmember') ▸ ih hchild

end Value

/-- The message map can be got from a field of one of the layers or of the global map. -/
def Context.Reaches (c : Context) (h : BundleHandle) : Prop :=
  ∃ m ∈ c.maps, ∃ key v, Keyed.get? m key = some v ∧ v.Reaches h

theorem Context.reaches_of_get? {p : FieldPath} {c : Context} {h : BundleHandle}
    (hget : p.get? c = some (.bundle h)) : c.Reaches h := by
  obtain ⟨root, rest, v, -, hlookup, hv⟩ := FieldPath.exists_of_get?_eq_some hget
  have hfound : c.maps.findSome? (Keyed.get? · root) = some v := c.get?_eq_findSome? root ▸ hlookup
  obtain ⟨m, hm, hkey⟩ := List.exists_of_findSome?_eq_some hfound
  exact ⟨m, hm, root, v, hkey, Value.reaches_of_get? hv⟩

namespace FieldPath

open FieldStore (lookup)

variable {σ : Type} [FieldStore σ]

/-- The last segment of the path is a key, the path before it reads a message map, and the value is
the message for the key of the topmost bundle that has it. -/
def MessageAt (p : FieldPath) (heap : BundleHeap) (s : σ) (v : Value) : Prop :=
  ∃ (q : FieldPath) (key : String) (h : BundleHandle) (message : String),
    p.segments = q.segments ++ [.key key] ∧ q.get? s = some (.bundle h) ∧
      (heap.stack h).TopMessage key message ∧ v = .text message

/-- No field that is found is a message map or leads to one. -/
def FreeOfMessages (s : σ) : Prop := ∀ key v, lookup s key = some v → ∀ h, ¬v.Reaches h

variable {p : FieldPath} {heap : BundleHeap} {s : σ} {v : Value}

theorem messageAt_iff : p.MessageAt heap s v ↔ ∃ root rest t, p.root? = some (root, rest) ∧
    lookup s root = some t ∧ t.MessageAt heap rest v := by
  constructor
  · rintro ⟨q, key, h, message, hsegments, hget, htop, rfl⟩
    obtain ⟨root, init, t, hq, ht, hinit⟩ := exists_of_get?_eq_some hget
    have hp : p.root? = some (root, init ++ [.key key]) := by
      rw [root?, hsegments, segments_of_root hq]
      rfl
    exact ⟨root, _, t, hp, ht, init, key, h, message, rfl, hinit, htop, rfl⟩
  · rintro ⟨root, rest, t, hp, ht, init, key, h, message, rfl, hinit, htop, rfl⟩
    refine ⟨⟨p.text, .key root :: init⟩, key, h, message, segments_of_root hp, ?_, htop, rfl⟩
    simp [get?, root?, ht, hinit]

theorem getValue?_eq_some_iff :
    p.getValue? heap s = some v ↔ p.get? s = some v ∨ p.MessageAt heap s v := by
  simp only [getValue?, get?, messageAt_iff, Option.bind_eq_some_iff, Value.resolve?_eq_some_iff]
  constructor
  · rintro ⟨⟨root, rest⟩, hroot, t, ht, hread | hread⟩
    · exact .inl ⟨(root, rest), hroot, t, ht, hread⟩
    · exact .inr ⟨root, rest, t, hroot, ht, hread⟩
  · rintro (⟨root, hroot, t, ht, hread⟩ | ⟨root, rest, t, hroot, ht, hread⟩)
    · exact ⟨root, hroot, t, ht, .inl hread⟩
    · exact ⟨(root, rest), hroot, t, ht, .inr hread⟩

theorem get?_eq_none_of_messageAt (h : p.MessageAt heap s v) : p.get? s = none := by
  obtain ⟨root, rest, t, hroot, ht, hmessage⟩ := messageAt_iff.mp h
  simp [get?, hroot, ht, Value.get?_eq_none_of_messageAt hmessage]

theorem FreeOfMessages.not_messageAt (h : FreeOfMessages s) : ¬p.MessageAt heap s v := by
  rintro ⟨q, key, k, message, -, hget, -⟩
  obtain ⟨root, rest, t, -, ht, hbundle⟩ := exists_of_get?_eq_some hget
  exact h root t ht k (Value.reaches_of_get? hbundle)

/-- Reading with messages finds what plain reading finds. Where that finds nothing it finds exactly
the messages of last keys after message maps, and so nothing more in what holds no message map. -/
theorem getValue?_adds_messages (p : FieldPath) (heap : BundleHeap) (s : σ) :
    (∀ v, p.get? s = some v → p.getValue? heap s = some v) ∧
    (p.get? s = none → ∀ v, p.getValue? heap s = some v ↔ p.MessageAt heap s v) ∧
    (∀ v, p.MessageAt heap s v → p.get? s = none) ∧
    (FreeOfMessages s → p.getValue? heap s = p.get? s) := by
  refine ⟨fun v h => getValue?_eq_some_iff.mpr (.inl h), fun hnone v => ?_,
    fun v => get?_eq_none_of_messageAt, fun hfree => Option.ext fun v => ?_⟩
  · rw [getValue?_eq_some_iff, hnone]
    simp
  · rw [getValue?_eq_some_iff]
    exact or_iff_left hfree.not_messageAt

/-- The labels are two bundles, and the upper one has the title. -/
example :
    let heap : BundleHeap :=
      [[⟨"OrderUi", none, [("title", "Order")]⟩, ⟨"CommonUi", none, [("title", "Common")]⟩]]
    let m : ValueMap := [("labels", .bundle 0)]
    (ofText "labels.title").get? m = none ∧
      (ofText "labels.title").getValue? heap m = some (.text "Order") ∧
      (ofText "labels.title.x").getValue? heap m = none :=
  ⟨rfl, rfl, rfl⟩

end FieldPath
end ScreenActions
