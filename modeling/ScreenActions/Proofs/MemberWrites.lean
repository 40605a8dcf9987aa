import ScreenActions.FieldPath
import ScreenActions.Proofs.KeyedOrder

/-!
Writing inside a value, member by member. What can be put in place as a member of a value is found
there again, replaces what was there before and leaves the other members, and so does what is
written at the end of a path of members.
-/

namespace ScreenActions.Value

/-- The value that is written into: null becomes a container of the right kind. -/
def opened (v : Value) (seg : PathSegment) : Value := if v.isNull then emptyContainer seg else v

/-- The member that is written into; a new one is null at first. -/
def entered (v : Value) (seg : PathSegment) : Value := ((v.opened seg).member? seg).getD .null

/-- The value with one member in place. A list also takes an item after its last one. -/
def setMember? : Value → PathSegment → Value → Option Value
  | .map entries, .key k, child => some (.map (Keyed.insert k child entries))
  | .entity name fields, .key k, child => some (.entity name (Keyed.insert k child fields))
  | .list items, .index i, child =>
      if i < items.length then some (.list (items.set i child))
      else if i = items.length then some (.list (items ++ [child]))
      else none
  | .list items, .append, child => some (.list (items ++ [child]))
  | _, _, _ => none

section Members

variable {v v' x : Value} {seg : PathSegment}

theorem setMember?_cases (h : v.setMember? seg x = some v') :
    (∃ entries k, v = .map entries ∧ seg = .key k ∧ v' = .map (Keyed.insert k x entries)) ∨
    (∃ name fields k, v = .entity name fields ∧ seg = .key k ∧
      v' = .entity name (Keyed.insert k x fields)) ∨
    (∃ items i, v = .list items ∧ seg = .index i ∧ i < items.length ∧
      v' = .list (items.set i x)) ∨
    ∃ items, v = .list items ∧ (seg = .index items.length ∨ seg = .append) ∧
      v' = .list (items ++ [x]) := by
  unfold setMember? at h
  split at h
  · exact .inl ⟨_, _, rfl, rfl, (Option.some.inj h).symm⟩
  · exact .inr (.inl ⟨_, _, _, rfl, rfl, (Option.some.inj h).symm⟩)
  · split at h
    · next hi => exact .inr (.inr (.inl ⟨_, _, rfl, rfl, hi, (Option.some.inj h).symm⟩))
    · split at h
      · next hi => exact .inr (.inr (.inr ⟨_, rfl, .inl (hi ▸ rfl), (Option.some.inj h).symm⟩))
      · cases h
  · exact .inr (.inr (.inr ⟨_, rfl, .inr rfl, (Option.some.inj h).symm⟩))
  · cases h

theorem isNull_of_setMember? (h : v.setMember? seg x = some v') : v'.isNull = false := by
  obtain ⟨_, _, -, -, rfl⟩ | ⟨_, _, _, -, -, rfl⟩ | ⟨_, _, -, -, -, rfl⟩ | ⟨_, -, -, rfl⟩ :=
    setMember?_cases h <;> rfl

theorem bundle?_of_setMember? (h : v.setMember? seg x = some v') :
    v.bundle? = none ∧ v'.bundle? = none := by
  obtain ⟨_, _, rfl, -, rfl⟩ | ⟨_, _, _, rfl, -, rfl⟩ | ⟨_, _, rfl, -, -, rfl⟩ |
    ⟨_, rfl, -, rfl⟩ := setMember?_cases h <;> exact ⟨rfl, rfl⟩

theorem ne_of_setMember?_append (h : v.setMember? .append x = some v') : v' ≠ v := by
  obtain ⟨_, _, -, hseg, -⟩ | ⟨_, _, _, -, hseg, -⟩ | ⟨_, _, -, hseg, -, -⟩ |
    ⟨items, rfl, -, rfl⟩ := setMember?_cases h
  · cases hseg
  · cases hseg
  · cases hseg
  · simp

theorem member?_of_setMember? (hseg : seg ≠ .append) (h : v.setMember? seg x = some v') :
    v'.member? seg = some x := by
  obtain ⟨entries, k, rfl, rfl, rfl⟩ | ⟨name, fields, k, rfl, rfl, rfl⟩ |
    ⟨items, i, rfl, rfl, hi, rfl⟩ | ⟨items, rfl, rfl | rfl, rfl⟩ := setMember?_cases h
  · simp [member?]
  · simp [member?]
  · simp [member?, hi]
  · simp [member?]
  · exact absurd rfl hseg

theorem member?_of_setMember?_of_ne (hseg : seg ≠ .append) {seg' : PathSegment} (hne : seg ≠ seg')
    (h : v.setMember? seg x = some v') : v'.member? seg' = v.member? seg' := by
  obtain ⟨entries, k, rfl, rfl, rfl⟩ | ⟨name, fields, k, rfl, rfl, rfl⟩ |
    ⟨items, i, rfl, rfl, hi, rfl⟩ | ⟨items, rfl, rfl | rfl, rfl⟩ := setMember?_cases h
  · cases seg' with
    | key k' => exact Keyed.get?_insert_of_ne _ _ fun hk => hne (congrArg _ hk)
    | index _ => rfl
    | append => rfl
  · cases seg' with
    | key k' => exact Keyed.get?_insert_of_ne _ _ fun hk => hne (congrArg _ hk)
    | index _ => rfl
    | append => rfl
  · cases seg' with
    | key _ => rfl
    | index j =>
      have hij : i ≠ j := fun hij => hne (congrArg _ hij)
      exact List.getElem?_set_ne hij
    | append => rfl
  · cases seg' with
    | key _ => rfl
    | index j =>
      have hj : items.length ≠ j := fun hj => hne (congrArg _ hj)
      change (items ++ [x])[j]? = items[j]?
      rcases Nat.lt_or_gt_of_ne hj with hj | hj
      · rw [List.getElem?_eq_none (by simp; omega), List.getElem?_eq_none (by omega)]
      · rw [List.getElem?_append_left hj]
    | append => rfl
  · exact absurd rfl hseg

/-- What was in place of the member before does not matter. -/
theorem setMember?_of_setMember? (hseg : seg ≠ .append) (h : v.setMember? seg x = some v')
    (y : Value) : v'.setMember? seg y = v.setMember? seg y := by
  obtain ⟨entries, k, rfl, rfl, rfl⟩ | ⟨name, fields, k, rfl, rfl, rfl⟩ |
    ⟨items, i, rfl, rfl, hi, rfl⟩ | ⟨items, rfl, rfl | rfl, rfl⟩ := setMember?_cases h
  · simp [setMember?, Keyed.insert_insert]
  · simp [setMember?, Keyed.insert_insert]
  · simp [setMember?, hi]
  · simp [setMember?]
  · exact absurd rfl hseg

/-- A member of a value can be put in place again, and this changes nothing. -/
theorem setMember?_of_member? (h : v.member? seg = some x) :
    v.setMember? seg x = some v := by
  fun_cases member? v seg with
  | case1 entries k =>
    have hset : Keyed.insert k x entries = entries := Keyed.insert_of_get? h
    rw [setMember?, hset]
  | case2 name fields k =>
    have hset : Keyed.insert k x fields = fields := Keyed.insert_of_get? h
    rw [setMember?, hset]
  | case3 items i =>
    obtain ⟨hi, rfl⟩ := List.getElem?_eq_some_iff.mp h
    rw [setMember?, if_pos hi, List.set_getElem_self]
  | case4 v seg hmap hentity hlist =>
    rw [member?] at h
    · cases h
    all_goals assumption

theorem setMember?_isSome_of_member? (h : v.member? seg = some x) (y : Value) :
    (v.setMember? seg y).isSome = true := by
  fun_cases member? v seg with
  | case1 => rfl
  | case2 => rfl
  | case3 items i =>
    have hi : i < items.length := (List.getElem?_eq_some_iff.mp h).1
    rw [setMember?, if_pos hi]
    rfl
  | case4 v seg hmap hentity hlist =>
    rw [member?] at h
    · cases h
    all_goals assumption

theorem isNull_opened (v : Value) (seg : PathSegment) : (v.opened seg).isNull = false := by
  cases v with
  | null => cases seg <;> rfl
  | _ => rfl

theorem entered_of_member? (h : v.member? seg = some x) :
    v.opened seg = v ∧ v.entered seg = x := by
  have hopened : v.opened seg = v := by
    cases v with
    | null => cases h
    | _ => rfl
  rw [entered, hopened, h]
  exact ⟨rfl, rfl⟩

/-- A step of writing either puts the member in place or ends the writing with an error. -/
theorem put_cons (path : String) (new v : Value) (seg : PathSegment) (rest : List PathSegment) :
    (∃ v', (v.opened seg).setMember? seg (put path new rest (v.entered seg)).1 = some v' ∧
      put path new (seg :: rest) v = (v', (put path new rest (v.entered seg)).2)) ∨
    (v.opened seg).setMember? seg (put path new rest (v.entered seg)).1 = none ∧
      ∃ e, put path new (seg :: rest) v = (v.opened seg, .error e) := by
  have hopened : (if v.isNull then emptyContainer seg else v) = v.opened seg := rfl
  rw [put.eq_def path new (seg :: rest) v]
  dsimp only
  rw [hopened]
  unfold entered
  generalize v.opened seg = c
  split
  · next k entries => exact .inl ⟨_, rfl, rfl⟩
  · next k name fields => exact .inl ⟨_, rfl, rfl⟩
  · next i items =>
    rcases Nat.lt_trichotomy i items.length with hi | rfl | hi
    · left
      simp [setMember?, member?, hi, Nat.le_of_lt hi, Nat.ne_of_lt hi]
    · left
      simp [setMember?, member?]
    · right
      simp [setMember?, Nat.not_le_of_lt hi, Nat.not_lt_of_lt hi, Nat.ne_of_gt hi]
  · next items => exact .inl ⟨_, rfl, rfl⟩
  · next hmap hentity hlist happend =>
    refine .inr ⟨?_, _, rfl⟩
    rw [setMember?]
    · exact fun entries k hc hk => hmap k entries hk hc
    · exact fun name fields k hc hk => hentity k name fields hk hc
    · exact fun items i hc hi => hlist i items hi hc
    · exact fun items hc hi => happend items hi hc

theorem put_cons_of_setMember? {path : String} {new : Value} {rest : List PathSegment}
    (h : (v.opened seg).setMember? seg (put path new rest (v.entered seg)).1 = some v') :
    put path new (seg :: rest) v = (v', (put path new rest (v.entered seg)).2) := by
  rcases put_cons path new v seg rest with ⟨w, hw, hput⟩ | ⟨hnone, -⟩
  · rw [hput, Option.some.inj (hw.symm.trans h)]
  · rw [h] at hnone
    cases hnone

theorem isNull_put_cons (path : String) (new v : Value) (seg : PathSegment)
    (rest : List PathSegment) : (put path new (seg :: rest) v).1.isNull = false := by
  rcases put_cons path new v seg rest with ⟨v', hset, hput⟩ | ⟨-, e, hput⟩
  · rw [hput]
    exact isNull_of_setMember? hset
  · rw [hput]
    exact isNull_opened v seg

end Members

/-- A way of reading that goes from member to member; what it does at message maps is its own. -/
structure Descends (read : Value → List PathSegment → Option Value) : Prop where
  nil : ∀ v, read v [] = some v
  cons : ∀ {v}, v.bundle? = none → ∀ seg rest,
    read v (seg :: rest) = (v.member? seg).bind (read · rest)

theorem descends_get? : Descends get? := ⟨fun _ => rfl, fun _ _ _ => rfl⟩

theorem descends_resolve? (heap : BundleHeap) : Descends (resolve? heap) := by
  refine ⟨fun _ => rfl, fun {v} hv seg rest => ?_⟩
  cases v with
  | bundle h => cases hv
  | _ => rfl

section Paths

variable {read : Value → List PathSegment → Option Value} {path : String}
  {segs : List PathSegment}

theorem Descends.read_null (hread : Descends read) (h : segs ≠ []) : read .null segs = none := by
  obtain ⟨seg, rest, rfl⟩ := List.exists_cons_of_ne_nil h
  rw [hread.cons rfl]
  rfl

/-- Nothing is found in a container that is made for writing. -/
theorem Descends.read_opened (hread : Descends read) (v : Value) (seg : PathSegment)
    (h : segs ≠ []) : read (v.opened seg) segs = read v segs := by
  cases v with
  | null =>
    obtain ⟨seg', rest, rfl⟩ := List.exists_cons_of_ne_nil h
    rw [hread.read_null h]
    cases seg with
    | key k =>
      rw [show null.opened (.key k) = .map [] from rfl, hread.cons rfl]
      cases seg' <;> rfl
    | index i =>
      rw [show null.opened (.index i) = .list [] from rfl, hread.cons rfl]
      cases seg' <;> rfl
    | append =>
      rw [show null.opened .append = .list [] from rfl, hread.cons rfl]
      cases seg' <;> rfl
  | _ => rfl

/-- What is written at a path is read there. -/
theorem read_put (hread : Descends read) {new v : Value} (happend : .append ∉ segs)
    (h : (put path new segs v).2 = .ok ()) : read (put path new segs v).1 segs = some new := by
  induction segs generalizing v with
  | nil => exact hread.nil new
  | cons seg rest ih =>
    obtain ⟨hseg, hrest⟩ := List.ne_and_not_mem_of_not_mem_cons happend
    rcases put_cons path new v seg rest with ⟨v', hset, hput⟩ | ⟨-, e, hput⟩
    · rw [hput] at h ⊢
      rw [hread.cons (bundle?_of_setMember? hset).2, member?_of_setMember? (Ne.symm hseg) hset]
      exact ih hrest h
    · rw [hput] at h
      cases h

/-- A second value at a path is written as if the first one had not been. -/
theorem put_put {v first : Value} (happend : .append ∉ segs)
    (h : (put path first segs v).2 = .ok ()) (second : Value) :
    put path second segs (put path first segs v).1 = ((put path second segs v).1, .ok ()) := by
  induction segs generalizing v with
  | nil => rfl
  | cons seg rest ih =>
    obtain ⟨hseg, hrest⟩ := List.ne_and_not_mem_of_not_mem_cons happend
    rcases put_cons path first v seg rest with ⟨v', hset, hput⟩ | ⟨-, e, hput⟩
    · rw [hput] at h ⊢
      have hmember := member?_of_setMember? (Ne.symm hseg) hset
      obtain ⟨hopened, hentered⟩ := entered_of_member? hmember
      have hchild := ih hrest h
      obtain ⟨w, hw⟩ := Option.isSome_iff_exists.mp
        (setMember?_isSome_of_member? hmember (put path second rest (v.entered seg)).1)
      have hagain : (v'.opened seg).setMember? seg (put path second rest (v'.entered seg)).1 =
          some w := by
        rw [hentered, hchild, hopened, hw]
      have hsecond : put path second (seg :: rest) v' = (w, .ok ()) := by
        rw [put_cons_of_setMember? hagain, hentered, hchild]
      rw [hsecond, put_cons_of_setMember? (setMember?_of_setMember? (Ne.symm hseg) hset _ ▸ hw)]
    · rw [hput] at h
      cases h

/-- Writing where nothing but null is found changes the value. -/
theorem put_ne {new v : Value} (hnew : new.isNull = false) (hv : (v.get? segs).all isNull = true)
    (h : (put path new segs v).2 = .ok ()) : (put path new segs v).1 ≠ v := by
  induction segs generalizing v with
  | nil =>
    intro (heq : new = v)
    change v.isNull = true at hv
    rw [← heq, hnew] at hv
    cases hv
  | cons seg rest ih =>
    rcases put_cons path new v seg rest with ⟨v', hset, hput⟩ | ⟨-, e, hput⟩
    · rw [hput] at h ⊢
      intro (heq : v' = v)
      subst heq
      have hopened : v'.opened seg = v' := if_neg (by simp [isNull_of_setMember? hset])
      rw [hopened] at hset
      by_cases hseg : seg = .append
      · subst hseg
        exact ne_of_setMember?_append hset rfl
      -- The member is there already, and is what was written into it: the case of the rest.
      · have hmember := member?_of_setMember? hseg hset
        have hentered := (entered_of_member? hmember).2
        have hrest : ((v'.entered seg).get? rest).all isNull = true := by
          rw [get?, hmember, ← hentered] at hv
          exact hv
        exact ih hrest h hentered.symm
    · rw [hput] at h
      cases h

/-- Writing what is read at a path changes nothing. -/
theorem put_of_get? {v new : Value} (h : v.get? segs = some new) :
    put path new segs v = (v, .ok ()) := by
  induction segs generalizing v with
  | nil => rw [← Option.some.inj h, put]
  | cons seg rest ih =>
    obtain ⟨child, hmember, hchild⟩ := Option.bind_eq_some_iff.mp h
    obtain ⟨hopened, hentered⟩ := entered_of_member? hmember
    have hput := ih hchild
    have hset : (v.opened seg).setMember? seg (put path new rest (v.entered seg)).1 = some v := by
      rw [hentered, hput, hopened, setMember?_of_member? hmember]
    rw [put_cons_of_setMember? hset, hentered, hput]

/-- Writing at a path leaves what is read where neither path goes on from the other. -/
theorem read_put_of_apart (hread : Descends read) (new : Value) {v : Value}
    {segs' : List PathSegment} (happend : .append ∉ segs) (h : ¬segs <+: segs')
    (h' : ¬segs' <+: segs) : read (put path new segs v).1 segs' = read v segs' := by
  induction segs generalizing v segs' with
  | nil => exact absurd List.nil_prefix h
  | cons seg rest ih =>
    obtain ⟨hseg, hrest⟩ := List.ne_and_not_mem_of_not_mem_cons happend
    obtain _ | ⟨seg', rest'⟩ := segs'
    · exact absurd List.nil_prefix h'
    rcases put_cons path new v seg rest with ⟨v', hset, hput⟩ | ⟨-, e, hput⟩
    · rw [hput, ← hread.read_opened v seg (List.cons_ne_nil _ _),
        hread.cons (bundle?_of_setMember? hset).1, hread.cons (bundle?_of_setMember? hset).2]
      by_cases heq : seg = seg'
      · subst heq
        have hrest' : rest' ≠ [] := by
          rintro rfl
          exact h' (List.cons_prefix_cons.mpr ⟨rfl, List.nil_prefix⟩)
        have hchild := ih (v := v.entered seg) hrest
          (fun hp => h (List.cons_prefix_cons.mpr ⟨rfl, hp⟩))
          (fun hp => h' (List.cons_prefix_cons.mpr ⟨rfl, hp⟩))
        rw [member?_of_setMember? (Ne.symm hseg) hset, Option.bind_some, hchild, entered]
        cases (v.opened seg).member? seg with
        | none => exact hread.read_null hrest'
        | some child => rfl
      · rw [member?_of_setMember?_of_ne (Ne.symm hseg) heq hset]
    · rw [hput, hread.read_opened v seg (List.cons_ne_nil _ _)]

end Paths

end ScreenActions.Value
