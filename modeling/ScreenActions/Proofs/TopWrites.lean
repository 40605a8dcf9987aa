import ScreenActions.Proofs.KeyedOrder
import ScreenActions.Proofs.Step

/-!
Writes that stay in the top layer: those of a field, and those that go on from a field which the top
layer has or which is made there.
-/

namespace ScreenActions

namespace Context

/-- The second context differs from the first in its top layer only, and has all fields there that
the first one has. -/
structure OnlyTop (c c' : Context) : Prop where
  below : c'.below = c.below
  global : c'.global = c.global
  keeps : ∀ key, Keyed.contains c.top key = true → Keyed.contains c'.top key = true

theorem OnlyTop.refl (c : Context) : c.OnlyTop c := ⟨rfl, rfl, fun _ h => h⟩

theorem OnlyTop.trans {c c' c'' : Context} (h : c.OnlyTop c') (h' : c'.OnlyTop c'') :
    c.OnlyTop c'' :=
  ⟨h'.below.trans h.below, h'.global.trans h.global, fun key hc => h'.keeps key (h.keeps key hc)⟩

theorem onlyTop_insert (c : Context) (key : String) (v : Value) : c.OnlyTop (c.insert key v) :=
  ⟨rfl, rfl, fun _ h => Keyed.contains_insert key v h⟩

theorem onlyTop_extend (c : Context) (m : ValueMap) : c.OnlyTop (c.extend m) :=
  ⟨rfl, rfl, fun _ h => Keyed.contains_extend m h⟩

theorem onlyTop_replace {c : Context} {key : String} (v : Value)
    (h : Keyed.contains c.top key = true) : c.OnlyTop (c.replace key v) := by
  unfold replace
  rw [if_pos h]
  exact c.onlyTop_insert key v

/-- A field that only the lower layers and the global map have reads the same. -/
theorem OnlyTop.get?_eq {c c' : Context} (h : c.OnlyTop c') {key : String}
    (hkey : Keyed.contains c'.top key = false) : c'.get? key = c.get? key := by
  have hkey' : Keyed.contains c.top key = false := by
    cases hc : Keyed.contains c.top key with
    | false => rfl
    | true => exact absurd (h.keeps key hc) (by rw [hkey]; decide)
  simp only [Keyed.contains, Option.isSome_eq_false_iff, Option.isNone_iff_eq_none] at hkey hkey'
  simp only [get?, stack, List.findSome?_cons, hkey, hkey', h.below, h.global]

/-- A map under the name is one of the top layer. -/
def MapAtTop (c : Context) (key : String) : Prop :=
  ∀ m, c.get? key = some (.map m) → Keyed.contains c.top key = true

theorem OnlyTop.mapAtTop {c c' : Context} (h : c.OnlyTop c') {key : String}
    (hkey : c.MapAtTop key) : c'.MapAtTop key := by
  intro m hm
  cases hc : Keyed.contains c'.top key with
  | true => rfl
  | false =>
    rw [h.get?_eq hc] at hm
    rw [h.keeps key (hkey m hm)] at hc
    exact hc.symm

/-- A path that names a field, or goes on from a field that the top layer has or that is to be made
because nothing but null is visible under its name. -/
def StartsAtTop (c : Context) (p : FieldPath) : Prop :=
  ∀ root seg rest, p.root? = some (root, seg :: rest) →
    Keyed.contains c.top root = true ∨ (c.get? root).all Value.isNull = true

/-- Writing at a path that starts in the top layer leaves the lower layers and the global map. -/
theorem onlyTop_put {c : Context} {p : FieldPath} (h : c.StartsAtTop p) (v : Value) :
    c.OnlyTop (p.put c v).1 := by
  unfold FieldPath.put
  rcases hroot : p.root? with _ | ⟨root, _ | ⟨seg, rest⟩⟩
  · exact .refl c
  · exact c.onlyTop_insert root v
  dsimp only
  have hmade : ∀ c', c' = (if (c.get? root).all Value.isNull then
      c.insert root (Value.emptyContainer seg) else c) →
      c.OnlyTop c' ∧ Keyed.contains c'.top root = true := by
    rintro c' rfl
    split
    · exact ⟨c.onlyTop_insert _ _, Keyed.contains_insert_self _ _ _⟩
    · next hnull => exact ⟨.refl c, (h root seg rest hroot).resolve_right hnull⟩
  obtain ⟨hmade, hcontains⟩ := hmade _ rfl
  split
  · exact hmade
  · exact hmade.trans (onlyTop_replace _ hcontains)

end Context

namespace Step

variable {ω ε α β : Type}

/-- If the step succeeds on a state, it changes the top layer, the stores and what the collaborators
keep, and nothing else. -/
def WritesTop (x : Step ω ε α) (s : RunState ω) : Prop :=
  ∀ a t, outcome x s = (.ok a, t) → s.context.OnlyTop t.context ∧ t.heap = s.heap

theorem writesTop_pure (a : α) (s : RunState ω) : WritesTop (pure a : Step ω ε α) s := by
  rintro _ _ h
  cases h
  exact ⟨.refl _, rfl⟩

theorem writesTop_modifyContext {f : Context → Context} {s : RunState ω}
    (hf : s.context.OnlyTop (f s.context)) :
    WritesTop (modifyContext f : Step ω ε Unit) s := by
  rintro _ _ h
  cases h
  exact ⟨hf, rfl⟩

theorem writesTop_put {p : FieldPath} {s : RunState ω} (f : PathError → ε) (v : Value)
    (hp : s.context.StartsAtTop p) : WritesTop (mapError f (put p v)) s := by
  intro a t h
  rw [mapError_eq_ok, outcome_put] at h
  obtain rfl := (Prod.mk.inj h).2
  exact ⟨Context.onlyTop_put hp v, rfl⟩

theorem writesTop_putWithin {key : String} {s : RunState ω} (f : PathError → ε) (p : FieldPath)
    (v : Value) (hkey : s.context.MapAtTop key) :
    WritesTop (mapError f (putWithin key p v)) s := by
  intro _ t h
  rw [mapError_eq_ok] at h
  simp only [outcome, putWithin] at h
  split at h
  · next m hm =>
    obtain rfl := (Prod.mk.inj h).2
    exact ⟨Context.onlyTop_replace _ (hkey m hm), rfl⟩
  · obtain rfl := (Prod.mk.inj h).2
    exact ⟨.refl _, rfl⟩

theorem WritesTop.bind {x : Step ω ε α} {f : α → Step ω ε β} {s : RunState ω}
    (hx : WritesTop x s) (hf : ∀ a t, s.context.OnlyTop t.context → WritesTop (f a) t) :
    WritesTop (x >>= f) s := by
  intro b u h
  obtain ⟨a, t, hxt, hfu⟩ := bind_eq_ok.mp h
  obtain ⟨hst, hheap⟩ := hx a t hxt
  obtain ⟨htu, hheap'⟩ := hf a t hst b u hfu
  exact ⟨hst.trans htu, hheap'.trans hheap⟩

theorem EndsIn.writesTop {Y : Step ω ε α → Prop} {x : Step ω ε α} {s : RunState ω}
    (hx : EndsIn Y x) (hY : ∀ y t, Y y → t.context = s.context → WritesTop y t) :
    WritesTop x s := by
  intro a t h
  rcases hx s with hs | ⟨y, u, hy, ⟨w, rfl⟩, hyu⟩
  · rw [h] at hs
    obtain ⟨w, rfl⟩ := hs
    exact ⟨.refl _, rfl⟩
  · exact hY y { s with world := w } hy rfl a t (hyu.symm.trans h)

theorem EndsIn.writesTop_of_startsAtTop {p : FieldPath} {wrap : PathError → ε}
    {x : Step ω ε Unit} {s : RunState ω} (hx : EndsIn (Writes p wrap) x)
    (hp : s.context.StartsAtTop p) : WritesTop x s := by
  refine hx.writesTop fun y t hy hc => ?_
  obtain ⟨v, rfl⟩ := hy
  exact writesTop_put _ _ (hc ▸ hp)

theorem EndsIn.writesTop_of_idle_or_startsAtTop {idle : Prop} {p : FieldPath}
    {wrap : PathError → ε} {x : Step ω ε Unit} {s : RunState ω} (hx : EndsIn (Writes p wrap) x)
    (hidle : idle → outcome x s = (.ok (), s)) (hp : ¬idle → s.context.StartsAtTop p) :
    WritesTop x s := by
  by_cases h : idle
  · intro _ t ht
    rw [hidle h] at ht
    cases ht
    exact ⟨.refl _, rfl⟩
  · exact hx.writesTop_of_startsAtTop (hp h)

end Step
end ScreenActions
