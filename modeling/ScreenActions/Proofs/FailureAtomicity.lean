import ScreenActions.Proofs.ActionWrites

/-!
What an action that fails leaves behind. Its writes come last, so an error that is not about the
path of a write tells that nothing was written.
-/

namespace ScreenActions

open Step

variable {ω : Type}

/-- The error of a path, of the action itself or of its finder. -/
def ActionError.IsPath : ActionError → Prop
  | .path _ => True
  | .finder _ (.path _) => True
  | _ => False

namespace Step

variable {α β : Type}

/-- The step does not fail but for the path of a write. -/
def FailsByPath (x : Step ω ActionError α) : Prop :=
  ∀ s t e, outcome x s = (.error e, t) → e.IsPath

theorem failsByPath_mapError (x : Step ω PathError α) : FailsByPath (mapError .path x) := by
  intro s t e h
  obtain ⟨e', -, rfl⟩ := mapError_eq_error.mp h
  trivial

theorem Writes.failsByPath {p : FieldPath} {wrap : PathError → ActionError}
    {x : Step ω ActionError Unit} (h : Writes p wrap x) (hwrap : ∀ e, (wrap e).IsPath) :
    FailsByPath x := by
  obtain ⟨v, rfl⟩ := h
  intro s t e h
  obtain ⟨e', -, rfl⟩ := mapError_eq_error.mp h
  exact hwrap e'

theorem failsByPath_pure (a : α) : FailsByPath (pure a : Step ω ActionError α) := by
  intro s t e h
  cases h

theorem failsByPath_set (s : RunState ω) : FailsByPath (set s : Step ω ActionError PUnit) := by
  intro s t e h
  cases h

theorem failsByPath_modifyContext (f : Context → Context) :
    FailsByPath (modifyContext f : Step ω ActionError Unit) := by
  intro s t e h
  cases h

theorem FailsByPath.bind {x : Step ω ActionError α} {f : α → Step ω ActionError β}
    (hx : FailsByPath x) (hf : ∀ a, FailsByPath (f a)) : FailsByPath (x >>= f) := by
  intro s u e h
  rcases bind_eq_error.mp h with h | ⟨a, t, -, h⟩
  · exact hx s u e h
  · exact hf a t u e h

/-- An error that is not about a path comes from the steps before the writes. -/
theorem EndsIn.sameButWorld {Y : Step ω ActionError α → Prop} {x : Step ω ActionError α}
    {s t : RunState ω} {e : ActionError} (hx : EndsIn Y x) (hY : ∀ y, Y y → FailsByPath y)
    (h : outcome x s = (.error e, t)) (he : ¬e.IsPath) : s.SameButWorld t := by
  rcases hx s with hs | ⟨y, u, hy, -, hyu⟩
  · rwa [h] at hs
  · exact absurd (hY y hy u t e (hyu ▸ h)) he

end Step

theorem ServiceCall.keepUnder_failsByPath (p : FieldPath) (result : ValueMap) :
    FailsByPath (keepUnder p result : Step ω ActionError Unit) := by
  refine (failsByPath_mapError _).bind fun _ => ?_
  have hrest : ∀ queryString queryStringMap : Value, FailsByPath (do
      modifyContext (·.insert queryStringKey queryString)
      modifyContext (·.insert queryStringMapKey queryStringMap) : Step ω ActionError Unit) :=
    fun _ _ => (failsByPath_modifyContext _).bind fun _ => failsByPath_modifyContext _
  dsimp only
  split
  · split
    · exact (failsByPath_modifyContext _).bind fun _ => hrest _ _
    · exact hrest _ _
  · exact hrest _ _

theorem ServiceCall.Keeps.failsByPath {a : ServiceCall} {y : Step ω ActionError Unit}
    (h : a.Keeps y) : FailsByPath y := by
  obtain ⟨result, rfl⟩ := h
  split
  · exact keepUnder_failsByPath _ _
  · exact failsByPath_modifyContext _

theorem SetField.write_failsByPath (a : SetField) (s : RunState ω) (v : Value)
    (target : Option ScopedStore) : FailsByPath (a.write s v target) := by
  refine FailsByPath.bind ?_ fun _ => FailsByPath.bind ?_ fun _ => failsByPath_mapError _
  · unfold writeTarget
    split
    · exact failsByPath_set _
    · split
      · exact failsByPath_pure _
      · exact failsByPath_mapError _
  · unfold writeGlobal
    split
    · split <;> exact failsByPath_mapError _
    · exact failsByPath_pure _

namespace ScreenAction

/-- The action writes only after it has all it needs: any but loading a message map and running a
script that is not a method. -/
def WritesLast (env : ActionEnv ω) : ScreenAction → Prop
  | .propertyMap _ => False
  | .script a => ∃ resource name, env.scripts.resolve? a.location = some (.method resource name)
  | _ => True

/-- An action that fails for another reason than the path of a write leaves the context, the bundle
maps and both stores as they were. -/
theorem unchanged_of_error {env : ActionEnv ω} {a : ScreenAction} {s t : RunState ω}
    {e : ActionError} (ha : a.WritesLast env) (h : outcome (a.run env) s = (.error e, t))
    (he : ¬e.IsPath) :
    t.context = s.context ∧ t.heap = s.heap ∧ t.session = s.session ∧
      t.application = s.application := by
  have hs : s.SameButWorld t := by
    cases a with
    | propertyMap a => exact ha.elim
    | setField a =>
      change outcome a.run s = (.error e, t) at h
      rw [SetField.outcome_run] at h
      split at h
      · cases h
        exact .refl s
      · split at h
        · cases h
          exact .refl s
        · exact absurd (a.write_failsByPath _ _ _ _ _ _ h) he
    | propertyToField a =>
      exact (a.run_endsIn env).sameButWorld (fun y hy => hy.failsByPath fun _ => trivial) h he
    | script a =>
      obtain ⟨resource, name, hmethod⟩ := ha
      refine (ScriptCall.run_endsIn_of_method hmethod).sameButWorld ?_ h he
      rintro y ⟨results, rfl⟩
      exact failsByPath_modifyContext _
    | service a => exact (a.run_endsIn env).sameButWorld (fun y hy => hy.failsByPath) h he
    | entityOne a =>
      exact (a.run_endsIn env).sameButWorld (fun y hy => hy.failsByPath fun _ => trivial) h he
    | entityAnd a =>
      exact (a.run_endsIn env).sameButWorld (fun y hy => hy.failsByPath fun _ => trivial) h he
    | entityCondition a =>
      exact (a.run_endsIn env).sameButWorld (fun y hy => hy.failsByPath fun _ => trivial) h he
    | relatedOne a =>
      exact (a.run_endsIn env).sameButWorld (fun y hy => hy.failsByPath fun _ => trivial) h he
    | related a =>
      exact (a.run_endsIn env).sameButWorld (fun y hy => hy.failsByPath fun _ => trivial) h he
  obtain ⟨w, rfl⟩ := hs
  exact ⟨rfl, rfl, rfl, rfl⟩

/-- A delegator that counts its calls and knows no entities. -/
def strangeDelegator : Delegator Nat where
  primaryKey entity n := (.error (.unknownEntity entity), n + 1)
  findOne entity _ _ n := (.error (.unknownEntity entity), n + 1)
  findList q n := (.error (.unknownEntity q.entity), n + 1)
  relatedOne entity relation _ n := (.error (.unknownRelation entity.name relation), n + 1)
  related entity relation _ _ _ n := (.error (.unknownRelation entity.name relation), n + 1)

theorem unchanged_of_unknown_entity :
    let env : ActionEnv Nat := { delegator := some strangeDelegator }
    let action : ScreenAction :=
      .entityOne ⟨⟨"Person", [.text "Person"]⟩, .ofText "found.person", ⟨"", []⟩, false, [], []⟩
    let before : RunState Nat :=
      ⟨⟨[("found", .null)], [[("labels", .bundle 0)]], some [("company", .text "ACME")]⟩,
        [[⟨"App", none, [("greeting", "Hello")]⟩]], some [("seen", .bool true)], none, 0⟩
    let after := (outcome (action.run env) before).2
    after.world = 1 ∧ after.context = before.context ∧ after.heap = before.heap ∧
      after.session = before.session ∧ after.application = before.application := by
  intro env action before after
  have ha : action.WritesLast env := trivial
  have he : ¬(ActionError.finder "primary key" (.entity (.unknownEntity "Person"))).IsPath := id
  exact ⟨rfl, unchanged_of_error ha rfl he⟩

end ScreenAction
end ScreenActions
