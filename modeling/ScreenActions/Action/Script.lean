import ScreenActions.Action.Basic

/-! Running a script or a method of a resource. -/

namespace ScreenActions

structure ScriptCall where
  location : String
  deriving Repr

namespace ScriptCall

def ofElement (e : Element) : Except DefinitionError ScriptCall :=
  (e.requireAttr "location").map ScriptCall.mk

variable {ω : Type}

def run (a : ScriptCall) (env : ActionEnv ω) : Step ω ActionError Unit := do
  match env.scripts.resolve? a.location with
  | some (.script kind runner) =>
      Step.mapError (.script kind a.location) (runner a.location)
  | some (.method resource name) =>
      let methods ← Step.require "simple method runner" env.methods
      let fields := (← Step.context).flatten
      let results ← Step.mapError (.script "simple method" a.location)
        (Step.call (methods resource name fields))
      Step.modifyContext (·.extend results)
  | none => throw (.unsupportedScript a.location)

end ScriptCall
end ScreenActions
