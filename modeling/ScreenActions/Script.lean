import ScreenActions.Text.Blank

/-! Script locations and the runners registered for them. -/

namespace ScreenActions

open Text

inductive ScriptError
  | notFound (location : String)
  | failed (reason : String)
  deriving DecidableEq, Repr

def ScriptError.message : ScriptError → String
  | .notFound location => "Script not found: " ++ location
  | .failed reason => reason

/-- The parts of `resource#name` around the last `#`; without one the name is empty. -/
def splitLocation (location : String) : String × String :=
  match cutLast '#' location.toList with
  | some (resource, name) => (String.ofList resource, String.ofList name)
  | none => (location, "")

/-- A runner of type `ρ` for locations with a suffix. -/
structure ScriptRegistration (ρ : Type) where
  suffix : String
  kind : String
  runner : ρ

/-- What a location leads to. -/
inductive ScriptTarget (ρ : Type)
  | script (kind : String) (runner : ρ)
  | method (resource name : String)

/-- Registrations in the order in which they are tried. -/
abbrev ScriptRunners (ρ : Type) := List (ScriptRegistration ρ)

namespace ScriptRunners

variable {ρ : Type}

/-- A registration at the end, in the place of any other for the same suffix. -/
def register (rs : ScriptRunners ρ) (r : ScriptRegistration ρ) : ScriptRunners ρ :=
  rs.filter (·.suffix != r.suffix) ++ [r]

/-- The first runner whose suffix ends the location, else the method that the location names. -/
def resolve? (rs : ScriptRunners ρ) (location : String) : Option (ScriptTarget ρ) :=
  match rs.find? fun r => endsWith r.suffix.toList location.toList with
  | some r => some (.script r.kind r.runner)
  | none =>
      if occursIn ".xml#".toList location.toList then
        let (resource, name) := splitLocation location
        some (.method resource name)
      else none

end ScriptRunners
end ScreenActions
