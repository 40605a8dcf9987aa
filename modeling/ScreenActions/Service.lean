import ScreenActions.Value.Basic

/-! Services called by name. -/

namespace ScreenActions

inductive ServiceError
  | notFound (service : String)
  | failed (service reason : String)
  deriving DecidableEq, Repr

def ServiceError.message : ServiceError → String
  | .notFound service => "Service not found: " ++ service
  | .failed service reason => "Service [" ++ service ++ "] failed: " ++ reason

/-- Who calls services; `ω` is what a call may change. -/
structure Dispatcher (ω : Type) where
  /-- The entries of a map that a service declares as input. -/
  validInput : String → ValueMap → ω → Except ServiceError ValueMap × ω
  run : String → ValueMap → ω → Except ServiceError ValueMap × ω

/-- A service with its input parameters. -/
structure Service (ω : Type) where
  name : String
  parameters : List String
  handler : ValueMap → ω → Except String ValueMap × ω

/-- Services under their names. -/
abbrev ServiceRegistry (ω : Type) := Keyed (Service ω)

namespace ServiceRegistry

variable {ω : Type}

def register (r : ServiceRegistry ω) (s : Service ω) : ServiceRegistry ω :=
  Keyed.insert s.name s r

/-- The entries of `m` under the names given. -/
def project (names : List String) (m : ValueMap) : ValueMap :=
  Keyed.ofEntries (names.filterMap fun p => (Keyed.get? m p).map fun v => (p, v))

def dispatcher (r : ServiceRegistry ω) : Dispatcher ω where
  validInput name m w :=
    match Keyed.get? r name with
    | some s => (.ok (project s.parameters m), w)
    | none => (.error (.notFound name), w)
  run name input w :=
    match Keyed.get? r name with
    | some s =>
        let (answer, w) := s.handler input w
        (answer.mapError (.failed name), w)
    | none => (.error (.notFound name), w)

end ServiceRegistry
end ScreenActions
