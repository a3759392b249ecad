import PagePress.Outcome.Envelope

namespace PagePress

structure HealthCheck where
  name : String
  problem : Option String
  deriving DecidableEq, Repr

namespace HealthCheck

def isOk (check : HealthCheck) : Bool := check.problem.isNone

def toJson (check : HealthCheck) : Json :=
  match check.problem with
  | none => .obj [("status", .str "OK")]
  | some problem => .obj [("status", .str "Not OK"), ("message", .str problem)]

def ofStore (name : String) (healthy : Bool) : HealthCheck :=
  ⟨name, if healthy then none else some (name ++ " store is unreachable")⟩

def ofRenderer (name : String) (healthy : Bool) : HealthCheck :=
  ⟨name, if healthy then none else some (name ++ " is unavailable")⟩

-- Of two checks of one name the later one counts, in the place of the earlier.
def summary (checks : List HealthCheck) : Fields :=
  checks.foldl (fun fields check => Fields.insert fields check.name check.toJson) []

def envelope (checks : List HealthCheck) : Envelope := ⟨.ok, "OK", some (.obj (summary checks))⟩

end HealthCheck
end PagePress
