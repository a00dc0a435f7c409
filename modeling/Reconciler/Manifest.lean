import Reconciler.Resource

/-! The package manifest and the conditions that it stores. -/
namespace Reconciler

/-- Of conditions with one type the first one counts. -/
structure Manifest where
  source : Resource
  conditions : List Condition
deriving DecidableEq

namespace Manifest

def describes (r : Resource) : Bool := r.kind == "Kptfile" && "kpt.dev/".isPrefixOf r.apiVersion

def rootPath : String := "Kptfile"

def ofResource (r : Resource) : Except Fault Manifest :=
  if !describes r then .error (.manifest (.otherKind r.coordinate.text))
  else match r.get? ["status", "conditions"] with
    | none | some .null => .ok ⟨r, []⟩
    | some (.array items) =>
      match Decoder.list Condition.decode (.array items) with
      | .ok conditions => .ok ⟨r, conditions⟩
      | .error cause => .error (.manifest (.conditions cause))
    | some _ => .error (.manifest .conditionsNotList)

def name (m : Manifest) : String := m.source.name

def findCondition (conditions : List Condition) (typeName : String) : Option Condition :=
  conditions.find? fun c => c.typeName == typeName

/-- Replaces the first condition of the type in place, or puts the new one last. The flag tells
whether anything changed. -/
def putCondition (c : Condition) : List Condition → List Condition × Bool
  | [] => ([c], true)
  | x :: xs =>
    if x.typeName = c.typeName then
      if x = c then (x :: xs, false) else (c :: xs, true)
    else
      let rest := putCondition c xs
      (x :: rest.1, rest.2)

/-- Drops every condition of the type. The flag tells whether there was one. -/
def dropCondition (typeName : String) (conditions : List Condition) : List Condition × Bool :=
  let rest := conditions.filter fun c => c.typeName != typeName
  (rest, rest.length != conditions.length)

def condition? (m : Manifest) (typeName : String) : Option Condition :=
  findCondition m.conditions typeName

def setCondition (m : Manifest) (c : Condition) : Manifest × Bool :=
  let (conditions, changed) := putCondition c m.conditions
  ({ m with conditions }, changed)

def deleteCondition (m : Manifest) (typeName : String) : Manifest × Bool :=
  let (conditions, changed) := dropCondition typeName m.conditions
  ({ m with conditions }, changed)

/-- The source with the present conditions. Without conditions their field goes, and a status that
is empty then. -/
def toResource (m : Manifest) : Except Fault Resource :=
  match m.conditions with
  | [] =>
    let rest := (m.source.remove ["status", "conditions"]).2
    if rest.get? ["status"] = some (.object []) then .ok (rest.remove ["status"]).2 else .ok rest
  | conditions =>
    m.source.set ["status", "conditions"] (.array (conditions.map Condition.toDocument))

end Manifest

end Reconciler
