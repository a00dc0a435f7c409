import Reconciler.Controller
import Reconciler.Text.Blank
import Reconciler.Text.Cut

/-! The classes that a function is declared to govern, own and watch: by flags, or by its
configuration where flags are missing. -/
namespace Reconciler

/-- What the flags say. An empty list is no flag. -/
structure Flags where
  governed : Option String
  owned : List String
  watched : List String
deriving DecidableEq, Inhabited

structure Declaration where
  governed : Coordinate
  owned : List (Coordinate × Exchange)
  watched : List Coordinate
deriving DecidableEq

namespace Declaration

/-- The parts of a list in the configuration: cut at commas and trimmed, empty ones dropped. -/
def splitList (text : String) : List String :=
  ((Text.cutEvery ',' text.toList).map fun part => String.ofList (Text.trimBlanks part)).filter
    fun part => !part.isEmpty

def readCoordinate (key : String) : Except Failure Coordinate :=
  (Coordinate.parse key).mapError Failure.ofFault

/-- An owned class, `COORDINATE=EXCHANGE`. Without an exchange conditions and resources are
exchanged. The exchange is read first. -/
def readOwned (spec : String) : Except Failure (Coordinate × Exchange) := do
  let (key, exchange) := match Text.cutFirst '=' spec.toList with
    | some (key, exchange) => (String.ofList key, String.ofList exchange)
    | none => (spec, Exchange.conditionAndResource.text)
  let exchange ← (Exchange.parse exchange).mapError fun word => ⟨Exchange.unknownMessage word, []⟩
  return (← readCoordinate key, exchange)

def configured? (config : Option Resource) (key : String) : Option String :=
  config.bind fun r => r.string? ["data", key]

def valuesOr (values : List String) (config : Option Resource) (key : String) : List String :=
  if values.isEmpty then ((configured? config key).map splitList).getD [] else values

def missingGoverned : Failure := ⟨"governed kind missing: pass --for or set data.for", []⟩

/-- Flags win over the configuration. The first failure in the order governed, owned, watched
counts. -/
def ofFlags (flags : Flags) (config : Option Resource) : Except Failure Declaration := do
  let some key := flags.governed <|> configured? config "for" | throw missingGoverned
  let governed ← readCoordinate key
  let owned ← (valuesOr flags.owned config "owns").mapM readOwned
  let watched ← (valuesOr flags.watched config "watch").mapM readCoordinate
  return ⟨governed, owned, watched⟩

/-- The controller of a declaration. Its watches never fail, and it has no other callbacks. -/
def controller (d : Declaration) : Controller :=
  let c := d.owned.foldl (fun c e => c.owning e.1 e.2) (Controller.ofGoverned d.governed)
  d.watched.foldl (fun c watched => c.watching watched fun _ => .ok ()) c

def conditionController (d : Declaration) : Controller :=
  { d.controller with
    populate := some fun _ => .ok []
    generate := some fun governed _ => .ok governed }

end Declaration

end Reconciler
