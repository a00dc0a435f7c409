import Reconciler.Resource

/-! What a function declares: the class that it governs, the classes that it owns and watches, and
its callbacks. -/
namespace Reconciler

/-- How an owned class is exchanged with the rest of the package: by conditions, by resources, or by
both. -/
inductive Exchange where
  | conditionOnly
  | conditionAndResource
  | localOnly
deriving DecidableEq, Inhabited

namespace Exchange

def hasCondition : Exchange → Bool
  | .localOnly => false
  | _ => true

def hasResource : Exchange → Bool
  | .conditionOnly => false
  | _ => true

def text : Exchange → String
  | .conditionOnly => "condition-only"
  | .conditionAndResource => "condition-and-resource"
  | .localOnly => "local-only"

def decode : Decoder Exchange :=
  .variant ([.conditionOnly, .conditionAndResource, .localOnly].map fun e => (e.text, e))

/-- Accepts aliases, upper case and blanks around. The error is the text as it was compared. -/
def parse (text : String) : Except String Exchange :=
  let word := Text.lowerAscii (Text.trim text)
  if word ∈ ["condition-only", "remote-condition", "none"] then .ok .conditionOnly
  else if word ∈ ["condition-and-resource", "remote", "full"] then .ok .conditionAndResource
  else if word ∈ ["local-only", "local"] then .ok .localOnly
  else .error word

def unknownMessage (word : String) : String :=
  s!"unknown resource kind `{word}` (condition-only|condition-and-resource|local-only)"

end Exchange

/-- Callbacks answer from their arguments alone. `populate` gives the desired children of a governed
resource; `generate` renders a governed resource, which may be absent. -/
structure Controller where
  governed : Coordinate
  owned : SortedMap Coordinate Exchange
  watched : SortedMap Coordinate (Resource → Except Failure Unit)
  populate : Option (Resource → Except Failure (List Resource))
  generate : Option (Option Resource → List Resource → Except Failure (Option Resource))

namespace Controller

def ofGoverned (governed : Coordinate) : Controller := ⟨governed, ∅, ∅, none, none⟩

/-- A later declaration of a class replaces an earlier one. -/
def owning (c : Controller) (owned : Coordinate) (exchange : Exchange) : Controller :=
  { c with owned := c.owned.insert owned exchange }

def watching (c : Controller) (watched : Coordinate) (callback : Resource → Except Failure Unit) :
    Controller :=
  { c with watched := c.watched.insert watched callback }

/-- Only watches may be wildcards. The first fault in the order governed, owned, watched counts. -/
def check (c : Controller) : Except Fault Unit := do
  c.governed.checkConcrete
  c.owned.keys.forM Coordinate.checkConcrete
  c.watched.keys.forM Coordinate.check

def governs (c : Controller) (r : Ref) : Bool := c.governed == r.toCoordinate

def exchange? (c : Controller) (r : Ref) : Option Exchange := c.owned.find? r.toCoordinate

def watchExact? (c : Controller) (r : Ref) : Option Coordinate :=
  if c.watched.contains r.toCoordinate then some r.toCoordinate else none

/-- The watched class of a resource without owner: its own one, else the wildcard. -/
def watchGlobal? (c : Controller) (r : Ref) : Option Coordinate :=
  c.watchExact? r <|> if c.watched.contains .wildcard then some .wildcard else none

end Controller

end Reconciler
