import Reconciler.Inventory.Basic

/-! The inventory as rows of text. -/
namespace Reconciler.Inventory

structure Row where
  role : Role
  owner : Option String
  target : String
  exchange : Option String
  condition : Option String
  existing : Bool
  desired : Bool
deriving DecidableEq

def Row.ofEntry (k : Key) (e : Entry) : Row where
  role := k.role
  owner := k.owner.map Ref.text
  target := k.target.text
  exchange := e.exchange.map Exchange.text
  condition := e.condition.map fun c => c.status.text
  existing := e.existing.isSome
  desired := e.desired.isSome

def Row.toDocument (row : Row) : Document :=
  let text (s : Option String) : Document := (s.map Document.string).getD .null
  .object [("condition", text row.condition), ("desired", .bool row.desired),
    ("existing", .bool row.existing), ("kind", text row.exchange), ("owner", text row.owner),
    ("role", .string row.role.text), ("target", .string row.target)]

def rows (inv : Inventory) : List Row := inv.entries.entries.map fun e => .ofEntry e.1 e.2

end Reconciler.Inventory
