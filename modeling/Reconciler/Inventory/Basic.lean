import Reconciler.Controller

/-! The inventory of a package: what is known of each governed, owned and watched resource. -/
namespace Reconciler.Inventory

inductive Role where
  | governed
  | owned
  | watched
deriving DecidableEq, Inhabited

namespace Role

def text : Role → String
  | .governed => "for"
  | .owned => "owned"
  | .watched => "watched"

def index : Role → Nat
  | .governed => 0
  | .owned => 1
  | .watched => 2

theorem index_injective {a b : Role} (h : a.index = b.index) : a = b := by
  cases a <;> cases b <;> first | rfl | cases h

end Role

/-- Children and watches that belong to a parent have an owner. -/
structure Key where
  role : Role
  owner : Option Ref
  target : Ref
deriving DecidableEq, Inhabited

namespace Key

def governed (target : Ref) : Key := ⟨.governed, none, target⟩

def owned (owner target : Ref) : Key := ⟨.owned, some owner, target⟩

def watched (owner : Option Ref) (target : Ref) : Key := ⟨.watched, owner, target⟩

/-- By role, then by owner, where none comes first, then by target. -/
def order : Key → Key → Ordering :=
  compareLex (compareOn (·.role.index)) (compareLex (compareOn (·.owner)) (compareOn (·.target)))

instance : Ord Key := ⟨order⟩

instance : Std.TransOrd Key := inferInstanceAs (Std.TransCmp (compareLex _ _))

instance : Std.LawfulEqOrd Key where
  eq_of_compare {a b} h := by
    obtain ⟨hr, h⟩ := compareLex_eq_eq.1 h
    obtain ⟨ho, ht⟩ := compareLex_eq_eq.1 h
    cases a
    cases b
    congr
    · exact Role.index_injective (@Std.LawfulEqCmp.eq_of_compare _ compare _ _ _ hr)
    · exact @Std.LawfulEqCmp.eq_of_compare _ compare _ _ _ ho
    · exact @Std.LawfulEqCmp.eq_of_compare _ compare _ _ _ ht
  compare_self {_} := @Std.ReflCmp.compare_self _ (compareLex _ _) _ _

def isGlobalWatch (k : Key) : Bool := k.role == .watched && k.owner.isNone

def subject (k : Key) : Subject :=
  match k.owner with
  | some owner => .pair owner k.target
  | none => .single k.target

def conditionType (k : Key) : String := k.subject.typeName

def refs (k : Key) : List Ref := k.owner.toList ++ [k.target]

/-- The governed resource that a failure of the entry belongs to. -/
def parent (k : Key) : Ref := k.owner.getD k.target

def text (k : Key) : String :=
  match k.owner with
  | some owner => s!"{k.role.text} {k.target.text} (owner {owner.text})"
  | none => s!"{k.role.text} {k.target.text}"

end Key

/-- Present condition, present resource and desired resource. Only owned entries have an exchange. -/
structure Entry where
  condition : Option Condition
  existing : Option Resource
  desired : Option Resource
  exchange : Option Exchange
deriving DecidableEq

namespace Entry

def blank : Entry := ⟨none, none, none, none⟩

instance : Inhabited Entry := ⟨blank⟩

def isEmpty (e : Entry) : Bool := e.condition.isNone && e.existing.isNone && e.desired.isNone

def hasCondition (e : Entry) : Bool := (e.exchange.map Exchange.hasCondition).getD true

def hasResource (e : Entry) : Bool := (e.exchange.map Exchange.hasResource).getD true

/-- An exchange is only replaced by another one. -/
def declare (e : Entry) (exchange : Option Exchange) : Entry :=
  { e with exchange := exchange <|> e.exchange }

end Entry

end Reconciler.Inventory

namespace Reconciler

/-- Entries by key, and the number of observations that fit no declared class. -/
structure Inventory where
  entries : SortedMap Inventory.Key Inventory.Entry
  unmatched : Nat

namespace Inventory

instance : Inhabited Inventory := ⟨⟨∅, 0⟩⟩

def find? (inv : Inventory) (k : Key) : Option Entry := inv.entries.find? k

/-- Changes the entry at a key; a missing entry starts blank. -/
def update (inv : Inventory) (k : Key) (f : Entry → Entry) : Inventory :=
  { inv with entries := inv.entries.insert k (f ((inv.find? k).getD .blank)) }

def addResource (inv : Inventory) (k : Key) (exchange : Option Exchange) (r : Resource) : Inventory :=
  inv.update k fun e => { e.declare exchange with existing := some r }

def addCondition (inv : Inventory) (k : Key) (exchange : Option Exchange) (c : Condition) :
    Inventory :=
  inv.update k fun e => { e.declare exchange with condition := some c }

def addDesired (inv : Inventory) (k : Key) (exchange : Option Exchange) (r : Resource) : Inventory :=
  inv.update k fun e => { e.declare exchange with desired := some r }

def setResource (inv : Inventory) (k : Key) (r : Resource) : Inventory :=
  inv.update k fun e => { e with existing := some r }

def setCondition (inv : Inventory) (k : Key) (c : Condition) : Inventory :=
  inv.update k fun e => { e with condition := some c }

/-- Takes the condition of an entry away, and the entry if nothing is left in it. -/
def clearCondition (inv : Inventory) (k : Key) : Inventory :=
  match inv.find? k with
  | none => inv
  | some e =>
    let e := { e with condition := none }
    if e.isEmpty then { inv with entries := inv.entries.erase k }
    else { inv with entries := inv.entries.insert k e }

def noteUnmatched (inv : Inventory) : Inventory := { inv with unmatched := inv.unmatched + 1 }

def select (inv : Inventory) (test : Key → Bool) : List (Ref × Entry) :=
  (inv.entries.entries.filter fun e => test e.1).map fun e => (e.1.target, e.2)

def governed (inv : Inventory) : List (Ref × Entry) := inv.select fun k => k.role == .governed

def children (inv : Inventory) (role : Role) (owner : Ref) : List (Ref × Entry) :=
  inv.select fun k => k.role == role && k.owner == some owner

def globalWatches (inv : Inventory) : List (Ref × Entry) := inv.select Key.isGlobalWatch

end Inventory

end Reconciler
