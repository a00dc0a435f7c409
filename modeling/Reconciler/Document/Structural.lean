import Reconciler.Document.Basic

/-! Structural equality of documents, and the form in which structurally equal documents agree. -/
namespace Reconciler.Document

open SortedMap (findEntry)

def presentCount (fields : List (String × Document)) : Nat :=
  (fields.filter fun f => !f.2.isNull).length

mutual

/-- Numbers compare by value, and a key that holds null counts as missing. -/
def structuralEq : Document → Document → Bool
  | .object a, .object b => presentCount a == presentCount b && fieldsWithin a b
  | .array a, .array b => itemsStructuralEq a b
  | .number a, .number b => a.sameValue b
  | .string a, .string b => a == b
  | .bool a, .bool b => a == b
  | .null, .null => true
  | _, _ => false
termination_by structural a => a

def itemsStructuralEq : List Document → List Document → Bool
  | [], [] => true
  | a :: as, b :: bs => structuralEq a b && itemsStructuralEq as bs
  | _, _ => false
termination_by structural a => a

def fieldsWithin : List (String × Document) → List (String × Document) → Bool
  | [], _ => true
  | (key, a) :: as, bs =>
    (a.isNull || match findEntry key bs with
      | some b => structuralEq a b
      | none => false) && fieldsWithin as bs
termination_by structural a => a

end

/-- A number as its binary64, with zero made positive. -/
def numberForm (n : Number) : Number :=
  let x := n.toBinary64
  if x.magnitude = 0 then .float .zero else .float x

mutual

/-- Fields that hold null are dropped at every depth and numbers become binary64. Nulls in sequences
stay. -/
def normalForm : Document → Document
  | .object fields => .object (normalFields fields)
  | .array items => .array (normalItems items)
  | .number n => .number (numberForm n)
  | d => d
termination_by structural a => a

def normalItems : List Document → List Document
  | [] => []
  | d :: ds => d.normalForm :: normalItems ds
termination_by structural a => a

def normalFields : List (String × Document) → List (String × Document)
  | [] => []
  | (key, d) :: ds =>
    if d.isNull then normalFields ds else (key, d.normalForm) :: normalFields ds
termination_by structural a => a

end

end Reconciler.Document
