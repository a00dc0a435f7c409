import Reconciler.Number.Binary64
import Reconciler.SortedMap

/-! Structured documents and access to them along field paths. -/
namespace Reconciler

/-- Integers are exact. `1` and `1.0` are different numbers; see `sameValue` for the comparison that
identifies them. Readers produce integers of 64 bits only, signed or unsigned. -/
inductive Number where
  | int (value : Int)
  | float (value : Binary64)
deriving DecidableEq, Inhabited

namespace Number

def toBinary64 : Number → Binary64
  | .int n => .ofInt n
  | .float x => x

def sameValue (a b : Number) : Bool := a.toBinary64.sameValue b.toBinary64

/-- Equality up to the sign of a zero float. An integer and a float are never alike. -/
def alike : Number → Number → Bool
  | .int a, .int b => a == b
  | .float a, .float b => a.sameValue b
  | _, _ => false

def int64? : Number → Option Int
  | .int n => if -0x8000000000000000 ≤ n ∧ n < 0x8000000000000000 then some n else none
  | .float _ => none

theorem alike_refl (n : Number) : n.alike n = true := by
  cases n <;> simp [alike, Binary64.sameValue_refl]

end Number

/-- A document. The fields of a mapping stand in increasing key order, so that plain equality
compares contents; `WellFormed` says so at every depth. -/
inductive Document where
  | null
  | bool (value : Bool)
  | number (value : Number)
  | string (value : String)
  | array (items : List Document)
  | object (fields : List (String × Document))
deriving Inhabited

namespace Document

open SortedMap (findEntry insertEntry)

mutual

def decEq : (a b : Document) → Decidable (a = b)
  | .null, .null => isTrue rfl
  | .bool a, .bool b => if h : a = b then isTrue (h ▸ rfl) else isFalse (h ∘ Document.bool.inj)
  | .number a, .number b => if h : a = b then isTrue (h ▸ rfl) else isFalse (h ∘ Document.number.inj)
  | .string a, .string b => if h : a = b then isTrue (h ▸ rfl) else isFalse (h ∘ Document.string.inj)
  | .array a, .array b =>
    match decEqItems a b with
    | isTrue h => isTrue (h ▸ rfl)
    | isFalse h => isFalse (h ∘ Document.array.inj)
  | .object a, .object b =>
    match decEqFields a b with
    | isTrue h => isTrue (h ▸ rfl)
    | isFalse h => isFalse (h ∘ Document.object.inj)
  | .null, .bool _ | .null, .number _ | .null, .string _ | .null, .array _ | .null, .object _
  | .bool _, .null | .bool _, .number _ | .bool _, .string _ | .bool _, .array _ | .bool _, .object _
  | .number _, .null | .number _, .bool _ | .number _, .string _ | .number _, .array _
  | .number _, .object _ | .string _, .null | .string _, .bool _ | .string _, .number _
  | .string _, .array _ | .string _, .object _ | .array _, .null | .array _, .bool _
  | .array _, .number _ | .array _, .string _ | .array _, .object _ | .object _, .null
  | .object _, .bool _ | .object _, .number _ | .object _, .string _ | .object _, .array _ =>
    isFalse nofun
termination_by structural x => x

def decEqItems : (a b : List Document) → Decidable (a = b)
  | [], [] => isTrue rfl
  | [], _ :: _ | _ :: _, [] => isFalse nofun
  | x :: xs, y :: ys =>
    match decEq x y, decEqItems xs ys with
    | isTrue h, isTrue h' => isTrue (h ▸ h' ▸ rfl)
    | isFalse h, _ => isFalse fun e => h (List.cons.inj e).1
    | _, isFalse h => isFalse fun e => h (List.cons.inj e).2
termination_by structural x => x

def decEqFields : (a b : List (String × Document)) → Decidable (a = b)
  | [], [] => isTrue rfl
  | [], _ :: _ | _ :: _, [] => isFalse nofun
  | (k, v) :: xs, (l, w) :: ys =>
    if h : k = l then
      match decEq v w, decEqFields xs ys with
      | isTrue h', isTrue h'' => isTrue (by rw [h, h', h''])
      | isFalse h', _ => isFalse fun e => h' (Prod.mk.inj (List.cons.inj e).1).2
      | _, isFalse h' => isFalse fun e => h' (List.cons.inj e).2
    else isFalse fun e => h (Prod.mk.inj (List.cons.inj e).1).1
termination_by structural x => x

end

instance : DecidableEq Document := decEq

mutual

/-- Equality up to the sign of zero floats. It decides whether a document has changed. -/
def alike : Document → Document → Bool
  | .null, .null => true
  | .bool a, .bool b => a == b
  | .number a, .number b => a.alike b
  | .string a, .string b => a == b
  | .array a, .array b => itemsAlike a b
  | .object a, .object b => fieldsAlike a b
  | _, _ => false
termination_by structural x => x

def itemsAlike : List Document → List Document → Bool
  | [], [] => true
  | x :: xs, y :: ys => alike x y && itemsAlike xs ys
  | _, _ => false
termination_by structural x => x

def fieldsAlike : List (String × Document) → List (String × Document) → Bool
  | [], [] => true
  | (k, v) :: xs, (l, w) :: ys => k == l && alike v w && fieldsAlike xs ys
  | _, _ => false
termination_by structural x => x

end

mutual

/-- Every mapping, at every depth, has strictly increasing keys. -/
def WellFormed : Document → Prop
  | .array items => ItemsWellFormed items
  | .object fields =>
    (fields.Pairwise fun a b => compare a.1 b.1 = .lt) ∧ FieldsWellFormed fields
  | _ => True
termination_by structural x => x

def ItemsWellFormed : List Document → Prop
  | [] => True
  | d :: ds => d.WellFormed ∧ ItemsWellFormed ds
termination_by structural x => x

def FieldsWellFormed : List (String × Document) → Prop
  | [] => True
  | (_, d) :: ds => d.WellFormed ∧ FieldsWellFormed ds
termination_by structural x => x

end

/-- A mapping from pairs in any order; of equal keys the last one counts. -/
def ofPairs (pairs : List (String × Document)) : Document :=
  .object (pairs.foldl (fun fields p => insertEntry p.1 p.2 fields) [])

def isNull : Document → Bool
  | .null => true
  | _ => false

def isObject : Document → Bool
  | .object _ => true
  | _ => false

def fields? : Document → Option (List (String × Document))
  | .object fields => some fields
  | _ => none

def string? : Document → Option String
  | .string s => some s
  | _ => none

def int64? : Document → Option Int
  | .number n => n.int64?
  | _ => none

def bool? : Document → Option Bool
  | .bool b => some b
  | _ => none

def get? : (d : Document) → (path : List String) → Option Document
  | d, [] => some d
  | .object fields, key :: path => (findEntry key fields).bind fun inner => inner.get? path
  | _, _ :: _ => none

/-- Puts `value` at a path and creates the mappings that are missing on the way. The error is the
path to what is there and is no mapping. -/
def set : (d : Document) → (path : List String) → (value : Document) →
    Except (List String) Document
  | _, [], value => .ok value
  | .object fields, key :: path, value =>
    match set ((findEntry key fields).getD (.object [])) path value with
    | .ok inner => .ok (.object (insertEntry key inner fields))
    | .error place => .error (key :: place)
  | _, _ :: _, _ => .error []

/-- The value at a path and what is left without it. The root cannot be removed. -/
def remove? : (d : Document) → (path : List String) → Option (Document × Document)
  | .object fields, [key] =>
    (findEntry key fields).map fun v => (v, .object (fields.filter fun f => f.1 != key))
  | .object fields, key :: path =>
    (findEntry key fields).bind fun inner =>
      (remove? inner path).map fun r => (r.1, .object (insertEntry key r.2 fields))
  | _, _ => none

def stringFields (d : Document) : List (String × String) :=
  (d.fields?.getD []).filterMap fun f => f.2.string?.map fun s => (f.1, s)

mutual

theorem alike_refl : (d : Document) → d.alike d = true
  | .null => rfl
  | .bool _ | .string _ => by simp [alike]
  | .number n => by simp [alike, n.alike_refl]
  | .array items => by simp [alike, itemsAlike_refl items]
  | .object fields => by simp [alike, fieldsAlike_refl fields]

theorem itemsAlike_refl : (ds : List Document) → itemsAlike ds ds = true
  | [] => rfl
  | d :: ds => by simp [itemsAlike, alike_refl d, itemsAlike_refl ds]

theorem fieldsAlike_refl : (fs : List (String × Document)) → fieldsAlike fs fs = true
  | [] => rfl
  | (_, d) :: fs => by simp [fieldsAlike, alike_refl d, fieldsAlike_refl fs]

end

@[simp] theorem get?_nil (d : Document) : d.get? [] = some d := by cases d <;> rfl

theorem get?_append (d : Document) (p q : List String) :
    d.get? (p ++ q) = (d.get? p).bind fun inner => inner.get? q := by
  induction p generalizing d with
  | nil => simp
  | cons key p ih =>
    cases d <;> simp [get?]
    rename_i fields
    cases findEntry key fields <;> simp [ih]

theorem get?_set {value d d' : Document} {p : List String} (h : d.set p value = .ok d') :
    d'.get? p = some value := by
  induction p generalizing d d' with
  | nil =>
    have : value = d' := by cases d <;> exact Except.ok.inj h
    simp [this]
  | cons key p ih =>
    cases d with
    | object fields =>
      rw [set] at h
      split at h
      · rename_i inner h'
        cases h
        simp [get?, SortedMap.findEntry_insertEntry_self, ih h']
      · cases h
    | _ => cases h

end Document

end Reconciler
