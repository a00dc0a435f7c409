import Reconciler.Document.Basic
import Reconciler.Number.Shortest
import Reconciler.Text.Quoted

/-! Decoding of typed values from documents, and the causes for which it fails. A record is read
from a mapping by field name, or from a sequence by position. Unknown fields are ignored. -/
namespace Reconciler

open SortedMap (findEntry)

/-- Why a document is not a value of the expected type. -/
inductive DecodeFault where
  | wrongType (found : Document) (expected : String)
  | manyKeys
  | wrongLength (length : Nat) (expected : String)
  | unknownVariant (name : String) (known : List String)
  | missingField (name : String)
  | keyNotString
  | keyNotFinite
deriving DecidableEq

namespace DecodeFault

def describe : Document → String
  | .null => "null"
  | .bool b => s!"boolean `{b}`"
  | .number (.int n) => s!"integer `{n}`"
  | .number (.float x) => s!"floating point `{x.text .signed}`"
  | .string s => s!"string {Text.quote s}"
  | .array _ => "sequence"
  | .object _ => "map"

def choice : List String → String
  | [] => "there are no variants"
  | [a] => s!"`{a}`"
  | [a, b] => s!"`{a}` or `{b}`"
  | names => "one of " ++ ", ".intercalate (names.map fun name => s!"`{name}`")

def message : DecodeFault → String
  | .wrongType found expected => s!"invalid type: {describe found}, expected {expected}"
  | .manyKeys => "invalid value: map, expected map with a single key"
  | .wrongLength length expected => s!"invalid length {length}, expected {expected}"
  | .unknownVariant name known =>
    s!"unknown variant `{name}`, " ++ (if known.isEmpty then "" else "expected ") ++ choice known
  | .missingField name => s!"missing field `{name}`"
  | .keyNotString => "key must be a string"
  | .keyNotFinite => "float key must be finite (got NaN or +/-inf)"

end DecodeFault

/-- A reader of values from documents. -/
abbrev Decoder (α : Type) := Document → Except DecodeFault α

namespace Decoder

variable {α : Type}

def string : Decoder String
  | .string s => .ok s
  | d => .error (.wrongType d "a string")

def unit : Decoder Unit
  | .null => .ok ()
  | d => .error (.wrongType d "unit")

/-- Null stands for absence. -/
def nullable (decode : Decoder α) : Decoder (Option α)
  | .null => .ok none
  | d => some <$> decode d

def list (decode : Decoder α) : Decoder (List α)
  | .array items => items.mapM decode
  | d => .error (.wrongType d "a sequence")

/-- A name from a list, either as a string or as the only key of a mapping to null. -/
def variant (known : List (String × α)) : Decoder α
  | .string name => select name
  | .object [(name, content)] => do
    let value ← select name
    unit content
    return value
  | .object _ => .error .manyKeys
  | d => .error (.wrongType d "string or map")
where
  select (name : String) : Except DecodeFault α :=
    match known.lookup name with
    | some value => .ok value
    | none => .error (.unknownVariant name (known.map (·.1)))

def field (fields : List (String × Document)) (name : String) (decode : Decoder α) :
    Except DecodeFault (Option α) :=
  match findEntry name fields with
  | some d => some <$> decode d
  | none => .ok none

def required (name : String) : Option α → Except DecodeFault α
  | some value => .ok value
  | none => .error (.missingField name)

/-- The value at a position, or the default beyond the end. -/
def placed (items : List Document) (index : Nat) (decode : Decoder α) (default : Except DecodeFault α) :
    Except DecodeFault α :=
  match items[index]? with
  | some d => decode d
  | none => default

def record (name : String) (size : Nat)
    (byName : List (String × Document) → Except DecodeFault α)
    (byPlace : List Document → (short : Nat → DecodeFault) → Except DecodeFault α) : Decoder α
  | .object fields => byName fields
  | .array items => do
    let value ← byPlace items fun length => .wrongLength length s!"struct {name} with {size} elements"
    if size < items.length then .error (.wrongLength items.length "fewer elements in array")
    else .ok value
  | d => .error (.wrongType d s!"struct {name}")

theorem nullable_eq (decode : Decoder α) (d : Document) :
    nullable decode d = if d.isNull then .ok none else some <$> decode d := by
  cases d <;> rfl

theorem field_eq_ok {decode : Decoder α} {fields : List (String × Document)} {name : String}
    {d : Document} {value : α} (hf : findEntry name fields = some d) (hd : decode d = .ok value) :
    field fields name decode = .ok (some value) := by
  rw [field, hf]
  exact congrArg (some <$> ·) hd

/-- A field that may be absent is decoded as the value that was put into it, unless this is null. -/
theorem field_nullable {decode : Decoder α} {toDocument : α → Document}
    (h : ∀ a, decode (toDocument a) = .ok a) {fields : List (String × Document)} {name : String}
    {value : Option α} (hf : findEntry name fields = value.map toDocument) :
    ∃ found, field fields name (nullable decode) = .ok found ∧
      found.getD none = value.filter fun a => !(toDocument a).isNull := by
  cases value with
  | none => exact ⟨none, by rw [field, hf]; rfl, rfl⟩
  | some a =>
    by_cases hn : (toDocument a).isNull = true
    · exact ⟨some none, field_eq_ok hf (by rw [nullable_eq, if_pos hn]), by simp [Option.filter, hn]⟩
    · exact ⟨some (some a), field_eq_ok hf (by rw [nullable_eq, if_neg hn, h]; rfl),
        by simp [Option.filter, hn]⟩

/-- What every item is decoded to, the list is. -/
theorem list_map {decode : Decoder α} {f : α → Document} (h : ∀ a, decode (f a) = .ok a)
    (values : List α) : list decode (.array (values.map f)) = .ok values := by
  rw [list]
  induction values with
  | nil => rfl
  | cons a values ih =>
    rw [List.map_cons, List.mapM_cons, h, ih]
    rfl

end Decoder

end Reconciler
