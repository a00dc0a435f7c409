import Reconciler.Batch
import Reconciler.Yaml.Node
import Reconciler.Yaml.Scalar

/-! Documents from YAML text. A text that is no YAML fails as such; one that is YAML but has a key
that no document can hold fails as a document. -/
namespace Reconciler.Yaml

/-- What a text says, before it is read as a document: keys may be any values, in the order of the
text. -/
inductive Value where
  | null
  | bool (value : Bool)
  | int (value : Int)
  | real (value : Real)
  | string (value : String)
  | sequence (items : List Value)
  | mapping (entries : List (Value × Value))
  | tagged (tag : String) (content : Value)
deriving Inhabited

namespace Real

/-- As a key, an undefined number equals itself. -/
def sameKey : Real → Real → Bool
  | .finite x, .finite y => x.sameValue y
  | x, y => x == y

end Real

namespace Value

mutual

/-- Equality of keys: integers differ from floats, and mappings compare without order. -/
def sameKey : Value → Value → Bool
  | .null, .null => true
  | .bool a, .bool b => a == b
  | .int a, .int b => a == b
  | .real a, .real b => a.sameKey b
  | .string a, .string b => a == b
  | .sequence a, .sequence b => sameItems a b
  | .mapping a, .mapping b => a.length == b.length && within a b
  | .tagged a x, .tagged b y => a == b && sameKey x y
  | _, _ => false
termination_by structural a => a

def sameItems : List Value → List Value → Bool
  | [], [] => true
  | a :: as, b :: bs => sameKey a b && sameItems as bs
  | _, _ => false
termination_by structural a => a

def within : List (Value × Value) → List (Value × Value) → Bool
  | [], _ => true
  | (k, v) :: es, bs => bs.any (fun b => sameKey k b.1 && sameKey v b.2) && within es bs
termination_by structural a => a

end

def hasDuplicate : List (Value × Value) → Bool
  | [] => false
  | e :: es => es.any (fun other => sameKey e.1 other.1) || hasDuplicate es

def keyText : Value → Except DecodeFault String
  | .string s => .ok s
  | .bool b => .ok (if b then "true" else "false")
  | .int n => .ok (toString n)
  | .real (.finite x) => .ok (x.text .signed)
  | .real _ => .error .keyNotFinite
  | _ => .error .keyNotString

mutual

/-- The document of a value. A float that is not finite becomes null, and a tag the only key of a
mapping. Of keys with one text the last counts. -/
def toDocument : Value → Except DecodeFault Document
  | .null => .ok .null
  | .bool b => .ok (.bool b)
  | .int n => .ok (.number (.int n))
  | .real (.finite x) => .ok (.number (.float x))
  | .real _ => .ok .null
  | .string s => .ok (.string s)
  | .sequence items => .array <$> itemDocuments items
  | .mapping entries => .ofPairs <$> fieldDocuments entries
  | .tagged tag content => do return .object [("!" ++ tag, ← content.toDocument)]
termination_by structural v => v

def itemDocuments : List Value → Except DecodeFault (List Document)
  | [] => .ok []
  | v :: vs => do return (← v.toDocument) :: (← itemDocuments vs)
termination_by structural v => v

def fieldDocuments : List (Value × Value) → Except DecodeFault (List (String × Document))
  | [] => .ok []
  | (k, v) :: es => do
    let key ← k.keyText
    return (key, ← v.toDocument) :: (← fieldDocuments es)
termination_by structural v => v

end

def ofInt? (n : Int) : Option Value :=
  if -0x8000000000000000 ≤ n ∧ n < 0x10000000000000000 then some (.int n) else none

def ofPlain? (text : String) : Option Value :=
  match Plain.ofText text with
  | .null => some .null
  | .bool b => some (.bool b)
  | .int n => ofInt? n
  | .real x => some (.real x)
  | .string => some (.string text)

def ofCore? (type : CoreType) (text : String) : Option Value :=
  match type with
  | .null => if Plain.isNull text then some .null else none
  | .bool => (Plain.bool? text).map .bool
  | .int => (Plain.int? text.toList).bind ofInt?
  | .float => (Plain.real? text.toList).map .real

/-- A scalar with its tag. Where the tag does not decide, the style does. -/
def ofScalar? (tag : Option Tag) (text : String) (isPlain : Bool) : Option Value :=
  let untagged := if isPlain then ofPlain? text else some (.string text)
  match tag with
  | none | some .illegible => untagged
  | some (.named name) => untagged.map (.tagged name)
  | some (.core type) => ofCore? type text
  | some .other => some (.string text)

def ofCollection (tag : Option Tag) (content : Value) : Value :=
  match tag with
  | some (.named name) => .tagged name content
  | _ => content

end Value

namespace Node

def anchor? : Node → Option Nat
  | .alias _ => none
  | .scalar anchor .. | .sequence anchor .. | .mapping anchor .. => anchor

mutual

def anchored (n : Node) : List (Nat × Node) :=
  let here := n.anchor?.toList.map (·, n)
  match n with
  | .sequence _ _ items => here ++ anchoredItems items
  | .mapping _ _ entries => here ++ anchoredEntries entries
  | _ => here
termination_by structural n

def anchoredItems : List Node → List (Nat × Node)
  | [] => []
  | n :: ns => n.anchored ++ anchoredItems ns
termination_by structural ns => ns

def anchoredEntries : List (Node × Node) → List (Nat × Node)
  | [] => []
  | (k, v) :: es => k.anchored ++ v.anchored ++ anchoredEntries es
termination_by structural es => es

end

/-- The value of a node. At most `depth` collections may be nested, and the state counts how many
aliases may still be followed. -/
def value (anchors : List (Nat × Node)) : (depth : Nat) → Node → StateT Nat Option Value
  | depth, node => do
    let node ← match node with
      | .alias anchor =>
        guard (0 < (← get))
        modify (· - 1)
        anchors.lookup anchor
      | node => pure node
    match node, depth with
    | .alias _, _ => failure
    | .scalar _ tag text isPlain, _ => Value.ofScalar? tag text isPlain
    | .sequence .., 0 | .mapping .., 0 => failure
    | .sequence _ tag items, depth + 1 => do
      return .ofCollection tag (.sequence (← items.mapM (value anchors depth)))
    | .mapping _ tag entries, depth + 1 => do
      let entries ← entries.mapM fun e => do
        return (← value anchors depth e.1, ← value anchors depth e.2)
      guard (!Value.hasDuplicate entries)
      return .ofCollection tag (.mapping entries)

end Node

/-- The value that a text holds. At most 128 collections are nested, and at most a hundred aliases
are followed for each place of the text. -/
def value? (text : String) : Option Value := do
  guard (text.toList.all isAllowed)
  let node ← Node.ofTokens? (← Token.ofChars? text.toList)
  (·.1) <$> (node.value node.anchored.reverse 128).run (100 * node.size)

def read (text : String) : Except Fault Document :=
  match value? text with
  | some value => value.toDocument.mapError .decode
  | none => .error .yaml

end Yaml

def Resource.ofYaml (text : String) : Except Fault Resource :=
  Yaml.read text >>= Resource.ofDocument

def Batch.ofYaml (text : String) : Except Fault Batch :=
  Yaml.read text >>= Batch.ofDocument

end Reconciler
