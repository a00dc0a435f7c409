import Reconciler.Yaml.Token

/-! The tree of nodes in a YAML document. Aliases stand in it unresolved. -/
namespace Reconciler.Yaml

/-- Anchors are numbered. A number is given again when an anchor's name was defined before; then an
alias means the last node with its number. -/
inductive Node where
  | alias (anchor : Nat)
  | scalar (anchor : Option Nat) (tag : Option Tag) (text : String) (isPlain : Bool)
  | sequence (anchor : Option Nat) (tag : Option Tag) (items : List Node)
  | mapping (anchor : Option Nat) (tag : Option Tag) (entries : List (Node × Node))
deriving Inhabited

namespace Node

def missing : Node := .scalar none none "" true

/-- The tokens that are left, the numbers of the anchors so far, latest first, and the tag handles. -/
structure Build where
  tokens : List Token
  anchors : List (String × Nat)
  handles : List (String × List UInt8)

def standardHandles : List (String × List UInt8) := [("!", [Tag.mark]), ("!!", Tag.coreExpansion)]

abbrev Builder (α : Type) := StateT Build Option α

namespace Builder

def next? : Builder (Option Token) := return (← get).tokens.head?

def skip : Builder Unit := modify fun b => { b with tokens := b.tokens.drop 1 }

def sees (choices : List Token) : Builder Bool := return (← next?).any choices.contains

def expect (t : Token) : Builder Unit := do
  guard (← sees [t])
  skip

def anchorNumber (name : String) : Builder Nat := do
  let b ← get
  let number := (b.anchors.map (·.1)).eraseDups.length
  set { b with anchors := (name, number) :: b.anchors }
  return number

def fullTag (handle : String) (suffix : List UInt8) : Builder Tag := do
  if handle.isEmpty then return .ofOctets suffix
  let expansion ← (← get).handles.lookup handle
  return .ofOctets (expansion ++ suffix)

def anchor? : Builder (Option Nat) := do
  match ← next? with
  | some (.anchor name) =>
    skip
    return some (← anchorNumber name)
  | _ => return none

def tag? : Builder (Option Tag) := do
  match ← next? with
  | some (.tag handle suffix) =>
    skip
    return some (← fullTag handle suffix)
  | _ => return none

def properties : Builder (Option Nat × Option Tag) := do
  match ← anchor? with
  | some anchor => return (some anchor, ← tag?)
  | none =>
    let tag ← tag?
    return (← anchor?, tag)

mutual

/-- A node. `inBlock` admits block collections, and `indentless` a block sequence that is not
indented more than the mapping around it. -/
def node : (fuel : Nat) → (inBlock indentless : Bool) → Builder Node
  | 0, _, _ => failure
  | fuel + 1, inBlock, indentless => do
    if let some (.alias name) := ← next? then
      skip
      return .alias (← (← get).anchors.lookup name)
    let (anchor, tag) ← properties
    match ← next? with
    | some .blockEntry =>
      if indentless then return .sequence anchor tag (← indentlessItems fuel)
      else unwritten anchor tag
    | some (.scalar text isPlain) =>
      skip
      return .scalar anchor tag text isPlain
    | some .flowSequence =>
      skip
      return .sequence anchor tag (← flowItems fuel true)
    | some .flowMapping =>
      skip
      return .mapping anchor tag (← flowEntries fuel true)
    | some .blockSequence =>
      if inBlock then
        skip
        return .sequence anchor tag (← blockItems fuel)
      else unwritten anchor tag
    | some .blockMapping =>
      if inBlock then
        skip
        return .mapping anchor tag (← blockEntries fuel)
      else unwritten anchor tag
    | _ => unwritten anchor tag
where
  /-- A node may be left out after its properties. -/
  unwritten (anchor : Option Nat) (tag : Option Tag) : Builder Node := do
    guard (anchor.isSome || tag.isSome)
    return .scalar anchor tag "" true

def nodeUnless (fuel : Nat) (inBlock indentless : Bool) (ends : List Token) : Builder Node :=
  match fuel with
  | 0 => failure
  | fuel + 1 => do
    if ← sees ends then return missing else node fuel inBlock indentless

def blockItems : (fuel : Nat) → Builder (List Node)
  | 0 => failure
  | fuel + 1 => do
    if ← sees [.blockEnd] then
      skip
      return []
    expect .blockEntry
    let item ← nodeUnless fuel true false [.blockEntry, .blockEnd]
    return item :: (← blockItems fuel)

def indentlessItems : (fuel : Nat) → Builder (List Node)
  | 0 => failure
  | fuel + 1 => do
    if ← sees [.blockEntry] then
      skip
      let item ← nodeUnless fuel true false [.blockEntry, .key, .value, .blockEnd]
      return item :: (← indentlessItems fuel)
    else return []

def blockEntries : (fuel : Nat) → Builder (List (Node × Node))
  | 0 => failure
  | fuel + 1 => do
    if ← sees [.blockEnd] then
      skip
      return []
    expect .key
    let ends := [.key, .value, .blockEnd]
    let key ← nodeUnless fuel true true ends
    let value ← valueUnless fuel true ends
    return (key, value) :: (← blockEntries fuel)

def valueUnless (fuel : Nat) (inBlock : Bool) (ends : List Token) : Builder Node :=
  match fuel with
  | 0 => failure
  | fuel + 1 => do
    if ← sees [.value] then
      skip
      nodeUnless fuel inBlock inBlock ends
    else return missing

def flowItems : (fuel : Nat) → (isFirst : Bool) → Builder (List Node)
  | 0, _ => failure
  | fuel + 1, isFirst => do
    if !isFirst && !(← sees [.flowSequenceEnd]) then expect .flowEntry
    if ← sees [.flowSequenceEnd] then
      skip
      return []
    let item ← if ← sees [.key] then flowPair fuel else node fuel false false
    return item :: (← flowItems fuel false)

/-- A mapping of one entry as item of a flow sequence. A missing key swallows the token after it. -/
def flowPair (fuel : Nat) : Builder Node :=
  match fuel with
  | 0 => failure
  | fuel + 1 => do
    skip
    let key ← if ← sees [.value, .flowEntry, .flowSequenceEnd] then do
        skip
        pure missing
      else node fuel false false
    let value ← valueUnless fuel false [.flowEntry, .flowSequenceEnd]
    return .mapping none none [(key, value)]

def flowEntries : (fuel : Nat) → (isFirst : Bool) → Builder (List (Node × Node))
  | 0, _ => failure
  | fuel + 1, isFirst => do
    if !isFirst && !(← sees [.flowMappingEnd]) then expect .flowEntry
    if ← sees [.flowMappingEnd] then
      skip
      return []
    let entry ← if ← sees [.key] then do
        skip
        let key ← nodeUnless fuel false false [.value, .flowEntry, .flowMappingEnd]
        let value ← valueUnless fuel false [.flowEntry, .flowMappingEnd]
        pure (key, value)
      else do
        let key ← node fuel false false
        pure (key, missing)
    return entry :: (← flowEntries fuel false)

end

/-- Directives before a document: at most one version, which must be known, and each handle once. -/
def directives : List Token → (hasVersion : Bool) → Builder Unit
  | .directive (.version major minor) :: rest, hasVersion => do
    guard (!hasVersion && major == 1 && (minor == 1 || minor == 2))
    skip
    directives rest true
  | .directive (.handle name expansion) :: rest, hasVersion => do
    let b ← get
    guard ((b.handles.lookup name).isNone)
    set { b with handles := (name, expansion) :: b.handles }
    skip
    directives rest hasVersion
  | _, _ => return ()

/-- A document with its marks. Directives need the mark of its start, after which it may be empty. -/
def document (fuel : Nat) : Builder Node := do
  match ← next? with
  | some (.directive _) | some .documentStart =>
    directives (← get).tokens false
    expect .documentStart
    modify fun b => { b with handles := b.handles ++ standardHandles }
    match ← next? with
    | none | some (.directive _) | some .documentStart | some .documentEnd => return missing
    | some _ => node fuel true false
  | _ =>
    modify fun b => { b with handles := standardHandles }
    node fuel true false

end Builder

/-- The only document of a text; a text without tokens is one empty node. -/
def ofTokens? (tokens : List Token) : Option Node := do
  if tokens.isEmpty then return missing
  let (node, rest) ← (Builder.document (4 * tokens.length + 4)).run ⟨tokens, [], []⟩
  guard (rest.tokens.all (· == .documentEnd))
  return node

/-- How many places of the text the nodes take: two for a collection and one for all else. -/
def size : Node → Nat
  | .alias _ => 1
  | .scalar .. => 1
  | .sequence _ _ items => 2 + sizeItems items
  | .mapping _ _ entries => 2 + sizeEntries entries
termination_by structural n => n
where
  sizeItems : List Node → Nat
    | [] => 0
    | n :: ns => n.size + sizeItems ns
  termination_by structural ns => ns
  sizeEntries : List (Node × Node) → Nat
    | [] => 0
    | (k, v) :: es => k.size + v.size + sizeEntries es
  termination_by structural es => es

end Node

end Reconciler.Yaml
