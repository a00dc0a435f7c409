import Reconciler.Yaml.Lexeme

/-! The tokens of a YAML text. Indentation becomes brackets around block collections, and a mapping
key that is only recognised by the colon after it gets its token put in front of it. -/
namespace Reconciler.Yaml

inductive Token where
  | directive (content : Lexeme.Directive)
  | documentStart
  | documentEnd
  | blockSequence
  | blockMapping
  | blockEnd
  | flowSequence
  | flowSequenceEnd
  | flowMapping
  | flowMappingEnd
  | blockEntry
  | flowEntry
  | key
  | value
  | alias (name : String)
  | anchor (name : String)
  | tag (handle : String) (suffix : List UInt8)
  | scalar (text : String) (isPlain : Bool)
deriving DecidableEq

namespace Token

/-- A place where a key may begin: the number of tokens before it, and where it stands. At the
indentation of a block mapping a colon is required after it. -/
structure KeyMark where
  required : Bool
  before : Nat
  index : Nat
  line : Nat
  column : Nat

/-- Tokens stand latest first. `key?` is the last place for a key in the innermost flow collection,
and `outerKeys` are those around it. The indentation is -1 outside all block collections. -/
structure Scan where
  cursor : Cursor
  tokens : List Token
  indent : Int
  outerIndents : List Int
  keyAllowed : Bool
  key? : Option KeyMark
  outerKeys : List (Option KeyMark)

namespace Scan

def ofChars (cs : List Char) : Scan := ⟨.ofChars cs, [], -1, [], true, none, []⟩

def inFlow (s : Scan) : Bool := !s.outerKeys.isEmpty

def emit (s : Scan) (t : Token) : Scan := { s with tokens := t :: s.tokens }

/-- Puts a token after the first `before` ones. -/
def emitAfter (s : Scan) (before : Nat) (t : Token) : Scan :=
  let later := s.tokens.length - before
  { s with tokens := s.tokens.take later ++ t :: s.tokens.drop later }

def unroll (column : Int) : (outer : List Int) → Scan → Scan
  | [], s => s
  | indent :: outer, s =>
    if s.indent > column then
      unroll column outer { s.emit .blockEnd with indent, outerIndents := outer }
    else s

def closeTo (s : Scan) (column : Int) : Scan :=
  if s.inFlow then s else unroll column s.outerIndents s

/-- Opens a block collection if the column is indented more than the present one. -/
def openAt (s : Scan) (column before : Nat) (t : Token) : Scan :=
  if !s.inFlow && s.indent < column then
    { s.emitAfter before t with indent := column, outerIndents := s.indent :: s.outerIndents }
  else s

def dropKey (s : Scan) : Option Scan :=
  if s.key?.any (·.required) then none else some { s with key? := none }

/-- A key is on one line and has 1024 octets at most. -/
def isStale (s : Scan) (k : KeyMark) : Bool :=
  k.line < s.cursor.line || k.index + 1024 < s.cursor.index

def freshKey (s : Scan) : Option KeyMark → Option (Option KeyMark)
  | some k => if s.isStale k then (if k.required then none else some none) else some (some k)
  | none => some none

def dropStaleKeys (s : Scan) : Option Scan := do
  let key? ← s.freshKey s.key?
  let outerKeys ← s.outerKeys.mapM s.freshKey
  return { s with key?, outerKeys }

def markKey (s : Scan) : Option Scan :=
  if s.keyAllowed then do
    let s ← s.dropKey
    let required := !s.inFlow && s.indent == s.cursor.column
    return { s with
      key? := some ⟨required, s.tokens.length, s.cursor.index, s.cursor.line, s.cursor.column⟩ }
  else some s

/-- Skips spaces, comments and breaks, tabs where no key may begin, and a byte order mark at the
start of a line, which takes a column. -/
def skipGap : (fuel : Nat) → Scan → Scan
  | 0, s => s
  | fuel + 1, s =>
    let c := s.cursor
    let c := if c.column = 0 ∧ c.rest.head? = some '\ufeff' then c.advance 1 else c
    let c := c.skipWhile fun ch => ch == ' ' || ((s.inFlow || !s.keyAllowed) && ch == '\t')
    let c := if c.rest.head? = some '#' then c.skipWhile (!isBreak ·) else c
    if c.atBreak then
      skipGap fuel { s with cursor := c.skipBreak, keyAllowed := s.keyAllowed || !s.inFlow }
    else { s with cursor := c }

def take (s : Scan) (n : Nat) (t : Token) : Scan := { s.emit t with cursor := s.cursor.advance n }

def closeAll (s : Scan) : Option Scan := do
  let s ← (s.closeTo (-1)).dropKey
  return { s with keyAllowed := false }

def directive (s : Scan) : Option Scan := do
  let s ← s.closeAll
  let (content, cursor) ← Lexeme.directive s.cursor
  return { s.emit (.directive content) with cursor }

def marker (s : Scan) (t : Token) : Option Scan := do return (← s.closeAll).take 3 t

def openFlow (s : Scan) (t : Token) : Option Scan := do
  let s ← s.markKey
  return { s with key? := none, outerKeys := s.key? :: s.outerKeys, keyAllowed := true }.take 1 t

def closeFlow (s : Scan) (t : Token) : Option Scan := do
  let s ← s.dropKey
  let s := match s.outerKeys with
    | key? :: outerKeys => { s with key?, outerKeys }
    | [] => s
  return { s with keyAllowed := false }.take 1 t

def flowEntry (s : Scan) : Option Scan := do
  let s ← s.dropKey
  return { s with keyAllowed := true }.take 1 .flowEntry

def openHere (s : Scan) (t : Token) : Option Scan :=
  if s.inFlow then some s
  else if s.keyAllowed then some (s.openAt s.cursor.column s.tokens.length t)
  else none

def blockEntry (s : Scan) : Option Scan := do
  let s ← (← s.openHere .blockSequence).dropKey
  return { s with keyAllowed := true }.take 1 .blockEntry

def key (s : Scan) : Option Scan := do
  let s ← (← s.openHere .blockMapping).dropKey
  return { s with keyAllowed := !s.inFlow }.take 1 .key

/-- A colon: what stands at the last place for a key is one, and may open a block mapping. -/
def value (s : Scan) : Option Scan :=
  match s.key? with
  | some k =>
    let s := (s.emitAfter k.before .key).openAt k.column k.before .blockMapping
    some ({ s with key? := none, keyAllowed := false }.take 1 .value)
  | none => do
    let s ← s.openHere .blockMapping
    return { s with keyAllowed := !s.inFlow }.take 1 .value

def content (s : Scan) (read : Cursor → Option (Token × Cursor)) : Option Scan := do
  let s ← s.markKey
  let (t, cursor) ← read s.cursor
  return { s.emit t with cursor, keyAllowed := false }

def blockScalar (s : Scan) (isFolded : Bool) : Option Scan := do
  let s ← s.dropKey
  let (text, cursor) ← Lexeme.block isFolded s.indent s.cursor
  return { s.emit (.scalar (String.ofList text) false) with cursor, keyAllowed := true }

def plainScalar (s : Scan) : Option Scan := do
  let s ← s.markKey
  let (text, multiline, cursor) ← Lexeme.plain s.inFlow (s.indent + 1).toNat s.cursor
  return { s.emit (.scalar (String.ofList text) true) with cursor, keyAllowed := multiline }

/-- A plain scalar begins with no indicator, or with a dash, a question mark or a colon that is not
one here. -/
def startsPlain (inFlow : Bool) : List Char → Bool
  | [] => false
  | c :: rest =>
    (!isGap c && !isIndicator c && c != '-' && c != '?' && c != ':')
      || (c == '-' && !rest.head?.any isBlank)
      || (!inFlow && (c == '?' || c == ':') && !endsWord rest)

def quoted (s : Scan) (quote : Char) : Option Scan :=
  s.content fun c =>
    (Lexeme.quoted quote c).map fun (text, c) => (.scalar (String.ofList text) false, c)

def dispatch (s : Scan) : Option Scan :=
  let c := s.cursor
  if c.column = 0 ∧ c.rest.head? = some '%' then s.directive
  else if c.atMarker '-' then s.marker .documentStart
  else if c.atMarker '.' then s.marker .documentEnd
  else match c.rest with
    | '[' :: _ => s.openFlow .flowSequence
    | '{' :: _ => s.openFlow .flowMapping
    | ']' :: _ => s.closeFlow .flowSequenceEnd
    | '}' :: _ => s.closeFlow .flowMappingEnd
    | ',' :: _ => s.flowEntry
    | '*' :: _ => s.content fun c => (Lexeme.anchorName c).map fun (name, c) => (.alias name, c)
    | '&' :: _ => s.content fun c => (Lexeme.anchorName c).map fun (name, c) => (.anchor name, c)
    | '!' :: _ => s.content fun c =>
      (Lexeme.tag s.inFlow c).map fun (handle, suffix, c) => (.tag handle suffix, c)
    | '\'' :: _ => s.quoted '\''
    | '"' :: _ => s.quoted '"'
    | first :: rest =>
      if first = '-' ∧ endsWord rest then s.blockEntry
      else if first = '?' ∧ (s.inFlow || endsWord rest) then s.key
      else if first = ':' ∧ (s.inFlow || endsWord rest) then s.value
      else if first = '|' ∧ !s.inFlow then s.blockScalar false
      else if first = '>' ∧ !s.inFlow then s.blockScalar true
      else if startsPlain s.inFlow c.rest then s.plainScalar
      else none
    | [] => none

/-- Scans to the end. Every step but the last moves the cursor. -/
def run : (fuel : Nat) → Scan → Option (List Token)
  | 0, _ => none
  | fuel + 1, s => do
    let s := skipGap (s.cursor.rest.length + 1) s
    let s ← s.dropStaleKeys
    let s := s.closeTo s.cursor.column
    if s.cursor.rest.isEmpty then
      let s ← (s.closeTo (-1)).dropKey
      return s.tokens.reverse
    else run fuel (← s.dispatch)

end Scan

def ofChars? (cs : List Char) : Option (List Token) := (Scan.ofChars cs).run (cs.length + 1)

end Token

end Reconciler.Yaml
