import Reconciler.Yaml.Cursor
import Reconciler.Yaml.Tag

/-! The parts of a YAML text that carry content: scalars in their five styles, anchors, tags and
directives. Each function reads one of them from a cursor and gives nothing when the text is
malformed. -/
namespace Reconciler.Yaml

/-- What stands between two words of a scalar: blanks on one line, or the first break and the breaks
after it. Blanks around breaks are not kept. -/
inductive Gap where
  | blanks (cs : List Char)
  | breaks (first later : List Char)

namespace Gap

/-- A single line feed becomes a space, and the first of several is dropped. -/
def folded : Gap → List Char
  | .blanks cs => cs
  | .breaks ['\n'] [] => [' ']
  | .breaks ['\n'] later => later
  | .breaks first later => first ++ later

def isMultiline : Gap → Bool
  | .blanks _ => false
  | .breaks .. => true

/-- Goes on with a gap. Left of column `indent` no tab may follow a break. -/
def read (indent : Nat) : (fuel : Nat) → Gap → Cursor → Option (Gap × Cursor)
  | 0, gap, c => some (gap, c)
  | fuel + 1, gap, c =>
    match c.rest with
    | [] => some (gap, c)
    | ch :: _ =>
      if isBlank ch then
        match gap with
        | .blanks cs => read indent fuel (.blanks (cs ++ [ch])) (c.advance 1)
        | .breaks .. =>
          if ch = '\t' ∧ c.column < indent then none else read indent fuel gap (c.advance 1)
      else if isBreak ch then
        let (new, c) := c.readBreak
        match gap with
        | .blanks _ => read indent fuel (.breaks new []) c
        | .breaks first later => read indent fuel (.breaks first (later ++ new)) c
      else some (gap, c)

end Gap

namespace Lexeme

def isFlowIndicator (c : Char) : Bool := [',', '[', ']', '{', '}'].contains c

/-- A word of a plain scalar: up to a gap, a colon before one, or an indicator inside a flow
collection. -/
def plainWord (inFlow : Bool) : List Char → Option (List Char)
  | [] => some []
  | c :: rest =>
    if isGap c then some []
    else if inFlow && c == ':' && rest.head?.any fun d => d == '?' || isFlowIndicator d then none
    else if c == ':' && endsWord rest then some []
    else if inFlow && isFlowIndicator c then some []
    else (plainWord inFlow rest).map (c :: ·)

/-- The rest of a plain scalar after a gap. The flag tells whether the last gap had a break. -/
def plainRest (inFlow : Bool) (indent : Nat) :
    (fuel : Nat) → Gap → Cursor → Option (List Char × Bool × Cursor)
  | 0, gap, c => some ([], gap.isMultiline, c)
  | fuel + 1, gap, c => do
    if c.atDocumentMarker || c.rest.head? == some '#' then
      return ([], gap.isMultiline, c)
    let word ← plainWord inFlow c.rest
    let before := if word.isEmpty then [] else gap.folded ++ word
    let pending := if word.isEmpty then gap else .blanks []
    let c := c.advance word.length
    if !c.rest.head?.any isGap then return (before, pending.isMultiline, c)
    let (gap, c) ← pending.read indent c.rest.length c
    if !inFlow && c.column < indent then return (before, gap.isMultiline, c)
    let (after, multiline, c) ← plainRest inFlow indent fuel gap c
    return (before ++ after, multiline, c)

/-- A plain scalar. Outside flow collections a line left of column `indent` ends it. -/
def plain (inFlow : Bool) (indent : Nat) (c : Cursor) : Option (List Char × Bool × Cursor) :=
  plainRest inFlow indent (c.rest.length + 1) (.blanks []) c

def singleWord : List Char → List Char × Nat
  | '\'' :: '\'' :: rest =>
    let (word, n) := singleWord rest
    ('\'' :: word, n + 2)
  | c :: rest =>
    if c = '\'' ∨ isGap c then ([], 0)
    else
      let (word, n) := singleWord rest
      (c :: word, n + 1)
  | [] => ([], 0)

def hexDigit? (c : Char) : Option Nat :=
  if c.isDigit then some (c.toNat - 48)
  else if 'a' ≤ c ∧ c ≤ 'f' then some (c.toNat - 87)
  else if 'A' ≤ c ∧ c ≤ 'F' then some (c.toNat - 55)
  else none

def codePoint (n : Nat) (cs : List Char) : Option Char := do
  let digits ← (cs.take n).mapM hexDigit?
  guard (digits.length = n)
  let code := digits.foldl (fun code d => code * 16 + d) 0
  guard (code < 0xD800 ∨ (0xDFFF < code ∧ code ≤ 0x10FFFF))
  return Char.ofNat code

def shortEscapes : List (Char × Char) :=
  [('0', '\x00'), ('a', '\x07'), ('b', '\x08'), ('t', '\t'), ('\t', '\t'), ('n', '\n'), ('v', '\x0b'),
    ('f', '\x0c'), ('r', '\r'), ('e', '\x1b'), (' ', ' '), ('"', '"'), ('/', '/'), ('\\', '\\'),
    ('N', '\u0085'), ('_', '\u00a0'), ('L', '\u2028'), ('P', '\u2029')]

def escape : List Char → Option (Char × Nat)
  | 'x' :: rest => (codePoint 2 rest).map (·, 3)
  | 'u' :: rest => (codePoint 4 rest).map (·, 5)
  | 'U' :: rest => (codePoint 8 rest).map (·, 9)
  | c :: _ => (shortEscapes.lookup c).map (·, 1)
  | [] => none

/-- A word between double quotes and its length in the text. The flag tells that a backslash before
a break ended it. -/
def doubleWord : (fuel : Nat) → List Char → Option (List Char × Nat × Bool)
  | 0, _ => some ([], 0, false)
  | _, [] => some ([], 0, false)
  | fuel + 1, '\\' :: rest => do
    if rest.head?.any isBreak then return ([], 1, true)
    let (ch, n) ← escape rest
    let (word, m, broken) ← doubleWord fuel (rest.drop n)
    return (ch :: word, 1 + n + m, broken)
  | fuel + 1, c :: rest => do
    if c = '"' ∨ isGap c then return ([], 0, false)
    let (word, n, broken) ← doubleWord fuel rest
    return (c :: word, n + 1, broken)

def quotedWord (quote : Char) (c : Cursor) : Option (List Char × Gap × Cursor) :=
  if quote = '\'' then
    let (word, n) := singleWord c.rest
    some (word, .blanks [], c.advance n)
  else do
    let (word, n, broken) ← doubleWord (c.rest.length + 1) c.rest
    let c := c.advance n
    return if broken then (word, .breaks [] [], c.skipBreak) else (word, .blanks [], c)

def quotedRest (quote : Char) : (fuel : Nat) → Cursor → Option (List Char × Cursor)
  | 0, _ => none
  | fuel + 1, c => do
    guard (!c.atDocumentMarker && !c.rest.isEmpty)
    let (word, gap, c) ← quotedWord quote c
    if c.rest.head? = some quote then return (word, c.advance 1)
    let (gap, c) ← gap.read 0 c.rest.length c
    let (after, c) ← quotedRest quote fuel c
    return (word ++ gap.folded ++ after, c)

def quoted (quote : Char) (c : Cursor) : Option (List Char × Cursor) :=
  quotedRest quote (c.rest.length + 1) (c.advance 1)

/-- What happens to the breaks at the end of a block scalar. -/
inductive Chomp where
  | strip
  | clip
  | keep
deriving DecidableEq

def chompSign : Cursor → Chomp × Cursor
  | c =>
    match c.rest with
    | '+' :: _ => (.keep, c.advance 1)
    | '-' :: _ => (.strip, c.advance 1)
    | _ => (.clip, c)

/-- The indentation that a block scalar declares, in one digit; zero when there is none. -/
def indentDigit (c : Cursor) : Option (Nat × Cursor) :=
  match c.rest with
  | '0' :: _ => none
  | d :: _ => if d.isDigit then some (d.toNat - 48, c.advance 1) else some (0, c)
  | [] => some (0, c)

/-- The first line of a block scalar after its indicator: chomping and indentation in either order,
then nothing but a comment. -/
def blockHeader (c : Cursor) : Option (Chomp × Nat × Cursor) := do
  let (chomp, c) := chompSign c
  let (increment, c) ← indentDigit c
  let (chomp, c) := if chomp = .clip ∧ increment ≠ 0 then chompSign c else (chomp, c)
  let c := c.skipToBreak
  guard c.atLineEnd
  return (chomp, increment, c.skipBreak)

/-- Empty lines before a line of a block scalar, and the largest column among them. An indentation
of zero is not known yet; no tab may stand inside the indentation. -/
def blockBreaks (indent : Nat) :
    (fuel : Nat) → (breaks : List Char) → (column : Nat) → Cursor → Option (List Char × Nat × Cursor)
  | 0, _, _, _ => none
  | fuel + 1, breaks, column, c =>
    let spaces := (c.rest.takeWhile (· == ' ')).length
    let c := c.advance (if indent = 0 then spaces else min spaces (indent - c.column))
    let column := max column c.column
    if (indent = 0 ∨ c.column < indent) ∧ c.rest.head? = some '\t' then none
    else if c.atBreak then
      let (new, c) := c.readBreak
      blockBreaks indent fuel (breaks ++ new) column c
    else some (breaks, column, c)

/-- The lines of a block scalar. `first` is the break before them, `later` those of the empty lines
after it, and `wasBlank` tells that the line before began with a blank. -/
def blockLines (isFolded : Bool) (chomp : Chomp) (indent : Nat) :
    (fuel : Nat) → (first later : List Char) → (wasBlank : Bool) → Cursor → Option (List Char × Cursor)
  | 0, _, _, _, _ => none
  | fuel + 1, first, later, wasBlank, c => do
    if c.column ≠ indent ∨ c.rest = [] then
      return match chomp with
        | .strip => ([], c)
        | .clip => (first, c)
        | .keep => (first ++ later, c)
    let isBlankLine := c.rest.head?.any isBlank
    let joint :=
      if isFolded && first == ['\n'] && !wasBlank && !isBlankLine then
        if later.isEmpty then [' '] else later
      else first ++ later
    let (line, c) := c.span (!isBreak ·)
    let (first, c) := c.readBreak
    let (later, _, c) ← blockBreaks indent (c.rest.length + 1) [] 0 c
    let (after, c) ← blockLines isFolded chomp indent fuel first later isBlankLine c
    return (joint ++ line ++ after, c)

/-- A block scalar with its indicator, inside a node that is indented by `parent`. Without a declared
indentation the first line that is not empty sets it. -/
def block (isFolded : Bool) (parent : Int) (c : Cursor) : Option (List Char × Cursor) := do
  let (chomp, increment, c) ← blockHeader (c.advance 1)
  let declared := if increment = 0 then 0 else (max parent 0).toNat + increment
  let (breaks, column, c) ← blockBreaks declared (c.rest.length + 1) [] 0 c
  let indent := if declared = 0 then max column (max (parent + 1) 1).toNat else declared
  blockLines isFolded chomp indent (c.rest.length + 1) [] breaks false c

def anchorName (c : Cursor) : Option (String × Cursor) := do
  let (word, c) := (c.advance 1).span isWordChar
  guard (word ≠ [])
  guard (endsWord c.rest || c.rest.head?.any fun d => "?:,]\x7d%@\x60".contains d)
  return (String.ofList word, c)

/-- A tag's handle. In a directive it ends with a second mark unless it is a lone one. -/
def tagHandle (inDirective : Bool) (c : Cursor) : Option (List Char × Cursor) := do
  guard (c.rest.head? = some '!')
  let (word, c) := (c.advance 1).span isWordChar
  if c.rest.head? = some '!' then return ('!' :: word ++ ['!'], c.advance 1)
  guard (!inDirective || word.isEmpty)
  return ('!' :: word, c)

def percentOctets : (count : Nat) → List Char → Option (List UInt8)
  | 0, _ => some []
  | count + 1, '%' :: a :: b :: rest => do
    let octet := 16 * (← hexDigit? a) + (← hexDigit? b)
    return octet.toUInt8 :: (← percentOctets count rest)
  | _ + 1, _ => none

/-- The escaped octets at the start of a tag's part: as many as the first one announces, whether or
not they spell a character. -/
def percentGroup (cs : List Char) : Option (List UInt8) := do
  let [first] ← percentOctets 1 cs | none
  let octets ← percentOctets (← Tag.octetCount? first) cs
  guard (octets.tail.all Tag.isLater)
  return octets

def tagSuffix (verbatim : Bool) : (fuel : Nat) → List Char → Option (List UInt8 × Nat)
  | 0, _ => some ([], 0)
  | fuel + 1, cs =>
    match cs with
    | '%' :: _ => do
      let group ← percentGroup cs
      let (later, n) ← tagSuffix verbatim fuel (cs.drop (3 * group.length))
      return (group ++ later, 3 * group.length + n)
    | c :: rest => do
      if isWordChar c || ";/?:@&=+$.!~*'()".contains c || (verbatim && ",[]".contains c) then
        let (later, n) ← tagSuffix verbatim fuel rest
        return (c.toNat.toUInt8 :: later, n + 1)
      else return ([], 0)
    | [] => some ([], 0)

/-- A tag as handle and suffix. Without a named handle the suffix belongs to the primary one; a lone
mark and a verbatim tag have no handle. -/
def tag (inFlow : Bool) (c : Cursor) : Option (String × List UInt8 × Cursor) := do
  let (handle, suffix, c) ←
    if c.rest[1]? = some '<' then do
      let c := c.advance 2
      let (suffix, n) ← tagSuffix true c.rest.length c.rest
      let c := c.advance n
      guard (suffix ≠ [] ∧ c.rest.head? = some '>')
      pure ([], Tag.beforeZero suffix, c.advance 1)
    else do
      let (handle, c) ← tagHandle false c
      let (suffix, n) ← tagSuffix false c.rest.length c.rest
      let c := c.advance n
      if handle.length > 1 ∧ handle.getLast? = some '!' then
        guard (suffix ≠ [])
        pure (handle, Tag.beforeZero suffix, c)
      else
        let suffix := Tag.beforeZero ((handle.drop 1).map (·.toNat.toUInt8) ++ suffix)
        pure (if suffix = [] then ([], [Tag.mark], c) else (['!'], suffix, c))
  guard (endsWord c.rest || (inFlow && c.rest.head? == some ','))
  return (String.ofList handle, suffix, c)

/-- What a directive says. -/
inductive Directive where
  | version (major minor : Nat)
  | handle (name : String) (expansion : List UInt8)
deriving DecidableEq

def versionNumber (c : Cursor) : Option (Nat × Cursor) := do
  let (digits, c) := c.span Char.isDigit
  guard (digits ≠ [] ∧ digits.length ≤ 9)
  return (digits.foldl (fun n d => n * 10 + (d.toNat - 48)) 0, c)

def directive (c : Cursor) : Option (Directive × Cursor) := do
  let (name, c) := (c.advance 1).span isWordChar
  guard (name ≠ [] ∧ endsWord c.rest)
  let c := c.skipWhile isBlank
  let (content, c) ←
    if name = ['Y', 'A', 'M', 'L'] then do
      let (major, c) ← versionNumber c
      guard (c.rest.head? = some '.')
      let (minor, c) ← versionNumber (c.advance 1)
      pure (Directive.version major minor, c)
    else if name = ['T', 'A', 'G'] then do
      let (handle, c) ← tagHandle true c
      guard (c.rest.head?.any isBlank)
      let c := c.skipWhile isBlank
      let (expansion, n) ← tagSuffix true c.rest.length c.rest
      let c := c.advance n
      guard (expansion ≠ [] ∧ endsWord c.rest)
      pure (Directive.handle (String.ofList handle) (Tag.beforeZero expansion), c)
    else none
  let c := c.skipToBreak
  guard c.atLineEnd
  return (content, c.skipBreak)

end Lexeme

end Reconciler.Yaml
