import Reconciler.Batch
import Reconciler.Number.Shortest
import Reconciler.Yaml.Cursor
import Reconciler.Yaml.Scalar

/-! Documents as YAML text in block style. Fields are written in the order in which they stand, and
no line is folded. -/
namespace Reconciler.Yaml

/-- The styles in which a string is written. -/
inductive Style where
  | plain
  | single
  | double
  | literal
deriving DecidableEq

namespace Style

def isShown (c : Char) : Bool :=
  let n := c.toNat
  n == 0x0A || (0x20 ≤ n && n ≤ 0x7E) || (0xA0 ≤ n && n ≤ 0xFFFD && n != 0xFEFF) || 0x10000 ≤ n

def hasPair (first second : Char → Bool) : List Char → Bool
  | a :: b :: cs => (first a && second b) || hasPair first second (b :: cs)
  | _ => false

def startsIndicator : List Char → Bool
  | [] => false
  | c :: rest => isIndicator c || ((c == '?' || c == ':' || c == '-') && endsWord rest)

/-- A colon before a gap or the end, or a hash after a gap, behind the first character. -/
def hasInnerIndicator (cs : List Char) : Bool :=
  hasPair isGap (· == '#') cs || hasPair (· == ':') isGap cs
    || (cs.length > 1 && cs.getLast? == some ':')

def startsMarker (cs : List Char) : Bool :=
  cs.take 3 == ['-', '-', '-'] || cs.take 3 == ['.', '.', '.']

def plainAllowed (cs : List Char) : Bool :=
  cs.all (fun c => isShown c && !isBreak c) && cs.head? != some ' ' && cs.getLast? != some ' '
    && !startsMarker cs && !startsIndicator cs && !hasInnerIndicator cs

def singleAllowed (cs : List Char) : Bool :=
  cs.all isShown && !hasPair isBreak (· == ' ') cs && !hasPair (· == ' ') isBreak cs

def literalAllowed (cs : List Char) : Bool :=
  cs.all isShown && cs.getLast? != some ' ' && !hasPair (· == ' ') isBreak cs

/-- A plain scalar with this text is not read as a string, or would be a number but for its zeros. -/
def readsOtherwise (s : String) : Bool :=
  Plain.ofText s != .string || Plain.isZeroLed s.toList

/-- Several lines are literal, what reads otherwise is quoted, and all else is plain; a style that
cannot hold the text gives way to the next one. -/
def ofText (s : String) : Style :=
  let cs := s.toList
  if cs.contains '\n' then if literalAllowed cs then .literal else .double
  else if !readsOtherwise s && plainAllowed cs then .plain
  else if singleAllowed cs then .single
  else .double

end Style

def pad (indent : Nat) : List Char := List.replicate indent ' '

/-- Lines with padding in front of each that is not empty. `atStart` tells that the text begins at
the start of a line. -/
def padLines (indent : Nat) : (atStart : Bool) → List Char → List Char
  | _, [] => []
  | atStart, c :: cs =>
    if isBreak c then c :: padLines indent true cs
    else if atStart then pad indent ++ c :: padLines indent false cs
    else c :: padLines indent false cs

def singleQuoted (indent : Nat) (cs : List Char) : List Char :=
  let body := cs.flatMap fun c => if c = '\'' then ['\'', '\''] else [c]
  let ending := if cs.getLast?.any isBreak then pad indent else []
  '\'' :: padLines indent false body ++ ending ++ ['\'']

def hexDigits (digits n : Nat) : List Char :=
  let cs := (Nat.toDigits 16 n).map Char.toUpper
  List.replicate (digits - cs.length) '0' ++ cs

def letterEscapes : List (Char × Char) :=
  [('\x00', '0'), ('\x07', 'a'), ('\x08', 'b'), ('\t', 't'), ('\n', 'n'), ('\x0b', 'v'), ('\x0c', 'f'),
    ('\r', 'r'), ('\x1b', 'e'), ('"', '"'), ('\\', '\\'), ('\u0085', 'N'), ('\u2028', 'L'),
    ('\u2029', 'P')]

def escapeChar (c : Char) : List Char :=
  match letterEscapes.lookup c with
  | some letter => ['\\', letter]
  | none =>
    let n := c.toNat
    if Style.isShown c then [c]
    else if n < 0x100 then '\\' :: 'x' :: hexDigits 2 n
    else if n < 0x10000 then '\\' :: 'u' :: hexDigits 4 n
    else '\\' :: 'U' :: hexDigits 8 n

def doubleQuoted (cs : List Char) : List Char := '"' :: cs.flatMap escapeChar ++ ['"']

/-- What follows the mark of a literal scalar: the indentation if the text begins with a gap, and how
many breaks end it if not one does. -/
def literalHints (cs : List Char) : List Char :=
  let indentation := if cs.head?.any fun c => c == ' ' || isBreak c then ['2'] else []
  let chomping := match cs.reverse with
    | [] => ['-']
    | [last] => if isBreak last then ['+'] else ['-']
    | last :: before :: _ => if !isBreak last then ['-'] else if isBreak before then ['+'] else []
  indentation ++ chomping

def literal (indent : Nat) (cs : List Char) : List Char :=
  '|' :: literalHints cs ++ '\n' :: padLines indent true cs

def stringText (indent : Nat) (s : String) : List Char :=
  match Style.ofText s with
  | .plain => s.toList
  | .single => singleQuoted indent s.toList
  | .double => doubleQuoted s.toList
  | .literal => literal indent s.toList

def endLine (cs : List Char) : List Char :=
  if cs.getLast?.any isBreak then cs else cs ++ ['\n']

/-- Keys on one line of at most 128 octets need no mark before them. -/
def isSimpleKey (key : String) : Bool := key.utf8ByteSize ≤ 128 && !key.toList.any isBreak

def joined (indent : Nat) (members : List (List Char)) : List Char :=
  List.intercalate (pad indent) members

def inline (indent : Nat) : Document → List Char
  | .null => ['n', 'u', 'l', 'l']
  | .bool b => if b then ['t', 'r', 'u', 'e'] else ['f', 'a', 'l', 's', 'e']
  | .number (.int n) => (toString n).toList
  | .number (.float x) => (x.text .bare).toList
  | .string s => stringText indent s
  | .array _ => ['[', ']']
  | .object _ => ['{', '}']

mutual

/-- A value after a mark that stands at column `indent`; its members start on the same line. -/
def afterMark (indent : Nat) : Document → List Char
  | .array (d :: ds) => ' ' :: joined (indent + 2) (itemTexts (indent + 2) (d :: ds))
  | .object (f :: fs) => ' ' :: joined (indent + 2) (fieldTexts (indent + 2) (f :: fs))
  | d => ' ' :: endLine (inline (indent + 2) d)
termination_by structural d => d

/-- A value after a key that stands at column `indent`. Items are not indented more than the key. -/
def afterKey (indent : Nat) : Document → List Char
  | .array (d :: ds) => '\n' :: pad indent ++ joined indent (itemTexts indent (d :: ds))
  | .object (f :: fs) => '\n' :: pad (indent + 2) ++ joined (indent + 2) (fieldTexts (indent + 2) (f :: fs))
  | d => ' ' :: endLine (inline (indent + 2) d)
termination_by structural d => d

def itemTexts (indent : Nat) : List Document → List (List Char)
  | [] => []
  | d :: ds => ('-' :: afterMark indent d) :: itemTexts indent ds
termination_by structural ds => ds

def fieldTexts (indent : Nat) : List (String × Document) → List (List Char)
  | [] => []
  | (key, d) :: fs =>
    let text := stringText (indent + 2) key
    (if isSimpleKey key then text ++ ':' :: afterKey indent d
      else '?' :: ' ' :: endLine text ++ pad indent ++ ':' :: afterMark indent d)
      :: fieldTexts indent fs
termination_by structural fs => fs

end

def write : Document → String
  | .array (d :: ds) => String.ofList (joined 0 (itemTexts 0 (d :: ds)))
  | .object (f :: fs) => String.ofList (joined 0 (fieldTexts 0 (f :: fs)))
  | d => String.ofList (endLine (inline 2 d))

end Yaml

def Resource.toYaml (r : Resource) : String := Yaml.write r.root

def Batch.toYaml (b : Batch) : String := Yaml.write b.toDocument

end Reconciler
