import Reconciler.Document.Basic
import Reconciler.Number.Shortest

/-! Documents as JSON text, on one line or indented. Fields are written in the order in which they
stand. -/
namespace Reconciler.Json

def escapeChar (c : Char) : List Char :=
  if c = '"' then ['\\', '"']
  else if c = '\\' then ['\\', '\\']
  else if c = '\x08' then ['\\', 'b']
  else if c = '\x0c' then ['\\', 'f']
  else if c = '\n' then ['\\', 'n']
  else if c = '\r' then ['\\', 'r']
  else if c = '\t' then ['\\', 't']
  else if c.toNat < 0x20 then
    ['\\', 'u', '0', '0', Nat.digitChar (c.toNat / 16), Nat.digitChar (c.toNat % 16)]
  else [c]

def stringText (s : String) : String := String.ofList ('"' :: s.toList.flatMap escapeChar ++ ['"'])

def numberText : Number → String
  | .int n => toString n
  | .float x => x.text .signed

mutual

def compact : Document → String
  | .null => "null"
  | .bool b => if b then "true" else "false"
  | .number n => numberText n
  | .string s => stringText s
  | .array items => "[" ++ ",".intercalate (compactItems items) ++ "]"
  | .object fields => "\x7b" ++ ",".intercalate (compactFields fields) ++ "\x7d"
termination_by structural d => d

def compactItems : List Document → List String
  | [] => []
  | d :: ds => compact d :: compactItems ds
termination_by structural d => d

def compactFields : List (String × Document) → List String
  | [] => []
  | (key, d) :: ds => (stringText key ++ ":" ++ compact d) :: compactFields ds
termination_by structural d => d

end

/-- Members on lines of their own, two spaces deeper than the brackets. -/
def block (opening closing : String) (depth : Nat) (members : List String) : String :=
  let line (depth : Nat) := "\n" ++ String.ofList (List.replicate (2 * depth) ' ')
  if members.isEmpty then opening ++ closing
  else opening ++ ",".intercalate (members.map (line (depth + 1) ++ ·)) ++ line depth ++ closing

mutual

def indented (depth : Nat) : Document → String
  | .array items => block "[" "]" depth (indentedItems (depth + 1) items)
  | .object fields => block "\x7b" "\x7d" depth (indentedFields (depth + 1) fields)
  | .null => "null"
  | .bool b => if b then "true" else "false"
  | .number n => numberText n
  | .string s => stringText s
termination_by structural d => d

def indentedItems (depth : Nat) : List Document → List String
  | [] => []
  | d :: ds => indented depth d :: indentedItems depth ds
termination_by structural d => d

def indentedFields (depth : Nat) : List (String × Document) → List String
  | [] => []
  | (key, d) :: ds =>
    (stringText key ++ ": " ++ indented depth d) :: indentedFields depth ds
termination_by structural d => d

end

def pretty (d : Document) : String := indented 0 d

end Reconciler.Json
