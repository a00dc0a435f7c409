import Reconciler.Document.Basic

/-! Documents from JSON text. -/
namespace Reconciler.Json

def isSpace (c : Char) : Bool := c == ' ' || c == '\t' || c == '\n' || c == '\r'

def skipSpace (cs : List Char) : List Char := cs.dropWhile isSpace

def digitValue (c : Char) : Nat := c.toNat - 48

def spanDigits (cs : List Char) : List Nat × List Char :=
  ((cs.takeWhile Char.isDigit).map digitValue, cs.dropWhile Char.isDigit)

def hexValue? (c : Char) : Option Nat :=
  if '0' ≤ c ∧ c ≤ '9' then some (c.toNat - 48)
  else if 'a' ≤ c ∧ c ≤ 'f' then some (c.toNat - 87)
  else if 'A' ≤ c ∧ c ≤ 'F' then some (c.toNat - 55)
  else none

def hexUnit : List Char → Option (Nat × List Char)
  | a :: b :: c :: d :: rest => do
    let a ← hexValue? a
    let b ← hexValue? b
    let c ← hexValue? c
    let d ← hexValue? d
    return (4096 * a + 256 * b + 16 * c + d, rest)
  | _ => none

/-- The character of a code unit after `\u`; a high surrogate needs its low one. -/
def unitChar (unit : Nat) (rest : List Char) : Option (Char × List Char) :=
  if 0xD800 ≤ unit ∧ unit < 0xDC00 then
    match rest with
    | '\\' :: 'u' :: rest => do
      let (low, rest) ← hexUnit rest
      if 0xDC00 ≤ low ∧ low < 0xE000 then
        return (Char.ofNat (0x10000 + (unit - 0xD800) * 1024 + (low - 0xDC00)), rest)
      else none
    | _ => none
  else if 0xDC00 ≤ unit ∧ unit < 0xE000 then none
  else some (Char.ofNat unit, rest)

/-- One character of a string and what follows it; nothing at a quote, a control or a bad escape. -/
def stringChar : List Char → Option (Char × List Char)
  | '\\' :: 'u' :: rest => do
    let (unit, rest) ← hexUnit rest
    unitChar unit rest
  | '\\' :: c :: rest =>
    (['"', '\\', '/', 'b', 'f', 'n', 'r', 't'].zip ['"', '\\', '/', '\x08', '\x0c', '\n', '\r', '\t']).lookup
      c |>.map (·, rest)
  | c :: rest => if c = '"' ∨ c = '\\' ∨ c.toNat < 0x20 then none else some (c, rest)
  | [] => none

/-- The rest of a string after its opening quote. The fuel is the number of characters. -/
def stringBody : (fuel : Nat) → List Char → Option (List Char × List Char)
  | _, '"' :: rest => some ([], rest)
  | 0, _ => none
  | fuel + 1, cs => do
    let (c, rest) ← stringChar cs
    let (body, rest) ← stringBody fuel rest
    return (c :: body, rest)

/-- Appends digits to a word as long as it fits into 64 bits. The second component is how many digits
are left over. -/
def takeWord (word : Nat) : List Nat → Nat × Nat
  | [] => (word, 0)
  | d :: ds =>
    if word * 10 + d < 1 <<< 64 then takeWord (word * 10 + d) ds else (word, ds.length + 1)

def power (n : Nat) : Option Binary64 := Binary64.ofDecimal? false 1 n

/-- Scales by a power of ten, in at most three divisions by `10 ^ 308` and one more step. Each step
rounds. -/
def scale : (fuel : Nat) → Binary64 → (exponent : Int) → Option Binary64
  | 0, x, _ => some x
  | fuel + 1, x, exponent =>
    if exponent.natAbs ≤ 308 then do
      let p ← power exponent.natAbs
      if 0 ≤ exponent then x.mul? p else x.div? p
    else if x.magnitude = 0 then some x
    else if 0 ≤ exponent then none
    else do scale fuel (← x.div? (← power 308)) (exponent + 308)

def scaled (negative : Bool) (word : Nat) (exponent : Int) : Option Number := do
  let x ← scale 8 (← Binary64.ofRatio? false word 1) exponent
  return .float { x with negative }

def exponentPart (cs : List Char) : Option (Int × List Char) :=
  let (negative, cs) := match cs with
    | '+' :: cs => (false, cs)
    | '-' :: cs => (true, cs)
    | cs => (false, cs)
  match spanDigits cs with
  | ([], _) => none
  | (digits, rest) =>
    let n : Nat := digits.foldl (fun n d => n * 10 + d) 0
    some (if negative then -(n : Int) else n, rest)

/-- A number after its sign. Integers of 64 bits are exact, and so is the distinction between `1`
and `1.0`; `-0` is not an integer. -/
def number (negative : Bool) (cs : List Char) : Option (Number × List Char) :=
  match spanDigits cs with
  | ([], _) => none
  | (digits, rest) =>
    if digits.length > 1 ∧ digits.head? = some 0 then none
    else
      let (word, dropped) := takeWord 0 digits
      let finish (word : Nat) (exponent : Int) (rest : List Char) : Option (Number × List Char) :=
        match rest with
        | 'e' :: rest | 'E' :: rest => do
          let (e, rest) ← exponentPart rest
          return (← scaled negative word (exponent + e), rest)
        | rest => do return (← scaled negative word exponent, rest)
      match rest with
      | '.' :: rest =>
        match spanDigits rest with
        | ([], _) => none
        | (fraction, rest) =>
          let (word, unused) := takeWord word fraction
          finish word (dropped - (fraction.length - unused : Nat)) rest
      | 'e' :: _ | 'E' :: _ => finish word dropped rest
      | rest =>
        if dropped ≠ 0 then finish word dropped rest
        else if !negative then some (.int word, rest)
        else if word ≠ 0 ∧ word ≤ 1 <<< 63 then some (.int (-word), rest)
        else do return (← scaled true word 0, rest)

def dropPrefix? (start : List Char) (cs : List Char) : Option (List Char) :=
  if start.isPrefixOf cs then some (cs.drop start.length) else none

mutual

/-- A value and what follows it. `depth` is how many brackets may still be opened. -/
def value : (fuel depth : Nat) → List Char → Option (Document × List Char)
  | 0, _, _ => none
  | fuel + 1, depth, cs =>
    match cs with
    | '"' :: rest => do
      let (body, rest) ← stringBody rest.length rest
      return (.string (String.ofList body), rest)
    | '[' :: rest => do
      if depth = 0 then none
      let rest := skipSpace rest
      if let ']' :: rest := rest then return (.array [], rest)
      let (items, rest) ← items fuel (depth - 1) rest
      return (.array items, rest)
    | '{' :: rest => do
      if depth = 0 then none
      let rest := skipSpace rest
      if let '}' :: rest := rest then return (.object [], rest)
      let (pairs, rest) ← fields fuel (depth - 1) rest
      return (.ofPairs pairs, rest)
    | '-' :: rest => (number true rest).map fun (n, rest) => (.number n, rest)
    | cs =>
      (dropPrefix? ['n', 'u', 'l', 'l'] cs).map (Document.null, ·)
      <|> (dropPrefix? ['t', 'r', 'u', 'e'] cs).map (Document.bool true, ·)
      <|> (dropPrefix? ['f', 'a', 'l', 's', 'e'] cs).map (Document.bool false, ·)
      <|> (number false cs).map fun (n, rest) => (.number n, rest)

def items : (fuel depth : Nat) → List Char → Option (List Document × List Char)
  | 0, _, _ => none
  | fuel + 1, depth, cs => do
    let (d, rest) ← value fuel depth (skipSpace cs)
    match skipSpace rest with
    | ',' :: rest =>
      let (ds, rest) ← items fuel depth rest
      return (d :: ds, rest)
    | ']' :: rest => return ([d], rest)
    | _ => none

def fields : (fuel depth : Nat) → List Char → Option (List (String × Document) × List Char)
  | 0, _, _ => none
  | fuel + 1, depth, cs =>
    match skipSpace cs with
    | '"' :: rest => do
      let (key, rest) ← stringBody rest.length rest
      match skipSpace rest with
      | ':' :: rest =>
        let (d, rest) ← value fuel depth (skipSpace rest)
        let pair := (String.ofList key, d)
        match skipSpace rest with
        | ',' :: rest =>
          let (pairs, rest) ← fields fuel depth rest
          return (pair :: pairs, rest)
        | '}' :: rest => return ([pair], rest)
        | _ => none
      | _ => none
    | _ => none

end

/-- Reads a whole text. At most 127 brackets may be open at once; of equal keys the last counts. -/
def parse? (text : String) : Option Document := do
  let cs := text.toList
  let (d, rest) ← value (2 * cs.length + 2) 127 (skipSpace cs)
  if skipSpace rest = [] then some d else none

end Reconciler.Json
