/-! Tags, and what they ask of the nodes that carry them. A tag is a sequence of octets, because the
percent escapes in it need not spell a text. -/
namespace Reconciler.Yaml

/-- The types that a tag can demand of a scalar. -/
inductive CoreType where
  | null
  | bool
  | int
  | float
deriving DecidableEq

/-- A core tag demands a type of its scalar, and a named one becomes a part of the value. An
illegible one is ignored, and under any other a scalar is a string. -/
inductive Tag where
  | core (type : CoreType)
  | named (name : String)
  | illegible
  | other
deriving DecidableEq

namespace Tag

def mark : UInt8 := 0x21

def octets (text : String) : List UInt8 := text.toUTF8.toList

def coreExpansion : List UInt8 := octets "tag:yaml.org,2002:"

def coreTypes : List (List UInt8 × CoreType) :=
  [("null", .null), ("bool", .bool), ("int", .int), ("float", .float)].map fun e =>
    (coreExpansion ++ octets e.1, e.2)

/-- A part of a tag ends before its first zero octet. -/
def beforeZero (os : List UInt8) : List UInt8 := os.takeWhile (· != 0)

def afterMark : List UInt8 → List UInt8
  | o :: next :: os => if o = mark then next :: os else o :: next :: os
  | os => os

def text? (os : List UInt8) : Option String := String.fromUTF8? ⟨os.toArray⟩

/-- The tag of its octets. A name has lost its mark, and a second one if more follows. -/
def ofOctets (os : List UInt8) : Tag :=
  match coreTypes.lookup os with
  | some type => .core type
  | none =>
    if os.head? = some mark then
      ((text? (afterMark (afterMark os))).map Tag.named).getD .illegible
    else .other

def octetCount? (first : UInt8) : Option Nat :=
  if first < 0x80 then some 1
  else if first < 0xC0 then none
  else if first < 0xE0 then some 2
  else if first < 0xF0 then some 3
  else if first < 0xF8 then some 4
  else none

def isLater (o : UInt8) : Bool := 0x80 ≤ o && o < 0xC0

end Tag

end Reconciler.Yaml
