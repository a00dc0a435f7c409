/-! White space as the Unicode property `White_Space` lists it, and trimming by that list. -/
namespace Reconciler.Text

/-- Every member lies in the basic plane. The sets of `Char.isWhitespace` and of YAML are smaller. -/
def isBlank (c : Char) : Bool :=
  let n := c.toNat
  (9 ≤ n && n ≤ 13) || n == 0x20 || n == 0x85 || n == 0xA0 || n == 0x1680
    || (0x2000 ≤ n && n ≤ 0x200A) || n == 0x2028 || n == 0x2029 || n == 0x202F || n == 0x205F
    || n == 0x3000

def trimBlanks (cs : List Char) : List Char :=
  ((cs.dropWhile isBlank).reverse.dropWhile isBlank).reverse

def trim (s : String) : String := String.ofList (trimBlanks s.toList)

/-- Only the letters A to Z are lowered. -/
def lowerAscii (s : String) : String := s.map fun c =>
  if 'A' ≤ c ∧ c ≤ 'Z' then Char.ofNat (c.toNat + 32) else c

end Reconciler.Text
