import Reconciler.Text.Printable

/-! Texts in double quotes, as messages and listings show them. -/
namespace Reconciler.Text

def hex (n : Nat) : List Char := (Nat.toDigits 16 n)

/-- One character between quotes: the five short escapes, the character itself, or its number. -/
def quoteChar (c : Char) : List Char :=
  if c = '"' then ['\\', '"']
  else if c = '\\' then ['\\', '\\']
  else if c = '\n' then ['\\', 'n']
  else if c = '\r' then ['\\', 'r']
  else if c = '\t' then ['\\', 't']
  else if c = '\x00' then ['\\', '0']
  else if isPrintable c then [c]
  else ['\\', 'u', '{'] ++ hex c.toNat ++ ['}']

def quote (s : String) : String := String.ofList ('"' :: s.toList.flatMap quoteChar ++ ['"'])

end Reconciler.Text
