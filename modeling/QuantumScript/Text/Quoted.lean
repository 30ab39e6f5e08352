import QuantumScript.Text.Printable

/-!
# Quoted texts

A text between double quotes, as it appears inside a printed array: quotes, backslashes and the
usual controls are escaped with a backslash, every other unprintable character by its code point in
hexadecimal.
-/

namespace QuantumScript.Text

/-- A character by its code point, in lower case hexadecimal between braces. -/
def codeEscape (c : Char) : List Char :=
  ['\\', 'u', '\x7b'] ++ Nat.toDigits 16 c.toNat ++ ['\x7d']

/-- A character as a quoted text writes it. -/
def quoteChar (c : Char) : List Char :=
  if c = '\x00' then ['\\', '0']
  else if c = '\t' then ['\\', 't']
  else if c = '\r' then ['\\', 'r']
  else if c = '\n' then ['\\', 'n']
  else if c = '\\' then ['\\', '\\']
  else if c = '"' then ['\\', '"']
  else if isPrintable c then [c]
  else codeEscape c

/-- A text between double quotes. -/
def quoted (s : String) : String :=
  String.ofList ('"' :: s.toList.flatMap quoteChar ++ ['"'])

end QuantumScript.Text
