import ControlStore.Text.Hidden

/-!
# `ControlStore.Text.Quoted`: text in quotes

A quoted text stands between double quotes. Inside it a quote and a backslash have a backslash
before them, and the usual control characters have their short forms. Any other character that does
not show is given by its code point in braces. All other characters stand for themselves, the single
quote included.
-/

set_option autoImplicit false

namespace ControlStore.Text

/-- How one character is written between quotes. -/
def quoteChar (c : Char) : List Char :=
  if c = '"' then ['\\', '"']
  else if c = '\\' then ['\\', '\\']
  else if c = '\x00' then ['\\', '0']
  else if c = '\t' then ['\\', 't']
  else if c = '\n' then ['\\', 'n']
  else if c = '\r' then ['\\', 'r']
  else if isHidden c then ['\\', 'u', '\x7b'] ++ Nat.toDigits 16 c.toNat ++ ['\x7d']
  else [c]

/-- The text between double quotes. -/
def quote (s : String) : String :=
  String.ofList (['"'] ++ s.toList.flatMap quoteChar ++ ['"'])

end ControlStore.Text
