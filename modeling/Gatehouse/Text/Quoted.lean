/-
**Quoted texts.**

A text between double quotes, with every character that would not show as itself written as an
escape.

* `quoteChar`: one character inside the quotes;
* `quote`: the quoted form of a text.
-/

import Gatehouse.Text.CodePoints

namespace Gatehouse.Text

/-- The lower-case hexadecimal digits of a code point between braces. -/
def pointText (c : Char) : List Char := '{' :: Nat.toDigits 16 c.toNat ++ ['}']

def quoteChar (c : Char) : List Char :=
  match c with
  | '\x00' => ['\\', '0']
  | '\t' => ['\\', 't']
  | '\r' => ['\\', 'r']
  | '\n' => ['\\', 'n']
  | '\\' => ['\\', '\\']
  | '\x22' => ['\\', '\x22']
  | c => if isHidden c then '\\' :: 'u' :: pointText c else [c]

def quote (text : String) : String :=
  String.ofList ('\x22' :: text.toList.flatMap quoteChar ++ ['\x22'])

end Gatehouse.Text
