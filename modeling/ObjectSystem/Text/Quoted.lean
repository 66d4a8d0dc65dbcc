import ObjectSystem.Text.GraphemeExtend
import ObjectSystem.Text.Unprintable

/-!
# Quoted text

A string as it is shown inside double quotes: quotes and backslashes are escaped, the common control
characters have letters of their own, and every other character that would not show by itself is
written by its code point.
-/

namespace ObjectSystem.Text

/-- Characters from the space to the tilde show as they are. -/
def isPlain (c : Char) : Bool := decide (' ' ≤ c) && decide (c ≤ '~')

def codePoint (c : Char) : List Char :=
  ['\\', 'u', '\x7b'] ++ Nat.toDigits 16 c.toNat ++ ['\x7d']

def escape (c : Char) : List Char :=
  match c with
  | '"' => ['\\', '"']
  | '\\' => ['\\', '\\']
  | '\n' => ['\\', 'n']
  | '\r' => ['\\', 'r']
  | '\t' => ['\\', 't']
  | '\x00' => ['\\', '0']
  | _ =>
    if isPlain c then [c]
    else if isDependent c || isUnprintable c then codePoint c
    else [c]

def quote (s : String) : String := "\"" ++ String.ofList (s.toList.flatMap escape) ++ "\""

end ObjectSystem.Text
