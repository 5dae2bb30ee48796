import AccessList.Text.Unprintable

/-!
# Quoted text

Between quotes every character can be told: those that print nothing are written by their number.
-/

namespace AccessList.Text

def quoteChar (c : Char) : List Char :=
  match c with
  | '"' => ['\\', '"']
  | '\\' => ['\\', '\\']
  | '\n' => ['\\', 'n']
  | '\r' => ['\\', 'r']
  | '\t' => ['\\', 't']
  | '\x00' => ['\\', '0']
  | c => if isPrintable c then [c] else ['\\', 'u', '\x7b'] ++ Nat.toDigits 16 c.toNat ++ ['\x7d']

def quote (s : String) : String := String.ofList ('"' :: s.toList.flatMap quoteChar ++ ['"'])

def quoteList (ss : List String) : String := "[" ++ ", ".intercalate (ss.map quote) ++ "]"

end AccessList.Text
