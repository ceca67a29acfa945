import TaskLoom.Text.Printable

/-!
# Quoted text

A text between double quotes on one line: quotes and backslashes are escaped, printable characters
stand for themselves, and all others are written as escapes.
-/

namespace TaskLoom.Text

/-- The `width` lowest hexadecimal digits of `n`. -/
def hexDigits (width n : Nat) : List Char :=
  (List.range width).reverse.map fun i => Nat.digitChar (n / Nat.pow 16 i % 16)

/-- The escape of a character that is not printable. -/
def escape (c : Char) : List Char :=
  match c.toNat with
  | 7 => ['\\', 'a']
  | 8 => ['\\', 'b']
  | 9 => ['\\', 't']
  | 10 => ['\\', 'n']
  | 11 => ['\\', 'v']
  | 12 => ['\\', 'f']
  | 13 => ['\\', 'r']
  | n =>
    if n < 0x20 || n == 0x7F then '\\' :: 'x' :: hexDigits 2 n
    else if n < 0x10000 then '\\' :: 'u' :: hexDigits 4 n
    else '\\' :: 'U' :: hexDigits 8 n

/-- One character inside quotes. -/
def quoteChar (c : Char) : List Char :=
  if c = '"' || c = '\\' then ['\\', c]
  else if isPrintable c then [c]
  else escape c

/-- A text between double quotes. -/
def quote (s : String) : String :=
  String.ofList ('"' :: (s.toList.flatMap quoteChar ++ ['"']))

/-- A byte list between double quotes: as text if it is UTF-8, and else byte by byte. -/
def quoteBytes (bs : List UInt8) : String :=
  match String.fromUTF8? ⟨bs.toArray⟩ with
  | some s => quote s
  | none =>
    String.ofList ('"' :: (bs.flatMap fun b =>
      if b < 128 then quoteChar (Char.ofNat b.toNat) else '\\' :: 'x' :: hexDigits 2 b.toNat) ++
      ['"'])

end TaskLoom.Text
