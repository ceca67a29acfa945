import TaskLoom.Description.Value

/-!
# Reading data trees

The text form of a data tree: objects in braces, lists in brackets, quoted texts, numbers and the
words `true`, `false` and `null`, with blanks between them.  Numbers keep their digits.
-/

namespace TaskLoom.Value

/-- A reader takes something off the front of a text, or fails. -/
abbrev Reader (α : Type) := List Char → Option (α × List Char)

def isSpace (c : Char) : Bool := c == ' ' || c == '\t' || c == '\r' || c == '\n'

def skipSpace (cs : List Char) : List Char := cs.dropWhile isSpace

/-- Takes a fixed character sequence off the front. -/
def expect? : (word : List Char) → List Char → Option (List Char)
  | [], cs => some cs
  | w :: ws, c :: cs => if w = c then expect? ws cs else none
  | _ :: _, [] => none

/-! ### Quoted texts -/

/-- The value of four hexadecimal digits. -/
def hexWord? : Reader Nat
  | a :: b :: c :: d :: cs => do
    let digit (x : Char) : Option Nat := (Numeral.digitValue? x).filter (· < 16)
    let n := (((← digit a) * 16 + (← digit b)) * 16 + (← digit c)) * 16 + (← digit d)
    return (n, cs)
  | _ => none

def isHighSurrogate (n : Nat) : Bool := 0xD800 ≤ n && n < 0xDC00

def isLowSurrogate (n : Nat) : Bool := 0xDC00 ≤ n && n < 0xE000

/-- The number of an escape `\u` at the front of a text. -/
def escapedWord? : Reader Nat
  | '\\' :: 'u' :: cs => hexWord? cs
  | _ => none

/-- The character of the code unit `n`.  A surrogate takes a following escape as its other half; a
surrogate without it becomes the replacement character. -/
def unitChar (n : Nat) (cs : List Char) : Char × List Char :=
  if isHighSurrogate n then
    match escapedWord? cs with
    | some (m, rest) =>
      if isLowSurrogate m then (Char.ofNat (0x10000 + (n - 0xD800) * 0x400 + (m - 0xDC00)), rest)
      else ('\uFFFD', cs)
    | none => ('\uFFFD', cs)
  else if isLowSurrogate n then ('\uFFFD', cs)
  else (Char.ofNat n, cs)

/-- The character that an escape stands for, behind its backslash. -/
def escaped? : Reader Char
  | 'u' :: cs => (hexWord? cs).map fun (n, rest) => unitChar n rest
  | c :: cs =>
    match c with
    | '"' => some ('"', cs)
    | '\\' => some ('\\', cs)
    | '/' => some ('/', cs)
    | 'b' => some ('\x08', cs)
    | 'f' => some ('\x0c', cs)
    | 'n' => some ('\n', cs)
    | 'r' => some ('\r', cs)
    | 't' => some ('\t', cs)
    | _ => none
  | [] => none

/-- The characters up to the closing quote, in reverse order after `done`.  The first argument
bounds the number of characters. -/
def quotedRest? : Nat → List Char → Reader (List Char)
  | 0, _, _ => none
  | _ + 1, _, [] => none
  | fuel + 1, done, c :: cs =>
    if c = '"' then some (done.reverse, cs)
    else if c = '\\' then
      match escaped? cs with
      | some (x, rest) => quotedRest? fuel (x :: done) rest
      | none => none
    else if c.toNat < 0x20 then none
    else quotedRest? fuel (c :: done) cs

/-- A quoted text, behind its opening quote. -/
def quoted? : Reader String := fun cs =>
  (quotedRest? (cs.length + 1) [] cs).map fun (xs, rest) => (String.ofList xs, rest)

/-! ### Numbers -/

/-- One or more digits. -/
def digits? : Reader (List Char) := fun cs =>
  match cs.span Char.isDigit with
  | ([], _) => none
  | r => some r

/-- A whole number without needless zeros in front. -/
def whole? : Reader (List Char)
  | '0' :: cs => some (['0'], cs)
  | cs => digits? cs

/-- An optional part of a number behind a mark. -/
def fraction? : Reader (List Char)
  | '.' :: cs => (digits? cs).map fun (ds, rest) => ('.' :: ds, rest)
  | cs => some ([], cs)

def exponent? : Reader (List Char)
  | c :: cs =>
    if c = 'e' ∨ c = 'E' then
      let (sign, cs) := match cs with
        | '+' :: cs => (['+'], cs)
        | '-' :: cs => (['-'], cs)
        | cs => ([], cs)
      (digits? cs).map fun (ds, rest) => (c :: sign ++ ds, rest)
    else some ([], c :: cs)
  | [] => some ([], [])

def number? : Reader String := fun cs => do
  let (sign, cs) := match cs with
    | '-' :: cs => (['-'], cs)
    | cs => ([], cs)
  let (w, cs) ← whole? cs
  let (f, cs) ← fraction? cs
  let (e, cs) ← exponent? cs
  return (String.ofList (sign ++ w ++ f ++ e), cs)

/-! ### Trees -/

/-- How deep objects and lists may stand inside each other. -/
def maxDepth : Nat := 10000

mutual

/-- A value at the front of a text without leading blanks.  `fuel` bounds the number of characters
to read, `depth` is how much deeper the tree may grow. -/
def value? (fuel depth : Nat) (cs : List Char) : Option (Value × List Char) :=
  match fuel with
  | 0 => none
  | fuel + 1 =>
    match cs with
    | '\x7b' :: cs =>
      match depth with
      | 0 => none
      | depth + 1 =>
        match skipSpace cs with
        | '\x7d' :: cs => some (.object [], cs)
        | cs => (members? fuel depth cs).map fun (ms, rest) => (.object ms, rest)
    | '[' :: cs =>
      match depth with
      | 0 => none
      | depth + 1 =>
        match skipSpace cs with
        | ']' :: cs => some (.list [], cs)
        | cs => (items? fuel depth cs).map fun (xs, rest) => (.list xs, rest)
    | '"' :: cs => (quoted? cs).map fun (s, rest) => (.text s, rest)
    | 't' :: cs => (expect? ['r', 'u', 'e'] cs).map fun rest => (.bool true, rest)
    | 'f' :: cs => (expect? ['a', 'l', 's', 'e'] cs).map fun rest => (.bool false, rest)
    | 'n' :: cs => (expect? ['u', 'l', 'l'] cs).map fun rest => (.null, rest)
    | cs => (number? cs).map fun (s, rest) => (.number (.source s), rest)

/-- The items of a list up to its closing bracket. -/
def items? (fuel depth : Nat) (cs : List Char) : Option (List Value × List Char) :=
  match fuel with
  | 0 => none
  | fuel + 1 =>
    match value? fuel depth cs with
    | none => none
    | some (v, cs) =>
      match skipSpace cs with
      | ',' :: cs => (items? fuel depth (skipSpace cs)).map fun (vs, rest) => (v :: vs, rest)
      | ']' :: cs => some ([v], cs)
      | _ => none

/-- The members of an object up to its closing brace. -/
def members? (fuel depth : Nat) (cs : List Char) : Option (List (String × Value) × List Char) :=
  match fuel with
  | 0 => none
  | fuel + 1 => do
    let cs ← expect? ['"'] cs
    let (k, cs) ← quoted? cs
    let cs ← expect? [':'] (skipSpace cs)
    let (v, cs) ← value? fuel depth (skipSpace cs)
    match skipSpace cs with
    | ',' :: cs => (members? fuel depth (skipSpace cs)).map fun (ms, rest) => ((k, v) :: ms, rest)
    | '\x7d' :: cs => some ([(k, v)], cs)
    | _ => none

end

/-- The tree that a whole text describes. -/
def ofText? (s : String) : Option Value :=
  let cs := s.toList
  match value? (2 * cs.length + 2) maxDepth (skipSpace cs) with
  | some (v, rest) => if (skipSpace rest).isEmpty then some v else none
  | none => none

end TaskLoom.Value
