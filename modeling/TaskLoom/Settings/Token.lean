import TaskLoom.Text.Identifier
import TaskLoom.Text.Numeral

/-!
# Tokens of the settings language

Names, numbers, symbols, line ends and templates.  A template stands in quotes, or on lines of its
own up to a marker.  It holds text and the tokens of expressions, in `${ … }`, and of directives, in
`%{ … }`; the escapes of its text are resolved here.
-/

namespace TaskLoom.Settings

mutual

inductive Token where
  | ident (name : String)
  | number (text : String)
  | symbol (text : String)
  | newline
  /-- A template in quotes. -/
  | quoted (pieces : List Piece)
  /-- A template on lines of its own, and whether their common indentation is dropped. -/
  | lines (pieces : List Piece) (dropsIndent : Bool)

/-- A piece of a template. -/
inductive Piece where
  | text (s : String)
  /-- An expression or a directive, and whether blanks before or after it are dropped. -/
  | inner (isDirective : Bool) (tokens : List Token) (trimBefore trimAfter : Bool)

end

instance : Inhabited Token := ⟨.newline⟩

/-! ### Numbers and symbols -/

/-- The rest of a number token: digits, points, and exponents of at least one digit.  Gives the
characters that belong to it, the last of which is no point. -/
def numberRest : List Char → Nat
  | [] => 0
  | [c] => if c.isDigit then 1 else 0
  | c :: d :: cs =>
    if c.isDigit then 1 + numberRest (d :: cs)
    else if c == '.' then
      let n := numberRest (d :: cs)
      if n == 0 then 0 else 1 + n
    else if c == 'e' || c == 'E' then
      if d.isDigit then 2 + numberRest cs
      else if d == '+' || d == '-' then
        match cs with
        | e :: rest => if e.isDigit then 3 + numberRest rest else 0
        | [] => 0
      else 0
    else 0

/-- The symbols, longer ones before their beginnings. -/
def symbols : List String :=
  ["...", "==", "!=", ">=", "<=", "&&", "||", "=>", "::", "[", "]", "(", ")", ".", ",", "*", "/",
   "%", "+", "-", "=", "<", ">", "!", "?", ":"]

/-- The symbol at the front of a text. -/
def symbol? (cs : List Char) : Option String := symbols.find? fun s => s.toList.isPrefixOf cs

/-! ### Comments and escapes -/

/-- The text behind the end of a comment `/* … */`. -/
def afterComment? : List Char → Option (List Char)
  | '*' :: '/' :: cs => some cs
  | _ :: cs => afterComment? cs
  | [] => none

/-- Whether a comment that ends with its line starts here. -/
def startsLineComment : List Char → Bool
  | '#' :: _ => true
  | '/' :: '/' :: _ => true
  | _ => false

/-- The character of a hexadecimal escape of a fixed length. -/
def hexEscape? (digits : List Char) : Option Char :=
  match Numeral.unsigned 16 digits with
  | .ok n => if h : n.isValidChar then some (Char.ofNatAux n h) else none
  | .error _ => none

/-- The character that an escape stands for, behind its backslash. -/
def escape? : List Char → Option (Char × List Char)
  | 'n' :: cs => some ('\n', cs)
  | 'r' :: cs => some ('\r', cs)
  | 't' :: cs => some ('\t', cs)
  | '"' :: cs => some ('"', cs)
  | '\\' :: cs => some ('\\', cs)
  | 'u' :: cs => if cs.length < 4 then none else (hexEscape? (cs.take 4)).map (·, cs.drop 4)
  | 'U' :: cs => if cs.length < 8 then none else (hexEscape? (cs.take 8)).map (·, cs.drop 8)
  | _ => none

/-! ### Templates -/

/-- The start of an expression or a directive inside a template. -/
structure Opening where
  isDirective : Bool
  /-- Whether blanks before it are dropped. -/
  trims : Bool
  rest : List Char

/-- The expression or directive that starts here. -/
def opening? (cs : List Char) : Option Opening :=
  match cs with
  | '$' :: '\x7b' :: '~' :: cs => some ⟨false, true, cs⟩
  | '$' :: '\x7b' :: cs => some ⟨false, false, cs⟩
  | '%' :: '\x7b' :: '~' :: cs => some ⟨true, true, cs⟩
  | '%' :: '\x7b' :: cs => some ⟨true, false, cs⟩
  | _ => none

/-- The two characters that an escaped opening stands for. -/
def escapedOpening? : List Char → Option (List Char × List Char)
  | '$' :: '$' :: '\x7b' :: cs => some (['$', '\x7b'], cs)
  | '%' :: '%' :: '\x7b' :: cs => some (['%', '\x7b'], cs)
  | _ => none

/-- The text collected so far, which stands in reverse order, as a piece. -/
def textPiece (collected : List Char) (pieces : List Piece) : List Piece :=
  if collected.isEmpty then pieces else .text (String.ofList collected.reverse) :: pieces

/-- A stretch of text in a template on lines of its own. -/
structure Stretch where
  text : List Char
  /-- Whether the stretch goes to the end of its line, which belongs to it. -/
  endsLine : Bool
  rest : List Char

/-- A stretch with a character in front. -/
def Stretch.cons (c : Char) (s : Stretch) : Stretch := { s with text := c :: s.text }

/-- The stretch of text up to the end of a line, or up to an expression or a directive. -/
def stretch? : List Char → Option Stretch
  | [] => none
  | '\n' :: cs => some ⟨['\n'], true, cs⟩
  | '\r' :: '\n' :: cs => some ⟨['\r', '\n'], true, cs⟩
  | '\r' :: _ => none
  | '$' :: '$' :: '\x7b' :: cs => (stretch? cs).map fun s => (s.cons '\x7b').cons '$'
  | '%' :: '%' :: '\x7b' :: cs => (stretch? cs).map fun s => (s.cons '\x7b').cons '%'
  | '$' :: '\x7b' :: cs => some ⟨[], false, '$' :: '\x7b' :: cs⟩
  | '%' :: '\x7b' :: cs => some ⟨[], false, '%' :: '\x7b' :: cs⟩
  | c :: cs => (stretch? cs).map (·.cons c)

/-- The line that opens a template on lines of its own, behind `<<`: its marker, and whether the
indentation of the lines is dropped. -/
structure Introduction where
  marker : String
  dropsIndent : Bool
  rest : List Char

/-- Reads the line that opens a template: a name as the marker, with a hyphen in front if the
indentation is dropped. -/
def introduction? (cs : List Char) : Option Introduction :=
  let (dropsIndent, cs) := match cs with
    | '-' :: cs => (true, cs)
    | cs => (false, cs)
  let (marker, rest) := cs.span Text.continuesIdentifier
  let found : Introduction := ⟨String.ofList marker, dropsIndent, []⟩
  if !marker.head?.any Text.startsIdentifier then none
  else match rest with
    | '\n' :: rest => some { found with rest := rest }
    | '\r' :: '\n' :: rest => some { found with rest := rest }
    | _ => none

/-! ### The tokens of a text -/

/-- What ends a token sequence. -/
structure Ending where
  /-- Whether blanks behind the sequence are dropped. -/
  trims : Bool
  rest : List Char

mutual

/-- The tokens up to the end of the text, or, inside a template, up to the brace that closes `depth`
braces and the expression itself.  The first argument bounds the number of steps. -/
def code (fuel : Nat) (depth : Option Nat) (cs : List Char) : Option (List Token × Ending) :=
  match fuel with
  | 0 => none
  | fuel + 1 =>
    let put (t : Token) (cs : List Char) : Option (List Token × Ending) :=
      (code fuel depth cs).map fun (ts, e) => (t :: ts, e)
    match cs with
    | [] => if depth.isNone then some ([], ⟨false, []⟩) else none
    | ' ' :: cs => code fuel depth cs
    | '\t' :: cs => code fuel depth cs
    | '\n' :: cs => put .newline cs
    | '\r' :: '\n' :: cs => put .newline cs
    | '/' :: '*' :: cs =>
      match afterComment? cs with
      | some rest => code fuel depth rest
      | none => none
    | '"' :: cs =>
      match quotedPieces fuel [] cs with
      | some (ps, rest) => put (.quoted ps) rest
      | none => none
    | '<' :: '<' :: cs =>
      match introduction? cs with
      | none => none
      | some i =>
        match linePieces fuel i.marker true i.rest with
        | some (ps, rest) => put (.lines ps i.dropsIndent) rest
        | none => none
    | '\x7b' :: cs =>
      (code fuel (depth.map (· + 1)) cs).map fun (ts, e) => (.symbol "\x7b" :: ts, e)
    | '\x7d' :: cs =>
      match depth with
      | none => put (.symbol "\x7d") cs
      | some 0 => some ([], ⟨false, cs⟩)
      | some (d + 1) => (code fuel (some d) cs).map fun (ts, e) => (.symbol "\x7d" :: ts, e)
    | '~' :: '\x7d' :: cs => if depth == some 0 then some ([], ⟨true, cs⟩) else none
    | c :: cs =>
      if startsLineComment (c :: cs) then
        match cs.dropWhile (· != '\n') with
        | _ :: rest => put .newline rest
        | [] => code fuel depth []
      else if c.isDigit then
        let n := numberRest cs
        put (.number (String.ofList (c :: cs.take n))) (cs.drop n)
      else if Text.startsIdentifier c then
        let (more, rest) := cs.span Text.continuesIdentifier
        put (.ident (String.ofList (c :: more))) rest
      else match symbol? (c :: cs) with
        | some s => put (.symbol s) ((c :: cs).drop s.length)
        | none => none

/-- The expression or directive of an opening, and the text behind it. -/
def innerPiece (fuel : Nat) (o : Opening) : Option (Piece × List Char) :=
  match fuel with
  | 0 => none
  | fuel + 1 =>
    (code fuel (some 0) o.rest).map fun (ts, e) => (.inner o.isDirective ts o.trims e.trims, e.rest)

/-- The pieces of a template up to its closing quote.  The second argument is the text collected
since the last expression, in reverse order. -/
def quotedPieces (fuel : Nat) (collected : List Char) (cs : List Char) :
    Option (List Piece × List Char) :=
  match fuel with
  | 0 => none
  | fuel + 1 =>
    match escapedOpening? cs, opening? cs with
    | some (opening, cs), _ => quotedPieces fuel (opening.reverse ++ collected) cs
    | none, some o =>
      match innerPiece fuel o with
      | none => none
      | some (p, rest) =>
        (quotedPieces fuel [] rest).map fun (ps, rest) => (textPiece collected (p :: ps), rest)
    | none, none =>
      match cs with
      | [] => none
      | '"' :: cs => some (textPiece collected [], cs)
      | '\n' :: _ => none
      | '\r' :: _ => none
      | '\\' :: cs =>
        match escape? cs with
        | some (c, rest) => quotedPieces fuel (c :: collected) rest
        | none => none
      | c :: cs => quotedPieces fuel (c :: collected) cs

/-- The pieces of a template up to the line that holds only its marker.  The end of that line stays
in front of what is left.  `startsLine` says whether nothing of the line has been read yet. -/
def linePieces (fuel : Nat) (marker : String) (startsLine : Bool) (cs : List Char) :
    Option (List Piece × List Char) :=
  match fuel with
  | 0 => none
  | fuel + 1 =>
    match opening? cs with
    | some o =>
      match innerPiece fuel o with
      | none => none
      | some (p, rest) => (linePieces fuel marker false rest).map fun (ps, rest) => (p :: ps, rest)
    | none =>
      match stretch? cs with
      | none => none
      | some s =>
        let text := String.ofList s.text
        if startsLine && s.endsLine && Text.trim text == marker then some ([], '\n' :: s.rest)
        else
          (linePieces fuel marker s.endsLine s.rest).map fun (ps, rest) => (.text text :: ps, rest)

end

/-- The tokens of a whole text; a byte order mark in front is dropped. -/
def tokens? (s : String) : Option (List Token) :=
  let cs := Text.unmarked s.toList
  (code (2 * cs.length + 1) none cs).map Prod.fst

end TaskLoom.Settings
