import TaskLoom.Text.Basic

/-!
# Tokens of a Verilog source

A source is scanned as bytes.  First, comments, attributes and compiler directives are blanked out,
which keeps the position of every other byte.  Then the text is cut into tokens; each token knows
its own bytes and where they stand.
-/

namespace TaskLoom.Source

/-- The byte of an ASCII character. -/
def ascii (c : Char) : UInt8 := c.toNat.toUInt8

def newline : UInt8 := 10

def backtick : UInt8 := 96

/-- The bytes that separate tokens. -/
def isSpace (b : UInt8) : Bool := b == 32 || b == 9 || b == 10 || b == 13

/-- Letters, digits and the underscore. -/
def isWord (b : UInt8) : Bool :=
  b == 95 || (97 ≤ b && b ≤ 122) || (65 ≤ b && b ≤ 90) || (48 ≤ b && b ≤ 57)

/-! ### Blanking out -/

/-- The number of bytes up to the end of the line. -/
def restOfLine (bs : List UInt8) : Nat := (bs.takeWhile (· != newline)).length

/-- The number of bytes up to and including the first pair `x y`. -/
def upTo? (x y : UInt8) : List UInt8 → Option Nat
  | b :: c :: bs => if b == x && c == y then some 2 else (upTo? x y (c :: bs)).map (· + 1)
  | _ => none

/-- The number of bytes of a string after its opening quote, up to and including a closing quote or
the end of the line; a backslash hides the byte after it. -/
def stringRest : List UInt8 → Nat
  | [] => 0
  | [_] => 1
  | b :: c :: bs =>
    if b == ascii '"' || b == newline then 1
    else if b == ascii '\\' then 2 + stringRest bs
    else 1 + stringRest (c :: bs)

/-- Whether `(*` is followed by nothing but blanks and `)`: the wildcard of a sensitivity list. -/
def isWildcard (bs : List UInt8) : Bool := (bs.dropWhile isSpace).head? == some (ascii ')')

/-- How the bytes from some position on are treated. -/
inductive Treatment where
  /-- The byte is ordinary text. -/
  | plain
  /-- The byte and `more` bytes after it are blanked out. -/
  | erase (more : Nat)
  /-- The byte and `more` bytes after it are a string, which is kept. -/
  | copy (more : Nat)
  deriving DecidableEq, Repr

/-- The treatment of the byte `b`, which is followed by `bs`.  A directive is one only as the first
thing on its line. -/
def treatment (lineStart : Bool) (b : UInt8) (bs : List UInt8) : Treatment :=
  if b == ascii '"' then .copy (stringRest bs)
  else if b == ascii '/' && bs.head? == some (ascii '/') then .erase (restOfLine bs)
  else if b == ascii '/' && bs.head? == some (ascii '*') then
    match upTo? (ascii '*') (ascii '/') bs.tail with
    | some n => .erase (1 + n)
    | none => .erase bs.length
  else if b == ascii '(' && bs.head? == some (ascii '*') && !isWildcard bs.tail then
    match upTo? (ascii '*') (ascii ')') bs.tail with
    | some n => .erase (1 + n)
    | none => .plain
  else if b == backtick && lineStart then .erase (restOfLine bs)
  else .plain

/-- A blank in place of a byte; line ends stay. -/
def blanked (b : UInt8) : UInt8 := if b == newline then b else 32

/-- Blanks out a source from a position where `erased` further bytes are to be erased, or else
`copied` further bytes are to be kept. -/
def stripFrom : (erased copied : Nat) → (lineStart : Bool) → List UInt8 → List UInt8
  | _, _, _, [] => []
  | e + 1, c, start, b :: bs => blanked b :: stripFrom e c start bs
  | 0, c + 1, _, b :: bs => b :: stripFrom 0 c (b == newline) bs
  | 0, 0, start, b :: bs =>
    match treatment start b bs with
    | .erase n => blanked b :: stripFrom n 0 start bs
    | .copy n => b :: stripFrom 0 n false bs
    | .plain => b :: stripFrom 0 0 (b == newline || (isSpace b && start)) bs

/-- A source without comments, attributes and directives. -/
def strip (bs : List UInt8) : List UInt8 := stripFrom 0 0 true bs

/-! ### Cutting into tokens -/

/-- Some bytes of a source and where they start. -/
structure Token where
  bytes : List UInt8
  offset : Nat
  deriving DecidableEq, Repr

def Token.text (t : Token) : String := Text.ofBytes t.bytes

/-- The number of bytes of a string after its opening quote; it may span lines. -/
def quotedRest : List UInt8 → Nat
  | [] => 0
  | [_] => 1
  | b :: c :: bs =>
    if b == ascii '"' then 1
    else if b == ascii '\\' then 2 + quotedRest bs
    else 1 + quotedRest (c :: bs)

/-- The bytes that start a word: those of a word, and the marks of literals, tasks and macros. -/
def startsWord (b : UInt8) : Bool :=
  isWord b || b == ascii '\'' || b == ascii '$' || b == backtick

def continuesWord (b : UInt8) : Bool :=
  isWord b || b == ascii '$' || b == ascii '\'' || b == ascii '?'

/-- The number of bytes that belong to the token of `b` after that byte. -/
def tokenRest (b : UInt8) (bs : List UInt8) : Nat :=
  if b == ascii '"' then quotedRest bs
  else if b == ascii '\\' then (bs.takeWhile (!isSpace ·)).length
  else if startsWord b then (bs.takeWhile continuesWord).length
  else 0

/-- The tokens from a position on, where `skip` bytes still belong to the token before it. -/
def tokensFrom : (offset skip : Nat) → List UInt8 → List Token
  | _, _, [] => []
  | off, k + 1, _ :: bs => tokensFrom (off + 1) k bs
  | off, 0, b :: bs =>
    if isSpace b then tokensFrom (off + 1) 0 bs
    else ⟨b :: bs.take (tokenRest b bs), off⟩ :: tokensFrom (off + 1) (tokenRest b bs) bs

/-- The tokens of a source. -/
def tokens (bs : List UInt8) : List Token := tokensFrom 0 0 bs

end TaskLoom.Source
