import TaskLoom.Text.Basic
import TaskLoom.Text.Canonical.Decomposition
import TaskLoom.Text.Canonical.Mark

/-!
# Canonical spelling

The Unicode standard has several spellings of one text: a letter with an accent is one character or
two, and accents may stand in different orders.  `canonical` gives all of them the same spelling:
every character is taken apart, marks are put in the order of their classes, and what can be joined
is joined.  A run of more than thirty marks is broken up by a joiner that is not shown.
-/

namespace TaskLoom.Text

namespace Canonical

/-! ### The syllables of Hangul

A syllable is a leading consonant, a vowel and possibly a trailing consonant. -/

def firstSyllable : Nat := 0xAC00

def isSyllable (n : Nat) : Bool := firstSyllable ≤ n && n < firstSyllable + 11172

def isLeading (n : Nat) : Bool := 0x1100 ≤ n && n < 0x1113

def isVowel (n : Nat) : Bool := 0x1161 ≤ n && n < 0x1176

def isTrailing (n : Nat) : Bool := 0x11A8 ≤ n && n < 0x11C3

/-- Whether a character is one of the letters that syllables are made of, or of the old ones that
stand among them. -/
def isLetter (n : Nat) : Bool := 0x1100 ≤ n && n < 0x1200

/-- The letters of a syllable. -/
def lettersOf (syllable : Nat) : List Nat :=
  let i := syllable - firstSyllable
  let letters := [0x1100 + i / 588, 0x1161 + i % 588 / 28]
  if i % 28 = 0 then letters else letters ++ [0x11A7 + i % 28]

/-- The syllable of a leading consonant and a vowel, or of a syllable without a trailing consonant
and such a consonant. -/
def syllable? (a b : Nat) : Option Nat :=
  if isLeading a && isVowel b then
    some (firstSyllable + (a - 0x1100) * 588 + (b - 0x1161) * 28)
  else if isSyllable a && (a - firstSyllable) % 28 == 0 && isTrailing b then
    some (a + (b - 0x11A7))
  else none

/-! ### Taking characters apart and joining them -/

/-- The characters that a character is made of.  The first argument bounds the number of mappings
that follow each other, of which there are at most three. -/
def parts : Nat → Nat → List Nat
  | 0, n => [n]
  | fuel + 1, n =>
    if n < 0xC0 then [n]
    else if isSyllable n then lettersOf n
    else match respelled.find? (·.1 == n) with
      | some (_, m) => parts fuel m
      | none =>
        match (joined ++ parted).find? (·.1 == n) with
        | some (_, a, b) => parts fuel a ++ [b]
        | none => [n]

def decompose (n : Nat) : List Nat := parts 4 n

/-- The character that joins two others.  Only the last sixteen bits of both count. -/
def join? (a b : Nat) : Option Nat :=
  let low (n : Nat) : Nat := n % 0x10000
  (joined.find? fun (_, x, y) => low x == low a && low y == low b).map Prod.fst

/-- Whether a character can be joined to the one before it. -/
def joinsBackward (n : Nat) : Bool :=
  isVowel n || isTrailing n || joined.any fun (_, _, y) => y == n

/-- Whether a character is spelled as it should be, whatever stands before it. -/
def isPlain (n : Nat) : Bool :=
  !joinsBackward n && !respelled.any (·.1 == n) && !parted.any (·.1 == n)

/-- The class of the first mark of a character that is made of marks. -/
def firstClass (n : Nat) : Nat := ((decompose n).head?.map markClass).getD 0

/-! ### Counting marks -/

/-- Whether a character belongs to the one before it. -/
def isMark (n : Nat) : Bool := markClass n != 0 || joinsBackward n

/-- The number of marks that a character starts with. -/
def leading (n : Nat) : Nat :=
  if inRanges markShapes n then 1 else ((decompose n).takeWhile isMark).length

/-- The number of marks that a character ends with. -/
def trailing (n : Nat) : Nat :=
  match markedShapes.find? fun (lo, hi, _) => lo ≤ n && n ≤ hi with
  | some (_, _, k) => k
  | none => if inRanges markShapes n then 1 else ((decompose n).reverse.takeWhile isMark).length

/-- The largest number of marks behind one character. -/
def runLimit : Nat := 30

/-- The character that separates marks without being shown. -/
def joiner : Nat := 0x34F

/-! ### Joining -/

/-- What has been joined so far: a character that others can be joined to, with the characters
before and behind it, both with the last one first. -/
structure Chain where
  before : List Nat := []
  base : Nat
  behind : List Nat := []

namespace Chain

def toList (c : Chain) : List Nat := c.before.reverse ++ c.base :: c.behind.reverse

/-- Puts a character at the end. -/
def keep (c : Chain) (n : Nat) : Chain := { c with behind := n :: c.behind }

/-- Makes the last character the base, unless it has a class. -/
def advance (c : Chain) : Chain :=
  match c.behind with
  | m :: ms => if markClass m = 0 then ⟨ms ++ c.base :: c.before, m, []⟩ else c
  | [] => c

/-- Whether a mark of the same class as `n`, or of a higher one, keeps it from the base. -/
def blocks (c : Chain) (n : Nat) : Bool :=
  match c.behind with
  | m :: _ => markClass n ≤ markClass m
  | [] => false

/-- Joins a character to the base, or puts it at the end. -/
def add (join : Nat → Nat → Option Nat) (c : Chain) (n : Nat) : Chain :=
  let c := c.advance
  match if c.blocks n then none else join c.base n with
  | some x => { c with base := x }
  | none => c.keep n

/-- Joins what can be joined.  From the first letter of Hangul on only syllables are joined. -/
def joinAll (c : Chain) : List Nat → Chain
  | [] => c
  | n :: ns =>
    if isLetter n then (n :: ns).foldl (add syllable?) c
    else if joinsBackward n then joinAll (c.add join? n) ns
    else joinAll (c.keep n) ns

end Chain

def compose : List Nat → List Nat
  | [] => []
  | n :: ns => (Chain.joinAll ⟨[], n, []⟩ ns).toList

/-! ### Segments

A segment is a character with the marks behind it.  Segments that need no change are left alone; in
the others the marks are put in order and joined. -/

/-- Puts a character behind those of its class and of lower classes.  The last one stands first. -/
def place (n : Nat) : List Nat → List Nat
  | [] => [n]
  | x :: xs =>
    if markClass n != 0 && markClass n < markClass x then x :: place n xs else n :: x :: xs

/-- Takes a character apart, and puts its parts in their places. -/
def placeParts (n : Nat) (placed : List Nat) : List Nat :=
  (decompose n).foldl (fun placed m => place m placed) placed

/-- The marks of a segment, which has `count` of them so far, put behind `placed`, and the text
behind them.  A segment of too many marks ends with a joiner. -/
def takeMarks (count : Nat) (placed : List Nat) : List Nat → List Nat × List Nat
  | [] => (placed, [])
  | n :: ns =>
    let k := leading n
    if k = 0 then (placed, n :: ns)
    else if runLimit < count + k then (joiner :: placed, n :: ns)
    else takeMarks (count + k) (placeParts n placed) ns

/-- Divides a text behind the segments at its start that need no change.  `segment` holds the
characters of the segment that is being looked at, the last one first, with `count` marks, the last
one of class `last`. -/
def spanPlain (count last : Nat) (segment : List Nat) : List Nat → List Nat × List Nat
  | [] => (segment.reverse, [])
  | n :: ns =>
    let k := leading n
    if k = 0 then
      if isPlain n then
        let (done, rest) := spanPlain (trailing n) 0 [n] ns
        (segment.reverse ++ done, rest)
      else (segment.reverse, n :: ns)
    else if runLimit < count + k || firstClass n < last || !isPlain n then
      ([], segment.reverse ++ n :: ns)
    else spanPlain (count + k) (firstClass n) (n :: segment) ns

/-- The canonical spelling of a text of at most `fuel` segments. -/
def spell : Nat → List Nat → List Nat
  | 0, ns => ns
  | fuel + 1, ns =>
    match spanPlain 0 0 [] ns with
    | (done, []) => done
    | (done, n :: rest) =>
      let count := if leading n = 0 then trailing n else leading n
      let (placed, rest) := takeMarks count (placeParts n []) rest
      done ++ compose placed.reverse ++ spell fuel rest

end Canonical

/-- The canonical spelling of a text. -/
def canonical (s : String) : String :=
  if s.toList.all (·.toNat < 0x300) then s
  else
    let codes := s.toList.map Char.toNat
    String.ofList ((Canonical.spell (codes.length + 1) codes).map Char.ofNat)

end TaskLoom.Text
