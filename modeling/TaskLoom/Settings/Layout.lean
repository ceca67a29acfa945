import TaskLoom.Settings.Token
import TaskLoom.Text.Cluster

/-!
# The layout of templates

Expressions and directives can drop the blanks beside them.  A template on lines of its own can also
drop the indentation that all its lines have in common; lines of blanks do not count, and only text
that is written down counts as indentation.
-/

namespace TaskLoom.Settings

/-- Drops the blanks at the end of a text. -/
def trimEnd (s : String) : String := String.ofList (s.toList.reverse.dropWhile Text.isBlank).reverse

/-- Drops the blanks at the start of a text. -/
def trimStart (s : String) : String := String.ofList (s.toList.dropWhile Text.isBlank)

/-- Drops the blanks that the neighbours of a text ask to drop; `trims` says whether the piece
before the first one does. -/
def trimPieces (trims : Bool) : List Piece → List Piece
  | [] => []
  | .text s :: ps =>
    let s := if trims then trimStart s else s
    let s := match ps with
      | .inner _ _ true _ :: _ => trimEnd s
      | _ => s
    .text s :: trimPieces false ps
  | .inner d ts before after :: ps => .inner d ts before after :: trimPieces after ps

/-! ### Indentation -/

/-- The number of blanks at the start of a text. -/
def indentOf (s : String) : Nat := (s.toList.takeWhile Text.isBlank).length

/-- Whether a text is a line of blanks. -/
def isBlankLine (s : String) : Bool := s.toList.all Text.isBlank && Text.endsWith s "\n"

/-- The indentation of each line that counts; `startsLine` says whether the first piece starts a
line. -/
def indents (startsLine : Bool) : List Piece → List Nat
  | [] => []
  | .text s :: ps =>
    let more := indents (Text.endsWith s "\n") ps
    if startsLine && !isBlankLine s then indentOf s :: more else more
  | .inner _ _ _ _ :: ps => if startsLine then 0 :: indents false ps else indents false ps

/-- Drops `n` blanks at the start of each line that counts. -/
def dropIndents (n : Nat) (startsLine : Bool) : List Piece → List Piece
  | [] => []
  | .text s :: ps =>
    let more := dropIndents n (Text.endsWith s "\n") ps
    let counts := startsLine && !isBlankLine s
    .text (if counts then String.ofList (Text.dropClusters n s.toList) else s) :: more
  | p :: ps => p :: dropIndents n false ps

/-- Drops the indentation that all lines have in common. -/
def dropCommonIndent (ps : List Piece) : List Piece :=
  match (indents true ps).min? with
  | some n => dropIndents n true ps
  | none => ps

/-! ### Pieces as they count -/

/-- Joins texts that follow each other. -/
def joinTexts : List Piece → List Piece
  | [] => []
  | .text s :: ps =>
    match joinTexts ps with
    | .text t :: rest => .text (s ++ t) :: rest
    | rest => .text s :: rest
  | p :: ps => p :: joinTexts ps

/-- The pieces of a template without the blanks that do not count. -/
def laidOut (dropsIndent : Bool) (ps : List Piece) : List Piece :=
  let ps := trimPieces false ps
  joinTexts (if dropsIndent then dropCommonIndent ps else ps)

end TaskLoom.Settings
