import TaskLoom.Text.Basic

/-!
# Paths

Paths are texts with slashes.  A clean path has no empty, `.` or needless `..` elements and no slash
at its end; a path without any element is written `.`.
-/

namespace TaskLoom.Path

/-- The elements between the slashes of a path. -/
def elements (p : String) : List String := (Text.splitOn '/' p.toList).map String.ofList

def isRooted (p : String) : Bool := p.toList.head? == some '/'

/-- Appends an element to clean elements, which stand in reverse order. -/
def push (rooted : Bool) (done : List String) (e : String) : List String :=
  if e == "" || e == "." then done
  else if e == ".." then
    match done with
    | [] => if rooted then [] else [".."]
    | d :: ds => if d == ".." then ".." :: done else ds
  else e :: done

/-- A path from its elements. -/
def ofElements (rooted : Bool) (es : List String) : String :=
  let body := String.intercalate "/" es
  if rooted then "/" ++ body else if body == "" then "." else body

/-- The shortest path that means the same, if every element before a `..` is a directory. -/
def clean (p : String) : String :=
  let rooted := isRooted p
  ofElements rooted ((elements p).foldl (push rooted) []).reverse

/-- A path below a directory; an empty text is no part of the path. -/
def join (dir p : String) : String :=
  if dir == "" && p == "" then ""
  else if dir == "" then clean p
  else if p == "" then clean dir
  else clean (dir ++ "/" ++ p)

/-- The text of a path up to its last slash, included. -/
def dirText (p : String) : String :=
  String.ofList (p.toList.reverse.dropWhile (· != '/')).reverse

/-- The directory of a path. -/
def parent (p : String) : String := clean (dirText p)

/-- The last element of a path. -/
def baseName (p : String) : String :=
  if p == "" then "."
  else
    let trimmed := p.toList.reverse.dropWhile (· == '/')
    if trimmed.isEmpty then "/" else String.ofList (trimmed.takeWhile (· != '/')).reverse

/-- The part of a clean path below a clean directory. -/
def below? (dir p : String) : Option String :=
  if dir == "." then (if isRooted p || p == "." then none else some p)
  else
    let head := if dir == "/" then "/" else dir ++ "/"
    if Text.beginsWith p head && p != head then some (String.ofList (p.toList.drop head.length))
    else none

end TaskLoom.Path
