import TaskLoom.Files.Path

/-!
# File trees

A file tree holds texts by path.  A tree in memory takes every path by its clean form, and a place
in it may hold a text and be a directory; a tree on disk follows a path element by element, so that
each element but the last must be a directory.
-/

namespace TaskLoom

inductive Storage where
  | memory
  | disk
  deriving DecidableEq, Repr

structure FileTree where
  storage : Storage := .memory
  readOnly : Bool := false
  /-- The texts by their clean paths. -/
  files : List (String × String) := []
  /-- Directories that were made; every directory above a file exists as well. -/
  dirs : List String := []
  deriving DecidableEq, Repr

/-- Why a path cannot be used. -/
inductive PathFault where
  | missing (storage : Storage)
  | isDirectory
  | notDirectory
  | exists
  deriving DecidableEq, Repr

def PathFault.text : PathFault → String
  | .missing .memory => "file does not exist"
  | .missing .disk => "no such file or directory"
  | .isDirectory => "is a directory"
  | .notDirectory => "not a directory"
  | .exists => "file exists"

inductive FileError where
  | at (operation path : String) (fault : PathFault)
  | notPermitted
  deriving DecidableEq, Repr

def FileError.message : FileError → String
  | .at op path fault => s!"{op} {path}: {fault.text}"
  | .notPermitted => "operation not permitted"

namespace FileTree

/-- The clean path by which a tree knows a path.  In memory, relative paths start at the root. -/
def key (t : FileTree) (p : String) : String :=
  let c := Path.clean p
  if t.storage = .memory ∧ (c = "." ∨ c = "..") then "/" else c

def file? (t : FileTree) (p : String) : Option String :=
  (t.files.find? (·.1 == p)).map Prod.snd

/-- Whether a clean path is a directory. -/
def isDir (t : FileTree) (p : String) : Bool :=
  p == "." || p == "/" || t.dirs.contains p || t.dirs.any (fun d => (Path.below? p d).isSome) ||
    t.files.any fun f => (Path.below? p f.1).isSome

def isFile (t : FileTree) (p : String) : Bool := !t.isDir p && (t.file? p).isSome

/-! ### Following a path -/

/-- Follows elements from a directory: the clean path that they lead to. -/
def follow (t : FileTree) (dir : String) : List String → Except PathFault String
  | [] => .ok dir
  | e :: es =>
    if !t.isDir dir then .error (if t.isFile dir then .notDirectory else .missing t.storage)
    else t.follow (if e == "" then dir else Path.join dir e) es

/-- The clean path that a path leads to.  The path itself need not exist. -/
def locate (t : FileTree) (p : String) : Except PathFault String :=
  match t.storage with
  | .memory => .ok (t.key p)
  | .disk =>
    if Path.isRooted p then t.follow "/" (Path.elements p)
    else if p == "" then .error (.missing .disk)
    else t.follow "." (Path.elements p)

/-- How a path is named when it cannot be opened. -/
def shownPath (t : FileTree) (p : String) : String :=
  match t.storage with
  | .memory => t.key p
  | .disk => p

/-! ### Reading -/

/-- The text at a path.  A directory in memory without a text reads as an empty one. -/
def read (t : FileTree) (p : String) : Except FileError String :=
  match t.locate p with
  | .error fault => .error (.at "open" (t.shownPath p) fault)
  | .ok c =>
    if t.storage = .disk ∧ t.isDir c then .error (.at "read" p .isDirectory)
    else match t.file? c with
      | some text => .ok text
      | none =>
        if t.isDir c then .ok "" else .error (.at "open" (t.shownPath p) (.missing t.storage))

/-! ### Writing -/

/-- Puts a text at a clean path. -/
def put (t : FileTree) (c text : String) : FileTree :=
  { t with files := if t.files.any (·.1 == c) then
      t.files.map fun f => if f.1 == c then (c, text) else f
    else t.files ++ [(c, text)] }

/-- Puts a text at a path, whatever stands there. -/
def add (t : FileTree) (p text : String) : FileTree := t.put (t.key p) text

/-- Makes a directory at a clean path. -/
def addDir (t : FileTree) (c : String) : FileTree :=
  if t.isDir c then t else { t with dirs := t.dirs ++ [c] }

/-- A path without slashes at its end. -/
def withoutSlash (p : String) : String :=
  String.ofList (p.toList.reverse.dropWhile (· == '/')).reverse

/-- Writes a text to a path whose directory exists.  A path with a slash at its end names no file on
disk. -/
def write (t : FileTree) (p text : String) : Except FileError FileTree :=
  if t.readOnly then .error .notPermitted
  else match t.locate (if t.storage = .disk then withoutSlash p else p) with
    | .error fault => .error (.at "open" p fault)
    | .ok c =>
      match t.storage with
      | .memory => .ok (t.put c text)
      | .disk =>
        if t.isDir c || Text.endsWith p "/" then .error (.at "open" p .isDirectory)
        else if !t.isDir (Path.parent c) then .error (.at "open" p (.missing .disk))
        else .ok (t.put c text)

/-- Makes one directory on disk; the directory above it exists. -/
def makeDir (t : FileTree) (p : String) : Except FileError FileTree :=
  match t.locate (withoutSlash p) with
  | .error fault => .error (.at "mkdir" p fault)
  | .ok c =>
    if t.isDir c then .ok t
    else if t.isFile c then .error (.at "mkdir" p .exists)
    else .ok (t.addDir c)

/-- Makes a directory on disk and all directories above it, at most as many as the first argument
says. -/
def makeDirs (t : FileTree) : Nat → String → Except FileError FileTree
  | 0, _ => .ok t
  | n + 1, p =>
    let status := (t.locate p).toOption
    if status.any t.isDir then .ok t
    else if status.any t.isFile then .error (.at "mkdir" p .notDirectory)
    else
      let above := Path.dirText (withoutSlash p)
      if above == "" then t.makeDir p
      else match t.makeDirs n above with
        | .error e => .error e
        | .ok t => t.makeDir p

/-- Makes a directory and all directories above it.  In memory nothing stands in the way. -/
def ensureDir (t : FileTree) (p : String) : Except FileError FileTree :=
  if t.readOnly then .error .notPermitted
  else match t.storage with
    | .memory => .ok (if (t.file? (t.key p)).isSome then t else t.addDir (t.key p))
    | .disk => t.makeDirs (Path.elements p).length p

/-! ### Listing -/

/-- The directories above a clean path, the nearest one last; `fuel` bounds their number. -/
def above (p : String) : Nat → List String
  | 0 => []
  | fuel + 1 =>
    let up := Path.parent p
    if up == p || up == "." || up == "/" then [] else above up fuel ++ [up]

/-- The places of a tree: its files, its directories and all directories above them. -/
def places (t : FileTree) : List String :=
  let named := t.files.map Prod.fst ++ t.dirs
  let implied := named.flatMap fun p => above p (Path.elements p).length
  (named ++ implied.filter fun p => t.key p == p).eraseDups

/-- The places in a directory by name, in order, and whether they are directories.  In memory, two
places in the root may have the same name. -/
def entries (t : FileTree) (dir : String) : List (String × Bool) :=
  let inside := t.places.filter fun p => p != dir && t.key (Path.parent p) == dir
  Text.sortedBy Prod.fst (inside.map fun p => (Path.baseName p, t.isDir p))

/-- The entries below a directory whose name ends in `suffix`, by their paths below `base`, with at
most `fuel` directories above each.  A directory is looked into only where its clean path, taken as
a text, begins with `base`. -/
def scanFrom (t : FileTree) (base suffix : String) : Nat → String → List String
  | 0, _ => []
  | fuel + 1, rel =>
    let place := Path.join base rel
    if !Text.beginsWith place base then []
    else
      let found := t.entries (t.key place)
      let here := found.filter fun (name, _) => Text.endsWith name suffix
      here.map (fun (name, _) => Path.join rel name) ++
        (found.filter Prod.snd).flatMap fun (name, _) =>
          t.scanFrom base suffix fuel (Path.join rel name)

/-- The entries below a directory whose name ends in `suffix`, in order, by their paths below it. -/
def scan (t : FileTree) (dir suffix : String) : List String :=
  Text.sorted (t.scanFrom (Path.clean dir) suffix (t.places.length + 1) ".")

/-- The files at and below a path as a walk meets them, with at most `fuel` directories above
each. -/
def walk (t : FileTree) : Nat → String → List (String × String)
  | 0, _ => []
  | fuel + 1, p =>
    if t.isDir (t.key p) then
      (t.entries (t.key p)).flatMap fun (name, _) => t.walk fuel (Path.join p name)
    else ((t.file? (t.key p)).map fun text => (p, text)).toList

/-- The files at and below a path as a walk meets them. -/
def filesBelow (t : FileTree) (p : String) : List (String × String) :=
  t.walk (t.places.length + 1) p

/-- The files of `after` that are new or changed, by path. -/
def changes (before after : FileTree) : List (String × String) :=
  Text.sortedBy Prod.fst (after.files.filter fun f => before.file? f.1 != some f.2)

end FileTree

end TaskLoom
