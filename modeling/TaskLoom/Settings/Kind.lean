import TaskLoom.Text.Basic

/-!
# Kinds of values

Every value of the settings language has a kind.  A kind may leave parts of itself unsettled.  The
two sides of a choice, and the items of a list, are brought to a common kind: `Kind.common?` finds
it, and says on which way each of the given kinds gets there.
-/

namespace TaskLoom.Settings

inductive Kind where
  /-- Not settled. -/
  | any
  | bool
  | number
  | text
  /-- Items of one kind. -/
  | list (item : Kind)
  /-- Members of one kind. -/
  | map (item : Kind)
  /-- Items that have a kind each. -/
  | tuple (items : List Kind)
  /-- Members that have a kind each, in the order of their names. -/
  | object (members : List (String × Kind))
  deriving BEq, Repr, Inhabited

namespace Kind

def isAny : Kind → Bool
  | .any => true
  | _ => false

def isMap : Kind → Bool
  | .map _ => true
  | _ => false

def isList : Kind → Bool
  | .list _ => true
  | _ => false

def isObject : Kind → Bool
  | .object _ => true
  | _ => false

def isTuple : Kind → Bool
  | .tuple _ => true
  | _ => false

/-- The kinds of the items or members. -/
def parts : Kind → List Kind
  | .list k => [k]
  | .map k => [k]
  | .tuple ks => ks
  | .object ms => ms.map Prod.snd
  | _ => []

/-- The names of the members of an object. -/
def names : Kind → List String
  | .object ms => ms.map Prod.fst
  | _ => []

def member? (k : Kind) (name : String) : Option Kind :=
  match k with
  | .object ms => (ms.find? (·.1 == name)).map Prod.snd
  | _ => none

mutual

/-- How deep kinds are nested in a kind. -/
def depth : Kind → Nat
  | .list k => depth k + 1
  | .map k => depth k + 1
  | .tuple ks => depths ks + 1
  | .object ms => memberDepths ms + 1
  | _ => 0

def depths : List Kind → Nat
  | [] => 0
  | k :: ks => max (depth k) (depths ks)

def memberDepths : List (String × Kind) → Nat
  | [] => 0
  | (_, k) :: ms => max (depth k) (memberDepths ms)

end

mutual

/-- Whether any part of a kind is not settled. -/
def isOpen : Kind → Bool
  | .any => true
  | .list k => isOpen k
  | .map k => isOpen k
  | .tuple ks => anyOpen ks
  | .object ms => anyMemberOpen ms
  | _ => false

def anyOpen : List Kind → Bool
  | [] => false
  | k :: ks => isOpen k || anyOpen ks

def anyMemberOpen : List (String × Kind) → Bool
  | [] => false
  | (_, k) :: ms => isOpen k || anyMemberOpen ms

end

mutual

/-- Whether a kind is what another one asks for, which need not be settled. -/
def conforms : Kind → Kind → Bool
  | _, .any => true
  | .list k, .list l => conforms k l
  | .map k, .map l => conforms k l
  | .tuple ks, .tuple ls => allConform ks ls
  | .object ms, .object ns => membersConform ms ns
  | k, l => k == l

def allConform : List Kind → List Kind → Bool
  | [], [] => true
  | k :: ks, l :: ls => conforms k l && allConform ks ls
  | _, _ => false

def membersConform : List (String × Kind) → List (String × Kind) → Bool
  | [], [] => true
  | (m, k) :: ms, (n, l) :: ns => m == n && conforms k l && membersConform ms ns
  | _, _ => false

end

/-! ### Preference -/

/-- The common verdict of several comparisons. -/
def verdict (os : List Ordering) : Ordering :=
  match os.contains .lt, os.contains .gt with
  | true, false => .lt
  | false, true => .gt
  | _, _ => .eq

mutual

/-- Which of two kinds others are rather brought to: the lesser one.  Texts can say what other
scalars say, collections hold what tuples and objects hold, and what is not settled comes last. -/
def preference : Kind → Kind → Ordering
  | .any, .any => .eq
  | .any, _ => .gt
  | _, .any => .lt
  | .text, .bool => .lt
  | .text, .number => .lt
  | .bool, .text => .gt
  | .number, .text => .gt
  | .list k, .list l => preference k l
  | .map k, .map l => preference k l
  | .list _, .tuple _ => .lt
  | .tuple _, .list _ => .gt
  | .map _, .object _ => .lt
  | .object _, .map _ => .gt
  | .tuple ks, .tuple ls => if ks.length = ls.length then verdict (preferences ks ls) else .eq
  | .object ms, .object ns =>
    if ms.map Prod.fst = ns.map Prod.fst then verdict (memberPreferences ms ns) else .eq
  | _, _ => .eq

def preferences : List Kind → List Kind → List Ordering
  | k :: ks, l :: ls => preference k l :: preferences ks ls
  | _, _ => []

def memberPreferences : List (String × Kind) → List (String × Kind) → List Ordering
  | (_, k) :: ms, (_, l) :: ns => preference k l :: memberPreferences ms ns
  | _, _ => []

end

/-- The kinds, those first that the others are rather brought to. -/
def preferred (ks : List Kind) : List Kind :=
  let rank (k : Kind) : Nat := ks.countP fun l => preference l k == .lt
  ks.mergeSort fun k l => rank k ≤ rank l

/-! ### Common kinds -/

/-- How a value gets to the common kind. -/
inductive Route where
  /-- It has that kind. -/
  | keep
  /-- It is converted to one kind after the other. -/
  | through (kinds : List Kind)
  deriving Repr, Inhabited

/-- The way on to a further kind. -/
def Route.andThen : Route → Route → Route
  | .through ks, .through ls => .through (ks ++ ls)
  | .keep, r => r
  | r, _ => r

mutual

/-- Whether values of one kind can be converted to another one; single values may still fail. -/
def convertibleIn (fuel : Nat) (k l : Kind) : Bool :=
  match fuel with
  | 0 => false
  | fuel + 1 =>
    let fits (k l : Kind) : Bool := k == l || convertibleIn fuel k l
    match k, l with
    | _, .any => true
    | .any, _ => true
    | .number, .text => true
    | .bool, .text => true
    | .text, .number => true
    | .text, .bool => true
    | .list k, .list l => fits k l
    | .map k, .map l => fits k l
    | .tuple ks, .tuple ls => ks.length == ls.length && (ks.zip ls).all fun (k, l) => fits k l
    | .object _, .object ns => ns.all fun (name, l) => (k.member? name).any (fits · l)
    | .map k, .object ns => ns.all fun (_, l) => fits k l
    | .tuple [], .list _ => true
    | .object [], .map _ => true
    | .tuple ks, .list l =>
      (itemIn? fuel ks l).any fun l => (!l.isAny || ks.all isAny) && ks.all (fits · l)
    | .object ms, .map l =>
      let ks := ms.map Prod.snd
      (itemIn? fuel ks l).any fun l => ks.all (fits · l)
    | _, _ => false

/-- The kind of the items of a collection that is to hold items of the kinds `ks`: the one that is
asked for or, if that is not settled, the common one. -/
def itemIn? (fuel : Nat) (ks : List Kind) (asked : Kind) : Option Kind :=
  match fuel with
  | 0 => none
  | fuel + 1 => if asked.isAny then (commonIn? fuel ks).map Prod.fst else some asked

/-- The ways of several kinds to one kind, if all can be converted to it. -/
def routesIn? (fuel : Nat) (target : Kind) (ks : List Kind) : Option (Kind × List Route) :=
  match fuel with
  | 0 => none
  | fuel + 1 =>
    (ks.mapM fun k =>
      if k == target then some Route.keep
      else if convertibleIn fuel k target then some (.through [target])
      else none).map (target, ·)

/-- The common kind of several kinds, and the way of each one to it. -/
def commonIn? (fuel : Nat) (ks : List Kind) : Option (Kind × List Route) :=
  match fuel with
  | 0 => none
  | fuel + 1 =>
    let anys := ks.countP isAny
    let maps := ks.countP isMap
    let lists := ks.countP isList
    let objects := ks.countP isObject
    let tuples := ks.countP isTuple
    let areAll (n : Nat) : Bool := n + anys == ks.length
    let settled (found : Option (Kind × List Route)) : Option (Kind × List Route) :=
      if 0 < anys then some (.any, ks.map fun _ => .keep) else found
    if ks.isEmpty then none
    else if 0 < maps && areAll maps then settled (collectionIn? fuel .map ks ks)
    else if 0 < lists && areAll lists then settled (collectionIn? fuel .list ks ks)
    else if 0 < maps && areAll (maps + objects) then
      (collectedIn? fuel .map ks).orElse fun _ => preferredIn? fuel ks (preferred ks)
    else if 0 < lists && areAll (lists + tuples) then
      (collectedIn? fuel .list ks).orElse fun _ => preferredIn? fuel ks (preferred ks)
    else if 0 < objects && areAll objects then
      settled (memberwiseIn? fuel ks)
    else if 0 < tuples && areAll tuples then
      settled (itemwiseIn? fuel ks)
    else if 0 < objects && 0 < tuples then none
    else preferredIn? fuel ks (preferred ks)

/-- The first candidate that all kinds can be converted to. -/
def preferredIn? (fuel : Nat) (ks : List Kind) (candidates : List Kind) :
    Option (Kind × List Route) :=
  match fuel with
  | 0 => none
  | fuel + 1 => candidates.findSome? (routesIn? fuel · ks)

/-- The collection that holds the parts of all the kinds `sources`, as a common kind of `ks`. -/
def collectionIn? (fuel : Nat) (collection : Kind → Kind) (sources ks : List Kind) :
    Option (Kind × List Route) :=
  match fuel with
  | 0 => none
  | fuel + 1 =>
    match commonIn? fuel (sources.flatMap parts) with
    | some (item, _) => routesIn? fuel (collection item) ks
    | none => none

/-- The common kind of collections and of tuples or objects, which are turned into one collection
first. -/
def collectedIn? (fuel : Nat) (collection : Kind → Kind) (ks : List Kind) :
    Option (Kind × List Route) :=
  match fuel with
  | 0 => none
  | fuel + 1 =>
    let isPlain (k : Kind) : Bool := k.isTuple || k.isObject
    let plain := ks.filter isPlain
    match collectionIn? fuel collection plain plain with
    | none => none
    | some (first, _) =>
      match commonIn? fuel (ks.map fun k => if isPlain k then first else k) with
      | some (.any, _) => none
      | some (k, routes) =>
        some (k, (ks.zip routes).map fun (l, r) =>
          if isPlain l then Route.andThen (.through [first]) r else r)
      | none => none

/-- The common kind of objects: an object if they have the same members, and else a map. -/
def memberwiseIn? (fuel : Nat) (ks : List Kind) : Option (Kind × List Route) :=
  match fuel with
  | 0 => none
  | fuel + 1 =>
    let names := (ks.head?.map Kind.names).getD []
    if ks.all fun k => k.names == names then
      match names.mapM fun name =>
          (commonIn? fuel (ks.filterMap (member? · name))).map fun (k, _) => (name, k) with
      | some ms => routesIn? fuel (.object ms) ks
      | none => none
    else collectionIn? fuel .map ks ks

/-- The common kind of tuples: a tuple if they have the same length, and else a list. -/
def itemwiseIn? (fuel : Nat) (ks : List Kind) : Option (Kind × List Route) :=
  match fuel with
  | 0 => none
  | fuel + 1 =>
    let size := (ks.head?.map fun k => k.parts.length).getD 0
    if ks.all fun k => k.parts.length == size then
      match (List.range size).mapM fun i =>
          (commonIn? fuel (ks.filterMap (·.parts[i]?))).map Prod.fst with
      | some items => routesIn? fuel (.tuple items) ks
      | none => none
    else collectionIn? fuel .list ks ks

end

/-- The steps that are enough for kinds of a given depth: each level takes at most eight. -/
def stepsFor (depth : Nat) : Nat := 8 * (depth + 2)

/-- The common kind of several kinds, and the way of each one to it. -/
def common? (ks : List Kind) : Option (Kind × List Route) := commonIn? (stepsFor (depths ks)) ks

/-- Whether values of one kind can be converted to another one; single values may still fail. -/
def isConvertible (k l : Kind) : Bool := convertibleIn (stepsFor (max k.depth l.depth)) k l

/-- The kind of the items of a collection that is to hold items of the kinds `ks`. -/
def item? (ks : List Kind) (asked : Kind) : Option Kind := itemIn? (stepsFor (depths ks)) ks asked

/-! ### Settling -/

mutual

/-- A kind with everything in it that is not settled taken from another kind. -/
def settle (source : Kind) : Kind → Kind
  | .any => source
  | .list k =>
    match source with
    | .list s => .list (settle s k)
    | .tuple ss => .list (settle (((common? ss).map Prod.fst).getD .any) k)
    | _ => .list k
  | .map k =>
    match source with
    | .map s => .map (settle s k)
    | .object ms => .map (settle (((common? (ms.map Prod.snd)).map Prod.fst).getD .any) k)
    | _ => .map k
  | .tuple ks =>
    match source with
    | .tuple ss => .tuple (settleItems ss ks)
    | _ => .tuple ks
  | .object ms =>
    match source with
    | .map s => .object (settleMembers (fun _ => s) ms)
    | .object ns =>
      .object (settleMembers (fun name => ((Kind.object ns).member? name).getD .any) ms)
    | _ => .object ms
  | k => k

def settleItems (sources : List Kind) : List Kind → List Kind
  | [] => []
  | k :: ks => settle (sources.headD .any) k :: settleItems sources.tail ks

def settleMembers (source : String → Kind) : List (String × Kind) → List (String × Kind)
  | [] => []
  | (name, k) :: ms => (name, settle (source name) k) :: settleMembers source ms

end

end Kind

end TaskLoom.Settings
