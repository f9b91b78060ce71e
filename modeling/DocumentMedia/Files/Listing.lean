import DocumentMedia.Files.Tree

/-! # Listings of file trees

What stands below a directory, without following links, and locations with all links resolved.
-/
namespace DocumentMedia.Files.Tree

/-- What follows `head` in a location, when that is not all of it. -/
def below? : Location → Location → Option Location
  | [], [] => none
  | [], name :: rest => some (name :: rest)
  | _ :: _, [] => none
  | h :: hs, name :: rest => if h = name then below? hs rest else none

def below (t : Tree) (place : Location) : List (Location × Entry) :=
  t.entries.filterMap fun (l, e) => (below? place l).map fun names => (names, e)

def extend (p : Path) (names : Location) : Path := ⟨p.root, p.parts ++ names⟩

/-- The paths below a directory, in the order of their parts. -/
def pathsBelow (t : Tree) (p : Path) : Except FileError (List Path) := do
  let place ← t.locate true p
  return ((t.below place).map fun (names, _) => extend p names).mergeSort Path.le

/-- How far names lead until the first link, whether or not something stands there. -/
def realWalk (t : Tree) : Location → List String → Stop
  | place, [] => .arrived place
  | place, name :: rest =>
    if name = ".." then realWalk t place.dropLast rest
    else
      match t.at? (place ++ [name]) with
      | some (.link target) => .link place target rest
      | _ => realWalk t (place ++ [name]) rest

def realFollow (t : Tree) : Nat → Location → List String → Location
  | links, place, names =>
    match realWalk t place names with
    | .arrived place => place
    | .failed _ => place
    | .link base target rest =>
      match links with
      | 0 => base ++ rest
      | n + 1 =>
        realFollow t n (if target.isAbsolute then [] else base) (target.parts ++ rest)

/-- The location of a path with all links resolved, whether or not something stands there. -/
def realLocation (t : Tree) (p : Path) : Location := realFollow t maxLinks (t.start p) p.parts

end DocumentMedia.Files.Tree
