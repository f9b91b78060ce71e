import DocumentMedia.Text.Blank

/-! # Paths

Slash-separated paths. Empty and single-dot parts are dropped when a path is read; double dots are
kept, because what they mean depends on links.
-/
namespace DocumentMedia.Files

open DocumentMedia.Text

structure Path where
  /-- Empty for a relative path, else one slash, or two when exactly two were written. -/
  root : String
  parts : List String
  deriving DecidableEq, Repr, Inhabited

namespace Path

def here : Path := ⟨"", []⟩

def rootOf : List Char → String
  | '/' :: '/' :: '/' :: _ => "/"
  | '/' :: '/' :: _ => "//"
  | '/' :: _ => "/"
  | _ => ""

def ofString (s : String) : Path where
  root := rootOf s.toList
  parts := ((splitWhere (· = '/') s.toList).filter fun p => p ≠ [] && p ≠ ['.']).map String.ofList

def text (p : Path) : String :=
  if p.root.isEmpty && p.parts.isEmpty then "."
  else p.root ++ "/".intercalate p.parts

def isAbsolute (p : Path) : Bool := !p.root.isEmpty

/-- The other path, read from this one; an absolute path stands for itself. -/
def join (p q : Path) : Path :=
  if q.isAbsolute then q else ⟨p.root, p.parts ++ q.parts⟩

def child (p : Path) (name : String) : Path := ⟨p.root, p.parts ++ [name]⟩

def parent (p : Path) : Path := ⟨p.root, p.parts.dropLast⟩

/-- Adds a part to parts in reverse; a double dot takes the last one back. -/
def pushPart (absolute : Bool) (parts : List String) (part : String) : List String :=
  if part ≠ ".." then part :: parts
  else
    match parts with
    | [] => if absolute then [] else [".."]
    | last :: rest => if last = ".." then ".." :: parts else rest

/-- The path without double dots behind a name, whatever links there are. -/
def normal (p : Path) : Path :=
  ⟨p.root, (p.parts.foldl (pushPart p.isAbsolute) []).reverse⟩

def name (p : Path) : String := p.parts.getLast?.getD ""

/-- The last point of a name and what follows it, when there is something on either side. -/
def suffixOf (name : List Char) : List Char :=
  let r := name.reverse
  match r.takeWhile (· ≠ '.'), r.dropWhile (· ≠ '.') with
  | c :: cs, '.' :: _ :: _ => '.' :: (c :: cs).reverse
  | _, _ => []

def suffix (p : Path) : String := String.ofList (suffixOf p.name.toList)

def stem (p : Path) : String :=
  let n := p.name.toList
  String.ofList (n.take (n.length - (suffixOf n).length))

/-- Order of names from the first one on; a shorter list comes before its extensions. -/
def partsLe : List String → List String → Bool
  | [], _ => true
  | _ :: _, [] => false
  | a :: as, b :: bs => if a = b then partsLe as bs else decide (a < b)

def le (p q : Path) : Bool := partsLe p.parts q.parts

end Path

end DocumentMedia.Files
