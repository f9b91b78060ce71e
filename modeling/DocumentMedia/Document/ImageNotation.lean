import DocumentMedia.Text.LetterCase
import DocumentMedia.Text.Blank

/-! # Images with attributes

Before parsing, images that are followed by an attribute block, `![alt](url)` and `{attrs}`, are
replaced by directives `:img[alt]` whose attributes start with the source.
-/
namespace DocumentMedia.Document

open DocumentMedia.Text

structure ImageNotation where
  alt : List Char
  url : List Char
  attrs : List Char
  length : Nat
  deriving DecidableEq, Repr

def until? (stop : Char) (s : List Char) : Option (List Char × List Char) :=
  match s.dropWhile (· ≠ stop) with
  | _ :: rest => some (s.takeWhile (· ≠ stop), rest)
  | [] => none

/-- The notation at the start of a text. -/
def imageNotation? (s : List Char) : Option ImageNotation :=
  match s with
  | '!' :: '[' :: r =>
    match until? ']' r with
    | some (alt, '(' :: r) =>
      -- The address is a run without blanks, so an image with a title is left alone.
      match r.takeWhile (fun c => c ≠ ')' && !isBlank c),
          r.dropWhile (fun c => c ≠ ')' && !isBlank c) with
      | u :: url, ')' :: r =>
        match stripStart r with
        | '{' :: r =>
          match until? '}' r with
          | some (attrs, rest) => some ⟨alt, u :: url, attrs, s.length - rest.length⟩
          | none => none
        | _ => none
      | _, _ => none
    | _ => none
  | _ => none

def ImageNotation.directive (n : ImageNotation) : List Char :=
  ":img[".toList ++ n.alt ++ "]\x7bsrc=\"".toList ++ n.url ++ "\" ".toList ++ n.attrs ++ ['}']

/-- Replaces from left to right; the first `skip` characters belong to a notation just read. -/
def replaceFrom : Nat → List Char → List Char
  | _, [] => []
  | skip + 1, _ :: cs => replaceFrom skip cs
  | 0, c :: cs =>
    match imageNotation? (c :: cs) with
    | some n => n.directive ++ replaceFrom (n.length - 1) cs
    | none => c :: replaceFrom 0 cs

def replaceImages (text : String) : String := String.ofList (replaceFrom 0 text.toList)

/-- Replaces image notations in the text of files whose path ends with `ending`, in any case. -/
def replaceInSource (text path ending : String) : String :=
  let e := lower ending.toList
  if !e.isEmpty && e.isSuffixOf (lower path.toList) then replaceImages text else text

end DocumentMedia.Document
