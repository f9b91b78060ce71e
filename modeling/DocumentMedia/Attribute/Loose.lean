import DocumentMedia.Attribute.Style
import DocumentMedia.Attribute.Token

/-! # Loose attributes

Attributes written one after another, as in a tag or in the braces of a directive.
-/
namespace DocumentMedia.Attribute

open DocumentMedia.Text

/-- Attributes of a tag. A bare name is set to `true`. -/
def parseLoose (s : List Char) : Fields :=
  (splitTokens s).foldl (fun m token =>
    match splitPair token with
    | (key, none) => Assoc.put m (String.ofList key) (.bool true)
    | (key, some value) => Assoc.put m (String.ofList key) (.str (String.ofList value))) []

/-- Attributes of a directive under construction; classes are collected apart. -/
structure DirectiveDraft where
  attrs : Assoc String String
  classes : List (List Char)

def addDirectiveToken (d : DirectiveDraft) (token : List Char) : DirectiveDraft :=
  match splitPair token with
  | (key, none) =>
    match token with
    | '.' :: c :: cs => { d with classes := d.classes ++ [c :: cs] }
    | '#' :: c :: cs => { d with attrs := Assoc.put d.attrs "id" (String.ofList (c :: cs)) }
    | _ =>
      if key = "class".toList then d
      else { d with attrs := Assoc.put d.attrs (String.ofList key) "" }
  | (key, some value) =>
    if key = "class".toList then { d with classes := d.classes ++ words value }
    else { d with attrs := Assoc.put d.attrs (String.ofList key) (String.ofList value) }

/-- Attributes of a directive. Classes accumulate and stand last, other keys keep their last value,
bare keys are empty. -/
def parseDirective (s : List Char) : Assoc String String :=
  let d := (splitTokens s).foldl addDirectiveToken ⟨[], []⟩
  if d.classes.isEmpty then d.attrs
  else Assoc.put d.attrs "class" (String.ofList (joinWith [' '] d.classes))

end DocumentMedia.Attribute
