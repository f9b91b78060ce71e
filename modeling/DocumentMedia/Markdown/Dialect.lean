/-! # Dialects of Markdown

Which constructs a dialect knows. Directives are part of every dialect.
-/
namespace DocumentMedia.Markdown

structure Dialect where
  /-- All constructs; otherwise only paragraphs of plain text. -/
  constructs : Bool
  /-- Tables and struck-out text. -/
  extended : Bool
  markup : Bool
  maxNesting : Nat
  deriving DecidableEq, Repr, Inhabited

namespace Dialect

def commonmark : Dialect := ⟨true, false, true, 20⟩

def gfm : Dialect := ⟨true, true, true, 20⟩

def standard : Dialect := ⟨true, true, false, 100⟩

def plain : Dialect := ⟨false, false, false, 20⟩

def ofName? (name : String) : Option Dialect :=
  match name with
  | "gfm-like" => some gfm
  | "commonmark" => some commonmark
  | "default" | "js-default" => some standard
  | "zero" => some plain
  | _ => none

end Dialect

end DocumentMedia.Markdown
