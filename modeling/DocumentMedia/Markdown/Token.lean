import DocumentMedia.Value.Basic

/-! # Markdown tokens

A document as a flat list of tokens: some open an element, some close one, the rest stand alone.
A block of text holds the tokens of its inline content.
-/
namespace DocumentMedia.Markdown

inductive Nesting where
  | opens
  | closes
  | stands
  deriving DecidableEq, Repr, Inhabited

structure DirectiveMeta where
  name : String
  label : Option String
  attributes : Fields
  deriving Repr, Inhabited

structure Token where
  type : String
  nesting : Nesting := .stands
  tag : String := ""
  attrs : Fields := []
  content : String := ""
  /-- The text behind an opening fence. -/
  info : String := ""
  /-- Paragraphs of tight lists are hidden. -/
  hidden : Bool := false
  directive : DirectiveMeta := ⟨"", none, []⟩
  deriving Repr, Inhabited

/-- A token with the tokens of its inline content. -/
structure BlockToken extends Token where
  inlines : List Token := []
  deriving Repr, Inhabited

end DocumentMedia.Markdown
