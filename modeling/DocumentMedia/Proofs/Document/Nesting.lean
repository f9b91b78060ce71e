import DocumentMedia.Proofs.Document.Folding
import Mathlib.Data.List.Forall2

/-! # Nested tokens

A tree keeps the tokens that it was folded from. On the way through it everything is met that the
tokens open, hold and close, in their order; texts that stand side by side are met as one. -/
namespace DocumentMedia

/-! ## Events -/

/-- What is met on the way through a tree or through the tokens of a document. -/
inductive TreeEvent where
  | opens (type tag : String) (attrs : Fields) (hidden : Bool)
  | text (value : String)
  | leaf (type : String) (body : Leaf)
  | closes (type : String)

namespace TreeEvent

def isText : TreeEvent → Bool
  | .text _ => true
  | _ => false

/-- Puts an event before others; two texts become one. -/
def join : TreeEvent → List TreeEvent → List TreeEvent
  | .text a, .text b :: es => .text (a ++ b) :: es
  | e, es => e :: es

/-- Each run of texts as one text. -/
def joinTexts : List TreeEvent → List TreeEvent
  | [] => []
  | e :: es => e.join (joinTexts es)

theorem join_join (a b : String) (es : List TreeEvent) :
    (text a).join ((text b).join es) = (text (a ++ b)).join es := by
  cases es with
  | nil => rfl
  | cons e es =>
    cases e with
    | text c => simp only [join, String.append_assoc]
    | _ => rfl

theorem joinTexts_join_append (e : TreeEvent) (es fs : List TreeEvent) :
    joinTexts (e.join es ++ fs) = e.join (joinTexts (es ++ fs)) := by
  cases es with
  | nil => cases e <;> rfl
  | cons f es =>
    cases e with
    | text a =>
      cases f with
      | text b => exact (join_join a b _).symm
      | _ => rfl
    | _ => rfl

theorem joinTexts_joinTexts_append (es fs : List TreeEvent) :
    joinTexts (joinTexts es ++ fs) = joinTexts (es ++ fs) := by
  induction es with
  | nil => rfl
  | cons e es ih => rw [joinTexts, joinTexts_join_append, ih, List.cons_append, joinTexts]

theorem joinTexts_append_left {es es' : List TreeEvent} (h : joinTexts es = joinTexts es')
    (fs : List TreeEvent) : joinTexts (es ++ fs) = joinTexts (es' ++ fs) := by
  rw [← joinTexts_joinTexts_append es, h, joinTexts_joinTexts_append]

theorem joinTexts_append_right (es : List TreeEvent) {fs fs' : List TreeEvent}
    (h : joinTexts fs = joinTexts fs') : joinTexts (es ++ fs) = joinTexts (es ++ fs') := by
  induction es with
  | nil => exact h
  | cons e es ih => simp only [List.cons_append, joinTexts, ih]

/-- No two texts stand side by side. -/
abbrev Apart (es : List TreeEvent) : Prop := es.IsChain fun a b => ¬(a.isText ∧ b.isText)

theorem joinTexts_of_apart {es : List TreeEvent} (h : Apart es) : joinTexts es = es := by
  induction es with
  | nil => rfl
  | cons e es ih =>
    rw [joinTexts, ih h.tail]
    cases e with
    | text a =>
      cases es with
      | nil => rfl
      | cons f es =>
        cases f with
        | text b => exact absurd ⟨rfl, rfl⟩ (List.isChain_cons_cons.mp h).1
        | _ => rfl
    | _ => rfl

end TreeEvent

/-- The event that a parent begins with. -/
def Container.opening (type : String) : Container → TreeEvent
  | .paragraph hidden => .opens type "p" [] hidden
  | .element tag attrs hidden => .opens type tag attrs hidden
  | .root | .component .. => .opens type "" [] false

namespace Node

mutual

/-- The events of a node, in document order. -/
def events : Node → List TreeEvent
  | .leaf _ _ (.text value) => [.text value]
  | .leaf type _ body => [.leaf type body]
  | .parent type _ body children =>
    body.opening type :: (eventsAll children ++ [.closes type])

def eventsAll : List Node → List TreeEvent
  | [] => []
  | n :: ns => n.events ++ eventsAll ns

end

theorem eventsAll_append (ns ms : List Node) :
    eventsAll (ns ++ ms) = eventsAll ns ++ eventsAll ms := by
  induction ns with
  | nil => rfl
  | cons n ns ih => simp only [List.cons_append, eventsAll, ih, List.append_assoc]

theorem eventsAll_singleton (n : Node) : eventsAll [n] = n.events := List.append_nil _

/-- No two texts stand side by side. -/
abbrev Apart (ns : List Node) : Prop := ns.IsChain fun a b => ¬(a.isText ∧ b.isText)

theorem eq_text_of_isText {n : Node} (h : n.isText) :
    ∃ type data a, n = .leaf type data (.text a) := by
  cases n with
  | leaf type data body =>
    cases body with
    | text a => exact ⟨type, data, a, rfl⟩
    | _ => cases h
  | parent => cases h

theorem events_ne_nil (n : Node) : n.events ≠ [] := by
  unfold events
  split <;> exact nofun

theorem isText_head_events {n : Node} {e : TreeEvent} (h : e ∈ n.events.head?) :
    e.isText = n.isText := by
  cases n with
  | leaf type data body => cases body <;> cases h <;> rfl
  | parent type data body children => cases body <;> cases h <;> rfl

theorem isText_getLast_events {n : Node} {e : TreeEvent} (h : e ∈ n.events.getLast?) :
    e.isText = n.isText := by
  cases n with
  | leaf type data body => cases body <;> cases h <;> rfl
  | parent type data body children =>
    rw [events, ← List.cons_append, List.getLast?_concat] at h
    cases h
    rfl

mutual

theorem apart_events : ∀ n : Node, n.Throughout TextsApart → TreeEvent.Apart n.events
  | .leaf _ _ body, _ => by cases body <;> exact .singleton _
  | .parent type _ body children, h => by
    have hinner := apart_eventsAll children h.1 h.2
    have hend : TreeEvent.Apart (eventsAll children ++ [.closes type]) := by
      refine List.isChain_append.mpr ⟨hinner, .singleton _, ?_⟩
      rintro a - b hb ⟨-, hbt⟩
      cases hb
      cases hbt
    refine List.isChain_cons.mpr ⟨fun b _ hab => ?_, hend⟩
    have hopening : (body.opening type).isText = false := by cases body <;> rfl
    rw [hopening] at hab
    cases hab.1

theorem apart_eventsAll : ∀ ns : List Node, Apart ns → ThroughoutAll TextsApart ns →
    TreeEvent.Apart (eventsAll ns)
  | [], _, _ => .nil
  | n :: ns, hc, h => by
    refine List.isChain_append.mpr ⟨apart_events n h.1, apart_eventsAll ns hc.tail h.2, ?_⟩
    rintro a ha b hb hab
    cases ns with
    | nil => cases hb
    | cons m ns =>
      have hb' : b ∈ m.events.head? := by
        rwa [eventsAll, List.head?_append_of_ne_nil _ (events_ne_nil m)] at hb
      rw [isText_getLast_events ha, isText_head_events hb'] at hab
      exact (List.isChain_cons_cons.mp hc).1 hab

end

end Node

namespace Document

open DocumentMedia.Markdown DocumentMedia.Text

/-! ## Texts apart -/

/-- No two texts stand side by side among the children of an open parent, nor below them. -/
structure OpenNode.Apart (o : OpenNode) : Prop where
  row : Node.Apart o.children
  children : ∀ n ∈ o.children, n.Throughout Node.TextsApart

theorem OpenNode.Apart.push {o : OpenNode} (h : o.Apart) {n : Node}
    (hn : n.Throughout Node.TextsApart) (ht : n.isText = false) :
    OpenNode.Apart { o with children := n :: o.children } := by
  refine ⟨List.isChain_cons.mpr ⟨fun m _ hm => ?_, h.row⟩,
    List.forall_mem_cons.mpr ⟨hn, h.children⟩⟩
  rw [ht] at hm
  cases hm.1

theorem apart_appendNode {siblings : List Node} {n : Node} (h : Node.Apart siblings) :
    Node.Apart (appendNode siblings n) := by
  unfold appendNode
  split
  · exact List.isChain_cons.mpr (List.isChain_cons.mp h)
  · next hjoin =>
    refine List.isChain_cons.mpr ⟨fun m hm ⟨hn, hmt⟩ => ?_, h⟩
    obtain ⟨type, data, b, rfl⟩ := Node.eq_text_of_isText hn
    obtain ⟨type', data', a, rfl⟩ := Node.eq_text_of_isText hmt
    obtain ⟨rest, hrest⟩ := List.head?_eq_some_iff.mp hm
    exact hjoin _ _ _ _ _ _ _ hrest rfl

theorem OpenNode.Apart.append {o : OpenNode} (h : o.Apart) {n : Node}
    (hn : n.Throughout Node.TextsApart) : (o.append n).Apart := by
  refine ⟨apart_appendNode h.row, ?_⟩
  have hc := h.children
  simp only [OpenNode.append, appendNode]
  split
  · next hrow =>
    rw [hrow, List.forall_mem_cons] at hc
    exact List.forall_mem_cons.mpr ⟨.nil, hc.2⟩
  · exact List.forall_mem_cons.mpr ⟨hn, hc⟩

theorem OpenNode.Apart.close {o : OpenNode} (h : o.Apart) :
    o.close.Throughout Node.TextsApart := by
  refine ⟨?_, Node.throughoutAll_iff.mpr fun n hn => h.children n (List.mem_reverse.mp hn)⟩
  refine List.isChain_reverse.mpr (h.row.imp fun a b hab hba => hab hba.symm)

theorem apart_build (flow : Bool) (name : List Char) (props : List Property) (inner : List Char) :
    (Component.build flow name props inner).Throughout Node.TextsApart := by
  simp only [Component.build]
  split
  · exact ⟨.nil, trivial⟩
  · exact ⟨.singleton _, .nil, trivial⟩

theorem apart_invariant : FoldInvariant OpenNode.Apart (Node.Throughout Node.TextsApart) where
  holder _ := ⟨.nil, nofun⟩
  opened t := by
    simp only [openNode]
    split <;> exact ⟨.nil, nofun⟩
  children ho := ho.children
  closed ho := ho.close
  leaf _ := .nil
  built := apart_build
  append ho hn := ho.append hn
  push ho hn ht := ho.push hn ht
  pop ho := ⟨ho.row.drop 1, fun n hn => ho.children n (List.mem_of_mem_drop hn)⟩
  detach ho := ⟨ho.row, ho.children⟩

/-! ## Tokens and their events -/

/-- Names of the elements that tokens open and close, with the types of their nodes. -/
def elementKinds : List (String × String) :=
  [("paragraph", "paragraph"), ("heading", "heading"), ("blockquote", "blockquote"),
    ("bullet_list", "list"), ("ordered_list", "list"), ("list_item", "listItem"),
    ("em", "emphasis"), ("strong", "strong"), ("s", "delete"), ("link", "link"),
    ("table", "table"), ("thead", "tableHead"), ("tbody", "tableBody"), ("tr", "tableRow"),
    ("th", "tableCell"), ("td", "tableCell")]

/-- A token opens the element of a name. -/
structure Opens (t : Token) (name : String) : Prop where
  nesting : t.nesting = .opens
  type : t.type = name ++ "_open"

structure Closes (t : Token) (name : String) : Prop where
  nesting : t.nesting = .closes
  type : t.type = name ++ "_close"

structure Stands (t : Token) (type : String) : Prop where
  nesting : t.nesting = .stands
  type : t.type = type

/-- The event of a token that opens or closes an element. Paragraphs have a tag of their own, no
attributes, and alone may be hidden. -/
inductive ElementEvent (t : Token) : TreeEvent → Prop where
  | paragraph (h : Opens t "paragraph") (htag : t.tag = "p") (hattrs : t.attrs = []) :
    ElementEvent t (.opens "paragraph" t.tag t.attrs t.hidden)
  | opens {name type : String} (h : Opens t name) (hkind : (name, type) ∈ elementKinds)
      (hname : name ≠ "paragraph") :
    ElementEvent t (.opens type t.tag (t.attrs.map fun (k, v) => (k, .str v.display)) false)
  | closes {name type : String} (h : Closes t name) (hkind : (name, type) ∈ elementKinds) :
    ElementEvent t (.closes type)

/-- The event of a token inside text. -/
inductive InlineEvent (t : Token) : TreeEvent → Prop where
  | element {e : TreeEvent} (h : ElementEvent t e) : InlineEvent t e
  | text (h : Stands t "text") : InlineEvent t (.text t.content)
  | special (h : Stands t "text_special") : InlineEvent t (.text t.content)
  | softbreak (h : Stands t "softbreak") : InlineEvent t (.text "\n")
  | hardbreak (h : Stands t "hardbreak") : InlineEvent t (.leaf "break" (.literal "br" "" none))
  | code (h : Stands t "code_inline") :
    InlineEvent t (.leaf "inlineCode" (.literal "code" t.content none))
  | image {url : String} {title : Option String} (h : Stands t "image")
      (hurl : Assoc.find? t.attrs "src" = some (.str url))
      (htitle : Assoc.find? t.attrs "title" = title.map .str) (hfull : title ≠ some "") :
    InlineEvent t (.leaf "image" (.image url t.content title))
  | directive (h : Stands t "text_directive") :
    InlineEvent t (.leaf "textDirective"
      (.directive t.directive.name t.directive.label t.directive.attributes))
  | html (h : Stands t "html_inline") : InlineEvent t (.leaf "html" (.html t.content))

/-- The language behind an opening fence. -/
def language (info : String) : Option String :=
  let lang := strip info.toList
  if lang.isEmpty then none else some (String.ofList lang)

/-- The events of a token between texts. -/
inductive BlockEvents (t : BlockToken) : List TreeEvent → Prop where
  | element {e : TreeEvent} (h : ElementEvent t.toToken e) : BlockEvents t [e]
  | text {es : List TreeEvent} (h : Stands t.toToken "inline")
      (hes : List.Forall₂ InlineEvent t.inlines es) : BlockEvents t es
  | fence (h : Stands t.toToken "fence") :
    BlockEvents t [.leaf "code" (.literal "pre" t.content (language t.info))]
  | code (h : Stands t.toToken "code_block") :
    BlockEvents t [.leaf "code" (.literal "pre" t.content (language t.info))]
  | rule (h : Stands t.toToken "hr") :
    BlockEvents t [.leaf "thematicBreak" (.literal "hr" "" none)]
  | html (h : Stands t.toToken "html_block") : BlockEvents t [.leaf "html" (.html t.content)]
  | directive (h : Stands t.toToken "leaf_directive") :
    BlockEvents t [.leaf "leafDirective"
      (.directive t.directive.name t.directive.label t.directive.attributes)]

/-- Tokens that close every element they open, the inner ones first. -/
inductive Nested {α : Type} (token : α → Token) : List α → Prop where
  | nil : Nested token []
  | stands {t : α} {ts : List α} (ht : (token t).nesting = .stands) (hrest : Nested token ts) :
    Nested token (t :: ts)
  | element {name : String} {o c : α} {inner ts : List α} (ho : Opens (token o) name)
      (hinner : Nested token inner) (hc : Closes (token c) name) (hrest : Nested token ts) :
    Nested token (o :: (inner ++ c :: ts))

/-- A document's tokens are nested, and so are those of each of its texts. -/
structure NestedDocument (ts : List BlockToken) : Prop where
  blocks : Nested BlockToken.toToken ts
  inlines : ∀ t ∈ ts, Nested id t.inlines

theorem elementType_of_kind {name type : String} (h : (name, type) ∈ elementKinds) :
    elementType name = type := by
  have hall : ∀ k ∈ elementKinds, elementType k.1 = k.2 := by decide
  exact hall _ h

theorem openNode_of_opens {t : Token} {name : String} (h : Opens t name) :
    openNode t = if name = "paragraph" then ⟨"paragraph", .paragraph t.hidden, [], false⟩
      else ⟨elementType name,
        .element t.tag (t.attrs.map fun (k, v) => (k, .str v.display)) false, [], false⟩ := by
  have hname : String.ofList (t.type.toList.take (t.type.length - 5)) = name := by
    rw [h.type, String.toList_append, String.length_append]
    have hopen : "_open".length = 5 := by decide
    rw [hopen, Nat.add_sub_cancel, ← String.length_toList, List.take_left, String.ofList_toList]
  simp only [openNode, hname]

theorem type_openNode {t : Token} {name : String} (h : Opens t name) :
    (openNode t).type = elementType name := by
  rw [openNode_of_opens h]
  split
  · next hname =>
    subst hname
    rfl
  · rfl

theorem detached_openNode (t : Token) : (openNode t).detached = false := by
  simp only [openNode]
  split <;> rfl

theorem children_openNode (t : Token) : (openNode t).children = [] := by
  simp only [openNode]
  split <;> rfl

theorem opening_openNode {t : Token} {e : TreeEvent} (h : ElementEvent t e)
    (ht : t.nesting = .opens) : (openNode t).body.opening (openNode t).type = e := by
  cases h with
  | paragraph h htag hattrs =>
    rw [openNode_of_opens h, htag, hattrs]
    rfl
  | @opens name type h hkind hname =>
    rw [openNode_of_opens h, if_neg hname, elementType_of_kind hkind]
    rfl
  | closes h => rw [h.nesting] at ht; cases ht

theorem closes_of_event {t : Token} {e : TreeEvent} {name : String} (h : ElementEvent t e)
    (hc : Closes t name) : e = .closes (elementType name) := by
  cases h with
  | paragraph h => have := h.nesting.symm.trans hc.nesting; cases this
  | opens h => have := h.nesting.symm.trans hc.nesting; cases this
  | @closes name' type h hkind =>
    have hname : name' = name := by
      have htype := h.type.symm.trans hc.type
      rwa [String.append_left_inj] at htype
    rw [← hname, elementType_of_kind hkind]

/-! ## Growing parents -/

/-- An open parent has taken up events behind those of its children so far. -/
structure OpenNode.Grown (o : OpenNode) (es : List TreeEvent) (o' : OpenNode) : Prop where
  type : o'.type = o.type
  body : o'.body = o.body
  detached : o'.detached = o.detached
  events : TreeEvent.joinTexts (Node.eventsAll o'.children.reverse) =
    TreeEvent.joinTexts (Node.eventsAll o.children.reverse ++ es)

namespace OpenNode.Grown

variable {o o' o'' : OpenNode} {es fs : List TreeEvent}

theorem refl (o : OpenNode) : o.Grown [] o :=
  ⟨rfl, rfl, rfl, by rw [List.append_nil]⟩

theorem trans (h : o.Grown es o') (h' : o'.Grown fs o'') : o.Grown (es ++ fs) o'' where
  type := h'.type.trans h.type
  body := h'.body.trans h.body
  detached := h'.detached.trans h.detached
  events := by
    rw [h'.events, TreeEvent.joinTexts_append_left h.events, List.append_assoc]

theorem congr (h : o.Grown es o') (he : TreeEvent.joinTexts es = TreeEvent.joinTexts fs) :
    o.Grown fs o' :=
  { h with events := h.events.trans (TreeEvent.joinTexts_append_right _ he) }

theorem append (o : OpenNode) (n : Node) : o.Grown n.events (o.append n) where
  type := rfl
  body := rfl
  detached := rfl
  events := by
    simp only [OpenNode.append, appendNode]
    split
    · next hrow =>
      simp only [hrow, List.reverse_cons, Node.eventsAll_append, Node.eventsAll_singleton,
        List.append_assoc]
      exact TreeEvent.joinTexts_append_right _ rfl
    · rw [List.reverse_cons, Node.eventsAll_append, Node.eventsAll_singleton]

theorem appendAll (o : OpenNode) (ns : List Node) :
    o.Grown (Node.eventsAll ns) (ns.foldl OpenNode.append o) := by
  induction ns generalizing o with
  | nil => exact refl o
  | cons n ns ih => exact (append o n).trans (ih _)

theorem push (o : OpenNode) (n : Node) :
    o.Grown n.events { o with children := n :: o.children } where
  type := rfl
  body := rfl
  detached := rfl
  events := by rw [List.reverse_cons, Node.eventsAll_append, Node.eventsAll_singleton]

theorem pushAll (o : OpenNode) (ns : List Node) :
    o.Grown (Node.eventsAll ns) { o with children := ns.reverse ++ o.children } where
  type := rfl
  body := rfl
  detached := rfl
  events := by
    rw [List.reverse_append, List.reverse_reverse, Node.eventsAll_append]

/-- A parent that was opened and has grown is met as its tokens are. -/
theorem events_close {t : Token} {e : TreeEvent} {name : String} (h : (openNode t).Grown es o)
    (he : ElementEvent t e) (ht : Opens t name) :
    TreeEvent.joinTexts o.close.events =
      TreeEvent.joinTexts (e :: (es ++ [.closes (elementType name)])) := by
  have hinner : TreeEvent.joinTexts (Node.eventsAll o.children.reverse) =
      TreeEvent.joinTexts es := by
    rw [h.events, children_openNode]
    rfl
  rw [OpenNode.close, Node.events, h.type, h.body, opening_openNode he ht.nesting,
    type_openNode ht]
  exact TreeEvent.joinTexts_append_right [e] (TreeEvent.joinTexts_append_left hinner _)

end OpenNode.Grown

/-! ## Folds of nested tokens -/

/-- The events of a row of tokens, at its first part and behind it. -/
theorem forall₂_append_left {α β : Type} {R : α → β → Prop} {ts us : List α} {es : List β}
    (h : List.Forall₂ R (ts ++ us) es) :
    ∃ es₁ es₂, es = es₁ ++ es₂ ∧ List.Forall₂ R ts es₁ ∧ List.Forall₂ R us es₂ := by
  induction ts generalizing es with
  | nil => exact ⟨[], es, rfl, .nil, h⟩
  | cons t ts ih =>
    obtain ⟨e, es', he, hes, rfl⟩ := List.forall₂_cons_left_iff.mp h
    obtain ⟨es₁, es₂, rfl, h₁, h₂⟩ := ih hes
    exact ⟨e :: es₁, es₂, rfl, .cons he h₁, h₂⟩

theorem not_stands {t : Token} {e : TreeEvent} (h : ElementEvent t e) : t.nesting ≠ .stands := by
  cases h with
  | paragraph h => rw [h.nesting]; nofun
  | opens h => rw [h.nesting]; nofun
  | closes h => rw [h.nesting]; nofun

theorem textAttr_of_text {attrs : Fields} {name s : String}
    (h : Assoc.find? attrs name = some (.str s)) : textAttr attrs name = s := by
  simp only [textAttr, h, Value.isTruthy, Value.isFalsy, Value.display]
  by_cases hs : s.isEmpty
  · simp [String.isEmpty_iff.mp hs]
  · simp [hs]

theorem eventsAll_inlineNodes {t : Token} {e : TreeEvent} (h : InlineEvent t e)
    (ht : t.nesting = .stands) : Node.eventsAll (inlineNodes false t) = [e] := by
  cases h with
  | element h => exact absurd ht (not_stands h)
  | text h => simp [inlineNodes, h.type, Node.eventsAll, Node.text, Node.events]
  | special h => simp [inlineNodes, h.type, Node.eventsAll, Node.text, Node.events]
  | softbreak h => simp [inlineNodes, h.type, Node.eventsAll, Node.text, Node.events]
  | hardbreak h => simp [inlineNodes, h.type, Node.eventsAll, Node.events]
  | code h => simp [inlineNodes, h.type, Node.eventsAll, Node.events]
  | @image url title h hurl htitle hfull =>
    have htitle' : (if textAttr t.attrs "title" = "" then none
        else some (textAttr t.attrs "title")) = title := by
      cases title with
      | none => simp [textAttr, htitle]
      | some s =>
        have hs : s ≠ "" := fun hs => hfull (congrArg some hs)
        simp [textAttr_of_text htitle, hs]
    simp [inlineNodes, h.type, Node.eventsAll, Node.events, textAttr_of_text hurl, htitle']
  | directive h => simp [inlineNodes, h.type, Node.eventsAll, Node.events, directiveNode]
  | html h => simp [inlineNodes, h.type, Node.eventsAll, Node.html, Node.events, markupNodes]

theorem element_of_inline {t : Token} {e : TreeEvent} (h : InlineEvent t e)
    (ht : t.nesting ≠ .stands) : ElementEvent t e := by
  cases h with
  | element h => exact h
  | text h => exact absurd h.nesting ht
  | special h => exact absurd h.nesting ht
  | softbreak h => exact absurd h.nesting ht
  | hardbreak h => exact absurd h.nesting ht
  | code h => exact absurd h.nesting ht
  | image h => exact absurd h.nesting ht
  | directive h => exact absurd h.nesting ht
  | html h => exact absurd h.nesting ht

/-- Nested tokens inside text leave the parents that were open before, and the innermost of them
has grown by their events. -/
theorem grown_inlineFold {ts : List Token} (hn : Nested id ts) {es : List TreeEvent}
    (he : List.Forall₂ InlineEvent ts es) (top : OpenNode) (below : List OpenNode) :
    ∃ top', ts.foldl (inlineStep false) (top, below) = (top', below) ∧ top.Grown es top' := by
  induction hn generalizing es top below with
  | nil =>
    cases he
    exact ⟨top, rfl, .refl top⟩
  | @stands t ts ht hrest ih =>
    have ht : t.nesting = .stands := ht
    obtain ⟨e, es', het, hes, rfl⟩ := List.forall₂_cons_left_iff.mp he
    have hstep : inlineStep false (top, below) t =
        ((inlineNodes false t).foldl OpenNode.append top, below) := by
      simp only [inlineStep, ht]
    have hfirst := OpenNode.Grown.appendAll top (inlineNodes false t)
    rw [eventsAll_inlineNodes het ht] at hfirst
    obtain ⟨top', hfold, hgrown⟩ := ih hes ((inlineNodes false t).foldl OpenNode.append top) below
    exact ⟨top', by rw [List.foldl_cons, hstep, hfold], hfirst.trans hgrown⟩
  | @element name o c inner ts ho hinner hc hrest ihinner ihrest =>
    have ho : Opens o name := ho
    have hc : Closes c name := hc
    obtain ⟨e, es', heo, hes, rfl⟩ := List.forall₂_cons_left_iff.mp he
    obtain ⟨es₁, es₂, rfl, hes₁, hes₂⟩ := forall₂_append_left hes
    obtain ⟨f, es₃, hfc, hes₃, rfl⟩ := List.forall₂_cons_left_iff.mp hes₂
    have heo := element_of_inline heo (by rw [ho.nesting]; nofun)
    have hfc := element_of_inline hfc (by rw [hc.nesting]; nofun)
    -- The element grows above its parent, and then the parent grows by the element.
    obtain ⟨inside, hin, hgrowni⟩ := ihinner hes₁ (openNode o) (top :: below)
    obtain ⟨top', hfold, hgrown⟩ := ihrest hes₃ (top.append inside.close) below
    have hopen : inlineStep false (top, below) o = (openNode o, top :: below) := by
      simp only [inlineStep, ho.nesting]
    have hclose : inlineStep false (inside, top :: below) c = (top.append inside.close, below) := by
      simp only [inlineStep, hc.nesting]
    refine ⟨top', ?_, ?_⟩
    · rw [List.foldl_cons, hopen, List.foldl_append, hin, List.foldl_cons, hclose, hfold]
    · have helement := (OpenNode.Grown.append top inside.close).congr (hgrowni.events_close heo ho)
      rw [closes_of_event hfc hc]
      simpa only [List.cons_append, List.append_assoc, List.nil_append] using helement.trans hgrown

/-- The nodes of a text are met as its tokens are. -/
theorem joinTexts_inlineContent {ts : List Token} (hn : Nested id ts) {es : List TreeEvent}
    (he : List.Forall₂ InlineEvent ts es) :
    TreeEvent.joinTexts (Node.eventsAll (inlineContent false ts)) = TreeEvent.joinTexts es := by
  obtain ⟨top', hfold, hgrown⟩ := grown_inlineFold hn he ⟨"inline", .root, [], false⟩ []
  simp only [inlineContent, hfold, closeAll]
  exact hgrown.events

/-! Steps over a stack that is not empty. -/

section Steps

variable {components : Bool} {done : Option OpenNode} {top : OpenNode} {below : Stack}
  {t : BlockToken}

theorem blockStep_opens (h : t.nesting = .opens) :
    blockStep components (done, top :: below) t =
      .ok (done, openNode t.toToken :: top :: below) := by
  unfold blockStep
  simp only [h]

theorem blockStep_closes {p : OpenNode} (h : t.nesting = .closes) :
    blockStep components (done, top :: p :: below) t =
      if top.detached then .ok (done, p :: below)
      else .ok (done, { p with children := top.close :: p.children } :: below) := by
  unfold blockStep
  simp only [h]

theorem blockStep_text (h : t.nesting = .stands) (htext : t.type = "inline") :
    blockStep components (done, top :: below) t =
      (textStep components (top :: below) t).map fun s => (done, s) := by
  unfold blockStep
  simp only [h, htext, if_true]

theorem blockStep_stands (h : t.nesting = .stands) (htext : t.type ≠ "inline") :
    blockStep components (done, top :: below) t =
      .ok (done, { top with
        children := (blockNodes components t.toToken).reverse ++ top.children } :: below) := by
  unfold blockStep
  simp only [h, htext, if_false]

end Steps

theorem textStep_plain (top : OpenNode) (below : Stack) (t : BlockToken) :
    textStep false (top :: below) t =
      .ok ((inlineContent false t.inlines).foldl OpenNode.append top :: below) := by
  have hflow : flowOf false top t = none := by
    unfold flowOf
    split <;> rfl
  simp only [textStep, hflow]

theorem eventsAll_blockNodes {t : BlockToken} {es : List TreeEvent} (h : BlockEvents t es)
    (ht : t.nesting = .stands) (htext : t.type ≠ "inline") :
    Node.eventsAll (blockNodes false t.toToken) = es := by
  cases h with
  | element h => exact absurd ht (not_stands h)
  | text h => exact absurd h.type htext
  | fence h => simp [blockNodes, h.type, Node.eventsAll, Node.events, language]
  | code h => simp [blockNodes, h.type, Node.eventsAll, Node.events, language]
  | rule h => simp [blockNodes, h.type, Node.eventsAll, Node.events]
  | html h => simp [blockNodes, h.type, Node.eventsAll, Node.html, Node.events, markupNodes]
  | directive h => simp [blockNodes, h.type, Node.eventsAll, Node.events, directiveNode]

theorem element_of_block {t : BlockToken} {es : List TreeEvent} (h : BlockEvents t es)
    (ht : t.nesting ≠ .stands) : ∃ e, es = [e] ∧ ElementEvent t.toToken e := by
  cases h with
  | element h => exact ⟨_, rfl, h⟩
  | text h => exact absurd h.nesting ht
  | fence h => exact absurd h.nesting ht
  | code h => exact absurd h.nesting ht
  | rule h => exact absurd h.nesting ht
  | html h => exact absurd h.nesting ht
  | directive h => exact absurd h.nesting ht

/-- A token that stands between texts, or a text, lets the innermost open parent grow by its
events. -/
theorem grown_blockStep {t : BlockToken} (ht : t.nesting = .stands) (hn : Nested id t.inlines)
    {es : List TreeEvent} (he : BlockEvents t es) (done : Option OpenNode) (top : OpenNode)
    (below : Stack) :
    ∃ top', blockStep false (done, top :: below) t = .ok (done, top' :: below) ∧
      top.Grown es top' := by
  by_cases htext : t.type = "inline"
  · have hes : List.Forall₂ InlineEvent t.inlines es := by
      cases he with
      | text _ hes => exact hes
      | element h => exact absurd ht (not_stands h)
      | fence h => exact absurd (h.type.symm.trans htext) (by decide)
      | code h => exact absurd (h.type.symm.trans htext) (by decide)
      | rule h => exact absurd (h.type.symm.trans htext) (by decide)
      | html h => exact absurd (h.type.symm.trans htext) (by decide)
      | directive h => exact absurd (h.type.symm.trans htext) (by decide)
    refine ⟨(inlineContent false t.inlines).foldl OpenNode.append top, ?_,
      (OpenNode.Grown.appendAll top _).congr (joinTexts_inlineContent hn hes)⟩
    rw [blockStep_text ht htext, textStep_plain]
    rfl
  · have hgrown := OpenNode.Grown.pushAll top (blockNodes false t.toToken)
    rw [eventsAll_blockNodes he ht htext] at hgrown
    exact ⟨_, blockStep_stands ht htext, hgrown⟩

/-- Nested tokens of a document leave the parents that were open before, and the innermost of them
has grown by their events. -/
theorem grown_blockFold {ts : List BlockToken} (hn : Nested BlockToken.toToken ts)
    (hin : ∀ t ∈ ts, Nested id t.inlines) {ess : List (List TreeEvent)}
    (he : List.Forall₂ BlockEvents ts ess) (done : Option OpenNode) (top : OpenNode)
    (below : Stack) :
    ∃ top', ts.foldlM (blockStep false) (done, top :: below) = .ok (done, top' :: below) ∧
      top.Grown ess.flatten top' := by
  induction hn generalizing ess top below with
  | nil =>
    cases he
    exact ⟨top, rfl, .refl top⟩
  | @stands t ts ht hrest ih =>
    obtain ⟨es, ess', het, hes, rfl⟩ := List.forall₂_cons_left_iff.mp he
    rw [List.forall_mem_cons] at hin
    obtain ⟨first, hstep, hfirst⟩ := grown_blockStep ht hin.1 het done top below
    obtain ⟨top', hfold, hgrown⟩ := ih hin.2 hes first below
    refine ⟨top', ?_, hfirst.trans hgrown⟩
    rw [List.foldlM_cons, hstep]
    exact hfold
  | @element name o c inner ts ho hinner hc hrest ihinner ihrest =>
    obtain ⟨es, ess', heo, hes, rfl⟩ := List.forall₂_cons_left_iff.mp he
    obtain ⟨ess₁, ess₂, rfl, hes₁, hes₂⟩ := forall₂_append_left hes
    obtain ⟨fs, ess₃, hfc, hes₃, rfl⟩ := List.forall₂_cons_left_iff.mp hes₂
    rw [List.forall_mem_cons, List.forall_mem_append, List.forall_mem_cons] at hin
    obtain ⟨e, rfl, heo'⟩ := element_of_block heo (by rw [ho.nesting]; nofun)
    obtain ⟨f, rfl, hfc'⟩ := element_of_block hfc (by rw [hc.nesting]; nofun)
    obtain ⟨inside, hfoldi, hgrowni⟩ := ihinner hin.2.1 hes₁ (openNode o.toToken) (top :: below)
    obtain ⟨top', hfold, hgrown⟩ :=
      ihrest hin.2.2.2 hes₃ { top with children := inside.close :: top.children } below
    have hattached : inside.detached = false := by
      rw [hgrowni.detached, detached_openNode]
    have hclose : blockStep false (done, inside :: top :: below) c =
        .ok (done, { top with children := inside.close :: top.children } :: below) := by
      rw [blockStep_closes hc.nesting, if_neg (by rw [hattached]; nofun)]
    refine ⟨top', ?_, ?_⟩
    · rw [List.foldlM_cons, blockStep_opens ho.nesting]
      simp only [ok_bind, List.foldlM_append, hfoldi, List.foldlM_cons, hclose, hfold]
    · have helement := (OpenNode.Grown.push top inside.close).congr (hgrowni.events_close heo' ho)
      rw [closes_of_event hfc' hc]
      simpa only [List.flatten_cons, List.flatten_append, List.cons_append, List.append_assoc,
        List.nil_append] using helement.trans hgrown

/-! ## Folds that end -/

/-- What the parents of a stack are, whatever they hold. -/
def Stack.parents (stack : Stack) : List (String × Container) :=
  stack.map fun o => (o.type, o.body)

theorem parents_textStep (components : Bool) (top : OpenNode) (below : Stack) (t : BlockToken) :
    ∃ stack, textStep components (top :: below) t = .ok stack ∧
      Stack.parents stack = Stack.parents (top :: below) := by
  have hplain : Stack.parents
      ((inlineContent components t.inlines).foldl OpenNode.append top :: below) =
        Stack.parents (top :: below) := by
    have hgrown := OpenNode.Grown.appendAll top (inlineContent components t.inlines)
    simp only [Stack.parents, List.map_cons, hgrown.type, hgrown.body]
  simp only [textStep]
  split
  · exact ⟨_, rfl, rfl⟩
  · exact ⟨_, rfl, hplain⟩

theorem parents_blockStep (components : Bool) {t : BlockToken} (ht : t.nesting = .stands)
    (done : Option OpenNode) (top : OpenNode) (below : Stack) :
    ∃ stack, blockStep components (done, top :: below) t = .ok (done, stack) ∧
      Stack.parents stack = Stack.parents (top :: below) := by
  by_cases htext : t.type = "inline"
  · obtain ⟨stack, hstep, hparents⟩ := parents_textStep components top below t
    exact ⟨stack, by rw [blockStep_text ht htext, hstep]; rfl, hparents⟩
  · exact ⟨_, blockStep_stands ht htext, rfl⟩

/-- Nested tokens can be folded, and they close what they open. -/
theorem parents_blockFold (components : Bool) {ts : List BlockToken}
    (hn : Nested BlockToken.toToken ts) (done : Option OpenNode) (top : OpenNode) (below : Stack) :
    ∃ stack, ts.foldlM (blockStep components) (done, top :: below) = .ok (done, stack) ∧
      Stack.parents stack = Stack.parents (top :: below) := by
  induction hn generalizing top below with
  | nil => exact ⟨_, rfl, rfl⟩
  | @stands t ts ht hrest ih =>
    obtain ⟨stack, hstep, hparents⟩ := parents_blockStep components ht done top below
    cases stack with
    | nil => cases hparents
    | cons top' below' =>
      obtain ⟨stack, hfold, hrow⟩ := ih top' below'
      refine ⟨stack, ?_, hrow.trans hparents⟩
      rw [List.foldlM_cons, hstep]
      exact hfold
  | @element name o c inner ts ho hinner hc hrest ihinner ihrest =>
    obtain ⟨stack, hfoldi, hparents⟩ := ihinner (openNode o.toToken) (top :: below)
    obtain _ | ⟨inside, _ | ⟨p, rest⟩⟩ := stack
    · cases hparents
    · cases (List.cons.inj hparents).2
    · obtain ⟨p', hclose, hp'⟩ : ∃ p' : OpenNode,
          blockStep components (done, inside :: p :: rest) c = .ok (done, p' :: rest) ∧
            Stack.parents (p' :: rest) = Stack.parents (p :: rest) := by
        rw [blockStep_closes hc.nesting]
        split <;> exact ⟨_, rfl, rfl⟩
      obtain ⟨stack, hfold, hrow⟩ := ihrest p' rest
      refine ⟨stack, ?_, ?_⟩
      · rw [List.foldlM_cons, blockStep_opens ho.nesting]
        simp only [ok_bind, List.foldlM_append, hfoldi, List.foldlM_cons, hclose, hfold]
      · exact (hrow.trans hp').trans (List.cons.inj hparents).2

theorem treeOfTokens_of_fold {components : Bool} {ts : List BlockToken} {root : OpenNode}
    (h : ts.foldlM (blockStep components) (none, [⟨"root", .root, [], false⟩]) =
      .ok (none, [root])) : treeOfTokens components ts = .ok root.close := by
  simp only [treeOfTokens, h, ok_bind, closeAll]
  rfl

/-! ## Trees of nested tokens -/

/-- Nested tokens make a tree without texts side by side. In a document without components it is
met as its tokens are: nothing is lost, added or moved, and only runs of texts become one. -/
theorem nested_tokens_are_kept {ts : List BlockToken} (hn : NestedDocument ts) :
    (∀ components, ∃ cs, treeOfTokens components ts = .ok (Node.root cs) ∧
      (Node.root cs).Throughout Node.TextsApart) ∧
    ∀ ess, List.Forall₂ BlockEvents ts ess →
      ∃ cs, treeOfTokens false ts = .ok (Node.root cs) ∧
        Node.eventsAll cs = TreeEvent.joinTexts ess.flatten := by
  constructor
  · intro components
    obtain ⟨stack, hfold, hparents⟩ :=
      parents_blockFold components hn.blocks none ⟨"root", .root, [], false⟩ []
    obtain ⟨root, rfl, hroot⟩ := List.map_eq_singleton_iff.mp hparents
    have htree : treeOfTokens components ts = .ok (Node.root root.children.reverse) := by
      obtain ⟨htype, hbody⟩ := Prod.mk.inj hroot
      rw [treeOfTokens_of_fold hfold, OpenNode.close, htype, hbody]
      rfl
    exact ⟨_, htree, (apart_invariant.treeOfTokens htree).2⟩
  · intro ess he
    obtain ⟨root, hfold, hgrown⟩ :=
      grown_blockFold hn.blocks hn.inlines he none ⟨"root", .root, [], false⟩ []
    have htree : treeOfTokens false ts = .ok (Node.root root.children.reverse) := by
      rw [treeOfTokens_of_fold hfold, OpenNode.close, hgrown.type, hgrown.body]
      rfl
    -- The events of the tree are the tokens' but for runs of texts, and it has no such runs.
    have hapart := (apart_invariant.treeOfTokens htree).2
    have hrow := Node.apart_eventsAll root.children.reverse hapart.1 hapart.2
    exact ⟨_, htree, (TreeEvent.joinTexts_of_apart hrow).symm.trans hgrown.events⟩

/-- Two texts, a picture in a strong text, and a text. -/
def sampleText : List Token :=
  [{ type := "text", content := "a" }, { type := "softbreak", tag := "br" },
    { type := "strong_open", nesting := .opens, tag := "strong" },
    { type := "image", tag := "img", content := "A", attrs := [("src", .str "a.png")] },
    { type := "strong_close", nesting := .closes, tag := "strong" },
    { type := "text_special", content := "*" }]

/-- A quote of a paragraph and a rule. -/
def sampleNested : List BlockToken :=
  [{ type := "blockquote_open", nesting := .opens, tag := "blockquote" },
    { type := "paragraph_open", nesting := .opens, tag := "p" },
    { type := "inline", inlines := sampleText },
    { type := "paragraph_close", nesting := .closes, tag := "p" },
    { type := "hr", tag := "hr" },
    { type := "blockquote_close", nesting := .closes, tag := "blockquote" }]

def sampleTextEvents : List TreeEvent :=
  [.text "a", .text "\n", .opens "strong" "strong" [] false,
    .leaf "image" (.image "a.png" "A" none), .closes "strong", .text "*"]

def sampleNestedEvents : List (List TreeEvent) :=
  [[.opens "blockquote" "blockquote" [] false], [.opens "paragraph" "p" [] false],
    sampleTextEvents, [.closes "paragraph"],
    [.leaf "thematicBreak" (.literal "hr" "" none)], [.closes "blockquote"]]

theorem nested_sampleText : Nested id sampleText :=
  .stands rfl <| .stands rfl <|
    @Nested.element _ _ "strong" _ _ [_] _ ⟨rfl, rfl⟩ (.stands rfl .nil) ⟨rfl, rfl⟩
      (.stands rfl .nil)

theorem nestedDocument_sample : NestedDocument sampleNested where
  blocks :=
    @Nested.element _ _ "blockquote" _ _ [_, _, _, _] _ ⟨rfl, rfl⟩
      (@Nested.element _ _ "paragraph" _ _ [_] _ ⟨rfl, rfl⟩ (.stands rfl .nil) ⟨rfl, rfl⟩
        (.stands rfl .nil)) ⟨rfl, rfl⟩ .nil
  inlines := by
    simp only [sampleNested, List.forall_mem_cons]
    exact ⟨.nil, .nil, nested_sampleText, .nil, .nil, .nil, nofun⟩

theorem events_sampleText : List.Forall₂ InlineEvent sampleText sampleTextEvents :=
  .cons (.text ⟨rfl, rfl⟩) <| .cons (.softbreak ⟨rfl, rfl⟩) <|
    .cons (.element (@ElementEvent.opens _ "strong" _ ⟨rfl, rfl⟩ (by decide) (by decide))) <|
    .cons (.image ⟨rfl, rfl⟩ rfl rfl nofun) <|
    .cons (.element (@ElementEvent.closes _ "strong" _ ⟨rfl, rfl⟩ (by decide))) <|
    .cons (.special ⟨rfl, rfl⟩) .nil

theorem events_sampleNested : List.Forall₂ BlockEvents sampleNested sampleNestedEvents :=
  .cons (.element (@ElementEvent.opens _ "blockquote" _ ⟨rfl, rfl⟩ (by decide) (by decide))) <|
    .cons (.element (.paragraph ⟨rfl, rfl⟩ rfl rfl)) <|
    .cons (.text ⟨rfl, rfl⟩ events_sampleText) <|
    .cons (.element (@ElementEvent.closes _ "paragraph" _ ⟨rfl, rfl⟩ (by decide))) <|
    .cons (.rule ⟨rfl, rfl⟩) <|
    .cons (.element (@ElementEvent.closes _ "blockquote" _ ⟨rfl, rfl⟩ (by decide))) .nil

theorem nested_sample_is_kept :
    NestedDocument sampleNested ∧ List.Forall₂ BlockEvents sampleNested sampleNestedEvents ∧
    ∃ cs, treeOfTokens false sampleNested = .ok (Node.root cs) ∧
      Node.eventsAll cs =
        [.opens "blockquote" "blockquote" [] false, .opens "paragraph" "p" [] false,
          .text "a\n", .opens "strong" "strong" [] false,
          .leaf "image" (.image "a.png" "A" none), .closes "strong", .text "*",
          .closes "paragraph", .leaf "thematicBreak" (.literal "hr" "" none),
          .closes "blockquote"] :=
  ⟨nestedDocument_sample, events_sampleNested,
    (nested_tokens_are_kept nestedDocument_sample).2 sampleNestedEvents events_sampleNested⟩

end Document

end DocumentMedia
