import DocumentMedia.Proofs.Document.Expansion
import DocumentMedia.Proofs.Text.Escape
import DocumentMedia.Proofs.Tree.Markup

/-! # Reading a rendered tree

The outline of a tree is its sequence of tags and characters in document order, with the line ends
that rendering adds. A rendered tree without markup of its own is read back as its outline, whatever
its texts and values hold, and its tags close in the order in which they open. -/
namespace DocumentMedia.Markup

open DocumentMedia.Text

/-! ## Outlines -/

inductive Event where
  | start (tag : String) (attrs : Attributes)
  /-- A tag that is never closed. -/
  | void (tag : String) (attrs : Attributes)
  | close (tag : String)
  | char (c : Char)
  /-- A line end that is not in the tree. -/
  | lineEnd
  deriving DecidableEq, Repr

/-- An event as it is read: void tags and added line ends do not show as such. -/
def Event.token : Event → Token
  | .start tag attrs => .start tag attrs
  | .void tag attrs => .start tag attrs
  | .close tag => .close tag
  | .char c => .char c
  | .lineEnd => .char '\n'

def charEvents (s : String) : List Event := s.toList.map .char

def element (tag : String) (attrs : Attributes) (inner : List Event) : List Event :=
  .start tag attrs :: inner ++ [.close tag]

/-- An attribute with its value as a text: true is a flag, false and nothing are left out. -/
def shown? : String × Value → Option (String × Option String)
  | (_, .null) => none
  | (_, .bool false) => none
  | (name, .bool true) => some (name, none)
  | (name, v) => some (name, some v.display)

def shownAttributes (attrs : Fields) : Attributes := attrs.filterMap shown?

def languageClass (lang : Option String) : Attributes :=
  match lang with
  | some l => if l.isEmpty then [] else [("class", some ("language-" ++ l))]
  | none => []

def literalOutline (type tag value : String) (lang : Option String) : List Event :=
  if type = "code" then
    element "pre" [] (element "code" (languageClass lang) (charEvents value)) ++ [.lineEnd]
  else if type = "inlineCode" then element "code" [] (charEvents value)
  else if tag.isEmpty then charEvents value
  else [.void tag [], .lineEnd]

def directiveTag (type : String) : String := if type = "leafDirective" then "div" else "span"

def leafOutline (type : String) (data : Fields) : Leaf → List Event
  | .text value => charEvents value
  | .literal tag value lang => literalOutline type tag value lang
  | .image url alt title => [.void "img" (shownAttributes (imageAttrs data url alt title))]
  | .directive name label _ =>
    element (directiveTag type) [("data-directive", some name)] (charEvents (label.getD ""))
  | .html _ => []
  | .bare => []

def elementOutline (tag : String) (attrs : Fields) (hidden : Bool) (inner : List Event) :
    List Event :=
  if hidden || tag.isEmpty then inner
  else element tag (shownAttributes attrs) inner ++ if blockTags.contains tag then [.lineEnd] else []

mutual

/-- The tags and characters of a tree that holds no markup and no component. -/
def outline : Node → List Event
  | .leaf type data body => leafOutline type data body
  | .parent _ _ body children =>
    match body with
    | .root => outlineAll children
    | .paragraph hidden => elementOutline "p" [] hidden (outlineAll children)
    | .element tag attrs hidden => elementOutline tag attrs hidden (outlineAll children)
    | .component .. => []

def outlineAll : List Node → List Event
  | [] => []
  | n :: ns => outline n ++ outlineAll ns

end

/-- Every tag that closes is the last one still open, and all are closed in the end. -/
def closes : List String → List Event → Bool
  | stack, [] => stack.isEmpty
  | stack, .start tag _ :: es => closes (tag :: stack) es
  | [], .close _ :: _ => false
  | top :: stack, .close tag :: es => top == tag && closes stack es
  | stack, .void .. :: es => closes stack es
  | stack, .char _ :: es => closes stack es
  | stack, .lineEnd :: es => closes stack es

/-! ## Trees with plain names -/

/-- A text that is a name. -/
def NamedKey (k : Value) : Prop := ∃ name, k = .str name ∧ IsName name

/-- The properties of an image, if it has any, are a map with names as keys. -/
def NamedProps (data : Fields) : Prop :=
  ((Assoc.find? data "hProperties").getD .null).isFalsy = true ∨
    ∃ es, Assoc.find? data "hProperties" = some (.map es) ∧
      ∀ e ∈ es, NamedKey e.1

/-- A node without markup of its own whose tag and attributes have plain names. -/
def PlainNames : Node → Prop
  | .leaf _ _ (.html _) => False
  | .leaf _ _ (.literal tag ..) => ∀ c ∈ tag.toList, isNameChar c = true
  | .leaf _ data (.image ..) => NamedProps data
  | .leaf .. => True
  | .parent _ _ (.component ..) _ => False
  | .parent _ _ (.element tag attrs _) _ =>
    (∀ c ∈ tag.toList, isNameChar c = true) ∧ ∀ a ∈ attrs, IsName a.1
  | .parent .. => True

/-! ## Pieces of a rendered tree -/

/-- A text is read as the tokens of some events. -/
def Shows (s : String) (es : List Event) : Prop := Reads .text s.toList (es.map Event.token) .text

instance (s : String) (es : List Event) : Decidable (Shows s es) :=
  inferInstanceAs (Decidable (Reads ..))

theorem Shows.append {a b : String} {es fs : List Event} (h : Shows a es) (k : Shows b fs) :
    Shows (a ++ b) (es ++ fs) := by
  unfold Shows at *
  rw [String.toList_append, List.map_append]
  exact Reads.append h k

theorem shows_escapeText (s : String) : Shows (escapeText s) (charEvents s) := by
  have h := reads_escapeText s
  unfold Shows charEvents
  rw [List.map_map]
  exact h

theorem shows_lineEnd : Shows "\n" [.lineEnd] := rfl

theorem toList_attrsText (attrs : Fields) :
    (attrsText attrs).toList = [' '].intercalate ((shownAttributes attrs).map attributeText) := by
  have hpieces : (attrs.filterMap attrText?).map String.toList =
      (shownAttributes attrs).map attributeText := by
    unfold shownAttributes
    rw [List.map_filterMap, List.map_filterMap]
    congr 1
    funext ⟨name, v⟩
    cases v with
    | null => rfl
    | bool b => cases b <;> rfl
    | _ => simp [attrText?, shown?, attributeText]
  rw [attrsText, String.toList_intercalate, hpieces]
  rfl

theorem isName_shown {attrs : Fields} (h : ∀ a ∈ attrs, IsName a.1) :
    ∀ a ∈ shownAttributes attrs, IsName a.1 := by
  intro a ha
  obtain ⟨⟨name, v⟩, hmem, hshown⟩ := List.mem_filterMap.mp ha
  have hname : a.1 = name := by
    cases v with
    | null => cases hshown
    | bool b => cases b <;> cases hshown; rfl
    | _ => cases hshown; rfl
  rw [hname]
  exact h _ hmem

theorem toList_openTag (tag : String) {attrs : Fields} (h : ∀ a ∈ attrs, IsName a.1) :
    (openTag tag attrs).toList =
      '<' :: tag.toList ++ (shownAttributes attrs).flatMap (fun a => ' ' :: attributeText a) ++
        ['>'] := by
  have hrendered := toList_attrsText attrs
  have hnames := isName_shown h
  unfold openTag
  cases hs : shownAttributes attrs with
  | nil =>
    rw [hs] at hrendered
    have hempty : attrsText attrs = "" := String.toList_eq_nil_iff.mp hrendered
    simp [hempty]
  | cons a as =>
    rw [hs] at hrendered hnames
    rw [List.map_cons, intercalate_cons, List.flatMap_map] at hrendered
    have hname := (hnames a List.mem_cons_self).nonempty
    have hne : (attrsText attrs).isEmpty = false := by
      rw [← Bool.not_eq_true, String.isEmpty_iff, ← String.toList_eq_nil_iff, hrendered]
      unfold attributeText
      split <;> simp [hname]
    simp [hne, hrendered]

theorem shows_openTag {tag : String} (htag : IsName tag) {attrs : Fields}
    (h : ∀ a ∈ attrs, IsName a.1) : Shows (openTag tag attrs) [.start tag (shownAttributes attrs)] := by
  unfold Shows
  rw [toList_openTag tag h]
  exact reads_start htag (isName_shown h)

theorem shows_close {tag : String} (htag : IsName tag) : Shows ("</" ++ tag ++ ">") [.close tag] := by
  have h := reads_close htag
  unfold Shows
  simpa [Event.token] using h

/-! ## Nodes -/

theorem shows_elementText {tag : String} (htag : ∀ c ∈ tag.toList, isNameChar c = true)
    {attrs : Fields} (hattrs : ∀ a ∈ attrs, IsName a.1) (hidden : Bool) {inner : String}
    {es : List Event} (h : Shows inner es) :
    Shows (elementText tag attrs hidden inner) (elementOutline tag attrs hidden es) := by
  unfold elementText elementOutline
  split
  · exact h
  · next hshown =>
    have hname : IsName tag := by
      refine ⟨?_, htag⟩
      intro hnil
      rw [String.toList_eq_nil_iff] at hnil
      simp [hnil] at hshown
    have helement := ((shows_openTag hname hattrs).append h).append (shows_close hname)
    rw [← String.append_assoc, ← String.append_assoc] at helement
    dsimp only
    split
    · exact helement.append shows_lineEnd
    · rw [List.append_nil]
      exact helement

theorem map_token_charEvents (s : String) :
    (charEvents s).map Event.token = s.toList.map .char := by
  unfold charEvents
  rw [List.map_map]
  rfl

theorem toList_code (tag value : String) (lang : Option String) :
    (literalText "code" tag value lang).toList =
      "<pre><code".toList ++
        ((languageClass lang).flatMap (fun a => ' ' :: attributeText a) ++ ['>']) ++
        (escapeText value).toList ++ "</code></pre>\n".toList := by
  have hprefix : escapeValue "language-" = "language-" := by decide
  cases lang with
  | none => simp [literalText, languageClass]
  | some l =>
    by_cases hl : l = ""
    · simp [literalText, languageClass, hl]
    · simp [literalText, languageClass, hl, attributeText, escapeValue_append, hprefix]

theorem isName_languageClass (lang : Option String) : ∀ a ∈ languageClass lang, IsName a.1 := by
  have hclass : IsName "class" := by decide
  intro a ha
  unfold languageClass at ha
  split at ha
  · split at ha
    · cases ha
    · rw [List.mem_singleton.mp ha]
      exact hclass
  · cases ha

theorem shows_code (tag value : String) (lang : Option String) :
    Shows (literalText "code" tag value lang)
      (element "pre" [] (element "code" (languageClass lang) (charEvents value)) ++ [.lineEnd]) := by
  have hopen : Reads .text "<pre><code".toList [.start "pre" []] (.startTag "code".toList) := by
    decide +kernel
  have hattrs := reads_attributes (isName_languageClass lang) (behind_startTag "code")
  have hclose : Reads .text "</code></pre>\n".toList [.close "code", .close "pre", .char '\n']
      .text := by
    decide +kernel
  have hall := ((hopen.append hattrs).append (reads_escapeText value)).append hclose
  unfold Shows
  rw [toList_code]
  simpa [element, Event.token, map_token_charEvents] using hall

theorem shows_literalText (type : String) {tag : String}
    (htag : ∀ c ∈ tag.toList, isNameChar c = true) (value : String) (lang : Option String) :
    Shows (literalText type tag value lang) (literalOutline type tag value lang) := by
  by_cases hcode : type = "code"
  · subst hcode
    exact shows_code tag value lang
  unfold literalText literalOutline
  rw [if_neg hcode, if_neg hcode]
  split
  · have hopen : Shows "<code>" [.start "code" []] := by decide +kernel
    have hclose : Shows "</code>" [.close "code"] := by decide +kernel
    have helement := (hopen.append (shows_escapeText value)).append hclose
    exact helement
  split
  · exact shows_escapeText value
  · next hempty =>
    have hname : IsName tag := by
      refine ⟨?_, htag⟩
      intro hnil
      rw [String.toList_eq_nil_iff] at hnil
      simp [hnil] at hempty
    have hnone : ∀ a ∈ ([] : Attributes), IsName a.1 := List.forall_mem_nil _
    have hall := (reads_start hname hnone).append shows_lineEnd
    unfold Shows
    simpa [Event.token] using hall

theorem shows_directiveText (type name : String) (label : Option String) :
    Shows (directiveText type name label) (element (directiveTag type)
      [("data-directive", some name)] (charEvents (label.getD ""))) := by
  have htag : IsName (directiveTag type) := by
    unfold directiveTag
    split <;> decide
  have hattr : IsName "data-directive" := by decide
  have hopen := reads_start htag (List.forall_mem_singleton.mpr hattr :
    ∀ a ∈ [("data-directive", some name)], IsName a.1)
  have hclose := reads_close htag
  have hall := (hopen.append (reads_escapeText (label.getD ""))).append hclose
  unfold Shows
  simpa [directiveText, element, Event.token, map_token_charEvents, attributeText, directiveTag]
    using hall

theorem namedKey_shownProps {data : Fields} (h : NamedProps data) :
    ∀ e ∈ shownProps data, NamedKey e.1 := by
  unfold shownProps
  rcases h with h | ⟨es, hes, hnames⟩
  · split
    · next es hes =>
      rw [hes] at h
      obtain rfl : es = [] := List.isEmpty_iff.mp h
      nofun
    · nofun
  · rw [hes]
    exact hnames

theorem namedKey_putShown {props es : List (Value × Value)} (hprops : ∀ e ∈ props, NamedKey e.1)
    (hes : ∀ e ∈ es, NamedKey e.1) :
    ∀ e ∈ props.foldl (fun es (k, v) => Value.putEntry es k (shownValue k v)) es,
      NamedKey e.1 := by
  induction props generalizing es with
  | nil => exact hes
  | cons p props ih =>
    rw [List.forall_mem_cons] at hprops
    have hput : ∀ e ∈ Value.putEntry es p.1 (shownValue p.1 p.2), NamedKey e.1 :=
      Value.forall_keys_putEntry hes hprops.1
    rw [List.foldl_cons]
    exact ih hprops.2 hput

theorem namedKey_imageEntries {data : Fields} (h : NamedProps data) (url alt : String)
    (title : Option String) : ∀ e ∈ imageEntries data url alt title, NamedKey e.1 := by
  have hsrc : NamedKey (.str "src") := ⟨_, rfl, by decide⟩
  have halt : NamedKey (.str "alt") := ⟨_, rfl, by decide⟩
  have htitle : NamedKey (.str "title") := ⟨_, rfl, by decide⟩
  unfold imageEntries
  refine namedKey_putShown (namedKey_shownProps h) ?_
  intro e he
  rcases List.mem_append.mp he with he | he
  · simp only [List.mem_cons, List.not_mem_nil, or_false] at he
    rcases he with rfl | rfl
    · exact hsrc
    · exact halt
  · split at he
    · split at he
      · cases he
      · rw [List.mem_singleton.mp he]
        exact htitle
    · cases he

theorem isName_imageAttrs {data : Fields} (h : NamedProps data) (url alt : String)
    (title : Option String) : ∀ a ∈ imageAttrs data url alt title, IsName a.1 := by
  intro a ha
  obtain ⟨⟨k, v⟩, he, rfl⟩ := List.mem_map.mp ha
  obtain ⟨name, hkey, hname⟩ := namedKey_imageEntries h url alt title _ he
  obtain rfl : k = .str name := hkey
  exact hname

theorem shows_leafText (type : String) (data : Fields) (body : Leaf)
    (h : PlainNames (.leaf type data body)) :
    Shows (leafText type data body) (leafOutline type data body) := by
  cases body with
  | text value => exact shows_escapeText value
  | html value => exact h.elim
  | literal tag value lang => exact shows_literalText type h value lang
  | image url alt title =>
    exact shows_openTag (by decide) (isName_imageAttrs h url alt title)
  | directive name label attributes => exact shows_directiveText type name label
  | bare => exact Reads.nil _

mutual

theorem shows_render : ∀ n : Node, n.Throughout PlainNames → Shows n.render (outline n)
  | .leaf type data body, h => shows_leafText type data body h
  | .parent _ _ body children, h => by
    have hinner := shows_renderAll children h.2
    cases body with
    | root => exact hinner
    | paragraph hidden =>
      have hname : IsName "p" := by decide
      have hnone : ∀ a ∈ ([] : Fields), IsName a.1 := List.forall_mem_nil _
      exact shows_elementText hname.chars hnone hidden hinner
    | element tag attrs hidden => exact shows_elementText h.1.1 h.1.2 hidden hinner
    | component name props => exact h.1.elim

theorem shows_renderAll :
    ∀ ns : List Node, Node.ThroughoutAll PlainNames ns → Shows (Node.renderAll ns) (outlineAll ns)
  | [], _ => Reads.nil _
  | n :: ns, h => (shows_render n h.1).append (shows_renderAll ns h.2)

end

/-! ## Nesting -/

/-- Events that leave open tags as they are. -/
def Neutral (es : List Event) : Prop :=
  ∀ stack rest, closes stack (es ++ rest) = closes stack rest

theorem Neutral.append {es fs : List Event} (h : Neutral es) (k : Neutral fs) :
    Neutral (es ++ fs) := by
  intro stack rest
  rw [List.append_assoc, h, k]

theorem neutral_charEvents (s : String) : Neutral (charEvents s) := by
  intro stack rest
  unfold charEvents
  induction s.toList with
  | nil => rfl
  | cons c cs ih =>
    rw [List.map_cons, List.cons_append, closes]
    exact ih

theorem neutral_lineEnd : Neutral [.lineEnd] := by
  intro stack rest
  rw [List.singleton_append, closes]

theorem neutral_void (tag : String) (attrs : Attributes) : Neutral [.void tag attrs] := by
  intro stack rest
  rw [List.singleton_append, closes]

theorem Neutral.element {inner : List Event} (h : Neutral inner) (tag : String)
    (attrs : Attributes) : Neutral (element tag attrs inner) := by
  intro stack rest
  simp only [Markup.element, List.cons_append, List.append_assoc, closes, List.nil_append]
  rw [h]
  simp only [closes, beq_self_eq_true, Bool.true_and]

theorem neutral_elementOutline {inner : List Event} (h : Neutral inner) (tag : String)
    (attrs : Fields) (hidden : Bool) : Neutral (elementOutline tag attrs hidden inner) := by
  unfold elementOutline
  split
  · exact h
  · split
    · exact (h.element tag _).append neutral_lineEnd
    · rw [List.append_nil]
      exact h.element tag _

theorem neutral_leafOutline (type : String) (data : Fields) (body : Leaf) :
    Neutral (leafOutline type data body) := by
  cases body with
  | text value => exact neutral_charEvents value
  | html value => exact fun _ _ => rfl
  | literal tag value lang =>
    change Neutral (literalOutline type tag value lang)
    unfold literalOutline
    split
    · exact (((neutral_charEvents value).element _ _).element _ _).append neutral_lineEnd
    · split
      · exact (neutral_charEvents value).element _ _
      · split
        · exact neutral_charEvents value
        · exact (neutral_void tag []).append neutral_lineEnd
  | image url alt title => exact neutral_void _ _
  | directive name label attributes => exact (neutral_charEvents _).element _ _
  | bare => exact fun _ _ => rfl

mutual

theorem neutral_outline : ∀ n : Node, Neutral (outline n)
  | .leaf type data body => neutral_leafOutline type data body
  | .parent _ _ body children => by
    have hinner := neutral_outlineAll children
    cases body with
    | root => exact hinner
    | paragraph hidden => exact neutral_elementOutline hinner "p" [] hidden
    | element tag attrs hidden => exact neutral_elementOutline hinner tag attrs hidden
    | component name props => exact fun _ _ => rfl

theorem neutral_outlineAll : ∀ ns : List Node, Neutral (outlineAll ns)
  | [] => fun _ _ => rfl
  | n :: ns => (neutral_outline n).append (neutral_outlineAll ns)

end

/-! ## Faults -/

theorem imageRenderFault?_eq_none {data : Fields} (h : NamedProps data) (url alt : String)
    (title : Option String) : imageRenderFault? data url alt title = none := by
  have hnames := namedKey_imageEntries h url alt title
  have hflags : (imageEntries data url alt title).any isUnnamedFlag = false := by
    rw [List.any_eq_false]
    intro e he
    obtain ⟨name, hkey, -⟩ := hnames e he
    obtain ⟨k, v⟩ := e
    obtain rfl : k = .str name := hkey
    exact Bool.false_ne_true
  unfold imageRenderFault?
  dsimp only
  rcases h with h | ⟨es, hes, -⟩
  · rw [if_pos h]
  · rw [hes, Option.getD_some]
    split
    · rfl
    · rw [hflags]
      rfl

mutual

theorem renderFault?_eq_none : ∀ n : Node, n.Throughout PlainNames → n.renderFault? = none
  | .leaf type data body, h => by
    cases body with
    | image url alt title => exact imageRenderFault?_eq_none h url alt title
    | _ => rfl
  | .parent _ _ _ children, h => firstRenderFault?_eq_none children h.2

theorem firstRenderFault?_eq_none :
    ∀ ns : List Node, Node.ThroughoutAll PlainNames ns → Node.firstRenderFault? ns = none
  | [], _ => rfl
  | n :: ns, h => by
    rw [Node.firstRenderFault?, renderFault?_eq_none n h.1, firstRenderFault?_eq_none ns h.2,
      Option.none_or]

end

/-! ## Main statement -/

/-- A rendered tree is read back as its own tags and characters, and its tags are nested. -/
theorem read_renderTree (tree : Node) (h : tree.Throughout PlainNames) :
    renderFault? tree = none ∧
      read (renderTree tree) = some ((outlineAll tree.children).map Event.token) ∧
      closes [] (outlineAll tree.children) := by
  have hchildren : Node.ThroughoutAll PlainNames tree.children := by
    cases tree with
    | leaf => trivial
    | parent => exact h.2
  refine ⟨firstRenderFault?_eq_none _ hchildren, (shows_renderAll _ hchildren).read, ?_⟩
  have hneutral := neutral_outlineAll tree.children [] []
  rw [List.append_nil] at hneutral
  rw [hneutral]
  rfl

/-- Tags in contents, quotes in values. -/
def sampleMarkup : Node :=
  Node.root
    [.parent "paragraph" [] (.paragraph false)
      [Node.text "a<b>&",
        .leaf "image" [("hProperties", .map [(.str "loading", .str "\"")])]
          (.image "i.png" "" (some "'>"))],
      .leaf "break" [] (.literal "br" "" none),
      .parent "link" [] (.element "a" [("href", .str "\"><i"), ("hidden", .bool true)] false)
        [.leaf "code" [] (.literal "" "</" (some "\""))],
      .leaf "textDirective" [] (.directive "&" (some "<") [])]

theorem read_sampleMarkup :
    sampleMarkup.Throughout PlainNames ∧ renderFault? sampleMarkup = none ∧
      read (renderTree sampleMarkup) = some
        [.start "p" [], .char 'a', .char '<', .char 'b', .char '>', .char '&',
          .start "img" [("src", some "i.png"), ("alt", some ""), ("title", some "'>"),
            ("loading", some "\"")],
          .close "p", .char '\n', .start "br" [], .char '\n',
          .start "a" [("href", some "\"><i"), ("hidden", none)],
          .start "pre" [], .start "code" [("class", some "language-\"")], .char '<', .char '/',
          .close "code", .close "pre", .char '\n', .close "a",
          .start "span" [("data-directive", some "&")], .char '<', .close "span"] := by
  have hloading : NamedProps [("hProperties", .map [(.str "loading", .str "\"")])] := by
    refine Or.inr ⟨_, rfl, ?_⟩
    exact List.forall_mem_singleton.mpr ⟨"loading", rfl, by decide⟩
  have hbreak : IsName "br" := by decide
  have hlink : IsName "a" := by decide
  have hattrs : ∀ a ∈ [("href", Value.str "\"><i"), ("hidden", .bool true)], IsName a.1 := by
    decide
  have hcode : ∀ c ∈ "".toList, isNameChar c = true := nofun
  have hplain : sampleMarkup.Throughout PlainNames := by
    simp only [sampleMarkup, Node.root, Node.text, Node.Throughout, Node.ThroughoutAll]
    exact ⟨trivial, ⟨trivial, trivial, hloading, trivial⟩, hbreak.chars,
      ⟨⟨hlink.chars, hattrs⟩, hcode, trivial⟩,
      trivial, trivial⟩
  have h := read_renderTree sampleMarkup hplain
  refine ⟨hplain, h.1, ?_⟩
  rw [h.2.1]
  rfl

end DocumentMedia.Markup
