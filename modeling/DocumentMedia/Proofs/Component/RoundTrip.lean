import DocumentMedia.Proofs.Component.Written
import DocumentMedia.Proofs.Text.Escape
import DocumentMedia.Tree.Render

/-! # Components that are read again

What the reader of components accepts is rendered as a component again. Its name, its attributes
and their order, flags and expressions come back as they are. Quoted values and the content come
back escaped, since they are read as they stand and escaped on the way out. -/
namespace DocumentMedia.Component

open DocumentMedia.Text

/-! ## Escaped components -/

def escapedProperty (p : Property) : Property :=
  match p.value with
  | some (.text s) => ⟨p.name, some (.text (escapeValue s))⟩
  | _ => p

def escapedContent : Node → Node
  | .leaf type data (.text s) => .leaf type data (.text (escapeText s))
  | n => n

/-- A component with its quoted values and its text escaped. -/
def escaped : Node → Node
  | .parent type data (.component name props) children =>
    .parent type data (.component name (props.map escapedProperty)) (children.map escapedContent)
  | n => n

/-- The quoted value has no character that is written as an entity. -/
def PlainProperty (p : Property) : Prop :=
  ∀ s, p.value = some (.text s) → ∀ c ∈ s.toList, isValueSpecial c = false

def PlainContent : Node → Prop
  | .leaf _ _ (.text s) => ∀ c ∈ s.toList, isTextSpecial c = false
  | _ => True

/-- No quoted value and no text of a component has a character that is written as an entity. -/
def PlainComponent : Node → Prop
  | .parent _ _ (.component _ props) children =>
    (∀ p ∈ props, PlainProperty p) ∧ ∀ n ∈ children, PlainContent n
  | _ => True

theorem map_eq_self_iff {α : Type} {f : α → α} {P : α → Prop} (h : ∀ a, f a = a ↔ P a)
    (as : List α) : as.map f = as ↔ ∀ a ∈ as, P a := by
  induction as with
  | nil => simp
  | cons a as ih => rw [List.map_cons, List.cons.injEq, List.forall_mem_cons, h, ih]

theorem escapedProperty_eq_self_iff (p : Property) : escapedProperty p = p ↔ PlainProperty p := by
  obtain ⟨name, value⟩ := p
  unfold PlainProperty
  cases value with
  | none => simp [escapedProperty]
  | some v =>
    cases v with
    | expr source => simp [escapedProperty]
    | text s => simp [escapedProperty, escapeValue_eq_self_iff]

theorem escapedContent_eq_self_iff (n : Node) : escapedContent n = n ↔ PlainContent n := by
  cases n with
  | parent type data body children => simp [escapedContent, PlainContent]
  | leaf type data body =>
    cases body with
    | text s => simp [escapedContent, PlainContent, escapeText_eq_self_iff]
    | _ => simp [escapedContent, PlainContent]

theorem escaped_eq_self_iff (e : Node) : escaped e = e ↔ PlainComponent e := by
  cases e with
  | leaf type data body => simp [escaped, PlainComponent]
  | parent type data body children =>
    cases body with
    | component name props =>
      have hprops := map_eq_self_iff escapedProperty_eq_self_iff props
      have hchildren := map_eq_self_iff escapedContent_eq_self_iff children
      simp only [escaped, PlainComponent, ← hprops, ← hchildren, Node.parent.injEq,
        Container.component.injEq, true_and]
    | _ => simp [escaped, PlainComponent]

/-! ## What has been read -/

/-- An attribute as the reader makes it. -/
structure ReadProperty (p : Property) : Prop where
  name_ne_nil : p.name.toList ≠ []
  name_chars : ∀ c ∈ p.name.toList, isPropertyChar c = true
  source : ∀ source, p.value = some (.expr source) → Braced source.toList

theorem WrittenProperty.WellFormed.readProperty {p : WrittenProperty} (h : p.WellFormed) :
    ReadProperty p.property := by
  obtain ⟨gap, name, assigned⟩ := p
  refine ⟨?_, ?_, ?_⟩
  · rw [property, String.toList_ofList]
    exact h.name_ne_nil
  · rw [property, String.toList_ofList]
    exact h.name
  · intro source hs
    obtain ⟨a, ha, hv⟩ := Option.map_eq_some_iff.mp hs
    have hvalue := (h.assigned a ha).value
    cases hw : a.value with
    | double v => simp [hw, WrittenValue.value] at hv
    | single v => simp [hw, WrittenValue.value] at hv
    | braces v =>
      rw [hw] at hv hvalue
      cases hv
      rw [String.toList_ofList]
      exact hvalue

/-- A component as the reader makes it. -/
structure ReadComponent (name : List Char) (props : List Property) (inner : List Char) : Prop where
  name : IsComponentName name
  props : ∀ p ∈ props, ReadProperty p
  inner : Trimmed inner

theorem readComponent_of_read {flow : Bool} {markup : List Char} {e : Node}
    (h : element? flow markup = some e) :
    ∃ name props inner, ReadComponent name props inner ∧ e = build flow name props inner := by
  obtain ⟨lead, t, rest, hlead, ht, rfl⟩ := exists_startTag h
  rw [ht.read flow hlead] at h
  obtain ⟨inner, -, rfl⟩ := Option.map_eq_some_iff.mp h
  have hprops : ∀ p ∈ t.properties.map (·.property), ReadProperty p := by
    intro p hp
    obtain ⟨w, hw, rfl⟩ := List.mem_map.mp hp
    exact (ht.properties w hw).readProperty
  refine ⟨t.name, _, strip inner, ⟨ht.name, hprops, trimmed_strip inner⟩, ?_⟩
  unfold StartTag.component build
  rw [(trimmed_strip inner).strip]

/-! ## Attributes as they are rendered -/

def renderedValue : PropertyValue → WrittenValue
  | .text s => .double (escapeValue s).toList
  | .expr source => .braces source.toList

/-- The layout in which an attribute is rendered. -/
def renderedProperty (p : Property) : WrittenProperty :=
  ⟨[' '], p.name.toList, p.value.map fun v => ⟨[], [], renderedValue v⟩⟩

theorem text_renderedProperty (p : Property) :
    (renderedProperty p).text = ' ' :: (propertyText p).toList := by
  obtain ⟨name, value⟩ := p
  cases value with
  | none => simp [renderedProperty, WrittenProperty.text, propertyText]
  | some v =>
    cases v with
    | text s =>
      simp [renderedProperty, renderedValue, WrittenProperty.text, Assigned.text,
        WrittenValue.text, propertyText]
    | expr source =>
      simp [renderedProperty, renderedValue, WrittenProperty.text, Assigned.text,
        WrittenValue.text, propertyText]

theorem property_renderedProperty (p : Property) :
    (renderedProperty p).property = escapedProperty p := by
  obtain ⟨name, value⟩ := p
  cases value with
  | none => simp [renderedProperty, WrittenProperty.property, escapedProperty]
  | some v =>
    cases v with
    | text s =>
      simp [renderedProperty, renderedValue, WrittenProperty.property, WrittenValue.value,
        escapedProperty]
    | expr source =>
      simp [renderedProperty, renderedValue, WrittenProperty.property, WrittenValue.value,
        escapedProperty]

theorem ReadProperty.rendered {p : Property} (h : ReadProperty p) :
    (renderedProperty p).WellFormed := by
  refine ⟨by simp [renderedProperty], by simp [renderedProperty, Blanks]; decide, h.name_ne_nil,
    h.name_chars, ?_⟩
  intro a ha
  obtain ⟨v, hv, rfl⟩ := Option.map_eq_some_iff.mp ha
  refine ⟨by simp [Blanks], by simp [Blanks], ?_⟩
  cases v with
  | text s => exact quote_notMem_escapeValue s
  | expr source => exact h.source source hv

def attributesText (props : List Property) : List Char :=
  props.flatMap fun p => ' ' :: (propertyText p).toList

theorem propertiesText_rendered (props : List Property) :
    propertiesText (props.map renderedProperty) = attributesText props := by
  rw [propertiesText, attributesText, List.flatMap_map]
  simp only [text_renderedProperty]

/-! ## Components read again -/

section

variable {name : List Char} {props : List Property} {inner : List Char}

/-- What the reader makes is rendered as its name, its attributes and its content. -/
theorem toList_render (h : ReadComponent name props inner) (flow : Bool) :
    (build flow name props inner).render.toList = '<' :: name ++ attributesText props ++
      if inner = [] then [' ', '/', '>']
      else '>' :: (inner.flatMap escapeTextChar ++ ('<' :: '/' :: name ++ ['>'])) := by
  have hhead : (" ".intercalate (String.ofList name :: props.map propertyText)).toList =
      name ++ attributesText props := by
    rw [String.toList_intercalate, List.map_cons, List.map_map]
    refine (intercalate_cons _ _ _).trans ?_
    rw [List.flatMap_map, String.toList_ofList]
    rfl
  unfold build
  rw [h.inner.strip]
  by_cases hinner : inner = []
  · simp [hinner, Node.render, containerText, componentText, hhead]
  · simp [hinner, Node.render, containerText, componentText, hhead, Node.renderAll, Node.text,
      leafText, escapeText]

theorem escaped_build (h : ReadComponent name props inner) (flow : Bool) :
    escaped (build flow name props inner) =
      build flow name (props.map escapedProperty) (inner.flatMap escapeTextChar) := by
  unfold build
  rw [h.inner.strip, (trimmed_escape h.inner).strip]
  by_cases hinner : inner = []
  · simp [hinner, escaped]
  · have hne := escape_ne_nil hinner
    simp [hinner, hne, escaped, escapedContent, Node.text, escapeText]

/-- The layout in which a component is rendered. -/
def renderedComponent (name : List Char) (props : List Property) (inner : List Char) :
    WrittenComponent where
  lead := []
  tag := ⟨name, props.map renderedProperty, if inner = [] then [' '] else [], inner = []⟩
  content := if inner = [] then none else some (inner.flatMap escapeTextChar, [])
  trail := []

theorem ReadComponent.rendered (h : ReadComponent name props inner) :
    (renderedComponent name props inner).WellFormed := by
  have hprops : ∀ p ∈ props.map renderedProperty, p.WellFormed := by
    intro p hp
    obtain ⟨q, hq, rfl⟩ := List.mem_map.mp hp
    exact (h.props q hq).rendered
  by_cases hinner : inner = []
  · refine ⟨by simp [renderedComponent, Blanks], ⟨h.name, hprops, ?_⟩, fun _ => Or.inl ?_, ?_, ?_⟩
    · simp [renderedComponent, hinner, Blanks]
      decide
    · simp [renderedComponent, hinner]
    · simp [renderedComponent, hinner]
    · simp [renderedComponent, Blanks]
  · refine ⟨by simp [renderedComponent, Blanks], ⟨h.name, hprops, ?_⟩, ?_, ?_, ?_⟩
    · simp [renderedComponent, hinner, Blanks]
    · simp [renderedComponent, hinner]
    · simp [renderedComponent, hinner, Blanks]
    · simp [renderedComponent, Blanks]

theorem text_renderedComponent (h : ReadComponent name props inner) (flow : Bool) :
    (renderedComponent name props inner).text = (build flow name props inner).render.toList := by
  rw [toList_render h]
  by_cases hinner : inner = []
  · simp [renderedComponent, hinner, WrittenComponent.text, WrittenComponent.ending,
      StartTag.text, StartTag.mark, propertiesText_rendered]
  · simp [renderedComponent, hinner, WrittenComponent.text, WrittenComponent.ending,
      StartTag.text, StartTag.mark, propertiesText_rendered, closingTag]

theorem component_rendered (h : ReadComponent name props inner) (flow : Bool) :
    (renderedComponent name props inner).tag.component flow
        (renderedComponent name props inner).inner = escaped (build flow name props inner) := by
  rw [escaped_build h]
  have hprops : (props.map renderedProperty).map (·.property) = props.map escapedProperty := by
    rw [List.map_map]
    exact List.map_congr_left fun p _ => property_renderedProperty p
  by_cases hinner : inner = []
  · simp [renderedComponent, hinner, StartTag.component, WrittenComponent.inner, ← hprops]
  · simp [renderedComponent, hinner, StartTag.component, WrittenComponent.inner, ← hprops]

theorem ReadComponent.read_again (h : ReadComponent name props inner) (flow : Bool) :
    element? flow (build flow name props inner).render.toList =
      some (escaped (build flow name props inner)) := by
  rw [← text_renderedComponent h, h.rendered.read, component_rendered h]

end

/-! ## Main statement -/

/-- A component that was read is read again from its rendering, escaped, and is the same one only
if nothing in it had to be escaped. -/
theorem element?_render {flow : Bool} {markup : List Char} {e : Node}
    (h : element? flow markup = some e) :
    element? flow e.render.toList = some (escaped e) ∧
      (element? flow e.render.toList = some e ↔ PlainComponent e) := by
  obtain ⟨name, props, inner, hread, rfl⟩ := readComponent_of_read h
  have hagain := hread.read_again flow
  refine ⟨hagain, ?_⟩
  rw [hagain, Option.some.injEq]
  exact escaped_eq_self_iff _

def sampleComponent : Node :=
  .parent "mdxJsxFlowElement" []
    (.component "Media"
      [⟨"title", some (.text "Tom &amp; Jerry")⟩, ⟨"autoPlay", none⟩, ⟨"size", some (.expr "{w: 1}")⟩])
    [Node.text "<b>x</b>"]

theorem element?_render_sample :
    element? true
        "<Media title='Tom &amp; Jerry' autoPlay size={{w: 1}}><b>x</b></Media>".toList =
      some sampleComponent ∧
    element? true sampleComponent.render.toList = some (escaped sampleComponent) := by
  have hread : element? true
      "<Media title='Tom &amp; Jerry' autoPlay size={{w: 1}}><b>x</b></Media>".toList =
      some sampleComponent := by
    rfl
  exact ⟨hread, (element?_render hread).1⟩

/-- An entity in a value and a tag in the content are escaped once more. -/
theorem sample_is_not_read_again :
    element? true
        "<Media title='Tom &amp; Jerry' autoPlay size={{w: 1}}><b>x</b></Media>".toList =
      some sampleComponent ∧
    element? true sampleComponent.render.toList ≠ some sampleComponent := by
  refine ⟨rfl, ?_⟩
  have hagain : element? true sampleComponent.render.toList = some (escaped sampleComponent) := by
    rfl
  rw [hagain]
  intro h
  have hplain := (escaped_eq_self_iff sampleComponent).mp (Option.some.inj h)
  exact absurd (hplain.2 _ List.mem_cons_self '<' (by decide)) (by decide)

end DocumentMedia.Component
