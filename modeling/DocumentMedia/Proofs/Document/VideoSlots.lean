import DocumentMedia.Proofs.Attribute.Loose
import DocumentMedia.Proofs.Document.Carried
import DocumentMedia.Proofs.Document.Slots
import DocumentMedia.Proofs.Media.Video

/-! # What is given for a video

Class names and style texts are given for a video in slots of their own: properties, the attributes
of a directive, blocks in the title and behind it. They are gathered in one class and one style, in
front of the other attributes: those of the directive, those of the last block that has some, or the
defaults. These are written as they are, even if they name a class or a style once more. So no class
name and no style text is lost, but the names of a start tag differ only where that does not
happen. -/
namespace DocumentMedia.Document

open DocumentMedia.Text DocumentMedia.Attribute DocumentMedia.Markup

/-! ## Slots -/

/-- What is given for a video: texts of class names, style texts, and the other attributes. -/
structure VideoSlots where
  url : String
  classes : List (List Char)
  styles : List (List Char)
  free : Fields

namespace VideoSlots

variable (v : VideoSlots)

/-- A class or a style is given in a slot of its own and also named among the other attributes. -/
def Clashes : Prop :=
  ((∃ c ∈ v.classes, c ≠ []) ∧ "class" ∈ Assoc.keys v.free) ∨
    ((∃ s ∈ v.styles, strip s ≠ []) ∧ "style" ∈ Assoc.keys v.free)

/-- A class name that is given somewhere. -/
inductive GivesClass : List Char → Prop where
  | slot {c w} (hc : c ∈ v.classes) (hw : w ∈ words c) : GivesClass w
  | free {s w} (hs : ("class", Value.str s) ∈ v.free) (hw : w ∈ words s.toList) : GivesClass w

/-- A style text that is given somewhere, without the blanks around it. -/
inductive GivesStyle : List Char → Prop where
  | slot {s} (hs : s ∈ v.styles) (hne : strip s ≠ []) : GivesStyle (strip s)
  | free {s} (hs : ("style", Value.str s) ∈ v.free) : GivesStyle s.toList

/-- Markup of a video whose start tag has some attributes. Every class name and every style text
stands in a class and a style, but the names of the attributes need not differ. -/
structure Tag (markup : String) (as : Attributes) : Prop where
  text : markup.toList = videoText v.url as
  reads : (∀ e ∈ v.free, Markup.IsName e.1) →
    Markup.read markup = some (.start "video" as :: videoInner v.url)
  apart : (as.map (·.1)).Nodup ↔ ¬v.Clashes
  classes : ∀ w, v.GivesClass w → ∃ s, ("class", some s) ∈ as ∧ w ∈ words s.toList
  styles : ∀ s, v.GivesStyle s → ∃ t, ("style", some t) ∈ as ∧ s <:+: t.toList

/-- The other attributes are a map of flags and texts. -/
structure WellFormed : Prop where
  keys : (Assoc.keys v.free).Nodup
  values : ∀ e ∈ v.free, IsLoose e.2

/-- A class and a style that are gathered from all slots. -/
structure Gathers (cls style : String) : Prop where
  no_class : cls = "" ↔ ∀ c ∈ v.classes, c = []
  class_words : ∀ c ∈ v.classes, ∀ w ∈ words c, w ∈ words cls.toList
  no_style : style = "" ↔ ∀ s ∈ v.styles, strip s = []
  style_texts : ∀ s ∈ v.styles, strip s <:+: style.toList

end VideoSlots

/-! ## Names of attributes -/

theorem shown?_of_isLoose {e : String × Value} (h : IsLoose e.2) :
    ∃ value, shown? e = some (e.1, value) := by
  obtain ⟨name, v⟩ := e
  rcases h with h | ⟨s, h⟩ <;> cases h <;> exact ⟨_, rfl⟩

theorem names_shownAttributes {attrs : Fields} (h : ∀ e ∈ attrs, IsLoose e.2) :
    (shownAttributes attrs).map (·.1) = Assoc.keys attrs := by
  induction attrs with
  | nil => rfl
  | cons e es ih =>
    rw [List.forall_mem_cons] at h
    obtain ⟨value, hvalue⟩ := shown?_of_isLoose h.1
    have ih := ih h.2
    unfold shownAttributes at ih ⊢
    rw [List.filterMap_cons_some hvalue, List.map_cons, ih]
    rfl

theorem name_writtenAttributes_iff {attrs : Fields} (h : ∀ e ∈ attrs, IsLoose e.2) {name : String}
    (hname : name ≠ "") :
    name ∈ (writtenAttributes attrs).map (·.1) ↔ name ∈ Assoc.keys attrs := by
  rw [← names_shownAttributes h, List.mem_map, List.mem_map]
  constructor
  · rintro ⟨a, ha, rfl⟩
    exact ⟨a, mem_shown_of_written ha, rfl⟩
  · rintro ⟨a, ha, rfl⟩
    exact ⟨a, mem_writtenAttributes ha hname, rfl⟩

theorem mem_written_of_text {attrs : Fields} {name s : String} (h : (name, .str s) ∈ attrs)
    (hname : name ≠ "") : (name, some s) ∈ writtenAttributes attrs :=
  mem_writtenAttributes (List.mem_filterMap.mpr ⟨_, h, rfl⟩) hname

theorem nodup_names_written {attrs : Fields} (h : ∀ e ∈ attrs, IsLoose e.2)
    (hkeys : (Assoc.keys attrs).Nodup) : ((writtenAttributes attrs).map (·.1)).Nodup := by
  rw [← names_shownAttributes h] at hkeys
  unfold writtenAttributes
  split
  · exact List.nodup_nil
  · exact hkeys

theorem nodup_names_head (cls style : String) :
    ((headAttributes cls style).map (·.1)).Nodup := by
  by_cases hc : cls.isEmpty <;> by_cases hs : style.isEmpty <;> simp [headAttributes, hc, hs]

theorem nodup_append_of_head (cls style : String) {names : List String} (h : names.Nodup) :
    ((headAttributes cls style).map (·.1) ++ names).Nodup ↔
      (cls ≠ "" → "class" ∉ names) ∧ (style ≠ "" → "style" ∉ names) := by
  rw [List.nodup_append]
  constructor
  · rintro ⟨-, -, hapart⟩
    constructor
    · intro hc hn
      exact hapart _ ((name_headAttributes_iff ..).mpr (Or.inl ⟨rfl, hc⟩)) _ hn rfl
    · intro hs hn
      exact hapart _ ((name_headAttributes_iff ..).mpr (Or.inr ⟨rfl, hs⟩)) _ hn rfl
  · rintro ⟨hclass, hstyle⟩
    refine ⟨nodup_names_head cls style, h, ?_⟩
    rintro _ ha _ hn rfl
    rcases (name_headAttributes_iff ..).mp ha with ⟨rfl, hc⟩ | ⟨rfl, hs⟩
    · exact hclass hc hn
    · exact hstyle hs hn

/-! ## Start tags -/

section

variable {v : VideoSlots} {cls style : String}

theorem VideoSlots.apart_of_gathers (hv : v.WellFormed) (h : v.Gathers cls style) :
    ((headAttributes cls style ++ writtenAttributes v.free).map (·.1)).Nodup ↔ ¬v.Clashes := by
  rw [List.map_append, nodup_append_of_head cls style (nodup_names_written hv.values hv.keys),
    name_writtenAttributes_iff hv.values (by decide),
    name_writtenAttributes_iff hv.values (by decide), ne_eq, ne_eq, h.no_class, h.no_style,
    VideoSlots.Clashes]
  push Not
  rfl

/-- A video that is written with what was gathered is a tag with everything that was given. -/
theorem VideoSlots.tag_of_gathers (hv : v.WellFormed) (h : v.Gathers cls style) :
    v.Tag (videoMarkup v.url cls style v.free)
      (headAttributes cls style ++ writtenAttributes v.free) where
  text := toList_videoMarkup v.url cls style v.free
  reads := read_videoMarkup v.url cls style
  apart := VideoSlots.apart_of_gathers hv h
  classes := by
    intro w hw
    cases hw with
    | slot hc hw =>
      -- A word of the gathered class: there is one, so the class is written.
      have hmem := h.class_words _ hc w hw
      have hne : ¬cls.isEmpty := by
        intro hempty
        rw [String.isEmpty_iff.mp hempty] at hmem
        cases hmem
      refine ⟨cls, List.mem_append_left _ (List.mem_append_left _ ?_), hmem⟩
      rw [if_neg hne]
      exact List.mem_singleton_self _
    | free hs hw =>
      exact ⟨_, List.mem_append_right _ (mem_written_of_text hs (by decide)), hw⟩
  styles := by
    intro s hs
    cases hs with
    | slot hs hne =>
      have hin := h.style_texts _ hs
      have hstyle : ¬style.isEmpty := by
        intro hempty
        rw [String.isEmpty_iff.mp hempty] at hin
        exact hne (List.infix_nil.mp hin)
      refine ⟨style, List.mem_append_left _ (List.mem_append_right _ ?_), hin⟩
      rw [if_neg hstyle]
      exact List.mem_singleton_self _
    | free hs =>
      exact ⟨_, List.mem_append_right _ (mem_written_of_text hs (by decide)), List.infix_refl _⟩

end

/-! ## Gathered class names -/

theorem classList_eq_nil_iff (cs : List (List Char)) : classList cs = [] ↔ ∀ c ∈ cs, c = [] := by
  unfold classList
  constructor
  · intro h c hc
    have hin : c <:+: joinWith [' '] cs.eraseDups := infix_joinWith (List.mem_eraseDups.mpr hc)
    rw [h] at hin
    exact List.infix_nil.mp hin
  · intro h
    cases cs with
    | nil => rfl
    | cons c cs =>
      rw [List.forall_mem_cons] at h
      have hrest : cs.filter (fun b => !b == c) = [] := by
        rw [List.filter_eq_nil_iff]
        intro b hb
        simp [h.1, h.2 b hb]
      rw [List.eraseDups_cons, hrest, h.1]
      rfl

theorem mem_words_classList {cs : List (List Char)} {c w : List Char} (hc : c ∈ cs)
    (hw : w ∈ words c) : w ∈ words (classList cs) := by
  unfold classList
  rw [words_joinWith_space]
  exact List.mem_flatMap.mpr ⟨c, List.mem_eraseDups.mpr hc, hw⟩

/-! ## Slots of directives -/

/-- The class names of a directive, as they are given. -/
def directiveClasses (attributes : Fields) : List (List Char) :=
  classNames ((Assoc.find? attributes "className").map Attribute.normalize) ++
    classNames ((Assoc.find? attributes "class").map Attribute.normalize)

def directiveStyle (attributes : Fields) : String :=
  ((Assoc.find? attributes "style").map authored).getD ""

/-- The attributes of a directive without a slot of their own. -/
def directiveFree (attributes : Fields) : Fields :=
  (attributes.filter fun e => !ownKeys.contains e.1).map fun e => (e.1, asExtra e.2)

theorem cls_directiveMedia (label : Option String) (attributes : Fields) :
    (DirectiveMedia.of label attributes).cls =
      String.ofList (classList (directiveClasses attributes)) := by
  have hfind (key : String) := Assoc.find?_map Attribute.normalize attributes key
  rw [directiveMedia_eq]
  dsimp only
  rw [hfind, hfind]
  rfl

theorem style_directiveMedia (label : Option String) (attributes : Fields) :
    (DirectiveMedia.of label attributes).style = directiveStyle attributes := by
  have hfind (key : String) := Assoc.find?_map Attribute.normalize attributes key
  rw [directiveMedia_eq]
  dsimp only
  rw [hfind, Option.map_map]
  rfl

/-- A style text that is not empty is not blank: a text has no blanks around it, and pairs are
written with a colon. -/
theorem styleText_of_blank {a : AttrValue} (h : strip (styleText a).toList = []) :
    styleText a = "" := by
  cases a with
  | plain s =>
    rw [styleText, stripped, String.toList_ofList, strip_strip] at h
    rw [styleText, stripped, h]
  | keyed items =>
    cases items with
    | nil => rfl
    | cons item items =>
      -- No text with a colon in it is blank.
      have hblank : isAllBlank (styleText (.keyed (item :: items))).toList = true := by
        rw [← isEmpty_strip, h]
        rfl
      have hcolon : ':' ∈ (styleText (.keyed (item :: items))).toList := by
        rw [styleText, List.map_cons, String.toList_intercalate, List.map_cons]
        cases items <;> simp [List.intercalate_cons_cons]
      exact absurd ((isAllBlank_iff _).mp hblank ':' hcolon) (by decide)

theorem directiveStyle_eq_empty_iff (attributes : Fields) :
    directiveStyle attributes = "" ↔ strip (directiveStyle attributes).toList = [] := by
  constructor
  · intro h
    rw [h]
    rfl
  · unfold directiveStyle
    cases Assoc.find? attributes "style" with
    | none => exact fun _ => rfl
    | some v => exact fun h => styleText_of_blank h

/-- What is given for a video by a directive of its own. -/
def directiveSlots (videoAttrs : List Char) (label : Option String) (attributes : Fields) :
    VideoSlots where
  url := (DirectiveMedia.of label attributes).url
  classes := directiveClasses attributes
  styles := [(directiveStyle attributes).toList]
  free := if (directiveFree attributes).isEmpty then parseLoose videoAttrs
    else directiveFree attributes

theorem gathers_directive (videoAttrs : List Char) (label : Option String) (attributes : Fields) :
    (directiveSlots videoAttrs label attributes).Gathers
      (DirectiveMedia.of label attributes).cls (DirectiveMedia.of label attributes).style where
  no_class := by
    rw [cls_directiveMedia, ← String.toList_eq_nil_iff, String.toList_ofList]
    exact classList_eq_nil_iff _
  class_words := by
    intro c hc w hw
    rw [cls_directiveMedia, String.toList_ofList]
    exact mem_words_classList hc hw
  no_style := by
    rw [style_directiveMedia, directiveStyle_eq_empty_iff]
    exact (List.forall_mem_singleton (p := fun s => strip s = [])).symm
  style_texts := by
    rw [style_directiveMedia]
    exact List.forall_mem_singleton.mpr (infix_strip _)

theorem expandDirective_slots (videoAttrs : List Char) (data : Fields) (label : Option String)
    (attributes : Fields) :
    expandDirective (parseLoose videoAttrs) data "video" label attributes =
      Node.html (videoMarkup (DirectiveMedia.of label attributes).url
        (DirectiveMedia.of label attributes).cls (DirectiveMedia.of label attributes).style
        (directiveSlots videoAttrs label attributes).free) := by
  rw [expandDirective_video, extra_directiveMedia]
  rfl

/-! ## Slots of pictures -/

/-- The style among the properties of an image. -/
def styleHint (props : List (Value × Value)) : String :=
  let given := (Value.under? props "style").getD .null
  if given.isTruthy then given.display else ""

/-- The attribute text in force: of the last block that has one, or else the defaults. -/
def attrsInForce (videoAttrs : List Char) (first last : AttrBlock) : List Char :=
  if !last.freeform.isEmpty then last.freeform
  else if !first.freeform.isEmpty then first.freeform
  else videoAttrs

/-- What is given for a video by an image, with blocks in its title and behind it. -/
def pictureSlots (videoAttrs : List Char) (url : String) (classes : List (List Char))
    (style : String) (first last : AttrBlock) : VideoSlots where
  url := url
  classes := classes ++ first.classes ++ last.classes
  styles := [style.toList, first.style, last.style]
  free := parseLoose (attrsInForce videoAttrs first last)

theorem attrsInForce_merge (videoAttrs : List Char) (first last : AttrBlock) :
    (if ((AttrBlock.empty.merge first).merge last).freeform.isEmpty then videoAttrs
      else ((AttrBlock.empty.merge first).merge last).freeform) =
      attrsInForce videoAttrs first last := by
  have hmerge : ((AttrBlock.empty.merge first).merge last).freeform =
      if last.freeform.isEmpty then first.freeform else last.freeform := by
    rw [← freeform_merge_empty first]
    rfl
  rw [hmerge, attrsInForce]
  cases hl : last.freeform.isEmpty <;> cases hf : first.freeform.isEmpty <;> simp [hl, hf]

theorem gathers_picture (videoAttrs : List Char) (url : String) {given classes : List (List Char)}
    (hclasses : ∀ w, w ∈ given ↔ w ∈ classes) (style : String) (first last : AttrBlock) :
    (pictureSlots videoAttrs url classes style first last).Gathers
      (String.ofList (classList ((given ++ (first.classes ++ last.classes)).filter (!·.isEmpty))))
      (String.ofList (joinStyle style.toList (joinStyle (strip first.style) last.style))) where
  no_class := by
    rw [← String.toList_eq_nil_iff, String.toList_ofList, classList_eq_nil_iff]
    simp only [pictureSlots, List.mem_filter, List.mem_append, hclasses, or_assoc]
    constructor
    · intro h c hc
      by_contra hne
      exact hne (h c ⟨hc, by simpa using hne⟩)
    · exact fun h c hc => h c hc.1
  class_words := by
    intro c hc w hw
    rw [String.toList_ofList]
    refine mem_words_classList (List.mem_filter.mpr ⟨?_, ?_⟩) hw
    · simpa only [pictureSlots, List.mem_append, hclasses, or_assoc] using hc
    · cases c with
      | nil => cases hw
      | cons => rfl
  no_style := by
    rw [← String.toList_eq_nil_iff, String.toList_ofList, joinStyle_eq_nil_iff, strip_joinStyle,
      joinStyle_eq_nil_iff, strip_strip]
    simp [pictureSlots]
  style_texts := by
    rw [String.toList_ofList]
    have hlast := infix_joinStyle_right style.toList (joinStyle (strip first.style) last.style)
    rw [strip_joinStyle] at hlast
    have hinner := infix_joinStyle_left (strip first.style) last.style
    rw [strip_strip] at hinner
    simp only [pictureSlots, List.forall_mem_cons]
    exact ⟨infix_joinStyle_left _ _, hinner.trans hlast,
      (infix_joinStyle_right _ _).trans hlast, nofun⟩

/-- A moving picture is finished as a video with what was gathered from its slots. -/
theorem finishWith_gathers {data : Fields} {url : String}
    (hm : (isVideoKind data || isVideoUrl url) = true) {classes : List (List Char)} {style : String}
    (hclasses : ∀ w, w ∈ words (classText (givenClasses (givenProps data))).toList ↔ w ∈ classes)
    (hstyle : styleHint (givenProps data) = style) (videoAttrs : List Char) (type alt : String)
    (title : Option String) (behind : Option AttrBlock) :
    ∃ cls style', finishWith videoAttrs type data url alt title behind =
        Node.html (videoMarkup url cls style' (pictureSlots videoAttrs url classes style
          (titleBlock (title.getD "").toList) (behind.getD AttrBlock.empty)).free) ∧
      (pictureSlots videoAttrs url classes style (titleBlock (title.getD "").toList)
        (behind.getD AttrBlock.empty)).Gathers cls style' := by
  have hblock : (takeTitle title).1.merge (behind.getD AttrBlock.empty) =
      (AttrBlock.empty.merge (titleBlock (title.getD "").toList)).merge
        (behind.getD AttrBlock.empty) := by
    rw [takeTitle_block]
  unfold finishWith finishImage
  dsimp only
  rw [if_pos hm, hblock]
  generalize titleBlock (title.getD "").toList = first
  generalize behind.getD AttrBlock.empty = last
  refine ⟨_, _, ?_, gathers_picture videoAttrs url hclasses style first last⟩
  rw [Value.under?_filter_ne _ (by decide), attrsInForce_merge, ← hstyle]
  rfl

theorem notMem_keys_extra (label : Option String) (attributes : Fields) {key : String}
    (hkey : key ∈ ownKeys) : key ∉ Assoc.keys (DirectiveMedia.of label attributes).extra := by
  rw [extra_directiveMedia, Assoc.keys, List.map_map]
  intro h
  obtain ⟨e, he, rfl⟩ := List.mem_map.mp h
  have hother : e.1 ∉ ownKeys := by simpa using (List.mem_filter.mp he).2
  exact hother hkey

/-- The class and the style among properties that begin with an alternative text are read back as
they were put. -/
theorem given_putText {props : List (Value × Value)} {alt : Value} {cls style : String}
    (h : ∀ key ∈ ownKeys, Value.under? props key =
      Value.under? (putText (putText [(.str "alt", alt)] "class" cls) "style" style) key) :
    classText (givenClasses props) = cls ∧ styleHint props = style := by
  have htext (s : String) (hs : s ≠ "") : (Value.str s).isTruthy = true := by
    simp [Value.isTruthy, Value.isFalsy, hs]
  have hnull : Value.null.isTruthy = false := rfl
  constructor
  · rw [givenClasses, h "className" (by decide), h "class" (by decide)]
    by_cases hc : cls = ""
    · simp [under?_putText, Value.under?, hc, hnull, classText]
    · simp [under?_putText, Value.under?, hc, hnull, classText, htext, Value.display]
  · rw [styleHint, h "style" (by decide)]
    by_cases hs : style = ""
    · simp [under?_putText, Value.under?, hs, hnull]
    · simp [under?_putText, hs, htext, Value.display]

/-- The class names and the style of a directive for an image are given to the image. -/
theorem given_directiveProps (data : Fields) (label : Option String) (attributes : Fields) :
    classText (givenClasses (directiveProps data label attributes)) =
        (DirectiveMedia.of label attributes).cls ∧
      styleHint (directiveProps data label attributes) =
        (DirectiveMedia.of label attributes).style := by
  apply given_putText
  intro key hkey
  have hw : "width" ≠ key := by rintro rfl; exact absurd hkey (by decide)
  have hh : "height" ≠ key := by rintro rfl; exact absurd hkey (by decide)
  rw [directiveProps, under?_putProps _ _ (notMem_keys_extra label attributes hkey)]
  split
  · rw [under?_putSize _ _ _ hw hh]
  · rfl

end DocumentMedia.Document
