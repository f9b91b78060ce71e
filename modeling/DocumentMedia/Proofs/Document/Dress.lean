import DocumentMedia.Proofs.Attribute.Block
import DocumentMedia.Proofs.Attribute.Style
import DocumentMedia.Proofs.Document.Expansion
import DocumentMedia.Tree.Render

/-! # Dressed images

An image takes its attributes from a block behind it, or it is made of a directive and gone through
once more without a block. Either way it ends with the same properties. -/
namespace DocumentMedia.Document

open DocumentMedia.Text DocumentMedia.Attribute

/-! ## Class names, each once -/

theorem filter_ne_eraseDups {α : Type} [BEq α] [LawfulBEq α] (a : α) (l : List α) :
    (l.filter (fun b => !b == a)).eraseDups.filter (fun b => !b == a) =
      (l.filter (fun b => !b == a)).eraseDups := by
  rw [List.filter_eq_self]
  intro b hb
  exact (List.mem_filter.mp (List.mem_eraseDups.mp hb)).2

theorem eraseDups_eraseDups {α : Type} [BEq α] [LawfulBEq α] (l : List α) :
    l.eraseDups.eraseDups = l.eraseDups := by
  match l with
  | [] => rfl
  | a :: l =>
    rw [List.eraseDups_cons, List.eraseDups_cons, filter_ne_eraseDups, eraseDups_eraseDups]
termination_by l.length
decreasing_by exact Nat.lt_succ_of_le (List.length_filter_le _ _)

/-- The text of class names, each once. -/
def classList (classes : List (List Char)) : List Char := joinWith [' '] classes.eraseDups

theorem filter_unbroken {ws : List (List Char)} (h : ∀ w ∈ ws, Unbroken w) :
    ws.filter (!·.isEmpty) = ws := by
  rw [List.filter_eq_self]
  intro w hw
  simpa using (h w hw).1

theorem words_classList {classes : List (List Char)} (h : ∀ w ∈ classes, Unbroken w) :
    words (classList classes) = classes.eraseDups :=
  words_joinWith fun w hw => h w (List.mem_eraseDups.mp hw)

/-! ## Properties -/

section

variable (props : List (Value × Value)) (key name text : String)

theorem under?_putText : Value.under? (putText props key text) name =
    if key = name ∧ text ≠ "" then some (.str text) else Value.under? props name := by
  unfold putText
  split
  · next h => simp [String.isEmpty_iff.mp h]
  · next h =>
    have hne : text ≠ "" := by simpa [String.isEmpty_iff] using h
    simp [Value.under?_putEntry, hne]

theorem under?_putText_ne (h : key ≠ name) :
    Value.under? (putText props key text) name = Value.under? props name := by
  rw [under?_putText, if_neg fun hkey => h hkey.1]

theorem under?_putSize (data : Fields) (hw : "width" ≠ name) (hh : "height" ≠ name) :
    Value.under? (putSize props data) name = Value.under? props name := by
  simp only [putSize]
  split
  · simp [Value.under?_putEntry, hw, hh]
  · rfl

theorem under?_putProps {extra : Fields} (h : name ∉ Assoc.keys extra) :
    Value.under? (putProps props extra) name = Value.under? props name := by
  induction extra generalizing props with
  | nil => rfl
  | cons e es ih =>
    simp only [Assoc.keys, List.map_cons, List.mem_cons, not_or] at h ih
    have hstep := ih (Value.putEntry props (.str e.1) (asProperty e.2)) h.2
    rw [Value.under?_putEntry, if_neg (Ne.symm h.1)] at hstep
    exact hstep

end

/-- A flag and an empty text are the same property. -/
theorem putProps_congr {props : List (Value × Value)} {extra extra' : Fields}
    (h : extra.map (fun e => (e.1, asProperty e.2)) = extra'.map (fun e => (e.1, asProperty e.2))) :
    putProps props extra = putProps props extra' := by
  have hmap (extra : Fields) : putProps props extra =
      (extra.map fun e => (e.1, asProperty e.2)).foldl
        (fun ps e => Value.putEntry ps (.str e.1) e.2) props := by
    rw [List.foldl_map]
    rfl
  rw [hmap, hmap, h]

/-- Both dimensions of the media of a node are known. -/
def Sized (data : Fields) : Prop :=
  (mediaField data "width").isTruthy ∧ (mediaField data "height").isTruthy

instance (data : Fields) : Decidable (Sized data) := inferInstanceAs (Decidable (_ ∧ _))

theorem putSize_of_sized {props : List (Value × Value)} {data : Fields} (h : Sized data) :
    putSize props data = Value.putEntry (Value.putEntry props (.str "width")
      (mediaField data "width")) (.str "height") (mediaField data "height") := by
  simp only [putSize, h.1, h.2, Bool.and_self, if_true]

theorem putSize_of_not_sized {props : List (Value × Value)} {data : Fields} (h : ¬ Sized data) :
    putSize props data = props := by
  simp only [putSize]
  split
  · next hs => exact absurd (by simpa [Sized] using hs) h
  · rfl

/-- The properties of an image with attributes: those of its own names, then the others. -/
def elementProps (data : Fields) (alt cls style : String) (free : Fields) : List (Value × Value) :=
  putProps (putSize (putText (putText [(.str "alt", .str alt)] "class" cls) "style" style) data)
    free

/-- The keys that have a meaning of their own among the attributes of an image. -/
def ownKeys : List String := ["src", "alt", "className", "class", "style"]

/-- Attributes that stand beside those with a meaning of their own. -/
structure Beside (data : Fields) (free : Fields) : Prop where
  own : ∀ k ∈ Assoc.keys free, k ∉ ownKeys
  size : Sized data → "width" ∉ Assoc.keys free ∧ "height" ∉ Assoc.keys free

section

variable {data free : Fields} {alt cls style : String}

theorem under?_elementProps (h : Beside data free) {name : String} (ho : name ∈ ownKeys) :
    Value.under? (elementProps data alt cls style free) name =
      Value.under? (putText (putText [(.str "alt", .str alt)] "class" cls) "style" style) name := by
  have hw : "width" ≠ name := by rintro rfl; exact absurd ho (by decide)
  have hh : "height" ≠ name := by rintro rfl; exact absurd ho (by decide)
  rw [elementProps, under?_putProps _ _ fun hk => h.own name hk ho, under?_putSize _ _ _ hw hh]

theorem elementProps_alt (h : Beside data free) :
    Value.under? (elementProps data alt cls style free) "alt" = some (.str alt) := by
  rw [under?_elementProps h (by decide)]
  simp [under?_putText, Value.under?]

theorem elementProps_className (h : Beside data free) :
    Value.under? (elementProps data alt cls style free) "className" = none := by
  rw [under?_elementProps h (by decide)]
  simp [under?_putText, Value.under?]

theorem elementProps_class (h : Beside data free) :
    Value.under? (elementProps data alt cls style free) "class" =
      if cls = "" then none else some (.str cls) := by
  rw [under?_elementProps h (by decide)]
  simp [under?_putText, Value.under?]

theorem elementProps_style (h : Beside data free) :
    Value.under? (elementProps data alt cls style free) "style" =
      if style = "" then none else some (.str style) := by
  rw [under?_elementProps h (by decide)]
  simp [under?_putText, Value.under?]

theorem elementProps_size (h : Beside data free) (hs : Sized data) :
    Value.under? (elementProps data alt cls style free) "width" = some (mediaField data "width") ∧
      Value.under? (elementProps data alt cls style free) "height" =
        some (mediaField data "height") := by
  obtain ⟨hw, hh⟩ := h.size hs
  constructor
  · rw [elementProps, under?_putProps _ _ hw, putSize_of_sized hs]
    simp [Value.under?_putEntry]
  · rw [elementProps, under?_putProps _ _ hh, putSize_of_sized hs]
    simp [Value.under?_putEntry]

end

/-! ## Finishing -/

/-- The attributes of an image: its classes, its style and those beside them. -/
structure Dress where
  classes : List (List Char)
  style : List Char
  free : Fields

namespace Dress

structure WellFormed (d : Dress) : Prop where
  classes : ∀ c ∈ d.classes, Unbroken c
  style : Trimmed d.style

def cls (d : Dress) : String := String.ofList (classList d.classes)

def styleString (d : Dress) : String := String.ofList d.style

def props (d : Dress) (data : Fields) (alt : String) : List (Value × Value) :=
  elementProps data alt d.cls d.styleString d.free

end Dress

/-- A node that stands for an image with some attributes: markup of a video, which takes the other
attributes only as `extra`, or the image with its properties. -/
def dressed (d : Dress) (extra : Fields) (type : String) (data : Fields) (url alt : String)
    (title : Option String) : Node :=
  if isVideoKind data || isVideoUrl url then
    Node.html (videoMarkup url d.cls d.styleString extra)
  else .leaf type (Assoc.put data "hProperties" (.map (d.props data alt))) (.image url alt title)

section

variable {d : Dress} {data : Fields} (videoAttrs : List Char) (type url alt : String)
  (title : Option String)

theorem finishImage_block (hd : d.WellFormed) (hdata : Assoc.find? data "hProperties" = none)
    {freeform : List Char} (hfree : parseLoose freeform = d.free) :
    finishImage videoAttrs type data url alt title ⟨d.classes, d.style, freeform⟩ =
      dressed d (parseLoose (if freeform.isEmpty then videoAttrs else freeform)) type data url
        (orAlt alt data url) title := by
  have hgiven : givenProps data = [] := by
    simp [givenProps, hdata, Value.entries, Value.isFalsy]
  have hstyle : joinStyle [] d.style = d.style := by
    rw [joinStyle_nil_left, hd.style.strip]
  have hnone : (classText (givenClasses [])).toList = [] := rfl
  have hwords : words [] = [] := rfl
  have htext : ("" : String).toList = [] := rfl
  have hcls : String.ofList (joinWith [' '] d.classes.eraseDups) = d.cls := rfl
  have hlook (name : String) : ((Value.under? [] name).getD .null).isTruthy = false := rfl
  simp only [finishImage, hgiven, hnone, hwords, List.nil_append, filter_unbroken hd.classes, hlook,
    Bool.false_eq_true, if_false, htext, hstyle, hcls, List.filter_nil, hfree, dressed]
  rfl

end

/-! ## Finishing once more -/

theorem entries_map (es : List (Value × Value)) : (Value.map es).entries = .ok es := by
  cases es <;> rfl

section

variable {d : Dress} {data : Fields} {alt : String}

theorem Dress.classes_again (hd : d.WellFormed) (hb : Beside data d.free) :
    words (classText (givenClasses (d.props data alt))).toList = d.classes.eraseDups := by
  have hclass : classText (givenClasses (d.props data alt)) = d.cls := by
    have hnull : Value.null.isTruthy = false := rfl
    simp only [givenClasses, Dress.props, elementProps_className hb, elementProps_class hb,
      Option.getD_none, hnull, Bool.false_eq_true, if_false]
    split
    · next h => rw [h]; rfl
    · next h =>
      have hne : d.cls.isEmpty = false := by simpa [String.isEmpty_iff] using h
      simp [classText, Value.isTruthy, Value.isFalsy, hne, Value.display]
  rw [hclass, Dress.cls, String.toList_ofList, words_classList hd.classes]

theorem Dress.style_again (hb : Beside data d.free) :
    (if ((Value.under? (d.props data alt) "style").getD .null).isTruthy then
      ((Value.under? (d.props data alt) "style").getD .null).display else "") = d.styleString := by
  simp only [Dress.props, elementProps_style hb]
  split
  · next h => simp [Value.isTruthy, Value.isFalsy, h]
  · next h => simp [Value.isTruthy, Value.isFalsy, Value.display, h]

/-- The properties that are there already are put in their places once more. -/
theorem Dress.props_again (hb : Beside data d.free) :
    putSize (putText (putText (Value.putEntry (d.props data alt) (.str "alt") (.str alt)) "class"
      d.cls) "style" d.styleString) data = d.props data alt := by
  have htext {key text : String} (h : Value.under? (d.props data alt) key =
      if text = "" then none else some (.str text)) :
      putText (d.props data alt) key text = d.props data alt := by
    unfold putText
    split
    · rfl
    · next hne =>
      rw [if_neg (by simpa [String.isEmpty_iff] using hne)] at h
      exact Value.putEntry_of_under? h
  have halt : Value.putEntry (d.props data alt) (.str "alt") (.str alt) = d.props data alt :=
    Value.putEntry_of_under? (elementProps_alt hb)
  rw [halt, htext (elementProps_class hb), htext (elementProps_style hb)]
  by_cases hs : Sized data
  · have hw : Value.putEntry (d.props data alt) (.str "width") (mediaField data "width") =
        d.props data alt := Value.putEntry_of_under? (elementProps_size hb hs).1
    rw [putSize_of_sized hs, hw]
    exact Value.putEntry_of_under? (elementProps_size hb hs).2
  · exact putSize_of_not_sized hs

end

/-- An image that has its properties is finished without a block: nothing changes. -/
theorem finishImage_again {d : Dress} {data : Fields} {url alt : String} (videoAttrs : List Char)
    (type : String) (title : Option String) (hd : d.WellFormed) (hb : Beside data d.free)
    (hdata : Assoc.find? data "hProperties" = some (.map (d.props data alt)))
    (halt : orAlt alt data url = alt) :
    finishImage videoAttrs type data url alt title AttrBlock.empty =
      dressed d (parseLoose videoAttrs) type data url alt title := by
  have hgiven : givenProps data = d.props data alt := by
    simp [givenProps, hdata, entries_map]
  have hfilter : (d.props data alt).filter (fun e => !e.1.sameKey (.str "className")) =
      d.props data alt := Value.filter_of_under?_eq_none (elementProps_className hb)
  have hstyle : String.ofList (joinStyle d.styleString.toList []) = d.styleString := by
    rw [joinStyle_nil_right, Dress.styleString, String.toList_ofList, hd.style.strip]
  have hcls : String.ofList (joinWith [' '] d.classes.eraseDups.eraseDups) = d.cls := by
    rw [eraseDups_eraseDups]
    rfl
  have hnone : parseLoose (freeText []) = [] :=
    parseLoose_freeText (List.forall_mem_nil _) (List.forall_mem_nil _)
  change parseLoose [] = [] at hnone
  have hunbroken : ∀ c ∈ d.classes.eraseDups, Unbroken c := fun c hc =>
    hd.classes c (List.mem_eraseDups.mp hc)
  unfold finishImage
  simp only [halt, hgiven, hfilter, Dress.classes_again hd hb, AttrBlock.empty, List.append_nil,
    filter_unbroken hunbroken, hcls, Dress.style_again hb, hstyle, List.isEmpty_nil, if_true,
    hnone, dressed]
  rw [Dress.props_again hb]
  rfl

/-! ## Directives -/

/-- A directive for an image carries its source, its label apart, and all its attributes. -/
structure Carries (d : Dress) (url : List Char) (attributes : Fields) : Prop where
  src : Assoc.find? attributes "src" = some (.str (String.ofList url))
  alt : Assoc.find? attributes "alt" = none
  className : Assoc.find? attributes "className" = none
  cls : Assoc.find? attributes "class" =
    if d.classes = [] then none else some (.str (String.ofList (joinWith [' '] d.classes)))
  style : ∃ s : Option (List Char), Assoc.find? attributes "style" =
    s.map (fun s => Value.str (String.ofList s)) ∧ strip (s.getD []) = d.style
  free : attributes.filter (fun e => !ownKeys.contains e.1) = d.free
  texts : ∀ e ∈ d.free, ∃ v, e.2 = .str (String.ofList v) ∧ Trimmed v

/-- The text under a key, if it is one. -/
def plainUnder? (attrs : Assoc String AttrValue) (key : String) : Option String :=
  match Assoc.find? attrs key with
  | some (.plain s) => some s
  | _ => none

theorem normalize_str (s : String) : Attribute.normalize (.str s) = .plain s := rfl

theorem stripped_ofList (s : List Char) : stripped (String.ofList s) = String.ofList (strip s) := by
  rw [stripped, String.toList_ofList]

/-- An attribute as directives keep it: without text it is a flag. -/
def asExtra (v : Value) : Value :=
  let text := styleText (Attribute.normalize v)
  if text.isEmpty then .bool true else .str text

theorem asProperty_asExtra {v : List Char} (h : Trimmed v) :
    asProperty (asExtra (.str (String.ofList v))) = .str (String.ofList v) := by
  simp only [asExtra, normalize_str, styleText, stripped_ofList, h.strip]
  split
  · next he => rw [String.isEmpty_iff.mp he]; rfl
  · rfl

/-- What a directive makes of its attributes, once they are in normal form. -/
theorem directiveMedia_eq (label : Option String) (attributes : Fields) :
    let attrs := attributes.map fun e => (e.1, Attribute.normalize e.2)
    let label' := stripped (label.getD "")
    DirectiveMedia.of label attributes =
      { url := stripped ((plainUnder? attrs "src").getD "")
        alt := if label'.isEmpty then plainUnder? attrs "alt" else some label'
        cls := String.ofList (joinWith [' '] (classNames (Assoc.find? attrs "className") ++
          classNames (Assoc.find? attrs "class")).eraseDups)
        style := ((Assoc.find? attrs "style").map styleText).getD ""
        extra := (attributes.filter fun e => !ownKeys.contains e.1).map fun e =>
          (e.1, asExtra e.2) } := by
  intro attrs label'
  have hextra : (attributes.filter fun e => !ownKeys.contains e.1).map (fun e =>
      (e.1, asExtra e.2)) = (DirectiveMedia.of label attributes).extra := by
    dsimp only [DirectiveMedia.of]
    rw [List.filter_map, List.map_map]
    rfl
  rw [hextra]
  rfl

theorem directiveMedia_of {d : Dress} {url alt : List Char} {attributes : Fields}
    (h : Carries d url attributes) (hd : d.WellFormed) (hurl : Trimmed url) (halt : Trimmed alt) :
    DirectiveMedia.of (some (String.ofList alt)) attributes =
      ⟨String.ofList url, if (String.ofList alt).isEmpty then none else some (String.ofList alt),
        d.cls, d.styleString, d.free.map fun e => (e.1, asExtra e.2)⟩ := by
  have hfind (key : String) :
      Assoc.find? (attributes.map fun e => (e.1, Attribute.normalize e.2)) key =
        (Assoc.find? attributes key).map Attribute.normalize := Assoc.find?_map _ attributes key
  have hclass : String.ofList (joinWith [' '] (classNames ((Assoc.find? attributes "class").map
      Attribute.normalize)).eraseDups) = d.cls := by
    rw [h.cls]
    split
    · next hnil => simp [classNames, Dress.cls, classList, hnil]
    · rw [Option.map_some, normalize_str, classNames, String.toList_ofList,
        words_joinWith hd.classes]
      rfl
  have hstyle : (((Assoc.find? attributes "style").map Attribute.normalize).map styleText).getD "" =
      d.styleString := by
    obtain ⟨s, hs, hstrip⟩ := h.style
    rw [hs, Dress.styleString, ← hstrip]
    cases s with
    | none => rfl
    | some s => simp [normalize_str, styleText, stripped_ofList]
  have hnone : classNames (none : Option AttrValue) = [] := rfl
  rw [directiveMedia_eq]
  simp only [plainUnder?, hfind, h.src, h.alt, h.className, h.free, Option.map_some,
    Option.map_none, normalize_str, Option.getD_some, stripped_ofList, hurl.strip, halt.strip,
    hnone, List.nil_append, hclass, hstyle]

theorem mediaField_keptMedia (data : Fields) (v : Value) (name : String) :
    mediaField (("hProperties", v) :: keptMedia data) name = mediaField data name := by
  have hfind : Assoc.find? (("hProperties", v) :: keptMedia data) "media" =
      Assoc.find? data "media" := by
    unfold keptMedia
    cases h : Assoc.find? data "media" <;> simp [Assoc.find?]
  unfold mediaField
  rw [hfind]

theorem expandDirective_carries {d : Dress} {url alt : List Char} {data attributes : Fields}
    (h : Carries d url attributes) (hd : d.WellFormed) (hurl : Trimmed url) (halt : Trimmed alt)
    (hkind : Sized data → isImageKind data) (videoAttrs : Fields) :
    let alt' := orAlt (String.ofList alt) data (String.ofList url)
    expandDirective videoAttrs data "img" (some (String.ofList alt)) attributes =
      .leaf "image" (("hProperties", .map (d.props data alt')) :: keptMedia data)
        (.image (String.ofList url) alt' none) := by
  have hprops (ps : List (Value × Value)) : putProps ps (d.free.map fun e => (e.1, asExtra e.2)) =
      putProps ps d.free := by
    apply putProps_congr
    rw [List.map_map]
    apply List.map_congr_left
    intro e he
    obtain ⟨v, hv, htrim⟩ := h.texts e he
    simp only [Function.comp_apply, hv, asProperty_asExtra htrim]
    rfl
  have hsize (ps : List (Value × Value)) :
      (if isImageKind data then putSize ps data else ps) = putSize ps data := by
    split
    · rfl
    · next hn => exact (putSize_of_not_sized fun hs => hn (hkind hs)).symm
  have hname : ("img" : String) ≠ "video" := by decide
  have halt' : (if (String.ofList alt).isEmpty then none else some (String.ofList alt)).getD "" =
      String.ofList alt := by
    split
    · next he => rw [String.isEmpty_iff.mp he]; rfl
    · rfl
  dsimp only
  rw [expandDirective_image data _ attributes videoAttrs hname]
  simp only [directiveProps, directiveAlt, directiveMedia_of h hd hurl halt, hprops, hsize, halt']
  rfl

theorem props_congr (d : Dress) {data data' : Fields}
    (h : ∀ name, mediaField data name = mediaField data' name) (alt : String) :
    d.props data alt = d.props data' alt := by
  simp only [Dress.props, elementProps, putSize, h]

theorem orAlt_congr {data data' : Fields} (h : ∀ name, mediaField data name = mediaField data' name)
    (alt url : String) : orAlt alt data url = orAlt alt data' url := by
  simp only [orAlt, altSource, h]

theorem orAlt_orAlt (alt : String) (data : Fields) (url : String) :
    orAlt (orAlt alt data url) data url = orAlt alt data url := by
  have h := orAlt_not_blank alt data url
  rw [orAlt, h]
  rfl

/-- Dressed images show nothing of their data but what is known about their media. -/
theorem render_dressed {data data' : Fields}
    (h : ∀ name, mediaField data name = mediaField data' name) (d : Dress) (extra : Fields) (url alt : String) (title : Option String) :
    (dressed d extra "image" data url alt title).render =
      (dressed d extra "image" data' url alt title).render := by
  have hshown (data : Fields) (ps : List (Value × Value)) :
      shownProps (Assoc.put data "hProperties" (.map ps)) = ps := by
    simp [shownProps, Assoc.find?_put]
  have hvideo : isVideoKind data = isVideoKind data' := by simp only [isVideoKind, h]
  unfold dressed
  rw [hvideo]
  split
  · rfl
  · simp only [Node.render, leafText, imageAttrs, imageEntries, hshown, props_congr d h]

/-! ## Both ways -/

theorem takeTitle_none : takeTitle none = (AttrBlock.empty, none) := by
  have h : (titleBlock (("" : String).toList)).isEmpty = true := by decide
  simp only [takeTitle, Option.getD_none, h, if_true]

theorem merge_empty_left (b : AttrBlock) (h : Trimmed b.style) : AttrBlock.empty.merge b = b := by
  have hfree : (if b.freeform.isEmpty then [] else b.freeform) = b.freeform := by
    split
    · next he => exact (List.isEmpty_iff.mp he).symm
    · rfl
  simp only [AttrBlock.merge, AttrBlock.empty, List.nil_append, joinStyle_nil_left, h.strip, hfree]

/-- An image with a block behind it. -/
theorem finishWith_block {d : Dress} {data : Fields} (hd : d.WellFormed)
    (hdata : Assoc.find? data "hProperties" = none) {freeform : List Char}
    (hfree : parseLoose freeform = d.free) (videoAttrs : List Char) (type url alt : String) :
    finishWith videoAttrs type data url alt none (some ⟨d.classes, d.style, freeform⟩) =
      dressed d (parseLoose (if freeform.isEmpty then videoAttrs else freeform)) type data url
        (orAlt alt data url) none := by
  rw [finishWith, takeTitle_none]
  dsimp only
  rw [Option.getD_some, merge_empty_left _ hd.style,
    finishImage_block videoAttrs type url alt none hd hdata hfree]

/-- An image made of a directive, with no block behind it. -/
theorem finishWith_directive {d : Dress} {data : Fields} (hd : d.WellFormed)
    (hb : Beside data d.free) (videoAttrs : List Char) (url alt : String) :
    let alt' := orAlt alt data url
    let data' := ("hProperties", .map (d.props data alt')) :: keptMedia data
    finishWith videoAttrs "image" data' url alt' none none =
      dressed d (parseLoose videoAttrs) "image" data' url alt' none := by
  intro alt' data'
  have hfields (name : String) : mediaField data' name = mediaField data name :=
    mediaField_keptMedia data _ name
  have hsized : Sized data' → Sized data := by simp only [Sized, hfields, imp_self]
  have hprops : Assoc.find? data' "hProperties" = some (.map (d.props data' alt')) := by
    rw [props_congr d hfields]
    rfl
  have halt : orAlt alt' data' url = alt' := by
    rw [orAlt_congr hfields]
    exact orAlt_orAlt alt data url
  have hmerge : AttrBlock.empty.merge AttrBlock.empty = AttrBlock.empty := by decide
  rw [finishWith, takeTitle_none]
  dsimp only
  rw [Option.getD_none, hmerge, finishImage_again videoAttrs "image" none hd
    ⟨hb.own, fun hs => hb.size (hsized hs)⟩ hprops halt]

end DocumentMedia.Document
