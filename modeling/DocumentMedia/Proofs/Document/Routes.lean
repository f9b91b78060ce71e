import DocumentMedia.Proofs.Document.Dress
import DocumentMedia.Proofs.Document.ImageNotation

/-! # Blocks and directives with the same entries

The entries of a block dress an image behind which the block stands, and they dress the image of the
directive that is written instead, in the same way. -/
namespace DocumentMedia

namespace Attribute

open DocumentMedia.Text
open DocumentMedia.Document (ownKeys)

/-! ## Entries -/

namespace BlockItem

/-- An entry that means the same in a block and in a directive: its key has no meaning of its own
to only one of them, and its value has no blanks at its ends, which only one of them drops. -/
def Portable : BlockItem → Prop
  | .pair key value =>
    String.ofList key ∉ ["src", "alt", "className", "attrs"] ∧
      (String.ofList key ∈ ["class", "style"] ∨ Trimmed value)
  | _ => True

instance : (i : BlockItem) → Decidable i.Portable
  | .name _ | .mark _ => inferInstanceAs (Decidable True)
  | .pair key value => inferInstanceAs (Decidable
      (String.ofList key ∉ ["src", "alt", "className", "attrs"] ∧
        (String.ofList key ∈ ["class", "style"] ∨ Trimmed value)))

theorem ofList_eq {key : List Char} {name : String} :
    String.ofList key = name ↔ key = name.toList := by
  constructor
  · rintro rfl
    exact String.toList_ofList.symm
  · rintro rfl
    exact String.ofList_toList

theorem Portable.common {i : BlockItem} (h : i.Portable) : i.Common := by
  cases i with
  | name n => trivial
  | mark n => trivial
  | pair key value =>
    simp only [Portable, ofList_eq, List.mem_cons, not_or] at h
    exact ⟨h.1.2.2.2.1, h.1.2.2.1⟩

theorem unbroken_classes {i : BlockItem} (h : i.WellFormed) :
    ∀ c ∈ i.plain.classes, Unbroken c := by
  cases i with
  | name n =>
    intro c hc
    rw [List.mem_singleton.mp hc]
    exact ⟨h.nonempty, fun d hd => (plain_of_isKeyChar (h.chars d hd)).1⟩
  | mark n => exact fun c hc => absurd hc List.not_mem_nil
  | pair key value =>
    intro c hc
    simp only [plain, classes] at hc
    split at hc
    · exact unbroken_of_mem_words hc
    · cases hc

/-- Of the attributes of a directive, those of a block that are its style. -/
theorem filter_attr?_style (i : BlockItem) :
    (i.attr?.filter fun p => String.ofList p.1 == "style") =
      i.style?.map fun s => ("style".toList, s) := by
  cases i with
  | name n => rfl
  | mark n =>
    have hid : (String.ofList "id".toList == "style") = false := by decide
    simp only [attr?, style?, Option.filter_some, hid, Bool.false_eq_true, if_false,
      Option.map_none]
  | pair key value =>
    have hne : "class".toList ≠ "style".toList := by decide
    simp only [attr?, style?]
    by_cases hstyle : key = "style".toList
    · subst hstyle
      simp only [Ne.symm hne, if_false, if_true, Option.filter_some, String.ofList_toList,
        beq_self_eq_true, Option.map_some]
    · have hkey : (String.ofList key == "style") = false := by
        simpa only [beq_eq_false_iff_ne, ne_eq, ofList_eq] using hstyle
      by_cases hclass : key = "class".toList
      · simp only [hclass, hne, if_true, if_false, Option.filter_none, Option.map_none]
      · simp only [hclass, hstyle, if_false, Option.filter_some, hkey, Bool.false_eq_true,
          Option.map_none]

/-- Of the attributes of a directive, those of a block that have no meaning of their own. -/
theorem filter_attr?_free {i : BlockItem} (h : i.Portable) :
    (i.attr?.filter fun p => !ownKeys.contains (String.ofList p.1)) = i.free? := by
  cases i with
  | name n => rfl
  | mark n =>
    have hid : (!ownKeys.contains (String.ofList "id".toList)) = true := by decide
    simp only [attr?, free?, Option.filter_some, hid, if_true]
  | pair key value =>
    have hkeys := h.1
    simp only [List.mem_cons, List.not_mem_nil, or_false, not_or] at hkeys
    simp only [attr?, free?, ← ofList_eq]
    by_cases hclass : String.ofList key = "class"
    · simp only [hclass, decide_true, Bool.true_or, if_true, Option.filter_none]
    · by_cases hstyle : String.ofList key = "style"
      · have hown : ownKeys.contains "style" = true := by decide
        have hne : ("style" : String) ≠ "class" := by decide
        simp only [hstyle, hown, hne, decide_true, Bool.or_true, if_true, if_false,
          Option.filter_some, Bool.not_true, Bool.false_eq_true]
      · have hown : ownKeys.contains (String.ofList key) = false := by
          simp [ownKeys, hkeys, hclass, hstyle]
        simp only [hclass, hstyle, hown, decide_false, Bool.or_self, Bool.false_eq_true, if_false,
          Option.filter_some, Bool.not_false, if_true]

theorem attr?_key {i : BlockItem} (h : i.Portable) {p : List Char × List Char}
    (hp : i.attr? = some p) :
    String.ofList p.1 ∉ ["src", "alt", "className", "class"] := by
  cases i with
  | name n => cases hp
  | mark n =>
    cases hp
    change String.ofList "id".toList ∉ _
    decide
  | pair key value =>
    have hkeys := h.1
    simp only [attr?, ← ofList_eq] at hp
    split at hp
    · cases hp
    · next hclass =>
      cases hp
      simp only [List.mem_cons, List.not_mem_nil, or_false, not_or] at hkeys ⊢
      exact ⟨hkeys.1, hkeys.2.1, hkeys.2.2.1, hclass⟩

theorem free?_trimmed {i : BlockItem} (h : i.WellFormed) (hp : i.plain.Portable)
    {p : List Char × List Char} (hf : i.plain.free? = some p) : Trimmed p.2 := by
  cases i with
  | name n => cases hf
  | mark n =>
    cases hf
    have hblank (c : Char) (hc : c ∈ n) : isBlank c = false :=
      (plain_of_isKeyChar (h.1.chars c hc)).1
    exact ⟨fun c hc => hblank c (List.mem_of_mem_head? hc),
      fun c hc => hblank c (List.mem_of_mem_getLast? hc)⟩
  | pair key value =>
    simp only [plain, free?, ← ofList_eq] at hf
    split at hf
    · cases hf
    · next hown =>
      cases hf
      rcases hp.2 with hkey | htrim
      · simp only [List.mem_cons, List.not_mem_nil, or_false] at hkey
        rcases hkey with hkey | hkey <;> simp [hkey] at hown
      · exact htrim

end BlockItem

/-- A layout whose entries mean the same in a block and in a directive. -/
structure Layout.Portable (l : Layout) : Prop extends Document.IsLine l where
  portable : ∀ i ∈ l.entries, i.Portable
  style : l.styles.length ≤ 1

instance (l : Layout) : Decidable l.Portable :=
  decidable_of_iff (Document.IsLine l ∧ (∀ i ∈ l.entries, i.Portable) ∧ l.styles.length ≤ 1)
    ⟨fun ⟨hline, hportable, hstyle⟩ => ⟨hline, hportable, hstyle⟩,
      fun h => ⟨h.toIsLine, h.portable, h.style⟩⟩

namespace Layout

variable {l : Layout}

theorem Portable.common (h : l.Portable) : ∀ i ∈ l.entries, i.Common :=
  fun i hi => (h.portable i hi).common

theorem unbroken_classes (h : l.WellFormed) : ∀ c ∈ l.classes, Unbroken c := by
  intro c hc
  obtain ⟨i, hi, hc⟩ := List.mem_flatMap.mp hc
  obtain ⟨p, hp, rfl⟩ := List.mem_map.mp hi
  exact BlockItem.unbroken_classes (h.items p hp) c hc

theorem filter_attrs_style (l : Layout) :
    (l.attrs.filter fun p => String.ofList p.1 == "style") =
      l.styles.map fun s => ("style".toList, s) := by
  rw [attrs, styles, List.filter_filterMap, List.map_filterMap]
  exact congrArg (fun f => l.entries.filterMap f) (funext BlockItem.filter_attr?_style)

theorem filter_attrs_free (h : l.Portable) :
    (l.attrs.filter fun p => !ownKeys.contains (String.ofList p.1)) = l.free := by
  rw [attrs, free, List.filter_filterMap]
  exact List.filterMap_congr fun i hi => BlockItem.filter_attr?_free (h.portable i hi)

theorem attrs_key (h : l.Portable) {p : List Char × List Char} (hp : p ∈ l.attrs) :
    String.ofList p.1 ∉ ["src", "alt", "className", "class"] := by
  obtain ⟨i, hi, hattr⟩ := List.mem_filterMap.mp hp
  exact BlockItem.attr?_key (h.portable i hi) hattr

theorem free_trimmed (h : l.Portable) {p : List Char × List Char} (hp : p ∈ l.free) :
    Trimmed p.2 := by
  obtain ⟨i, hi, hfree⟩ := List.mem_filterMap.mp hp
  have hport := h.portable i hi
  obtain ⟨q, hq, rfl⟩ := List.mem_map.mp hi
  exact BlockItem.free?_trimmed (h.items q hq) hport hfree

end Layout

end Attribute

namespace Document

open DocumentMedia.Text DocumentMedia.Attribute

variable {l : Layout}

/-! ## Dresses -/

/-- The attributes that a layout gives to an image. -/
def dressOf (l : Layout) : Dress :=
  ⟨l.classes, strip (l.styles.head?.getD []), Assoc.ofPairs (asFields l.free)⟩

theorem dressOf_wellFormed (h : l.WellFormed) : (dressOf l).WellFormed :=
  ⟨Layout.unbroken_classes h, trimmed_strip _⟩

/-- A block dresses an image in what its layout says. -/
theorem parse_dressOf (h : l.Portable) : AttrBlock.parse (braced l.text) =
    ⟨(dressOf l).classes, (dressOf l).style, freeText l.free⟩ := by
  have hstyle : l.styles.foldl joinStyle [] = strip (l.styles.head?.getD []) := by
    have hle := h.style
    rcases hs : l.styles with _ | ⟨s, _ | ⟨s', rest⟩⟩
    · rfl
    · exact joinStyle_nil_left s
    · simp [hs] at hle
  rw [Layout.parse_text h.toWellFormed h.common,
    filter_unbroken (Layout.unbroken_classes h.toWellFormed), hstyle]
  rfl

theorem parseLoose_dressOf (h : l.WellFormed) : parseLoose (freeText l.free) = (dressOf l).free :=
  parseLoose_freeText (Layout.free_names h) (Layout.free_values h)

/-- The classes of a layout as one entry. -/
def classEntry (l : Layout) : Fields :=
  if l.classes = [] then [] else [("class", .str (String.ofList (joinWith [' '] l.classes)))]

/-- The entries of the directive that stands for an image. -/
def directiveEntries (url : List Char) (l : Layout) : Fields :=
  asFields (("src".toList, url) :: l.attrs) ++ classEntry l

theorem directiveEntries_cons (url : List Char) (l : Layout) : directiveEntries url l =
    ("src", .str (String.ofList url)) :: (asFields l.attrs ++ classEntry l) := by
  rw [directiveEntries, asFields, List.map_cons, String.ofList_toList]
  rfl

theorem attributes_directive (h : l.WellFormed) {url : List Char} (hu : IsReference url) :
    ((parseDirective (AttrBlock.writeAttr "src".toList url ++ ' ' :: l.text)).map fun (k, v) =>
      (k, Value.str v)) = Assoc.ofPairs (directiveEntries url l) := by
  have hname : IsName "src".toList := by decide
  have hclass : "src".toList ≠ "class".toList := by decide
  have hvalue : Enclosed '"' url :=
    ⟨fun hq => absurd (hu.chars _ hq).2 (by decide), fun hlast =>
      absurd (hu.chars _ (List.mem_of_getLast? hlast)).2 (by decide)⟩
  have hstraight : ∀ c ∈ url, IsStraight c := by
    intro c hc hcurly
    have hout := (hu.chars c hc).2
    simp only [List.mem_cons, List.not_mem_nil, or_false, not_or] at hcurly hout
    tauto
  have hmap (ps : List (List Char × List Char)) :
      (Layout.asTexts ps).map (fun p => (p.1, Value.str p.2)) = Assoc.ofPairs (asFields ps) := by
    rw [Layout.asTexts, Assoc.ofPairs, Assoc.map_putAll, List.map_map]
    rfl
  rw [Layout.parseDirective_text h hname hclass hvalue hstraight, directiveEntries, classEntry]
  by_cases hnil : l.classes = []
  · rw [if_pos hnil, List.append_nil, if_pos (List.isEmpty_iff.mpr hnil), ← hmap]
  · rw [if_neg hnil, if_neg (by simpa using hnil), Assoc.ofPairs, Assoc.putAll_append]
    refine (Assoc.map_putAll Value.str _
      [("class", String.ofList (joinWith [' '] l.classes))]).trans ?_
    rw [hmap]
    rfl

theorem filter_asFields (q : String → Bool) (ps : List (List Char × List Char)) :
    (asFields ps).filter (fun e => q e.1) =
      asFields (ps.filter fun p => q (String.ofList p.1)) := by
  rw [asFields, List.filter_map]
  rfl

theorem filter_classEntry (q : String → Bool) (l : Layout) :
    (classEntry l).filter (fun e => q e.1) = if q "class" then classEntry l else [] := by
  unfold classEntry
  split
  · exact (ite_self _).symm
  · rw [List.filter_singleton, Bool.cond_eq_ite]

/-- The entries of a directive under some keys: the source, attributes of the layout, classes. -/
theorem filter_directiveEntries (q : String → Bool) (url : List Char) (l : Layout) :
    (directiveEntries url l).filter (fun e => q e.1) =
      (if q "src" then [("src", .str (String.ofList url))] else []) ++
        (asFields (l.attrs.filter fun p => q (String.ofList p.1)) ++
          if q "class" then classEntry l else []) := by
  rw [directiveEntries_cons, List.filter_cons, List.filter_append, filter_asFields,
    filter_classEntry]
  split <;> rfl

theorem filter_attrs_key (h : l.Portable) {name : String}
    (hn : name ∈ ["src", "alt", "className", "class"]) :
    l.attrs.filter (fun p => String.ofList p.1 == name) = [] := by
  rw [List.filter_eq_nil_iff]
  intro p hp hkey
  exact Layout.attrs_key h hp (by rwa [beq_iff_eq.mp hkey])

section

/-! A directive may have been relinked, which puts another source behind its entries. -/

variable {url url' : List Char} {relinked : Fields}
  (hr : relinked = [] ∧ url' = url ∨ relinked = [("src", .str (String.ofList url'))])

include hr

theorem filter_relinked {q : String → Bool} (hq : q "src" = false) :
    relinked.filter (fun e => q e.1) = [] := by
  rcases hr with ⟨rfl, -⟩ | rfl
  · rfl
  · exact List.filter_cons_of_neg (by simp [hq])

theorem find?_source (h : l.Portable) :
    Assoc.find? (Assoc.ofPairs (directiveEntries url l ++ relinked)) "src" =
      some (.str (String.ofList url')) := by
  rw [Assoc.find?_ofPairs, List.filter_append, filter_directiveEntries (· == "src"),
    filter_attrs_key h (by decide)]
  rcases hr with ⟨rfl, rfl⟩ | rfl <;> rfl

theorem find?_directiveEntries {name : String} (hn : "src" ≠ name) :
    Assoc.find? (Assoc.ofPairs (directiveEntries url l ++ relinked)) name =
      ((asFields (l.attrs.filter fun p => String.ofList p.1 == name) ++
        if "class" = name then classEntry l else []).getLast?).map (·.2) := by
  have hq : ("src" == name) = false := beq_false_of_ne hn
  rw [Assoc.find?_ofPairs, List.filter_append, filter_directiveEntries (· == name),
    filter_relinked hr (q := (· == name)) hq, hq]
  simp only [Bool.false_eq_true, if_false, List.nil_append, List.append_nil, beq_iff_eq]

theorem free_directiveEntries (h : l.Portable) :
    (Assoc.ofPairs (directiveEntries url l ++ relinked)).filter
      (fun e => !ownKeys.contains e.1) = (dressOf l).free := by
  have hsource : (!ownKeys.contains "src") = false := by decide
  have hclass : (!ownKeys.contains "class") = false := by decide
  rw [Assoc.ofPairs, Assoc.filter_putAll (fun k => !ownKeys.contains k), List.filter_append,
    filter_directiveEntries (fun k => !ownKeys.contains k), Layout.filter_attrs_free h,
    filter_relinked hr (q := fun k => !ownKeys.contains k) hsource, hsource, hclass]
  simp only [Bool.false_eq_true, if_false, List.nil_append, List.append_nil]
  rfl

/-- The entries of the directive, relinked or not, carry the dress. -/
theorem carries_directiveEntries (h : l.Portable) :
    Carries (dressOf l) url' (Assoc.ofPairs (directiveEntries url l ++ relinked)) where
  src := find?_source hr h
  alt := by
    rw [find?_directiveEntries hr (by decide), filter_attrs_key h (by decide)]
    rfl
  className := by
    rw [find?_directiveEntries hr (by decide), filter_attrs_key h (by decide)]
    rfl
  cls := by
    rw [find?_directiveEntries hr (by decide), filter_attrs_key h (by decide), if_pos rfl]
    unfold classEntry
    by_cases hnil : l.classes = [] <;> simp [hnil, dressOf, asFields]
  style := by
    refine ⟨l.styles.head?, ?_, rfl⟩
    rw [find?_directiveEntries hr (by decide), Layout.filter_attrs_style]
    have hle := h.style
    rcases hs : l.styles with _ | ⟨s, _ | ⟨s', rest⟩⟩
    · rfl
    · rfl
    · simp [hs] at hle
  free := free_directiveEntries hr h
  texts := by
    intro e he
    rcases Assoc.mem_of_mem_putAll he with he | he
    · cases he
    · obtain ⟨p, hp, rfl⟩ := List.mem_map.mp he
      exact ⟨p.2, rfl, Layout.free_trimmed h hp⟩

end

theorem source_directiveEntries (url : List Char) (h : l.Portable) :
    Assoc.find? (Assoc.ofPairs (directiveEntries url l)) "src" =
      some (.str (String.ofList url)) := by
  have hnone : ([] : Fields) = [] ∧ url = url ∨
      ([] : Fields) = [("src", .str (String.ofList url))] := .inl ⟨rfl, rfl⟩
  have hsource := find?_source hnone h
  rwa [List.append_nil] at hsource

theorem dressOf_own (h : l.Portable) : ∀ k ∈ Assoc.keys (dressOf l).free, k ∉ ownKeys := by
  intro k hk
  obtain ⟨e, he, rfl⟩ := List.mem_map.mp hk
  rcases Assoc.mem_of_mem_putAll he with he | he
  · cases he
  · rw [← Layout.filter_attrs_free h, ← filter_asFields (fun k => !ownKeys.contains k)] at he
    simpa using (List.mem_filter.mp he).2

/-! ## Trees -/

def paragraphTree (content : List Node) : Node :=
  Node.root [.parent "paragraph" [] (.paragraph false) content]

/-- An image with a text right behind it. -/
def imageTree (data : Fields) (url alt block : String) : Node :=
  paragraphTree [.leaf "image" data (.image url alt none), Node.text block]

def directiveTree (data : Fields) (alt : String) (attributes : Fields) : Node :=
  paragraphTree [.leaf "textDirective" data (.directive "img" (some alt) attributes)]

theorem expand_imageTree (h : l.Portable) (videoAttrs : String) {data : Fields}
    (hdata : Assoc.find? data "hProperties" = none) (url alt : String) :
    expand videoAttrs (imageTree data url alt (String.ofList (braced l.text))) =
      paragraphTree [dressed (dressOf l) (parseLoose (if (freeText l.free).isEmpty then
        videoAttrs.toList else freeText l.free)) "image" data url (orAlt alt data url) none] := by
  have hbehind : blockBehind? [.leaf "text" [] (.text (String.ofList (braced l.text)))] =
      some ⟨(dressOf l).classes, (dressOf l).style, freeText l.free⟩ := by
    rw [blockBehind?, String.toList_ofList,
      trailingBlock?_braced (brace_notMem_text h.toWellFormed), Option.map_some, parse_dressOf h]
  rw [← finishWith_block (dressOf_wellFormed h.toWellFormed) hdata
    (parseLoose_dressOf h.toWellFormed)]
  simp only [expand, imageTree, paragraphTree, Node.root, expandDirectives, expandDirectivesAll,
    expandImages, expandImagesAll, Node.text, expandRow, hbehind, Option.isSome_some, if_true,
    Bool.false_eq_true, if_false]

theorem expand_directiveTree (h : l.Portable) {url alt : List Char} {data attributes : Fields}
    (hc : Carries (dressOf l) url attributes) (hurl : Trimmed url) (halt : Trimmed alt)
    (hkind : Sized data → isImageKind data) (hb : Beside data (dressOf l).free)
    (videoAttrs : String) :
    let alt' := orAlt (String.ofList alt) data (String.ofList url)
    expand videoAttrs (directiveTree data (String.ofList alt) attributes) =
      paragraphTree [dressed (dressOf l) (parseLoose videoAttrs.toList) "image"
        (("hProperties", .map ((dressOf l).props data alt')) :: keptMedia data) (String.ofList url)
        alt' none] := by
  intro alt'
  have hname : directiveTypes.contains "textDirective" && isMediaName "img" := by decide
  rw [← finishWith_directive (dressOf_wellFormed h.toWellFormed) hb]
  simp only [expand, directiveTree, paragraphTree, Node.root, expandDirectives, expandDirectivesAll,
    hname, if_true, expandDirective_carries hc (dressOf_wellFormed h.toWellFormed) hurl halt hkind,
    expandImages, expandImagesAll, expandRow, blockBehind?, Bool.false_eq_true, if_false]

/-- Both trees are rendered alike after expansion. The other attributes of a video are kept only
behind an image, so there must be none. -/
theorem render_expand_routes (h : l.Portable) {url alt : List Char} {data attributes : Fields}
    (hc : Carries (dressOf l) url attributes) (hurl : Trimmed url) (halt : Trimmed alt)
    (hdata : Assoc.find? data "hProperties" = none) (hkind : Sized data → isImageKind data)
    (hb : Beside data (dressOf l).free)
    (hvideo : isVideoKind data || isVideoUrl (String.ofList url) → l.free = [])
    (videoAttrs : String) :
    renderTree (expand videoAttrs (directiveTree data (String.ofList alt) attributes)) =
      renderTree (expand videoAttrs (imageTree data (String.ofList url) (String.ofList alt)
        (String.ofList (braced l.text)))) := by
  have hrender (n : Node) : renderTree (paragraphTree [n]) =
      elementText "p" [] false n.render := by
    simp only [renderTree, paragraphTree, Node.root, Node.children, Node.renderAll, Node.render,
      containerText, String.append_empty]
  have hextra {data : Fields} {alt : String}
      (hvideo : isVideoKind data || isVideoUrl (String.ofList url) → l.free = []) :
      dressed (dressOf l) (parseLoose (if (freeText l.free).isEmpty then videoAttrs.toList
        else freeText l.free)) "image" data (String.ofList url) alt none =
      dressed (dressOf l) (parseLoose videoAttrs.toList) "image" data (String.ofList url) alt
        none := by
    unfold dressed
    split
    · next hv =>
      rw [hvideo hv]
      rfl
    · rfl
  rw [expand_directiveTree h hc hurl halt hkind hb, expand_imageTree h videoAttrs hdata, hrender,
    hrender, hextra hvideo, render_dressed (mediaField_keptMedia data _)]

end Document

end DocumentMedia
