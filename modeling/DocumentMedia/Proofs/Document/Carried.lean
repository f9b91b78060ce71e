import DocumentMedia.Proofs.Document.Siblings

/-! # What directives for images hand on

A directive for an image goes through both passes of an expansion: it becomes an image with
properties, and the image is finished with the block behind it. An image ends with each attribute of
its directive, unless the block or the known size of the picture has another value for it. A video
takes its attributes from the block or from the defaults; those of the directive are dropped. -/
namespace DocumentMedia

namespace Value

/-- Entries that are dropped for their key are not missed under other keys. -/
theorem under?_filter_ne (es : List (Value × Value)) {key name : String} (h : key ≠ name) :
    under? (es.filter fun e => !e.1.sameKey (.str key)) name = under? es name := by
  induction es with
  | nil => rfl
  | cons e es ih =>
    obtain ⟨k, w⟩ := e
    rw [List.filter_cons]
    split
    · rw [under?_cons, under?_cons, ih]
    · next hk =>
      have hkey : k = .str key := eq_of_sameKey_str (by simpa using hk)
      rw [under?_cons, ih, if_neg]
      rw [hkey]
      simp [sameKey, h]

end Value

namespace Document

open DocumentMedia.Text DocumentMedia.Attribute

/-! ## Properties -/

/-- The last value that attributes give to a key. -/
def lastUnder? (extra : Fields) (key : String) : Option Value :=
  (extra.filter fun e => e.1 == key).getLast?.map (·.2)

theorem lastUnder?_cons (e : String × Value) (es : Fields) (key : String) :
    lastUnder? (e :: es) key =
      (lastUnder? es key).or (if e.1 = key then some e.2 else none) := by
  unfold lastUnder?
  by_cases h : e.1 = key
  · rw [List.filter_cons_of_pos (by simpa using h), List.getLast?_cons, if_pos h]
    cases (es.filter fun e => e.1 == key).getLast? <;> rfl
  · rw [List.filter_cons_of_neg (by simpa using h), if_neg h, Option.or_none]

theorem under?_putProps_last (props : List (Value × Value)) (extra : Fields) (key : String) :
    Value.under? (putProps props extra) key =
      ((lastUnder? extra key).map asProperty).or (Value.under? props key) := by
  induction extra generalizing props with
  | nil => rfl
  | cons e es ih =>
    have hstep := ih (Value.putEntry props (.str e.1) (asProperty e.2))
    rw [Value.under?_putEntry] at hstep
    rw [lastUnder?_cons, putProps, List.foldl_cons]
    refine hstep.trans ?_
    by_cases h : e.1 = key <;> cases lastUnder? es key <;> simp [h]

/-- Distinct keys have one value each, their last. -/
theorem lastUnder?_of_mem {extra : Fields} (hn : (Assoc.keys extra).Nodup) {key : String}
    {v : Value} (h : (key, v) ∈ extra) : lastUnder? extra key = some v := by
  induction extra with
  | nil => cases h
  | cons e es ih =>
    simp only [Assoc.keys, List.map_cons, List.nodup_cons] at hn
    rw [lastUnder?_cons]
    rcases List.mem_cons.mp h with rfl | h
    · have hnone : lastUnder? es key = none := by
        unfold lastUnder?
        rw [List.filter_eq_nil_iff.mpr]
        · rfl
        · intro e he hk
          exact hn.1 (List.mem_map.mpr ⟨e, he, by simpa using hk⟩)
      rw [hnone, if_pos rfl]
      rfl
    · rw [ih hn.2 h]
      rfl

/-- The dimension of a picture that is known under a key, if the size is known. -/
def knownSize? (data : Fields) (key : String) : Option Value :=
  if Sized data ∧ key ∈ ["width", "height"] then some (mediaField data key) else none

theorem under?_putSize_known (props : List (Value × Value)) (data : Fields) (key : String) :
    Value.under? (putSize props data) key = (knownSize? data key).or (Value.under? props key) := by
  unfold knownSize?
  by_cases hs : Sized data
  · rw [putSize_of_sized hs, Value.under?_putEntry, Value.under?_putEntry]
    by_cases hh : key = "height"
    · subst hh
      simp [hs]
    · by_cases hw : key = "width"
      · subst hw
        simp [hs]
      · simp [hh, hw, Ne.symm hh, Ne.symm hw]
  · rw [putSize_of_not_sized hs]
    simp [hs]

/-! ## Attributes of directives -/

/-- An attribute of a directive as its author gave it, in normal form: a text, which is empty for a
bare key. -/
def authored (v : Value) : String := styleText (Attribute.normalize v)

theorem asProperty_asExtra_authored (v : Value) : asProperty (asExtra v) = .str (authored v) := by
  simp only [asExtra, authored]
  split
  · next h => rw [String.isEmpty_iff.mp h]; rfl
  · rfl

theorem authored_str {s : List Char} (h : Trimmed s) :
    authored (.str (String.ofList s)) = String.ofList s := by
  rw [authored, normalize_str, styleText, stripped_ofList, h.strip]

theorem extra_directiveMedia (label : Option String) (attributes : Fields) :
    (DirectiveMedia.of label attributes).extra =
      (attributes.filter fun e => !ownKeys.contains e.1).map fun e => (e.1, asExtra e.2) :=
  congrArg DirectiveMedia.extra (directiveMedia_eq label attributes)

theorem lastUnder?_extra {label : Option String} {attributes : Fields}
    (hn : (Assoc.keys attributes).Nodup) {key : String} {v : Value} (hv : (key, v) ∈ attributes)
    (hk : key ∉ ownKeys) :
    lastUnder? (DirectiveMedia.of label attributes).extra key = some (asExtra v) := by
  rw [extra_directiveMedia]
  have hkeys : Assoc.keys ((attributes.filter fun e => !ownKeys.contains e.1).map fun e =>
      (e.1, asExtra e.2)) = Assoc.keys (attributes.filter fun e => !ownKeys.contains e.1) := by
    simp [Assoc.keys, Function.comp_def]
  refine lastUnder?_of_mem ?_ ?_
  · rw [hkeys]
    exact hn.sublist (List.filter_sublist.map _)
  · refine List.mem_map.mpr ⟨(key, v), List.mem_filter.mpr ⟨hv, ?_⟩, rfl⟩
    simpa using hk

theorem under?_directiveProps (data : Fields) (label : Option String) {attributes : Fields}
    (hn : (Assoc.keys attributes).Nodup) {key : String} {v : Value} (hv : (key, v) ∈ attributes)
    (hk : key ∉ ownKeys) :
    Value.under? (directiveProps data label attributes) key = some (.str (authored v)) := by
  rw [directiveProps, under?_putProps_last, lastUnder?_extra hn hv hk, Option.map_some,
    asProperty_asExtra_authored]
  rfl

/-! ## Finished images -/

/-- The attributes that a video takes: those of its block, or else the defaults. -/
def videoExtras (videoAttrs : List Char) (block : AttrBlock) : Fields :=
  parseLoose (if block.freeform.isEmpty then videoAttrs else block.freeform)

/-- What a property is after an image was finished with a block. -/
def finalValue? (data : Fields) (block : AttrBlock) (props : List (Value × Value)) (key : String) :
    Option Value :=
  ((lastUnder? (parseLoose block.freeform) key).map asProperty).or
    ((knownSize? data key).or (Value.under? props key))

theorem finishImage_props {data : Fields} {props : List (Value × Value)}
    (hdata : Assoc.find? data "hProperties" = some (.map props)) (videoAttrs : List Char)
    (type url alt : String) (title : Option String) (block : AttrBlock) :
    ((isVideoKind data || isVideoUrl url) = true ∧ ∃ cls style,
      finishImage videoAttrs type data url alt title block =
        Node.html (videoMarkup url cls style (videoExtras videoAttrs block))) ∨
    ((isVideoKind data || isVideoUrl url) = false ∧ ∃ data' alt' props',
      finishImage videoAttrs type data url alt title block =
        .leaf type data' (.image url alt' title) ∧
      Assoc.find? data' "hProperties" = some (.map props') ∧
      ∀ key ∉ ownKeys, Value.under? props' key = finalValue? data block props key) := by
  have hgiven : givenProps data = props := by simp [givenProps, hdata, entries_map]
  unfold finishImage
  rw [hgiven]
  dsimp only
  split
  · next hv => exact Or.inl ⟨hv, _, _, rfl⟩
  · next hv =>
    refine Or.inr ⟨(Bool.not_eq_true _).mp hv, _, _, _, rfl,
      (Assoc.find?_put ..).trans (if_pos (beq_self_eq_true _)), ?_⟩
    intro key hk
    have hne (name : String) (hname : name ∈ ownKeys) : name ≠ key := by
      rintro rfl
      exact hk hname
    rw [under?_putProps_last, under?_putSize_known,
      under?_putText_ne _ _ _ _ (hne "style" (by decide)),
      under?_putText_ne _ _ _ _ (hne "class" (by decide)), Value.under?_putEntry,
      if_neg (hne "alt" (by decide)), Value.under?_filter_ne _ (hne "className" (by decide))]
    rfl

theorem isVideoKind_keptMedia (data : Fields) (v : Value) :
    isVideoKind (("hProperties", v) :: keptMedia data) = isVideoKind data := by
  simp only [isVideoKind, mediaField_keptMedia data v]

theorem knownSize?_keptMedia (data : Fields) (v : Value) (key : String) :
    knownSize? (("hProperties", v) :: keptMedia data) key = knownSize? data key := by
  have hfield := mediaField_keptMedia data v
  have hsized : Sized (("hProperties", v) :: keptMedia data) ↔ Sized data := by
    simp only [Sized, hfield]
  by_cases h : Sized data ∧ key ∈ ["width", "height"]
  · rw [knownSize?, if_pos ⟨hsized.mpr h.1, h.2⟩, knownSize?, if_pos h, hfield]
  · rw [knownSize?, if_neg fun k => h ⟨hsized.mp k.1, k.2⟩, knownSize?, if_neg h]

theorem freeform_merge_empty (block : AttrBlock) :
    (AttrBlock.empty.merge block).freeform = block.freeform := by
  unfold AttrBlock.merge AttrBlock.empty
  dsimp only
  split
  · next h => exact (List.isEmpty_iff.mp h).symm
  · rfl

/-! ## Places in the tree -/

/-- What stands in the place of a directive for an image with the block behind it: markup of a
video, or an image with the attributes of the directive. -/
inductive HandsOn (videoAttrs : List Char) (block : AttrBlock) (data : Fields)
    (label : Option String) (attributes : Fields) : Node → Prop where
  | video (cls style)
      (hm : (isVideoKind data || isVideoUrl (DirectiveMedia.of label attributes).url) = true) :
      HandsOn videoAttrs block data label attributes (Node.html (videoMarkup
        (DirectiveMedia.of label attributes).url cls style (videoExtras videoAttrs block)))
  | image (data' alt props)
      (hm : (isVideoKind data || isVideoUrl (DirectiveMedia.of label attributes).url) = false)
      (hprops : Assoc.find? data' "hProperties" = some (.map props))
      (hkept : (Assoc.keys attributes).Nodup → ∀ key v, (key, v) ∈ attributes → key ∉ ownKeys →
        Value.under? props key = some (((lastUnder? (parseLoose block.freeform) key).map
          asProperty).getD ((knownSize? data key).getD (.str (authored v))))) :
      HandsOn videoAttrs block data label attributes
        (.leaf "image" data' (.image (DirectiveMedia.of label attributes).url alt none))

theorem handsOn_finished (videoAttrs : String) (data : Fields) (label : Option String)
    (attributes : Fields) (behind : Option AttrBlock) :
    HandsOn videoAttrs.toList (behind.getD AttrBlock.empty) data label attributes
      (finishWith videoAttrs.toList "image"
        (("hProperties", .map (directiveProps data label attributes)) :: keptMedia data)
        (DirectiveMedia.of label attributes).url (directiveAlt data label attributes) none
        behind) := by
  have hgiven : Assoc.find?
      (("hProperties", .map (directiveProps data label attributes)) :: keptMedia data)
      "hProperties" = some (.map (directiveProps data label attributes)) := rfl
  have hfree := freeform_merge_empty (behind.getD AttrBlock.empty)
  rw [finishWith, takeTitle_none]
  dsimp only
  rcases finishImage_props hgiven videoAttrs.toList "image" (DirectiveMedia.of label attributes).url
      (directiveAlt data label attributes) none
      (AttrBlock.empty.merge (behind.getD AttrBlock.empty)) with
    ⟨hm, cls, style, hfinal⟩ | ⟨hm, data', alt', props', hfinal, hdata', hkeys⟩
  · rw [isVideoKind_keptMedia] at hm
    rw [hfinal]
    have hextras : videoExtras videoAttrs.toList
        (AttrBlock.empty.merge (behind.getD AttrBlock.empty)) =
          videoExtras videoAttrs.toList (behind.getD AttrBlock.empty) := by
      rw [videoExtras, videoExtras, hfree]
    rw [hextras]
    exact .video cls style hm
  · rw [isVideoKind_keptMedia] at hm
    rw [hfinal]
    refine .image data' alt' props' hm hdata' ?_
    intro hn key v hv hk
    rw [hkeys key hk, finalValue?, hfree, knownSize?_keptMedia,
      under?_directiveProps data label hn hv hk]
    cases lastUnder? (parseLoose (behind.getD AttrBlock.empty).freeform) key <;>
      cases knownSize? data key <;> rfl

/-- What stands in the places of the directives for images of a tree, at any depth. -/
inductive HandOn (videoAttrs : List Char) : Node × Option AttrBlock → Node → Prop where
  | directive {type data name label attributes block n'}
      (hn : isDirectiveFor "img" (.leaf type data (.directive name label attributes)))
      (h : HandsOn videoAttrs (block.getD AttrBlock.empty) data label attributes n') :
      HandOn videoAttrs (.leaf type data (.directive name label attributes), block) n'
  | leaf {type data body block n'} (hn : ¬isDirectiveFor "img" (.leaf type data body)) :
      HandOn videoAttrs (.leaf type data body, block) n'
  | parent {type data body children block children'}
      (h : List.Forall₂ (HandOn videoAttrs) (withBlocks false children) children') :
      HandOn videoAttrs (.parent type data body children, block) (.parent type data body children')

section

variable (videoAttrs : String)

theorem picture_hands_on {n : Node} (hp : isPicture n) :
    ∃ type data url alt title, passed videoAttrs n = .leaf type data (.image url alt title) ∧
      ∀ behind, HandOn videoAttrs.toList (n, behind)
        (finishWith videoAttrs.toList type data url alt title behind) := by
  refine finishes_of_picture videoAttrs hp ?_ ?_
  · rintro type data url alt title rfl behind
    exact .leaf nofun
  · rintro type data name label attributes rfl himg behind
    exact .directive himg (handsOn_finished videoAttrs data label attributes behind)

mutual

theorem passed_hands_on : ∀ n : Node, ¬isPicture n →
    HandOn videoAttrs.toList (n, none) (passed videoAttrs n)
  | .leaf _ _ _, hp => .leaf fun himg => hp (Bool.or_eq_true_iff.mpr (Or.inr himg))
  | .parent type data body children, _ => by
    rw [passed_parent]
    exact .parent (row_of_siblings videoAttrs (fun _ _ hp => picture_hands_on videoAttrs hp)
      (passedAll_hands_on children) false)

theorem passedAll_hands_on : ∀ ns : List Node, ∀ n ∈ ns, ¬isPicture n →
    HandOn videoAttrs.toList (n, none) (passed videoAttrs n)
  | [] => nofun
  | n :: ns => List.forall_mem_cons.mpr ⟨passed_hands_on n, passedAll_hands_on ns⟩

end

end

/-- Expansion puts an image with the attributes of the directive, but for those to which its block
or the known size gives another value, or a video without them, in the place of each directive for
an image. A text with no blanks around it is handed on as it was given. -/
theorem directives_hand_on (videoAttrs type : String) (data : Fields) (body : Container)
    (children : List Node) :
    HandOn videoAttrs.toList (.parent type data body children, none)
        (expand videoAttrs (.parent type data body children)) ∧
      ∀ s, Trimmed s → authored (.str (String.ofList s)) = String.ofList s :=
  ⟨passed_hands_on videoAttrs _ nofun, fun _ => authored_str⟩

/-- A document that is one directive for an image. -/
def pictureTree (data attributes : Fields) : Node :=
  Node.root [.leaf "leafDirective" data (.directive "img" none attributes)]

/-- A flag of a directive that becomes a video is lost, and a width of a directive whose picture has
a known size is overridden. -/
theorem directive_attributes_lost :
    (expand defaultVideoAttrs
      (pictureTree [] [("src", .str "clip.mp4"), ("loop", .str "")])).render =
        videoMarkup "clip.mp4" "" ""
          [("controls", .bool true), ("playsinline", .bool true), ("muted", .bool true)] ∧
    ((expand defaultVideoAttrs (pictureTree
        [("media", .media ⟨"image", ".png", some 640, some 480, some "a.png"⟩)]
        [("src", .str "a.png"), ("width", .str "320")])).children.map fun n =>
          (n.type, (Value.under? (shownProps n.data) "width").map Value.display)) =
      [("image", some "640")] := by
  decide +kernel

end Document

end DocumentMedia
