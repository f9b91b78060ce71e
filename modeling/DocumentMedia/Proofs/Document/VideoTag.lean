import DocumentMedia.Proofs.Document.VideoSlots

/-! # Videos of an expanded document

Every video of an expanded document stands in the place of a directive or of a moving picture, and
its start tag has each class name and each style text that is given for it there. The names of its
attributes differ unless a class or a style is given both in a slot of its own and among the other
attributes. -/
namespace DocumentMedia.Document

open DocumentMedia.Text DocumentMedia.Attribute DocumentMedia.Markup

/-! ## Places in the tree -/

/-- What is given for the video that stands in the place of a node with the block behind it; none if
no video does. -/
def slotsOf? (videoAttrs : List Char) : Node × Option AttrBlock → Option VideoSlots
  | (.leaf _ data (.image url _ title), behind) =>
    if isVideoKind data || isVideoUrl url then
      some (pictureSlots videoAttrs url (words (classText (givenClasses (givenProps data))).toList)
        (styleHint (givenProps data)) (titleBlock (title.getD "").toList)
        (behind.getD AttrBlock.empty))
    else none
  | (.leaf type data (.directive name label attributes), behind) =>
    let url := (DirectiveMedia.of label attributes).url
    if isDirectiveFor "video" (.leaf type data (.directive name label attributes)) then
      some (directiveSlots videoAttrs label attributes)
    else if isDirectiveFor "img" (.leaf type data (.directive name label attributes)) &&
        (isVideoKind data || isVideoUrl url) then
      some (pictureSlots videoAttrs url ((directiveClasses attributes).flatMap words)
        (directiveStyle attributes) AttrBlock.empty (behind.getD AttrBlock.empty))
    else none
  | _ => none

/-- Each video of an expanded tree, in the place of the node that it is made of, is a tag with all
that is given for it. No other markup is made. -/
inductive ShowVideos (videoAttrs : List Char) : Node × Option AttrBlock → Node → Prop where
  | video {p v markup as} (hv : slotsOf? videoAttrs p = some v) (h : v.Tag markup as) :
      ShowVideos videoAttrs p (Node.html markup)
  | leaf {type data body behind n'}
      (hv : slotsOf? videoAttrs (.leaf type data body, behind) = none)
      (h : n' = .leaf type data body ∨ n'.isImage) :
      ShowVideos videoAttrs (.leaf type data body, behind) n'
  | parent {type data body children behind children'}
      (h : List.Forall₂ (ShowVideos videoAttrs) (withBlocks false children) children') :
      ShowVideos videoAttrs (.parent type data body children, behind)
        (.parent type data body children')

/-- The attributes of a directive are a map. -/
def AttributesApart : Node → Prop
  | .leaf _ _ (.directive _ _ attributes) => (Assoc.keys attributes).Nodup
  | _ => True

theorem wellFormed_directive (videoAttrs : List Char) (label : Option String) {attributes : Fields}
    (h : (Assoc.keys attributes).Nodup) :
    (directiveSlots videoAttrs label attributes).WellFormed := by
  have hloose (v : Value) : IsLoose (asExtra v) := by
    simp only [asExtra]
    split
    · exact Or.inl rfl
    · exact Or.inr ⟨_, rfl⟩
  have hkeys : Assoc.keys (directiveFree attributes) =
      Assoc.keys (attributes.filter fun e => !ownKeys.contains e.1) := by
    simp [directiveFree, Assoc.keys, Function.comp_def]
  constructor
  · unfold directiveSlots
    dsimp only
    split
    · exact nodup_keys_parseLoose videoAttrs
    · rw [hkeys]
      exact h.sublist (List.filter_sublist.map _)
  · unfold directiveSlots
    dsimp only
    split
    · exact isLoose_parseLoose videoAttrs
    · intro e he
      obtain ⟨e', -, rfl⟩ := List.mem_map.mp he
      exact hloose e'.2

theorem wellFormed_picture (videoAttrs : List Char) (url : String) (classes : List (List Char))
    (style : String) (first last : AttrBlock) :
    (pictureSlots videoAttrs url classes style first last).WellFormed :=
  ⟨nodup_keys_parseLoose _, isLoose_parseLoose _⟩

section

variable (videoAttrs : String)

theorem directive_shows_video {type : String} {data : Fields} {name : String}
    {label : Option String} {attributes : Fields} (hkeys : (Assoc.keys attributes).Nodup)
    (hv : isDirectiveFor "video" (.leaf type data (.directive name label attributes)))
    (behind : Option AttrBlock) :
    ShowVideos videoAttrs.toList (.leaf type data (.directive name label attributes), behind)
      (passed videoAttrs (.leaf type data (.directive name label attributes))) := by
  rw [passed_video videoAttrs hv, expandDirective_slots]
  have htag := VideoSlots.tag_of_gathers (wellFormed_directive videoAttrs.toList label hkeys)
    (gathers_directive videoAttrs.toList label attributes)
  exact .video (if_pos hv) htag

theorem finished_shows_video {n : Node} {data : Fields} {url : String} {classes : List (List Char)}
    {style : String} {title : Option String} {first : AttrBlock} {behind : Option AttrBlock}
    (hm : (isVideoKind data || isVideoUrl url) = true)
    (hv : slotsOf? videoAttrs.toList (n, behind) = some (pictureSlots videoAttrs.toList url classes
      style first (behind.getD AttrBlock.empty)))
    (hfirst : titleBlock (title.getD "").toList = first)
    (hclasses : ∀ w, w ∈ words (classText (givenClasses (givenProps data))).toList ↔ w ∈ classes)
    (hstyle : styleHint (givenProps data) = style) (type alt : String) :
    ShowVideos videoAttrs.toList (n, behind)
      (finishWith videoAttrs.toList type data url alt title behind) := by
  obtain ⟨cls, style', he, hgathers⟩ :=
    finishWith_gathers hm hclasses hstyle videoAttrs.toList type alt title behind
  rw [hfirst] at he hgathers
  rw [he]
  exact .video hv (VideoSlots.tag_of_gathers (wellFormed_picture ..) hgathers)

theorem image_shows_video (type : String) (data : Fields) (url alt : String)
    (title : Option String) (behind : Option AttrBlock) :
    ShowVideos videoAttrs.toList (.leaf type data (.image url alt title), behind)
      (finishWith videoAttrs.toList type data url alt title behind) := by
  have hslots : slotsOf? videoAttrs.toList (.leaf type data (.image url alt title), behind) =
      if isVideoKind data || isVideoUrl url then
        some (pictureSlots videoAttrs.toList url
          (words (classText (givenClasses (givenProps data))).toList)
          (styleHint (givenProps data)) (titleBlock (title.getD "").toList)
          (behind.getD AttrBlock.empty))
      else none := rfl
  rcases finishWith_cases videoAttrs.toList type data url alt title behind with
    ⟨hm, -⟩ | ⟨hm, data', alt', title', he, -⟩
  · rw [hm, if_pos rfl] at hslots
    exact finished_shows_video videoAttrs hm hslots rfl (fun _ => Iff.rfl) rfl type alt
  · rw [hm, if_neg Bool.false_ne_true] at hslots
    rw [he]
    exact .leaf hslots (Or.inr rfl)

theorem slotsOf?_of_img {type : String} {data : Fields} {name : String} {label : Option String}
    {attributes : Fields}
    (h : isDirectiveFor "img" (.leaf type data (.directive name label attributes)))
    (videoAttrs : List Char) (behind : Option AttrBlock) :
    slotsOf? videoAttrs (.leaf type data (.directive name label attributes), behind) =
      if isVideoKind data || isVideoUrl (DirectiveMedia.of label attributes).url then
        some (pictureSlots videoAttrs (DirectiveMedia.of label attributes).url
          ((directiveClasses attributes).flatMap words) (directiveStyle attributes)
          AttrBlock.empty (behind.getD AttrBlock.empty))
      else none := by
  have hvideo : ¬isDirectiveFor "video" (.leaf type data (.directive name label attributes)) := by
    simp only [isDirectiveFor, Bool.and_eq_true, decide_eq_true_eq] at h ⊢
    rw [h.2]
    exact fun hvideo => absurd hvideo.2 (by decide)
  unfold slotsOf?
  dsimp only
  rw [if_neg hvideo, h, Bool.true_and]

/-- An image that is made of a directive is finished as a video with what the directive gives and
the block behind it. -/
theorem directive_picture_shows_video {type : String} {data : Fields} {name : String}
    {label : Option String} {attributes : Fields}
    (himg : isDirectiveFor "img" (.leaf type data (.directive name label attributes)))
    (behind : Option AttrBlock) :
    ShowVideos videoAttrs.toList (.leaf type data (.directive name label attributes), behind)
      (finishWith videoAttrs.toList "image"
        (("hProperties", .map (directiveProps data label attributes)) :: keptMedia data)
        (DirectiveMedia.of label attributes).url (directiveAlt data label attributes) none
        behind) := by
  obtain ⟨hcls, hstyle⟩ := given_directiveProps data label attributes
  generalize directiveProps data label attributes = props at hcls hstyle ⊢
  have hslots := slotsOf?_of_img himg videoAttrs.toList behind
  rw [← isVideoKind_keptMedia data (.map props)] at hslots
  have hgiven : givenProps (("hProperties", .map props) :: keptMedia data) = props := by
    simp [givenProps, Assoc.find?, entries_map]
  rcases finishWith_cases videoAttrs.toList "image" (("hProperties", .map props) :: keptMedia data)
      (DirectiveMedia.of label attributes).url (directiveAlt data label attributes) none
      behind with
    ⟨hm, -⟩ | ⟨hm, data', alt', title', he', -⟩
  · rw [hm, if_pos rfl] at hslots
    -- The image has no title, so nothing is given there.
    have htitle : titleBlock ((none : Option String).getD "").toList = AttrBlock.empty := by decide
    refine finished_shows_video videoAttrs hm hslots htitle ?_ ?_ "image" _
    · intro w
      rw [hgiven, hcls, cls_directiveMedia, String.toList_ofList, classList, words_joinWith_space,
        List.mem_flatMap, List.mem_flatMap]
      simp only [List.mem_eraseDups]
    · rw [hgiven, hstyle, style_directiveMedia]
  · rw [hm, if_neg Bool.false_ne_true] at hslots
    rw [he']
    exact .leaf hslots (Or.inr rfl)

/-- A picture is finished as a video with all that is given for it, or as an image. -/
theorem picture_shows_video {n : Node} (hn : isPicture n) :
    ∃ type data url alt title, passed videoAttrs n = .leaf type data (.image url alt title) ∧
      ∀ behind, ShowVideos videoAttrs.toList (n, behind)
        (finishWith videoAttrs.toList type data url alt title behind) := by
  refine finishes_of_picture videoAttrs hn ?_ ?_
  · rintro type data url alt title rfl
    exact image_shows_video videoAttrs type data url alt title
  · rintro type data name label attributes rfl himg
    exact directive_picture_shows_video videoAttrs himg

theorem slotsOf?_of_plain {type : String} {data : Fields} {body : Leaf}
    (hp : ¬isPicture (.leaf type data body)) (hv : ¬isDirectiveFor "video" (.leaf type data body))
    (videoAttrs : List Char) (behind : Option AttrBlock) :
    slotsOf? videoAttrs (.leaf type data body, behind) = none := by
  cases body with
  | image => exact absurd rfl hp
  | directive name label attributes =>
    have himg : ¬isDirectiveFor "img" (.leaf type data (.directive name label attributes)) :=
      fun h => hp (Bool.or_eq_true_iff.mpr (Or.inr h))
    unfold slotsOf?
    dsimp only
    rw [if_neg hv, if_neg]
    exact fun h => himg (Bool.and_eq_true_iff.mp h).1
  | _ => rfl

theorem leaf_shows_video {type : String} {data : Fields} {body : Leaf}
    (hd : AttributesApart (.leaf type data body)) (hp : ¬isPicture (.leaf type data body)) :
    ShowVideos videoAttrs.toList (.leaf type data body, none)
      (passed videoAttrs (.leaf type data body)) := by
  by_cases hv : isDirectiveFor "video" (.leaf type data body)
  · cases body with
    | directive => exact directive_shows_video videoAttrs hd hv none
    | _ => cases hv
  · -- No media stand here, and all else stays as it is.
    refine .leaf (slotsOf?_of_plain hp hv _ _) (Or.inl ?_)
    have hbecomes := leaf_becomes videoAttrs hp
    generalize passed videoAttrs (.leaf type data body) = n' at hbecomes
    cases hbecomes with
    | video hvideo => exact absurd hvideo hv
    | moving hpicture => exact absurd hpicture hp
    | directive himg => exact absurd (Bool.or_eq_true_iff.mpr (Or.inr himg)) hp
    | image => exact absurd rfl hp
    | leaf => rfl

mutual

theorem passed_shows_videos : ∀ n : Node, n.Throughout AttributesApart → ¬isPicture n →
    ShowVideos videoAttrs.toList (n, none) (passed videoAttrs n)
  | .leaf _ _ _, hd, hp => leaf_shows_video videoAttrs hd hp
  | .parent _ _ _ children, hd, _ => by
    rw [passed_parent]
    exact .parent (row_of_siblings videoAttrs
      (fun _ _ hp => picture_shows_video videoAttrs hp)
      (passedAll_show_videos children hd.2) false)

theorem passedAll_show_videos : ∀ ns : List Node, Node.ThroughoutAll AttributesApart ns →
    ∀ n ∈ ns, ¬isPicture n → ShowVideos videoAttrs.toList (n, none) (passed videoAttrs n)
  | [], _ => nofun
  | n :: ns, hd => List.forall_mem_cons.mpr
    ⟨passed_shows_videos n hd.1, passedAll_show_videos ns hd.2⟩

end

/-- Every video of an expanded tree is a tag with each class name and each style text that is given
for it. Its attributes have distinct names unless a class or a style that is given in a slot of its
own is also named among the other attributes, be it by an author or by the defaults. -/
theorem videos_show_slots (type : String) (data : Fields) (body : Container)
    (children : List Node) (hd : (Node.parent type data body children).Throughout AttributesApart) :
    ShowVideos videoAttrs.toList (.parent type data body children, none)
      (expand videoAttrs (.parent type data body children)) :=
  passed_shows_videos videoAttrs _ hd nofun

end

/-- A paragraph that holds a clip with a title. -/
def clipTree (title : String) : Node :=
  Node.root [.parent "paragraph" [] (.paragraph false)
    [.leaf "image" [] (.image "clip.mp4" "" (some title))]]

theorem videos_show_slots_sample :
    (clipTree "\x7b.a style=\"top:0\" attrs=\"loop\"\x7d").Throughout AttributesApart ∧
      ShowVideos defaultVideoAttrs.toList
        (clipTree "\x7b.a style=\"top:0\" attrs=\"loop\"\x7d", none)
        (expand defaultVideoAttrs (clipTree "\x7b.a style=\"top:0\" attrs=\"loop\"\x7d")) ∧
      Markup.read (expand defaultVideoAttrs
          (clipTree "\x7b.a style=\"top:0\" attrs=\"loop\"\x7d")).render =
        some (.start "p" [] ::
          .start "video" [("class", some "a"), ("style", some "top:0"), ("loop", none)] ::
            (videoInner "clip.mp4" ++ [.close "p", .char '\n'])) := by
  have hapart : (clipTree "\x7b.a style=\"top:0\" attrs=\"loop\"\x7d").Throughout AttributesApart :=
    ⟨trivial, ⟨trivial, trivial, trivial⟩, trivial⟩
  exact ⟨hapart, videos_show_slots defaultVideoAttrs _ _ _ _ hapart, by decide +kernel⟩

/-- A class among the attributes of a block, or among the defaults, makes a second attribute of the
same name. -/
theorem class_is_written_twice :
    (∃ as inner, Markup.read (expand defaultVideoAttrs
        (clipTree "\x7b.a attrs=\"class=b\"\x7d")).render =
          some (.start "p" [] :: .start "video" as :: inner) ∧ ¬(as.map (·.1)).Nodup) ∧
    ∃ as inner, Markup.read (expand "controls class=player"
        (Node.root [.leaf "leafDirective" [] (.directive "video" none
          [("src", .str "clip.mp4"), ("class", .str "wide")])])).render =
          some (.start "video" as :: inner) ∧ ¬(as.map (·.1)).Nodup := by
  refine ⟨⟨[("class", some "a"), ("class", some "b")],
    videoInner "clip.mp4" ++ [.close "p", .char '\n'], ?_, ?_⟩,
    ⟨[("class", some "wide"), ("controls", none), ("class", some "player")],
      videoInner "clip.mp4", ?_, ?_⟩⟩ <;> decide +kernel

end DocumentMedia.Document
