import DocumentMedia.Proofs.Document.Dress

/-! # Siblings of an expanded document

Expansion makes one node of each child of a parent, in the order of the children. Only texts that
are attribute blocks right behind an image are dropped, and only media are changed. -/
namespace DocumentMedia.Document

open DocumentMedia.Text DocumentMedia.Attribute

/-! ## What becomes of a node -/

/-- A directive that stands for media under a name. -/
def isDirectiveFor (media : String) : Node → Bool
  | .leaf type _ (.directive name ..) => directiveTypes.contains type && name = media
  | _ => false

/-- An image, or a directive for one: a block right behind it belongs to it. -/
def isPicture (n : Node) : Bool := n.isImage || isDirectiveFor "img" n

/-- A picture that is shown as a video, because of its media record or of its address. -/
def isMoving : Node → Bool
  | .leaf _ data (.image url ..) => isVideoKind data || isVideoUrl url
  | .leaf _ data (.directive _ label attributes) =>
    isVideoKind data || isVideoUrl (DirectiveMedia.of label attributes).url
  | _ => false

/-- The siblings without the blocks right behind pictures; `behind` says whether the sibling before
them is a picture. -/
def unclaimed (behind : Bool) : List Node → List Node
  | [] => []
  | n :: ns =>
    let rest := unclaimed (isPicture n) ns
    if behind && isBlockText n then rest else n :: rest

/-- The siblings that stay, each with the block that it takes. -/
def withBlocks (behind : Bool) : List Node → List (Node × Option AttrBlock)
  | [] => []
  | n :: ns =>
    let rest := withBlocks (isPicture n) ns
    if behind && isBlockText n then rest
    else (n, if isPicture n then blockBehind? ns else none) :: rest

theorem map_withBlocks (behind : Bool) (ns : List Node) :
    (withBlocks behind ns).map (·.1) = unclaimed behind ns := by
  induction ns generalizing behind with
  | nil => rfl
  | cons n ns ih =>
    simp only [withBlocks, unclaimed]
    split
    · exact ih _
    · rw [List.map_cons, ih]

/-- What stays of an image: all data but its properties, a text that is not blank, and a title that
is no block. -/
structure StaysImage (data data' : Fields) (alt alt' : String) (title title' : Option String) :
    Prop where
  data : ∀ key ≠ "hProperties", Assoc.find? data' key = Assoc.find? data key
  alt : isAllBlank alt.toList = false → alt' = alt
  title : title' = if (titleBlock (title.getD "").toList).isEmpty then title else none

/-- What stands in an expanded tree in the place of a node. Only media change; a parent has one node
for each child that is not claimed. -/
inductive Becomes : Node → Node → Prop where
  | video {n markup} (hn : isDirectiveFor "video" n) : Becomes n (Node.html markup)
  | moving {n markup} (hn : isPicture n) (hm : isMoving n) : Becomes n (Node.html markup)
  | directive {type data name label attributes data' alt}
      (hn : isDirectiveFor "img" (.leaf type data (.directive name label attributes)))
      (hm : ¬isMoving (.leaf type data (.directive name label attributes)))
      (hmedia : Assoc.find? data' "media" = Assoc.find? data "media") :
      Becomes (.leaf type data (.directive name label attributes))
        (.leaf "image" data' (.image (DirectiveMedia.of label attributes).url alt none))
  | image {type data url alt title data' alt' title'}
      (hm : ¬isMoving (.leaf type data (.image url alt title)))
      (hs : StaysImage data data' alt alt' title title') :
      Becomes (.leaf type data (.image url alt title)) (.leaf type data' (.image url alt' title'))
  | leaf {type data body} (hp : ¬isPicture (.leaf type data body))
      (hv : ¬isDirectiveFor "video" (.leaf type data body)) :
      Becomes (.leaf type data body) (.leaf type data body)
  | parent {type data body children children'}
      (h : List.Forall₂ Becomes (unclaimed false children) children') :
      Becomes (.parent type data body children) (.parent type data body children')

/-! ## Pictures -/

/-- A finished image is markup exactly when it is moving, and else it is the same image. -/
theorem finishWith_cases (videoAttrs : List Char) (type : String) (data : Fields)
    (url alt : String) (title : Option String) (behind : Option AttrBlock) :
    ((isVideoKind data || isVideoUrl url) = true ∧
        ∃ markup, finishWith videoAttrs type data url alt title behind = Node.html markup) ∨
      ((isVideoKind data || isVideoUrl url) = false ∧
        ∃ data' alt' title', finishWith videoAttrs type data url alt title behind =
          .leaf type data' (.image url alt' title') ∧
            StaysImage data data' alt alt' title title') := by
  simp only [finishWith, finishImage]
  split
  · next hv => exact Or.inl ⟨hv, _, rfl⟩
  · next hv =>
    refine Or.inr ⟨(Bool.not_eq_true _).mp hv, _, _, _, rfl, ⟨?_, ?_, ?_⟩⟩
    · intro key hkey
      rw [Assoc.find?_put, if_neg]
      simpa using hkey.symm
    · intro halt
      simp [orAlt, halt]
    · unfold takeTitle
      dsimp only
      split <;> rfl

section

variable (videoAttrs : String)

/-- A node after both passes, but for the finish that its parent gives it. -/
def passed (n : Node) : Node :=
  expandImages videoAttrs.toList (expandDirectives (parseLoose videoAttrs.toList) n)

theorem passed_image (type : String) (data : Fields) (url alt : String) (title : Option String) :
    passed videoAttrs (.leaf type data (.image url alt title)) =
      .leaf type data (.image url alt title) := rfl

theorem passed_directive {type media : String} (data : Fields) {name : String}
    (label : Option String) (attributes : Fields) (hmedia : isMediaName media)
    (hn : isDirectiveFor media (.leaf type data (.directive name label attributes))) :
    passed videoAttrs (.leaf type data (.directive name label attributes)) =
      expandImages videoAttrs.toList
        (expandDirective (parseLoose videoAttrs.toList) data media label attributes) := by
  simp only [isDirectiveFor, Bool.and_eq_true, decide_eq_true_eq] at hn
  obtain ⟨htype, rfl⟩ := hn
  unfold passed expandDirectives
  dsimp only
  rw [if_pos (by rw [htype, hmedia]; rfl)]

section

variable {type name : String} {data attributes : Fields} {label : Option String}

theorem passed_video
    (hv : isDirectiveFor "video" (.leaf type data (.directive name label attributes))) :
    passed videoAttrs (.leaf type data (.directive name label attributes)) =
      expandDirective (parseLoose videoAttrs.toList) data "video" label attributes := by
  rw [passed_directive videoAttrs data label attributes (by decide) hv, expandDirective_video]
  rfl

theorem passed_img
    (himg : isDirectiveFor "img" (.leaf type data (.directive name label attributes))) :
    passed videoAttrs (.leaf type data (.directive name label attributes)) =
      .leaf "image" (("hProperties", .map (directiveProps data label attributes)) :: keptMedia data)
        (.image (DirectiveMedia.of label attributes).url (directiveAlt data label attributes)
          none) := by
  rw [passed_directive videoAttrs data label attributes (by decide) himg,
    expandDirective_image data label attributes _ (by decide)]
  rfl

end

/-- Before it is finished a picture is an image: itself, or the one that replaced a directive. So
what it is finished as is shown for these two. -/
theorem finishes_of_picture {n : Node} (hn : isPicture n) {R : Option AttrBlock → Node → Prop}
    (himage : ∀ {type data url alt title}, n = .leaf type data (.image url alt title) →
      ∀ behind, R behind (finishWith videoAttrs.toList type data url alt title behind))
    (hdirective : ∀ {type data name label attributes},
      n = .leaf type data (.directive name label attributes) → isDirectiveFor "img" n →
      ∀ behind, R behind (finishWith videoAttrs.toList "image"
        (("hProperties", .map (directiveProps data label attributes)) :: keptMedia data)
        (DirectiveMedia.of label attributes).url (directiveAlt data label attributes) none
        behind)) :
    ∃ type data url alt title, passed videoAttrs n = .leaf type data (.image url alt title) ∧
      ∀ behind, R behind (finishWith videoAttrs.toList type data url alt title behind) := by
  unfold isPicture at hn
  rw [Bool.or_eq_true] at hn
  cases n with
  | parent => rcases hn with hn | hn <;> cases hn
  | leaf type data body =>
    cases body with
    | image url alt title => exact ⟨type, data, url, alt, title, passed_image .., himage rfl⟩
    | directive name label attributes =>
      have himg : isDirectiveFor "img" (.leaf type data (.directive name label attributes)) :=
        hn.resolve_left (by simp [Node.isImage])
      exact ⟨_, _, _, _, _, passed_img videoAttrs himg, hdirective rfl himg⟩
    | _ => rcases hn with hn | hn <;> cases hn

/-- Finishing makes of an image what it is to become. -/
theorem image_becomes (type : String) (data : Fields) (url alt : String) (title : Option String)
    (behind : Option AttrBlock) :
    Becomes (.leaf type data (.image url alt title))
      (finishWith videoAttrs.toList type data url alt title behind) := by
  rcases finishWith_cases videoAttrs.toList type data url alt title behind with
    ⟨hm, markup, he⟩ | ⟨hm, data', alt', title', he, hs⟩
  · rw [he]
    exact Becomes.moving rfl hm
  · rw [he]
    exact Becomes.image ((Bool.not_eq_true _).mpr hm) hs

/-- Finishing makes of the image that replaced a directive what the directive is to become. -/
theorem directive_becomes {type : String} {data : Fields} {name : String} {label : Option String}
    {attributes : Fields}
    (himg : isDirectiveFor "img" (.leaf type data (.directive name label attributes)))
    (props : Value) (alt : String) (behind : Option AttrBlock) :
    Becomes (.leaf type data (.directive name label attributes))
      (finishWith videoAttrs.toList "image" (("hProperties", props) :: keptMedia data)
        (DirectiveMedia.of label attributes).url alt none behind) := by
  have hkind : isVideoKind (("hProperties", props) :: keptMedia data) = isVideoKind data := by
    simp only [isVideoKind, mediaField_keptMedia]
  rcases finishWith_cases videoAttrs.toList "image" (("hProperties", props) :: keptMedia data)
      (DirectiveMedia.of label attributes).url alt none behind with
    ⟨hm, markup, he⟩ | ⟨hm, data', alt', title', he, hs⟩
  · rw [he]
    rw [hkind] at hm
    exact Becomes.moving (by simp [isPicture, himg]) hm
  · rw [he]
    rw [hkind] at hm
    -- A title that is missing holds no block.
    have htitle : title' = none := by
      rw [hs.title]
      split <;> rfl
    have hmedia : Assoc.find? data' "media" = Assoc.find? data "media" := by
      rw [hs.data "media" (by decide)]
      unfold keptMedia
      cases h : Assoc.find? data "media" <;> simp [Assoc.find?]
    rw [htitle]
    exact Becomes.directive himg ((Bool.not_eq_true _).mpr hm) hmedia

/-- Before it is finished a picture is an image, and finishing makes of it what it is to become. -/
theorem picture_finishes {n : Node} (hn : isPicture n) :
    ∃ type data url alt title, passed videoAttrs n = .leaf type data (.image url alt title) ∧
      ∀ behind, Becomes n (finishWith videoAttrs.toList type data url alt title behind) := by
  refine finishes_of_picture videoAttrs hn ?_ ?_
  · rintro type data url alt title rfl
    exact image_becomes videoAttrs type data url alt title
  · rintro type data name label attributes rfl himg
    exact directive_becomes videoAttrs himg _ _

/-! ## Rows -/

/-- Whether a row begins with a text that would be a block behind an image. -/
def startsWithBlock : List Node → Bool
  | [] => false
  | n :: _ => isBlockText n

theorem isText_passed (n : Node) : (passed videoAttrs n).isText = n.isText := by
  unfold passed
  rw [isText_expandImages, isText_expandDirectives]

theorem passed_of_isText {n : Node} (h : n.isText) : passed videoAttrs n = n := by
  unfold Node.isText at h
  split at h
  · rfl
  · cases h

theorem blockBehind?_passed (ns : List Node) :
    blockBehind? (ns.map (passed videoAttrs)) = blockBehind? ns := by
  have hnone {m : Node} {ms : List Node} (hm : m.isText = false) :
      blockBehind? (m :: ms) = none := by
    unfold blockBehind?
    split
    · next he => cases he; cases hm
    · rfl
  cases ns with
  | nil => rfl
  | cons n ns =>
    cases ht : n.isText with
    | true =>
      rw [List.map_cons, passed_of_isText videoAttrs ht]
      unfold Node.isText at ht
      split at ht
      · rfl
      · cases ht
    | false => rw [List.map_cons, hnone ht, hnone ((isText_passed videoAttrs n).trans ht)]

theorem isSome_blockBehind? (ns : List Node) : (blockBehind? ns).isSome = startsWithBlock ns := by
  cases ns with
  | nil => rfl
  | cons n ns =>
    unfold blockBehind?
    split
    · next he => cases he; simp [startsWithBlock, isBlockText]
    · next hne =>
      cases hb : startsWithBlock (n :: ns) with
      | false => rfl
      | true =>
        have ht := isText_of_isBlockText hb
        unfold Node.isText at ht
        split at ht
        · exact absurd rfl (hne _ _ _ _)
        · cases ht

theorem not_picture_of_isBlockText {n : Node} (h : isBlockText n) : isPicture n = false := by
  have ht := isText_of_isBlockText h
  unfold Node.isText at ht
  split at ht
  · rfl
  · cases ht

theorem isDirectiveFor_of_media {type name : String} (data : Fields) (label : Option String)
    (attributes : Fields) (h : (directiveTypes.contains type && isMediaName name) = true) :
    isDirectiveFor "img" (.leaf type data (.directive name label attributes)) ∨
      isDirectiveFor "video" (.leaf type data (.directive name label attributes)) := by
  rw [Bool.and_eq_true, isMediaName, Bool.or_eq_true] at h
  obtain ⟨htype, hname⟩ := h
  rcases hname with himg | hvideo
  · exact Or.inl (Bool.and_eq_true_iff.mpr ⟨htype, himg⟩)
  · exact Or.inr (Bool.and_eq_true_iff.mpr ⟨htype, hvideo⟩)

theorem isImage_passed {n : Node} (h : (passed videoAttrs n).isImage) : isPicture n := by
  cases n with
  | parent => cases h
  | leaf type data body =>
    cases body with
    | directive name label attributes =>
      by_cases hd : (directiveTypes.contains type && isMediaName name) = true
      · rcases isDirectiveFor_of_media data label attributes hd with himg | hv
        · exact Bool.or_eq_true_iff.mpr (Or.inr himg)
        · rw [passed_video videoAttrs hv, expandDirective_video] at h
          cases h
      · unfold passed expandDirectives at h
        dsimp only at h
        rw [if_neg hd] at h
        cases h
    | image => rfl
    | _ => cases h

/-- A row becomes a row: one node for each sibling that stays. Pictures are finished with the blocks
that they take; all others are as they are after both passes. -/
theorem row_of_siblings {R : Node × Option AttrBlock → Node → Prop} {ns : List Node}
    (hpicture : ∀ n ∈ ns, isPicture n → ∃ type data url alt title,
      passed videoAttrs n = .leaf type data (.image url alt title) ∧
        ∀ behind, R (n, behind) (finishWith videoAttrs.toList type data url alt title behind))
    (hother : ∀ n ∈ ns, ¬isPicture n → R (n, none) (passed videoAttrs n)) (behind : Bool) :
    List.Forall₂ R (withBlocks behind ns)
      (expandRow videoAttrs.toList (behind && startsWithBlock ns)
        (ns.map (passed videoAttrs))) := by
  induction ns generalizing behind with
  | nil => exact .nil
  | cons n ns ih =>
    rw [List.forall_mem_cons] at hpicture hother
    have ih := ih hpicture.2 hother.2
    have hrow : expandRow videoAttrs.toList (behind && startsWithBlock (n :: ns))
        ((n :: ns).map (passed videoAttrs)) = expandRow videoAttrs.toList (behind && isBlockText n)
          (passed videoAttrs n :: ns.map (passed videoAttrs)) := rfl
    rw [hrow]
    unfold withBlocks expandRow
    dsimp only
    by_cases hb : (behind && isBlockText n) = true
    · rw [if_pos hb, if_pos hb, not_picture_of_isBlockText (Bool.and_eq_true_iff.mp hb).2]
      exact ih false
    · rw [if_neg hb, if_neg hb]
      by_cases hp : isPicture n = true
      · obtain ⟨type, data, url, alt, title, he, hfinal⟩ := hpicture.1 hp
        rw [he, hp, if_pos rfl]
        dsimp only
        rw [blockBehind?_passed, isSome_blockBehind?]
        exact .cons (hfinal _) (ih true)
      · have hfinal := hother.1 hp
        rw [(Bool.not_eq_true _).mp hp, if_neg Bool.false_ne_true]
        split
        · next type data url alt title he =>
          exact absurd (isImage_passed videoAttrs (by rw [he]; rfl)) hp
        · exact .cons hfinal (ih false)

theorem becomes_row {ns : List Node}
    (h : ∀ n ∈ ns, ¬isPicture n → Becomes n (passed videoAttrs n)) :
    List.Forall₂ Becomes (unclaimed false ns)
      (expandRow videoAttrs.toList false (ns.map (passed videoAttrs))) := by
  have hrow := row_of_siblings videoAttrs (R := fun p => Becomes p.1)
    (fun _ _ hp => picture_finishes videoAttrs hp) h false
  rw [← map_withBlocks, List.forall₂_map_left_iff]
  exact hrow

/-! ## Trees -/

theorem leaf_becomes {type : String} {data : Fields} {body : Leaf}
    (hp : ¬isPicture (.leaf type data body)) :
    Becomes (.leaf type data body) (passed videoAttrs (.leaf type data body)) := by
  by_cases hv : isDirectiveFor "video" (.leaf type data body)
  · cases body with
    | directive name label attributes =>
      rw [passed_video videoAttrs hv, expandDirective_video]
      exact Becomes.video hv
    | _ => cases hv
  · have hsame : passed videoAttrs (.leaf type data body) = .leaf type data body := by
      cases body with
      | directive name label attributes =>
        unfold passed expandDirectives
        dsimp only
        rw [if_neg]
        · rfl
        · intro hd
          rcases isDirectiveFor_of_media data label attributes hd with himg | hvideo
          · exact hp (Bool.or_eq_true_iff.mpr (Or.inr himg))
          · exact hv hvideo
      | _ => rfl
    rw [hsame]
    exact Becomes.leaf hp hv

theorem passed_parent (type : String) (data : Fields) (body : Container) (children : List Node) :
    passed videoAttrs (.parent type data body children) = .parent type data body
      (expandRow videoAttrs.toList false (children.map (passed videoAttrs))) := by
  simp only [passed, expandDirectives, expandImages, expandDirectivesAll_eq_map,
    expandImagesAll_eq_map, List.map_map]
  rfl

mutual

theorem passed_becomes : ∀ n : Node, ¬isPicture n → Becomes n (passed videoAttrs n)
  | .leaf _ _ _, hp => leaf_becomes videoAttrs hp
  | .parent type data body children, _ => by
    rw [passed_parent]
    exact Becomes.parent (becomes_row videoAttrs (passedAll_becomes children))

theorem passedAll_becomes :
    ∀ ns : List Node, ∀ n ∈ ns, ¬isPicture n → Becomes n (passed videoAttrs n)
  | [] => nofun
  | n :: ns => List.forall_mem_cons.mpr ⟨passed_becomes n, passedAll_becomes ns⟩

end

end

/-! ## Main statement -/

/-- Expansion loses, doubles and reorders nothing, and nothing stands in its way where types and
data fit. -/
theorem expand_becomes (videoAttrs : String) (tree : Node) (hroot : tree.isParent) :
    Becomes tree (expand videoAttrs tree) ∧
      (tree.Throughout Node.FitsType → tree.Throughout (fun n => DataFit n.data) →
        expandFault? videoAttrs tree = none) := by
  cases tree with
  | leaf => cases hroot
  | parent type data body children =>
    constructor
    · exact passed_becomes videoAttrs _ nofun
    · intro htypes hfit
      have hdirectives : directivesFault? (.parent type data body children) = none :=
        directiveFaultAmong?_eq_none children htypes.2 hfit.2
      have himages := imageFaultIn?_eq_none _
        (noImageFault_directives (parseLoose videoAttrs.toList) hfit)
      rw [expandFault?, hdirectives, imagesFault?, himages, Option.none_or]

/-- Six siblings become five, since the block behind the directive is taken. -/
theorem expand_becomes_sample : sampleTree.isParent = true ∧
    Becomes sampleTree (expand defaultVideoAttrs sampleTree) ∧
    (sampleTree.children.map fun n => n.children.length) = [6] ∧
    ((expand defaultVideoAttrs sampleTree).children.map fun n => n.children.length) = [5] := by
  have h := expand_becomes defaultVideoAttrs sampleTree rfl
  refine ⟨rfl, h.1, rfl, ?_⟩
  decide +kernel

end DocumentMedia.Document
