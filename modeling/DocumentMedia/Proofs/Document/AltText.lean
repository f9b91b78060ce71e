import DocumentMedia.Proofs.Attribute.Loose
import DocumentMedia.Proofs.Document.Carried

/-! # Alternative texts of images

Every image of an expanded document is rendered with an alternative text: that among the free-form
attributes of its block, else the one that its author gave, else one made of the reference. Only a
block can leave it blank. -/
namespace DocumentMedia.Document

open DocumentMedia.Text DocumentMedia.Attribute

/-! ## What is written about a picture -/

/-- What is written about a picture: an alternative text, the reference and a block. -/
structure Caption where
  alt : String
  source : String
  block : AttrBlock

/-- What is written about a picture with the block behind it. The label of a directive outranks its
attribute, and a block in the title of an image joins the one behind it. -/
def captionOf? : Node × Option AttrBlock → Option Caption
  | (.leaf _ data (.image url alt title), behind) =>
    some ⟨alt, altSource data url, (takeTitle title).1.merge (behind.getD AttrBlock.empty)⟩
  | (.leaf _ data (.directive _ label attributes), behind) =>
    let media := DirectiveMedia.of label attributes
    some ⟨media.alt.getD "", altSource data media.url, behind.getD AttrBlock.empty⟩
  | _ => none

def attrString : Value → String
  | .str s => s
  | _ => ""

/-- The alternative text among the free-form attributes of a block, if there is one. -/
def blockAlt? (block : AttrBlock) : Option String :=
  (lastUnder? (parseLoose block.freeform) "alt").map attrString

/-- A text is the alternative text that follows from what is written. -/
structure ShowsAlt (c : Caption) (s : String) : Prop where
  block : ∀ a ∈ blockAlt? c.block, s = a
  given : blockAlt? c.block = none → isAllBlank c.alt.toList = false → s = c.alt
  derived : blockAlt? c.block = none → isAllBlank c.alt.toList = true → s = deriveAlt c.source
  filled : (∀ a ∈ blockAlt? c.block, isAllBlank a.toList = false) → isAllBlank s.toList = false

/-- The text that is given, or else one that is made of the reference. -/
def Caption.text (c : Caption) : String :=
  if isAllBlank c.alt.toList then deriveAlt c.source else c.alt

theorem showsAlt_getD (c : Caption) : ShowsAlt c ((blockAlt? c.block).getD c.text) := by
  constructor
  · intro a ha
    rw [Option.mem_def.mp ha]
    rfl
  · intro hnone halt
    rw [hnone, Option.getD_none, Caption.text, halt]
    rfl
  · intro hnone halt
    rw [hnone, Option.getD_none, Caption.text, if_pos halt]
  · intro hfilled
    cases hblock : blockAlt? c.block with
    | some a => exact hfilled a hblock
    | none =>
      rw [Option.getD_none, Caption.text]
      split
      · exact deriveAlt_not_blank _
      · next halt => exact (Bool.not_eq_true _).mp halt

/-! ## Properties with distinct keys -/

section

variable {ps : List (Value × Value)}

theorem distinct_putText (h : Value.Distinct ps) (key text : String) :
    Value.Distinct (putText ps key text) := by
  unfold putText
  split
  · exact h
  · exact h.putEntry _ _

theorem distinct_putSize (h : Value.Distinct ps) (data : Fields) :
    Value.Distinct (putSize ps data) := by
  simp only [putSize]
  split
  · exact (h.putEntry _ _).putEntry _ _
  · exact h

theorem distinct_putProps (h : Value.Distinct ps) (extra : Fields) :
    Value.Distinct (putProps ps extra) := by
  induction extra generalizing ps with
  | nil => exact h
  | cons e extra ih => exact ih (h.putEntry _ _)

/-- The keys of the properties of an image differ, if these are a map. -/
def DistinctProps (data : Fields) : Prop :=
  ∀ es, Assoc.find? data "hProperties" = some (.map es) → Value.Distinct es

theorem DistinctProps.given {data : Fields} (h : DistinctProps data) :
    Value.Distinct (givenProps data) := by
  unfold givenProps
  split
  · next es hes =>
    refine Value.distinct_entries (fun es' hmap => h es' ?_) hes
    cases hfind : Assoc.find? data "hProperties" with
    | none =>
      rw [hfind] at hmap
      cases hmap
    | some v =>
      rw [hfind] at hmap
      exact congrArg some hmap
  · exact List.Pairwise.nil

end

/-! ## Rendered attributes -/

/-- The entries of an image begin with its source and its alternative text. -/
def Headed (es : List (Value × Value)) : Prop :=
  ∃ src alt rest, es = (.str "src", src) :: (.str "alt", alt) :: rest

theorem Headed.putEntry {es : List (Value × Value)} (h : Headed es) (k v : Value) :
    Headed (Value.putEntry es k v) := by
  obtain ⟨src, alt, rest, rfl⟩ := h
  rw [Value.putEntry]
  split
  · exact ⟨v, alt, rest, rfl⟩
  · rw [Value.putEntry]
    split
    · exact ⟨src, v, rest, rfl⟩
    · exact ⟨src, alt, _, rfl⟩

theorem headed_imageEntries (data : Fields) (url alt : String) (title : Option String) :
    Headed (imageEntries data url alt title) := by
  simp only [imageEntries]
  generalize hbase : [(Value.str "src", Value.str url), (.str "alt", .str alt)] ++ _ = base
  have hheaded : Headed base := ⟨.str url, .str alt, _, hbase.symm⟩
  clear hbase
  induction shownProps data generalizing base with
  | nil => exact hheaded
  | cons e ps ih => exact ih _ (hheaded.putEntry _ _)

theorem find?_imageAttrs_alt (data : Fields) (url alt : String) (title : Option String) :
    Assoc.find? (imageAttrs data url alt title) "alt" =
      Value.under? (imageEntries data url alt title) "alt" := by
  obtain ⟨src, alt', rest, he⟩ := headed_imageEntries data url alt title
  rw [imageAttrs, he]
  rfl

/-- The alternative text of an image is rendered as its properties have it. -/
theorem find?_imageAttrs_of_props {data : Fields} {ps : List (Value × Value)} {s : String}
    (hdata : Assoc.find? data "hProperties" = some (.map ps)) (hps : Value.Distinct ps)
    (halt : Value.under? ps "alt" = some (.str s)) (url alt : String) (title : Option String) :
    Assoc.find? (imageAttrs data url alt title) "alt" = some (.str s) := by
  have hshown : shownProps data = ps := by rw [shownProps, hdata]
  rw [find?_imageAttrs_alt]
  unfold imageEntries
  dsimp only
  rw [hshown, Value.under?_foldl_putEntry shownValue hps, halt, Option.map_some, Option.some_or]
  simp [shownValue, Value.sameKey]

/-! ## Finished pictures -/

/-- Markup, or an image that is rendered with the alternative text that follows from what is
written. -/
inductive AltShown (c : Caption) : Node → Prop where
  | markup (html) : AltShown c (Node.html html)
  | image {type data url alt title s}
      (hs : Assoc.find? (imageAttrs data url alt title) "alt" = some (.str s))
      (h : ShowsAlt c s) : AltShown c (.leaf type data (.image url alt title))

theorem asProperty_parseLoose {s : List Char} {key : String} {v : Value}
    (h : lastUnder? (parseLoose s) key = some v) : asProperty v = .str (attrString v) := by
  obtain ⟨e, he, rfl⟩ := Option.map_eq_some_iff.mp h
  have hmem := List.mem_of_mem_filter (List.mem_of_getLast? he)
  rcases isLoose_parseLoose s e hmem with hflag | ⟨t, ht⟩
  · rw [hflag]
    rfl
  · rw [ht]
    rfl

/-- Finishing an image shows the alternative text of its block, else its own or a made one. -/
theorem finishImage_alt {data : Fields} (hdata : DistinctProps data) (videoAttrs : List Char)
    (type url alt : String) (title : Option String) (block : AttrBlock) :
    (∃ html, finishImage videoAttrs type data url alt title block = Node.html html) ∨
      ∃ data' alt', finishImage videoAttrs type data url alt title block =
          .leaf type data' (.image url alt' title) ∧
        Assoc.find? (imageAttrs data' url alt' title) "alt" =
          some (.str ((blockAlt? block).getD (orAlt alt data url))) := by
  unfold finishImage
  dsimp only
  split
  · exact Or.inl ⟨_, rfl⟩
  · refine Or.inr ⟨_, _, rfl, ?_⟩
    refine find?_imageAttrs_of_props ((Assoc.find?_put ..).trans (if_pos (beq_self_eq_true _)))
      ?_ ?_ _ _ _
    · refine distinct_putProps (distinct_putSize (distinct_putText (distinct_putText
        (Value.Distinct.putEntry ?_ _ _) _ _) _ _) _) _
      exact List.Pairwise.filter _ hdata.given
    · rw [under?_putProps_last, under?_putSize _ _ _ (by decide) (by decide),
        under?_putText_ne _ _ _ _ (by decide), under?_putText_ne _ _ _ _ (by decide),
        Value.under?_putEntry, if_pos rfl, blockAlt?]
      cases hlast : lastUnder? (parseLoose block.freeform) "alt" with
      | none => rfl
      | some v =>
        rw [Option.map_some, Option.some_or, asProperty_parseLoose hlast]
        rfl

theorem altShown_finishImage {data : Fields} (hdata : DistinctProps data) (videoAttrs : List Char)
    (type : String) {url alt : String} (title : Option String) {block : AttrBlock} {c : Caption}
    (hblock : blockAlt? c.block = blockAlt? block) (htext : c.text = orAlt alt data url) :
    AltShown c (finishImage videoAttrs type data url alt title block) := by
  rcases finishImage_alt hdata videoAttrs type url alt title block with
    ⟨html, he⟩ | ⟨data', alt', he, hs⟩
  · rw [he]
    exact .markup html
  · rw [he]
    rw [← hblock, ← htext] at hs
    exact .image hs (showsAlt_getD c)

theorem distinct_directiveProps (data : Fields) (label : Option String) (attributes : Fields) :
    Value.Distinct (directiveProps data label attributes) := by
  have halt (v : Value) : Value.Distinct [(.str "alt", v)] := List.pairwise_singleton _ _
  have htexts := fun v cls style =>
    distinct_putText (distinct_putText (halt v) "class" cls) "style" style
  refine distinct_putProps ?_ _
  split
  · exact distinct_putSize (htexts _ _ _) data
  · exact htexts _ _ _

/-! ## Places in the tree -/

/-- The images of an expanded tree, each with the place it comes from, are rendered with the
alternative texts that follow from what is written. -/
inductive ShowAlts : Node × Option AttrBlock → Node → Prop where
  | picture {n behind c n'} (hn : isPicture n) (hc : captionOf? (n, behind) = some c)
      (h : AltShown c n') : ShowAlts (n, behind) n'
  | leaf {type data body behind type' data' body'} (hn : ¬isPicture (.leaf type data body))
      (h : ¬Node.isImage (.leaf type' data' body')) :
      ShowAlts (.leaf type data body, behind) (.leaf type' data' body')
  | parent {type data body children behind children'}
      (h : List.Forall₂ ShowAlts (withBlocks false children) children') :
      ShowAlts (.parent type data body children, behind) (.parent type data body children')

/-- The keys of the properties of an image differ. -/
def PropsApart : Node → Prop
  | .leaf _ data (.image ..) => DistinctProps data
  | _ => True

section

variable (videoAttrs : String)

/-- A picture is finished with the alternative text that follows from what is written, whatever
block stands behind it. -/
theorem picture_shows_alt {n : Node} (hn : isPicture n) (hd : PropsApart n) :
    ∃ type data url alt title, passed videoAttrs n = .leaf type data (.image url alt title) ∧
      ∀ behind, ShowAlts (n, behind)
        (finishWith videoAttrs.toList type data url alt title behind) := by
  refine finishes_of_picture videoAttrs hn ?_ ?_
  · rintro type data url alt title rfl behind
    exact .picture hn rfl (altShown_finishImage hd videoAttrs.toList type _ rfl rfl)
  · rintro type data name label attributes rfl himg behind
    have hdata : DistinctProps
        (("hProperties", .map (directiveProps data label attributes)) :: keptMedia data) := by
      intro es hes
      obtain rfl : directiveProps data label attributes = es :=
        Value.map.inj (Option.some.inj hes)
      exact distinct_directiveProps data label attributes
    refine .picture hn rfl ?_
    rw [finishWith, takeTitle_none]
    refine altShown_finishImage hdata videoAttrs.toList "image" none ?_ ?_
    · rw [blockAlt?, blockAlt?, freeform_merge_empty]
    · rw [orAlt_congr (mediaField_keptMedia data _), directiveAlt, orAlt_orAlt]
      rfl

theorem leaf_shows_alt {type : String} {data : Fields} {body : Leaf}
    (hn : ¬isPicture (.leaf type data body)) :
    ShowAlts (.leaf type data body, none) (passed videoAttrs (.leaf type data body)) := by
  have hbecomes := leaf_becomes videoAttrs hn
  generalize passed videoAttrs (.leaf type data body) = n' at hbecomes
  cases hbecomes with
  | video => exact .leaf hn Bool.false_ne_true
  | moving hp => exact absurd hp hn
  | directive himg => exact absurd (Bool.or_eq_true_iff.mpr (Or.inr himg)) hn
  | image => exact absurd rfl hn
  | leaf =>
    refine .leaf hn fun himage => hn ?_
    rw [isPicture, himage]
    rfl

mutual

theorem passed_shows_alts : ∀ n : Node, n.Throughout PropsApart → ¬isPicture n →
    ShowAlts (n, none) (passed videoAttrs n)
  | .leaf _ _ _, _, hn => leaf_shows_alt videoAttrs hn
  | .parent _ _ _ children, hd, _ => by
    rw [passed_parent]
    exact .parent (row_of_siblings videoAttrs
      (fun _ hmem hp => picture_shows_alt videoAttrs hp (Node.of_throughoutAll hd.2 hmem))
      (passedAll_show_alts children hd.2) false)

theorem passedAll_show_alts : ∀ ns : List Node, Node.ThroughoutAll PropsApart ns →
    ∀ n ∈ ns, ¬isPicture n → ShowAlts (n, none) (passed videoAttrs n)
  | [], _ => nofun
  | n :: ns, hd => List.forall_mem_cons.mpr
    ⟨passed_shows_alts n hd.1, passedAll_show_alts ns hd.2⟩

end

/-- Every image of an expanded tree is rendered with an alternative text that is not blank, unless
its block gives it a blank one: the text of the block, else the one that was given, else the one
made of the reference as it was authored. -/
theorem images_show_alts (type : String) (data : Fields) (body : Container)
    (children : List Node) (hd : (Node.parent type data body children).Throughout PropsApart) :
    ShowAlts (.parent type data body children, none)
      (expand videoAttrs (.parent type data body children)) :=
  passed_shows_alts videoAttrs _ hd nofun

end

/-- An image without an alternative text, and a block behind it. -/
def captionTree (alt block : String) : Node :=
  Node.root [.leaf "image" [] (.image "my-cat.png" alt none), Node.text block]

theorem images_show_alts_sample :
    (captionTree "" "\x7bwidth=5\x7d").Throughout PropsApart ∧
      ShowAlts (captionTree "" "\x7bwidth=5\x7d", none)
        (expand defaultVideoAttrs (captionTree "" "\x7bwidth=5\x7d")) ∧
      (expand defaultVideoAttrs (captionTree "" "\x7bwidth=5\x7d")).render =
        "<img src=\"my-cat.png\" alt=\"my cat\" width=\"5\">" := by
  have hapart : (captionTree "" "\x7bwidth=5\x7d").Throughout PropsApart :=
    ⟨trivial, nofun, trivial, trivial⟩
  exact ⟨hapart, images_show_alts defaultVideoAttrs _ _ _ _ hapart, by decide +kernel⟩

/-- A block takes the alternative text away, whether its author gave one or not. -/
theorem block_takes_alt_away :
    (expand defaultVideoAttrs (captionTree "Cat" "\x7balt=\"\"\x7d")).render =
      "<img src=\"my-cat.png\" alt=\"\">" ∧
    (expand defaultVideoAttrs (captionTree "" "\x7balt=\"\"\x7d")).render =
      "<img src=\"my-cat.png\" alt=\"\">" ∧
    deriveAlt "my-cat.png" = "my cat" := by
  decide +kernel

end DocumentMedia.Document
