import DocumentMedia.Document.ExpandFault
import DocumentMedia.Proofs.Text.Blank
import DocumentMedia.Proofs.Value.Entries
import Mathlib.Data.List.Chain

/-! # Expanded documents

Expansion leaves nothing to expand: no media directive, no image that is a video, no image without
an alternative text, and no attribute block in a title or behind an image. -/
namespace DocumentMedia

namespace Node

mutual

/-- A property of a node and of all nodes below it. -/
def Throughout (P : Node → Prop) : Node → Prop
  | .leaf type data body => P (.leaf type data body)
  | .parent type data body children =>
    P (.parent type data body children) ∧ ThroughoutAll P children

def ThroughoutAll (P : Node → Prop) : List Node → Prop
  | [] => True
  | n :: ns => Throughout P n ∧ ThroughoutAll P ns

end

theorem Throughout.self {P : Node → Prop} {n : Node} (h : n.Throughout P) : P n := by
  cases n with
  | leaf => exact h
  | parent => exact h.1

theorem of_throughoutAll {P : Node → Prop} {ns : List Node} (h : ThroughoutAll P ns) {n : Node}
    (hn : n ∈ ns) : P n := by
  induction ns with
  | nil => cases hn
  | cons m ms ih =>
    rcases List.mem_cons.mp hn with rfl | hn
    · exact h.1.self
    · exact ih h.2 hn

/-- Directives carry the type of a directive, and components that of a component. -/
def FitsType : Node → Prop
  | .leaf type _ (.directive ..) => type ∈ directiveTypes
  | .parent type _ (.component ..) _ => type ∈ componentTypes
  | _ => True

/-- No two texts stand side by side below a node. -/
def TextsApart (n : Node) : Prop := n.children.IsChain fun a b => ¬(a.isText ∧ b.isText)

end Node

namespace Document

open DocumentMedia.Text DocumentMedia.Attribute

/-! ## What is left by an expansion -/

/-- A text that would be an attribute block behind an image. -/
def isBlockText : Node → Bool
  | .leaf _ _ (.text value) => (trailingBlock? value.toList).isSome
  | _ => false

/-- An image that needs nothing more. -/
structure Finished (data : Fields) (url alt : String) (title : Option String) : Prop where
  still : isVideoKind data = false ∧ isVideoUrl url = false
  alt : isAllBlank alt.toList = false
  props : ∃ es, Assoc.find? data "hProperties" = some (.map es)
  title : (titleBlock (title.getD "").toList).isEmpty = true

/-- Nothing is left to expand in a node and in the row of its children. -/
def Expanded : Node → Prop
  | .leaf _ data (.image url alt title) => Finished data url alt title
  | .leaf _ _ (.directive name ..) => isMediaName name = false
  | .leaf .. => True
  | .parent _ _ _ children => children.IsChain fun a b => ¬(a.isImage ∧ isBlockText b)

theorem deriveAlt_not_blank (url : String) : isAllBlank (deriveAlt url).toList = false := by
  simp only [deriveAlt]
  split
  · decide
  · next h =>
    rw [String.toList_ofList]
    exact isAllBlank_strip fun hn => h (by simp [hn])

theorem orAlt_not_blank (alt : String) (data : Fields) (url : String) :
    isAllBlank (orAlt alt data url).toList = false := by
  unfold orAlt
  split
  · exact deriveAlt_not_blank _
  · next h => simpa using h

theorem mediaField_put {name : String} (hn : name ≠ "media") (data : Fields) (v : Value)
    (field : String) : mediaField (Assoc.put data name v) field = mediaField data field := by
  simp only [mediaField, Assoc.find?_put, beq_iff_eq, hn, if_false]

theorem takeTitle_spec (title : Option String) :
    (titleBlock ((takeTitle title).2.getD "").toList).isEmpty = true := by
  simp only [takeTitle]
  split
  · assumption
  · rfl

theorem finishWith_expanded (videoAttrs : List Char) (type : String) (data : Fields)
    (url alt : String) (title : Option String) (behind : Option AttrBlock) :
    Expanded (finishWith videoAttrs type data url alt title behind) := by
  simp only [finishWith, finishImage]
  split
  · trivial
  · next hv =>
    rw [Bool.or_eq_true, not_or, Bool.not_eq_true, Bool.not_eq_true] at hv
    have hkind := mediaField_put (show "hProperties" ≠ "media" by decide) data
    refine ⟨⟨?_, hv.2⟩, orAlt_not_blank alt data url,
      ⟨_, (Assoc.find?_put ..).trans (if_pos (beq_self_eq_true _))⟩, takeTitle_spec title⟩
    rw [← hv.1]
    simp only [isVideoKind, hkind]

theorem isText_finishWith (videoAttrs : List Char) (type : String) (data : Fields)
    (url alt : String) (title : Option String) (behind : Option AttrBlock) :
    (finishWith videoAttrs type data url alt title behind).isText = false := by
  simp only [finishWith, finishImage]
  split <;> rfl

/-! ## Rows of siblings -/

/-- A row that is worked off begins with its own first sibling, as far as texts are concerned. -/
theorem head?_expandRow {videoAttrs : List Char} {ns : List Node} {m : Node}
    (h : (expandRow videoAttrs false ns).head? = some m) (hm : m.isText) : ns.head? = some m := by
  cases ns with
  | nil => cases h
  | cons n rest =>
    unfold expandRow at h
    simp only [Bool.false_eq_true, if_false] at h
    split at h
    · next type data url alt title =>
      cases h
      rw [isText_finishWith] at hm
      cases hm
    · exact h

theorem blockBehind?_of_isBlockText {ns : List Node} {m : Node} (h : ns.head? = some m)
    (hm : isBlockText m) : (blockBehind? ns).isSome := by
  cases ns with
  | nil => cases h
  | cons n rest =>
    cases h
    unfold isBlockText at hm
    split at hm
    · simpa [blockBehind?] using hm
    · cases hm

theorem isText_of_isBlockText {n : Node} (h : isBlockText n) : n.isText := by
  unfold isBlockText at h
  split at h
  · rfl
  · cases h

theorem isText_of_blockBehind? {n : Node} {ns : List Node}
    (h : (blockBehind? (n :: ns)).isSome) : n.isText := by
  unfold blockBehind? at h
  split at h
  · next he => cases he; rfl
  · cases h

/-- Behind an image comes no block: the one that stood there was taken, and no second text follows
it. -/
theorem chain_expandRow (videoAttrs : List Char) (ns : List Node)
    (h : ns.IsChain fun a b => ¬(a.isText ∧ b.isText)) (taken : Bool) :
    (expandRow videoAttrs taken ns).IsChain fun a b => ¬(a.isImage ∧ isBlockText b) := by
  induction ns generalizing taken with
  | nil => simp [expandRow]
  | cons n rest ih =>
    have ih := ih h.tail
    unfold expandRow
    split
    · exact ih false
    · split
      · next type data url alt title =>
        refine List.isChain_cons.mpr ⟨?_, ih _⟩
        rintro m hm ⟨-, hblock⟩
        have htext := isText_of_isBlockText hblock
        cases hb : (blockBehind? rest).isSome with
        | false =>
          rw [hb] at hm
          rw [blockBehind?_of_isBlockText (head?_expandRow hm htext) hblock] at hb
          cases hb
        | true =>
          rw [hb] at hm
          cases rest with
          | nil => cases hb
          | cons t rest =>
            have hrest : (expandRow videoAttrs false rest).head? = some m := hm
            have hchain := List.isChain_cons.mp h.tail
            exact hchain.1 m (head?_expandRow hrest htext) ⟨isText_of_blockBehind? hb, htext⟩
      · next hn =>
        refine List.isChain_cons.mpr ⟨?_, ih false⟩
        rintro m - ⟨himage, -⟩
        unfold Node.isImage at himage
        split at himage
        · exact hn _ _ _ _ _ rfl
        · cases himage

theorem throughout_expandRow (videoAttrs : List Char) (ns : List Node)
    (h : ∀ n ∈ ns, n.isImage ∨ n.Throughout Expanded) (taken : Bool) :
    Node.ThroughoutAll Expanded (expandRow videoAttrs taken ns) := by
  induction ns generalizing taken with
  | nil => simp [expandRow, Node.ThroughoutAll]
  | cons n rest ih =>
    rw [List.forall_mem_cons] at h
    have ih := ih h.2
    unfold expandRow
    split
    · exact ih false
    · split
      · next type data url alt title =>
        refine ⟨?_, ih _⟩
        have hexpanded := finishWith_expanded videoAttrs type data url alt title (blockBehind? rest)
        revert hexpanded
        simp only [finishWith, finishImage]
        split <;> exact id
      · next hn =>
        refine ⟨h.1.resolve_left ?_, ih false⟩
        intro himage
        unfold Node.isImage at himage
        split at himage
        · exact hn _ _ _ _ _ rfl
        · cases himage

/-! ## Properties of a directive -/

/-- Properties of classes hold no list. -/
def NoClassList (props : List (Value × Value)) : Prop :=
  ∀ name ∈ ["className", "class"], ∀ vs, Value.under? props name ≠ some (.list vs)

theorem NoClassList.putEntry {props : List (Value × Value)} (h : NoClassList props) {key : String}
    {v : Value} (hv : key ∈ ["className", "class"] → ∀ vs, v ≠ .list vs) :
    NoClassList (Value.putEntry props (.str key) v) := by
  intro name hname vs
  rw [Value.under?_putEntry]
  split
  · next hk => exact fun he => hv (hk ▸ hname) vs (Option.some.inj he)
  · exact h name hname vs

theorem NoClassList.putText {props : List (Value × Value)} (h : NoClassList props)
    (key text : String) : NoClassList (putText props key text) := by
  unfold Document.putText
  split
  · exact h
  · exact h.putEntry fun _ _ he => Value.noConfusion he

theorem NoClassList.putSize {props : List (Value × Value)} (h : NoClassList props)
    (data : Fields) : NoClassList (putSize props data) := by
  simp only [Document.putSize]
  split
  · exact (h.putEntry (by simp)).putEntry (by simp)
  · exact h

theorem NoClassList.putProps {props : List (Value × Value)} {extra : Fields}
    (h : NoClassList props) (hextra : ∀ kv ∈ extra, ∀ vs, asProperty kv.2 ≠ .list vs) :
    NoClassList (putProps props extra) := by
  unfold Document.putProps
  induction extra generalizing props with
  | nil => exact h
  | cons kv extra ih =>
    rw [List.forall_mem_cons] at hextra
    exact ih (h.putEntry fun _ => hextra.1) hextra.2

theorem extra_of_directive (label : Option String) (attributes : Fields) :
    ∀ kv ∈ (DirectiveMedia.of label attributes).extra, ∀ vs, asProperty kv.2 ≠ .list vs := by
  intro kv hkv vs
  obtain ⟨⟨k, v⟩, -, rfl⟩ := List.mem_map.mp hkv
  dsimp only
  split <;> simp [asProperty]

/-! ## Directives -/

/-- The node is no directive that stands for media. -/
def NoMediaDirective : Node → Prop
  | .leaf _ _ (.directive name ..) => isMediaName name = false
  | _ => True

section

variable (data : Fields) (label : Option String) (attributes : Fields)

/-- The alternative text of the image that is made of a directive. -/
def directiveAlt : String :=
  orAlt ((DirectiveMedia.of label attributes).alt.getD "") data
    (DirectiveMedia.of label attributes).url

/-- The properties of the image that is made of a directive. -/
def directiveProps : List (Value × Value) :=
  let media := DirectiveMedia.of label attributes
  let alt := [(.str "alt", .str (directiveAlt data label attributes))]
  let texts := putText (putText alt "class" media.cls) "style" media.style
  putProps (if isImageKind data then putSize texts data else texts) media.extra

/-- What the image made of a directive keeps of its data. -/
def keptMedia (data : Fields) : Fields :=
  match Assoc.find? data "media" with
  | some m => [("media", m)]
  | none => []

variable (videoAttrs : Fields)

theorem expandDirective_video : expandDirective videoAttrs data "video" label attributes =
    Node.html (videoMarkup (DirectiveMedia.of label attributes).url
      (DirectiveMedia.of label attributes).cls (DirectiveMedia.of label attributes).style
      (if (DirectiveMedia.of label attributes).extra.isEmpty then videoAttrs
        else (DirectiveMedia.of label attributes).extra)) := by
  rw [expandDirective, if_pos rfl]

theorem expandDirective_image {name : String} (hname : name ≠ "video") :
    expandDirective videoAttrs data name label attributes =
      .leaf "image" (("hProperties", .map (directiveProps data label attributes)) :: keptMedia data)
        (.image (DirectiveMedia.of label attributes).url (directiveAlt data label attributes)
          none) := by
  rw [expandDirective, if_neg hname]
  rfl

theorem noClassList_directiveProps : NoClassList (directiveProps data label attributes) := by
  have halt : NoClassList [(.str "alt", .str (directiveAlt data label attributes))] := by
    intro name hname vs
    simp only [List.mem_cons, List.not_mem_nil, or_false] at hname
    rcases hname with rfl | rfl <;> simp [Value.under?]
  refine NoClassList.putProps ?_ (extra_of_directive label attributes)
  split
  · exact ((halt.putText _ _).putText _ _).putSize data
  · exact (halt.putText _ _).putText _ _

end

theorem expandDirective_cases (videoAttrs : Fields) (data : Fields) (name : String)
    (label : Option String) (attributes : Fields) :
    (∃ markup, expandDirective videoAttrs data name label attributes = Node.html markup) ∨
      ∃ props media url alt, expandDirective videoAttrs data name label attributes =
        .leaf "image" (("hProperties", .map props) :: media) (.image url alt none) ∧
          isAllBlank alt.toList = false ∧ NoClassList props := by
  by_cases hname : name = "video"
  · subst hname
    exact Or.inl ⟨_, expandDirective_video data label attributes videoAttrs⟩
  · exact Or.inr ⟨_, _, _, _, expandDirective_image data label attributes videoAttrs hname,
      orAlt_not_blank _ _ _, noClassList_directiveProps data label attributes⟩

theorem isText_expandDirectives (videoAttrs : Fields) (n : Node) :
    (expandDirectives videoAttrs n).isText = n.isText := by
  cases n with
  | parent => rfl
  | leaf type data body =>
    cases body with
    | directive name label attributes =>
      simp only [expandDirectives]
      split
      · rcases expandDirective_cases videoAttrs data name label attributes with
          ⟨markup, h⟩ | ⟨props, media, url, alt, h, -⟩ <;> rw [h] <;> rfl
      · rfl
    | _ => rfl

theorem expandDirectivesAll_eq_map (videoAttrs : Fields) (ns : List Node) :
    expandDirectivesAll videoAttrs ns = ns.map (expandDirectives videoAttrs) := by
  induction ns with
  | nil => rfl
  | cons n ns ih => rw [expandDirectivesAll, ih, List.map_cons]

theorem textsApart_expandDirectives {videoAttrs : Fields} {type : String} {data : Fields}
    {body : Container} {children : List Node}
    (h : (Node.parent type data body children).TextsApart) :
    (Node.parent type data body (expandDirectivesAll videoAttrs children)).TextsApart := by
  simp only [Node.TextsApart, Node.children, expandDirectivesAll_eq_map, List.isChain_map,
    isText_expandDirectives] at h ⊢
  exact h

theorem expandDirectives_leaf (videoAttrs : Fields) (type : String) (data : Fields) (body : Leaf) :
    ∃ type' data' body',
      expandDirectives videoAttrs (.leaf type data body) = .leaf type' data' body' := by
  cases body with
  | directive name label attributes =>
    simp only [expandDirectives]
    split
    · rcases expandDirective_cases videoAttrs data name label attributes with
        ⟨markup, h⟩ | ⟨props, media, url, alt, h, -⟩ <;> exact ⟨_, _, _, h⟩
    · exact ⟨_, _, _, rfl⟩
  | _ => exact ⟨_, _, _, rfl⟩

mutual

/-- What holds node by node before and after directives are expanded holds of whole trees. -/
theorem throughout_expandDirectives {P Q : Node → Prop} {videoAttrs : Fields}
    (leaf : ∀ type data body, P (.leaf type data body) →
      Q (expandDirectives videoAttrs (.leaf type data body)))
    (parent : ∀ type data body children, P (.parent type data body children) →
      Q (.parent type data body (expandDirectivesAll videoAttrs children))) :
    ∀ n : Node, n.Throughout P → (expandDirectives videoAttrs n).Throughout Q
  | .leaf type data body, h => by
    have hq := leaf type data body h
    obtain ⟨type', data', body', he⟩ := expandDirectives_leaf videoAttrs type data body
    rw [he] at hq ⊢
    exact hq
  | .parent _ _ _ children, h =>
    ⟨parent _ _ _ _ h.1, throughoutAll_expandDirectives leaf parent children h.2⟩

theorem throughoutAll_expandDirectives {P Q : Node → Prop} {videoAttrs : Fields}
    (leaf : ∀ type data body, P (.leaf type data body) →
      Q (expandDirectives videoAttrs (.leaf type data body)))
    (parent : ∀ type data body children, P (.parent type data body children) →
      Q (.parent type data body (expandDirectivesAll videoAttrs children))) :
    ∀ ns : List Node, Node.ThroughoutAll P ns →
      Node.ThroughoutAll Q (expandDirectivesAll videoAttrs ns)
  | [], _ => trivial
  | n :: ns, h =>
    ⟨throughout_expandDirectives leaf parent n h.1,
      throughoutAll_expandDirectives leaf parent ns h.2⟩

end

theorem textsApart_directives (videoAttrs : Fields) {tree : Node}
    (h : tree.Throughout Node.TextsApart) :
    (expandDirectives videoAttrs tree).Throughout Node.TextsApart := by
  refine throughout_expandDirectives (fun type data body _ => ?_)
    (fun _ _ _ _ => textsApart_expandDirectives) tree h
  obtain ⟨type', data', body', he⟩ := expandDirectives_leaf videoAttrs type data body
  rw [he]
  exact List.isChain_nil

theorem noMediaDirective_directives (videoAttrs : Fields) {tree : Node}
    (h : tree.Throughout Node.FitsType) :
    (expandDirectives videoAttrs tree).Throughout NoMediaDirective := by
  refine throughout_expandDirectives (fun type data body hfits => ?_)
    (fun _ _ _ _ _ => trivial) tree h
  cases body with
  | directive name label attributes =>
    have htype : directiveTypes.contains type = true := List.contains_iff_mem.mpr hfits
    simp only [expandDirectives, htype, Bool.true_and]
    split
    · rcases expandDirective_cases videoAttrs data name label attributes with
        ⟨markup, h⟩ | ⟨props, media, url, alt, h, -⟩ <;> rw [h] <;> trivial
    · next hname => exact (Bool.not_eq_true _).mp hname
  | _ => trivial

/-! ## Images -/

theorem expandImagesAll_eq_map (videoAttrs : List Char) (ns : List Node) :
    expandImagesAll videoAttrs ns = ns.map (expandImages videoAttrs) := by
  induction ns with
  | nil => rfl
  | cons n ns ih => rw [expandImagesAll, ih, List.map_cons]

theorem isText_expandImages (videoAttrs : List Char) (n : Node) :
    (expandImages videoAttrs n).isText = n.isText := by
  cases n <;> rfl

theorem textsApart_expandImagesAll {videoAttrs : List Char} {ns : List Node}
    (h : ns.IsChain fun a b => ¬(a.isText ∧ b.isText)) :
    (expandImagesAll videoAttrs ns).IsChain fun a b => ¬(a.isText ∧ b.isText) := by
  simpa only [expandImagesAll_eq_map, List.isChain_map, isText_expandImages] using h

mutual

/-- Below a parent nothing is left to expand; a leaf that is an image is finished by its parent. -/
theorem expandImages_expanded (videoAttrs : List Char) :
    ∀ n : Node, n.Throughout NoMediaDirective → n.Throughout Node.TextsApart →
      n.isImage ∨ (expandImages videoAttrs n).Throughout Expanded
  | .leaf type data body, hdirective, _ => by
    cases body with
    | image url alt title => exact Or.inl rfl
    | directive name label attributes => exact Or.inr hdirective
    | _ => exact Or.inr trivial
  | .parent _ _ _ children, hdirective, happart => by
    refine Or.inr ⟨chain_expandRow _ _ (textsApart_expandImagesAll happart.1) false, ?_⟩
    exact throughout_expandRow _ _
      (expandImagesAll_expanded videoAttrs children hdirective.2 happart.2) false

theorem expandImagesAll_expanded (videoAttrs : List Char) :
    ∀ ns : List Node, Node.ThroughoutAll NoMediaDirective ns →
      Node.ThroughoutAll Node.TextsApart ns →
      ∀ m ∈ expandImagesAll videoAttrs ns, m.isImage ∨ m.Throughout Expanded
  | [], _, _ => fun _ hm => absurd hm List.not_mem_nil
  | n :: ns, hdirective, happart => by
    intro m hm
    rcases List.mem_cons.mp hm with rfl | hm
    · rcases expandImages_expanded videoAttrs n hdirective.1 happart.1 with himage | h
      · left
        cases n with
        | leaf => exact himage
        | parent => cases himage
      · exact Or.inr h
    · exact expandImagesAll_expanded videoAttrs ns hdirective.2 happart.2 m hm

end

/-! ## Faults -/

theorem altFault?_eq_none {alt : String} {data : Fields}
    (h : mediaField data "source" = .null ∨ ∃ s, mediaField data "source" = .str s) :
    altFault? alt data = none := by
  unfold altFault?
  dsimp only
  rcases h with h | ⟨s, h⟩ <;> rw [h]
  · simp [Value.isFalsy]
  · split <;> rfl

theorem altFault?_of_not_blank {alt : String} (h : isAllBlank alt.toList = false) (data : Fields) :
    altFault? alt data = none := by
  simp [altFault?, h]

/-- A list under a name of classes holds texts. -/
def ClassesFit (props : List (Value × Value)) : Prop :=
  ∀ name ∈ ["className", "class"], ∀ vs, Value.under? props name = some (.list vs) →
    ∀ v ∈ vs, isTextValue v

theorem NoClassList.fit {props : List (Value × Value)} (h : NoClassList props) :
    ClassesFit props :=
  fun name hname vs hvs => absurd hvs (h name hname vs)

theorem classFault?_eq_none {props : List (Value × Value)} (h : ClassesFit props) :
    classFault? props = none := by
  unfold classFault?
  split
  · next vs hgiven =>
    refine if_pos (List.all_eq_true.mpr ?_)
    unfold givenClasses at hgiven
    dsimp only at hgiven
    have under_of (name : String) (hg : (Value.under? props name).getD .null = .list vs) :
        Value.under? props name = some (.list vs) := by
      cases hu : Value.under? props name with
      | none => rw [hu] at hg; cases hg
      | some w => rw [hu] at hg; exact congrArg some hg
    split at hgiven
    · exact h "className" (by simp) vs (under_of _ hgiven)
    · exact h "class" (by simp) vs (under_of _ hgiven)
  · rfl

/-- The data of a node fit its use: the source of its media is a text, if there is one, and its
properties are a map whose classes are texts. -/
structure DataFit (data : Fields) : Prop where
  source : mediaField data "source" = .null ∨ ∃ s, mediaField data "source" = .str s
  props : Assoc.find? data "hProperties" = none ∨
    ∃ es, Assoc.find? data "hProperties" = some (.map es) ∧ ClassesFit es

theorem propertyFault?_eq_none {data : Fields} (h : Assoc.find? data "hProperties" = none ∨
    ∃ es, Assoc.find? data "hProperties" = some (.map es) ∧ ClassesFit es) :
    propertyFault? data = none := by
  unfold propertyFault?
  rcases h with h | ⟨es, h, hclasses⟩
  · rw [h]; rfl
  · rw [h, Option.getD_some, Value.entries]
    split
    · next hfault => split at hfault <;> cases hfault
    · next props hprops =>
      split at hprops <;> cases hprops
      · rfl
      · exact classFault?_eq_none hclasses

theorem noImageFault_directives (videoAttrs : Fields) {tree : Node}
    (h : tree.Throughout fun n => DataFit n.data) :
    (expandDirectives videoAttrs tree).Throughout fun n => imageFault? n = none := by
  refine throughout_expandDirectives (fun type data body hfit => ?_) (fun _ _ _ _ _ => rfl) tree h
  cases body with
  | directive name label attributes =>
    simp only [expandDirectives]
    split
    · rcases expandDirective_cases videoAttrs data name label attributes with
        ⟨markup, h⟩ | ⟨props, media, url, alt, h, halt, hprops⟩
      · rw [h]; rfl
      · rw [h]
        simp only [imageFault?, altFault?_of_not_blank halt, Option.none_or]
        exact propertyFault?_eq_none (Or.inr ⟨props, rfl, hprops.fit⟩)
    · rfl
  | image url alt title =>
    have hsource : altFault? alt data = none := altFault?_eq_none hfit.source
    simp only [expandDirectives, imageFault?, hsource, Option.none_or]
    exact propertyFault?_eq_none hfit.props
  | _ => rfl

mutual

theorem directiveFaultIn?_eq_none : ∀ n : Node, n.Throughout Node.FitsType →
    n.Throughout (fun n => DataFit n.data) → directiveFaultIn? n = none
  | .leaf type data body, _, hfit => by
    cases body with
    | directive name label attributes =>
      simp only [directiveFaultIn?, directiveFault?]
      split
      · exact altFault?_eq_none hfit.source
      · rfl
    | _ => rfl
  | .parent type data body children, htype, hfit => by
    have hbelow := directiveFaultAmong?_eq_none children htype.2 hfit.2
    cases body with
    | component name props =>
      have hcomponent : directiveTypes.contains type = false := by
        have hmem : type ∈ componentTypes := htype.1
        simp only [componentTypes, List.mem_cons, List.not_mem_nil, or_false] at hmem
        rcases hmem with rfl | rfl <;> decide
      simp only [directiveFaultIn?, hcomponent, Bool.false_and, Bool.false_eq_true, if_false]
      exact hbelow
    | _ => exact hbelow

theorem directiveFaultAmong?_eq_none : ∀ ns : List Node, Node.ThroughoutAll Node.FitsType ns →
    Node.ThroughoutAll (fun n => DataFit n.data) ns → directiveFaultAmong? ns = none
  | [], _, _ => rfl
  | n :: ns, htype, hfit => by
    rw [directiveFaultAmong?, directiveFaultIn?_eq_none n htype.1 hfit.1,
      directiveFaultAmong?_eq_none ns htype.2 hfit.2, Option.none_or]

end

mutual

theorem imageFaultIn?_eq_none :
    ∀ n : Node, n.Throughout (fun n => imageFault? n = none) → imageFaultIn? n = none
  | .leaf .., _ => rfl
  | .parent _ _ _ children, h => by
    have hrow : children.findSome? imageFault? = none :=
      List.findSome?_eq_none_iff.mpr fun _ hm => Node.of_throughoutAll h.2 hm
    rw [imageFaultIn?, hrow, imageFaultAmong?_eq_none children h.2, Option.none_or]

theorem imageFaultAmong?_eq_none : ∀ ns : List Node,
    Node.ThroughoutAll (fun n => imageFault? n = none) ns → imageFaultAmong? ns = none
  | [], _ => rfl
  | n :: ns, h => by
    rw [imageFaultAmong?, imageFaultIn?_eq_none n h.1, imageFaultAmong?_eq_none ns h.2,
      Option.none_or]

end

/-! ## Main statement -/

/-- An expansion leaves nothing to expand, and nothing stands in its way where data fit. -/
theorem expand_leaves_nothing (videoAttrs : String) (tree : Node) (hroot : tree.isParent)
    (htypes : tree.Throughout Node.FitsType) (happart : tree.Throughout Node.TextsApart) :
    (expand videoAttrs tree).Throughout Expanded ∧
      (tree.Throughout (fun n => DataFit n.data) → expandFault? videoAttrs tree = none) := by
  let attrs := parseLoose videoAttrs.toList
  constructor
  · have hdirectives := noMediaDirective_directives attrs htypes
    have htexts := textsApart_directives attrs happart
    cases tree with
    | leaf => cases hroot
    | parent =>
      exact (expandImages_expanded videoAttrs.toList _ hdirectives htexts).resolve_left nofun
  · intro hfit
    have hdirectives : directivesFault? tree = none := by
      cases tree with
      | leaf => rfl
      | parent => exact directiveFaultAmong?_eq_none _ htypes.2 hfit.2
    have himages : imagesFault? (expandDirectives attrs tree) = none :=
      imageFaultIn?_eq_none _ (noImageFault_directives attrs hfit)
    rw [expandFault?, hdirectives, himages, Option.none_or]

/-- A directive with a block behind it, an image with a block in its title, a directive for a video,
and a video below a link. -/
def sampleTree : Node :=
  Node.root
    [.parent "paragraph" [] (.paragraph false)
      [.leaf "textDirective" [] (.directive "img" none [("src", .str "a.png")]),
        Node.text " \x7b.wide\x7d",
        .leaf "image" [] (.image "b.png" "" (some "\x7b.left\x7d")),
        Node.text "and",
        .leaf "textDirective" [] (.directive "video" none [("src", .str "c.mp4")]),
        .parent "link" [] (.element "a" [("href", .str "d")] false)
          [.leaf "image" [("hProperties", .map [(.str "class", .list [.str "x"])])]
            (.image "e.webm" " " none)]]]

theorem expand_sampleTree : expandFault? defaultVideoAttrs sampleTree = none ∧
    (expand defaultVideoAttrs sampleTree).Throughout Expanded := by
  have htypes : sampleTree.Throughout Node.FitsType := by
    simp [sampleTree, Node.root, Node.text, Node.Throughout, Node.ThroughoutAll, Node.FitsType,
      directiveTypes]
  have happart : sampleTree.Throughout Node.TextsApart := by
    simp [sampleTree, Node.root, Node.text, Node.Throughout, Node.ThroughoutAll, Node.TextsApart,
      Node.children, Node.isText]
  have hplain : DataFit [] := ⟨Or.inl rfl, Or.inl rfl⟩
  have hclasses : DataFit [("hProperties", .map [(.str "class", .list [.str "x"])])] := by
    refine ⟨Or.inl rfl, Or.inr ⟨_, rfl, ?_⟩⟩
    intro name hname vs hvs
    simp only [List.mem_cons, List.not_mem_nil, or_false] at hname
    rcases hname with rfl | rfl <;> simp [Value.under?] at hvs
    subst hvs
    simp [isTextValue]
  have hfit : sampleTree.Throughout fun n => DataFit n.data := by
    simp only [sampleTree, Node.root, Node.text, Node.Throughout, Node.ThroughoutAll, Node.data,
      hplain, hclasses, and_self]
  have h := expand_leaves_nothing defaultVideoAttrs sampleTree rfl htypes happart
  exact ⟨h.2 hfit, h.1⟩

end Document

end DocumentMedia
