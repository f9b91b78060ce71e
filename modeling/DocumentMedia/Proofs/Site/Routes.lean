import DocumentMedia.Proofs.Asset.Identifier
import DocumentMedia.Proofs.Asset.Single
import DocumentMedia.Proofs.Document.Routes
import DocumentMedia.Proofs.Text.LetterCase
import DocumentMedia.Site.Build

/-! # One image in documents of two kinds

In a document ending in `.md` an image keeps the block behind it; in one ending in `.mdx` it becomes
a directive. Read, published, expanded and rendered, both are the same element. -/
namespace DocumentMedia.Site

open DocumentMedia.Text DocumentMedia.Files DocumentMedia.Attribute DocumentMedia.Document
open DocumentMedia.Asset
open DocumentMedia.Markdown (Dialect DirectiveMeta)

/-! ## Reading -/

def metaOf (r : Directive.Reading) : DirectiveMeta :=
  ⟨String.ofList r.name, r.label.map String.ofList, r.attributes.map fun (k, v) => (k, .str v)⟩

/-- The parser reads an image with a block as an image and a text, and the directive that stands in
for it as that directive. -/
structure ReadsBoth (dialect : Dialect) (alt url : List Char) (l : Layout) : Prop where
  image : bodyTree dialect false (String.ofList (imageText alt url l)) =
    imageTree [] (String.ofList url) (String.ofList alt) (String.ofList (braced l.text))
  directive : ∀ r, Directive.text? (standInText alt url l) = some (r, []) →
    bodyTree dialect true (String.ofList (standInText alt url l)) =
      paragraphTree [directiveNode "textDirective" (metaOf r)]

section

variable {folder : Path} {name : String}

theorem suffix_md (h : name ≠ "") : (folder.child (name ++ ".md")).suffix = ".md" := by
  have hname : name.toList ≠ [] := by simpa using h
  have hext : ".md".toList = '.' :: "md".toList := by decide
  rw [Path.suffix, Path.name_child, String.toList_append, hext,
    Path.suffixOf_append hname (by decide) (by decide), ← hext, String.ofList_toList]

theorem suffix_mdx (h : name ≠ "") : (folder.child (name ++ ".mdx")).suffix = ".mdx" := by
  have hname : name.toList ≠ [] := by simpa using h
  have hext : ".mdx".toList = '.' :: "mdx".toList := by decide
  rw [Path.suffix, Path.name_child, String.toList_append, hext,
    Path.suffixOf_append hname (by decide) (by decide), ← hext, String.ofList_toList]

theorem lower_text (folder : Path) (name ext : String)
    (h : ∀ c ∈ ext.toList, c ≠ 'Σ' ∧ c ≠ 'İ') : ∃ front,
      lower (folder.child (name ++ ext)).text.toList = front ++ ext.toList.map lowerChar := by
  obtain ⟨before, hbefore⟩ := Path.text_child folder
  rw [hbefore, ← String.append_assoc, String.toList_append]
  exact lower_append _ h

theorem replaceInSource_md (folder : Path) (name text : String) {ending : String}
    (he : ending = ".mdx") :
    replaceInSource text (folder.child (name ++ ".md")).text ending = text := by
  subst he
  obtain ⟨front, hfront⟩ := lower_text folder name ".md" (forall_mem_of_all (by decide))
  have hsuffix :
      (lower ".mdx".toList).isSuffixOf (front ++ ".md".toList.map lowerChar) = false := by
    have hx : (lower ".mdx".toList).getLast? = some 'x' := by decide
    have hd : (".md".toList.map lowerChar).getLast? = some 'd' := by decide
    rw [Bool.eq_false_iff, ne_eq, List.isSuffixOf_iff_suffix]
    rintro ⟨before, hbefore⟩
    have hlast := congrArg List.getLast? hbefore
    rw [List.getLast?_append, List.getLast?_append, hx, hd] at hlast
    exact absurd (Option.some.inj hlast) (by decide)
  simp only [replaceInSource, hfront, hsuffix, Bool.and_false, Bool.false_eq_true, if_false]

theorem replaceInSource_mdx (folder : Path) (name text : String) {ending : String}
    (he : ending = ".mdx") :
    replaceInSource text (folder.child (name ++ ".mdx")).text ending = replaceImages text := by
  subst he
  obtain ⟨front, hfront⟩ := lower_text folder name ".mdx" (forall_mem_of_all (by decide))
  have hlower : lower ".mdx".toList = ".mdx".toList.map lowerChar := by decide
  have hsuffix :
      (lower ".mdx".toList).isSuffixOf (front ++ ".mdx".toList.map lowerChar) = true := by
    rw [List.isSuffixOf_iff_suffix, hlower]
    exact List.suffix_append _ _
  have hempty : (lower ".mdx".toList).isEmpty = false := by decide
  simp only [replaceInSource, hfront, hsuffix, hempty, Bool.not_false, Bool.and_self, if_true]

theorem readHeader_of_head {text : List Char} (h : text.head? ≠ some '-') :
    readHeader (String.ofList text) = .ok ([], String.ofList text) := by
  have hsplit : splitHeader? text = none := by
    unfold splitHeader?
    cases text with
    | nil => rfl
    | cons c cs =>
      have hc : '-' ≠ c := fun he => h (by rw [he]; rfl)
      have hdash : "---".toList = '-' :: "--".toList := by decide
      rw [hdash, dropHead?, if_neg hc]
  unfold readHeader
  rw [String.toList_ofList, hsplit]

variable {reading : Reading} {dialect : Dialect}

theorem readPage_of_head (hd : Dialect.ofName? reading.dialect = some dialect) {path : Path}
    {source : String} {body : List Char}
    (hsource : replaceInSource source path.text reading.ending = String.ofList body)
    (h : body.head? ≠ some '-') :
    readPage reading path source = .ok ⟨path, slugify path.stem "doc", String.ofList body, [],
      bodyTree dialect (lowerString path.suffix = ".mdx") (String.ofList body)⟩ := by
  unfold readPage
  simp only [hsource, readHeader_of_head h, hd]
  rfl

theorem readPage_image (folder : Path) (hd : Dialect.ofName? reading.dialect = some dialect)
    (he : reading.ending = ".mdx") (hn : name ≠ "") {alt url : List Char} {l : Layout}
    (h : ReadsBoth dialect alt url l) : ∃ slug,
      readPage reading (folder.child (name ++ ".md")) (String.ofList (imageText alt url l)) =
        .ok ⟨folder.child (name ++ ".md"), slug, String.ofList (imageText alt url l), [],
          imageTree [] (String.ofList url) (String.ofList alt) (String.ofList (braced l.text))⟩ := by
  have hsource := replaceInSource_md folder name (String.ofList (imageText alt url l)) he
  have hcomponents : decide (lowerString ".md" = ".mdx") = false := by decide
  rw [readPage_of_head hd hsource (by simp [imageText]), suffix_md hn, hcomponents, h.image]
  exact ⟨_, rfl⟩

theorem readPage_standIn (folder : Path) (hd : Dialect.ofName? reading.dialect = some dialect)
    (he : reading.ending = ".mdx") (hn : name ≠ "") {alt url : List Char} {l : Layout}
    (h : ReadsBoth dialect alt url l) (ha : IsLabel alt) (hu : IsReference url) (hl : IsLine l) :
    ∃ slug, readPage reading (folder.child (name ++ ".mdx")) (String.ofList (imageText alt url l)) =
      .ok ⟨folder.child (name ++ ".mdx"), slug, String.ofList (standInText alt url l), [],
        directiveTree [] (String.ofList alt) (Assoc.ofPairs (directiveEntries url l))⟩ := by
  have hsource := replaceInSource_mdx folder name (String.ofList (imageText alt url l)) he
  rw [replaceImages_imageText ha hu hl.toWellFormed] at hsource
  have hcomponents : decide (lowerString ".mdx" = ".mdx") = true := by decide
  have hhead : (standInText alt url l).head? ≠ some '-' := by
    have himg : ":img[".toList = ':' :: "img[".toList := by decide
    rw [standInText, himg]
    simp
  have htree : bodyTree dialect true (String.ofList (standInText alt url l)) =
      directiveTree [] (String.ofList alt) (Assoc.ofPairs (directiveEntries url l)) := by
    have hread := text?_standInText ha.chars hu hl []
    rw [List.append_nil] at hread
    rw [h.directive _ hread, metaOf, Directive.Reading.attributes, Option.getD_some,
      attributes_directive hl.toWellFormed hu]
    rfl
  rw [readPage_of_head hd hsource hhead, suffix_mdx hn, hcomponents, htree]
  exact ⟨_, rfl⟩

end

/-! ## Publishing -/

/-- What a node notes of the asset that was published for its reference. -/
def notesOf : Option Asset → Fields
  | none => []
  | some a => [("media", .media a.media)]

/-- What a reference is shown as. -/
def shownUrl (raw : String) (a : Option Asset) : String := (a.map (·.publicPath)).getD raw

theorem references_imageTree (path : Path) (url alt block : String) :
    references ⟨path, imageTree [] url alt block, some []⟩ = [url] ∧
      beforeMisfit? ⟨path, imageTree [] url alt block, some []⟩ = none := by
  have hnodes : iterNodes (fun _ => true) (imageTree [] url alt block) =
      [.parent "paragraph" [] (.paragraph false)
        [.leaf "image" [] (.image url alt none), Node.text block],
        .leaf "image" [] (.image url alt none), Node.text block] := by
    simp [iterNodes, imageTree, paragraphTree, Node.root, Node.children, Node.text, iterFrom]
  constructor
  · simp only [references, hnodes]
    rfl
  · simp only [beforeMisfit?, hnodes]
    rfl

theorem directiveSource?_img (alt : String) {url : String} {attributes : Fields}
    (h : Assoc.find? attributes "src" = some (.str url)) :
    directiveSource? (.leaf "textDirective" [] (.directive "img" (some alt) attributes)) =
      some url := by
  have hname : (directiveTypes.contains "textDirective" && isMediaName "img") = true := by decide
  simp only [directiveSource?, hname, if_true, h]

theorem references_directiveTree (path : Path) (alt : String) {url : String} {attributes : Fields}
    (h : Assoc.find? attributes "src" = some (.str url)) :
    references ⟨path, directiveTree [] alt attributes, some []⟩ = [url] ∧
      beforeMisfit? ⟨path, directiveTree [] alt attributes, some []⟩ = none := by
  have hnodes : iterNodes (fun _ => true) (directiveTree [] alt attributes) =
      [.parent "paragraph" [] (.paragraph false)
        [.leaf "textDirective" [] (.directive "img" (some alt) attributes)],
        .leaf "textDirective" [] (.directive "img" (some alt) attributes)] := by
    simp [iterNodes, directiveTree, paragraphTree, Node.root, Node.children, iterFrom]
  have hsource := directiveSource?_img alt h
  constructor
  · simp only [references, hnodes, List.filterMap_cons, hsource]
    rfl
  · simp only [beforeMisfit?, hnodes]
    rfl

theorem relinkNodes_image (publish : String → Option Asset) (url alt block : String) :
    ((imageTree [] url alt block).withChildren
      (relinkNodes publish (imageTree [] url alt block).children)) =
      imageTree (notesOf (publish url)) (shownUrl url (publish url)) alt block := by
  simp only [imageTree, paragraphTree, Node.root, Node.children, Node.withChildren, relinkNodes,
    relinkNode, relinkLeaf, relinkParent, imageSource?, Node.text, Option.bind_some,
    Option.bind_eq_bind]
  cases publish url <;> rfl

theorem relinkNodes_directive (publish : String → Option Asset) {url alt : String}
    {attributes : Fields} (h : Assoc.find? attributes "src" = some (.str url)) :
    ((directiveTree [] alt attributes).withChildren
      (relinkNodes publish (directiveTree [] alt attributes).children)) =
      directiveTree (notesOf (publish url)) alt (Assoc.putAll attributes
        ((publish url).toList.map fun a => ("src", .str a.publicPath))) := by
  have hsource := directiveSource?_img alt h
  simp only [directiveTree, paragraphTree, Node.root, Node.children, Node.withChildren, relinkNodes,
    relinkNode, relinkLeaf, relinkParent, hsource, Option.bind_some, Option.bind_eq_bind]
  cases publish url <;> rfl

/-! ## The element -/

/-- What comes of a document: what is shared after its scan, and the copies to wait for with the
HTML, or the failure of the scan. -/
def processed (reading : Reading) (p : Publisher) (videoAttrs : String) (t : Tree) (now : String)
    (s : Shared) (path : Path) (source : String) :
    Except PageError (Shared × Except PublishError (List Path × String)) :=
  (readPage reading path source).map fun page =>
    let (shared, outcome) := scan p t now (draftOf page) s
    (shared, outcome.map fun (jobs, result) =>
      (jobs, renderTree (finish videoAttrs page result).page.tree))

/-- An image keeps all entries of a layout in either notation: there are none but classes and a
style when it is a video, and none for its size when the size of the picture is known. -/
structure Keeps (l : Layout) (raw : String) (a : Option Asset) : Prop where
  video : isVideoKind (notesOf a) || isVideoUrl (shownUrl raw a) → l.free = []
  size : Sized (notesOf a) → ∀ q ∈ l.free, String.ofList q.1 ∉ ["width", "height"]

theorem Keeps.beside {l : Layout} {raw : String} {a : Option Asset} (h : Keeps l raw a)
    (hl : l.Portable) : Beside (notesOf a) (dressOf l).free := by
  refine ⟨dressOf_own hl, fun hs => ?_⟩
  have hkeys {key : String} (hk : key ∈ Assoc.keys (dressOf l).free) :
      key ∉ ["width", "height"] := by
    obtain ⟨e, he, rfl⟩ := List.mem_map.mp hk
    rcases Assoc.mem_of_mem_putAll he with he | he
    · cases he
    · obtain ⟨q, hq, rfl⟩ := List.mem_map.mp he
      exact h.size hs q hq
  exact ⟨fun hk => absurd (hkeys hk) (by decide), fun hk => absurd (hkeys hk) (by decide)⟩

section

variable {url : List Char}

theorem isImageKind_notesOf (p : Publisher) (t : Tree) (document : Path) (hu : IsReference url)
    (hm : isMediaExt (extOf url))
    (hs : Sized (notesOf (p.published t document (String.ofList url)))) :
    isImageKind (notesOf (p.published t document (String.ofList url))) := by
  cases ha : p.published t document (String.ofList url) with
  | none =>
    rw [ha] at hs
    exact absurd hs.1 (by decide)
  | some a =>
    rw [ha] at hs
    have hwidth : a.media.width ≠ none := by
      intro hnone
      have hw := hs.1
      simp [notesOf, mediaField, Assoc.find?, hnone, Value.isTruthy, Value.isFalsy] at hw
    have hkind := published_sized hu hm ha hwidth
    simp [notesOf, isImageKind, mediaField, Assoc.find?, hkind]

theorem trimmed_shownUrl (p : Publisher) (t : Tree) (document : Path) (hu : IsReference url)
    (hm : isMediaExt (extOf url)) :
    Trimmed (shownUrl (String.ofList url)
      (p.published t document (String.ofList url))).toList := by
  cases ha : p.published t document (String.ofList url) with
  | none =>
    rw [shownUrl, Option.map_none, Option.getD_none, String.toList_ofList]
    exact hu.trimmed
  | some a => exact published_trimmed hu hm ha

/-- A document with one reference, read, published and expanded. -/
theorem processed_single (p : Publisher) (t : Tree) {document : Path} {reading : Reading}
    {source : String} {page : Page} {raw : String}
    (hread : readPage reading document source = .ok page) (hpath : page.path = document)
    (hrefs : references (draftOf page) = [raw]) (hm : beforeMisfit? (draftOf page) = none)
    (videoAttrs now : String) (s : Shared) :
    processed reading p videoAttrs t now s document source =
      .ok ((scanFind t now s (p.find t document raw)).1,
        (scanFind t now s (p.find t document raw)).2.map fun jobs =>
          (jobs, renderTree (expand videoAttrs
            (page.tree.withChildren (relinkNodes (only raw (p.published t document raw))
              page.tree.children))))) := by
  have hscan : scan p t now (draftOf page) s = _ := scan_single hrefs hm now s
  have hdocument : (draftOf page).path = document := hpath
  rw [hdocument] at hscan
  unfold processed
  rw [hread, Except.map, hscan]
  dsimp only
  cases (scanFind t now s (p.find t document raw)).2 <;> rfl

end

section

variable {reading : Reading} {dialect : Dialect} {alt url : List Char} {l : Layout} {p : Publisher}
  {t : Tree} {folder : Path}

theorem render_relinked (ha : IsLabel alt) (hu : IsReference url) (hm : isMediaExt (extOf url))
    (hl : l.Portable) {document : Path}
    (hk : Keeps l (String.ofList url) (p.published t document (String.ofList url)))
    (videoAttrs : String) :
    let publish := only (String.ofList url) (p.published t document (String.ofList url))
    let image := imageTree [] (String.ofList url) (String.ofList alt)
      (String.ofList (braced l.text))
    let directive := directiveTree [] (String.ofList alt) (Assoc.ofPairs (directiveEntries url l))
    renderTree (expand videoAttrs
        (directive.withChildren (relinkNodes publish directive.children))) =
      renderTree (expand videoAttrs (image.withChildren (relinkNodes publish image.children))) := by
  intro publish image directive
  have hpublish : publish (String.ofList url) = p.published t document (String.ofList url) :=
    if_pos rfl
  have hkind := isImageKind_notesOf p t document hu hm
  have htrim := trimmed_shownUrl p t document hu hm
  have hsource := source_directiveEntries url hl
  generalize p.published t document (String.ofList url) = a at hk hpublish hkind htrim
  have hcarries : Carries (dressOf l) (shownUrl (String.ofList url) a).toList
      (Assoc.ofPairs (directiveEntries url l ++
        a.toList.map fun a => ("src", .str a.publicPath))) := by
    refine carries_directiveEntries ?_ hl
    cases a with
    | none => exact Or.inl ⟨rfl, String.toList_ofList⟩
    | some a => exact Or.inr (by simp [shownUrl])
  have hdata : Assoc.find? (notesOf a) "hProperties" = none := by
    cases a <;> simp [notesOf, Assoc.find?]
  have hvideo := hk.video
  have hshown := String.ofList_toList (s := shownUrl (String.ofList url) a)
  rw [← hshown] at hvideo
  have hrender := render_expand_routes hl hcarries htrim ha.toTrimmed hdata hkind (hk.beside hl)
    hvideo videoAttrs
  rw [relinkNodes_directive publish hsource, relinkNodes_image, hpublish, Assoc.ofPairs,
    ← Assoc.putAll_append]
  rw [hshown] at hrender
  exact hrender

end

/-! ## Samples -/

/-- Whether a tree is a paragraph of an image and a text. -/
def isImageTree (url alt block : String) : Node → Bool
  | .parent "root" [] .root [.parent "paragraph" [] (.paragraph false)
      [.leaf "image" [] (.image url' alt' none), .leaf "text" [] (.text block')]] =>
    url' = url && alt' = alt && block' = block
  | _ => false

theorem eq_imageTree {url alt block : String} {n : Node} (h : isImageTree url alt block n) :
    n = imageTree [] url alt block := by
  unfold isImageTree at h
  split at h
  · simp only [Bool.and_eq_true, decide_eq_true_eq] at h
    obtain ⟨⟨rfl, rfl⟩, rfl⟩ := h
    rfl
  · cases h

/-- Whether fields are the given texts. -/
def areTexts : Fields → Assoc String String → Bool
  | [], [] => true
  | (k, .str v) :: es, (k', v') :: es' => k = k' && v = v' && areTexts es es'
  | _, _ => false

theorem eq_texts {es : Fields} {texts : Assoc String String} (h : areTexts es texts) :
    es = texts.map fun (k, v) => (k, .str v) := by
  induction es generalizing texts with
  | nil =>
    cases texts with
    | nil => rfl
    | cons _ _ => cases h
  | cons e es ih =>
    obtain ⟨k, v⟩ := e
    cases texts with
    | nil => cases v <;> cases h
    | cons e' texts =>
      cases v with
      | str v =>
        simp only [areTexts, Bool.and_eq_true, decide_eq_true_eq] at h
        obtain ⟨⟨rfl, rfl⟩, h⟩ := h
        rw [ih h]
        rfl
      | _ => cases h

/-- Whether a tree is a paragraph of a directive. -/
def isDirectiveTree (m : Directive.Reading) : Node → Bool
  | .parent "root" [] .root [.parent "paragraph" [] (.paragraph false)
      [.leaf "textDirective" [] (.directive name label attributes)]] =>
    name = String.ofList m.name && label = m.label.map String.ofList &&
      areTexts attributes m.attributes
  | _ => false

theorem eq_directiveTree {m : Directive.Reading} {n : Node} (h : isDirectiveTree m n) :
    n = paragraphTree [directiveNode "textDirective" (metaOf m)] := by
  unfold isDirectiveTree at h
  split at h
  · simp only [Bool.and_eq_true, decide_eq_true_eq] at h
    obtain ⟨⟨rfl, rfl⟩, h⟩ := h
    rw [eq_texts h]
    rfl
  · cases h

def sampleLayout : Layout where
  items := [([], .name "wide".toList), ([' '], .mark "one".toList),
    ([' '], .pair "class".toList "b wide".toList), ([' '], .pair "style".toList "x:1".toList),
    ([' '], .pair "title".toList "A cat".toList)]
  tail := []

/-- A picture beside the documents, two pixels wide. -/
def sampleFiles : Tree :=
  ⟨[(["docs"], .directory), (["docs", "cat.gif"], .file (.bytes [71, 73, 70, 56, 57, 97, 2, 0, 1, 0,
    0, 0, 0, 44, 0, 0, 0, 0, 2, 0, 1, 0, 0, 2]))], []⟩

theorem sample_reads_both :
    ReadsBoth .gfm "Cat".toList "cat.gif".toList sampleLayout := by
  constructor
  · apply eq_imageTree
    decide +kernel
  · intro r hr
    have hall : (Directive.text? (standInText "Cat".toList "cat.gif".toList sampleLayout)).all
      (fun r => isDirectiveTree r.1 (bodyTree .gfm true (String.ofList
        (standInText "Cat".toList "cat.gif".toList sampleLayout)))) = true := by decide +kernel
    simp only [hr, Option.all_some] at hall
    exact eq_directiveTree hall

theorem sample_kept : Keeps sampleLayout (String.ofList "cat.gif".toList)
    (Publisher.published {} sampleFiles ((Path.ofString "docs").child ("a" ++ ".md"))
      (String.ofList "cat.gif".toList)) := by
  have hvideo : (isVideoKind (notesOf (Publisher.published {} sampleFiles
      ((Path.ofString "docs").child ("a" ++ ".md")) (String.ofList "cat.gif".toList))) ||
      isVideoUrl (shownUrl (String.ofList "cat.gif".toList) (Publisher.published {} sampleFiles
        ((Path.ofString "docs").child ("a" ++ ".md")) (String.ofList "cat.gif".toList)))) =
      false := by decide +kernel
  refine ⟨fun h => ?_, fun _ => by decide⟩
  rw [hvideo] at h
  cases h

/-- The HTML of a document by its name, in the folder of the sample picture. -/
def sampleHtml (name source : String) : Option String :=
  ((processed {} {} defaultVideoAttrs sampleFiles "" ⟨[], []⟩ ((Path.ofString "docs").child name)
    source).toOption.bind fun out => out.2.toOption).map (·.2)

end DocumentMedia.Site
