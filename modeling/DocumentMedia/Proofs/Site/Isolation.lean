import DocumentMedia.Proofs.Asset.PublicPath
import DocumentMedia.Proofs.Asset.Title
import DocumentMedia.Site.Build

/-! # Documents kept apart

When documents are kept apart, the target of an asset tells the title of its document. So documents
share a target when they have one title and publish the same content, and only then: those that
differ in their extensions, or in their folders outside of content roots, are not kept apart. -/
namespace DocumentMedia.Asset

open DocumentMedia.Files
open DocumentMedia.Files.Path (piecesOf partsOf partsAmong)
open DocumentMedia.Text

/-! ## Targets -/

theorem partsOf_dropWhile (s : List Char) : partsOf (s.dropWhile (· = '/')) = partsOf s := by
  induction s with
  | nil => rfl
  | cons c s ih =>
    by_cases hc : c = '/'
    · rw [hc, List.dropWhile_cons, if_pos (by decide), ih]
      exact (Path.partsOf_append [] s).symm
    · rw [List.dropWhile_cons, if_neg (by simpa using hc)]

/-- The target is below the public directory, wherever the public path begins. -/
theorem Publisher.targetOf_eq (p : Publisher) (url : String) : p.targetOf url =
    ⟨p.publicDir.root, p.publicDir.parts ++ (partsOf url.toList).map String.ofList⟩ := by
  have hhead : (url.toList.dropWhile (· = '/')).head? ≠ some '/' := by
    intro h
    have hnot := List.head?_dropWhile_not (· = '/') url.toList
    rw [h] at hnot
    simp at hnot
  have hrelative : (Path.ofString (String.ofList (url.toList.dropWhile (· = '/')))).isAbsolute =
      false := by
    rw [Path.isAbsolute, Path.ofString, String.toList_ofList]
    unfold Path.rootOf
    split
    · next he => exact absurd (congrArg List.head? he) hhead
    · next he => exact absurd (congrArg List.head? he) hhead
    · next he => exact absurd (congrArg List.head? he) hhead
    · rfl
  rw [Publisher.targetOf, Path.join, hrelative, Path.parts_ofString, String.toList_ofList,
    partsOf_dropWhile]
  rfl

theorem Publisher.targetOf_inj {p : Publisher} {url url' : String} :
    p.targetOf url = p.targetOf url' ↔ partsOf url.toList = partsOf url'.toList := by
  have hmap : Function.Injective (List.map String.ofList) :=
    List.map_injective_iff.mpr fun _ _ => String.ofList_inj.mp
  rw [targetOf_eq, targetOf_eq, Files.Path.mk.injEq, List.append_cancel_left_eq, hmap.eq_iff]
  exact and_iff_right rfl

theorem partsOf_publicPath (mode : DedupeMode) (base id : String) {digest ext : String}
    (hslash : '/' ∉ digest.toList ++ ext.toList)
    (hpart : Path.IsPart (digest.toList ++ ext.toList)) :
    partsOf (publicPath mode base id digest ext).toList =
      partsOf (trimSlashes base.toList) ++ (partsOf (middle mode id) ++
        [digest.toList ++ ext.toList]) := by
  rw [toList_publicPath, ← List.nil_append ('/' :: _), Path.partsOf_append, Path.partsOf_append,
    Path.partsOf_append, Path.partsOf_plain hslash hpart]
  rfl

theorem partsOf_middle_perPost (id : String) :
    partsOf (middle .perPost id) = "images".toList :: partsOf id.toList := by
  have himages : partsOf "images".toList = ["images".toList] := by decide
  rw [middle_perPost, Path.partsOf_append, himages]
  rfl

theorem isPart_name (bytes : Bytes) (ext : List Char) :
    Path.IsPart ((Sha1.hexDigest bytes).toList ++ ext) := by
  have hlength : 40 ≤ ((Sha1.hexDigest bytes).toList ++ ext).length := by
    rw [List.length_append, Sha1.length_hexDigest]
    omega
  constructor <;> (intro he; rw [he] at hlength; exact absurd hlength (by decide))

theorem name_inj {bytes bytes' : Bytes} {ext ext' : String} :
    (Sha1.hexDigest bytes).toList ++ ext.toList = (Sha1.hexDigest bytes').toList ++ ext'.toList ↔
      Sha1.hexDigest bytes = Sha1.hexDigest bytes' ∧ ext = ext' := by
  constructor
  · intro h
    obtain ⟨hhash, hext⟩ := List.append_inj h (by rw [Sha1.length_hexDigest, Sha1.length_hexDigest])
    exact ⟨String.toList_inj.mp hhash, String.toList_inj.mp hext⟩
  · rintro ⟨hhash, rfl⟩
    rw [hhash]

/-- Finds of documents that are kept apart share a target just when their documents have one
identifier, up to slashes and points, and they one name. -/
theorem target_eq_iff {p : Publisher} {t t' : Tree} {document document' : Path} {raw raw' : String}
    {f f' : Find} (hmode : p.mode = .perPost) (h : p.find t document raw = .ok (some f))
    (h' : p.find t' document' raw' = .ok (some f')) :
    f.asset.target = f'.asset.target ↔
      f.asset.hash = f'.asset.hash ∧ f.asset.media.ext = f'.asset.media.ext ∧
        partsOf (p.idOf document).toList = partsOf (p.idOf document').toList := by
  have hext := ext_of_find h
  have hext' := ext_of_find h'
  obtain ⟨reference, bytes, -, -, -, hf⟩ := Publisher.find_spec h
  obtain ⟨reference', bytes', -, -, -, hf'⟩ := Publisher.find_spec h'
  have hname := partsOf_publicPath .perPost p.publicBase (p.idOf document)
    (notMem_name bytes hext (by decide)) (isPart_name bytes _)
  have hname' := partsOf_publicPath .perPost p.publicBase (p.idOf document')
    (notMem_name bytes' hext' (by decide)) (isPart_name bytes' _)
  rw [partsOf_middle_perPost] at hname hname'
  rw [hf, hf', Publisher.target_findOf, Publisher.target_findOf, Publisher.hash_findOf,
    Publisher.hash_findOf, Publisher.ext_findOf, Publisher.ext_findOf, Publisher.targetOf_inj,
    hmode, hname, hname', List.append_cancel_left_eq, List.append_singleton_inj, List.cons.injEq,
    name_inj]
  constructor
  · rintro ⟨⟨-, hid⟩, hhash, hext⟩
    exact ⟨hhash, hext, hid⟩
  · rintro ⟨hhash, hext, hid⟩
    exact ⟨⟨rfl, hid⟩, hhash, hext⟩

end DocumentMedia.Asset

namespace DocumentMedia.Site

open DocumentMedia.Asset
open DocumentMedia.Asset.Batch
open DocumentMedia.Files
open DocumentMedia.Files.Path (piecesOf partsOf partsAmong)
open DocumentMedia.Text

/-! ## Titles of documents -/

/-- The pieces of the path of a document, which may be written with backslashes. -/
def piecesOfPath (p : Path) : List (List Char) := piecesOf (slashed p.text.toList)

def HasTitle (root : String) (p : Path) (title : List (List Char)) : Prop :=
  Title (rootPieces root) (piecesOfPath p) title

/-- A content root at the very beginning of the path is not the only one that stands in it. -/
def NotFirstOnly (root : String) (p : Path) : Prop :=
  rootPieces root <+: (piecesOfPath p).dropLast →
    rootPieces root <:+: (piecesOfPath p).dropLast.tail

instance (root : String) (p : Path) : Decidable (NotFirstOnly root p) :=
  inferInstanceAs (Decidable (_ → _))

theorem documentLetters_ascii : ∀ p ∈ documentLetters, p.toNat < 128 ∧ p ≠ '\x00' :=
  forall_mem_of_all (by decide)

/-- The path of a document is a text with an extension of documents at its end. -/
theorem exists_documentExt {p : Path} (h : isDocument p = true) :
    ∃ front ext, p.text.toList = front ++ ext ∧ IsDocumentExt ext := by
  have hsuffixes :
      documentSuffixes = documentWords.map fun w => String.ofList ('.' :: w.toList) := by
    decide
  obtain ⟨w, hw, hlower⟩ := List.mem_map.mp (hsuffixes ▸ List.contains_iff_mem.mp h)
  rw [lowerString, Path.suffix, String.toList_ofList, String.ofList_inj] at hlower
  obtain ⟨x, hx, hword⟩ := exists_word_of_lower
    (fun p hp => documentLetters_ascii p (mem_documentLetters hw hp)) hlower.symm
  obtain ⟨stem, hstem⟩ := Path.suffixOf_suffix p.name.toList
  rw [hx] at hstem
  have hparts : p.parts ≠ [] := by
    intro he
    rw [Path.name, he] at hx
    cases hx
  obtain ⟨before, hbefore⟩ := Path.text_child p.parent
  refine ⟨before.toList ++ stem, '.' :: x, ?_, w, hw, x, rfl, hword⟩
  rw [← Path.child_parent hparts, hbefore, String.toList_append, ← hstem, List.append_assoc]

theorem exists_hasTitle {root : String} {p : Path} (h : isDocument p = true)
    (hroot : NotFirstOnly root p) : ∃ title, HasTitle root p title := by
  obtain ⟨front, ext, htext, he⟩ := exists_documentExt h
  obtain ⟨folders, stem, hfront⟩ := Path.exists_piecesOf_concat (slashed front)
  have hpieces : piecesOfPath p = folders ++ [stem ++ ext] := by
    rw [piecesOfPath, htext, slashed_append, slashed_plain (he.notMem (by decide)),
      Path.piecesOf_append_plain hfront (he.notMem (by decide))]
  rw [NotFirstOnly, hpieces, List.dropLast_concat] at hroot
  exact exists_title hpieces he hroot

example : HasTitle "src/content" (Path.ofString "/site/src\\content/blog/a.MDX")
    ["blog".toList, "a".toList] := by
  have hpieces : piecesOfPath (Path.ofString "/site/src\\content/blog/a.MDX") =
      [[], "site".toList] ++ (rootPieces "src/content" ++
        (["blog".toList] ++ ["a".toList ++ ".MDX".toList])) := by
    decide +kernel
  rw [HasTitle, hpieces]
  exact .below (by decide) (by decide +kernel) (by decide)

section

variable {L : Batch → Event → Batch → Prop} {l : Localizer} {now : String} {files : Tree}
  {store : Ledger.Store} {drafts : List Draft} {es : List Event} {b : Batch} {i j : Nat}
  {d d' : Draft} {result result' : Localized} {a a' : Asset}

/-- Documents that are kept apart share a target just when they have one title and publish the same
content under the same extension. -/
theorem targets_tell_titles (h : Execution L (l.batch now files store drafts) es b)
    (hmode : l.publisher.mode = .perPost) (hid : l.publisher.fixedId = none)
    (hi : b.docs[i]? = some (d, .returned result)) (hj : b.docs[j]? = some (d', .returned result'))
    (hd : isDocument d.path = true) (hd' : isDocument d'.path = true)
    (hroot : NotFirstOnly l.publisher.contentRoot d.path)
    (hroot' : NotFirstOnly l.publisher.contentRoot d'.path)
    (ha : a ∈ result.assets) (ha' : a' ∈ result'.assets) :
    ∃ title title', HasTitle l.publisher.contentRoot d.path title ∧
      HasTitle l.publisher.contentRoot d'.path title' ∧
      (a.target = a'.target ↔ a.hash = a'.hash ∧ a.media.ext = a'.media.ext ∧
        partsAmong title = partsAmong title') := by
  obtain ⟨title, htitle⟩ := exists_hasTitle hd hroot
  obtain ⟨title', htitle'⟩ := exists_hasTitle hd' hroot'
  obtain ⟨t, raw, f, hf, rfl⟩ := found_of_returned h hi ha
  obtain ⟨t', raw', f', hf', rfl⟩ := found_of_returned h hj ha'
  refine ⟨title, title', htitle, htitle', ?_⟩
  rw [target_eq_iff hmode hf hf', Publisher.idOf, Publisher.idOf, hid, Option.getD_none,
    Option.getD_none, partsOf, partsOf, Title.piecesOf_postId htitle,
    Title.piecesOf_postId htitle']

end

section Sample

/-- Two folders with a file of one content in each, and the folders of two titles. -/
def folderFiles : Tree :=
  ⟨[(["x"], .directory), (["x", "m.mp4"], .file (.bytes [1, 2, 3])), (["y"], .directory),
    (["y", "m.mp4"], .file (.bytes [1, 2, 3])), (["public"], .directory),
    (["public", "assets"], .directory), (["public", "assets", "images"], .directory),
    (["public", "assets", "images", "a"], .directory),
    (["public", "assets", "images", "b"], .directory)], []⟩

def folderDrafts : List Draft :=
  [["x", "a.md"], ["y", "a.md"], ["y", "b.md"]].map fun parts =>
    { sampleDraft "" ["m.mp4"] with path := ⟨"", parts⟩ }

def apart : Publisher := { mode := .perPost }

def apartStart : Batch :=
  (Localizer.start apart []).batch "2024" folderFiles (.memory [] 0) folderDrafts

def folderHash : String := "7037807198c22a7d2b0807371d763779a84fdfcf"

def apartTarget (name : String) : Path :=
  ⟨"", ["public", "assets", "images", name, folderHash ++ ".mp4"]⟩

/-- All documents are scanned, two files are copied, and the documents return one by one. -/
def apartEvents : List Event :=
  let one := folderFiles.put (apartTarget "a").parts (.file (.bytes [1, 2, 3]))
  let both := one.put (apartTarget "b").parts (.file (.bytes [1, 2, 3]))
  [.scan 0, .scan 1, .scan 2, .start (apartTarget "a"), .settle (apartTarget "a") one none,
    .start (apartTarget "b"), .settle (apartTarget "b") both none, .take 0,
    .save (.ok (.memory [] 1, both)), .take 1, .save (.ok (.memory [] 2, both)), .take 2,
    .save (.ok (.memory [] 3, both))]

/-- The documents, with the hashes and targets of those that returned. -/
def targetsIn (b : Batch) : List (Path × Option (List (String × Path))) :=
  b.docs.map fun (d, phase) =>
    match phase with
    | .returned result => (d.path, some (result.assets.map fun a => (a.hash, a.target)))
    | _ => (d.path, none)

theorem returned_of_targetsIn {b : Batch} {i : Nat} {p target : Path} {hash : String}
    (h : (targetsIn b)[i]? = some (p, some [(hash, target)])) :
    ∃ d result a, b.docs[i]? = some (d, .returned result) ∧ d.path = p ∧ a ∈ result.assets ∧
      a.hash = hash ∧ a.target = target := by
  rw [targetsIn, List.getElem?_map] at h
  obtain ⟨⟨d, phase⟩, hd, hshown⟩ := Option.map_eq_some_iff.mp h
  cases phase with
  | returned result =>
    cases hassets : result.assets with
    | nil => simp [hassets] at hshown
    | cons a as =>
      simp only [hassets, List.map_cons, Prod.mk.injEq, Option.some.injEq, List.cons.injEq]
        at hshown
      exact ⟨d, result, a, hd, hshown.1, by rw [hassets]; exact List.mem_cons_self,
        hshown.2.1.1, hshown.2.1.2⟩
  | _ => cases hshown

def apartShown : List (Path × Option (List (String × Path))) :=
  [(⟨"", ["x", "a.md"]⟩, some [(folderHash, apartTarget "a")]),
    (⟨"", ["y", "a.md"]⟩, some [(folderHash, apartTarget "a")]),
    (⟨"", ["y", "b.md"]⟩, some [(folderHash, apartTarget "b")])]

theorem apart_run : ∃ b,
    Execution (Undisturbed (· ∈ [apartTarget "a", apartTarget "b"])) apartStart apartEvents b ∧
      targetsIn b = apartShown := by
  have h : (checked (isUndisturbed [apartTarget "a", apartTarget "b"]) apartStart
      apartEvents).map targetsIn = some apartShown := by
    decide +kernel
  obtain ⟨b, hb, hshown⟩ := Option.map_eq_some_iff.mp h
  exact ⟨b, execution_of_checked undisturbed_of_check hb, hshown⟩

theorem targets_tell_titles_sample : ∃ (b : Batch) (d d' : Draft) (result result' : Localized)
    (a a' : Asset), b.docs[1]? = some (d, .returned result) ∧
      b.docs[2]? = some (d', .returned result') ∧ a ∈ result.assets ∧ a' ∈ result'.assets ∧
      a.hash = a'.hash ∧ a.target ≠ a'.target := by
  obtain ⟨b, hrun, hshown⟩ := apart_run
  obtain ⟨d, result, a, hi, hd, ha, hhash, -⟩ := returned_of_targetsIn (b := b) (i := 1)
    (by rw [hshown]; rfl)
  obtain ⟨d', result', a', hj, hd', ha', hhash', -⟩ := returned_of_targetsIn (b := b) (i := 2)
    (by rw [hshown]; rfl)
  have hdoc : isDocument d.path ∧ NotFirstOnly "src/content" d.path := by
    rw [hd]
    decide +kernel
  have hdoc' : isDocument d'.path ∧ NotFirstOnly "src/content" d'.path := by
    rw [hd']
    decide +kernel
  obtain ⟨title, title', htitle, htitle', hiff⟩ :=
    targets_tell_titles (l := Localizer.start apart []) hrun rfl rfl hi hj hdoc.1 hdoc'.1 hdoc.2
      hdoc'.2 ha ha'
  refine ⟨b, d, d', result, result', a, a', hi, hj, ha, ha', hhash.trans hhash'.symm, ?_⟩
  intro htarget
  have htitles := (hiff.mp htarget).2.2
  rw [← Title.piecesOf_postId htitle, ← Title.piecesOf_postId htitle', hd, hd'] at htitles
  exact absurd htitles (by decide +kernel)

/-- Outside of content roots, documents of one name in two folders share a target. -/
theorem same_names_share_target : ∃ (b : Batch) (d d' : Draft) (result result' : Localized)
    (a a' : Asset),
      Execution (Undisturbed (· ∈ [apartTarget "a", apartTarget "b"])) apartStart apartEvents b ∧
      b.docs[0]? = some (d, .returned result) ∧ b.docs[1]? = some (d', .returned result') ∧
      d.path ≠ d'.path ∧ isDocument d.path ∧ isDocument d'.path ∧ a ∈ result.assets ∧
      a' ∈ result'.assets ∧ a.target = a'.target := by
  obtain ⟨b, hrun, hshown⟩ := apart_run
  obtain ⟨d, result, a, hi, hd, ha, -, htarget⟩ := returned_of_targetsIn (b := b) (i := 0)
    (by rw [hshown]; rfl)
  obtain ⟨d', result', a', hj, hd', ha', -, htarget'⟩ := returned_of_targetsIn (b := b) (i := 1)
    (by rw [hshown]; rfl)
  refine ⟨b, d, d', result, result', a, a', hrun, hi, hj, ?_, ?_, ?_, ha, ha',
    htarget.trans htarget'.symm⟩
  · rw [hd, hd']
    decide
  · rw [hd]
    decide +kernel
  · rw [hd']
    decide +kernel

end Sample

end DocumentMedia.Site
