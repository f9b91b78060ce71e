import DocumentMedia.Proofs.Asset.Extension
import DocumentMedia.Proofs.Asset.Identifier
import DocumentMedia.Proofs.Asset.Reliance

/-! # Public paths as URLs

A public path is used as a URL of the site: it is cut at its query or fragment, its percent codes
are read, and its extension tells what is shown. It leads to the target and keeps the extension when
nothing before the hash can be taken for a query, a fragment or a code, and it begins with one slash
just when the base is not empty. -/
namespace DocumentMedia.Asset

open DocumentMedia.Files
open DocumentMedia.Text

/-! ## Extensions of URLs -/

/-- The characters that mean something in a URL or at the end of one. -/
def urlMarks : List Char := ['/', '?', '#', '%', '\n']

theorem publishedExts_plain :
    ∀ ext ∈ publishedExts, ∀ c ∈ urlMarks, c ∉ ext :=
  forall_mem_of_all₂ (by decide +kernel)

theorem lower_publishedExts : ∀ ext ∈ publishedExts, lower ext = ext := by
  decide +kernel

theorem publishedExts_point : ∀ ext ∈ publishedExts,
    ext = [] ∨ ext = '.' :: ext.tail ∧ ext.tail ≠ [] ∧ '.' ∉ ext.tail := by
  decide +kernel

def videoWords : List (List Char) := ["mp4".toList, "webm".toList, "ogg".toList]

theorem publishedExts_video : ∀ ext ∈ publishedExts,
    (videoExts.map String.toList).contains ext =
      videoWords.any fun w => dropWord? w ext.tail = some [] := by
  decide +kernel

theorem videoWords_short : ∀ w ∈ videoWords, w.length ≤ 4 ∧ dropWord? w [] ≠ some [] := by
  decide

theorem videoWords_point : ∀ w ∈ videoWords, ∀ p ∈ w, matchesLetter p '.' = false :=
  forall_mem_of_all₂ (by decide)

theorem endsInWord_iff {ws : List (List Char)} {s : List Char} (h : dropLastBreak s = s) :
    endsInWord ws s = true ↔
      ∃ w ∈ ws, ∃ front r, s = front ++ '.' :: r ∧ dropWord? w r = some [] := by
  unfold endsInWord
  rw [h, List.any_eq_true]
  refine exists_congr fun w => and_congr_right fun _ => ?_
  constructor
  · intro hw
    simp only at hw
    split at hw
    · next r hr =>
      exact ⟨_, r, by rw [← hr, List.take_append_drop], of_decide_eq_true hw⟩
    · cases hw
  · rintro ⟨front, hfront⟩
    have hcut := beforeWord?_eq_some.mpr hfront
    unfold beforeWord? at hcut
    split at hcut
    · next r hr =>
      split at hcut
      · next hword => simp only [hr, hword, decide_true]
      · cases hcut
    · cases hcut

/-- A name of a hash and an extension is that of a video just when the extension is. -/
theorem endsInWord_video (s : List Char) {digest ext : List Char} (hbreak : '\n' ∉ digest ++ ext)
    (hpoint : '.' ∉ digest) (hlength : 4 < digest.length) (he : ext ∈ publishedExts) :
    endsInWord videoWords (s ++ (digest ++ ext)) = (videoExts.map String.toList).contains ext := by
  have hcore : dropLastBreak (s ++ (digest ++ ext)) = s ++ (digest ++ ext) := by
    cases hlast : (digest ++ ext).getLast? with
    | none =>
      rw [List.getLast?_eq_none_iff, List.append_eq_nil_iff] at hlast
      rw [hlast.1] at hlength
      cases hlength
    | some c =>
      refine dropLastBreak_append s hlast ?_
      rintro rfl
      exact hbreak (List.mem_of_getLast? hlast)
  rw [publishedExts_video ext he, Bool.eq_iff_iff, endsInWord_iff hcore, List.any_eq_true]
  refine exists_congr fun w => and_congr_right fun hw => ?_
  obtain ⟨hshort, hempty⟩ := videoWords_short w hw
  have hletters := videoWords_point w hw
  rw [decide_eq_true_eq]
  rcases publishedExts_point ext he with rfl | ⟨hext, hne, hno⟩
  · constructor
    · rintro ⟨front, r, hsplit, hr⟩
      have hafter := congrArg afterPoint hsplit
      rw [afterPoint_append _ (notMem_of_dropWord? hr hletters), List.append_nil] at hafter
      have hle := length_afterPoint s hpoint
      rw [hafter] at hle
      obtain ⟨x, hx, -, hlen⟩ := dropWord?_split hr
      rw [List.append_nil] at hx
      rw [hx] at hle
      omega
    · exact fun hr => absurd hr hempty
  · rw [hext, ← List.append_assoc]
    constructor
    · rintro ⟨front, r, hsplit, hr⟩
      obtain ⟨-, rfl⟩ := eq_of_points hsplit hno (notMem_of_dropWord? hr hletters)
      exact hr
    · intro hr
      exact ⟨_, _, rfl, hr⟩

/-! ## Texts in public paths -/

theorem mem_hexDigest {bytes : List UInt8} {c : Char} (h : c ∈ (Sha1.hexDigest bytes).toList) :
    ∃ n : Fin 16, c = Nat.digitChar n := by
  simp only [Sha1.hexDigest, String.toList_ofList, List.mem_flatMap] at h
  obtain ⟨w, -, b, -, hc⟩ := h
  have hb : b.toNat < 256 := b.toNat_lt
  simp only [Sha1.hexByte, List.mem_cons, List.not_mem_nil, or_false] at hc
  rcases hc with rfl | rfl
  · exact ⟨⟨b.toNat / 16, by omega⟩, rfl⟩
  · exact ⟨⟨b.toNat % 16, by omega⟩, rfl⟩

theorem digitChar_plain :
    ∀ n : Fin 16, ∀ c ∈ '.' :: urlMarks, c ≠ Nat.digitChar n := by
  have hmarks : ∀ n : Fin 16,
      ('.' :: urlMarks).all (fun c => decide (c ≠ Nat.digitChar n)) = true := by
    decide
  exact fun n => forall_mem_of_all (hmarks n)

theorem hexDigest_plain (bytes : List UInt8) {c : Char} (hc : c ∈ '.' :: urlMarks) :
    c ∉ (Sha1.hexDigest bytes).toList := by
  intro h
  obtain ⟨n, hn⟩ := mem_hexDigest h
  exact digitChar_plain n c hc hn

theorem notMem_name (bytes : List UInt8) {ext : List Char} (he : ext ∈ publishedExts) {c : Char}
    (hc : c ∈ urlMarks) : c ∉ (Sha1.hexDigest bytes).toList ++ ext := by
  rw [List.mem_append, not_or]
  exact ⟨hexDigest_plain bytes (List.mem_cons_of_mem _ hc), publishedExts_plain _ he c hc⟩

theorem head?_trimSlashes (s : List Char) : (trimSlashes s).head? ≠ some '/' := by
  intro h
  have hprefix : trimSlashes s <+: s.dropWhile (· = '/') := List.rdropWhile_prefix _ _
  cases ht : trimSlashes s with
  | nil => rw [ht] at h; cases h
  | cons c cs =>
    rw [ht] at h hprefix
    cases h
    obtain ⟨rest, hrest⟩ := hprefix
    have hhead := List.head?_dropWhile_not (· = '/') s
    rw [← hrest] at hhead
    simp at hhead

/-- What stands in a public path between the base and the name. -/
def middle : DedupeMode → String → List Char
  | .shared, _ => "hash".toList
  | .perPost, id => "images".toList ++ '/' :: id.toList

theorem middle_shared (id : String) : middle .shared id = "hash".toList := Eq.refl _

theorem middle_perPost (id : String) : middle .perPost id = "images".toList ++ '/' :: id.toList :=
  Eq.refl _

theorem toList_publicPath (mode : DedupeMode) (base id digest ext : String) :
    (publicPath mode base id digest ext).toList =
      '/' :: (trimSlashes base.toList ++ '/' :: (middle mode id ++
        '/' :: (digest.toList ++ ext.toList))) := by
  cases mode with
  | shared => simp [publicPath, middle_shared]
  | perPost => simp [publicPath, middle_perPost]

theorem hasCode_slash (s : List Char) : hasCode ('/' :: s) = hasCode s := by
  rw [hasCode]
  rfl

theorem withoutQuery_eq_self {s : List Char} (hq : '?' ∉ s) (hf : '#' ∉ s) :
    withoutQuery s = s := by
  rw [withoutQuery, List.takeWhile_eq_self_iff]
  intro c hc
  have hcq : c ≠ '?' := fun he => hq (he ▸ hc)
  have hcf : c ≠ '#' := fun he => hf (he ▸ hc)
  simp [hcq, hcf]

namespace Publisher

/-- The texts that public paths of a document take over: the base, and the identifier of the
document when documents are kept apart. -/
def ownTexts (p : Publisher) (id : String) : List (List Char) :=
  trimSlashes p.publicBase.toList ::
    match p.mode with
    | .shared => []
    | .perPost => [id.toList]

/-- Nothing in these texts begins a query or a fragment. -/
def Uncut (p : Publisher) (id : String) : Prop := ∀ s ∈ p.ownTexts id, '?' ∉ s ∧ '#' ∉ s

/-- Nothing in these texts is a percent code. -/
def Uncoded (p : Publisher) (id : String) : Prop := ∀ s ∈ p.ownTexts id, hasCode s = false

instance (p : Publisher) (id : String) : Decidable (p.Uncut id) :=
  inferInstanceAs (Decidable (∀ s ∈ p.ownTexts id, '?' ∉ s ∧ '#' ∉ s))

instance (p : Publisher) (id : String) : Decidable (p.Uncoded id) :=
  inferInstanceAs (Decidable (∀ s ∈ p.ownTexts id, hasCode s = false))

/-- The file that a URL of the site designates, below the public directory. -/
def siteFile? (p : Publisher) (url : String) : Option Path :=
  match withoutQuery url.toList with
  | '/' :: rest => some (p.publicDir.join (Path.ofString (unpercent (String.ofList rest))))
  | _ => none

theorem ext_findOf (p : Publisher) (id : String) (source : Path) (bytes : Bytes)
    (reference : String) :
    (p.findOf id source bytes reference).asset.media.ext = lowerString source.suffix := rfl

theorem kind_findOf (p : Publisher) (id : String) (source : Path) (bytes : Bytes)
    (reference : String) : (p.findOf id source bytes reference).asset.media.kind =
      mediaKind (lowerString source.suffix) := by
  dsimp only [findOf]

end Publisher

def BeginsWithOneSlash (url : String) : Prop :=
  ∃ rest, url.toList = '/' :: rest ∧ rest.head? ≠ some '/'

/-- The public path of an asset is shown as its extension says. -/
structure ShownByExt (a : Asset) : Prop where
  ext : urlExt a.publicPath = a.media.ext
  video : isVideoUrl a.publicPath = decide (a.media.kind = "video")
  mime : videoMime a.publicPath =
    if a.media.ext = ".webm" then "video/webm"
    else if a.media.ext = ".ogg" then "video/ogg" else "video/mp4"

section

variable {p : Publisher} {id digest ext : String}

theorem beginsWithOneSlash_iff {mode : DedupeMode} {base : String} :
    BeginsWithOneSlash (publicPath mode base id digest ext) ↔ trimSlashes base.toList ≠ [] := by
  have hhead := head?_trimSlashes base.toList
  rw [BeginsWithOneSlash, toList_publicPath]
  cases ht : trimSlashes base.toList with
  | nil =>
    simp only [List.nil_append, ne_eq, not_true_eq_false, iff_false]
    rintro ⟨rest, he, hrest⟩
    cases he
    exact hrest rfl
  | cons c cs =>
    rw [ht] at hhead
    exact ⟨fun _ => List.cons_ne_nil c cs, fun _ => ⟨_, rfl, hhead⟩⟩

theorem notMem_publicPath {c : Char} (hc : c ≠ '/') (hfixed : c ∉ "hash".toList ++ "images".toList)
    (hown : ∀ s ∈ p.ownTexts id, c ∉ s) (hname : c ∉ digest.toList ++ ext.toList) :
    c ∉ (publicPath p.mode p.publicBase id digest ext).toList := by
  have hbase := hown _ List.mem_cons_self
  have hmiddle : c ∉ middle p.mode id := by
    rw [List.mem_append, not_or] at hfixed
    cases hmode : p.mode with
    | shared =>
      rw [middle_shared]
      exact hfixed.1
    | perPost =>
      have hid := hown id.toList (by simp [Publisher.ownTexts, hmode])
      rw [middle_perPost, List.mem_append, not_or, List.mem_cons, not_or]
      exact ⟨hfixed.2, hc, hid⟩
  rw [toList_publicPath]
  simp only [List.mem_cons, List.mem_append, not_or] at hname ⊢
  exact ⟨hc, hbase, hc, hmiddle, hc, hname⟩

theorem hasCode_publicPath (hown : p.Uncoded id) (hname : '%' ∉ digest.toList ++ ext.toList) :
    hasCode (publicPath p.mode p.publicBase id digest ext).toList = false := by
  have hbase := hown _ List.mem_cons_self
  have hmiddle : hasCode (middle p.mode id) = false := by
    cases hmode : p.mode with
    | shared =>
      rw [middle_shared]
      decide
    | perPost =>
      have hid := hown id.toList (by simp [Publisher.ownTexts, hmode])
      rw [middle_perPost, hasCode_append (by decide), hasCode_slash, hid]
      decide
  rw [toList_publicPath, hasCode_slash, hasCode_append (by decide), hasCode_slash,
    hasCode_append (by decide), hasCode_slash, hbase, hmiddle, hasCode_of_notMem hname]
  rfl

theorem withoutQuery_publicPath (hown : p.Uncut id) (hq : '?' ∉ digest.toList ++ ext.toList)
    (hf : '#' ∉ digest.toList ++ ext.toList) :
    withoutQuery (publicPath p.mode p.publicBase id digest ext).toList =
      (publicPath p.mode p.publicBase id digest ext).toList :=
  withoutQuery_eq_self
    (notMem_publicPath (by decide) (by decide) (fun s hs => (hown s hs).1) hq)
    (notMem_publicPath (by decide) (by decide) (fun s hs => (hown s hs).2) hf)

/-- A URL that is neither cut nor decoded leads to the target. -/
theorem siteFile?_publicPath (hbase : trimSlashes p.publicBase.toList ≠ []) (hcut : p.Uncut id)
    (hcode : p.Uncoded id) (hname : ∀ c ∈ urlMarks, c ∉ digest.toList ++ ext.toList) :
    p.siteFile? (publicPath p.mode p.publicBase id digest ext) =
      some (p.targetOf (publicPath p.mode p.publicBase id digest ext)) := by
  have huncut := withoutQuery_publicPath hcut (hname '?' (by decide)) (hname '#' (by decide))
  have huncoded := hasCode_publicPath hcode (hname '%' (by decide))
  have hslash : BeginsWithOneSlash (publicPath p.mode p.publicBase id digest ext) :=
    beginsWithOneSlash_iff.mpr hbase
  obtain ⟨rest, hrest, hhead⟩ := hslash
  rw [hrest, hasCode_slash] at huncoded
  have hdrop : ('/' :: rest).dropWhile (· = '/') = rest := by
    rw [List.dropWhile_cons, if_pos (by decide)]
    cases rest with
    | nil => rfl
    | cons c cs =>
      have hc : c ≠ '/' := fun he => hhead (congrArg some he)
      rw [List.dropWhile_cons, if_neg (by simpa using hc)]
  have hplain : unpercent (String.ofList rest) = String.ofList rest :=
    unpercent_of_hasCode (by rw [String.toList_ofList]; exact huncoded)
  rw [Publisher.siteFile?, huncut, Publisher.targetOf, hrest, hdrop]
  simp only [hplain]

/-- A URL that is not cut ends in the extension of the asset. -/
theorem urlExt_publicPath (hcut : p.Uncut id) (hpoint : '.' ∉ digest.toList)
    (hlength : 1 < digest.toList.length)
    (hname : ∀ c ∈ urlMarks, c ∉ digest.toList ++ ext.toList)
    (hext : ext.toList ∈ publishedExts) :
    urlExt (publicPath p.mode p.publicBase id digest ext) = ext := by
  have hlower : lowerString ext = ext := by
    rw [lowerString, lower_publishedExts _ hext, String.ofList_toList]
  have hlong : 1 < (digest.toList ++ ext.toList).length := by
    rw [List.length_append]
    omega
  have hlast : (Path.ofString (publicPath p.mode p.publicBase id digest ext)).parts.getLast? =
      some (String.ofList (digest.toList ++ ext.toList)) := by
    obtain ⟨before, -, -, -, hsplit⟩ :=
      Publisher.publicPath_split p.mode p.publicBase id digest ext
    refine Path.name_ofString hsplit (hname '/' (by decide)) ?_ ?_ <;>
      (intro he; rw [he] at hlong; exact absurd hlong (by decide))
  have hsuffix : Path.suffixOf (digest.toList ++ ext.toList) = ext.toList := by
    rcases publishedExts_point _ hext with he | ⟨he, hne, hno⟩
    · rw [he, List.append_nil, Path.suffixOf_of_notMem hpoint]
    · have hdigest : digest.toList ≠ [] := by
        intro hd
        rw [hd] at hlength
        cases hlength
      rw [he]
      exact Path.suffixOf_append hdigest hne hno
  rw [urlExt, withoutQuery_publicPath hcut (hname '?' (by decide)) (hname '#' (by decide)),
    String.ofList_toList, Path.suffix, Path.name, hlast, Option.getD_some, String.toList_ofList,
    hsuffix, String.ofList_toList, hlower]

theorem contains_map_toList (ss : List String) (s : String) :
    (ss.map String.toList).contains s.toList = ss.contains s := by
  rw [Bool.eq_iff_iff, List.contains_iff_mem, List.contains_iff_mem, List.mem_map]
  exact ⟨fun ⟨s', hs, he⟩ => String.toList_inj.mp he ▸ hs, fun hs => ⟨s, hs, rfl⟩⟩

theorem isVideoUrl_publicPath (hcut : p.Uncut id) (hpoint : '.' ∉ digest.toList)
    (hlength : 4 < digest.toList.length)
    (hname : ∀ c ∈ urlMarks, c ∉ digest.toList ++ ext.toList)
    (hext : ext.toList ∈ publishedExts) :
    isVideoUrl (publicPath p.mode p.publicBase id digest ext) =
      decide (mediaKind ext = "video") := by
  have hkind : decide (mediaKind ext = "video") =
      (videoExts.map String.toList).contains ext.toList := by
    rw [mediaKind, lowerString, lower_publishedExts _ hext, String.ofList_toList,
      contains_map_toList]
    cases videoExts.contains ext <;> rfl
  obtain ⟨before, -, -, -, hsplit⟩ :=
    Publisher.publicPath_split p.mode p.publicBase id digest ext
  rw [hkind, ← endsInWord_video (before ++ ['/']) (hname '\n' (by decide)) hpoint hlength hext,
    isVideoUrl, withoutQuery_publicPath hcut (hname '?' (by decide)) (hname '#' (by decide)),
    hsplit, List.append_assoc]
  rfl

end

/-! ## Assets -/

/-- What the public path of an asset is good for. -/
structure Published (p : Publisher) (id : String) (a : Asset) : Prop where
  slash : BeginsWithOneSlash a.publicPath ↔ trimSlashes p.publicBase.toList ≠ []
  shown : p.Uncut id → ShownByExt a
  target : trimSlashes p.publicBase.toList ≠ [] → p.Uncut id → p.Uncoded id →
    p.siteFile? a.publicPath = some a.target

theorem published_of_find {p : Publisher} {t : Tree} {document : Path} {raw : String} {f : Find}
    (h : p.find t document raw = .ok (some f)) : Published p (p.idOf document) f.asset := by
  have hext := ext_of_find h
  obtain ⟨reference, bytes, -, -, -, hf⟩ := Publisher.find_spec h
  generalize f.source = source at hf hext
  subst hf
  have hpoint : '.' ∉ (Sha1.hexDigest bytes).toList := hexDigest_plain bytes (by decide)
  have hlength := Sha1.length_hexDigest bytes
  have hname := fun c => notMem_name bytes hext (c := c)
  constructor
  · rw [Publisher.publicPath_findOf]
    exact beginsWithOneSlash_iff
  · intro hcut
    have hurl := urlExt_publicPath hcut hpoint (by omega) hname hext
    have hvideo := isVideoUrl_publicPath hcut hpoint (by omega) hname hext
    constructor
    · rw [Publisher.publicPath_findOf, Publisher.ext_findOf, hurl]
    · rw [Publisher.publicPath_findOf, Publisher.kind_findOf, hvideo]
    · rw [Publisher.publicPath_findOf, Publisher.ext_findOf, videoMime, hurl]
  · intro hbase hcut hcode
    rw [Publisher.publicPath_findOf, Publisher.target_findOf]
    exact siteFile?_publicPath hbase hcut hcode hname

namespace Batch

variable {L : Batch → Event → Batch → Prop} {l : Localizer} {now : String} {files : Tree}
  {store : Ledger.Store} {drafts : List Draft} {es : List Event} {b : Batch} {i : Nat} {d : Draft}
  {result : Localized} {a : Asset}

/-- The assets of a document that returned were found when it was scanned. -/
theorem found_of_returned (h : Execution L (l.batch now files store drafts) es b)
    (hd : b.docs[i]? = some (d, .returned result)) (ha : a ∈ result.assets) :
    ∃ t raw f, l.publisher.find t d.path raw = .ok (some f) ∧ f.asset = a := by
  rcases h.scanned hd rfl with ⟨old, hold, hr⟩ | ⟨es₁, es₂, u, shared, jobs, rfl, hu, hsc⟩
  · rw [(docs_batch hold).2] at hr
    cases hr
  · obtain ⟨-, hrun, -⟩ := h.at_scan hu
    have hpublisher : u.publisher = l.publisher := hrun.drafts.1
    obtain ⟨-, rfl, -⟩ := scan_ok hsc
    obtain ⟨raw, -, hpub⟩ := List.mem_filterMap.mp ha
    obtain ⟨f, hf, rfl⟩ := Publisher.publish_eq_some.mp hpub
    exact ⟨u.files, raw, f, hpublisher ▸ hf, rfl⟩

/-- Every asset of a document that returned has a public path with one slash in front, unless the
base is empty. As long as nothing that the path takes over begins a query or a fragment, it is shown
as its extension says; and when that holds no percent codes either, it leads to the target. -/
theorem returned_is_published (h : Execution L (l.batch now files store drafts) es b)
    (hd : b.docs[i]? = some (d, .returned result)) (ha : a ∈ result.assets) :
    Published l.publisher (l.publisher.idOf d.path) a := by
  obtain ⟨t, raw, f, hf, rfl⟩ := found_of_returned h hd ha
  exact published_of_find hf

section Sample

theorem sample_returned : ∃ (b : Batch) (d : Draft) (result : Localized) (a : Asset),
    Execution (Undisturbed (· ∈ [sampleM, sampleN])) sampleStart sampleEvents b ∧
      b.docs[0]? = some (d, .returned result) ∧ a ∈ result.assets := by
  obtain ⟨b, hrun, hend⟩ := sample_run
  unfold sampleEnded at hend
  split at hend
  · next result e hresults =>
    have hfirst := congrArg (fun rs => rs[0]?) hresults
    simp only [Batch.results, List.getElem?_map] at hfirst
    obtain ⟨⟨d, ph⟩, hd, hph⟩ := Option.map_eq_some_iff.mp hfirst
    have hcount : result.assets.length = 1 := by
      simp only [Bool.and_eq_true, decide_eq_true_eq] at hend
      exact hend.1
    obtain ⟨a, ha⟩ := List.length_eq_one_iff.mp hcount
    cases ph with
    | returned result' =>
      cases hph
      exact ⟨b, d, result, a, hrun, hd, by rw [ha]; exact List.mem_singleton_self a⟩
    | _ => cases hph
  · cases hend

theorem returned_is_published_sample :
    ∃ (b : Batch) (d : Draft) (result : Localized) (a : Asset),
      b.docs[0]? = some (d, .returned result) ∧ a ∈ result.assets ∧
      BeginsWithOneSlash a.publicPath ∧ ShownByExt a ∧
      sampleStart.publisher.siteFile? a.publicPath = some a.target := by
  obtain ⟨b, d, result, a, hrun, hd, ha⟩ := sample_returned
  have hpublished := returned_is_published (l := Localizer.start {} []) hrun hd ha
  have hbase : trimSlashes "assets".toList ≠ [] := by decide
  have hcut : Publisher.Uncut {} (Publisher.idOf {} d.path) := by
    show ∀ s ∈ ["assets".toList], '?' ∉ s ∧ '#' ∉ s
    decide
  have hcode : Publisher.Uncoded {} (Publisher.idOf {} d.path) := by
    show ∀ s ∈ ["assets".toList], hasCode s = false
    decide
  exact ⟨b, d, result, a, hd, ha, hpublished.slash.mpr hbase, hpublished.shown hcut,
    hpublished.target hbase hcut hcode⟩

/-- What a reference to the first sample file is published as. -/
def sampleAsset? (p : Publisher) (document : String) : Option Asset :=
  p.publish sampleFiles (Path.ofString document) "m.mp4"

/-- An empty base leaves two slashes in front, and a question mark in the name of a document cuts
its public paths short. -/
theorem public_paths_mislead :
    (∃ a, sampleAsset? { publicBase := "" } "a.md" = some a ∧ ¬ BeginsWithOneSlash a.publicPath) ∧
    ∃ a, sampleAsset? { mode := .perPost } "a?b.md" = some a ∧
      Publisher.siteFile? { mode := .perPost } a.publicPath ≠ some a.target ∧
      urlExt a.publicPath ≠ a.media.ext := by
  have hpath : (sampleAsset? { publicBase := "" } "a.md").map Asset.publicPath =
      some "//hash/7037807198c22a7d2b0807371d763779a84fdfcf.mp4" := by
    decide +kernel
  have hcut : (sampleAsset? { mode := .perPost } "a?b.md").any (fun a =>
      Publisher.siteFile? { mode := .perPost } a.publicPath ≠ some a.target ∧
        urlExt a.publicPath ≠ a.media.ext) = true := by
    decide +kernel
  constructor
  · obtain ⟨a, ha, hurl⟩ := Option.map_eq_some_iff.mp hpath
    refine ⟨a, ha, ?_⟩
    rintro ⟨rest, hrest, hhead⟩
    rw [hurl] at hrest
    have htail := congrArg (fun s => s.tail.head?) hrest
    exact hhead htail.symm
  · obtain ⟨a, ha, hmisled⟩ := (Option.any_eq_true _ _).mp hcut
    exact ⟨a, ha, of_decide_eq_true hmisled⟩

end Sample

end Batch

end DocumentMedia.Asset
