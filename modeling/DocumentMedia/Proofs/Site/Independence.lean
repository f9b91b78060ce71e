import DocumentMedia.Proofs.Asset.Find
import DocumentMedia.Proofs.Asset.Scan
import DocumentMedia.Proofs.Asset.Step
import DocumentMedia.Proofs.Document.Parsed
import DocumentMedia.Site.Build
import Mathlib.Data.List.Forall2

/-! # What a build depends on

The documents of a build share a ledger, a table of copies and files. None of this shows in what is
built: a document is built from its text and from the files that its references lead to, as long as
no lookup passes through a place where the build writes. -/
namespace DocumentMedia.Site

open DocumentMedia.Files
open DocumentMedia.Asset (Batch Event Draft Localized Localizer Phase Publisher references relink)
open DocumentMedia.Asset.Publisher (Clear find_agree spellings firstFile)
open DocumentMedia.Asset.Batch (Step Execution)
open DocumentMedia.Ledger (Store)

/-- A step changes files only at some places. -/
def Confined (W : Location → Prop) (b : Batch) (_ : Event) (b' : Batch) : Prop :=
  AgreeOff W b.files b'.files

theorem confined_run {W : Location → Prop} {b b' : Batch} {es : List Event}
    (h : Execution (Confined W) b es b') : AgreeOff W b.files b'.files :=
  h.invariant (I := fun u => AgreeOff W b.files u.files) (.refl _) fun _ hl hb => hb.trans hl

/-- Builds of documents in which all of them return, one for each order of events. -/
inductive Builds (L : Batch → Event → Batch → Prop) (s : Settings) (t : Tree) (now : String)
    (store : Store) (documents : List Path) : List Built → Prop where
  | intro (ledger pages results es b) (hload : store.load t now = .ok ledger)
      (hread : List.Forall₂ (fun p page => readFile s.reading t p = .ok page) documents pages)
      (hrun : Execution L ((Localizer.start s.publisher ledger).batch now t store
        (pages.map draftOf)) es b)
      (hdone : b.results = results.map fun r => some (.ok r)) :
      Builds L s t now store documents (List.zipWith (finish s.videoAttrs) pages results)

/-! ## The result of a document -/

variable {W : Location → Prop} {s : Settings} {t₀ t t' : Tree} {now now' : String}
  {store store' : Store} {documents documents' : List Path} {pages pages' : List Built}

/-- A document returns what files that agree with those at the start make of it. -/
theorem result_of_returned {l : Localizer} {drafts : List Draft} {es : List Event} {b : Batch}
    {i : Nat} {d : Draft} {result : Localized}
    (h : Execution (Confined W) (l.batch now t store drafts) es b)
    (hd : b.docs[i]? = some (d, .returned result)) (hfiles : AgreeOff W t₀ t)
    (hc : ∀ raw ∈ references d, Clear W t₀ d.path raw) :
    result = relink (l.publisher.publish t₀ d.path) d := by
  rcases h.scanned hd rfl with ⟨old, hold, hr⟩ | ⟨es₁, es₂, u, shared, jobs, rfl, hu, hsc⟩
  · rw [(Batch.docs_batch hold).2] at hr
    cases hr
  · obtain ⟨-, hrun, -⟩ := h.at_scan hu
    -- The files at the scan differ from these only where no lookup of the document goes.
    have hscanned : AgreeOff W t₀ u.files := hfiles.trans (confined_run hrun)
    have hpublisher : u.publisher = l.publisher := hrun.drafts.1
    obtain ⟨-, rfl, -⟩ := Asset.scan_ok hsc
    apply Asset.relink_congr
    intro raw hraw
    rw [hpublisher, Publisher.publish, Publisher.publish, find_agree hscanned (hc raw hraw)]

theorem path_readPage {reading : Document.Reading} {p : Path} {text : String} {page : Document.Page}
    (h : Document.readPage reading p text = .ok page) : page.path = p :=
  (Document.readPage_ok h).1

theorem readPage_of_readFile {reading : Document.Reading} {t : Tree} {p : Path}
    {page : Document.Page} (h : readFile reading t p = .ok page) :
    ∃ text, Document.readPage reading p text = .ok page := by
  obtain ⟨text, -, h⟩ := bind_eq_ok.mp h
  exact ⟨text, mapError_eq_ok.mp h⟩

theorem path_readFile {reading : Document.Reading} {t : Tree} {p : Path} {page : Document.Page}
    (h : readFile reading t p = .ok page) : page.path = p := by
  obtain ⟨text, hpage⟩ := readPage_of_readFile h
  exact path_readPage hpage

/-- Something holds of all references of a document. -/
def EachReference (s : Settings) (t : Tree) (p : Path) (P : String → Prop) : Prop :=
  ∀ page, readFile s.reading t p = .ok page → ∀ raw ∈ references (draftOf page), P raw

def built (s : Settings) (t : Tree) (page : Document.Page) : Built :=
  finish s.videoAttrs page (relink (s.publisher.publish t page.path) (draftOf page))

theorem Builds.length {L : Batch → Event → Batch → Prop}
    (h : Builds L s t now store documents pages) : pages.length = documents.length := by
  obtain ⟨ledger, pages, results, es, b, -, hread, hrun, hdone⟩ := h
  have hdocs := congrArg List.length hrun.drafts.2
  have hresults := congrArg List.length hdone
  simp only [List.length_map, Localizer.batch, Batch.results] at hdocs hresults
  rw [List.length_zipWith, hread.length_eq]
  omega

theorem returned_of_results {b : Batch} {results : List Localized} {i : Nat} {d : Draft}
    {ph : Phase} (h : b.results = results.map fun r => some (.ok r))
    (hd : b.docs[i]? = some (d, ph)) :
    ∃ result, results[i]? = some result ∧ ph = .returned result := by
  have hi := congrArg (fun l => l[i]?) h
  simp only [Batch.results, List.getElem?_map, hd, Option.map_some] at hi
  obtain ⟨result, hresult, he⟩ := Option.map_eq_some_iff.mp hi.symm
  refine ⟨result, hresult, ?_⟩
  cases ph with
  | returned result' => cases he; rfl
  | _ => cases he

theorem readFile_congr {reading : Document.Reading} {p : Path}
    (h : t.readText p = t₀.readText p) : readFile reading t p = readFile reading t₀ p := by
  rw [readFile, readFile, h]

/-- What is built for a document is made of its page and of files that agree with those at the
start. -/
theorem Builds.page {i : Nat} {p : Path} (h : Builds (Confined W) s t now store documents pages)
    (hp : documents[i]? = some p) (hfiles : AgreeOff W t₀ t)
    (hread : t.readText p = t₀.readText p) (hc : EachReference s t₀ p (Clear W t₀ p)) :
    ∃ page, readFile s.reading t₀ p = .ok page ∧ pages[i]? = some (built s t₀ page) := by
  obtain ⟨ledger, pages, results, es, b, -, hpages, hrun, hdone⟩ := h
  obtain ⟨hlt, rfl⟩ := List.getElem?_eq_some_iff.mp hp
  have hlt' : i < pages.length := hpages.length_eq ▸ hlt
  have hok : readFile s.reading t₀ documents[i] = .ok pages[i] := by
    rw [← readFile_congr hread]
    exact (List.forall₂_iff_get.mp hpages).2 i hlt hlt'
  have hdraft : (b.docs.map (·.1))[i]? = some (draftOf pages[i]) := by
    rw [hrun.drafts.2]
    simp [Localizer.batch, hlt']
  rw [List.getElem?_map] at hdraft
  obtain ⟨⟨d, ph⟩, hd, rfl⟩ := Option.map_eq_some_iff.mp hdraft
  obtain ⟨result, hresult, rfl⟩ := returned_of_results hdone hd
  have hclear : ∀ raw ∈ references (draftOf pages[i]), Clear W t₀ (draftOf pages[i]).path raw := by
    intro raw hraw
    rw [draftOf, path_readFile hok]
    exact hc pages[i] hok raw hraw
  refine ⟨pages[i], hok, ?_⟩
  rw [List.getElem?_zipWith, List.getElem?_eq_getElem hlt', hresult,
    result_of_returned hrun hd hfiles hclear]
  rfl

/-! ## Builds that agree -/

/-- Two builds make the same of each document that they share. -/
structure SameBuilt (documents documents' : List Path) (pages pages' : List Built) : Prop where
  shared : ∀ (i j : Nat) p, documents[i]? = some p → documents'[j]? = some p →
    ∃ page, pages[i]? = some page ∧ pages'[j]? = some page
  whole : documents = documents' → pages = pages'

/-- Whatever the ledgers, the clocks and the orders of events, and alone or with others: from the
same text a document is built the same, if its lookups avoid the places where files differ or are
changed. -/
theorem builds_independent (h : Builds (Confined W) s t now store documents pages)
    (h' : Builds (Confined W) s t' now' store' documents' pages') (hfiles : AgreeOff W t t')
    (hread : ∀ p ∈ documents, p ∈ documents' → t'.readText p = t.readText p)
    (hclear : ∀ p ∈ documents, p ∈ documents' → EachReference s t p (Clear W t p)) :
    SameBuilt documents documents' pages pages' := by
  have hshared : ∀ (i j : Nat) p, documents[i]? = some p → documents'[j]? = some p →
      ∃ page, pages[i]? = some page ∧ pages'[j]? = some page := by
    intro i j p hi hj
    have hmem := List.mem_of_getElem? hi
    have hmem' := List.mem_of_getElem? hj
    have hc := hclear p hmem hmem'
    obtain ⟨page, hpage, hbuilt⟩ := h.page hi (.refl t) rfl hc
    obtain ⟨page', hpage', hbuilt'⟩ := h'.page hj hfiles (hread p hmem hmem') hc
    rw [hpage] at hpage'
    cases hpage'
    exact ⟨_, hbuilt, hbuilt'⟩
  refine ⟨hshared, ?_⟩
  rintro rfl
  apply List.ext_getElem?
  intro i
  cases hi : documents[i]? with
  | some p =>
    obtain ⟨page, hpage, hpage'⟩ := hshared i i p hi hi
    rw [hpage, hpage']
  | none =>
    have hlen := List.getElem?_eq_none_iff.mp hi
    rw [List.getElem?_eq_none (h.length ▸ hlen), List.getElem?_eq_none (h'.length ▸ hlen)]

section Sample

/-- What is built along given events, when all of them can happen and pass a check. -/
def builtAlong (c : Batch → Event → Batch → Bool) (s : Settings) (t : Tree) (now : String)
    (store : Store) (documents : List Path) (es : List Event) : Option (List Built) := do
  let ledger ← (store.load t now).toOption
  let pages ← documents.mapM fun p => (readFile s.reading t p).toOption
  let b ← Batch.checked c
    ((Localizer.start s.publisher ledger).batch now t store (pages.map draftOf)) es
  let results ← b.results.mapM fun r => r.bind Except.toOption
  return List.zipWith (finish s.videoAttrs) pages results

theorem forall₂_of_mapM {α β : Type} {f : α → Option β} {as : List α} {bs : List β}
    (h : as.mapM f = some bs) : List.Forall₂ (fun a b => f a = some b) as bs := by
  induction as generalizing bs with
  | nil => cases h; exact .nil
  | cons a as ih =>
    rw [List.mapM_cons] at h
    obtain ⟨b, hb, h⟩ := Option.bind_eq_some_iff.mp h
    obtain ⟨bs', hbs, h⟩ := Option.bind_eq_some_iff.mp h
    cases h
    exact .cons hb (ih hbs)

theorem builds_of_along {L : Batch → Event → Batch → Prop} {c : Batch → Event → Batch → Bool}
    (hc : ∀ {b e b'}, c b e b' = true → L b e b') {es : List Event}
    (h : builtAlong c s t now store documents es = some pages) :
    Builds L s t now store documents pages := by
  obtain ⟨ledger, hledger, h⟩ := Option.bind_eq_some_iff.mp h
  obtain ⟨read, hread, h⟩ := Option.bind_eq_some_iff.mp h
  obtain ⟨b, hb, h⟩ := Option.bind_eq_some_iff.mp h
  obtain ⟨results, hresults, h⟩ := Option.bind_eq_some_iff.mp h
  cases h
  refine .intro ledger read results es b (toOption_eq_some.mp hledger) ?_
    (Batch.execution_of_checked hc hb) ?_
  · exact (forall₂_of_mapM hread).imp fun _ _ hp => toOption_eq_some.mp hp
  · have hended : List.Forall₂ (fun r result => r = some (.ok result)) b.results results := by
      refine (forall₂_of_mapM hresults).imp fun r result hr => ?_
      obtain ⟨o, rfl, ho⟩ := Option.bind_eq_some_iff.mp hr
      exact congrArg some (toOption_eq_some.mp ho)
    have heq := List.forall₂_map_right_iff.mpr hended
    rwa [List.forall₂_eq_eq_eq] at heq

def isPublic (place : Location) : Bool := ["public"].isPrefixOf place

def InPublic (place : Location) : Prop := isPublic place = true

instance : DecidablePred InPublic := fun _ => inferInstanceAs (Decidable (_ = _))

def isConfined (b : Batch) (_ : Event) (b' : Batch) : Bool :=
  decide (b'.files.here = b.files.here) &&
    decide (b'.files.entries.filter (fun e => !isPublic e.1) =
      b.files.entries.filter fun e => !isPublic e.1)

theorem confined_of_check {b : Batch} {e : Event} {b' : Batch} (h : isConfined b e b' = true) :
    Confined InPublic b e b' := by
  simp only [isConfined, Bool.and_eq_true, decide_eq_true_eq] at h
  exact Tree.agreeOff_of_filter h.1 h.2

def eachReference (s : Settings) (t : Tree) (p : Path) (c : String → Bool) : Bool :=
  match readFile s.reading t p with
  | .ok page => (references (draftOf page)).all c
  | .error _ => true

theorem eachReference_of_check {p : Path} {c : String → Bool} {P : String → Prop}
    (hP : ∀ raw, c raw = true → P raw) (h : eachReference s t p c = true) :
    EachReference s t p P := by
  intro page hpage raw hraw
  unfold eachReference at h
  rw [hpage] at h
  exact hP raw (List.all_eq_true.mp h raw hraw)

/-- A medium with two documents, of which the second refers to it. -/
def withDocuments (entries : Assoc Location Entry) : Tree :=
  ⟨[(["n.mp4"], .file (.bytes [4, 5])), (["a.md"], .file (.bytes "text".toUTF8.toList)),
    (["b.md"], .file (.bytes "![](n.mp4)".toUTF8.toList))] ++ entries, []⟩

def docA : Path := Path.ofString "a.md"

def docB : Path := Path.ofString "b.md"

def emptyPublic : Tree := withDocuments [(["public"], .directory)]

/-- The medium is already published, as it was copied in another build. -/
def filledPublic : Tree :=
  withDocuments [(["public"], .directory), (["public", "assets"], .directory),
    (["public", "assets", "hash"], .directory),
    (Batch.sampleN.parts, .file (.bytes [4, 5]))]

/-- Two documents side by side; the first returns while the medium of the second is copied. -/
def togetherEvents : List Event :=
  [.scan 1, .start Batch.sampleN, .scan 0, .take 0, .settle Batch.sampleN filledPublic none,
    .save (.ok (.memory [] 1, filledPublic)), .take 1, .save (.ok (.memory [] 2, filledPublic))]

def aloneEvents : List Event := [.scan 0, .take 0, .save (.ok (.memory [] 1, filledPublic))]

def oldStore : Store := .memory [("0", ⟨".mp4", "/assets/hash/0.mp4", "2020"⟩)] 0

/-- Whether the lookups of the second document keep out of the public directory. -/
def keepsOut : Bool :=
  eachReference {} emptyPublic docB fun raw => decide (Clear InPublic emptyPublic docB raw)

theorem builds_independent_sample : ∃ pages pages',
    Builds (Confined InPublic) {} emptyPublic "2024" (.memory [] 0) [docA, docB] pages ∧
      Builds (Confined InPublic) {} filledPublic "2025" oldStore [docB] pages' ∧
      SameBuilt [docA, docB] [docB] pages pages' := by
  have htogether : (builtAlong isConfined {} emptyPublic "2024" (.memory [] 0) [docA, docB]
      togetherEvents).isSome = true := by
    decide +kernel
  have halone : (builtAlong isConfined {} filledPublic "2025" oldStore [docB]
      aloneEvents).isSome = true := by
    decide +kernel
  have hclear : keepsOut = true := by
    decide +kernel
  have hread : filledPublic.readText docB = emptyPublic.readText docB := by
    decide +kernel
  obtain ⟨pages, hpages⟩ := Option.isSome_iff_exists.mp htogether
  obtain ⟨pages', hpages'⟩ := Option.isSome_iff_exists.mp halone
  have h := builds_of_along confined_of_check hpages
  have h' := builds_of_along confined_of_check hpages'
  refine ⟨pages, pages', h, h', builds_independent h h' ?_ ?_ ?_⟩
  · exact Tree.agreeOff_of_filter rfl rfl
  · intro p _ hp
    rw [List.mem_singleton.mp hp, hread]
  · intro p _ hp
    rw [List.mem_singleton.mp hp]
    exact eachReference_of_check (fun raw => of_decide_eq_true) hclear

end Sample

/-! ## Lookups through the public directory -/

/-- Where the file stands to which a reference leads. -/
def resolved? (t : Tree) (document : Path) (raw : String) : Option Location := do
  let reference ← Asset.localPath? raw
  let source ← (firstFile t document.parent (spellings reference)).toOption.join
  (t.locate true source).toOption

def crossing : Path := Path.ofString "docs/a.md"

/-- A document with a reference that goes through the public directory, and what it leads to. -/
def blocked : Tree :=
  ⟨[(["pic.mp4"], .file (.bytes [120])), (["docs"], .directory),
    (["docs", "a.md"], .file (.bytes "![](../public/sub/../../pic.mp4)".toUTF8.toList)),
    (["public"], .directory)], []⟩

/-- The same with a directory through which the reference can go. -/
def passable : Tree := blocked.put ["public", "sub"] .directory

def assetCount (t : Tree) : Option (List Nat) :=
  (buildPages {} (.memory [] 0) t "2024" [crossing]).2.toOption.map
    (·.map fun page => page.assets.length)

theorem assetCount_eq_some {t : Tree} {ns : List Nat} (h : assetCount t = some ns) :
    ∃ pages, (buildPages {} (.memory [] 0) t "2024" [crossing]).2 = .ok pages ∧
      (pages.map fun page => page.assets.length) = ns := by
  obtain ⟨pages, hpages, hcounts⟩ := Option.map_eq_some_iff.mp h
  exact ⟨pages, toOption_eq_some.mp hpages, hcounts⟩

/-- Whether no reference of the document resolves to a place in the public directory. -/
def leadsOutside (t : Tree) : Bool :=
  eachReference {} t crossing fun raw =>
    decide (∀ place ∈ (resolved? t crossing raw).toList, ¬ InPublic place)

theorem outside_of_check {t : Tree} (h : leadsOutside t = true) :
    EachReference {} t crossing fun raw =>
      ∀ place ∈ resolved? t crossing raw, ¬ InPublic place :=
  eachReference_of_check (by simp) h

/-- It does not suffice that no reference resolves to a file in the public directory. -/
theorem lookup_through_public :
    ∃ pages pages', (buildPages {} (.memory [] 0) passable "2024" [crossing]).2 = .ok pages ∧
      (buildPages {} (.memory [] 0) blocked "2024" [crossing]).2 = .ok pages' ∧
      AgreeOff InPublic passable blocked ∧
      blocked.readText crossing = passable.readText crossing ∧
      (∀ t ∈ [passable, blocked], EachReference {} t crossing fun raw =>
        ∀ place ∈ resolved? t crossing raw, ¬ InPublic place) ∧
      pages ≠ pages' := by
  obtain ⟨pages, hpages, hone⟩ := @assetCount_eq_some passable [1] (by decide +kernel)
  obtain ⟨pages', hpages', hnone⟩ := @assetCount_eq_some blocked [0] (by decide +kernel)
  have hfiles : AgreeOff InPublic passable blocked :=
    (Tree.agreeOff_put .directory (show InPublic ["public", "sub"] by decide)).symm
  have hread : blocked.readText crossing = passable.readText crossing := by decide +kernel
  have houtside : leadsOutside passable = true ∧ leadsOutside blocked = true := by decide +kernel
  refine ⟨pages, pages', hpages, hpages', hfiles, hread, ?_, ?_⟩
  · intro t ht
    simp only [List.mem_cons, List.not_mem_nil, or_false] at ht
    rcases ht with rfl | rfl
    · exact outside_of_check houtside.1
    · exact outside_of_check houtside.2
  · rintro rfl
    rw [hone] at hnone
    cases hnone

end DocumentMedia.Site
