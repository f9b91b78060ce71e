import DocumentMedia.Proofs.Site.Growth
import Mathlib.Data.List.Nodup

/-! # What a build leaves in the output directory

Each page is written as two files whose names are its slug, in a folder that depends on where its
document is. Pages of one folder with the same slug are written to the same files, one over the
other. In all other builds every file holds what was written for its own page. -/
namespace DocumentMedia.Site

open DocumentMedia.Files
open DocumentMedia.Ledger (Store)

/-! ## The files of a page -/

section

variable (t : Tree) (output base : Path) (b : Built)

/-- The folder of a page in the output directory. -/
def folderOf : Except FileError Path :=
  (relativeFolder t b.page.path base).map (Tree.extend output)

def htmlOf (folder : Path) : Path := outputPath folder b.page.slug ".html"

def jsonOf (folder : Path) : Path := outputPath folder b.page.slug ".json"

/-- Where the files of a page are, with all links resolved. -/
def outputPlaces : List Location :=
  match folderOf t output base b with
  | .ok folder => [t.realLocation (htmlOf b folder), t.realLocation (jsonOf b folder)]
  | .error _ => []

end

/-- The files of a page hold its rendering and its sidecar. -/
structure Holds (t : Tree) (b : Built) (folder : Path) : Prop where
  html : t.entryAt (htmlOf b folder) =
    .ok (.file (.bytes (renderTree b.page.tree).toUTF8.toList))
  json : ∃ j, (sidecar b).toJson = .ok j ∧
    t.entryAt (jsonOf b folder) = .ok (.file (.bytes j.toText.toUTF8.toList))

variable {W : Location → Prop} {t u t' : Tree} {output base : Path} {b : Built}

theorem relativeFolder_grows (h : Grows W t t') {e : Entry} (he : t.entryAt base = .ok e)
    (document : Path) : relativeFolder t' document base = relativeFolder t document base := by
  unfold relativeFolder
  rw [Tree.isDirectory_grows h he]
  simp only [Tree.realLocation_grows h]

theorem folderOf_grows (h : Grows W t t') {e : Entry} (he : t.entryAt base = .ok e) (b : Built) :
    folderOf t' output base b = folderOf t output base b := by
  rw [folderOf, folderOf, relativeFolder_grows h he]

theorem outputPlaces_grows (h : Grows W t t') {e : Entry} (he : t.entryAt base = .ok e) :
    outputPlaces t' output base b = outputPlaces t output base b := by
  unfold outputPlaces
  rw [folderOf_grows h he]
  simp only [Tree.realLocation_grows h]

/-! ## Writing a page -/

/-- The changes that writing a page consists of. -/
structure PageWritten (t : Tree) (b : Built) (folder : Path) (t' : Tree) : Prop where
  steps : ∃ j t₁ t₂, t.ensureDirectories folder = .ok t₁ ∧
    t₁.writeText (htmlOf b folder) (renderTree b.page.tree) = .ok t₂ ∧
    (sidecar b).toJson = .ok j ∧ t₂.writeText (jsonOf b folder) j.toText = .ok t'

theorem writePage_spec {html json : Path} (h : writePage t b output base = (t', .ok (html, json))) :
    ∃ folder, folderOf t output base b = .ok folder ∧ html = htmlOf b folder ∧
      json = jsonOf b folder ∧ PageWritten t b folder t' := by
  unfold writePage at h
  unfold folderOf
  split at h
  · cases h
  · next names hnames =>
    refine ⟨Tree.extend output names, by rw [hnames]; rfl, ?_⟩
    simp only at h
    split at h
    · cases h
    · next t₁ hfolder =>
      split at h
      · cases h
      · next t₂ hhtml =>
        split at h
        · cases h
        · next j hj =>
          split at h
          · cases h
          · next t₃ hjson =>
            cases h
            exact ⟨rfl, rfl, ⟨j, t₁, t₂, hfolder, hhtml, hj, hjson⟩⟩

/-- A text is written to the real location of its path. -/
theorem grows_writeText {p : Path} {text : String} (h : Grows W t u)
    (hw : u.writeText p text = .ok t') : Grows (· = t.realLocation p) u t' := by
  refine Tree.grows_write hw ?_
  intro place hl
  rw [← Tree.realLocation_grows h]
  exact (Tree.realLocation_of_locate hl).symm

theorem PageWritten.grows {folder : Path} (h : PageWritten t b folder t')
    (hfolder : folderOf t output base b = .ok folder) :
    Grows (· ∈ outputPlaces t output base b) t t' := by
  obtain ⟨j, t₁, t₂, hdir, hhtml, -, hjson⟩ := h.steps
  have h₁ : Grows (· ∈ outputPlaces t output base b) t t₁ := Tree.grows_ensureDirectories hdir
  have h₂ : Grows (· ∈ outputPlaces t output base b) t₁ t₂ := by
    refine (grows_writeText h₁ hhtml).mono ?_
    rintro l rfl
    simp [outputPlaces, hfolder]
  have h₃ : Grows (· ∈ outputPlaces t output base b) t₂ t' := by
    refine (grows_writeText (h₁.trans h₂) hjson).mono ?_
    rintro l rfl
    simp [outputPlaces, hfolder]
  exact (h₁.trans h₂).trans h₃

/-- The files of a page that are not the same file hold what was written. -/
theorem PageWritten.holds {folder : Path} (h : PageWritten t b folder t')
    (hne : t.realLocation (htmlOf b folder) ≠ t.realLocation (jsonOf b folder)) :
    Holds t' b folder := by
  obtain ⟨j, t₁, t₂, hdir, hhtml, hj, hjson⟩ := h.steps
  have h₁ : Grows (fun _ => True) t t₁ := Tree.grows_ensureDirectories hdir
  have h₂ := h₁.trans ((grows_writeText h₁ hhtml).mono fun _ _ => trivial)
  refine ⟨?_, j, hj, Tree.entryAt_write hjson⟩
  refine Tree.entryAt_kept (grows_writeText h₂ hjson) (Tree.entryAt_write hhtml) ?_
  intro place hl hplace
  rw [← Tree.realLocation_of_locate hl, Tree.realLocation_grows h₂] at hplace
  exact hne hplace

theorem Holds.grows {folder : Path} (h : Holds t b folder) (hgrows : Grows W t t')
    (hhtml : ¬ W (t.realLocation (htmlOf b folder)))
    (hjson : ¬ W (t.realLocation (jsonOf b folder))) : Holds t' b folder := by
  obtain ⟨j, hj, hentry⟩ := h.json
  refine ⟨Tree.entryAt_kept hgrows h.html ?_, j, hj, Tree.entryAt_kept hgrows hentry ?_⟩
  · intro place hl
    rw [← Tree.realLocation_of_locate hl]
    exact hhtml
  · intro place hl
    rw [← Tree.realLocation_of_locate hl]
    exact hjson

/-! ## Writing all pages -/

/-- The answer for a page: its document and its HTML. -/
def Answers (t : Tree) (output base : Path) (b : Built) (r : Path × Path) : Prop :=
  ∃ folder, folderOf t output base b = .ok folder ∧ r = (b.page.path, htmlOf b folder)

structure PagesWritten (t : Tree) (output base : Path) (bs : List Built)
    (results : List (Path × Path)) (t' : Tree) : Prop where
  answers : List.Forall₂ (Answers t output base) bs results
  grows : Grows (· ∈ bs.flatMap (outputPlaces t output base)) t t'
  holds : (bs.flatMap (outputPlaces t output base)).Nodup →
    ∀ b ∈ bs, ∃ folder, folderOf t output base b = .ok folder ∧ Holds t' b folder

theorem pagesWritten_nil (t : Tree) (output base : Path) : PagesWritten t output base [] [] t :=
  ⟨.nil, .refl t, fun _ => nofun⟩

theorem pagesWritten_cons {bs : List Built} {results : List (Path × Path)} {folder : Path}
    {e : Entry} (he : t.entryAt base = .ok e) (hfolder : folderOf t output base b = .ok folder)
    (h : PageWritten t b folder u) (hrest : PagesWritten u output base bs results t') :
    PagesWritten t output base (b :: bs) ((b.page.path, htmlOf b folder) :: results) t' := by
  have hgrows := h.grows hfolder
  have hfolders : ∀ c, folderOf u output base c = folderOf t output base c :=
    folderOf_grows hgrows he
  have hplaces : bs.flatMap (outputPlaces u output base) =
      bs.flatMap (outputPlaces t output base) := by
    congr 1
    funext c
    exact outputPlaces_grows hgrows he
  have hlater := hrest.grows
  rw [hplaces] at hlater
  refine ⟨.cons ⟨folder, hfolder, rfl⟩ ?_, ?_, ?_⟩
  · refine hrest.answers.imp ?_
    rintro c r ⟨f, hf, rfl⟩
    exact ⟨f, hfolders c ▸ hf, rfl⟩
  · refine (hgrows.mono ?_).trans (hlater.mono ?_)
    · intro l hl
      exact List.mem_append_left _ hl
    · intro l hl
      exact List.mem_append_right _ hl
  · intro hnodup
    rw [List.flatMap_cons, List.nodup_append] at hnodup
    obtain ⟨hfirst, hothers, hapart⟩ := hnodup
    have hpair : outputPlaces t output base b =
        [t.realLocation (htmlOf b folder), t.realLocation (jsonOf b folder)] := by
      rw [outputPlaces, hfolder]
    rw [hpair] at hfirst hapart
    have hne : t.realLocation (htmlOf b folder) ≠ t.realLocation (jsonOf b folder) := by
      simpa using hfirst
    refine List.forall_mem_cons.mpr ⟨⟨folder, hfolder, ?_⟩, ?_⟩
    · refine (h.holds hne).grows hlater ?_ ?_
      · rw [Tree.realLocation_grows hgrows]
        exact fun hm => hapart _ List.mem_cons_self _ hm rfl
      · rw [Tree.realLocation_grows hgrows]
        exact fun hm => hapart _ (List.mem_cons_of_mem _ List.mem_cons_self) _ hm rfl
    · intro c hc
      obtain ⟨f, hf, hholds⟩ := hrest.holds (hplaces ▸ hothers) c hc
      exact ⟨f, hfolders c ▸ hf, hholds⟩

theorem writePages_spec {bs : List Built} {results : List (Path × Path)} {e : Entry}
    (he : t.entryAt base = .ok e) (h : writePages output base t bs = (t', .ok results)) :
    PagesWritten t output base bs results t' := by
  induction bs generalizing t results e with
  | nil =>
    cases h
    exact pagesWritten_nil _ output base
  | cons b bs ih =>
    unfold writePages at h
    split at h
    · cases h
    · next u html json hpage =>
      split at h
      · cases h
      · next results' hrest =>
        cases h
        obtain ⟨folder, hfolder, rfl, -, hwritten⟩ := writePage_spec hpage
        obtain ⟨e', he'⟩ := Tree.entryAt_grows (hwritten.grows hfolder) he
        exact pagesWritten_cons he hfolder hwritten (ih he' hrest)

/-! ## Distinct files -/

/-- No slug leads to another folder. -/
def PlainSlugs (bs : List Built) : Prop := ∀ b ∈ bs, '/' ∉ b.page.slug.toList

/-- No two pages of a folder have the same slug. -/
def NamedApart (t : Tree) (output base : Path) (bs : List Built) : Prop :=
  (bs.map fun b => (folderOf t output base b, b.page.slug)).Nodup

def endings : List String := [".html", ".json"]

theorem length_ending {ending : String} (h : ending ∈ endings) : ending.toList.length = 5 := by
  revert ending
  decide

theorem slash_notMem_ending {ending : String} (h : ending ∈ endings) : '/' ∉ ending.toList := by
  revert ending
  decide

theorem slug_inj {slug slug' ending ending' : String} (he : ending ∈ endings)
    (he' : ending' ∈ endings) (h : slug ++ ending = slug' ++ ending') :
    slug = slug' ∧ ending = ending' := by
  have hlists := congrArg String.toList h
  rw [String.toList_append, String.toList_append] at hlists
  have hlengths : ending.toList.length = ending'.toList.length := by
    rw [length_ending he, length_ending he']
  obtain ⟨hslug, hending⟩ := List.append_inj' hlists hlengths
  exact ⟨String.toList_inj.mp hslug, String.toList_inj.mp hending⟩

/-- A plain slug with an ending is one part of a path. -/
theorem outputPath_plain (folder : Path) {slug ending : String} (hslug : '/' ∉ slug.toList)
    (hending : ending ∈ endings) : outputPath folder slug ending = folder.child (slug ++ ending) := by
  have hlength : (slug ++ ending).toList.length = slug.toList.length + 5 := by
    rw [String.toList_append, List.length_append, length_ending hending]
  have hslash : '/' ∉ (slug ++ ending).toList := by
    rw [String.toList_append, List.mem_append]
    exact fun h => h.elim hslug (slash_notMem_ending hending)
  have hname := Path.ofString_plain hslash (by omega)
  unfold outputPath Path.join
  rw [hname]
  rfl

theorem nodup_map_congr {α β γ : Type} {f : α → β} {g : α → γ} {as : List α}
    (h : ∀ a ∈ as, ∀ b ∈ as, f a = f b ↔ g a = g b) : (as.map f).Nodup ↔ (as.map g).Nodup := by
  unfold List.Nodup
  rw [List.pairwise_map, List.pairwise_map]
  exact List.Pairwise.iff_of_mem fun ha hb => not_congr (h _ ha _ hb)

theorem htmlOf_inj {c : Built} {folder folder' : Path} (hb : '/' ∉ b.page.slug.toList)
    (hc : '/' ∉ c.page.slug.toList) :
    htmlOf b folder = htmlOf c folder' ↔ folder = folder' ∧ b.page.slug = c.page.slug := by
  have hending : ".html" ∈ endings := List.mem_cons_self
  unfold htmlOf
  rw [outputPath_plain folder hb hending, outputPath_plain folder' hc hending]
  rw [Path.child_inj]
  refine and_congr_right fun _ => ?_
  constructor
  · intro h
    exact (slug_inj hending hending h).1
  · intro h
    rw [h]

theorem folder_of_answers {bs : List Built} {results : List (Path × Path)}
    (h : List.Forall₂ (Answers t output base) bs results) :
    ∀ b ∈ bs, ∃ folder, folderOf t output base b = .ok folder := by
  induction h with
  | nil => nofun
  | cons hb _ ih =>
    obtain ⟨folder, hfolder, -⟩ := hb
    exact List.forall_mem_cons.mpr ⟨⟨folder, hfolder⟩, ih⟩

/-- The HTML paths of a build are distinct just when the pages of each folder have distinct slugs. -/
theorem nodup_answers_iff {bs : List Built} {results : List (Path × Path)}
    (h : List.Forall₂ (Answers t output base) bs results) (hslugs : PlainSlugs bs) :
    (results.map (·.2)).Nodup ↔ NamedApart t output base bs := by
  let html (b : Built) : Path := htmlOf b ((folderOf t output base b).toOption.getD .here)
  have hhtml : results.map (·.2) = bs.map html := by
    clear hslugs
    induction h with
    | nil => rfl
    | cons hb _ ih =>
      obtain ⟨folder, hfolder, rfl⟩ := hb
      rw [List.map_cons, List.map_cons, ih]
      simp [html, hfolder, Except.toOption]
  have hfolders := folder_of_answers h
  rw [hhtml]
  refine nodup_map_congr ?_
  intro b hb c hc
  obtain ⟨folder, hfolder⟩ := hfolders b hb
  obtain ⟨folder', hfolder'⟩ := hfolders c hc
  simp only [html, hfolder, hfolder', Except.toOption, Option.getD_some]
  rw [htmlOf_inj (hslugs b hb) (hslugs c hc), Prod.mk.injEq, Except.ok.injEq]

/-! ## Distinct places -/

/-- A page in a folder that is reached without double dots. -/
def Below (t : Tree) (base : Path) (b : Built) : Prop :=
  ∃ names, relativeFolder t b.page.path base = .ok names ∧ ".." ∉ names

/-- Below an output directory without links a file is where its path says. -/
theorem outputPlaces_below {names : Location} (hlinks : t.LinkFree (t.realLocation output))
    (hnames : relativeFolder t b.page.path base = .ok names) (hup : ".." ∉ names)
    (hslug : '/' ∉ b.page.slug.toList) :
    outputPlaces t output base b =
      endings.map fun ending => t.realLocation output ++ (names ++ [b.page.slug ++ ending]) := by
  have hplace : ∀ ending ∈ endings,
      t.realLocation (outputPath (Tree.extend output names) b.page.slug ending) =
        t.realLocation output ++ (names ++ [b.page.slug ++ ending]) := by
    intro ending hending
    have hfile : ".." ∉ names ++ [b.page.slug ++ ending] := by
      rw [List.mem_append, List.mem_singleton]
      rintro (hm | he)
      · exact hup hm
      · have hlength := congrArg (fun s => s.toList.length) he
        simp only [String.toList_append, List.length_append, length_ending hending] at hlength
        exact absurd hlength (by simp)
    have hpath : (Tree.extend output names).child (b.page.slug ++ ending) =
        Tree.extend output (names ++ [b.page.slug ++ ending]) := by
      simp [Tree.extend, Path.child]
    rw [outputPath_plain _ hslug hending, hpath, Tree.realLocation_extend hlinks hfile]
  have hhtml := hplace ".html" (by decide)
  have hjson := hplace ".json" (by decide)
  unfold outputPlaces folderOf htmlOf jsonOf
  rw [hnames]
  simp only [Except.map, hhtml, hjson]
  rfl

theorem place_inj {place names names' : Location} {name name' : String}
    (h : place ++ (names ++ [name]) = place ++ (names' ++ [name'])) :
    names = names' ∧ name = name' := by
  obtain ⟨hnames, hname⟩ := List.append_inj' (List.append_cancel_left h) rfl
  exact ⟨hnames, (List.cons.inj hname).1⟩

/-- Pages of a folder with distinct slugs are written to distinct places. -/
theorem nodup_outputPlaces {bs : List Built} (hslugs : PlainSlugs bs)
    (hbelow : ∀ b ∈ bs, Below t base b) (hlinks : t.LinkFree (t.realLocation output))
    (hapart : NamedApart t output base bs) :
    (bs.flatMap (outputPlaces t output base)).Nodup := by
  have hplaces : ∀ b ∈ bs, ∃ names, folderOf t output base b = .ok (Tree.extend output names) ∧
      outputPlaces t output base b =
        endings.map fun ending => t.realLocation output ++ (names ++ [b.page.slug ++ ending]) := by
    intro b hb
    obtain ⟨names, hnames, hup⟩ := hbelow b hb
    refine ⟨names, by rw [folderOf, hnames]; rfl, ?_⟩
    exact outputPlaces_below hlinks hnames hup (hslugs b hb)
  rw [List.nodup_flatMap]
  constructor
  · intro b hb
    obtain ⟨names, -, hplace⟩ := hplaces b hb
    rw [hplace]
    refine List.Nodup.map_on ?_ (by decide)
    intro ending he ending' he' h
    exact (slug_inj he he' (place_inj h).2).2
  · unfold NamedApart List.Nodup at hapart
    rw [List.pairwise_map] at hapart
    refine hapart.imp_of_mem ?_
    intro b c hb hc hne
    obtain ⟨names, hfolder, hplace⟩ := hplaces b hb
    obtain ⟨names', hfolder', hplace'⟩ := hplaces c hc
    intro l hl hl'
    rw [hplace] at hl
    rw [hplace'] at hl'
    obtain ⟨ending, he, rfl⟩ := List.mem_map.mp hl
    obtain ⟨ending', he', h⟩ := List.mem_map.mp hl'
    obtain ⟨rfl, hname⟩ := place_inj h
    exact hne (by rw [hfolder, hfolder', (slug_inj he' he hname).1])

/-- A document that was found lies below the source directory without double dots. -/
theorem up_notMem_relativeFolder {document : Path} {names : Location} {place : Location}
    (hhere : ".." ∉ t.here) (hread : t.locate true document = .ok place)
    (h : relativeFolder t document base = .ok names) : ".." ∉ names := by
  have hstart : ".." ∉ t.start document := by
    unfold Tree.start
    split
    · exact List.not_mem_nil
    · exact hhere
  have hparent : ∃ l, t.Arrives true l Tree.maxLinks (t.start document)
      document.parts.dropLast := by
    have hfollow := (Tree.locate_ok_iff.mp hread).2
    by_cases hparts : document.parts = []
    · rw [hparts] at hfollow ⊢
      exact ⟨place, hfollow⟩
    · rw [← List.dropLast_append_getLast hparts] at hfollow
      exact hfollow.before
  have hfolder : ".." ∉ t.realLocation document.parent := by
    obtain ⟨l, hl⟩ := hparent
    have hreal : t.realLocation document.parent = l := hl.realFollow
    rw [hreal]
    exact hl.up hstart
  have hdrop (root : Location) : ".." ∉
      if root.isPrefixOf (t.realLocation document.parent) then
        (t.realLocation document.parent).drop root.length
      else [] := by
    split
    · exact fun hm => hfolder (List.mem_of_mem_drop hm)
    · exact List.not_mem_nil
  obtain ⟨d, -, h⟩ := bind_eq_ok.mp h
  cases h
  exact hdrop _

/-! ## Builds -/

/-- The pages that a build makes of documents, before any of them is written. -/
inductive Makes (s : Settings) (t : Tree) (now : String) : List Path → List Built → Prop where
  | none : Makes s t now [] []
  | some {documents store t₁ t₂ pages} (hstore : openStore s t = .ok (store, t₁))
      (hpages : buildPages s store t₁ now documents = (t₂, .ok pages)) :
      Makes s t now documents pages

variable {s : Settings} {now : String} {root : Path} {store : Store} {documents : List Path}
  {pages : List Built}

theorem Builds.paths {L : Asset.Batch → Asset.Event → Asset.Batch → Prop}
    (h : Builds L s t now store documents pages) :
    pages.map (·.page.path) = documents ∧
      ∀ p ∈ documents, ∃ page, readFile s.reading t p = .ok page := by
  have hlength := h.length
  obtain ⟨ledger, read, results, es, b, -, hread, -, -⟩ := h
  have hcount : read.length ≤ results.length := by
    have hdocuments := hread.length_eq
    rw [List.length_zipWith] at hlength
    omega
  clear hlength
  induction hread generalizing results with
  | nil => exact ⟨rfl, nofun⟩
  | @cons p page documents read hp _ ih =>
    cases results with
    | nil => cases hcount
    | cons result results =>
      obtain ⟨hpaths, hreads⟩ := ih results (Nat.le_of_succ_le_succ hcount)
      constructor
      · rw [List.zipWith_cons_cons, List.map_cons, hpaths]
        have hpath : page.path = p := path_readFile hp
        exact congrArg (· :: documents) hpath
      · exact List.forall_mem_cons.mpr ⟨⟨page, hp⟩, hreads⟩

theorem locate_of_readFile {reading : Document.Reading} {p : Path} {page : Document.Page}
    (h : readFile reading t p = .ok page) : ∃ place, t.locate true p = .ok place := by
  cases hl : t.locate true p with
  | ok place => exact ⟨place, rfl⟩
  | error e =>
    exfalso
    simp only [readFile, Tree.readText, Tree.readBytes, Tree.readContent, Tree.entryAt, hl] at h
    cases h

/-- A page whose document was read from the grown tree lies below the root. -/
theorem below_of_read {W : Location → Prop} {t₁ : Tree} {e : Entry} {output folder : Path}
    {b : Built} {reading : Document.Reading} {page : Document.Page} (hopen : Grows W t t₁)
    (he : t.entryAt root = .ok e) (hhere : ".." ∉ t.here)
    (hfolder : folderOf t output root b = .ok folder)
    (hread : readFile reading t₁ b.page.path = .ok page) : Below t root b := by
  obtain ⟨place, hplace⟩ := locate_of_readFile hread
  cases hnames : relativeFolder t b.page.path root with
  | error e' =>
    rw [folderOf, hnames] at hfolder
    cases hfolder
  | ok names =>
    have hnames₁ : relativeFolder t₁ b.page.path root = .ok names := by
      rw [relativeFolder_grows hopen he]
      exact hnames
    exact ⟨names, hnames, up_notMem_relativeFolder (hopen.here ▸ hhere) hplace hnames₁⟩

theorem entryAt_of_documents {p : Path} {ps : List Path} (h : documentsAt t root = .ok (p :: ps)) :
    ∃ e, t.entryAt root = .ok e := by
  cases he : t.entryAt root with
  | ok e => exact ⟨e, rfl⟩
  | error e =>
    exfalso
    simp only [documentsAt, Tree.isFile, Tree.isDirectory, Tree.ask, he] at h
    split at h
    · cases h
    · cases h

/-- What a build that succeeds has found, made and written. -/
structure BuildWritten (s : Settings) (t : Tree) (now : String) (root : Path)
    (results : List (Path × Path)) (t' : Tree) (documents : List Path) (pages : List Built) :
    Prop where
  found : documentsAt t root = .ok documents
  makes : Makes s t now documents pages
  paths : pages.map (·.page.path) = documents
  answers : List.Forall₂ (Answers t (Path.ofString s.outputDir) root) pages results
  /-- Files at distinct places hold what belongs to their pages. -/
  holds : (pages.flatMap (outputPlaces t (Path.ofString s.outputDir) root)).Nodup →
    ∀ b ∈ pages, ∃ folder, folderOf t (Path.ofString s.outputDir) root b = .ok folder ∧
      Holds t' b folder
  named : PlainSlugs pages →
    ((results.map (·.2)).Nodup ↔ NamedApart t (Path.ofString s.outputDir) root pages)
  /-- Distinct paths are distinct places, unless slugs or links lead astray. -/
  apart : PlainSlugs pages → ".." ∉ t.here → t.LinkFree (t.realLocation (Path.ofString s.outputDir)) →
    (results.map (·.2)).Nodup →
      (pages.flatMap (outputPlaces t (Path.ofString s.outputDir) root)).Nodup

theorem buildWritten_some {results : List (Path × Path)} {t₁ t₂ : Tree} {e : Entry}
    (hfound : documentsAt t root = .ok documents) (he : t.entryAt root = .ok e)
    (hstore : openStore s t = .ok (store, t₁))
    (hpages : buildPages s store t₁ now documents = (t₂, .ok pages))
    (h : writePages (Path.ofString s.outputDir) root t₂ pages = (t', .ok results)) :
    BuildWritten s t now root results t' documents pages := by
  have hopen := grows_openStore hstore
  have hgrows : Grows Anywhere t t₂ :=
    (hopen.mono fun _ _ => trivial).trans (grows_buildPages hpages)
  have hbuilds := buildPages_builds (L := fun _ _ _ => True) (fun _ _ => trivial) hpages
  obtain ⟨hpaths, hreads⟩ := hbuilds.paths
  obtain ⟨e₂, he₂⟩ := Tree.entryAt_grows hgrows he
  have hwritten := writePages_spec he₂ h
  have hfolders : ∀ c, folderOf t₂ (Path.ofString s.outputDir) root c =
      folderOf t (Path.ofString s.outputDir) root c := folderOf_grows hgrows he
  have hplaces : ∀ c, outputPlaces t₂ (Path.ofString s.outputDir) root c =
      outputPlaces t (Path.ofString s.outputDir) root c := fun _ => outputPlaces_grows hgrows he
  have hanswers : List.Forall₂ (Answers t (Path.ofString s.outputDir) root) pages results := by
    refine hwritten.answers.imp ?_
    rintro c r ⟨folder, hf, rfl⟩
    exact ⟨folder, hfolders c ▸ hf, rfl⟩
  have hbelow : ".." ∉ t.here → ∀ b ∈ pages, Below t root b := by
    intro hhere b hb
    obtain ⟨folder, hfolder⟩ := folder_of_answers hanswers b hb
    have hdocument : b.page.path ∈ documents := hpaths ▸ List.mem_map_of_mem hb
    obtain ⟨page, hread⟩ := hreads _ hdocument
    exact below_of_read hopen he hhere hfolder hread
  refine ⟨hfound, .some hstore hpages, hpaths, hanswers, ?_, nodup_answers_iff hanswers, ?_⟩
  · intro hnodup b hb
    have hnodup₂ : (pages.flatMap (outputPlaces t₂ (Path.ofString s.outputDir) root)).Nodup := by
      rw [funext hplaces]
      exact hnodup
    obtain ⟨folder, hf, hholds⟩ := hwritten.holds hnodup₂ b hb
    exact ⟨folder, hfolders b ▸ hf, hholds⟩
  · intro hslugs hhere hlinks hnodup
    have hapart := (nodup_answers_iff hanswers hslugs).mp hnodup
    exact nodup_outputPlaces hslugs (hbelow hhere) hlinks hapart

/-- A build that succeeds writes two files for each page that it made. They hold the rendering and
the sidecar of their own page when no two of them are at the same place. The HTML paths are distinct
just when the pages of each folder have distinct slugs. -/
theorem outputs_of_build {results : List (Path × Path)}
    (h : build s t now root = (t', .ok results)) :
    ∃ documents pages, BuildWritten s t now root results t' documents pages := by
  unfold build at h
  split at h
  · cases h
  · next hfound =>
    cases h
    refine ⟨[], [], hfound, .none, rfl, .nil, fun _ => nofun, nodup_answers_iff .nil, ?_⟩
    exact fun _ _ _ _ => List.nodup_nil
  · next documents hne hfound =>
    split at h
    · cases h
    · next store t₁ hstore =>
      split at h
      · cases h
      · next t₂ pages hpages =>
        obtain ⟨p, ps, rfl⟩ := List.exists_cons_of_ne_nil hne
        obtain ⟨e, he⟩ := entryAt_of_documents hfound
        exact ⟨_, pages, buildWritten_some hfound he hstore hpages h⟩

/-! ## Two sites -/

/-- Builds documents that were found. -/
def buildFound (s : Settings) (store : Store) (t : Tree) (now : String) (root : Path)
    (documents : List Path) : Tree × Except Failure (List (Path × Path)) :=
  match buildPages s store t now documents with
  | (t, .error e) => (t, .error e)
  | (t, .ok pages) => writePages (Path.ofString s.outputDir) root t pages

theorem build_of_found {p : Path} {ps : List Path} (hfound : documentsAt t root = .ok (p :: ps))
    (hstore : openStore s t = .ok (store, u)) :
    build s t now root = buildFound s store u now root (p :: ps) := by
  rcases hpages : buildPages s store u now (p :: ps) with ⟨t', e | pages⟩
  · simp only [build, buildFound, hfound, hstore, hpages]
  · simp only [build, buildFound, hfound, hstore, hpages]

def pairSite (second : String) : Tree where
  entries := [(["docs"], .directory), (["docs", "a.md"], .file (.bytes "One.\n".toUTF8.toList)),
    (["docs", second], .file (.bytes "Two.\n".toUTF8.toList))]
  here := []

def docs : Path := Path.ofString "docs"

def dist (name : String) : Path := (Path.ofString "dist").child name

def pairDocuments (second : String) : List Path := [docs.child "a.md", docs.child second]

/-- The documents of a folder, whose paths are known in their order. -/
theorem documentsAt_folder {folder : Path} (paths : List Path)
    (hfile : t.isFile folder = .ok false) (hdir : t.isDirectory folder = .ok true)
    (hbelow : t.pathsBelow folder = .ok (paths.mergeSort Path.le))
    (hsorted : paths.Pairwise fun p q => Path.le p q)
    (hdocuments : filesAmong t (paths.filter isDocument) = .ok documents) :
    documentsAt t folder = .ok documents := by
  unfold documentsAt
  rw [hfile, hdir, hbelow, List.mergeSort_of_pairwise hsorted]
  simp only [ok_bind, Bool.false_eq_true, if_false, if_true, hdocuments]

theorem documentsAt_pair {second : String} (hsecond : second ∈ ["a.mdx", "b.md"]) :
    documentsAt (pairSite second) docs = .ok (pairDocuments second) := by
  refine documentsAt_folder (pairDocuments second) rfl rfl rfl ?_ ?_
  · revert second
    decide +kernel
  · simp only [List.mem_cons, List.not_mem_nil, or_false] at hsecond
    rcases hsecond with rfl | rfl <;> decide +kernel

def builtPair (second : String) : Tree × Except Failure (List (Path × Path)) :=
  buildFound {} (.json (Path.ofString ".asset-usage.json")) (pairSite second) "2024" docs
    (pairDocuments second)

theorem build_pair {second : String} (hsecond : second ∈ ["a.mdx", "b.md"])
    {results : List (Path × Path)} (h : (builtPair second).2.toOption = some results) :
    build {} (pairSite second) "2024" docs = ((builtPair second).1, .ok results) := by
  have hfound : documentsAt (pairSite second) docs = .ok [docs.child "a.md", docs.child second] :=
    documentsAt_pair hsecond
  have hstore : openStore {} (pairSite second) =
      .ok (.json (Path.ofString ".asset-usage.json"), pairSite second) := rfl
  have hbuild : build {} (pairSite second) "2024" docs = builtPair second :=
    build_of_found hfound hstore
  exact hbuild.trans (Prod.ext rfl (toOption_eq_some.mp h))

theorem linkFree_of_entries (h : ∀ e ∈ t.entries, ∀ target, e.2 ≠ .link target)
    (place : Location) : t.LinkFree place := by
  intro l target hl
  exfalso
  unfold Tree.at? at hl
  split at hl
  · cases hl
  · exact h _ (Assoc.mem_of_find? hl) target rfl

theorem linkFree_pair (second : String) (place : Location) :
    (pairSite second).LinkFree place :=
  linkFree_of_entries (by simp [pairSite]) place

theorem plainSlugs_pair {pages : List Built}
    (h : Makes {} (pairSite "b.md") "2024" (pairDocuments "b.md") pages) : PlainSlugs pages := by
  have hslugs : (buildPages {} (.json (Path.ofString ".asset-usage.json")) (pairSite "b.md") "2024"
      (pairDocuments "b.md")).2.toOption.map (·.map (·.page.slug)) = some ["a", "b"] := by
    decide +kernel
  cases h with
  | some hstore hpages =>
    cases hstore
    rw [hpages] at hslugs
    have hpages : pages.map (·.page.slug) = ["a", "b"] := Option.some.inj hslugs
    intro b hb
    have hslug : b.page.slug ∈ ["a", "b"] := by
      rw [← hpages]
      exact List.mem_map_of_mem hb
    revert hslug
    generalize b.page.slug = slug
    revert slug
    decide

/-- Two documents with names of their own; both pages are left in their files. -/
theorem outputs_of_pair : ∃ t' results pages,
    build {} (pairSite "b.md") "2024" docs = (t', .ok results) ∧
      results.map (·.2) = [dist "a.html", dist "b.html"] ∧
      BuildWritten {} (pairSite "b.md") "2024" docs results t' (pairDocuments "b.md") pages ∧
      ∀ b ∈ pages, ∃ folder,
        folderOf (pairSite "b.md") (Path.ofString "dist") docs b = .ok folder ∧ Holds t' b folder := by
  have hresults : (builtPair "b.md").2.toOption =
      some [(docs.child "a.md", dist "a.html"), (docs.child "b.md", dist "b.html")] := by
    decide +kernel
  have hbuild := build_pair (by decide) hresults
  obtain ⟨documents, pages, hwritten⟩ := outputs_of_build hbuild
  have hfound := hwritten.found
  rw [documentsAt_pair (by decide), Except.ok.injEq] at hfound
  subst hfound
  have hslugs := plainSlugs_pair hwritten.makes
  have hapart := hwritten.apart hslugs List.not_mem_nil (linkFree_pair _ _) (by decide)
  exact ⟨_, _, pages, hbuild, rfl, hwritten, hwritten.holds hapart⟩

/-- Two documents whose names differ in the suffix only are written to the same file. -/
theorem same_name_overwrites :
    ∃ t' results, build {} (pairSite "a.mdx") "2024" docs = (t', .ok results) ∧
      documentsAt (pairSite "a.mdx") docs = .ok (pairDocuments "a.mdx") ∧
      results.map (·.2) = [dist "a.html", dist "a.html"] ∧ ¬ (results.map (·.2)).Nodup ∧
      (t'.readText (dist "a.html")).toOption = some "<p>Two.</p>\n" := by
  have hresults : (builtPair "a.mdx").2.toOption =
      some [(docs.child "a.md", dist "a.html"), (docs.child "a.mdx", dist "a.html")] := by
    decide +kernel
  have hbuild := build_pair (by decide) hresults
  refine ⟨_, _, hbuild, documentsAt_pair (by decide), rfl, by decide, ?_⟩
  decide +kernel

end DocumentMedia.Site
