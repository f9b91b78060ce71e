import DocumentMedia.Proofs.Files.Path
import DocumentMedia.Proofs.Site.Outputs
import DocumentMedia.Proofs.Text.Slug

/-! # Where the files of a page lie

A page is written to two files in the folder of its document. A slug that is made of the name of the
document is a single name, and the files lie in that folder. A slug that a header gives is read as a
path: what stands before its last slash leads on from the folder, or away from it. -/
namespace DocumentMedia.Site

open DocumentMedia.Files
open DocumentMedia.Text (slugify mem_joinWith)

/-! ## Slugs made of names -/

/-- Slugs made of texts have no slashes, unless the fallback has. -/
theorem slash_notMem_slugify (text : String) {fallback : String} (hf : '/' ∉ fallback.toList) :
    '/' ∉ (slugify text fallback).toList := by
  simp only [slugify]
  split
  · exact hf
  · rw [String.toList_ofList]
    intro hmem
    rcases mem_joinWith hmem with hsep | ⟨w, hw, hc⟩
    · exact absurd hsep (by decide)
    · exact absurd ((Text.isRun_of_mem_slugWords hw).2 _ hc) (by decide)

/-- A page whose header gives no slug. -/
def Unnamed (page : Document.Page) : Prop :=
  (Value.under? page.fields "slug").filter Value.isTruthy = none

theorem slash_notMem_slug {reading : Document.Reading} {path : Path} {text : String}
    {page : Document.Page} (h : Document.readPage reading path text = .ok page)
    (hu : Unnamed page) : '/' ∉ page.slug.toList := by
  have hslug := (Document.readPage_ok h).2.1
  unfold Unnamed at hu
  simp only [Document.slugOf, hu, Except.ok.injEq] at hslug
  rw [← hslug]
  exact slash_notMem_slugify _ (by decide)

/-! ## Slugs as paths -/

/-- Where a slug leads before its last slash. -/
def slugFolder (slug : String) : Path where
  root := Path.rootOf slug.toList
  parts := (Path.partsAmong (Path.piecesOf slug.toList).dropLast).map String.ofList

/-- What follows the last slash of a slug. -/
def slugName (slug : String) : String :=
  String.ofList ((Path.piecesOf slug.toList).getLast (Path.piecesOf_ne_nil _))

theorem rootOf_append {s e : List Char} (he : e.head? ≠ some '/') :
    Path.rootOf (s ++ e) = Path.rootOf s := by
  have hroot : Path.rootOf e = "" := by
    unfold Path.rootOf
    split <;> first | rfl | exact absurd rfl he
  match s with
  | [] => exact hroot
  | [a] =>
    by_cases ha : a = '/'
    · subst ha
      cases e with
      | nil => rfl
      | cons b e =>
        have hb : b ≠ '/' := fun h => he (by rw [h]; rfl)
        simp [Path.rootOf, hb]
    · simp [Path.rootOf, ha]
  | [a, b] =>
    by_cases ha : a = '/'
    · by_cases hb : b = '/'
      · subst ha hb
        cases e with
        | nil => rfl
        | cons c e =>
          have hc : c ≠ '/' := fun h => he (by rw [h]; rfl)
          simp [Path.rootOf, hc]
      · simp [Path.rootOf, ha, hb]
    · simp [Path.rootOf, ha]
  | a :: b :: c :: rest =>
    by_cases ha : a = '/' <;> by_cases hb : b = '/' <;> by_cases hc : c = '/' <;>
      simp [Path.rootOf, ha, hb, hc]

theorem join_child (p q : Path) (name : String) :
    p.join (q.child name) = (p.join q).child name := by
  unfold Path.join Path.child Path.isAbsolute
  split <;> simp_all

theorem head?_ending {ending : String} (h : ending ∈ endings) : ending.toList.head? ≠ some '/' := by
  revert ending
  decide

/-- The path of an output file lies in the folder to which its slug leads. -/
theorem outputPath_eq (folder : Path) (slug : String) {ending : String} (h : ending ∈ endings) :
    outputPath folder slug ending =
      (folder.join (slugFolder slug)).child (slugName slug ++ ending) := by
  obtain ⟨folders, name, hpieces⟩ := Path.exists_piecesOf_concat slug.toList
  have hname : slugName slug = String.ofList name := by simp [slugName, hpieces]
  have hfile := Path.piecesOf_append_plain hpieces (slash_notMem_ending h)
  have hpart : Path.partsAmong [name ++ ending.toList] = [name ++ ending.toList] := by
    have hlength := length_ending h
    have hne : name ++ ending.toList ≠ [] ∧ name ++ ending.toList ≠ ['.'] := by
      constructor <;> intro he <;> have hle := congrArg List.length he <;>
        simp only [List.length_append, List.length_nil, List.length_singleton] at hle <;> omega
    simp [Path.partsAmong, hne.1, hne.2]
  have hpath :
      Path.ofString (slug ++ ending) = (slugFolder slug).child (slugName slug ++ ending) := by
    have hroot : Path.rootOf (slug ++ ending).toList = Path.rootOf slug.toList := by
      rw [String.toList_append, rootOf_append (head?_ending h)]
    have hparts : (Path.ofString (slug ++ ending)).parts =
        (slugFolder slug).parts ++ [slugName slug ++ ending] := by
      rw [Path.parts_ofString, String.toList_append, Path.partsOf, hfile, Path.partsAmong_append,
        hpart, List.map_append, slugFolder, hpieces, List.dropLast_concat, hname]
      simp
    rw [Path.child, ← hparts, slugFolder, ← hroot]
    rfl
  rw [outputPath, hpath, join_child]

/-- The slugs with which a page is written to its folder. -/
inductive Stays (folder : Path) (slug : String) : Prop where
  /-- Nothing but empty names and single points before the last slash, and no slash in front. -/
  | here (hhead : slug.toList.head? ≠ some '/')
      (hpoints : ∀ w ∈ (Path.piecesOf slug.toList).dropLast, ¬ Path.IsPart w)
  /-- The folder itself, from the root on. -/
  | spelled (hhead : slug.toList.head? = some '/') (hfolder : slugFolder slug = folder)

theorem rootOf_eq_empty {s : List Char} : Path.rootOf s = "" ↔ s.head? ≠ some '/' := by
  constructor
  · intro h hhead
    cases s with
    | nil => cases hhead
    | cons c s =>
      obtain rfl : c = '/' := Option.some.inj hhead
      unfold Path.rootOf at h
      split at h
      · exact absurd h (by decide)
      · exact absurd h (by decide)
      · exact absurd h (by decide)
      · next hne => exact hne s rfl
  · intro h
    exact rootOf_append (s := []) h

theorem partsAmong_eq_nil {ws : List (List Char)} :
    Path.partsAmong ws = [] ↔ ∀ w ∈ ws, ¬ Path.IsPart w := by
  simp [Path.partsAmong, Path.IsPart]

theorem join_eq_self_iff {folder : Path} {slug : String} :
    folder.join (slugFolder slug) = folder ↔ Stays folder slug := by
  have hroot : (slugFolder slug).isAbsolute = false ↔ slug.toList.head? ≠ some '/' := by
    rw [← rootOf_eq_empty, Path.isAbsolute, Bool.not_eq_false', String.isEmpty_iff]
    rfl
  by_cases hhead : slug.toList.head? = some '/'
  · have habsolute : (slugFolder slug).isAbsolute = true := by
      rw [← Bool.not_eq_false, hroot]
      exact fun h => h hhead
    rw [Path.join, if_pos habsolute]
    constructor
    · exact .spelled hhead
    · rintro (⟨hne, -⟩ | ⟨-, h⟩)
      · exact absurd hhead hne
      · exact h
  · have hrelative := hroot.mpr hhead
    rw [Path.join, hrelative, if_neg Bool.false_ne_true]
    have hparts : (⟨folder.root, folder.parts ++ (slugFolder slug).parts⟩ : Path) = folder ↔
        (slugFolder slug).parts = [] := by
      cases folder
      simp
    rw [hparts, slugFolder, List.map_eq_nil_iff, partsAmong_eq_nil]
    constructor
    · exact .here hhead
    · rintro (⟨-, h⟩ | ⟨h, -⟩)
      · exact h
      · exact absurd h hhead

theorem stays_of_plain (folder : Path) {slug : String} (h : '/' ∉ slug.toList) :
    Stays folder slug := by
  refine .here ?_ ?_
  · intro hhead
    exact h (List.mem_of_mem_head? hhead)
  · rw [Path.piecesOf_plain h]
    nofun

/-- A file lies in the folder of its page just when the slug stays there. -/
theorem parent_outputPath_iff (folder : Path) (slug : String) {ending : String}
    (h : ending ∈ endings) :
    (outputPath folder slug ending).parent = folder ↔ Stays folder slug := by
  rw [outputPath_eq folder slug h, Path.parent_child, join_eq_self_iff]

/-! ## Files of pages -/

variable {t t' : Tree} {output base : Path} {b : Built}

theorem slash_notMem_slugName (slug : String) : '/' ∉ (slugName slug).toList := by
  rw [slugName, String.toList_ofList]
  exact Path.notMem_of_mem_piecesOf (List.getLast_mem _)

/-- Below an output directory without links, files are in the folder in which their slug stays. -/
theorem outputPlaces_stays {names : Location} (hlinks : t.LinkFree (t.realLocation output))
    (hnames : relativeFolder t b.page.path base = .ok names) (hup : ".." ∉ names)
    (hstays : Stays (Tree.extend output names) b.page.slug) :
    outputPlaces t output base b = endings.map fun ending =>
      t.realLocation output ++ (names ++ [slugName b.page.slug ++ ending]) := by
  -- The page is written where one is whose slug is the name only.
  let plain : Built := { b with page := { b.page with slug := slugName b.page.slug } }
  have hpath : ∀ ending ∈ endings,
      outputPath (Tree.extend output names) b.page.slug ending =
        outputPath (Tree.extend output names) plain.page.slug ending := by
    intro ending he
    rw [outputPath_eq _ _ he, join_eq_self_iff.mpr hstays,
      outputPath_plain _ (slash_notMem_slugName _) he]
  have hhtml := hpath ".html" (by decide)
  have hjson := hpath ".json" (by decide)
  have hplaces : outputPlaces t output base b = outputPlaces t output base plain := by
    simp only [outputPlaces, folderOf, hnames, plain, Except.map, htmlOf, jsonOf, hhtml, hjson]
  rw [hplaces]
  exact outputPlaces_below hlinks hnames hup (slash_notMem_slugName _)

/-- Writing a page changes no other files than those of the page, also when it fails. -/
theorem grows_writePage {o : Except Failure (Path × Path)}
    (h : writePage t b output base = (t', o)) :
    Grows (· ∈ outputPlaces t output base b) t t' := by
  unfold writePage at h
  split at h
  · cases h; exact .refl t
  · next names hnames =>
    have hplaces : outputPlaces t output base b =
        [t.realLocation (htmlOf b (Tree.extend output names)),
          t.realLocation (jsonOf b (Tree.extend output names))] := by
      simp only [outputPlaces, folderOf, hnames, Except.map]
    simp only at h
    split at h
    · cases h; exact .refl t
    · next t₁ hfolder =>
      have h₁ : Grows (· ∈ outputPlaces t output base b) t t₁ :=
        Tree.grows_ensureDirectories hfolder
      split at h
      · cases h; exact h₁
      · next t₂ hhtml =>
        have h₂ : Grows (· ∈ outputPlaces t output base b) t t₂ := by
          refine h₁.trans ((grows_writeText h₁ hhtml).mono ?_)
          rintro l rfl
          rw [hplaces]
          exact List.mem_cons_self
        split at h
        · cases h; exact h₂
        · split at h
          · cases h; exact h₂
          · next t₃ hjson =>
            cases h
            refine h₂.trans ((grows_writeText h₂ hjson).mono ?_)
            rintro l rfl
            rw [hplaces]
            exact List.mem_cons_of_mem _ List.mem_cons_self

/-- What is known of the files of a page whose folder is known. -/
structure Placed (t t' : Tree) (output : Path) (names : Location) (slug : String)
    (o : Except Failure (Path × Path)) : Prop where
  /-- The files lie in the folder just when the slug stays there. -/
  paths : ∀ html json, o = .ok (html, json) →
    (html.parent = Tree.extend output names ↔ Stays (Tree.extend output names) slug) ∧
      (json.parent = Tree.extend output names ↔ Stays (Tree.extend output names) slug)
  /-- Then nothing else is written, and both are below the output directory, also with links
  resolved. -/
  files : Stays (Tree.extend output names) slug → t.LinkFree (t.realLocation output) →
    ".." ∉ names →
      Grows (fun place => ∃ ending ∈ endings,
        place = t.realLocation output ++ (names ++ [slugName slug ++ ending])) t t'

theorem writePage_folder {o : Except Failure (Path × Path)} {e : FileError}
    (hnames : relativeFolder t b.page.path base = .error e)
    (h : writePage t b output base = (t', o)) : t' = t ∧ o = .error (.file e) := by
  simp only [writePage, hnames, Prod.mk.injEq] at h
  exact ⟨h.1.symm, h.2.symm⟩

theorem placed_of_write {names : Location} {o : Except Failure (Path × Path)}
    (hnames : relativeFolder t b.page.path base = .ok names)
    (h : writePage t b output base = (t', o)) : Placed t t' output names b.page.slug o := by
  constructor
  · rintro html json rfl
    obtain ⟨folder, hfolder, rfl, rfl, -⟩ := writePage_spec h
    obtain rfl : Tree.extend output names = folder := by
      rw [folderOf, hnames] at hfolder
      exact Except.ok.inj hfolder
    exact ⟨parent_outputPath_iff _ _ (by decide), parent_outputPath_iff _ _ (by decide)⟩
  · intro hstays hlinks hup
    refine (grows_writePage h).mono ?_
    intro place hplace
    rw [outputPlaces_stays hlinks hnames hup hstays, List.mem_map] at hplace
    obtain ⟨ending, hending, rfl⟩ := hplace
    exact ⟨ending, hending, rfl⟩

/-- The files of a page lie in its folder just when its slug stays there, as all slugs do that are
made of the name of the document. -/
theorem placement_of_page {reading : Document.Reading} {path : Path} {text : String}
    {page : Document.Page} (hread : Document.readPage reading path text = .ok page)
    {assets : List Asset.Asset} {o : Except Failure (Path × Path)}
    (h : writePage t ⟨page, assets⟩ output base = (t', o)) :
    (Unnamed page → ∀ folder, Stays folder page.slug) ∧
      ((∃ e, relativeFolder t path base = .error e ∧ t' = t ∧ o = .error (.file e)) ∨
        ∃ names, relativeFolder t path base = .ok names ∧
          Placed t t' output names page.slug o) := by
  have hpath := path_readPage hread
  refine ⟨fun hu folder => stays_of_plain folder (slash_notMem_slug hread hu), ?_⟩
  cases hnames : relativeFolder t path base with
  | error e =>
    rw [← hpath] at hnames
    exact Or.inl ⟨e, rfl, writePage_folder (b := ⟨page, assets⟩) hnames h⟩
  | ok names =>
    rw [← hpath] at hnames
    exact Or.inr ⟨names, rfl, placed_of_write (b := ⟨page, assets⟩) hnames h⟩

section Sample

def sluggedText (slug : String) : String := "---\nslug: " ++ slug ++ "\n---\nHi.\n"

def sluggedPath : Path := docs.child "a.md"

def sluggedSite : Tree where
  entries := [(["docs"], .directory), (["docs", "a.md"], .file (.bytes []))]
  here := []

theorem placement_of_page_sample : ∃ page t' o,
    Document.readPage {} sluggedPath (sluggedText "x") = .ok page ∧
      writePage sluggedSite ⟨page, []⟩ (Path.ofString "dist") docs = (t', o) ∧
      (Unnamed page → ∀ folder, Stays folder page.slug) ∧
      ((∃ e, relativeFolder sluggedSite sluggedPath docs = .error e ∧ t' = sluggedSite ∧
          o = .error (.file e)) ∨
        ∃ names, relativeFolder sluggedSite sluggedPath docs = .ok names ∧
          Placed sluggedSite t' (Path.ofString "dist") names page.slug o) := by
  obtain ⟨page, hpage⟩ := exists_of_isOk
    (x := Document.readPage {} sluggedPath (sluggedText "x")) (by decide +kernel)
  rcases hwrite : writePage sluggedSite ⟨page, []⟩ (Path.ofString "dist") docs with ⟨t', o⟩
  exact ⟨page, t', o, hpage, hwrite, placement_of_page hpage hwrite⟩

/-- The answer for the page of a text, and whether something then stands at a place. -/
def writtenAs (slug : String) (place : Location) : Option ((Path × Path) × Bool) := do
  let page ← (Document.readPage {} sluggedPath (sluggedText slug)).toOption
  let (t, o) := writePage sluggedSite ⟨page, []⟩ (Path.ofString "dist") docs
  return (← o.toOption, (t.at? place).isSome)

theorem exists_of_writtenAs {slug : String} {place : Location} {paths : Path × Path}
    (h : writtenAs slug place = some (paths, true)) : ∃ page t',
      Document.readPage {} sluggedPath (sluggedText slug) = .ok page ∧
        writePage sluggedSite ⟨page, []⟩ (Path.ofString "dist") docs = (t', .ok paths) ∧
        (t'.at? place).isSome := by
  obtain ⟨page, hpage, h⟩ := Option.bind_eq_some_iff.mp h
  rcases hw : writePage sluggedSite ⟨page, []⟩ (Path.ofString "dist") docs with ⟨t', o⟩
  simp only [hw] at h
  obtain ⟨paths', ho, h⟩ := Option.bind_eq_some_iff.mp h
  obtain ⟨rfl, hat⟩ := Prod.mk.inj (Option.some.inj h)
  exact ⟨page, t', toOption_eq_some.mp hpage, toOption_eq_some.mp ho ▸ hw, hat⟩

/-- A slug of a header that leads upwards takes the page out of the output directory, and one from
the root on takes it anywhere. -/
theorem header_slug_escapes :
    relativeFolder sluggedSite sluggedPath docs = .ok [] ∧ sluggedSite.at? ["x.html"] = none ∧
    (Path.ofString "dist/../x.html").parent ≠ Path.ofString "dist" ∧
    (Path.ofString "/x.html").parent ≠ Path.ofString "dist" ∧
    (∃ page t', Document.readPage {} sluggedPath (sluggedText "../x") = .ok page ∧
      writePage sluggedSite ⟨page, []⟩ (Path.ofString "dist") docs =
        (t', .ok (Path.ofString "dist/../x.html", Path.ofString "dist/../x.json")) ∧
      (t'.at? ["x.html"]).isSome) ∧
    ∃ page t', Document.readPage {} sluggedPath (sluggedText "/x") = .ok page ∧
      writePage sluggedSite ⟨page, []⟩ (Path.ofString "dist") docs =
        (t', .ok (Path.ofString "/x.html", Path.ofString "/x.json")) ∧
      (t'.at? ["x.html"]).isSome := by
  refine ⟨by decide +kernel, by decide +kernel, by decide +kernel, by decide +kernel, ?_, ?_⟩
  · exact exists_of_writtenAs (by decide +kernel)
  · exact exists_of_writtenAs (by decide +kernel)

end Sample

end DocumentMedia.Site
