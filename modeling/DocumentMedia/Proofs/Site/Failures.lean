import DocumentMedia.Proofs.Site.Outputs
import DocumentMedia.Site.Run

/-! # How builds fail

While documents are read and their media published, each failure is that of a document and names
it. The stages before and after fail with errors of their own: the listing of the documents, the
opening and loading of the ledger, and the writing of the pages. A command explains the failures of
documents and dies of the others. -/
namespace DocumentMedia.Site

open DocumentMedia.Files
open DocumentMedia.Asset (Batch Localized)
open DocumentMedia.Document (Page)
open DocumentMedia.Ledger (Store)

/-! ## Failures of documents -/

/-- The failures of a document itself: it cannot be read, or its media cannot be published. -/
inductive OfDocument (s : Settings) (t : Tree) (p : Path) : Failure → Prop where
  | reading (cause) (h : readFile s.reading t p = .error cause) : OfDocument s t p cause
  | publishing (page e) (h : readFile s.reading t p = .ok page) : OfDocument s t p (.publish e)

theorem mem_of_firstFailure {α ε : Type} {rs : List (Path × Except ε α)} {p : Path} {e : ε}
    (h : firstFailure rs = some (p, e)) : (p, .error e) ∈ rs := by
  induction rs with
  | nil => cases h
  | cons r rs ih =>
    obtain ⟨q, o⟩ := r
    cases o with
    | error e' => cases h; exact List.mem_cons_self
    | ok a => exact List.mem_cons_of_mem _ (ih h)

theorem mem_outcomes {b : Batch} {pages : List Page} {p : Path} {f : Failure}
    (h : (p, .error f) ∈ outcomes b pages) :
    (∃ page ∈ pages, page.path = p) ∧ ∃ e, f = .publish e := by
  obtain ⟨⟨page, r⟩, hmem, hr⟩ := List.mem_filterMap.mp h
  obtain ⟨o, rfl, he⟩ := Option.map_eq_some_iff.mp hr
  obtain ⟨hpath, he⟩ := Prod.mk.inj he
  refine ⟨⟨page, (List.of_mem_zip hmem).1, hpath⟩, ?_⟩
  cases o with
  | error e => exact ⟨e, (Except.error.inj he).symm⟩
  | ok result => cases he

/-- The failure that is found before any document has returned: that of a reading, or of a scan of a
document that was read. -/
theorem mem_of_early {readings : List (Path × Except Failure Page)}
    {scans : List (Path × Except Failure (Page × Localized))} {p : Path} {f : Failure}
    (h : firstFailure (readings.map fun (p, r) => (p, r >>= fun _ =>
      match scans.find? (·.1 = p) with
      | some (_, .error e) => .error e
      | _ => .ok ())) = some (p, f)) : (p, .error f) ∈ readings ∨ (p, .error f) ∈ scans := by
  obtain ⟨⟨q, o⟩, hmem, he⟩ := List.mem_map.mp (mem_of_firstFailure h)
  obtain ⟨rfl, he⟩ := Prod.mk.inj he
  cases o with
  | error e =>
    cases he
    exact Or.inl hmem
  | ok a =>
    simp only [ok_bind] at he
    split at he
    · next q' e hscan =>
      cases he
      have hfound := List.find?_some hscan
      obtain rfl : q' = q := of_decide_eq_true hfound
      exact Or.inr (List.mem_of_find?_eq_some hscan)
    · cases he

/-- Where a program looks for documents that failed, and how it ends a batch in which it finds one:
after all copies, after the failures that they cause, and after all documents. -/
inductive LooksAt (b : Batch) : Batch → Batch → Prop where
  | copied : LooksAt b b.runCopies b.runCopies.runSave
  | checked : LooksAt b b.runCopies.failAll b.runCopies.failAll.runSave
  | done : LooksAt b b.runCopies.failAll.run b.runCopies.failAll.run

theorem publish_fails {b b' : Batch} {readings : List (Path × Except Failure Page)} {f : Failure}
    (h : publish b readings = (b', .error f)) :
    ∃ p cause u, f = .building p cause ∧ LooksAt b u b' ∧ ((p, .error cause) ∈ readings ∨
      (p, .error cause) ∈ outcomes u (readings.filterMap fun r => r.2.toOption)) := by
  unfold publish at h
  simp only at h
  split at h
  · next p cause hearly =>
    obtain ⟨rfl, hf⟩ := Prod.mk.inj h
    cases hf
    exact ⟨p, cause, _, rfl, .copied, mem_of_early hearly⟩
  · split at h
    · next p cause hchecked =>
      obtain ⟨rfl, hf⟩ := Prod.mk.inj h
      cases hf
      exact ⟨p, cause, _, rfl, .checked, Or.inr (mem_of_firstFailure hchecked)⟩
    · split at h
      · next p cause hdone =>
        obtain ⟨rfl, hf⟩ := Prod.mk.inj h
        cases hf
        exact ⟨p, cause, _, rfl, .done, Or.inr (mem_of_firstFailure hdone)⟩
      · cases (Prod.mk.inj h).2

/-- A failure of publishing belongs to one of the documents that were to be read. -/
theorem publish_error {b b' : Batch} {readings : List (Path × Except Failure Page)} {f : Failure}
    (h : publish b readings = (b', .error f)) :
    ∃ p cause, f = .building p cause ∧
      ((p, .error cause) ∈ readings ∨
        (∃ q page, (q, .ok page) ∈ readings ∧ page.path = p) ∧ ∃ e, cause = .publish e) := by
  obtain ⟨p, cause, u, rfl, -, hread | houtcome⟩ := publish_fails h
  · exact ⟨p, cause, rfl, Or.inl hread⟩
  · obtain ⟨⟨page, hpage, hpath⟩, hcause⟩ := mem_outcomes houtcome
    obtain ⟨⟨q, o⟩, hmem, ho⟩ := List.mem_filterMap.mp hpage
    exact ⟨p, cause, rfl, Or.inr ⟨⟨q, page, toOption_eq_some.mp ho ▸ hmem, hpath⟩, hcause⟩⟩

theorem buildPages_error {s : Settings} {store : Store} {t t' : Tree} {now : String}
    {documents : List Path} {f : Failure}
    (h : buildPages s store t now documents = (t', .error f)) :
    (∃ e, store.load t now = .error e ∧ f = .store e) ∨
      (∃ ledger, store.load t now = .ok ledger) ∧
        ∃ p ∈ documents, ∃ cause, f = .building p cause ∧ OfDocument s t p cause := by
  unfold buildPages at h
  cases hload : store.load t now with
  | error e =>
    rw [hload] at h
    cases h
    exact Or.inl ⟨e, rfl, rfl⟩
  | ok ledger =>
    rw [hload] at h
    simp only at h
    generalize hpub : publish _ _ = r at h
    obtain ⟨b', o⟩ := r
    have hend := (Prod.mk.inj h).2
    cases o with
    | ok ends => cases hend
    | error f' =>
      cases hend
      obtain ⟨p, cause, rfl, hcause⟩ := publish_error hpub
      refine Or.inr ⟨⟨ledger, rfl⟩, ?_⟩
      rcases hcause with hread | ⟨⟨q, page, hread, hpath⟩, e, rfl⟩
      · obtain ⟨q, hq, he⟩ := List.mem_map.mp hread
        obtain ⟨rfl, hfailed⟩ := Prod.mk.inj he
        exact ⟨q, hq, cause, rfl, .reading cause hfailed⟩
      · obtain ⟨q', hq, he⟩ := List.mem_map.mp hread
        obtain ⟨rfl, hok⟩ := Prod.mk.inj he
        obtain rfl : q' = p := (path_readFile hok).symm.trans hpath
        exact ⟨q', hq, _, rfl, .publishing page e hok⟩

/-! ## Failures of writing -/

/-- One of some pages cannot be written, after those before it have been. -/
inductive WriteFails (output base : Path) : Tree → List Built → Failure → Prop where
  | here (t b bs t' f) (h : writePage t b output base = (t', .error f)) :
      WriteFails output base t (b :: bs) f
  | later (t b bs t' paths f) (h : writePage t b output base = (t', .ok paths))
      (hrest : WriteFails output base t' bs f) : WriteFails output base t (b :: bs) f

theorem writePages_error {output base : Path} {t : Tree} {bs : List Built} {f : Failure} :
    (writePages output base t bs).2 = .error f ↔ WriteFails output base t bs f := by
  induction bs generalizing t with
  | nil =>
    constructor
    · intro h; cases h
    · intro h; cases h
  | cons b bs ih =>
    rw [writePages]
    rcases hb : writePage t b output base with ⟨t', e | ⟨html, json⟩⟩
    · constructor
      · intro h
        cases h
        exact .here t b bs t' f hb
      · intro h
        cases h with
        | here _ _ _ _ _ h => rw [hb] at h; cases h; rfl
        | later _ _ _ _ _ _ h => rw [hb] at h; cases h
    · dsimp only
      constructor
      · intro h
        refine .later t b bs t' (html, json) f hb (ih.mp ?_)
        generalize writePages output base t' bs = r at h ⊢
        obtain ⟨u, e | results⟩ := r
        · exact h
        · cases h
      · intro h
        cases h with
        | here _ _ _ _ _ h => rw [hb] at h; cases h
        | later _ _ _ _ _ _ h hrest =>
          rw [hb] at h
          cases h
          have hlast := ih.mpr hrest
          generalize writePages output base t' bs = r at hlast ⊢
          obtain ⟨u, e | results⟩ := r
          · exact hlast
          · cases hlast

/-- A page that is not written fails by its files or by its sidecar. -/
theorem writePage_error {t t' : Tree} {b : Built} {output base : Path} {f : Failure}
    (h : writePage t b output base = (t', .error f)) :
    (∃ e, f = .file e) ∨ ∃ e, f = .sidecar e := by
  unfold writePage at h
  split at h
  · cases h; exact Or.inl ⟨_, rfl⟩
  · simp only at h
    split at h
    · cases h; exact Or.inl ⟨_, rfl⟩
    · split at h
      · cases h; exact Or.inl ⟨_, rfl⟩
      · split at h
        · cases h; exact Or.inr ⟨_, rfl⟩
        · split at h
          · cases h; exact Or.inl ⟨_, rfl⟩
          · cases h

theorem WriteFails.kind {output base : Path} {t : Tree} {bs : List Built} {f : Failure}
    (h : WriteFails output base t bs f) : (∃ e, f = .file e) ∨ ∃ e, f = .sidecar e := by
  induction h with
  | here _ _ _ _ _ h => exact writePage_error h
  | later _ _ _ _ _ _ _ _ ih => exact ih

/-! ## Failures of builds -/

variable {s : Settings} {t t' : Tree} {now : String} {root : Path}

/-- The documents that a build has found, and the store that it has opened for them. -/
structure Ready (s : Settings) (t : Tree) (root : Path) (documents : List Path) (store : Store)
    (t' : Tree) : Prop where
  found : documentsAt t root = .ok documents
  some : documents ≠ []
  opened : openStore s t = .ok (store, t')

/-- A build fails with one of its documents. -/
inductive DocumentFails (s : Settings) (t : Tree) (now : String) (root : Path) :
    Path → Failure → Prop where
  | intro (documents store t' p cause) (hr : Ready s t root documents store t')
      (hp : p ∈ documents)
      (hb : (buildPages s store t' now documents).2 = .error (.building p cause))
      (hc : OfDocument s t' p cause) : DocumentFails s t now root p cause

/-- The stages of a build that fail with errors of their own, which name no document. -/
inductive StageFails (s : Settings) (t : Tree) (now : String) (root : Path) : Failure → Prop where
  | listing (e) (h : documentsAt t root = .error e) : StageFails s t now root (.file e)
  | opening (documents e) (hd : documentsAt t root = .ok documents) (hne : documents ≠ [])
      (h : openStore s t = .error e) : StageFails s t now root (.store e)
  | loading (documents store t' e) (hr : Ready s t root documents store t')
      (h : store.load t' now = .error e) : StageFails s t now root (.store e)
  | writing (documents store t' u pages f) (hr : Ready s t root documents store t')
      (hb : buildPages s store t' now documents = (u, .ok pages))
      (h : WriteFails (Path.ofString s.outputDir) root u pages f) : StageFails s t now root f

theorem StageFails.ne_building {f : Failure} (h : StageFails s t now root f) (p : Path)
    (cause : Failure) : f ≠ .building p cause := by
  cases h with
  | listing => exact nofun
  | opening => exact nofun
  | loading => exact nofun
  | writing _ _ _ _ _ _ _ _ h => rcases h.kind with ⟨e, rfl⟩ | ⟨e, rfl⟩ <;> exact nofun

theorem build_of_ready {documents : List Path} {store : Store}
    (h : Ready s t root documents store t') :
    build s t now root = buildFound s store t' now root documents := by
  obtain ⟨p, ps, rfl⟩ := List.exists_cons_of_ne_nil h.some
  exact build_of_found h.found h.opened

theorem buildFound_error {store : Store} {documents : List Path} {f : Failure} :
    (buildFound s store t now root documents).2 = .error f ↔
      (buildPages s store t now documents).2 = .error f ∨
        ∃ u pages, buildPages s store t now documents = (u, .ok pages) ∧
          WriteFails (Path.ofString s.outputDir) root u pages f := by
  unfold buildFound
  rcases buildPages s store t now documents with ⟨u, e | pages⟩
  · simp
  · simp [writePages_error]

/-- A build fails with a document or with a stage, and with nothing else. -/
theorem build_error {f : Failure} : (build s t now root).2 = .error f ↔
    (∃ p cause, f = .building p cause ∧ DocumentFails s t now root p cause) ∨
      StageFails s t now root f := by
  constructor
  · intro h
    cases hd : documentsAt t root with
    | error e =>
      simp only [build, hd] at h
      cases h
      exact Or.inr (.listing e hd)
    | ok documents =>
      by_cases hne : documents = []
      · subst hne
        simp only [build, hd] at h
        cases h
      · rcases ho : openStore s t with e | ⟨store, t'⟩
        · obtain ⟨p, ps, rfl⟩ := List.exists_cons_of_ne_nil hne
          simp only [build, hd, ho] at h
          cases h
          exact Or.inr (.opening _ e hd hne ho)
        · have hr : Ready s t root documents store t' := ⟨hd, hne, ho⟩
          rw [build_of_ready hr, buildFound_error] at h
          rcases h with hb | ⟨u, pages, hb, hw⟩
          · rcases buildPages_error (Prod.ext rfl hb) with ⟨e, hl, rfl⟩ | ⟨-, p, hp, cause, rfl, hc⟩
            · exact Or.inr (.loading documents store t' e hr hl)
            · exact Or.inl ⟨p, cause, rfl, .intro documents store t' p cause hr hp hb hc⟩
          · exact Or.inr (.writing documents store t' u pages f hr hb hw)
  · rintro (⟨p, cause, rfl, ⟨documents, store, t', _, _, hr, -, hb, -⟩⟩ | h)
    · rw [build_of_ready hr, buildFound_error]
      exact Or.inl hb
    · cases h with
      | listing e h => simp only [build, h]
      | opening documents e hd hne h =>
        obtain ⟨p, ps, rfl⟩ := List.exists_cons_of_ne_nil hne
        simp only [build, hd, h]
      | loading documents store t' e hr h =>
        rw [build_of_ready hr, buildFound_error]
        refine Or.inl ?_
        simp only [buildPages, h]
      | writing documents store t' u pages f hr hb h =>
        rw [build_of_ready hr, buildFound_error]
        exact Or.inr ⟨u, pages, hb, h⟩

theorem paths_of_answers {output base : Path} {bs : List Built} {results : List (Path × Path)}
    (h : List.Forall₂ (Answers t output base) bs results) :
    bs.map (·.page.path) = results.map (·.1) := by
  induction h with
  | nil => rfl
  | cons ha _ ih =>
    obtain ⟨folder, -, rfl⟩ := ha
    rw [List.map_cons, List.map_cons, ih]

/-- A build that succeeds answers with its documents, in their order. -/
theorem paths_of_build {results : List (Path × Path)} (h : (build s t now root).2 = .ok results) :
    documentsAt t root = .ok (results.map (·.1)) := by
  cases hd : documentsAt t root with
  | error e =>
    simp only [build, hd] at h
    cases h
  | ok documents =>
    cases documents with
    | nil =>
      simp only [build, hd] at h
      cases h
      rfl
    | cons p ps =>
      rcases ho : openStore s t with e | ⟨store, t'⟩
      · simp only [build, hd, ho] at h
        cases h
      · rw [build_of_found hd ho] at h
        unfold buildFound at h
        rcases hb : buildPages s store t' now (p :: ps) with ⟨u, e | pages⟩
        · rw [hb] at h
          cases h
        · rw [hb] at h
          obtain ⟨e, he⟩ := entryAt_of_documents hd
          have hwritten := buildWritten_some hd he ho hb (Prod.ext rfl h)
          rw [← hwritten.paths, paths_of_answers hwritten.answers]

/-! ## Failures of the command -/

/-- The failures of which the command dies without an explanation. -/
inductive CommandDies (s : Settings) (t : Tree) (now path : String) : Failure → Prop where
  | unknown (e) (h : t.pathExists (Path.ofString path) = .error e) :
      CommandDies s t now path (.file e)
  | stage (f) (h : t.pathExists (Path.ofString path) = .ok true)
      (hf : StageFails s t now (Path.ofString path) f) : CommandDies s t now path f

/-- What the command explains before it ends with a failure. -/
inductive Explained (s : Settings) (t : Tree) (now path : String) : String → Prop where
  | absent (h : t.pathExists (Path.ofString path) = .ok false) :
      Explained s t now path ("Path not found: " ++ path)
  | document (p cause) (h : DocumentFails s t now (Path.ofString path) p cause) :
      Explained s t now path ("Failed to build " ++ p.text ++ ": " ++ cause.inner)

/-- The ways in which the command ends. -/
inductive CommandEnds (s : Settings) (t : Tree) (now path : String) : Ending → Prop where
  | done (results) (h : (build s t now (Path.ofString path)).2 = .ok results) :
      CommandEnds s t now path .done
  | refused (message) (h : Explained s t now path message) :
      CommandEnds s t now path (.refused message)
  | failed (f) (h : CommandDies s t now path f) : CommandEnds s t now path (.failed f)

theorem commandEnds (s : Settings) (t : Tree) (now path : String) :
    CommandEnds s t now path (runBuild t now path s).ending := by
  unfold runBuild
  cases hp : t.pathExists (Path.ofString path) with
  | error e => exact .failed _ (.unknown e hp)
  | ok there =>
    cases there with
    | false => exact .refused _ (.absent hp)
    | true =>
      rcases hb : build s t now (Path.ofString path) with ⟨u, f | results⟩
      · have hf : (build s t now (Path.ofString path)).2 = .error f := by rw [hb]
        rcases build_error.mp hf with ⟨p, cause, rfl, hd⟩ | hs
        · exact .refused _ (.document p cause hd)
        · have hending : endingOf f = .failed f := by
            cases f with
            | building p cause => exact absurd rfl (hs.ne_building p cause)
            | _ => rfl
          simp only [hending]
          exact .failed f (.stage f hp hs)
      · exact .done results (by rw [hb])

theorem failed_of_dies {path : String} {f : Failure} (h : CommandDies s t now path f) :
    (runBuild t now path s).ending = .failed f := by
  unfold runBuild
  cases h with
  | unknown e h => rw [h]
  | stage _ hp hs =>
    have hf := build_error.mpr (Or.inr hs)
    rw [hp]
    rcases hb : build s t now (Path.ofString path) with ⟨u, o⟩
    rw [hb] at hf
    obtain rfl : o = .error f := hf
    cases f with
    | building p cause => exact absurd rfl (hs.ne_building p cause)
    | _ => rfl

/-- A build answers with all its documents, or names the document that failed, unless one of the
stages around the documents fails. The command ends well or explains itself, and dies of the
failures of these stages only. -/
theorem failures_of_build (s : Settings) (t : Tree) (now path : String) :
    ((∃ results, (build s t now (Path.ofString path)).2 = .ok results ∧
        documentsAt t (Path.ofString path) = .ok (results.map (·.1))) ∨
      (∃ p cause, (build s t now (Path.ofString path)).2 = .error (.building p cause) ∧
        (Failure.building p cause).message = "Failed to build " ++ p.text ++ ": " ++ cause.inner ∧
        DocumentFails s t now (Path.ofString path) p cause) ∨
      ∃ f, (build s t now (Path.ofString path)).2 = .error f ∧
        StageFails s t now (Path.ofString path) f) ∧
    (∀ f, StageFails s t now (Path.ofString path) f →
      (build s t now (Path.ofString path)).2 = .error f ∧ ∀ p cause, f ≠ .building p cause) ∧
    CommandEnds s t now path (runBuild t now path s).ending ∧
    ∀ f, (runBuild t now path s).ending = .failed f ↔ CommandDies s t now path f := by
  refine ⟨?_, fun f hf => ⟨build_error.mpr (Or.inr hf), hf.ne_building⟩, commandEnds s t now path,
    fun f => ⟨fun h => ?_, failed_of_dies⟩⟩
  · cases hb : (build s t now (Path.ofString path)).2 with
    | ok results => exact Or.inl ⟨results, rfl, paths_of_build hb⟩
    | error f =>
      rcases build_error.mp hb with ⟨p, cause, rfl, hd⟩ | hs
      · exact Or.inr (Or.inl ⟨p, cause, rfl, rfl, hd⟩)
      · exact Or.inr (Or.inr ⟨f, rfl, hs⟩)
  · have hends := commandEnds s t now path
    rw [h] at hends
    cases hends with
    | failed _ hdies => exact hdies

section Sample

/-- A document, and something that stands in the way of its build. -/
def hinderedSite (place : Location) (e : Entry) : Tree where
  entries := [(["docs"], .directory), (["docs", "a.md"], .file (.bytes "One.\n".toUTF8.toList)),
    (place, e)]
  here := []

/-- A file in place of the output directory, or a directory in place of the ledger, ends a build
with an error that names no document, and the command does not explain it. -/
theorem stages_fail_unexplained :
    (build {} (hinderedSite ["dist"] (.file (.bytes []))) "2024" (Path.ofString "docs/a.md")).2 =
      .error (.file ⟨.exists_, Path.ofString "dist"⟩) ∧
    (runBuild (hinderedSite ["dist"] (.file (.bytes []))) "2024" "docs/a.md" {}).ending =
      .failed (.file ⟨.exists_, Path.ofString "dist"⟩) ∧
    (runBuild (hinderedSite [".asset-usage.json"] .directory) "2024" "docs/a.md" {}).ending =
      .failed (.store (.file ⟨.isDirectory, Path.ofString ".asset-usage.json"⟩)) := by
  decide +kernel

end Sample

end DocumentMedia.Site
