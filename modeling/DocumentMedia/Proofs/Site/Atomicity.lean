import DocumentMedia.Proofs.Site.Isolation
import DocumentMedia.Proofs.Site.Turns

/-! # All documents or no output

When a document fails, whatever turns were taken before and are taken after, the program fails and
no file of the output directory has changed, as long as no copy and no ledger go there. When none
fails, the pages of all documents are written, and the answer has them in the order of the
documents. -/
namespace DocumentMedia.Site

open DocumentMedia.Files
open DocumentMedia.Asset (Batch Event Draft Localized Localizer Phase)
open DocumentMedia.Asset.Batch (Step Execution Scheduled Fit fit_start run_ends scheduled_run)
open DocumentMedia.Document (Page)
open DocumentMedia.Ledger (Store)

variable {s : Settings} {t t' u : Tree} {now : String} {store : Store} {ledger : Ledger}
  {root output base : Path} {documents : List Path} {w : Turns} {b b' : Batch}

/-! ## Pages that were written -/

theorem PageWritten.files {page : Built} {folder : Path} (h : PageWritten t page folder t') :
    (∃ c, t'.entryAt (htmlOf page folder) = .ok (.file c)) ∧
      ∃ c, t'.entryAt (jsonOf page folder) = .ok (.file c) := by
  obtain ⟨j, t₁, t₂, -, hhtml, -, hjson⟩ := h.steps
  exact ⟨Tree.entryAt_file_grows (Tree.grows_write_real hjson) (Tree.entryAt_write hhtml),
    _, Tree.entryAt_write hjson⟩

/-- A page was written when it was its turn, and both of its files are there at the end. -/
structure Delivered (t t' : Tree) (page : Built) (folder : Path) : Prop where
  written : ∃ u u', Grows Anywhere t u ∧ PageWritten u page folder u' ∧ Grows Anywhere u' t'
  html : ∃ c, t'.entryAt (htmlOf page folder) = .ok (.file c)
  json : ∃ c, t'.entryAt (jsonOf page folder) = .ok (.file c)

theorem PageWritten.delivered {page : Built} {folder : Path} (h : PageWritten t page folder u)
    (hgrows : Grows Anywhere u t') : Delivered t t' page folder := by
  obtain ⟨⟨c, hc⟩, c', hc'⟩ := h.files
  exact ⟨⟨t, u, .refl t, h, hgrows⟩, Tree.entryAt_file_grows hgrows hc,
    Tree.entryAt_file_grows hgrows hc'⟩

theorem Delivered.before {page : Built} {folder : Path} (hgrows : Grows Anywhere t u)
    (h : Delivered u t' page folder) : Delivered t t' page folder := by
  obtain ⟨v, v', hv, hpage, hv'⟩ := h.written
  exact ⟨⟨v, v', hgrows.trans hv, hpage, hv'⟩, h.html, h.json⟩

/-- The answer for a page that was delivered. -/
def DeliveredAs (t t' : Tree) (output base : Path) (page : Built) (r : Path × Path) : Prop :=
  ∃ folder, folderOf t output base page = .ok folder ∧ r = (page.page.path, htmlOf page folder) ∧
    Delivered t t' page folder

theorem delivered_of_writePages {pages : List Built} {results : List (Path × Path)} {e : Entry}
    (he : t.entryAt base = .ok e) (h : writePages output base t pages = (t', .ok results)) :
    List.Forall₂ (DeliveredAs t t' output base) pages results ∧ Grows Anywhere t t' := by
  induction pages generalizing t results e with
  | nil =>
    cases h
    exact ⟨.nil, .refl _⟩
  | cons page pages ih =>
    unfold writePages at h
    split at h
    · cases h
    · next u html json hpage =>
      split at h
      · cases h
      · next results' hrest =>
        cases h
        obtain ⟨folder, hfolder, rfl, -, hwritten⟩ := writePage_spec hpage
        have hgrows : Grows Anywhere t u := (hwritten.grows hfolder).mono fun _ _ => trivial
        obtain ⟨e', he'⟩ := Tree.entryAt_grows hgrows he
        obtain ⟨hdelivered, hlater⟩ := ih he' hrest
        refine ⟨.cons ⟨folder, hfolder, rfl, hwritten.delivered hlater⟩ ?_, hgrows.trans hlater⟩
        refine hdelivered.imp ?_
        rintro c r ⟨f, hf, rfl, hc⟩
        exact ⟨f, folderOf_grows hgrows he c ▸ hf, rfl, hc.before hgrows⟩

/-! ## Output apart from media and ledger -/

/-- The output directory, with all links resolved. -/
def outputPlace (s : Settings) (t : Tree) : Location := t.realLocation (Path.ofString s.outputDir)

/-- The public directory, with all links resolved. -/
def publicPlace (s : Settings) (t : Tree) : Location := t.realLocation (Path.ofString s.publicDir)

/-- The output directory has nothing in common with the public directory and does not hold the
ledger, and no copy leads out of the public directory. -/
structure Apart (s : Settings) (t : Tree) (store : Store) (documents : List Path) : Prop where
  above : ¬ publicPlace s t <+: outputPlace s t
  below : ¬ outputPlace s t <+: publicPlace s t
  ledger : ∀ place, ledgerPlace? t store = some place →
    ¬ outputPlace s t <+: place
  contained : ∀ q, IsTarget s documents q →
    publicPlace s t <+: t.realLocation q

/-- The files of the output directory are those that were there. -/
def Untouched (s : Settings) (t t' : Tree) : Prop :=
  ∀ l c, outputPlace s t <+: l →
    (t'.at? l = some (.file c) ↔ t.at? l = some (.file c))

theorem Apart.not_touched (h : Apart s t store documents) {place : Location}
    (hp : Touched s t store documents place) :
    ¬ outputPlace s t <+: place := by
  rcases hp with hl | ⟨q, hq, rfl⟩
  · exact h.ledger place hl
  · intro hout
    rcases List.prefix_or_prefix_of_prefix (h.contained q hq) hout with habove | hbelow
    · exact h.above habove
    · exact h.below hbelow

theorem Sound.untouched (h : Sound s t store documents w) (ha : Apart s t store documents) :
    Untouched s t w.batch.files := fun _ _ hl =>
  ⟨fun hfile => h.grows.old hfile fun hp => ha.not_touched hp hl,
    fun hfile => h.grows.kept hfile fun hp => ha.not_touched hp hl⟩

/-! ## The program's own turns -/

theorem reads_map {reading : Document.Reading} {n : Nat} {ds : List (Path × Work)}
    {pages : List Page}
    (h : Reads reading t n (documents.map fun p => (p, .unread)) ds pages) :
    pages = (documents.map fun p => (p, readFile reading t p)).filterMap fun r => r.2.toOption := by
  induction documents generalizing n ds pages with
  | nil => cases h; rfl
  | cons p documents ih =>
    rw [List.map_cons] at h ⊢
    cases h with
    | known _ _ _ _ _ hx => exact absurd rfl hx
    | unreadable _ _ f _ ds' _ hp h => simp only [List.filterMap_cons, hp, Except.toOption, ih h]
    | read _ _ page _ ds' pages hp h => simp only [List.filterMap_cons, hp, Except.toOption, ih h]

theorem mem_unreadable {reading : Document.Reading} {n : Nat} {ds : List (Path × Work)}
    {pages : List Page} {p : Path} {f : Failure}
    (h : Reads reading t n (documents.map fun p => (p, .unread)) ds pages)
    (hp : (p, .error f) ∈ documents.map fun p => (p, readFile reading t p)) :
    (p, .unreadable f) ∈ ds := by
  induction documents generalizing n ds pages with
  | nil => cases hp
  | cons p' documents ih =>
    rw [List.map_cons, List.mem_cons] at hp
    rw [List.map_cons] at h
    cases h with
    | known _ _ _ _ _ hx => exact absurd rfl hx
    | unreadable _ _ f' _ ds' _ hp' h =>
      rcases hp with he | hmem
      · rw [hp'] at he
        cases he
        exact List.mem_cons_self
      · exact List.mem_cons_of_mem _ (ih h hmem)
    | read _ _ page _ ds' pages hp' h =>
      rcases hp with he | hmem
      · rw [hp'] at he
        cases he
      · exact List.mem_cons_of_mem _ (ih h hmem)

/-- The phase of a document that has ended. -/
def ended : Except Asset.PublishError Localized → Phase
  | .ok result => .returned result
  | .error e => .raised e

theorem ended_of_results {j : Nat} {o : Except Asset.PublishError Localized}
    (h : b.results[j]? = some (some o)) : ∃ d, b.docs[j]? = some (d, ended o) := by
  rw [Batch.results, List.getElem?_map] at h
  obtain ⟨⟨d, ph⟩, hd, hph⟩ := Option.map_eq_some_iff.mp h
  refine ⟨d, ?_⟩
  cases ph with
  | returned result => cases hph; exact hd
  | raised e => cases hph; exact hd
  | _ => cases hph

variable {ds : List (Path × Work)} {pages : List Page} {p : Path} {f : Failure}

/-- A failure among the outcomes of pages is that of a document. -/
theorem fails_of_outcomes
    (hreads : Reads s.reading t 0 (documents.map fun p => (p, .unread)) ds pages)
    (h : (p, .error f) ∈ outcomes b pages) : Fails ⟨ds, b⟩ p f := by
  obtain ⟨⟨page, r⟩, hmem, hr⟩ := List.mem_filterMap.mp h
  obtain ⟨j, hj⟩ := List.mem_iff_getElem?.mp hmem
  obtain ⟨hpage, hresult⟩ := List.getElem?_zip_eq_some.mp hj
  obtain ⟨o, rfl, he⟩ := Option.map_eq_some_iff.mp hr
  cases o with
  | ok result => cases he
  | error e =>
    cases he
    obtain ⟨d, hd⟩ := ended_of_results hresult
    have hread := hreads.mem_read hpage
    rw [Nat.zero_add] at hread
    exact .publishing page j d e hread hd

/-- Documents that were all read and have returned are pages, in their order. -/
theorem returned_of_reads {n : Nat} {results : List Localized}
    (h : Reads s.reading t n (documents.map fun p => (p, .unread)) ds pages)
    (hread : ∀ p ∈ documents, ∃ page, readFile s.reading t p = .ok page)
    (hlen : pages.length = results.length)
    (hdocs : ∀ j result, results[j]? = some result →
      ∃ d, b.docs[n + j]? = some (d, .returned result)) :
    List.Forall₂ (Returned s b) ds
      ((pages.zip results).map fun r => finish s.videoAttrs r.1 r.2) := by
  induction documents generalizing n ds pages results with
  | nil => cases h; exact .nil
  | cons p documents ih =>
    rw [List.map_cons] at h
    rw [List.forall_mem_cons] at hread
    cases h with
    | known _ _ _ _ _ hx => exact absurd rfl hx
    | unreadable _ _ f _ ds' _ hp h =>
      obtain ⟨page, hpage⟩ := hread.1
      rw [hp] at hpage
      cases hpage
    | read _ _ page _ ds' pages hp h =>
      cases results with
      | nil => cases hlen
      | cons result results =>
        obtain ⟨d, hd⟩ := hdocs 0 result rfl
        refine .cons (.intro p page n d result hd) (ih h hread.2 (Nat.succ.inj hlen) ?_)
        intro j result' hj
        obtain ⟨d', hd'⟩ := hdocs (j + 1) result' hj
        rw [← Nat.add_assoc, Nat.add_right_comm] at hd'
        exact ⟨d', hd'⟩

theorem scheduled_save {e : Event} (h : b.nextSave = some e) : Scheduled b e :=
  .finishing (by rw [Batch.nextFinishing, h]; rfl)

/-- What a program does until it looks for failures, and when it has found one, are turns. -/
theorem run_looksAt (hb : Fit b) {v : Batch} (h : LooksAt b v b') (ds : List (Path × Work)) :
    Run s ⟨ds, b⟩ ⟨ds, v⟩ ∧ Run s ⟨ds, v⟩ ⟨ds, b'⟩ := by
  obtain ⟨hcopied, hb₁⟩ := run_play (s := s) .copying b.eventBound hb ds
  obtain ⟨hchecked, hb₂⟩ := run_play (s := s) .failing b.runCopies.docs.length hb₁ ds
  cases h with
  | copied => exact ⟨hcopied, (run_play scheduled_save 1 hb₁ ds).1⟩
  | checked => exact ⟨hcopied.trans hchecked, (run_play scheduled_save 1 hb₂ ds).1⟩
  | done =>
    have hdone := (run_play (s := s) scheduled_run b.runCopies.failAll.eventBound hb₂ ds).1
    exact ⟨(hcopied.trans hchecked).trans hdone, .refl⟩

/-- What a program does with documents that it has read are turns. It fails with a document that
failed, or all have returned. -/
theorem run_publish {r : Except Failure (List (Page × Localized))} (hb : Fit b)
    (hlen : b.docs.length = pages.length)
    (hreads : Reads s.reading t 0 (documents.map fun p => (p, .unread)) ds pages)
    (h : publish b (documents.map fun p => (p, readFile s.reading t p)) = (b', r)) :
    Run s ⟨ds, b⟩ ⟨ds, b'⟩ ∧
      ((∃ p cause, r = .error (.building p cause) ∧ Fails ⟨ds, b'⟩ p cause) ∨
        ∃ ends, r = .ok ends ∧
          List.Forall₂ (Returned s b') ds (ends.map fun r => finish s.videoAttrs r.1 r.2)) := by
  have hpages := reads_map hreads
  cases r with
  | error f =>
    obtain ⟨p, cause, v, rfl, hlooks, hfound⟩ := publish_fails h
    obtain ⟨hbefore, hafter⟩ := run_looksAt (s := s) hb hlooks ds
    refine ⟨hbefore.trans hafter, Or.inl ⟨p, cause, rfl, Fails.run ?_ hafter⟩⟩
    rcases hfound with hread | houtcome
    · exact .reading _ (mem_unreadable hreads hread)
    · exact fails_of_outcomes hreads (hpages ▸ houtcome)
  | ok ends =>
    obtain ⟨hread, hb', hnone, rfl⟩ := publish_ok h
    obtain ⟨es, hrun, hended⟩ := execution_of_publish (L := fun _ _ _ => True) hb
      fun _ _ => trivial
    rw [← hb'] at hrun hended
    have hturns : Run s ⟨ds, b⟩ ⟨ds, b'⟩ := hb' ▸ (run_looksAt hb .done ds).1
    refine ⟨hturns, Or.inr ⟨_, rfl, ?_⟩⟩
    have hcount : pages.length = b'.results.length := by
      have hdrafts := congrArg List.length hrun.drafts.2
      simp only [List.length_map, Batch.results] at hdrafts ⊢
      omega
    rw [← hpages] at hnone ⊢
    obtain ⟨results, hresults, hzip⟩ := outcomes_ok hended hcount hnone
    rw [hzip]
    refine returned_of_reads hreads ?_ ?_ ?_
    · intro p hp
      exact hread (p, readFile s.reading t p) (List.mem_map.mpr ⟨p, hp, rfl⟩)
    · rw [hcount, hresults, List.length_map]
    · intro j result hj
      rw [Nat.zero_add]
      exact ended_of_results (o := .ok result) (by rw [hresults, List.getElem?_map, hj]; rfl)

/-- What a program makes of documents is one of their runs. -/
theorem run_buildPages {r : Except Failure (List Built)} (hload : store.load t now = .ok ledger)
    (h : buildPages s store t now documents = (t', r)) :
    ∃ w, Run s (Turns.start s store t now ledger documents) w ∧ w.batch.files = t' ∧
      ((∃ p cause, r = .error (.building p cause) ∧ Fails w p cause) ∨
        ∃ pages, r = .ok pages ∧ List.Forall₂ (Returned s w.batch) w.documents pages) := by
  obtain ⟨ds, pages, hreads⟩ :=
    Reads.total s.reading t 0 (documents.map fun p => (p, .unread))
  have hbatch : withPages ((Localizer.start s.publisher ledger).batch now t store []) pages =
      (Localizer.start s.publisher ledger).batch now t store (pages.map draftOf) := by
    simp [withPages, Localizer.batch, Function.comp_def]
  have hread : Run s (Turns.start s store t now ledger documents)
      ⟨ds, (Localizer.start s.publisher ledger).batch now t store (pages.map draftOf)⟩ := by
    have hrun := hreads.run (b := (Localizer.start s.publisher ledger).batch now t store []) []
      rfl rfl
    rwa [hbatch] at hrun
  have hdrafts : ((documents.map fun p => (p, readFile s.reading t p)).filterMap
      fun r => r.2.toOption.map draftOf) = pages.map draftOf := by
    rw [reads_map hreads, List.map_filterMap]
  unfold buildPages at h
  rw [hload] at h
  simp only [hdrafts] at h
  rcases hpub : publish ((Localizer.start s.publisher ledger).batch now t store (pages.map draftOf))
    (documents.map fun p => (p, readFile s.reading t p)) with ⟨b', o⟩
  rw [hpub] at h
  obtain ⟨rfl, rfl⟩ := Prod.mk.inj h
  obtain ⟨hrun, hend⟩ := run_publish (fit_start _ _ _ _ _ _) (by simp [Localizer.batch]) hreads hpub
  refine ⟨⟨ds, b'⟩, hread.trans hrun, rfl, ?_⟩
  rcases hend with ⟨p, cause, rfl, hfails⟩ | ⟨ends, rfl, hreturned⟩
  · exact Or.inl ⟨p, cause, rfl, hfails⟩
  · exact Or.inr ⟨_, rfl, hreturned⟩

theorem build_ends (hr : Ready s t root documents store u) (hload : store.load u now = .ok ledger) :
    ∃ w, Run s (Turns.start s store u now ledger documents) w ∧
      Ends s root w (build s t now root) := by
  rw [build_of_ready hr]
  unfold buildFound
  rcases hb : buildPages s store u now documents with ⟨u', r⟩
  obtain ⟨w, hrun, rfl, ⟨p, cause, rfl, hfails⟩ | ⟨pages, rfl, hreturned⟩⟩ :=
    run_buildPages hload hb
  · exact ⟨w, hrun, .failed p cause hfails⟩
  · exact ⟨w, hrun, .returned pages hreturned⟩

/-! ## The end of a program -/

/-- The pages of all documents were written, and the answer has each document once, in order. -/
inductive AllWritten (s : Settings) (root : Path) (documents : List Path) (w : Turns) :
    Tree × Except Failure (List (Path × Path)) → Prop where
  | intro (pages results t') (hpages : List.Forall₂ (Returned s w.batch) w.documents pages)
      (hpaths : results.map (·.1) = documents)
      (hdelivered : List.Forall₂
        (DeliveredAs w.batch.files t' (Path.ofString s.outputDir) root) pages results) :
      AllWritten s root documents w (t', .ok results)

/-- One of the pages could not be written. -/
inductive NotWritten (s : Settings) (root : Path) (w : Turns) :
    Tree × Except Failure (List (Path × Path)) → Prop where
  | intro (pages : List Built) (f : Failure) (t' : Tree)
      (hpages : List.Forall₂ (Returned s w.batch) w.documents pages)
      (hfails : WriteFails (Path.ofString s.outputDir) root w.batch.files pages f) :
      NotWritten s root w (t', .error f)

/-- How a program ends that has taken some turns: with the failure of a document and no other output
than before, or with all pages. -/
structure AllOrNothing (s : Settings) (t : Tree) (root : Path) (documents : List Path) (w : Turns) :
    Prop where
  ends : ∃ u o, Run s w u ∧ Ends s root u o
  failed : ∀ p f, Fails w p f → ∀ u o, Run s w u → Ends s root u o →
    (∃ q g, Fails u q g ∧ o.2 = .error (.building q g)) ∧ Untouched s t o.1
  /-- Documents that returned can be expanded. -/
  expanded : ∀ p page doc d result, (p, .read page doc) ∈ w.documents →
    w.batch.docs[doc]? = some (d, .returned result) →
    Document.expandFault? s.videoAttrs result.tree = none
  written : ∀ o, (∀ p f, ¬ Fails w p f) → Ends s root w o →
    NotWritten s root w o ∨ AllWritten s root documents w o

theorem Fails.not_returned (h : Fails w p f) {pages : List Built} :
    ¬ List.Forall₂ (Returned s w.batch) w.documents pages := by
  intro hreturned
  have hall : ∀ x ∈ w.documents, ∃ page, Returned s w.batch x page := by
    intro x hx
    obtain ⟨i, hi⟩ := List.mem_iff_getElem?.mp hx
    obtain ⟨hlt, rfl⟩ := List.getElem?_eq_some_iff.mp hi
    exact ⟨_, hreturned.get hlt (hreturned.length_eq ▸ hlt)⟩
  cases h with
  | reading f hmem =>
    obtain ⟨page, hpage⟩ := hall _ hmem
    cases hpage
  | publishing page doc d e hmem hd =>
    obtain ⟨built, hbuilt⟩ := hall _ hmem
    cases hbuilt with
    | intro _ _ _ d' result hd' =>
      rw [hd] at hd'
      cases hd'

theorem Sound.paths_returned (h : Sound s t store documents w) {pages : List Built}
    (hreturned : List.Forall₂ (Returned s w.batch) w.documents pages) :
    pages.map (·.page.path) = documents := by
  have hpaths : pages.map (·.page.path) = w.documents.map (·.1) := by
    have hbacked := h.backed
    generalize w.documents = ds at hreturned hbacked
    induction hreturned with
    | nil => rfl
    | @cons x page ds pages hx _ ih =>
      rw [List.forall_mem_cons] at hbacked
      rw [List.map_cons, List.map_cons, ih hbacked.2]
      cases hx with
      | intro p page doc d result hd =>
        cases hbacked.1 with
        | read _ _ _ text ph htext =>
          have hpath : page.path = p := path_readPage htext
          exact congrArg (· :: _) hpath
  rw [hpaths, h.paths]

theorem Sound.allOrNothing (h : Sound s t store documents w) (ha : Apart s t store documents)
    {e : Entry} (he : t.entryAt root = .ok e) : AllOrNothing s t root documents w where
  ends := h.finishes root
  failed := by
    intro p f hf v o hrun ho
    cases ho with
    | failed q g hg => exact ⟨⟨q, g, hg, rfl⟩, (h.run hrun).untouched ha⟩
    | returned pages hpages => exact absurd hpages (hf.run hrun).not_returned
  expanded p page doc d result := h.expandable
  written := by
    intro o hnone ho
    cases ho with
    | failed q g hg => exact absurd hg (hnone q g)
    | returned pages hpages =>
      rcases hw : writePages (Path.ofString s.outputDir) root w.batch.files pages with
        ⟨t', g | results⟩
      · exact Or.inl (.intro pages g t' hpages (writePages_error.mp (by rw [hw])))
      · obtain ⟨e', he'⟩ := Tree.entryAt_grows h.grows he
        have hdelivered := (delivered_of_writePages he' hw).1
        refine Or.inr (.intro pages results t' hpages ?_ hdelivered)
        have hanswers : List.Forall₂ (Answers w.batch.files (Path.ofString s.outputDir) root) pages
            results := by
          refine hdelivered.imp ?_
          rintro page r ⟨folder, hfolder, hr, -⟩
          exact ⟨folder, hfolder, hr⟩
        rw [← h.paths_returned hpages, paths_of_answers hanswers]

/-- A build is one run of its documents, and every run of them, whatever happens in which order,
ends with all pages or with the failure of a document and no other output than before. -/
theorem build_all_or_nothing (s : Settings) (now : String)
    (hfound : documentsAt t root = .ok documents) :
    (documents = [] → build s t now root = (t, .ok [])) ∧
    ∀ store u ledger, documents ≠ [] → openStore s t = .ok (store, u) →
      store.load u now = .ok ledger → Apart s t store documents →
      (∃ w, Run s (Turns.start s store u now ledger documents) w ∧
        Ends s root w (build s t now root)) ∧
      ∀ w, Run s (Turns.start s store u now ledger documents) w →
        AllOrNothing s t root documents w := by
  constructor
  · rintro rfl
    simp only [build, hfound]
  · intro store u ledger hne hopen hload ha
    refine ⟨build_ends ⟨hfound, hne, hopen⟩ hload, fun w hrun => ?_⟩
    obtain ⟨p, ps, rfl⟩ := List.exists_cons_of_ne_nil hne
    obtain ⟨e, he⟩ := entryAt_of_documents hfound
    exact ((Sound.start (grows_openStore hopen) s now ledger _).run hrun).allOrNothing ha he

theorem Ends.fails {o : Tree × Except Failure (List (Path × Path))} (h : Ends s root w o)
    (ho : o.2 = .error (.building p f)) : Fails w p f := by
  cases h with
  | failed q g hg =>
    cases ho
    exact hg
  | returned pages hpages =>
    rcases (writePages_error.mp ho).kind with ⟨e, he⟩ | ⟨e, he⟩ <;> cases he

/-! ## Copies that stay in the public directory -/

/-- Neither the public base nor the identifier of a document leads upwards. -/
def LeadsDown (s : Settings) (p : Path) : Prop :=
  "..".toList ∉ Path.partsOf (Asset.trimSlashes s.publicBase.toList) ++
    Path.partsOf (Asset.middle s.dedupeMode (s.publisher.idOf p))

instance (s : Settings) (p : Path) : Decidable (LeadsDown s p) :=
  inferInstanceAs (Decidable (_ ∉ _))

/-- Without links in the public directory, nothing else can lead out of it. -/
theorem contained_of_linkFree (hlinks : t.LinkFree (publicPlace s t))
    (hdown : ∀ p ∈ documents, LeadsDown s p) (q : Path) (hq : IsTarget s documents q) :
    publicPlace s t <+: t.realLocation q := by
  obtain ⟨p, hp, files, raw, f, hf, rfl⟩ := hq
  have hext := Asset.ext_of_find hf
  obtain ⟨reference, bytes, -, -, -, he⟩ := Asset.Publisher.find_spec hf
  have hslash := Asset.notMem_name bytes hext (c := '/') (by decide)
  have hname := Asset.isPart_name bytes (Text.lowerString f.source.suffix).toList
  have hparts := Asset.partsOf_publicPath s.dedupeMode s.publicBase (s.publisher.idOf p) hslash
    hname
  have hlength : (Sha1.hexDigest bytes).toList.length = 40 := Sha1.length_hexDigest bytes
  have hup : ".." ∉ ((Path.partsOf (Asset.publicPath s.dedupeMode s.publicBase
      (s.publisher.idOf p) (Sha1.hexDigest bytes)
      (Text.lowerString f.source.suffix)).toList).map String.ofList) := by
    rw [hparts, ← List.append_assoc]
    intro hmem
    obtain ⟨part, hpart, hdots⟩ := List.mem_map.mp hmem
    obtain rfl : part = "..".toList := by
      rw [← String.toList_ofList (l := part), hdots]
    rcases List.mem_append.mp hpart with hfront | hlast
    · exact hdown p hp hfront
    · have hlong := congrArg List.length (List.mem_singleton.mp hlast)
      rw [List.length_append, hlength] at hlong
      have htwo : "..".toList.length = 2 := by decide
      omega
  have hreal := Tree.realLocation_extend hlinks hup
  rw [he, Asset.Publisher.target_findOf, Asset.Publisher.targetOf_eq]
  exact hreal ▸ List.prefix_append _ _

section Sample

/-- A document with a medium, and one with a header that is no mapping. -/
def brokenSite : Tree where
  entries := [(["docs"], .directory),
    (["docs", "a.md"], .file (.bytes "![](../m.mp4)\n".toUTF8.toList)),
    (["docs", "b.md"], .file (.bytes "---\n- x\n---\n".toUTF8.toList)),
    (["m.mp4"], .file (.bytes [1, 2, 3]))]
  here := []

def siteLedger : Store := .json (Path.ofString ".asset-usage.json")

theorem documentsAt_broken : documentsAt brokenSite docs = .ok (pairDocuments "b.md") :=
  documentsAt_folder (pairDocuments "b.md") rfl rfl rfl (by decide +kernel)
    (by decide +kernel)

theorem linkFree_broken (place : Location) : brokenSite.LinkFree place :=
  linkFree_of_entries (by simp [brokenSite]) place

def failedDocument? (o : Tree × Except Failure (List (Path × Path))) : Option Path :=
  match o.2 with
  | .error (.building p _) => some p
  | _ => none

theorem eq_of_failedDocument? {o : Tree × Except Failure (List (Path × Path))}
    (h : failedDocument? o = some p) : ∃ f, o = (o.1, .error (.building p f)) := by
  obtain ⟨t', r⟩ := o
  unfold failedDocument? at h
  split at h
  · next q f hr =>
    cases h
    exact ⟨f, Prod.ext rfl hr⟩
  · cases h

def brokenBuild (base : String) : Tree × Except Failure (List (Path × Path)) :=
  buildFound { publicBase := base } siteLedger brokenSite "2024" docs (pairDocuments "b.md")

theorem build_broken (base : String) :
    build { publicBase := base } brokenSite "2024" docs = brokenBuild base :=
  build_of_found documentsAt_broken rfl

theorem apart_broken : Apart {} brokenSite siteLedger (pairDocuments "b.md") where
  above := by decide +kernel
  below := by decide +kernel
  ledger := by
    have hplace : ledgerPlace? brokenSite siteLedger = some [".asset-usage.json"] := by
      decide +kernel
    have hoff : ¬ outputPlace {} brokenSite <+: [".asset-usage.json"] := by decide +kernel
    intro place h
    rw [hplace, Option.some.injEq] at h
    exact h ▸ hoff
  contained := contained_of_linkFree (linkFree_broken _) (by decide +kernel)

/-- One document cannot be read, the other has a medium: the medium is copied, and the output is as
before. -/
theorem build_all_or_nothing_sample : ∃ w f,
    Run {} (Turns.start {} siteLedger brokenSite "2024" [] (pairDocuments "b.md")) w ∧
      Fails w (docs.child "b.md") f ∧ Ends {} docs w (build {} brokenSite "2024" docs) ∧
      AllOrNothing {} brokenSite docs (pairDocuments "b.md") w ∧
      Untouched {} brokenSite (build {} brokenSite "2024" docs).1 := by
  have hfailed : failedDocument? (brokenBuild "assets") = some (docs.child "b.md") := by
    decide +kernel
  obtain ⟨f, hf⟩ := eq_of_failedDocument? hfailed
  rw [← build_broken] at hf
  obtain ⟨⟨w, hrun, hends⟩, hall⟩ := (build_all_or_nothing {} "2024"
    documentsAt_broken).2 siteLedger brokenSite [] (by decide) rfl rfl apart_broken
  have hfails := hends.fails (congrArg Prod.snd hf)
  exact ⟨w, f, hrun, hfails, hends, hall w hrun,
    ((hall w hrun).failed _ f hfails w _ .refl hends).2⟩

/-- A public base that leads to the output directory takes a medium there, though the directories
have nothing in common and a document cannot be read. -/
theorem copies_reach_output :
    publicPlace { publicBase := "../dist" } brokenSite = ["public"] ∧
    outputPlace { publicBase := "../dist" } brokenSite = ["dist"] ∧
    ledgerPlace? brokenSite siteLedger = some [".asset-usage.json"] ∧
    ∃ t' f, build { publicBase := "../dist" } brokenSite "2024" docs =
        (t', .error (.building (docs.child "b.md") f)) ∧
      ¬ Untouched { publicBase := "../dist" } brokenSite t' := by
  have hfailed : failedDocument? (brokenBuild "../dist") = some (docs.child "b.md") := by
    decide +kernel
  have hcopied : (brokenBuild "../dist").1.at? ["dist", "hash", folderHash ++ ".mp4"] =
      some (.file (.bytes [1, 2, 3])) := by
    decide +kernel
  have habsent : brokenSite.at? ["dist", "hash", folderHash ++ ".mp4"] = none := by decide +kernel
  have houtput : outputPlace { publicBase := "../dist" } brokenSite = ["dist"] := by decide +kernel
  obtain ⟨f, hf⟩ := eq_of_failedDocument? hfailed
  refine ⟨by decide +kernel, houtput, by decide +kernel, _, f, (build_broken _).trans hf, ?_⟩
  intro huntouched
  have hbelow : outputPlace { publicBase := "../dist" } brokenSite <+:
      ["dist", "hash", folderHash ++ ".mp4"] := by
    rw [houtput]
    exact List.prefix_append ["dist"] _
  have hold := (huntouched _ _ hbelow).mp hcopied
  rw [habsent] at hold
  exact absurd hold (Option.some_ne_none _).symm

end Sample

end DocumentMedia.Site
