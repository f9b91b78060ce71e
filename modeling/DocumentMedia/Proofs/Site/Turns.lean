import DocumentMedia.Proofs.Asset.Lookup
import DocumentMedia.Proofs.Document.Parsed
import DocumentMedia.Proofs.Site.Failures
import Mathlib.Logic.Relation

/-! # Documents in turns

A program reads its documents and publishes their media side by side. What happens next is a turn:
one document is read, or one event of the batch happens. Turns come in any order. After any number
of them only the ledger and targets of media have changed, a document that failed stays failed, and
nothing keeps the program from its end. -/
namespace DocumentMedia.Site

open DocumentMedia.Files
open DocumentMedia.Asset (Batch Event Draft Localized Localizer Phase relink scan_ok toScan)
open DocumentMedia.Asset.Batch (Step Execution Scheduled Fit Moves fit_start docs_next step_drafts
  raised_step sources_step play_execution scheduled_run run_ends)
open DocumentMedia.Document (Page)
open DocumentMedia.Ledger (Store)

/-! ## Turns -/

/-- What has become of the text of a document. -/
inductive Work where
  | unread
  | unreadable (f : Failure)
  /-- It is a page, whose media are published as one of the documents of the batch. -/
  | read (page : Page) (doc : Nat)

/-- The documents of a program and the batch of those that were read. -/
structure Turns where
  documents : List (Path × Work)
  batch : Batch

def Turns.start (s : Settings) (store : Store) (t : Tree) (now : String) (ledger : Ledger)
    (documents : List Path) : Turns where
  documents := documents.map fun p => (p, .unread)
  batch := (Localizer.start s.publisher ledger).batch now t store []

/-- A batch with another document. -/
def withDraft (b : Batch) (d : Draft) : Batch := { b with docs := b.docs ++ [(d, .waiting)] }

/-- What copies and saves do to files. A copy makes directories and changes its target, bit by bit
and also when it fails; a save ends as the store says. -/
def Lawful (b : Batch) : Event → Prop
  | .write target files | .settle target files _ =>
    Grows (· = b.files.realLocation target) b.files files
  | .save outcome => ∃ l, outcome = b.store.save b.files l
  | _ => True

inductive Turn (s : Settings) : Turns → Turns → Prop where
  | unreadable (before after p f b) (h : readFile s.reading b.files p = .error f) :
      Turn s ⟨before ++ (p, .unread) :: after, b⟩ ⟨before ++ (p, .unreadable f) :: after, b⟩
  | read (before after p page b) (h : readFile s.reading b.files p = .ok page) :
      Turn s ⟨before ++ (p, .unread) :: after, b⟩
        ⟨before ++ (p, .read page b.docs.length) :: after, withDraft b (draftOf page)⟩
  | event (documents b e b') (h : Step b e b') (hl : Lawful b e) :
      Turn s ⟨documents, b⟩ ⟨documents, b'⟩

/-- Any number of turns. -/
abbrev Run (s : Settings) : Turns → Turns → Prop := Relation.ReflTransGen (Turn s)

/-! ## How a program ends -/

/-- A document has failed: it could not be read, or its media could not be published. -/
inductive Fails (w : Turns) (p : Path) : Failure → Prop where
  | reading (f) (h : (p, .unreadable f) ∈ w.documents) : Fails w p f
  | publishing (page doc d e) (h : (p, .read page doc) ∈ w.documents)
      (hd : w.batch.docs[doc]? = some (d, .raised e)) : Fails w p (.publish e)

/-- A page is what a document became that returned. -/
inductive Returned (s : Settings) (b : Batch) : Path × Work → Built → Prop where
  | intro (p page doc d result) (hd : b.docs[doc]? = some (d, .returned result)) :
      Returned s b (p, .read page doc) (finish s.videoAttrs page result)

/-- A program can end as soon as a document has failed, with that failure. It writes pages when all
documents have returned. -/
inductive Ends (s : Settings) (root : Path) (w : Turns) :
    Tree × Except Failure (List (Path × Path)) → Prop where
  | failed (p f) (h : Fails w p f) : Ends s root w (w.batch.files, .error (.building p f))
  | returned (pages) (h : List.Forall₂ (Returned s w.batch) w.documents pages) :
      Ends s root w (writePages (Path.ofString s.outputDir) root w.batch.files pages)

variable {s : Settings} {t : Tree} {now : String} {store : Store} {ledger : Ledger} {root : Path}
  {documents : List Path} {w w' : Turns} {b b' : Batch} {e : Event} {p : Path} {f : Failure}

/-! ## Documents of a growing batch -/

theorem docs_withDraft_old {i : Nat} {x : Draft × Phase} (h : b.docs[i]? = some x) (d : Draft) :
    (withDraft b d).docs[i]? = some x := by
  obtain ⟨hlt, -⟩ := List.getElem?_eq_some_iff.mp h
  rw [withDraft, List.getElem?_append_left hlt, h]

theorem docs_withDraft_new (b : Batch) (d : Draft) :
    (withDraft b d).docs[b.docs.length]? = some (d, .waiting) :=
  List.getElem?_concat_length

theorem docs_withDraft {i : Nat} {d d' : Draft} {ph : Phase}
    (h : (withDraft b d).docs[i]? = some (d', ph)) :
    b.docs[i]? = some (d', ph) ∨ d' = d ∧ ph = .waiting := by
  simp only [withDraft, List.getElem?_append, List.getElem?_singleton] at h
  split at h
  · exact Or.inl h
  · split at h
    · cases h
      exact Or.inr ⟨rfl, rfl⟩
    · cases h

theorem fit_withDraft (hb : Fit b) (d : Draft) : Fit (withDraft b d) where
  exclusive := by
    constructor
    · intro i l hl
      obtain ⟨d', result, hd⟩ := hb.exclusive.saver i l hl
      exact ⟨d', result, docs_withDraft_old hd d⟩
    · intro i d' result hd
      rcases docs_withDraft hd with hold | ⟨-, hw⟩
      · exact hb.exclusive.single i d' result hold
      · cases hw
  keys := hb.keys
  tracked := by
    intro i d' jobs result hd
    rcases docs_withDraft hd with hold | ⟨-, hw⟩
    · exact hb.tracked i d' jobs result hold
    · cases hw

/-! ## Failures stay -/

/-- What is known of the text of a document stays known. -/
theorem mem_turn (h : Turn s w w') {x : Path × Work} (hx : x ∈ w.documents)
    (hread : x.2 ≠ .unread) : x ∈ w'.documents := by
  have hreplaced : ∀ {before after : List (Path × Work)} {q : Path} (work : Work),
      x ∈ before ++ (q, .unread) :: after → x ∈ before ++ (q, work) :: after := by
    intro before after q work hx
    rw [List.mem_append, List.mem_cons] at hx ⊢
    rcases hx with hx | rfl | hx
    · exact Or.inl hx
    · exact absurd rfl hread
    · exact Or.inr (Or.inr hx)
  cases h with
  | unreadable => exact hreplaced _ hx
  | read => exact hreplaced _ hx
  | event => exact hx

theorem raised_turn (h : Turn s w w') {i : Nat} {d : Draft} {err : Asset.PublishError}
    (hd : w.batch.docs[i]? = some (d, .raised err)) :
    w'.batch.docs[i]? = some (d, .raised err) := by
  cases h with
  | unreadable => exact hd
  | read => exact docs_withDraft_old hd _
  | event _ _ _ _ hs => exact raised_step hs hd

theorem Fails.turn (hf : Fails w p f) (h : Turn s w w') : Fails w' p f := by
  cases hf with
  | reading f hmem => exact .reading f (mem_turn h hmem nofun)
  | publishing page doc d e hmem hd =>
    exact .publishing page doc d e (mem_turn h hmem nofun) (raised_turn h hd)

theorem Fails.run (hf : Fails w p f) (h : Run s w w') : Fails w' p f := by
  induction h with
  | refl => exact hf
  | tail _ hturn ih => exact ih.turn hturn

/-! ## What changes -/

/-- Where the ledger is kept and where copies go to. -/
def Changed (b : Batch) (place : Location) : Prop :=
  ledgerPlace? b.files b.store = some place ∨
    ∃ q c, b.shared.copy? q = some c ∧ b.files.realLocation q = place

/-- An event changes the ledger or the target of a copy, and keeps the ledger in its place. -/
theorem grows_event (h : Step b e b') (hl : Lawful b e) :
    Grows (Changed b) b.files b'.files ∧
      ledgerPlace? b.files b'.store = ledgerPlace? b.files b.store := by
  have htarget : ∀ {target state files}, b.shared.stateOf target = some state →
      Grows (· = b.files.realLocation target) b.files files → Grows (Changed b) b.files files := by
    intro target state files hq hg
    obtain ⟨source, hc⟩ := Asset.Shared.stateOf_eq_some.mp hq
    refine hg.mono ?_
    rintro place rfl
    exact Or.inr ⟨target, _, hc, rfl⟩
  cases h with
  | write target files hq => exact ⟨htarget hq hl, rfl⟩
  | settle target files failure hq => exact ⟨htarget hq hl, rfl⟩
  | save i l d result store files hsaving hd =>
    obtain ⟨l', hs⟩ := hl
    obtain ⟨hgrows, hplace⟩ := grows_save hs.symm
    exact ⟨hgrows.mono fun _ => Or.inl, hplace⟩
  | _ => exact ⟨.refl _, rfl⟩

theorem lawful_of_planned (h : Planned b e) : Lawful b e := by
  cases e with
  | write => exact h.elim
  | settle target files failure =>
    obtain ⟨source, hs⟩ := h
    unfold Batch.settled at hs
    split at hs
    · next u hc =>
      cases hs
      exact Tree.grows_copy hc
    · cases hs
      exact .refl _
  | save => exact h
  | _ => trivial

/-- Where media of documents may be copied to, whatever the files are when a document is scanned. -/
def IsTarget (s : Settings) (documents : List Path) (q : Path) : Prop :=
  ∃ p ∈ documents, ∃ files raw f, s.publisher.find files p raw = .ok (some f) ∧ f.asset.target = q

/-- The places in which a program may change files before it writes pages. -/
def Touched (s : Settings) (t : Tree) (store : Store) (documents : List Path) (place : Location) :
    Prop :=
  ledgerPlace? t store = some place ∨ ∃ q, IsTarget s documents q ∧ t.realLocation q = place

/-- A page is that of its document, and is published as one of the documents of a batch; what
becomes of that is the page with other addresses. -/
inductive Backed (s : Settings) (b : Batch) : Path × Work → Prop where
  | unread (p : Path) : Backed s b (p, .unread)
  | unreadable (p : Path) (f : Failure) : Backed s b (p, .unreadable f)
  | read (p : Path) (page doc text ph) (h : Document.readPage s.reading p text = .ok page)
      (hd : b.docs[doc]? = some (draftOf page, ph))
      (hr : ∀ result, ph.result? = some result →
        ∃ address, result = relink address (draftOf page)) : Backed s b (p, .read page doc)

/-- What holds after any turns. -/
structure Sound (s : Settings) (t : Tree) (store : Store) (documents : List Path) (w : Turns) :
    Prop where
  paths : w.documents.map (·.1) = documents
  backed : ∀ x ∈ w.documents, Backed s w.batch x
  fit : Fit w.batch
  publisher : w.batch.publisher = s.publisher
  drafts : ∀ x ∈ w.batch.docs, x.1.path ∈ documents
  targets : ∀ q c, w.batch.shared.copy? q = some c → IsTarget s documents q
  place : ledgerPlace? t w.batch.store = ledgerPlace? t store
  grows : Grows (Touched s t store documents) t w.batch.files

theorem Backed.withDraft {x : Path × Work} (h : Backed s b x) (d : Draft) :
    Backed s (withDraft b d) x := by
  cases h with
  | unread p => exact .unread p
  | unreadable p f => exact .unreadable p f
  | read p page doc text ph htext hd hr =>
    exact .read p page doc text ph htext (docs_withDraft_old hd d) hr

/-- The result of a document comes from its scan, which relinks it. -/
theorem Backed.event {x : Path × Work} (h : Backed s b x) (hs : Step b e b') : Backed s b' x := by
  cases h with
  | unread p => exact .unread p
  | unreadable p f => exact .unreadable p f
  | read p page doc text ph htext hd hr =>
    rcases docs_next hs hd with hsame | ⟨ph', hd', hm⟩
    · exact .read p page doc text ph htext hsame hr
    · refine .read p page doc text ph' htext hd' ?_
      intro result hresult
      rcases hm.result hresult with ⟨old, hold, hr'⟩ | ⟨-, -, shared, jobs, hscan⟩
      · rw [hd] at hold
        cases hold
        exact hr result hr'
      · exact ⟨_, (scan_ok hscan).2.1⟩

namespace Sound

theorem start {t₁ : Tree} (hopen : Grows (fun place => ledgerPlace? t store = some place) t t₁)
    (s : Settings) (now : String) (ledger : Ledger) (documents : List Path) :
    Sound s t store documents (Turns.start s store t₁ now ledger documents) where
  paths := by
    rw [Turns.start, List.map_map]
    exact List.map_id _
  backed x hx := by
    obtain ⟨p, -, rfl⟩ := List.mem_map.mp hx
    exact .unread p
  fit := fit_start _ _ _ _ _ _
  publisher := rfl
  drafts := nofun
  targets := nofun
  place := rfl
  grows := hopen.mono fun _ => Or.inl

theorem mem_documents (h : Sound s t store documents w) {x : Path × Work} (hx : x ∈ w.documents) :
    x.1 ∈ documents := by
  rw [← h.paths]
  exact List.mem_map_of_mem hx

theorem unreadable {before after : List (Path × Work)}
    (h : Sound s t store documents ⟨before ++ (p, .unread) :: after, b⟩) (f : Failure) :
    Sound s t store documents ⟨before ++ (p, .unreadable f) :: after, b⟩ where
  paths := by simpa using h.paths
  backed := by
    have hold := h.backed
    simp only [List.forall_mem_append, List.forall_mem_cons] at hold ⊢
    exact ⟨hold.1, .unreadable p f, hold.2.2⟩
  fit := h.fit
  publisher := h.publisher
  drafts := h.drafts
  targets := h.targets
  place := h.place
  grows := h.grows

theorem read {before after : List (Path × Work)} {page : Page}
    (h : Sound s t store documents ⟨before ++ (p, .unread) :: after, b⟩)
    (hread : readFile s.reading b.files p = .ok page) :
    Sound s t store documents
      ⟨before ++ (p, .read page b.docs.length) :: after, withDraft b (draftOf page)⟩ where
  paths := by simpa using h.paths
  backed := by
    have hold := h.backed
    obtain ⟨text, htext⟩ := readPage_of_readFile hread
    simp only [List.forall_mem_append, List.forall_mem_cons] at hold ⊢
    exact ⟨fun x hx => (hold.1 x hx).withDraft _,
      .read p page _ text .waiting htext (docs_withDraft_new b _) nofun,
      fun x hx => (hold.2.2 x hx).withDraft _⟩
  fit := fit_withDraft h.fit _
  publisher := h.publisher
  drafts := by
    intro x hx
    rcases List.mem_append.mp hx with hx | hx
    · exact h.drafts x hx
    · rw [List.mem_singleton.mp hx]
      have hpath : (draftOf page).path = p := path_readFile hread
      rw [hpath]
      exact h.mem_documents (x := (p, .unread)) (by simp)
  targets := h.targets
  place := h.place
  grows := h.grows

theorem event {ds : List (Path × Work)} (h : Sound s t store documents ⟨ds, b⟩) (hs : Step b e b')
    (hl : Lawful b e) : Sound s t store documents ⟨ds, b'⟩ where
  paths := h.paths
  backed x hx := (h.backed x hx).event hs
  fit := h.fit.step hs
  publisher := (step_drafts hs).1.trans h.publisher
  drafts := by
    intro x hx
    have hdraft : x.1 ∈ b.docs.map (·.1) := by
      rw [← (step_drafts hs).2]
      exact List.mem_map_of_mem hx
    obtain ⟨y, hy, hxy⟩ := List.mem_map.mp hdraft
    rw [← hxy]
    exact h.drafts y hy
  targets := by
    refine sources_step (P := fun q _ => IsTarget s documents q) hs ?_ h.targets
    intro i d hd raw _ f hf
    have hpublisher : b.publisher = s.publisher := h.publisher
    rw [hpublisher] at hf
    exact ⟨d.path, h.drafts (d, .waiting) (List.mem_of_getElem? hd), b.files, raw, f, hf, rfl⟩
  place := by
    have hplace := (grows_event hs hl).2
    rw [ledgerPlace?_grows h.grows, ledgerPlace?_grows h.grows] at hplace
    exact hplace.trans h.place
  grows := by
    refine h.grows.trans ((grows_event hs hl).1.mono ?_)
    rintro place (hplace | ⟨q, c, hc, rfl⟩)
    · rw [ledgerPlace?_grows h.grows] at hplace
      exact Or.inl (h.place ▸ hplace)
    · exact Or.inr ⟨q, h.targets q c hc, (Tree.realLocation_grows h.grows q).symm⟩

theorem turn (h : Sound s t store documents w) (hturn : Turn s w w') :
    Sound s t store documents w' := by
  cases hturn with
  | unreadable before after p f b => exact h.unreadable f
  | read before after p page b hread => exact h.read hread
  | event ds b e b' hs hl => exact h.event hs hl

theorem run (h : Sound s t store documents w) (hrun : Run s w w') :
    Sound s t store documents w' := by
  induction hrun with
  | refl => exact h
  | tail _ hturn ih => exact ih.turn hturn

/-- What a document returned can be expanded. -/
theorem expandable (h : Sound s t store documents w) {page : Page} {doc : Nat} {d : Draft}
    {result : Localized} (hx : (p, .read page doc) ∈ w.documents)
    (hd : w.batch.docs[doc]? = some (d, .returned result)) :
    Document.expandFault? s.videoAttrs result.tree = none := by
  cases h.backed _ hx with
  | read _ _ _ text ph htext hdraft hr =>
    rw [hdraft] at hd
    cases hd
    obtain ⟨address, rfl⟩ := hr result rfl
    exact Document.expandFault?_relink htext address _ _

end Sound

/-! ## Events of a batch as turns -/

theorem run_events {es : List Event} (h : Execution (fun b e _ => Lawful b e) b es b')
    (ds : List (Path × Work)) : Run s ⟨ds, b⟩ ⟨ds, b'⟩ := by
  induction h with
  | nil => exact .refl
  | cons hs hl _ ih => exact .head (.event ds _ _ _ hs hl) ih

theorem run_play {next : Batch → Option Event} (hnext : ∀ {b e}, next b = some e → Scheduled b e)
    (fuel : Nat) (hb : Fit b) (ds : List (Path × Work)) :
    Run s ⟨ds, b⟩ ⟨ds, Batch.play next fuel b⟩ ∧ Fit (Batch.play next fuel b) := by
  obtain ⟨es, hrun, hfit⟩ := play_execution (L := fun b e _ => Lawful b e) hnext
    (fun _ h => lawful_of_planned (planned_of_scheduled h)) fuel hb
  exact ⟨run_events hrun ds, hfit⟩

/-! ## Reading the rest -/

/-- Documents that are not yet read are read, one after the other. The first page is that of the
`n`-th document of a batch. -/
inductive Reads (reading : Document.Reading) (t : Tree) :
    Nat → List (Path × Work) → List (Path × Work) → List Page → Prop where
  | nil (n) : Reads reading t n [] [] []
  | known (n x ds ds' pages) (hx : x.2 ≠ .unread) (h : Reads reading t n ds ds' pages) :
      Reads reading t n (x :: ds) (x :: ds') pages
  | unreadable (n) (p : Path) (f ds ds' pages) (hp : readFile reading t p = .error f)
      (h : Reads reading t n ds ds' pages) :
      Reads reading t n ((p, .unread) :: ds) ((p, .unreadable f) :: ds') pages
  | read (n) (p : Path) (page ds ds' pages) (hp : readFile reading t p = .ok page)
      (h : Reads reading t (n + 1) ds ds' pages) :
      Reads reading t n ((p, .unread) :: ds) ((p, .read page n) :: ds') (page :: pages)

/-- A batch with the documents of pages. -/
def withPages (b : Batch) (pages : List Page) : Batch :=
  { b with docs := b.docs ++ pages.map fun page => (draftOf page, .waiting) }

theorem withPages_nil (b : Batch) : withPages b [] = b := by
  rw [withPages, List.map_nil, List.append_nil]

theorem withPages_cons (b : Batch) (page : Page) (pages : List Page) :
    withPages b (page :: pages) = withPages (withDraft b (draftOf page)) pages := by
  simp only [withPages, withDraft, List.map_cons, List.append_assoc, List.singleton_append]

namespace Reads

variable {reading : Document.Reading} {n : Nat} {ds ds' : List (Path × Work)} {pages : List Page}

theorem total (reading : Document.Reading) (t : Tree) (n : Nat) (ds : List (Path × Work)) :
    ∃ ds' pages, Reads reading t n ds ds' pages := by
  induction ds generalizing n with
  | nil => exact ⟨[], [], .nil n⟩
  | cons x ds ih =>
    obtain ⟨p, work⟩ := x
    cases work with
    | unread =>
      cases hp : readFile reading t p with
      | error f =>
        obtain ⟨ds', pages, h⟩ := ih n
        exact ⟨_, _, .unreadable n p f ds ds' pages hp h⟩
      | ok page =>
        obtain ⟨ds', pages, h⟩ := ih (n + 1)
        exact ⟨_, _, .read n p page ds ds' pages hp h⟩
    | unreadable f =>
      obtain ⟨ds', pages, h⟩ := ih n
      exact ⟨_, _, .known n _ ds ds' pages nofun h⟩
    | read page doc =>
      obtain ⟨ds', pages, h⟩ := ih n
      exact ⟨_, _, .known n _ ds ds' pages nofun h⟩

theorem known_all (h : Reads reading t n ds ds' pages) : ∀ x ∈ ds', x.2 ≠ .unread := by
  induction h with
  | nil => nofun
  | known n x ds ds' pages hx _ ih => exact List.forall_mem_cons.mpr ⟨hx, ih⟩
  | unreadable n p f ds ds' pages _ _ ih => exact List.forall_mem_cons.mpr ⟨nofun, ih⟩
  | read n p page ds ds' pages _ _ ih => exact List.forall_mem_cons.mpr ⟨nofun, ih⟩

/-- Each page is that of its document, and of the document of the batch at its place. -/
theorem mem_read (h : Reads reading t n ds ds' pages) {j : Nat} {page : Page}
    (hj : pages[j]? = some page) : (page.path, .read page (n + j)) ∈ ds' := by
  induction h generalizing j with
  | nil => cases hj
  | known n x ds ds' pages _ _ ih => exact List.mem_cons_of_mem _ (ih hj)
  | unreadable n p f ds ds' pages _ _ ih => exact List.mem_cons_of_mem _ (ih hj)
  | read n p page' ds ds' pages hp _ ih =>
    cases j with
    | zero =>
      cases hj
      rw [path_readFile hp]
      exact List.mem_cons_self
    | succ j =>
      have hmem := ih hj
      rw [Nat.add_right_comm] at hmem
      exact List.mem_cons_of_mem _ hmem

theorem run (h : Reads s.reading t n ds ds' pages) (before : List (Path × Work))
    (hfiles : b.files = t) (hn : b.docs.length = n) :
    Run s ⟨before ++ ds, b⟩ ⟨before ++ ds', withPages b pages⟩ := by
  induction h generalizing before b with
  | nil => rw [withPages_nil]
  | known n x ds ds' pages hx _ ih =>
    have hrest := ih (before ++ [x]) hfiles hn
    rwa [List.append_assoc, List.append_assoc] at hrest
  | unreadable n p f ds ds' pages hp _ ih =>
    subst hfiles
    have hrest := ih (before ++ [(p, .unreadable f)]) rfl hn
    rw [List.append_assoc, List.append_assoc] at hrest
    exact .head (.unreadable before ds p f b hp) hrest
  | read n p page ds ds' pages hp _ ih =>
    subst hfiles hn
    have hlength : (withDraft b (draftOf page)).docs.length = b.docs.length + 1 := by
      simp [withDraft]
    have hrest := ih (b := withDraft b (draftOf page))
      (before ++ [(p, .read page b.docs.length)]) rfl hlength
    rw [List.append_assoc, List.append_assoc, ← withPages_cons] at hrest
    exact .head (.read before ds p page b hp) hrest

end Reads

/-! ## Programs end -/

theorem exists_forall₂ {α β : Type} {R : α → β → Prop} {as : List α} (h : ∀ a ∈ as, ∃ b, R a b) :
    ∃ bs, List.Forall₂ R as bs := by
  induction as with
  | nil => exact ⟨[], .nil⟩
  | cons a as ih =>
    rw [List.forall_mem_cons] at h
    obtain ⟨b, hb⟩ := h.1
    obtain ⟨bs, hbs⟩ := ih h.2
    exact ⟨b :: bs, .cons hb hbs⟩

/-- When all documents are read and have ended, so can the program. -/
theorem Sound.exists_end (h : Sound s t store documents w) (root : Path)
    (hread : ∀ x ∈ w.documents, x.2 ≠ .unread)
    (hended : ∀ (i : Nat) d ph, w.batch.docs[i]? = some (d, ph) → ph.isEnded = true) :
    ∃ o, Ends s root w o := by
  by_cases hfails : ∃ p f, Fails w p f
  · obtain ⟨p, f, hf⟩ := hfails
    exact ⟨_, .failed p f hf⟩
  · have hreturned : ∀ x ∈ w.documents, ∃ page, Returned s w.batch x page := by
      intro x hx
      cases h.backed x hx with
      | unread p => exact absurd rfl (hread _ hx)
      | unreadable p f => exact absurd ⟨p, f, .reading f hx⟩ hfails
      | read p page doc text ph htext hd hr =>
        cases ph with
        | returned result => exact ⟨_, .intro p page doc _ result hd⟩
        | raised e => exact absurd ⟨p, _, .publishing page doc _ e hx hd⟩ hfails
        | _ => cases hended doc _ _ hd
    obtain ⟨pages, hpages⟩ := exists_forall₂ hreturned
    exact ⟨_, .returned pages hpages⟩

/-- Whatever turns a program has taken, it can take others that bring it to its end. -/
theorem Sound.finishes (h : Sound s t store documents w) (root : Path) :
    ∃ u o, Run s w u ∧ Ends s root u o := by
  obtain ⟨ds, pages, hreads⟩ := Reads.total s.reading w.batch.files w.batch.docs.length w.documents
  have hread : Run s w ⟨ds, withPages w.batch pages⟩ := hreads.run [] rfl rfl
  obtain ⟨hplay, -⟩ := run_play (s := s) scheduled_run (withPages w.batch pages).eventBound
    (h.run hread).fit ds
  have hrun := hread.trans hplay
  obtain ⟨o, ho⟩ := (h.run hrun).exists_end root hreads.known_all fun i d ph =>
    run_ends (h.run hread).fit
  exact ⟨_, o, hrun, ho⟩

end DocumentMedia.Site
