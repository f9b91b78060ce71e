import DocumentMedia.Proofs.Asset.Saving
import DocumentMedia.Proofs.Site.Growth
import DocumentMedia.Proofs.Site.Turns

/-! # Files of returned documents

A localizer remembers which copies are done, from call to call. A document that returns finds files
at the targets of its assets, unless what an earlier call had left there was taken away meanwhile:
a copy that was done once is not done again. -/
namespace DocumentMedia.Files.Tree

variable {W : Location → Prop} {t t' : Tree} {p source target : Path}

theorem isFile_iff : t.isFile p = .ok true ↔ ∃ c, t.entryAt p = .ok (.file c) := by
  unfold isFile ask
  cases t.entryAt p with
  | error e =>
    simp only
    split <;> simp
  | ok e => cases e <;> simp

theorem pathExists_iff : t.pathExists p = .ok true ↔ ∃ e, t.entryAt p = .ok e := by
  unfold pathExists ask
  cases t.entryAt p with
  | error e =>
    simp only
    split <;> simp
  | ok e => simp

theorem isFile_grows (h : Grows W t t') (hf : t.isFile p = .ok true) : t'.isFile p = .ok true := by
  obtain ⟨c, hc⟩ := isFile_iff.mp hf
  exact isFile_iff.mpr (entryAt_file_grows h hc)

theorem pathExists_grows (h : Grows W t t') (hp : t.pathExists p = .ok true) :
    t'.pathExists p = .ok true := by
  obtain ⟨e, he⟩ := pathExists_iff.mp hp
  exact pathExists_iff.mpr (entryAt_grows h he)

theorem pathExists_of_isFile (h : t.isFile p = .ok true) : t.pathExists p = .ok true := by
  obtain ⟨c, hc⟩ := isFile_iff.mp h
  exact pathExists_iff.mpr ⟨_, hc⟩

theorem isFile_copy (h : t.copy source target = .ok t') : t'.isFile target = .ok true := by
  obtain ⟨u, -, h⟩ := bind_eq_ok.mp h
  obtain ⟨c, -, h⟩ := bind_eq_ok.mp h
  exact isFile_iff.mpr ⟨c, entryAt_write h⟩

end DocumentMedia.Files.Tree

namespace DocumentMedia.Site

open DocumentMedia.Files
open DocumentMedia.Asset (Batch Event Draft Localized Localizer Phase Round Shared scan_ok
  scan_cases firstStart firstEvents sampleLedger)
open DocumentMedia.Asset.Shared (Stands)
open DocumentMedia.Asset.Batch (Step Execution docs_step docs_batch step_unique stands_of_exists
  checked execution_of_checked sampleDraft)
open DocumentMedia.Ledger (Store)

/-! ## Calls -/

/-- What a program does to files while it publishes: it takes nothing away, and a copy that does not
fail leaves a file at its target. -/
structure Leaves (b : Batch) (e : Event) (_ : Batch) : Prop where
  lawful : Lawful b e
  copied : ∀ target files, e = .settle target files none → files.isFile target = .ok true

theorem leaves_of_planned {b b' : Batch} {e : Event} (h : Planned b e) : Leaves b e b' where
  lawful := lawful_of_planned h
  copied := by
    rintro target files rfl
    obtain ⟨source, hs⟩ := h
    unfold Batch.settled at hs
    split at hs
    · next u hc =>
      cases hs
      exact Tree.isFile_copy hc
    · cases hs

/-- Calls of one localizer, one after another. Each finds the files as they are then, whatever was
taken away or added since the call before; when an event loop is closed, copies under way are given
up. -/
inductive Calls : Localizer → List Round → Localizer → Prop where
  | nil (l) : Calls l [] l
  | cons {l : Localizer} {now files store drafts es b rs l'}
      (h : Execution Leaves (l.batch now files store drafts) es b)
      (rest : Calls ⟨b.publisher, b.shared⟩ rs l') :
      Calls l (⟨l.batch now files store drafts, es, b⟩ :: rs) l'
  | closed {l : Localizer} {now files store drafts es b rs l'}
      (h : Execution Leaves (l.batch now files store drafts) es b)
      (rest : Calls ⟨b.publisher, b.shared.cancelAll⟩ rs l') :
      Calls l (⟨l.batch now files store drafts, es, b⟩ :: rs) l'

/-! ## One call -/

/-- What holds at any time of a call that began with some files. -/
structure During (l : Localizer) (files : Tree) (b : Batch) : Prop where
  grows : Grows Anywhere files b.files
  done : ∀ q, b.shared.stateOf q = some .done →
    b.files.isFile q = .ok true ∨ l.shared.stateOf q = some .done
  assets : ∀ (i : Nat) d ph result, b.docs[i]? = some (d, ph) → ph.result? = some result →
    ∀ a ∈ result.assets, Stands b.shared b.files a.target ∨
      ∃ jobs, ph = .copying jobs result ∧ a.target ∈ jobs

variable {l : Localizer} {files : Tree} {b b' : Batch} {e : Event}

theorem grows_leaves (h : Step b e b') (hl : Leaves b e b') : Grows Anywhere b.files b'.files :=
  (grows_event h hl.lawful).1.mono fun _ _ => trivial

theorem During.start (l : Localizer) (now : String) (files : Tree) (store : Store)
    (drafts : List Draft) : During l files (l.batch now files store drafts) where
  grows := .refl files
  done q hq := Or.inr hq
  assets i d ph result hd hr := by
    rw [(docs_batch hd).2] at hr
    cases hr

/-- A copy is done only by its own end. -/
theorem During.done_step (hb : During l files b) (h : Step b e b') (hl : Leaves b e b') (q : Path)
    (hq : b'.shared.stateOf q = some .done) :
    b'.files.isFile q = .ok true ∨ l.shared.stateOf q = some .done := by
  have hold : b.shared.stateOf q = some .done →
      b'.files.isFile q = .ok true ∨ l.shared.stateOf q = some .done := fun hq =>
    (hb.done q hq).imp_left (Tree.isFile_grows (grows_leaves h hl))
  cases h with
  | scan i d shared outcome hd hscan =>
    obtain ⟨sc, o, hscans, rfl, -⟩ := scan_cases hscan
    obtain ⟨source, hc⟩ := Shared.stateOf_eq_some.mp hq
    rcases hscans.grows.added q _ hc with hc | ⟨hstate, -⟩
    · exact hold (Shared.stateOf_eq_some.mpr ⟨source, hc⟩)
    · cases hstate
  | start target hst =>
    simp only [Shared.stateOf_setState] at hq
    split at hq
    · next he =>
      subst he
      rw [hst] at hq
      cases hq
    · exact hold hq
  | settle target files' failure hst =>
    simp only [Shared.stateOf_setState] at hq
    split at hq
    · next he =>
      subst he
      rw [hst] at hq
      cases failure with
      | none => exact Or.inl (hl.copied target files' rfl)
      | some err => cases hq
    · exact hold hq
  | _ => exact hold hq

theorem stands_leaves (h : Step b e b') (hl : Leaves b e b') {q : Path}
    (hs : Stands b.shared b.files q) : Stands b'.shared b'.files q :=
  stands_of_exists h (fun _ => Tree.pathExists_grows (grows_leaves h hl)) hs

/-- An asset is waited for until nothing has to be copied for it. -/
theorem During.assets_step (hb : During l files b) (h : Step b e b') (hl : Leaves b e b') (i : Nat)
    (d : Draft) (ph : Phase) (result : Localized) (hd : b'.docs[i]? = some (d, ph))
    (hr : ph.result? = some result) (a : Asset.Asset) (ha : a ∈ result.assets) :
    Stands b'.shared b'.files a.target ∨ ∃ jobs, ph = .copying jobs result ∧ a.target ∈ jobs := by
  rcases docs_step h hd with hold | hm
  · exact (hb.assets i d ph result hold hr a ha).imp_left (stands_leaves h hl)
  · cases hm with
    | scanned shared outcome hd' hscan =>
      obtain rfl := step_unique h (.scan b i d shared _ hd' hscan)
      cases outcome with
      | error err => cases hr
      | ok r =>
        obtain ⟨jobs, result'⟩ := r
        cases hr
        obtain ⟨-, rfl, sc, hscans, rfl, rfl⟩ := scan_ok hscan
        obtain ⟨raw, hraw, hpub⟩ := List.mem_filterMap.mp ha
        obtain ⟨f, hf, rfl⟩ := Asset.Publisher.publish_eq_some.mp hpub
        obtain ⟨-, r, hr, hseen⟩ := hscans.complete rfl hraw
        rw [hf] at hr
        cases hr
        rcases hseen f rfl with hj | hs
        · exact Or.inr ⟨sc.jobs, rfl, hj⟩
        · exact Or.inl hs
    | took jobs result' hd' _ hj =>
      cases hr
      refine Or.inl (stands_leaves h hl ?_)
      rcases hb.assets i d _ result hd' rfl a ha with hs | ⟨jobs', he, hmem⟩
      · exact hs
      · cases he
        exact Or.inl (of_decide_eq_true (List.all_eq_true.mp hj _ hmem))
    | saved l' result' store files' _ hd' =>
      cases hr
      refine Or.inl (stands_leaves h hl ?_)
      rcases hb.assets i d _ result hd' rfl a ha with hs | ⟨jobs', he, -⟩
      · exact hs
      · cases he
    | failed => cases hr
    | unsaved => cases hr

theorem During.step (hb : During l files b) (h : Step b e b') (hl : Leaves b e b') :
    During l files b' where
  grows := hb.grows.trans (grows_leaves h hl)
  done := hb.done_step h hl
  assets := hb.assets_step h hl

theorem During.run {now : String} {store : Store} {drafts : List Draft} {es : List Event}
    (h : Execution Leaves (l.batch now files store drafts) es b) : During l files b :=
  h.invariant (.start l now files store drafts) fun hs hl hb => hb.step hs hl

/-! ## Sequences of calls -/

theorem stateOf_cancelAll (s : Shared) (q : Path) :
    s.cancelAll.stateOf q = (s.stateOf q).map fun state =>
      if state = .scheduled || state = .running then .cancelled else state := by
  unfold Shared.stateOf Shared.copy? Shared.cancelAll
  rw [Assoc.find?_map (fun c : Asset.Copy =>
    if c.state = .scheduled || c.state = .running then { c with state := .cancelled } else c)]
  cases Assoc.find? s.copies q with
  | none => rfl
  | some c =>
    simp only [Option.map_some]
    split <;> rfl

theorem done_of_cancelAll {s : Shared} {q : Path} (h : s.cancelAll.stateOf q = some .done) :
    s.stateOf q = some .done := by
  rw [stateOf_cancelAll] at h
  obtain ⟨state, hstate, hdone⟩ := Option.map_eq_some_iff.mp h
  split at hdone
  · cases hdone
  · rw [hstate, hdone]

/-- A copy that is done was done by one of the calls, which left a file at its target. -/
theorem Calls.left {l l' : Localizer} {rs : List Round} (h : Calls l rs l') {q : Path}
    (hq : l'.shared.stateOf q = some .done) :
    l.shared.stateOf q = some .done ∨ ∃ r ∈ rs, r.finish.files.isFile q = .ok true := by
  have hround : ∀ {l : Localizer} {now files store drafts es b} {rs : List Round},
      Execution Leaves (l.batch now files store drafts) es b →
      (b.shared.stateOf q = some .done ∨ ∃ r ∈ rs, r.finish.files.isFile q = .ok true) →
      l.shared.stateOf q = some .done ∨
        ∃ r ∈ (⟨l.batch now files store drafts, es, b⟩ : Round) :: rs,
          r.finish.files.isFile q = .ok true := by
    rintro l now files store drafts es b rs hrun (hb | ⟨r, hr, hfile⟩)
    · rcases (During.run hrun).done q hb with hfile | hdone
      · exact Or.inr ⟨_, List.mem_cons_self, hfile⟩
      · exact Or.inl hdone
    · exact Or.inr ⟨r, List.mem_cons_of_mem _ hr, hfile⟩
  induction h with
  | nil => exact Or.inl hq
  | cons hrun _ ih => exact hround hrun (ih hq)
  | closed hrun _ ih => exact hround hrun ((ih hq).imp_left done_of_cancelAll)

/-- After any calls of a localizer, a document that returns has files at the targets of its assets,
or there was none when its call began: then something else stands there and was never copied to, or
an earlier call had left a file there that was taken away. -/
theorem returned_targets_stand (p : Asset.Publisher) (ledger : Ledger) (rs : List Round)
    (l : Localizer) (now : String) (files : Tree) (store : Store) (drafts : List Draft)
    (es : List Event) (b : Batch) (i : Nat) (d : Draft) (result : Localized) (a : Asset.Asset)
    (hcalls : Calls (Localizer.start p ledger) rs l)
    (h : Execution Leaves (l.batch now files store drafts) es b)
    (hd : b.docs[i]? = some (d, .returned result)) (ha : a ∈ result.assets) :
    b.files.isFile a.target = .ok true ∨
      files.isFile a.target ≠ .ok true ∧
        (b.files.pathExists a.target = .ok true ∧ b.shared.stateOf a.target = none ∨
          ∃ r ∈ rs, r.finish.files.isFile a.target = .ok true) := by
  have hb := During.run h
  by_cases hfile : files.isFile a.target = .ok true
  · exact Or.inl (Tree.isFile_grows hb.grows hfile)
  · rcases hb.assets i d _ result hd rfl a ha with (hdone | ⟨hnone, hthere⟩) | ⟨jobs, he, -⟩
    · rcases hb.done a.target hdone with hfile' | hbefore
      · exact Or.inl hfile'
      · rcases hcalls.left hbefore with hstart | hleft
        · cases hstart
        · exact Or.inr ⟨hfile, Or.inr hleft⟩
    · exact Or.inr ⟨hfile, Or.inl ⟨hthere, hnone⟩⟩
    · cases he

section Sample

/-- An event of a program whose copies do not fail. -/
def isPlanned (b : Batch) (e : Event) (_ : Batch) : Bool :=
  match e with
  | .write .. => false
  | .settle target files failure => failure.isNone &&
    (b.shared.copy? target).any fun c => decide (b.files.copy c.source target = .ok files)
  | .save outcome => b.saving.any fun (_, l) => decide (outcome = b.store.save b.files l)
  | _ => true

theorem planned_of_check {b b' : Batch} {e : Event} (h : isPlanned b e b' = true) :
    Planned b e := by
  cases e with
  | write => cases h
  | settle target files failure =>
    obtain ⟨hnone, hcopy⟩ := Bool.and_eq_true_iff.mp h
    obtain rfl := Option.isNone_iff_eq_none.mp hnone
    obtain ⟨c, -, hc⟩ := (Option.any_eq_true _ _).mp hcopy
    exact ⟨c.source, by rw [Batch.settled, of_decide_eq_true hc]⟩
  | save outcome =>
    obtain ⟨⟨i, l⟩, -, hsave⟩ := (Option.any_eq_true _ _).mp h
    exact ⟨l, of_decide_eq_true hsave⟩
  | _ => trivial

/-- A second call, after the copy that the first one made was taken away. -/
def emptiedStart (b : Batch) : Batch :=
  Localizer.batch ⟨b.publisher, b.shared⟩ "2025" Asset.Batch.sampleFiles b.store
    [sampleDraft "b.md" ["m.mp4"]]

/-- The document is scanned and returns; nothing is copied. -/
def emptiedEvents : List Event :=
  [.scan 0, .take 0, .save (.ok (.memory (sampleLedger "2025") 2, Asset.Batch.sampleFiles))]

def emptiedFinishes : Option (Batch × Batch) := do
  let b ← checked isPlanned firstStart firstEvents
  let b' ← checked isPlanned (emptiedStart b) emptiedEvents
  some (b, b')

def returnedAsset? (b : Batch) : Option Asset.Asset :=
  match b.docs with
  | [(_, .returned result)] => result.assets.head?
  | _ => none

theorem returnedAsset?_spec {b : Batch} {a : Asset.Asset} (h : returnedAsset? b = some a) :
    ∃ d result, b.docs[0]? = some (d, .returned result) ∧ a ∈ result.assets := by
  unfold returnedAsset? at h
  split at h
  · next d result hdocs =>
    refine ⟨d, result, ?_, List.mem_of_mem_head? h⟩
    rw [hdocs]
    rfl
  · cases h

theorem emptied_finishes : (emptiedFinishes.any fun (_, b') =>
    (returnedAsset? b').any fun a => b'.files.pathExists a.target = .ok false) = true := by
  decide +kernel

theorem emptied_calls : ∃ b b' d result a, Execution Leaves firstStart firstEvents b ∧
    Execution Leaves (emptiedStart b) emptiedEvents b' ∧
    b'.docs[0]? = some (d, .returned result) ∧ a ∈ result.assets ∧
    b'.files.pathExists a.target = .ok false := by
  obtain ⟨⟨b, b'⟩, hb, hgone⟩ := (Option.any_eq_true _ _).mp emptied_finishes
  simp only [emptiedFinishes, Option.bind_eq_bind, Option.bind_eq_some_iff] at hb
  obtain ⟨u, hu, u', hu', he⟩ := hb
  cases he
  obtain ⟨a, ha, hgone⟩ := (Option.any_eq_true _ _).mp hgone
  obtain ⟨d, result, hd, hmem⟩ := returnedAsset?_spec ha
  have hleaves : ∀ {b e b'}, isPlanned b e b' = true → Leaves b e b' := fun h =>
    leaves_of_planned (planned_of_check h)
  exact ⟨b, b', d, result, a, execution_of_checked hleaves hu, execution_of_checked hleaves hu',
    hd, hmem, of_decide_eq_true hgone⟩

/-- A copy that was made by an earlier call and then taken away is not made again. -/
theorem deleted_copy_is_not_renewed : ∃ b b' d result a,
    Calls (Localizer.start {} []) [⟨firstStart, firstEvents, b⟩] ⟨b.publisher, b.shared⟩ ∧
      Execution Leaves (emptiedStart b) emptiedEvents b' ∧
      b'.docs[0]? = some (d, .returned result) ∧ a ∈ result.assets ∧
      b'.files.isFile a.target ≠ .ok true := by
  obtain ⟨b, b', d, result, a, h, h', hd, ha, hgone⟩ := emptied_calls
  refine ⟨b, b', d, result, a, .cons h (.nil _), h', hd, ha, fun hfile => ?_⟩
  rw [Tree.pathExists_of_isFile hfile] at hgone
  cases hgone

/-- There the first call had left the file. -/
theorem returned_targets_stand_sample : ∃ b b' d result a,
    Calls (Localizer.start {} []) [⟨firstStart, firstEvents, b⟩] ⟨b.publisher, b.shared⟩ ∧
      Execution Leaves (emptiedStart b) emptiedEvents b' ∧
      b'.docs[0]? = some (d, .returned result) ∧ a ∈ result.assets ∧
      b.files.isFile a.target = .ok true := by
  obtain ⟨b, b', d, result, a, h, h', hd, ha, hgone⟩ := emptied_calls
  have hcalls : Calls (Localizer.start {} []) [⟨firstStart, firstEvents, b⟩]
      ⟨b.publisher, b.shared⟩ := .cons h (.nil _)
  refine ⟨b, b', d, result, a, hcalls, h', hd, ha, ?_⟩
  have hthere : b'.files.pathExists a.target ≠ .ok true := by
    rw [hgone]
    nofun
  rcases returned_targets_stand {} [] _ _ _ _ _ _ _ _ 0 d result a hcalls h' hd ha with
    hfile | ⟨-, ⟨hexists, -⟩ | ⟨r, hr, hleft⟩⟩
  · exact absurd (Tree.pathExists_of_isFile hfile) hthere
  · exact absurd hexists hthere
  · rw [List.mem_singleton.mp hr] at hleft
    exact hleft

end Sample

end DocumentMedia.Site
