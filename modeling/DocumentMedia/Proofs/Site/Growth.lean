import DocumentMedia.Proofs.Files.Growth
import DocumentMedia.Proofs.Ledger.Store
import DocumentMedia.Proofs.Site.Schedule

/-! # Builds take nothing away

Publishing media and saving the ledger write files and make directories. No directory and no link
goes away or changes, and no link is made. -/
namespace DocumentMedia.Site

open DocumentMedia.Files
open DocumentMedia.Asset (Batch Event Localized)
open DocumentMedia.Asset.Batch (Step Execution Fit Scheduled fit_start)
open DocumentMedia.Document (Page)
open DocumentMedia.Ledger (Store StoreError Database DatabaseError openTable replaceRows databaseAt)

/-- Any file may change. -/
abbrev Anywhere : Location → Prop := fun _ => True

variable {t t' : Tree}

/-! ## Stores -/

/-- Where a store keeps the ledger, with all links resolved; none for a store in memory. -/
def ledgerPlace? (t : Tree) : Store → Option Location
  | .json p | .table p => some (t.realLocation p)
  | .memory .. | .transient => none

theorem ledgerPlace?_grows {W : Location → Prop} (h : Grows W t t') (s : Store) :
    ledgerPlace? t' s = ledgerPlace? t s := by
  cases s <;> simp only [ledgerPlace?, Tree.realLocation_grows h]

theorem grows_openTable {p : Path} {rows : List (List String)}
    (h : openTable t p = .ok (t', rows)) : Grows (· = t.realLocation p) t t' := by
  obtain ⟨place, hl, hf, rfl | rfl⟩ := Ledger.openTable_free h
  · exact .refl t'
  · exact Tree.grows_put_file hf (Tree.realLocation_of_locate hl).symm _

theorem grows_replaceRows {p : Path} {rows : List (List String)}
    (h : replaceRows t p rows = .ok t') : Grows (· = t.realLocation p) t t' := by
  obtain ⟨u, old, place, ho, hl, hf, rfl⟩ := Ledger.replaceRows_spec h
  have hopened := grows_openTable ho
  have hplace : place = t.realLocation p := by
    rw [← Tree.realLocation_of_locate hl, Tree.realLocation_grows hopened]
  exact hopened.trans (Tree.grows_put_file hf hplace (.table rows))

theorem grows_saveJson {l : Ledger} {p : Path} (h : Store.saveJson t l p = .ok t') :
    Grows (· = t.realLocation p) t t' := by
  unfold Store.saveJson at h
  split at h
  · exact Tree.grows_write_real h
  · obtain ⟨u, hd, h⟩ := bind_eq_ok.mp h
    have hmade : Grows (· = t.realLocation p) t u := Tree.grows_ensureDirectories hd
    have hwritten := Tree.grows_write_real h
    rw [Tree.realLocation_grows hmade] at hwritten
    exact hmade.trans hwritten

/-- A save changes no file but that of the ledger, and keeps the ledger in its place. -/
theorem grows_save {s s' : Store} {l : Ledger} (h : s.save t l = .ok (s', t')) :
    Grows (fun place => ledgerPlace? t s = some place) t t' ∧
      ledgerPlace? t s' = ledgerPlace? t s := by
  cases s with
  | memory entries saves =>
    cases h
    exact ⟨.refl t, rfl⟩
  | json p =>
    obtain ⟨rfl, hs⟩ := Ledger.save_json h
    exact ⟨(grows_saveJson hs).mono fun _ hl => congrArg some hl.symm, rfl⟩
  | table p =>
    obtain ⟨rfl, hs⟩ := Ledger.save_table h
    exact ⟨(grows_replaceRows hs).mono fun _ hl => congrArg some hl.symm, rfl⟩
  | transient => cases h

theorem grows_openStore {s : Settings} {store : Store} (h : openStore s t = .ok (store, t')) :
    Grows (fun place => ledgerPlace? t store = some place) t t' := by
  unfold openStore at h
  split at h
  · cases h
    exact .refl t
  · obtain ⟨d, -, h⟩ := bind_eq_ok.mp (mapError_eq_ok.mp h)
    cases d with
    | memory =>
      cases h
      exact .refl t
    | file p =>
      obtain ⟨⟨u, rows⟩, ho, h⟩ := map_eq_ok.mp h
      cases h
      exact (grows_openTable ho).mono fun _ hl => congrArg some hl.symm

/-! ## Batches -/

/-- What a program does with files: it copies them as a whole and saves the ledger. -/
def Planned (b : Batch) : Event → Prop
  | .write .. => False
  | .settle target files failure =>
    ∃ source, b.settled target source = .settle target files failure
  | .save outcome => ∃ l, outcome = b.store.save b.files l
  | _ => True

theorem planned_of_scheduled {b : Batch} {e : Event} (h : Scheduled b e) : Planned b e := by
  have hfailure : ∀ {e}, b.nextFailure = some e → Planned b e := by
    intro e h
    obtain ⟨r, -, rfl⟩ := Option.map_eq_some_iff.mp h
    trivial
  cases h with
  | copying h =>
    rcases Option.or_eq_some_iff.mp h with h | ⟨-, h⟩
    · unfold Batch.nextClean at h
      split at h
      · cases h
      · obtain ⟨i, -, rfl⟩ := Option.map_eq_some_iff.mp h
        trivial
    rcases Option.or_eq_some_iff.mp h with h | ⟨-, h⟩
    · obtain ⟨i, -, rfl⟩ := Option.map_eq_some_iff.mp h
      trivial
    rcases Option.or_eq_some_iff.mp h with h | ⟨-, h⟩
    · obtain ⟨i, -, rfl⟩ := Option.map_eq_some_iff.mp h
      trivial
    · obtain ⟨⟨target, c⟩, -, rfl⟩ := Option.map_eq_some_iff.mp h
      unfold Batch.settled
      dsimp only
      split
      · next files hc => exact ⟨c.source, by simp [Batch.settled, hc]⟩
      · next e hc => exact ⟨c.source, by simp [Batch.settled, hc]⟩
  | failing h => exact hfailure h
  | finishing h =>
    rcases Option.or_eq_some_iff.mp h with h | ⟨-, h⟩
    · obtain ⟨⟨i, l⟩, -, rfl⟩ := Option.map_eq_some_iff.mp h
      exact ⟨l, rfl⟩
    rcases Option.or_eq_some_iff.mp h with h | ⟨-, h⟩
    · exact hfailure h
    · obtain ⟨i, -, rfl⟩ := Option.map_eq_some_iff.mp h
      trivial

theorem grows_settled {b : Batch} {target source : Path} {files : Tree}
    {failure : Option FileError} (h : b.settled target source = .settle target files failure) :
    Grows Anywhere b.files files := by
  unfold Batch.settled at h
  split at h
  · next u hc =>
    cases h
    exact (Tree.grows_copy hc).mono fun _ _ => trivial
  · cases h
    exact .refl _

theorem grows_step {b b' : Batch} {e : Event} (h : Step b e b') (hp : Scheduled b e) :
    Grows Anywhere b.files b'.files := by
  have hplanned := planned_of_scheduled hp
  cases h with
  | write target files hq => exact hplanned.elim
  | settle target files failure hq =>
    obtain ⟨source, hs⟩ := hplanned
    exact grows_settled hs
  | save i l d result store files hl hd =>
    obtain ⟨l', hs⟩ := hplanned
    exact (grows_save hs.symm).1.mono fun _ _ => trivial
  | _ => exact .refl _

theorem grows_publish {b b' : Batch} {readings : List (Path × Except Failure Page)}
    {ends : List (Page × Localized)} (hb : Fit b) (h : publish b readings = (b', .ok ends)) :
    Grows Anywhere b.files b'.files := by
  obtain ⟨-, rfl, -, -⟩ := publish_ok h
  obtain ⟨es, hrun, -⟩ := execution_of_publish
    (L := fun b _ b' => Grows Anywhere b.files b'.files) hb grows_step
  exact hrun.invariant (I := fun u => Grows Anywhere b.files u.files) (.refl _)
    fun _ hl hu => hu.trans hl

theorem grows_buildPages {s : Settings} {store : Store} {now : String} {documents : List Path}
    {pages : List Built} (h : buildPages s store t now documents = (t', .ok pages)) :
    Grows Anywhere t t' := by
  obtain ⟨ledger, b, ends, -, hpub, rfl, -⟩ := buildPages_ok h
  exact grows_publish (fit_start s.publisher ledger now t store _) hpub

end DocumentMedia.Site
