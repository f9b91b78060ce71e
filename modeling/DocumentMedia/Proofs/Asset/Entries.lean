import DocumentMedia.Proofs.Asset.Progress

/-! # Entries of the shared ledger

A scan lists what it finds before it is copied. So an entry that is new in the store is either that
of a whole file, or it was listed for a document that failed; and an entry that is listed again
stays as it was, but for the time, when it is found under the same name. -/
namespace DocumentMedia.Asset

open DocumentMedia.Files
open Publisher (Whole hashOf_target find_spec)
open Shared (Stands)
open DocumentMedia.Ledger (Store StoreError load_of_save keys_load)

variable {p : Publisher} {t : Tree} {now : String} {document : Path}

theorem targetOf_publicPath {raw : String} {f : Find} (h : p.find t document raw = .ok (some f)) :
    p.targetOf f.asset.publicPath = f.asset.target := by
  obtain ⟨reference, bytes, -, -, -, he⟩ := find_spec h
  rw [he, Publisher.publicPath_findOf, Publisher.target_findOf]

/-- The entry with which a find is listed. -/
structure Find.Lists (f : Find) (now x : String) (entry : LedgerEntry) : Prop where
  hash : f.asset.hash = x
  entry : entry = ⟨f.asset.media.ext, f.asset.publicPath, now⟩

theorem entry_record (s : Shared) (now : String) (f : Find) (x : String) :
    Assoc.find? (s.record now f.asset).ledger x = Assoc.find? s.ledger x ∨
      ∃ entry, f.Lists now x entry ∧
        Assoc.find? (s.record now f.asset).ledger x = some entry := by
  simp only [Shared.record, Assoc.find?_put, beq_iff_eq]
  split
  · next hx => exact Or.inr ⟨_, ⟨hx, rfl⟩, rfl⟩
  · exact Or.inl rfl

/-- A scan leaves an entry as it is, or what it finds for one of its references lists it. -/
theorem Scans.entry {sc refs sc' o} (h : Scans p t now document sc refs sc' o) (x : String) :
    Assoc.find? sc'.shared.ledger x = Assoc.find? sc.shared.ledger x ∨
      ∃ raw ∈ refs, ∃ f entry, p.find t document raw = .ok (some f) ∧ f.Lists now x entry ∧
        Assoc.find? sc'.shared.ledger x = some entry := by
  induction h with
  | nil => exact Or.inl rfl
  | unreachable => exact Or.inl rfl
  | @absent sc raw rest sc' o hf _ ih =>
    rcases ih with hkept | ⟨raw', hraw, hlisted⟩
    · exact Or.inl hkept
    · exact Or.inr ⟨raw', List.mem_cons_of_mem raw hraw, hlisted⟩
  | refused sc raw rest f e hf hs =>
    rcases entry_record sc.shared now f x with hkept | ⟨entry, hlists, hfind⟩
    · exact Or.inl hkept
    · exact Or.inr ⟨raw, List.mem_cons_self, f, entry, hf, hlists, hfind⟩
  | unseen sc raw rest f s job e hf hs hp =>
    dsimp only
    rw [ledger_schedule hs]
    rcases entry_record sc.shared now f x with hkept | ⟨entry, hlists, hfind⟩
    · exact Or.inl hkept
    · exact Or.inr ⟨raw, List.mem_cons_self, f, entry, hf, hlists, hfind⟩
  | @published sc raw rest f s job sc' o hf hs hp _ ih =>
    rcases ih with hkept | ⟨raw', hraw, hlisted⟩
    · rw [hkept, ledger_schedule hs]
      rcases entry_record sc.shared now f x with hkept | ⟨entry, hlists, hfind⟩
      · exact Or.inl hkept
      · exact Or.inr ⟨raw, List.mem_cons_self, f, entry, hf, hlists, hfind⟩
    · exact Or.inr ⟨raw', List.mem_cons_of_mem raw hraw, hlisted⟩

namespace Batch

variable {L : Batch → Event → Batch → Prop} {T : Path → Prop}

/-- What the scan of a document would find now lists a hash with an entry. -/
def Writes (b : Batch) (i : Nat) (x : String) (entry : LedgerEntry) : Prop :=
  ∃ d raw f, b.docs[i]? = some (d, .waiting) ∧ raw ∈ toScan d ∧
    b.publisher.find b.files d.path raw = .ok (some f) ∧ f.Lists b.now x entry

/-- Only a scan changes an entry, to one that it writes. -/
theorem entry_step {b e b'} (h : Step b e b') (x : String) :
    Assoc.find? b'.shared.ledger x = Assoc.find? b.shared.ledger x ∨
      ∃ i entry, e = .scan i ∧ b.Writes i x entry ∧
        Assoc.find? b'.shared.ledger x = some entry := by
  cases h with
  | scan i d shared outcome hd hsc =>
    obtain ⟨sc, o, hscans, rfl, -⟩ := scan_cases hsc
    rcases hscans.entry x with hkept | ⟨raw, hraw, f, entry, hf, hlists, hfind⟩
    · exact Or.inl hkept
    · exact Or.inr ⟨i, entry, rfl, ⟨d, raw, f, hd, hraw, hf, hlists⟩, hfind⟩
  | start => exact Or.inl (by simp)
  | settle => exact Or.inl (by simp)
  | _ => exact Or.inl rfl

/-- Some scan on the way wrote an entry. -/
def Written (b : Batch) (es : List Event) (x : String) (entry : LedgerEntry) : Prop :=
  ∃ es₁ i es₂ u, es = es₁ ++ .scan i :: es₂ ∧ b.after es₁ = some u ∧ u.Writes i x entry

theorem Written.cons {b e u es x entry} (h : Step b e u) (hw : Written u es x entry) :
    Written b (e :: es) x entry := by
  obtain ⟨es₁, i, es₂, v, rfl, hv, hwrites⟩ := hw
  exact ⟨e :: es₁, i, es₂, v, rfl, by simpa [Batch.after, step_complete h] using hv, hwrites⟩

/-! ## Entries that are listed again -/

/-- An entry is never lost: it stays, or a scan on the way wrote another for its hash. -/
theorem entry_run {b es b' x entry} (h : Execution L b es b')
    (hx : Assoc.find? b.shared.ledger x = some entry) :
    ∃ entry', Assoc.find? b'.shared.ledger x = some entry' ∧
      (entry' = entry ∨ Written b es x entry') := by
  induction h generalizing entry with
  | nil => exact ⟨entry, hx, Or.inl rfl⟩
  | @cons b e u es b' hs _ _ ih =>
    rcases entry_step hs x with hkept | ⟨i, written, rfl, hwrites, hu⟩
    · obtain ⟨entry', hfind, hsame | hwritten⟩ := ih (hkept.trans hx)
      · exact ⟨entry', hfind, Or.inl hsame⟩
      · exact ⟨entry', hfind, Or.inr (hwritten.cons hs)⟩
    · obtain ⟨entry', hfind, hsame | hwritten⟩ := ih hu
      · subst hsame
        exact ⟨entry', hfind, Or.inr ⟨[], i, es, b, rfl, rfl, hwrites⟩⟩
      · exact ⟨entry', hfind, Or.inr (hwritten.cons hs)⟩

/-- In every execution an entry keeps its extension and its path, and only its time is renewed, when
all files of its content that documents find have the extension and the public path of the entry. -/
theorem reuse_renews_time {b b' : Batch} {es : List Event} {x : String} {entry : LedgerEntry}
    (h : Execution L b es b') (hx : Assoc.find? b.shared.ledger x = some entry)
    (hsame : ∀ written, Written b es x written →
      written.ext = entry.ext ∧ written.path = entry.path) :
    ∃ time, Assoc.find? b'.shared.ledger x = some { entry with lastUsed := time } ∧
      (time = entry.lastUsed ∨ ∃ written, Written b es x written ∧ time = written.lastUsed) := by
  obtain ⟨entry', hfind, rfl | hwritten⟩ := entry_run h hx
  · exact ⟨entry'.lastUsed, hfind, Or.inl rfl⟩
  · obtain ⟨hext, hpath⟩ := hsame entry' hwritten
    refine ⟨entry'.lastUsed, ?_, Or.inr ⟨entry', hwritten, rfl⟩⟩
    rw [hfind, ← hext, ← hpath]

section Sample

def hashM : String := "7037807198c22a7d2b0807371d763779a84fdfcf"

def entryOfM (b : Batch) : Option LedgerEntry := Assoc.find? b.shared.ledger hashM

def entryM : LedgerEntry :=
  ⟨".mp4", "/assets/hash/7037807198c22a7d2b0807371d763779a84fdfcf.mp4", "2024"⟩

def againStart : Batch :=
  (Localizer.start {} [(hashM, entryM)]).batch "2025" sampleFiles (.memory [] 0)
    [sampleDraft "a.md" ["m.mp4"]]

/-- What a document finds for its references bears the name of an entry. -/
def findsNamed (b : Batch) (d : Draft) (entry : LedgerEntry) : Bool :=
  (toScan d).all fun raw =>
    match b.publisher.find b.files d.path raw with
    | .ok (some f) => f.asset.media.ext = entry.ext && f.asset.publicPath = entry.path
    | _ => true

theorem reuse_renews_time_sample : ∃ b time, againStart.after [.scan 0] = some b ∧
    entryOfM b = some { entryM with lastUsed := time } := by
  have hnamed : findsNamed againStart (sampleDraft "a.md" ["m.mp4"]) entryM = true := by
    decide +kernel
  have hrun : Execution (fun _ _ _ => True) againStart [.scan 0] _ :=
    .cons (.scan againStart 0 (sampleDraft "a.md" ["m.mp4"]) _ _ rfl rfl) trivial (.nil _)
  have hsame : ∀ written, Written againStart [.scan 0] hashM written →
      written.ext = entryM.ext ∧ written.path = entryM.path := by
    rintro written ⟨es₁, i, es₂, u, hes, hu, d, raw, f, hd, hraw, hf, hlists⟩
    obtain ⟨rfl, hscan, -⟩ : es₁ = [] ∧ i = 0 ∧ es₂ = [] := by
      cases es₁ with
      | nil => cases hes; exact ⟨rfl, rfl, rfl⟩
      | cons e es₁ => cases es₁ <;> cases hes
    cases hu
    rw [hscan] at hd
    cases hd
    have h := List.all_eq_true.mp hnamed raw hraw
    rw [hf] at h
    simp only [Bool.and_eq_true, decide_eq_true_eq] at h
    rw [hlists.entry]
    exact h
  obtain ⟨time, hfind, -⟩ := reuse_renews_time hrun rfl hsame
  exact ⟨_, time, hrun.after, hfind⟩

/-- Two files of one content under different extensions. -/
def twinFiles : Tree :=
  ⟨[(["m.mp4"], .file (.bytes [1, 2, 3])), (["copy.webm"], .file (.bytes [1, 2, 3]))], []⟩

def twinStart : Batch :=
  (Localizer.start {} []).batch "2024" twinFiles (.memory [] 0)
    [sampleDraft "a.md" ["m.mp4"], sampleDraft "b.md" ["copy.webm"]]

/-- The second of two documents with files of one content gives the entry of the first another
name. -/
theorem reuse_renames : ∃ b b' entry entry', twinStart.after [.scan 0] = some b ∧
    b.after [.scan 1] = some b' ∧ entryOfM b = some entry ∧ entryOfM b' = some entry' ∧
    entry'.ext ≠ entry.ext ∧ entry'.path ≠ entry.path := by
  have h : (do
      let b ← twinStart.after [.scan 0]
      let b' ← b.after [.scan 1]
      let entry ← entryOfM b
      let entry' ← entryOfM b'
      some (decide (entry'.ext ≠ entry.ext ∧ entry'.path ≠ entry.path))) = some true := by
    decide +kernel
  simp only [Option.bind_eq_bind, Option.bind_eq_some_iff, Option.some.injEq,
    decide_eq_true_eq] at h
  obtain ⟨b, hb, b', hb', entry, he, entry', he', hne⟩ := h
  exact ⟨b, b', entry, entry', hb, hb', he, he', hne⟩

end Sample

/-! ## Entries that are stored -/

/-- What the surroundings owe to the store: a save that succeeds stores the snapshot, and copies
leave alone what is stored. -/
structure Stores (b : Batch) (e : Event) (b' : Batch) : Prop where
  saved : ∀ r, e = .save (.ok r) → ∃ i l, b.saving = some (i, l) ∧ b.store.save b.files l = .ok r
  apart : ∀ q, e.written? = some q →
    ∀ now, b'.store.load b'.files now = b.store.load b.files now

/-- Hashes are listed once, also in a snapshot. -/
structure Distinct (b : Batch) : Prop where
  listed : b.shared.hashes.Nodup
  snapshot : ∀ i l, b.saving = some (i, l) → (Assoc.keys l).Nodup

theorem Distinct.step {b e b'} (h : Step b e b') (hb : Distinct b) : Distinct b' := by
  refine ⟨distinct_step h hb.listed, fun i l hl => ?_⟩
  rcases saving_step h with ⟨hs, -⟩ | hp
  · exact hb.snapshot i l (hs ▸ hl)
  · rw [hl] at hp
    cases hp with
    | taken i hnone => exact hb.listed

/-- An entry of the ledger, of the snapshot that is being saved or of the ledger that is stored. -/
inductive Holds (b : Batch) (x : String) (entry : LedgerEntry) : Prop where
  | listed (h : Assoc.find? b.shared.ledger x = some entry)
  | snapshot (i l) (hl : b.saving = some (i, l)) (h : Assoc.find? l x = some entry)
  | stored (now l) (hl : b.store.load b.files now = .ok l) (h : Assoc.find? l x = some entry)

theorem load_step {b e b'} (h : Step b e b') (hl : Stores b e b') (hb : Distinct b)
    {now : String} {l : Ledger} (hload : b'.store.load b'.files now = .ok l) {x : String}
    {entry : LedgerEntry} (hx : Assoc.find? l x = some entry) : b.Holds x entry := by
  cases h with
  | write target files hq =>
    exact .stored now l ((hl.apart target rfl now).symm.trans hload) hx
  | settle target files failure hq =>
    exact .stored now l ((hl.apart target rfl now).symm.trans hload) hx
  | save i snapshot d result store files hs hd =>
    obtain ⟨j, l', hl', hsave⟩ := hl.saved _ rfl
    have hsame := load_of_save (hb.snapshot j l' hl') hsave now
    rw [show store.load files now = .ok l from hload] at hsame
    cases hsame
    exact .snapshot j l hl' hx
  | _ => exact .stored now l hload hx

/-- What is held after an event was held before, or it is an entry that the scan of a document
writes. -/
theorem Holds.step {b e b'} (h : Step b e b') (hl : Stores b e b') (hb : Distinct b) {x : String}
    {entry : LedgerEntry} (hx : b'.Holds x entry) :
    b.Holds x entry ∨ ∃ i, e = .scan i ∧ b.Writes i x entry := by
  cases hx with
  | listed hx =>
    rcases entry_step h x with hkept | ⟨i, written, he, hwrites, hu⟩
    · exact Or.inl (.listed (hkept.symm.trans hx))
    · rw [hx] at hu
      cases hu
      exact Or.inr ⟨i, he, hwrites⟩
  | snapshot i l hsaving hx =>
    rcases saving_step h with ⟨hs, -⟩ | hp
    · exact Or.inl (.snapshot i l (hs ▸ hsaving) hx)
    · rw [hsaving] at hp
      cases hp with
      | taken i hnone => exact Or.inl (.listed hx)
  | stored now l hload hx => exact Or.inl (load_step h hl hb hload hx)

theorem Holds.run {b b' : Batch} {es : List Event} (h : Execution L b es b')
    (hl : ∀ {b e b'}, L b e b' → Stores b e b') (hb : Distinct b) {x : String}
    {entry : LedgerEntry} (hx : b'.Holds x entry) : b.Holds x entry ∨ Written b es x entry := by
  induction h with
  | nil => exact Or.inl hx
  | @cons b e u es b' hs hlaw _ ih =>
    rcases ih (hb.step hs) hx with hu | hw
    · rcases hu.step hs (hl hlaw) hb with hold | ⟨i, rfl, hwrites⟩
      · exact Or.inl hold
      · exact Or.inr ⟨[], i, es, b, rfl, rfl, hwrites⟩
    · exact Or.inr (hw.cons hs)

/-- A localizer that starts with a stored ledger holds entries of that ledger only. -/
theorem holds_start {p : Publisher} {ledger : Ledger} {now time : String} {files : Tree}
    {store : Store} {drafts : List Draft} (hload : store.load files time = .ok ledger) {x : String}
    {entry : LedgerEntry}
    (hx : ((Localizer.start p ledger).batch now files store drafts).Holds x entry) :
    x ∈ Assoc.keys ledger := by
  have listed : ∀ {l : Ledger}, Assoc.find? l x = some entry → x ∈ Assoc.keys l :=
    fun h => List.mem_map_of_mem (Assoc.mem_of_find? h)
  cases hx with
  | listed h => exact listed h
  | snapshot i l hl h => cases hl
  | stored now' l hl h =>
    have hkeys := keys_load store files now' time
    rw [show store.load files now' = .ok l from hl, hload] at hkeys
    exact Except.ok.inj hkeys ▸ listed h

theorem Execution.mono {L' : Batch → Event → Batch → Prop} {b es b'} (h : Execution L b es b')
    (hl : ∀ {b e b'}, L b e b' → L' b e b') : Execution L' b es b' := by
  induction h with
  | nil b => exact .nil b
  | cons hs hlaw _ ih => exact .cons hs (hl hlaw) ih

/-- When all documents of a batch have ended, an entry that is new in the store names a whole file
of its content, or some document for which it was listed failed. -/
theorem new_entry_is_whole_or_failed (T : Path → Prop) (p : Publisher) (ledger : Ledger)
    (now time : String) (files : Tree) (store : Store) (drafts : List Draft) (es : List Event)
    (b : Batch) (hp : ∀ d ∈ drafts, d.path.WellFormed)
    (hw : ∀ q, T q → files.pathExists q = .ok true → Whole files q)
    (hload : store.load files time = .ok ledger) (hn : (Assoc.keys ledger).Nodup)
    (h : Execution (fun b e b' => Undisturbed T b e b' ∧ Stores b e b')
      ((Localizer.start p ledger).batch now files store drafts) es b)
    (hend : ∀ (i : Nat) d ph, b.docs[i]? = some (d, ph) → ph.isEnded)
    (time' : String) (stored : Ledger) (hstored : b.store.load b.files time' = .ok stored)
    (x : String) (entry : LedgerEntry) (hx : Assoc.find? stored x = some entry)
    (hnew : x ∉ Assoc.keys ledger) :
    (∃ bytes, b.files.readBytes (p.targetOf entry.path) = .ok bytes ∧
        Sha1.hexDigest bytes = x) ∨
      ∃ es₁ i es₂ u, es = es₁ ++ .scan i :: es₂ ∧
        ((Localizer.start p ledger).batch now files store drafts).after es₁ = some u ∧
        u.Writes i x entry ∧ b.FailedWith (fun _ => True) i := by
  have hundisturbed := h.mono fun hl => hl.1
  have hdistinct : Distinct ((Localizer.start p ledger).batch now files store drafts) :=
    ⟨hn, fun i l hl => by cases hl⟩
  rcases Holds.run h (fun hl => hl.2) hdistinct (.stored time' stored hstored hx) with
    hold | ⟨es₁, i, es₂, u, rfl, hu, hwrites⟩
  · exact absurd (holds_start hload hold) hnew
  · obtain ⟨d, raw, f, hd, hraw, hf, hlists⟩ := id hwrites
    obtain ⟨v, hbefore, hscan, hlaw, hrest⟩ := hundisturbed.at_scan hu
    have hsound := (sound_start hp hw).run hbefore
    obtain ⟨hT, hbound⟩ := LeadsTo.bound hscan hlaw ⟨d, raw, f, hd, hraw, hf, rfl⟩
    rcases hbound.run hrest (hsound.step hscan hlaw) hT (fun _ _ => trivial) with
      hstands | ⟨d', jobs, result, hx', -⟩ | hfailed
    · left
      have hwell := hsound.paths i d _ hd
      have htarget : p.targetOf entry.path = f.asset.target := by
        rw [hlists.entry, ← targetOf_publicPath hf, hbefore.drafts.1]
        rfl
      rw [htarget, ← hlists.hash]
      exact ((hsound.step hscan hlaw).run hrest).whole ⟨hT, hashOf_target hwell hf, hstands⟩
    · cases hend i d' _ hx'
    · exact Or.inr ⟨es₁, i, es₂, u, rfl, hu, hwrites, hfailed⟩

section Sample

def sameMemory : Store → Store → Bool
  | .memory l _, .memory l' _ => l = l'
  | _, _ => false

theorem load_of_sameMemory {s s' : Store} (h : sameMemory s s' = true) (t t' : Tree)
    (now : String) : s'.load t' now = s.load t now := by
  unfold sameMemory at h
  split at h
  · rw [of_decide_eq_true h]; rfl
  · cases h

def doesStore (b : Batch) (e : Event) (b' : Batch) : Bool :=
  match e with
  | .save (.ok r) => b.saving.any fun (_, l) => decide (b.store.save b.files l = .ok r)
  | .write .. | .settle .. => sameMemory b.store b'.store
  | _ => true

theorem stores_of_check {b : Batch} {e : Event} {b' : Batch} (h : doesStore b e b' = true) :
    Stores b e b' := by
  constructor
  · rintro r rfl
    simp only [doesStore, Option.any_eq_true, decide_eq_true_eq] at h
    obtain ⟨⟨i, l⟩, hl, hsave⟩ := h
    exact ⟨i, l, hl, hsave⟩
  · intro q hq now
    cases e with
    | write => exact load_of_sameMemory h _ _ now
    | settle => exact load_of_sameMemory h _ _ now
    | _ => cases hq

/-- The copy for the first document fails, and the second document saves. -/
def lostEvents : List Event :=
  let wholeN := sampleFiles.put sampleN.parts (.file (.bytes [4, 5]))
  let entries : Ledger := [(hashM, entryM),
    ("942b8d221e13d7c80b531c63629a7243bfecdb7b",
      ⟨".mp4", "/assets/hash/942b8d221e13d7c80b531c63629a7243bfecdb7b.mp4", "2024"⟩)]
  [.scan 0, .scan 1, .start sampleM, .settle sampleM sampleFiles (some ⟨.missing, sampleM⟩),
    .start sampleN, .settle sampleN wholeN none, .fail 0 sampleM, .take 1,
    .save (.ok (.memory entries 1, wholeN))]

def lostLaw (b : Batch) (e : Event) (b' : Batch) : Prop :=
  Undisturbed (· ∈ [sampleM, sampleN]) b e b' ∧ Stores b e b'

/-- All documents have ended, and there is no file for an entry that is stored. -/
def lostEnd (b : Batch) : Bool :=
  (b.docs.all fun (_, ph) => ph.isEnded) &&
    (match b.store.load b.files "2024" with
    | .ok stored => decide (Assoc.find? stored hashM = some entryM)
    | .error _ => false) &&
    (b.files.readBytes (sampleStart.publisher.targetOf entryM.path)).toOption.isNone

theorem lost_run : ∃ b, Execution lostLaw sampleStart lostEvents b ∧ lostEnd b := by
  have h : (checked (fun b e b' => isUndisturbed [sampleM, sampleN] b e b' && doesStore b e b')
      sampleStart lostEvents).any lostEnd = true := by
    decide +kernel
  obtain ⟨b, hb, hend⟩ := (Option.any_eq_true _ _).mp h
  refine ⟨b, execution_of_checked (fun hc => ?_) hb, hend⟩
  obtain ⟨hu, hs⟩ := Bool.and_eq_true_iff.mp hc
  exact ⟨undisturbed_of_check hu, stores_of_check hs⟩

theorem lostEnd_spec {b : Batch} (h : lostEnd b) :
    (∀ (i : Nat) d ph, b.docs[i]? = some (d, ph) → ph.isEnded) ∧
      ∃ stored, b.store.load b.files "2024" = .ok stored ∧
        Assoc.find? stored hashM = some entryM ∧
        ¬ ∃ bytes, b.files.readBytes (sampleStart.publisher.targetOf entryM.path) = .ok bytes := by
  simp only [lostEnd, Bool.and_eq_true, List.all_eq_true] at h
  obtain ⟨⟨hended, hstored⟩, hfile⟩ := h
  refine ⟨fun i d ph hd => hended (d, ph) (List.mem_of_getElem? hd), ?_⟩
  split at hstored
  · next stored hload =>
    refine ⟨stored, hload, of_decide_eq_true hstored, ?_⟩
    rintro ⟨bytes, hbytes⟩
    rw [hbytes] at hfile
    cases hfile
  · cases hstored

/-- An entry can be stored for which there never was a file: its document failed, but another one
saved it. -/
theorem lost_entry_is_stored : ∃ b stored, Execution lostLaw sampleStart lostEvents b ∧
    (∀ (i : Nat) d ph, b.docs[i]? = some (d, ph) → ph.isEnded) ∧
    b.store.load b.files "2024" = .ok stored ∧ Assoc.find? stored hashM = some entryM ∧
    hashM ∉ Assoc.keys sampleStart.shared.ledger ∧
    ¬ ∃ bytes, b.files.readBytes (sampleStart.publisher.targetOf entryM.path) = .ok bytes := by
  obtain ⟨b, hrun, hend⟩ := lost_run
  obtain ⟨hended, stored, hload, hfind, hfile⟩ := lostEnd_spec hend
  exact ⟨b, stored, hrun, hended, hload, hfind, by simp [Assoc.keys, sampleStart, Localizer.start,
    Localizer.batch], hfile⟩

theorem new_entry_sample : ∃ b es₁ i es₂ u, lostEvents = es₁ ++ .scan i :: es₂ ∧
    sampleStart.after es₁ = some u ∧ u.Writes i hashM entryM ∧
    b.FailedWith (fun _ => True) i ∧ Execution lostLaw sampleStart lostEvents b := by
  obtain ⟨b, hrun, hend⟩ := lost_run
  obtain ⟨hended, stored, hload, hfind, hfile⟩ := lostEnd_spec hend
  have hp : ∀ d ∈ sampleDrafts, d.path.WellFormed := by
    intro d hd
    simp only [sampleDrafts, List.mem_cons, List.not_mem_nil, or_false] at hd
    rcases hd with rfl | rfl
    · exact Path.wellFormed_ofString "a.md"
    · exact Path.wellFormed_ofString "b.md"
  have hw : ∀ q ∈ [sampleM, sampleN], sampleFiles.pathExists q = .ok true →
      Whole sampleFiles q := by
    decide +kernel
  rcases new_entry_is_whole_or_failed (· ∈ [sampleM, sampleN]) {} [] "2024" "2024" sampleFiles
    (.memory [] 0) sampleDrafts lostEvents b hp hw rfl .nil hrun hended "2024" stored hload hashM
    entryM hfind (by simp [Assoc.keys]) with ⟨bytes, hbytes, -⟩ | ⟨es₁, i, es₂, u, h⟩
  · exact absurd ⟨bytes, hbytes⟩ hfile
  · exact ⟨b, es₁, i, es₂, u, h.1, h.2.1, h.2.2.1, h.2.2.2, hrun⟩

end Sample

end Batch

end DocumentMedia.Asset
