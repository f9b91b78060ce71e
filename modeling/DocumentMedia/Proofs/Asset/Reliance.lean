import DocumentMedia.Proofs.Asset.Copying

/-! # Documents and the copies they rely on

A document relies on a copy that it waits for, or on one that had failed before it was scanned. From
its scan on the document is bound to that copy: it is past waiting only when the copy is done, and
when the copy fails so does the document. -/
namespace DocumentMedia.Asset

open DocumentMedia.Files
open Publisher (Whole hashOf_target)
open Shared (Stands Active)
open DocumentMedia.Ledger (Store)

namespace Batch

variable {T : Path → Prop}

/-- A reference that the scan of a document comes to leads to a target. -/
def LeadsTo (b : Batch) (i : Nat) (q : Path) : Prop :=
  ∃ d raw f, b.docs[i]? = some (d, .waiting) ∧ raw ∈ toScan d ∧
    b.publisher.find b.files d.path raw = .ok (some f) ∧ f.asset.target = q

/-- What a document that is scanned now relies on: a copy that it then waits for, or one that has
failed and to which the scan comes. -/
inductive ReliesOn (b : Batch) (i : Nat) (q : Path) : Prop where
  | awaited (d shared jobs result) (hd : b.docs[i]? = some (d, .waiting))
      (hs : Asset.scan b.publisher b.files b.now d b.shared = (shared, .ok (jobs, result)))
      (hq : q ∈ jobs)
  | refused (d before raw after f e) (hd : b.docs[i]? = some (d, .waiting))
      (hr : toScan d = before ++ raw :: after)
      (hb : (scanAll b.publisher b.files b.now d.path ⟨b.shared, [], []⟩ before).2 = none)
      (hf : b.publisher.find b.files d.path raw = .ok (some f)) (ht : f.asset.target = q)
      (hq : b.shared.stateOf q = some (.failed e))

def Awaits (b : Batch) (i : Nat) (q : Path) : Prop :=
  ∃ d jobs result, b.docs[i]? = some (d, Phase.copying jobs result) ∧ q ∈ jobs

/-- A document that failed with one of some errors. -/
def FailedWith (R : PublishError → Prop) (b : Batch) (i : Nat) : Prop :=
  ∃ d e, b.docs[i]? = some (d, Phase.raised e) ∧ R e

/-- What a document that relies on a copy is bound to. -/
def Bound (R : PublishError → Prop) (b : Batch) (i : Nat) (q : Path) : Prop :=
  Stands b.shared b.files q ∨ b.Awaits i q ∨ b.FailedWith R i

/-- Errors among which are those of copies. -/
def Covers (R : PublishError → Prop) : Prop :=
  ∀ e : FileError, e.cause ≠ .nullCharacter → R (.file e)

variable {R : PublishError → Prop}

theorem Bound.step {b e b' q} {i : Nat} (h : Step b e b') (hl : Undisturbed T b e b')
    (hb : Sound T b) (hq : T q) (hR : Covers R) (hi : b.Bound R i q) : b'.Bound R i q := by
  rcases hi with hs | ⟨d, jobs, result, hd, hm⟩ | ⟨d, err, hd, he⟩
  · exact Or.inl (stands_step h hl hq hs)
  · rcases docs_next h hd with hx | ⟨ph, hx, hmove⟩
    · exact Or.inr (Or.inl ⟨d, jobs, result, hx, hm⟩)
    · cases hmove with
      | failed target jobs' result' err hd' hm' hf =>
        obtain ⟨source, hc⟩ := Shared.stateOf_eq_some.mp hf
        exact Or.inr (Or.inr ⟨d, _, hx, hR err (hb.copies target _ hc).2⟩)
      -- A document goes on only when all its copies are done, and a done copy stands.
      | took jobs' result' hd' hl' hdone =>
        rw [hd] at hd'
        cases hd'
        have hst := of_decide_eq_true (List.all_eq_true.mp hdone q hm)
        exact Or.inl (stands_step h hl hq (Or.inl hst))
      | scanned shared outcome hd' hsc => rw [hd] at hd'; cases hd'
      | saved l result' store files hl' hd' => rw [hd] at hd'; cases hd'
      | unsaved l result' err hl' hd' => rw [hd] at hd'; cases hd'
  · exact Or.inr (Or.inr ⟨d, err, raised_step h hd, he⟩)

theorem Bound.run {b es b' q} {i : Nat} (h : Execution (Undisturbed T) b es b') (hb : Sound T b)
    (hq : T q) (hR : Covers R) (hi : b.Bound R i q) : b'.Bound R i q := by
  induction h with
  | nil => exact hi
  | cons hs hl _ ih => exact ih (hb.step hs hl) (hi.step hs hl hb hq hR)

/-- A document that is bound to a failed copy has failed, or can only fail. -/
theorem Bound.failed {b : Batch} {q : Path} {e : FileError} {i : Nat} (hi : b.Bound R i q)
    (hq : b.shared.stateOf q = some (.failed e)) :
    b.FailedWith R i ∨
      b.Awaits i q ∧ b.step (.fail i q) = some (b.setPhase i (.raised (.file e))) := by
  rcases hi with (hs | ⟨hs, -⟩) | ⟨d, jobs, result, hd, hm⟩ | hf
  · rw [hs] at hq
    cases hq
  · rw [hs] at hq
    cases hq
  · exact Or.inr ⟨⟨d, jobs, result, hd, hm⟩, step_complete (.fail b i q d jobs result e hd hm hq)⟩
  · exact Or.inl hf

/-! ## What a scan binds a document to -/

theorem docs_scan {b b' : Batch} {i : Nat} {d : Draft} {shared : Shared}
    {outcome : Except PublishError (List Path × Localized)} (h : Step b (.scan i) b')
    (hd : b.docs[i]? = some (d, .waiting))
    (hs : Asset.scan b.publisher b.files b.now d b.shared = (shared, outcome)) :
    b'.docs[i]? = some (d, .afterScan outcome) := by
  rw [step_unique h (.scan b i d shared outcome hd hs)]
  exact docs_setPhase.mpr (Or.inl ⟨rfl, rfl, _, hd⟩)

theorem scan_refused {p : Publisher} {t : Tree} {now : String} {d : Draft} {s : Shared}
    {before after : List String} {raw : String} {f : Find} {e : FileError}
    (hr : toScan d = before ++ raw :: after)
    (hb : (scanAll p t now d.path ⟨s, [], []⟩ before).2 = none)
    (hf : p.find t d.path raw = .ok (some f)) (hq : s.stateOf f.asset.target = some (.failed e)) :
    ∃ s', Asset.scan p t now d s = (s', .error (.file e)) := by
  have hs : Scans p t now d.path ⟨s, [], []⟩ before _ _ := scans_scanAll _ _
  have hkept := hs.grows.kept f.asset.target _ hq (by simp)
  have hfail : (scanAll p t now d.path ⟨s, [], []⟩ (toScan d)).2 = some (.file e) := by
    rw [hr, hs.append hb]
    exact scanAll_of_failed hf (by rw [Shared.stateOf, hkept]; exact hq) after
  unfold Asset.scan
  generalize scanAll p t now d.path ⟨s, [], []⟩ (toScan d) = r at hfail
  obtain ⟨sc, o⟩ := r
  cases hfail
  exact ⟨_, rfl⟩

theorem scan_jobs {p : Publisher} {t : Tree} {now : String} {d : Draft} {s s' : Shared}
    {jobs : List Path} {result : Localized}
    (h : Asset.scan p t now d s = (s', .ok (jobs, result))) : ∀ q ∈ jobs, Active s' q := by
  obtain ⟨-, -, sc, hscans, rfl, rfl⟩ := scan_ok h
  exact hscans.jobs_active (by simp)

theorem Sound.known {b : Batch} {q : Path} (hb : Sound T b) (hq : b.shared.stateOf q ≠ none) :
    T q := by
  obtain ⟨state, hs⟩ := Option.ne_none_iff_exists'.mp hq
  obtain ⟨source, hc⟩ := Shared.stateOf_eq_some.mp hs
  exact (hb.copies q _ hc).1

theorem ReliesOn.bound {b b' : Batch} {q : Path} {i : Nat} (h : Step b (.scan i) b')
    (hl : Undisturbed T b (.scan i) b') (hb : Sound T b) (hr : b.ReliesOn i q) :
    T q ∧ b'.Bound PublishError.IsSystem i q := by
  cases hr with
  | awaited d shared jobs result hd hs hq =>
    have hx := docs_scan h hd hs
    have ha : Active b'.shared q := by
      rw [step_unique h (.scan b i d shared _ hd hs)]
      exact scan_jobs hs q hq
    refine ⟨(hb.step h hl).known ?_, Or.inr (Or.inl ⟨d, jobs, result, hx, hq⟩)⟩
    rcases ha with ha | ha <;> simp [ha]
  | refused d before raw after f e hd hrefs hbefore hf ht hq =>
    subst ht
    obtain ⟨s', hs⟩ := scan_refused hrefs hbefore hf hq
    obtain ⟨source, hc⟩ := Shared.stateOf_eq_some.mp hq
    obtain ⟨hT, hp⟩ := hb.copies _ _ hc
    exact ⟨hT, Or.inr (Or.inr ⟨d, _, docs_scan h hd hs, hp⟩)⟩

theorem LeadsTo.bound {b b' : Batch} {q : Path} {i : Nat} (h : Step b (.scan i) b')
    (hl : Undisturbed T b (.scan i) b') (hr : b.LeadsTo i q) :
    T q ∧ b'.Bound (fun _ => True) i q := by
  obtain ⟨d, raw, f, hd, hraw, hf, rfl⟩ := hr
  refine ⟨hl.known i d _ raw f rfl hd hraw hf, ?_⟩
  cases hs : Asset.scan b.publisher b.files b.now d b.shared with
  | mk shared outcome =>
    have hx := docs_scan h hd hs
    cases outcome with
    | error e => exact Or.inr (Or.inr ⟨d, e, hx, trivial⟩)
    | ok r =>
      obtain ⟨jobs, result⟩ := r
      rw [step_unique h (.scan b i d shared _ hd hs)] at hx ⊢
      obtain ⟨hm, rfl, sc, hscans, rfl, rfl⟩ := scan_ok hs
      rw [toScan, hm, Option.getD_none] at hraw
      obtain ⟨-, r, hr, hseen⟩ := hscans.complete rfl hraw
      rw [hf] at hr
      cases hr
      rcases hseen f rfl with hj | hst
      · exact Or.inr (Or.inl ⟨d, sc.jobs, _, hx, hj⟩)
      · exact Or.inl hst

/-! ## Documents that share copies -/

/-- What documents that are published side by side can count on, whatever the order of events. -/
structure SharesCopies (b₀ : Batch) (es : List Event) (b : Batch) : Prop where
  once : ∀ q, es.countP (Event.isStart q) ≤ 1
  whole : ∀ (i : Nat) d result, b.docs[i]? = some (d, Phase.returned result) →
    ∀ a ∈ result.assets,
      ∃ bytes, b.files.readBytes a.target = .ok bytes ∧ Sha1.hexDigest bytes = a.hash
  /-- A document that relies on a copy that failed has failed, or waits and can fail at once. -/
  fails : ∀ es₁ (i : Nat) es₂ b₁ q e, es = es₁ ++ .scan i :: es₂ → b₀.after es₁ = some b₁ →
    b₁.ReliesOn i q → b.shared.stateOf q = some (.failed e) →
      b.FailedWith PublishError.IsSystem i ∨
        b.Awaits i q ∧ b.step (.fail i q) = some (b.setPhase i (.raised (.file e)))
  /-- No document returns that had a reference to the target of a copy that failed. -/
  unreturned : ∀ es₁ (i : Nat) es₂ b₁ q e, es = es₁ ++ .scan i :: es₂ → b₀.after es₁ = some b₁ →
    b₁.LeadsTo i q → b.shared.stateOf q = some (.failed e) →
      b.FailedWith (fun _ => True) i ∨
        b.Awaits i q ∧ b.step (.fail i q) = some (b.setPhase i (.raised (.file e)))

/-- In every order of events, documents of a localizer without copies share them safely, where
only whole files stand at the targets at first. -/
theorem shared_copies_are_safe (T : Path → Prop) (p : Publisher) (ledger : Ledger) (now : String)
    (files : Tree) (store : Store) (drafts : List Draft) (es : List Event) (b : Batch)
    (hp : ∀ d ∈ drafts, d.path.WellFormed)
    (hw : ∀ q, T q → files.pathExists q = .ok true → Whole files q)
    (h : Execution (Undisturbed T) ((Localizer.start p ledger).batch now files store drafts) es b) :
    SharesCopies ((Localizer.start p ledger).batch now files store drafts) es b := by
  have hstart := @sound_start T p ledger now files store drafts hp hw
  have hend := hstart.run h
  refine ⟨starts_le_one h, ?_, ?_, ?_⟩
  · intro i d result hd a ha
    exact hend.whole (hend.ended i d result hd a ha)
  · intro es₁ i es₂ b₁ q e he h₁ hr hq
    subst he
    obtain ⟨u, hv, hs, hl, hrest⟩ := h.at_scan h₁
    have hb₁ := hstart.run hv
    obtain ⟨hT, hbound⟩ := hr.bound hs hl hb₁
    exact (hbound.run hrest (hb₁.step hs hl) hT fun _ he => he).failed hq
  · intro es₁ i es₂ b₁ q e he h₁ hr hq
    subst he
    obtain ⟨u, hv, hs, hl, hrest⟩ := h.at_scan h₁
    obtain ⟨hT, hbound⟩ := hr.bound hs hl
    exact (hbound.run hrest ((hstart.run hv).step hs hl) hT fun _ _ => trivial).failed hq

section Sample

def sampleDrafts : List Draft := [sampleDraft "a.md" ["m.mp4"], sampleDraft "b.md" ["n.mp4"]]

def sampleStart : Batch :=
  (Localizer.start {} []).batch "2024" sampleFiles (.memory [] 0) sampleDrafts

/-- The first document returns. The second waits for a copy that leaves half a file and fails. -/
def sampleEvents : List Event :=
  let wholeM := sampleFiles.put sampleM.parts (.file (.bytes [1, 2, 3]))
  let halfN := wholeM.put sampleN.parts (.file (.bytes [4]))
  [.scan 0, .start sampleM, .scan 1, .settle sampleM wholeM none, .start sampleN, .take 0,
    .settle sampleN halfN (some ⟨.missing, sampleN⟩), .save (.ok (.memory [] 1, halfN)),
    .fail 1 sampleN]

def sampleEnded (b : Batch) : Bool :=
  match b.results with
  | [some (.ok result), some (.error (.file e))] => result.assets.length = 1 && e.cause = .missing
  | _ => false

theorem sample_run : ∃ b, Execution (Undisturbed (· ∈ [sampleM, sampleN])) sampleStart
    sampleEvents b ∧ sampleEnded b := by
  have h : (checked (isUndisturbed [sampleM, sampleN]) sampleStart sampleEvents).any
      sampleEnded = true := by
    decide +kernel
  obtain ⟨b, hb, hend⟩ := (Option.any_eq_true _ _).mp h
  exact ⟨b, execution_of_checked undisturbed_of_check hb, hend⟩

theorem shared_copies_sample : ∃ b, SharesCopies sampleStart sampleEvents b ∧ sampleEnded b := by
  obtain ⟨b, hrun, hend⟩ := sample_run
  have hp : ∀ d ∈ sampleDrafts, d.path.WellFormed := by
    intro d hd
    simp only [sampleDrafts, List.mem_cons, List.not_mem_nil, or_false] at hd
    rcases hd with rfl | rfl
    · exact Path.wellFormed_ofString "a.md"
    · exact Path.wellFormed_ofString "b.md"
  have hw : ∀ q ∈ [sampleM, sampleN], sampleFiles.pathExists q = .ok true →
      Whole sampleFiles q := by
    decide +kernel
  exact ⟨b, shared_copies_are_safe _ _ _ _ _ _ _ _ _ hp hw hrun, hend⟩

end Sample

end Batch

end DocumentMedia.Asset
