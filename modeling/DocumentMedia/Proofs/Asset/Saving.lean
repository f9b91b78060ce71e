import DocumentMedia.Proofs.Asset.Reliance
import DocumentMedia.Proofs.Ledger.Store

/-! # Saves of the shared ledger

All documents add to one ledger while snapshots of it are being saved. One document saves at a
time, so what is saved only grows, and the last snapshot holds the entries of all documents. -/
namespace DocumentMedia.Asset

open DocumentMedia.Files
open Shared (Active)
open DocumentMedia.Ledger (Store StoreError load_of_save)

def Phase.Unsaved : Phase → Prop
  | .saving _ | .returned _ => False
  | .waiting | .copying .. | .raised _ => True

def Phase.isReturned : Phase → Bool
  | .returned _ => true
  | _ => false

namespace Batch

variable {L : Batch → Event → Batch → Prop}

/-! ## One save at a time -/

/-- The ways in which an event changes who saves. -/
inductive Passes (b : Batch) : Event → Option (Nat × Ledger) → Prop where
  | taken (i) (hl : b.saving = none) : Passes b (.take i) (some (i, b.shared.ledger))
  | released (outcome) : Passes b (.save outcome) none

theorem saving_step {b e b'} (h : Step b e b') :
    (b'.saving = b.saving ∧ (∀ i, e ≠ .take i) ∧ ∀ o, e ≠ .save o) ∨ Passes b e b'.saving := by
  cases h with
  | take i d jobs result hd hl hj => exact Or.inr (.taken i hl)
  | save => exact Or.inr (.released _)
  | unsaved => exact Or.inr (.released _)
  | _ => exact Or.inl ⟨rfl, by simp, by simp⟩

/-- Who saves is in its saving phase, and nobody else is. -/
structure Exclusive (b : Batch) : Prop where
  saver : ∀ (i : Nat) l, b.saving = some (i, l) →
    ∃ d result, b.docs[i]? = some (d, Phase.saving result)
  single : ∀ (i : Nat) d result, b.docs[i]? = some (d, Phase.saving result) →
    ∃ l, b.saving = some (i, l)

theorem saver_step {b e b'} (h : Step b e b') (hb : Exclusive b) :
    ∀ (i : Nat) l, b'.saving = some (i, l) →
      ∃ d result, b'.docs[i]? = some (d, Phase.saving result) := by
  intro i l hi
  rcases saving_step h with ⟨hs, -, hsave⟩ | hp
  · obtain ⟨d, result, hd⟩ := hb.saver i l (hs ▸ hi)
    rcases docs_next h hd with hx | ⟨ph, -, hm⟩
    · exact ⟨d, result, hx⟩
    · cases hm with
      | saved => exact absurd rfl (hsave _)
      | unsaved => exact absurd rfl (hsave _)
      | scanned _ _ hd' => rw [hd] at hd'; cases hd'
      | failed _ _ _ _ hd' => rw [hd] at hd'; cases hd'
      | took _ _ hd' => rw [hd] at hd'; cases hd'
  · rw [hi] at hp
    generalize ho : some (i, l) = o at hp
    cases hp with
    | released => cases ho
    | taken j hl =>
      cases ho
      cases h with
      | take j d jobs result hd _ _ =>
        exact ⟨d, result, docs_setPhase.mpr (Or.inl ⟨rfl, rfl, _, hd⟩)⟩

theorem single_step {b e b'} (h : Step b e b') (hb : Exclusive b) :
    ∀ (i : Nat) d result, b'.docs[i]? = some (d, Phase.saving result) →
      ∃ l, b'.saving = some (i, l) := by
  intro i d result hi
  rcases docs_step h hi with hold | hm
  · obtain ⟨l, hl⟩ := hb.single i d result hold
    rcases saving_step h with ⟨hs, -⟩ | hp
    · exact ⟨l, hs.trans hl⟩
    · cases h with
      | take j _ _ _ _ hl' => rw [hl] at hl'; cases hl'
      | save j l' d' result' store files hl' hd' =>
        rw [hl] at hl'
        cases hl'
        rcases docs_setPhase.mp hi with ⟨-, hph, -⟩ | ⟨hne, -⟩
        · cases hph
        · exact absurd rfl hne
      | unsaved j l' d' result' err hl' hd' =>
        rw [hl] at hl'
        cases hl'
        rcases docs_setPhase.mp hi with ⟨-, hph, -⟩ | ⟨hne, -⟩
        · cases hph
        · exact absurd rfl hne
      | _ => cases hp
  · generalize hph : Phase.saving result = ph at hm
    cases hm with
    | scanned shared outcome => cases outcome <;> cases hph
    | took jobs result' hd hl hj =>
      cases h
      exact ⟨_, rfl⟩
    | _ => cases hph

theorem Exclusive.step {b e b'} (h : Step b e b') (hb : Exclusive b) : Exclusive b' :=
  ⟨saver_step h hb, single_step h hb⟩

theorem exclusive_start (l : Localizer) (now : String) (files : Tree) (store : Store)
    (drafts : List Draft) : Exclusive (l.batch now files store drafts) where
  saver i l hl := by cases hl
  single i d result hd := by cases (docs_batch hd).2

theorem Exclusive.run {b es b'} (h : Execution L b es b') (hb : Exclusive b) : Exclusive b' :=
  h.invariant hb fun hs _ => Exclusive.step hs

/-! ## Snapshots -/

/-- The save that an event ends: who saves, and what. -/
def savedBy (b : Batch) : Event → List (Nat × Ledger)
  | .save _ => b.saving.toList
  | _ => []

/-- The saves of an execution, in turn. -/
def saves : Batch → List Event → List (Nat × Ledger)
  | _, [] => []
  | b, e :: es =>
    match b.step e with
    | some u => b.savedBy e ++ saves u es
    | none => []

theorem saves_cons {b e u} (h : Step b e u) (es : List Event) :
    saves b (e :: es) = b.savedBy e ++ saves u es := by
  simp only [saves, step_complete h]

theorem hashes_step {b e b'} (h : Step b e b') {x : String} (hx : x ∈ b.shared.hashes) :
    x ∈ b'.shared.hashes := by
  cases h with
  | scan i d shared outcome hd hsc =>
    obtain ⟨sc, o, hscans, rfl, -⟩ := scan_cases hsc
    exact (hscans.hashes x).1 hx
  | start => simpa [Shared.hashes] using hx
  | settle => simpa [Shared.hashes] using hx
  | _ => exact hx

/-- The hashes that the next snapshot has at least. -/
def floor (b : Batch) : List String :=
  match b.saving with
  | some (_, l) => Assoc.keys l
  | none => b.shared.hashes

theorem floor_of_saving {b : Batch} {i : Nat} {l : Ledger} (h : b.saving = some (i, l)) :
    b.floor = Assoc.keys l := by
  rw [floor, h]

theorem floor_of_none {b : Batch} (h : b.saving = none) : b.floor = b.shared.hashes := by
  rw [floor, h]

/-- A snapshot that is being saved was taken from the ledger. -/
def Behind (b : Batch) : Prop := ∀ x ∈ b.floor, x ∈ b.shared.hashes

theorem floor_step {b e b'} (h : Step b e b') (hb : Behind b) :
    (∀ x ∈ b.floor, x ∈ b'.floor) ∧ Behind b' := by
  rcases saving_step h with ⟨hs, -⟩ | hp
  · cases hl : b.saving with
    | none =>
      rw [hl] at hs
      rw [floor_of_none hl, Behind, floor_of_none hs]
      exact ⟨fun x hx => hashes_step h hx, fun x hx => hx⟩
    | some r =>
      obtain ⟨i, l⟩ := r
      rw [hl] at hs
      rw [Behind, floor_of_saving hl] at hb
      rw [floor_of_saving hl, Behind, floor_of_saving hs]
      exact ⟨fun x hx => hx, fun x hx => hashes_step h (hb x hx)⟩
  · generalize ho : b'.saving = o at hp
    cases hp with
    | taken i hl =>
      rw [floor_of_none hl, Behind, floor_of_saving ho]
      exact ⟨fun x hx => hx, fun x hx => hashes_step h hx⟩
    | released outcome =>
      rw [Behind, floor_of_none ho]
      exact ⟨fun x hx => hashes_step h (hb x hx), fun x hx => hx⟩

/-- Snapshots that only grow, between two lists of hashes. -/
structure Ascends (low : List String) (ss : List (Nat × Ledger)) (high : List String) : Prop where
  ends : low ⊆ high
  within : ∀ r ∈ ss, low ⊆ Assoc.keys r.2 ∧ Assoc.keys r.2 ⊆ high
  growing : ss.Pairwise fun r r' => Assoc.keys r.2 ⊆ Assoc.keys r'.2

theorem Ascends.append {low mid high : List String} {ss ss' : List (Nat × Ledger)}
    (h : Ascends low ss mid) (k : Ascends mid ss' high) : Ascends low (ss ++ ss') high where
  ends := List.Subset.trans h.ends k.ends
  within r hr := by
    rcases List.mem_append.mp hr with hr | hr
    · exact ⟨(h.within r hr).1, List.Subset.trans (h.within r hr).2 k.ends⟩
    · exact ⟨List.Subset.trans h.ends (k.within r hr).1, (k.within r hr).2⟩
  growing := List.pairwise_append.mpr ⟨h.growing, k.growing, fun r hr r' hr' =>
    List.Subset.trans (h.within r hr).2 (k.within r' hr').1⟩

theorem Ascends.nil {low high : List String} (h : low ⊆ high) : Ascends low [] high :=
  ⟨h, by simp, .nil⟩

/-- Snapshots only grow, from the floor before them to the floor after them. -/
theorem saves_ascend {b es b'} (h : Execution L b es b') (hb : Behind b) :
    Ascends b.floor (saves b es) b'.floor ∧ Behind b' := by
  induction h with
  | nil b => exact ⟨.nil (List.Subset.refl _), hb⟩
  | @cons b e u es b' hs _ _ ih =>
    obtain ⟨hfloor, hu⟩ := floor_step hs hb
    obtain ⟨hrest, hbehind⟩ := ih hu
    refine ⟨?_, hbehind⟩
    rw [saves_cons hs]
    refine Ascends.append ⟨hfloor, ?_, ?_⟩ hrest
    · intro r hr
      cases e with
      | save outcome =>
        have hl := Option.mem_toList.mp hr
        rw [floor_of_saving hl] at hfloor ⊢
        exact ⟨List.Subset.refl _, hfloor⟩
      | _ => cases hr
    · cases e with
      | save outcome => rw [savedBy]; cases b.saving <;> simp
      | _ => exact .nil

/-! ## Saves of each document -/

/-- Copies and saves succeed. -/
structure Succeeds (b : Batch) (e : Event) (b' : Batch) : Prop where
  copied : ∀ q files failure, e = .settle q files failure → failure = none
  saved : ∀ outcome i l, e = .save outcome → b.saving = some (i, l) →
    ∃ r, outcome = .ok r ∧ b.store.save b.files l = .ok r

def returnedCount (b : Batch) (i : Nat) : Nat :=
  match b.docs[i]? with
  | some (_, .returned _) => 1
  | _ => 0

theorem returnedCount_of_docs {b : Batch} {i : Nat} {d : Draft} {ph : Phase}
    (h : b.docs[i]? = some (d, ph)) : b.returnedCount i = if ph.isReturned then 1 else 0 := by
  rw [returnedCount, h]
  cases ph <;> rfl

theorem returnedCount_setPhase {b u : Batch} {i j : Nat} {d : Draft} {old ph : Phase}
    (hd : b.docs[j]? = some (d, old)) (hu : u.docs = (b.setPhase j ph).docs) :
    u.returnedCount i = if j = i then (if ph.isReturned then 1 else 0) else b.returnedCount i := by
  split
  · next hj =>
    subst hj
    apply returnedCount_of_docs (d := d)
    rw [hu]
    exact docs_setPhase.mpr (Or.inl ⟨rfl, rfl, old, hd⟩)
  · next hj =>
    have hsame : u.docs[i]? = b.docs[i]? := by
      rw [hu]
      simp [setPhase, hj]
    rw [returnedCount, returnedCount, hsame]

/-- A document that is saved by an event returns, and no other document does. -/
theorem returnedCount_step {b e u} (h : Step b e u) (hl : Succeeds b e u) (i : Nat) :
    b.returnedCount i + (b.savedBy e).countP (fun r => r.1 = i) = u.returnedCount i := by
  have kept : ∀ {j : Nat} {d : Draft} {old ph : Phase}, b.docs[j]? = some (d, old) →
      u.docs = (b.setPhase j ph).docs → old.isReturned = ph.isReturned →
      b.returnedCount i = u.returnedCount i := by
    intro j d old ph hd hu hph
    rw [returnedCount_setPhase hd hu]
    split
    · next hj => rw [← hj, returnedCount_of_docs hd, hph]
    · rfl
  cases h with
  | scan j d shared outcome hd hsc => exact kept hd rfl (by cases outcome <;> rfl)
  | fail j target d jobs result e hd => exact kept hd rfl rfl
  | take j d jobs result hd => exact kept hd rfl rfl
  | save j l d result store files hs hd =>
    rw [savedBy, hs]
    refine Eq.trans ?_ (returnedCount_setPhase hd rfl).symm
    by_cases hj : j = i
    · subst hj
      rw [returnedCount_of_docs hd]
      simp [Phase.isReturned]
    · simp [hj]
  | unsaved j l d result e hs hd =>
    obtain ⟨r, hr, -⟩ := hl.saved _ j l rfl hs
    cases hr
  | _ => rfl

theorem count_saves {b es b'} (h : Execution Succeeds b es b') (i : Nat) :
    b.returnedCount i + (saves b es).countP (fun r => r.1 = i) = b'.returnedCount i := by
  induction h with
  | nil => rfl
  | cons hs hl _ ih =>
    rw [saves_cons hs, List.countP_append, ← ih, ← returnedCount_step hs hl i, Nat.add_assoc]

/-! ## What the ledger lists -/

def Raised (b : Batch) : Prop := ∃ (i : Nat) (d : Draft) (e : PublishError),
  b.docs[i]? = some (d, .raised e)

def Unsaved (b : Batch) : Prop := ∃ (i : Nat) (d : Draft) (ph : Phase),
  b.docs[i]? = some (d, ph) ∧ ph.Unsaved

/-- Some document whose scan did not fail has an asset of a hash. -/
def Notes (b : Batch) (x : String) : Prop :=
  ∃ (i : Nat) (d : Draft) (ph : Phase) (result : Localized),
    b.docs[i]? = some (d, ph) ∧ ph.result? = some result ∧ ∃ a ∈ result.assets, a.hash = x

theorem Raised.unsaved {b : Batch} (h : b.Raised) : b.Unsaved := by
  obtain ⟨i, d, e, hd⟩ := h
  exact ⟨i, d, _, hd, trivial⟩

theorem Raised.step {b e b'} (h : Step b e b') (hb : b.Raised) : b'.Raised := by
  obtain ⟨i, d, err, hd⟩ := hb
  exact ⟨i, d, err, raised_step h hd⟩

theorem Unsaved.step {b e b'} (h : Step b e b') (he : ∀ i, e ≠ .take i) (hb : b.Unsaved) :
    b'.Unsaved := by
  obtain ⟨i, d, ph, hd, hph⟩ := hb
  rcases docs_next h hd with hx | ⟨ph', hx, hm⟩
  · exact ⟨i, d, ph, hx, hph⟩
  · refine ⟨i, d, ph', hx, ?_⟩
    cases hm with
    | scanned shared outcome => cases outcome <;> trivial
    | failed => trivial
    | took => exact absurd rfl (he i)
    | saved l result store files hl hd' => rw [hd] at hd'; cases hd'; exact hph
    | unsaved => trivial

theorem Notes.step {b e b' x} (h : Step b e b') (hb : b.Notes x) : b'.Notes x ∨ b'.Raised := by
  obtain ⟨i, d, ph, result, hd, hr, ha⟩ := hb
  rcases docs_next h hd with hx | ⟨ph', hx, hm⟩
  · exact Or.inl ⟨i, d, ph, result, hx, hr, ha⟩
  · cases hm with
    | scanned shared outcome hd' => rw [hd] at hd'; cases hd'; cases hr
    | failed target jobs result' err => exact Or.inr ⟨i, d, _, hx⟩
    | took jobs result' hd' =>
      rw [hd] at hd'
      cases hd'
      exact Or.inl ⟨i, d, _, result, hx, hr, ha⟩
    | saved l result' store files hl hd' =>
      rw [hd] at hd'
      cases hd'
      exact Or.inl ⟨i, d, _, result, hx, hr, ha⟩
    | unsaved l result' err => exact Or.inr ⟨i, d, _, hx⟩

theorem hashes_scan {b : Batch} {d : Draft} {shared : Shared} {jobs : List Path}
    {result : Localized} (h : Asset.scan b.publisher b.files b.now d b.shared =
      (shared, .ok (jobs, result))) (x : String) :
    x ∈ shared.hashes ↔ x ∈ b.shared.hashes ∨ ∃ a ∈ result.assets, a.hash = x := by
  obtain ⟨-, rfl, sc, hscans, rfl, -⟩ := scan_ok h
  rw [(hscans.hashes x).2 rfl]
  have hassets : (∃ raw ∈ references d, ∃ f, b.publisher.find b.files d.path raw = .ok (some f) ∧
      f.asset.hash = x) ↔ ∃ a ∈ (relink (b.publisher.publish b.files d.path) d).assets,
        a.hash = x := by
    simp only [relink, List.mem_filterMap, Publisher.publish_eq_some]
    constructor
    · rintro ⟨raw, hraw, f, hf, hx⟩
      exact ⟨f.asset, ⟨raw, hraw, f, hf, rfl⟩, hx⟩
    · rintro ⟨_, ⟨raw, hraw, f, hf, rfl⟩, hx⟩
      exact ⟨raw, hraw, f, hf, hx⟩
  rw [hassets]

/-- What a batch says about the ledger with which it began, the one that it has and the one that is
stored. -/
structure Kept (base : List String) (b : Batch) : Prop where
  distinct : b.shared.hashes.Nodup
  active : ∀ q, Active b.shared q → (∃ i, b.Awaits i q) ∨ b.Raised
  old : ∀ x ∈ base, x ∈ b.shared.hashes
  listed : ∀ x, b.Notes x → x ∈ b.shared.hashes
  known : ∀ x ∈ b.shared.hashes, x ∈ base ∨ b.Notes x ∨ b.Raised
  snapshot : ∀ i l, b.saving = some (i, l) →
    (Assoc.keys l).Nodup ∧ (l = b.shared.ledger ∨ b.Unsaved)
  stored : (∃ (i : Nat) (d : Draft) (result : Localized),
      b.docs[i]? = some (d, Phase.returned result)) →
    ¬ b.Unsaved → b.saving = none → ∀ now, b.store.load b.files now = .ok b.shared.ledger

variable {base : List String}

theorem distinct_step {b e b'} (h : Step b e b') (hb : b.shared.hashes.Nodup) :
    b'.shared.hashes.Nodup := by
  cases h with
  | scan i d shared outcome hd hsc =>
    obtain ⟨sc, o, hscans, rfl, -⟩ := scan_cases hsc
    exact hscans.nodup hb
  | start => simpa [Shared.hashes] using hb
  | settle => simpa [Shared.hashes] using hb
  | _ => exact hb

theorem Awaits.setPhase {b b' : Batch} {i j : Nat} {q : Path} {ph : Phase} (h : b.Awaits i q)
    (hd : b'.docs = (b.setPhase j ph).docs) (hj : i ≠ j) : b'.Awaits i q := by
  obtain ⟨d, jobs, result, hx, hq⟩ := h
  refine ⟨d, jobs, result, ?_, hq⟩
  rw [hd]
  exact docs_setPhase.mpr (Or.inr ⟨hj, hx⟩)

theorem active_setState {s : Shared} {target q : Path} {state : CopyState}
    (hq : Active (s.setState target state) q) (hs : s.stateOf target = some .scheduled ∨
      s.stateOf target = some .running) : Active s q := by
  by_cases he : target = q
  · subst he
    exact hs
  · simpa [Active, Shared.stateOf_setState, he] using hq

/-- A copy under way is still awaited after a document moved that did not wait for it. -/
theorem awaited_step {b e b'} (h : Step b e b') (hb : Kept base b) {j : Nat} {d : Draft}
    {old ph : Phase} {q : Path} (hq : Active b.shared q) (hd : b'.docs = (b.setPhase j ph).docs)
    (hj : b.docs[j]? = some (d, old))
    (hold : ∀ jobs result, old = .copying jobs result → q ∉ jobs) :
    (∃ i, b'.Awaits i q) ∨ b'.Raised := by
  rcases hb.active q hq with ⟨i, hw⟩ | hr
  · refine Or.inl ⟨i, hw.setPhase hd ?_⟩
    rintro rfl
    obtain ⟨d', jobs, result, hx, hm⟩ := hw
    rw [hj] at hx
    cases hx
    exact hold jobs result rfl hm
  · exact Or.inr (hr.step h)

theorem active_step {b e b'} (h : Step b e b') (hb : Kept base b) :
    ∀ q, Active b'.shared q → (∃ i, b'.Awaits i q) ∨ b'.Raised := by
  intro q hq
  have pass : Active b.shared q → b'.docs = b.docs → (∃ i, b'.Awaits i q) ∨ b'.Raised := by
    intro ha hd
    simpa only [Awaits, Raised, hd] using hb.active q ha
  have step := h
  cases h with
  | scan i d shared outcome hd hsc =>
    cases outcome with
    | error e => exact Or.inr ⟨i, d, e, docs_setPhase.mpr (Or.inl ⟨rfl, rfl, _, hd⟩)⟩
    | ok r =>
      obtain ⟨jobs, result⟩ := r
      obtain ⟨-, -, sc, hscans, rfl, rfl⟩ := scan_ok hsc
      rcases hscans.active_jobs rfl hq with ha | hj
      · exact awaited_step step hb ha rfl hd (by simp)
      · exact Or.inl ⟨i, d, sc.jobs, result, docs_setPhase.mpr (Or.inl ⟨rfl, rfl, _, hd⟩), hj⟩
  | start target hst => exact pass (active_setState hq (Or.inl hst)) rfl
  | settle target files failure hst => exact pass (active_setState hq (Or.inr hst)) rfl
  | fail i target d jobs result e hd =>
    exact Or.inr ⟨i, d, _, docs_setPhase.mpr (Or.inl ⟨rfl, rfl, _, hd⟩)⟩
  | take i d jobs result hd hl hdone =>
    refine awaited_step step hb hq rfl hd ?_
    intro jobs' result' he hm
    cases he
    have hst := of_decide_eq_true (List.all_eq_true.mp hdone q hm)
    rcases hq with hq | hq
    · exact absurd (hst.symm.trans hq) (by simp)
    · exact absurd (hst.symm.trans hq) (by simp)
  | save i l d result store files hs hd => exact awaited_step step hb hq rfl hd (by simp)
  | unsaved i l d result e hs hd => exact awaited_step step hb hq rfl hd (by simp)
  | tick => exact pass hq rfl
  | write => exact pass hq rfl

theorem listed_step {b e b'} (h : Step b e b') (hb : Kept base b) :
    ∀ x, b'.Notes x → x ∈ b'.shared.hashes := by
  rintro x ⟨i, d, ph, result, hx, hr, ha⟩
  have before : ∀ {ph' : Phase}, b.docs[i]? = some (d, ph') → ph'.result? = some result →
      x ∈ b'.shared.hashes := fun hd hr' =>
    hashes_step h (hb.listed x ⟨i, d, _, result, hd, hr', ha⟩)
  rcases docs_step h hx with hold | hm
  · exact before hold hr
  · rcases hm.result hr with ⟨ph', hd, hr'⟩ | ⟨rfl, hd, shared, jobs, hsc⟩
    · exact before hd hr'
    · rw [step_unique h (.scan b i d shared _ hd hsc)]
      exact (hashes_scan hsc x).mpr (Or.inr ha)

theorem known_step {b e b'} (h : Step b e b') (hb : Kept base b) :
    ∀ x ∈ b'.shared.hashes, x ∈ base ∨ b'.Notes x ∨ b'.Raised := by
  intro x hx
  have kept : x ∈ b.shared.hashes → x ∈ base ∨ b'.Notes x ∨ b'.Raised := by
    intro hx
    rcases hb.known x hx with hbase | hn | hr
    · exact Or.inl hbase
    · exact Or.inr (hn.step h)
    · exact Or.inr (Or.inr (hr.step h))
  cases h with
  | scan i d shared outcome hd hsc =>
    have hdoc := docs_scan (.scan b i d shared outcome hd hsc) hd hsc
    cases outcome with
    | error e => exact Or.inr (Or.inr ⟨i, d, e, hdoc⟩)
    | ok r =>
      obtain ⟨jobs, result⟩ := r
      rcases (hashes_scan hsc x).mp hx with hx | ha
      · exact kept hx
      · exact Or.inr (Or.inl ⟨i, d, _, result, hdoc, rfl, ha⟩)
  | start => exact kept (by simpa [Shared.hashes] using hx)
  | settle => exact kept (by simpa [Shared.hashes] using hx)
  | _ => exact kept hx

theorem ledger_step {b e b'} (h : Step b e b') :
    b'.shared.ledger = b.shared.ledger ∨ b'.Unsaved := by
  cases h with
  | scan i d shared outcome hd hsc =>
    refine Or.inr ⟨i, d, _, docs_scan (.scan b i d shared outcome hd hsc) hd hsc, ?_⟩
    cases outcome <;> trivial
  | start => exact Or.inl (by simp)
  | settle => exact Or.inl (by simp)
  | _ => exact Or.inl rfl

theorem snapshot_step {b e b'} (h : Step b e b') (hb : Kept base b) :
    ∀ i l, b'.saving = some (i, l) →
      (Assoc.keys l).Nodup ∧ (l = b'.shared.ledger ∨ b'.Unsaved) := by
  intro i l hl
  rcases saving_step h with ⟨hs, htake, -⟩ | hp
  · obtain ⟨hn, hsame | hu⟩ := hb.snapshot i l (hs ▸ hl)
    · refine ⟨hn, ?_⟩
      rcases ledger_step h with hledger | hu
      · exact Or.inl (hsame.trans hledger.symm)
      · exact Or.inr hu
    · exact ⟨hn, Or.inr (hu.step h htake)⟩
  · rw [hl] at hp
    generalize ho : some (i, l) = o at hp
    cases hp with
    | released => cases ho
    | taken j hnone =>
      cases ho
      cases h
      exact ⟨hb.distinct, Or.inl rfl⟩

theorem stored_step {b e b'} (h : Step b e b') (hl : Succeeds b e b') (hb : Kept base b) :
    (∃ (i : Nat) (d : Draft) (result : Localized),
      b'.docs[i]? = some (d, Phase.returned result)) →
    ¬ b'.Unsaved → b'.saving = none → ∀ now, b'.store.load b'.files now = .ok b'.shared.ledger := by
  intro hret hsaved hnone now
  -- When no document has still to save, no copy is under way that could change the files.
  have idle : ∀ q, Active b.shared q → b'.docs = b.docs → False := by
    intro q hq hd
    have hu : b.Unsaved := by
      rcases hb.active q hq with ⟨i, d, jobs, result, hw, -⟩ | hr
      · exact ⟨i, d, _, hw, trivial⟩
      · exact hr.unsaved
    exact hsaved (by simpa only [Unsaved, hd] using hu)
  cases h with
  | tick => exact hb.stored hret hsaved hnone now
  | scan i d shared outcome hd hsc =>
    refine absurd ⟨i, d, _, docs_scan (.scan b i d shared outcome hd hsc) hd hsc, ?_⟩ hsaved
    cases outcome <;> trivial
  | start target hq => exact (idle target (Or.inl hq) rfl).elim
  | write target files hq => exact (idle target (Or.inr hq) rfl).elim
  | settle target files failure hq => exact (idle target (Or.inr hq) rfl).elim
  | fail i target d jobs result e hd =>
    exact absurd ⟨i, d, _, docs_setPhase.mpr (Or.inl ⟨rfl, rfl, _, hd⟩), trivial⟩ hsaved
  | take => cases hnone
  | unsaved i l d result e hs hd =>
    obtain ⟨r, hr, -⟩ := hl.saved _ i l rfl hs
    cases hr
  | save i l d result store files hs hd =>
    obtain ⟨r, hr, hstore⟩ := hl.saved _ i l rfl hs
    cases hr
    obtain ⟨hn, hledger | hu⟩ := hb.snapshot i l hs
    · subst hledger
      exact load_of_save hn hstore now
    · exact absurd (hu.step (.save b i l d result store files hs hd) (by simp)) hsaved

theorem Kept.step {b e b'} (h : Step b e b') (hl : Succeeds b e b') (hb : Kept base b) :
    Kept base b' where
  distinct := distinct_step h hb.distinct
  active := active_step h hb
  old x hbase := hashes_step h (hb.old x hbase)
  listed := listed_step h hb
  known := known_step h hb
  snapshot := snapshot_step h hb
  stored := stored_step h hl hb

theorem kept_start {l : Localizer} (hn : l.shared.hashes.Nodup)
    (ha : ∀ q, ¬ Active l.shared q) (now : String) (files : Tree) (store : Store)
    (drafts : List Draft) : Kept l.shared.hashes (l.batch now files store drafts) where
  distinct := hn
  active q hq := absurd hq (ha q)
  old x hx := hx
  listed := by
    rintro x ⟨i, d, ph, result, hd, hr, -⟩
    rw [(docs_batch hd).2] at hr
    cases hr
  known x hx := Or.inl hx
  snapshot i l' hl := by cases hl
  stored := by
    rintro ⟨i, d, result, hd⟩
    cases (docs_batch hd).2

theorem Kept.run {b es b'} (h : Execution Succeeds b es b') (hb : Kept base b) : Kept base b' :=
  h.invariant hb Kept.step

/-! ## Batches one after another -/

def AllReturned (b : Batch) : Prop := ∀ (i : Nat) d ph, b.docs[i]? = some (d, ph) →
  ∃ result, ph = .returned result

/-- Some document returned an asset of a hash. -/
def Returns (b : Batch) (x : String) : Prop :=
  ∃ (i : Nat) (d : Draft) (result : Localized),
    b.docs[i]? = some (d, .returned result) ∧ ∃ a ∈ result.assets, a.hash = x

theorem AllReturned.not_raised {b : Batch} (h : b.AllReturned) : ¬ b.Raised := by
  rintro ⟨i, d, e, hd⟩
  obtain ⟨result, hr⟩ := h i d _ hd
  cases hr

theorem AllReturned.not_unsaved {b : Batch} (h : b.AllReturned) : ¬ b.Unsaved := by
  rintro ⟨i, d, ph, hd, hph⟩
  obtain ⟨result, rfl⟩ := h i d _ hd
  exact hph

theorem AllReturned.notes_iff {b : Batch} (h : b.AllReturned) (x : String) :
    b.Notes x ↔ b.Returns x := by
  constructor
  · rintro ⟨i, d, ph, result, hd, hr, ha⟩
    obtain ⟨result', rfl⟩ := h i d _ hd
    cases hr
    exact ⟨i, d, _, hd, ha⟩
  · rintro ⟨i, d, result, hd, ha⟩
    exact ⟨i, d, _, result, hd, rfl, ha⟩

theorem AllReturned.hashes_iff {b : Batch} (h : b.AllReturned) (hb : Kept base b) (x : String) :
    x ∈ b.shared.hashes ↔ x ∈ base ∨ b.Returns x := by
  rw [← h.notes_iff]
  constructor
  · intro hx
    rcases hb.known x hx with hbase | hn | hr
    · exact Or.inl hbase
    · exact Or.inr hn
    · exact absurd hr h.not_raised
  · rintro (hbase | hn)
    · exact hb.old x hbase
    · exact hb.listed x hn

theorem AllReturned.idle {b : Batch} (h : b.AllReturned) (hb : Kept base b) (q : Path) :
    ¬ Active b.shared q := by
  intro hq
  rcases hb.active q hq with ⟨i, d, jobs, result, hd, -⟩ | hr
  · obtain ⟨result', he⟩ := h i d _ hd
    cases he
  · exact h.not_raised hr

theorem AllReturned.saving {b : Batch} (h : b.AllReturned) (hx : Exclusive b) :
    b.saving = none := by
  by_contra hs
  obtain ⟨⟨i, l⟩, hl⟩ := Option.ne_none_iff_exists'.mp hs
  obtain ⟨d, result, hd⟩ := hx.saver i l hl
  obtain ⟨result', he⟩ := h i d _ hd
  cases he

end Batch

open Batch

/-- A batch that ran in one event loop. -/
structure Round where
  start : Batch
  events : List Event
  finish : Batch

def Round.saves (r : Round) : List (Nat × Ledger) := Batch.saves r.start r.events

/-- Rounds in which all copies and saves succeed and all documents return. Each begins with what the
one before left in the localizer and the store, at any time and with any files. -/
inductive Rounds : Localizer → Store → List Round → Localizer → Store → Prop where
  | nil (l store) : Rounds l store [] l store
  | cons {l : Localizer} {store now files drafts es b rs l' store'}
      (h : Execution Succeeds (l.batch now files store drafts) es b) (hr : b.AllReturned)
      (rest : Rounds ⟨b.publisher, b.shared⟩ b.store rs l' store') :
      Rounds l store (⟨l.batch now files store drafts, es, b⟩ :: rs) l' store'

/-- What documents can count on about the ledger that they share, whatever the order of events. -/
structure KeepsLedger (ledger : Ledger) (rs : List Round) (r : Round) : Prop where
  /-- At no time two documents save. -/
  exclusive : ∀ r' ∈ rs ++ [r], ∀ es es' b, r'.events = es ++ es' → r'.start.after es = some b →
    ∀ (i j : Nat) d d' result result', b.docs[i]? = some (d, .saving result) →
      b.docs[j]? = some (d', .saving result') → i = j
  growing : (Assoc.keys ledger ::
    ((rs ++ [r]).flatMap Round.saves).map fun s => Assoc.keys s.2).Pairwise (· ⊆ ·)
  once : ∀ r' ∈ rs ++ [r], ∀ (i : Nat) d ph, r'.finish.docs[i]? = some (d, ph) →
    r'.saves.countP (fun s => s.1 = i) = if ph.isReturned then 1 else 0
  stored : r.start.docs ≠ [] → r.finish.AllReturned →
    ∀ now, r.finish.store.load r.finish.files now = .ok r.finish.shared.ledger
  hashes : r.finish.AllReturned → ∀ x, x ∈ Assoc.keys r.finish.shared.ledger ↔
    x ∈ Assoc.keys ledger ∨ ∃ r' ∈ rs ++ [r], r'.finish.Returns x

theorem behind_start (l : Localizer) (now : String) (files : Tree) (store : Store)
    (drafts : List Draft) : Behind (l.batch now files store drafts) :=
  fun _ hx => hx

/-- What holds of one round, whatever came before. -/
theorem round_spec {l : Localizer} {now : String} {files : Tree} {store : Store}
    {drafts : List Draft} {es : List Event} {b : Batch}
    (h : Execution Succeeds (l.batch now files store drafts) es b) :
    (∀ es₁ es₂ b₁, es = es₁ ++ es₂ → (l.batch now files store drafts).after es₁ = some b₁ →
      ∀ (i j : Nat) d d' result result', b₁.docs[i]? = some (d, .saving result) →
        b₁.docs[j]? = some (d', .saving result') → i = j) ∧
    (∀ (i : Nat) d ph, b.docs[i]? = some (d, ph) →
      (Batch.saves (l.batch now files store drafts) es).countP (fun s => s.1 = i) =
        if ph.isReturned then 1 else 0) ∧
    Ascends l.shared.hashes (Batch.saves (l.batch now files store drafts) es) b.floor := by
  refine ⟨?_, ?_, (saves_ascend h (behind_start l now files store drafts)).1⟩
  · rintro es₁ es₂ b₁ rfl h₁ i j d d' result result' hi hj
    obtain ⟨u, hu, -⟩ := h.split
    rw [hu.after] at h₁
    cases h₁
    have hx := (exclusive_start l now files store drafts).run hu
    obtain ⟨s, hs⟩ := hx.single i d result hi
    obtain ⟨s', hs'⟩ := hx.single j d' result' hj
    rw [hs] at hs'
    cases hs'
    rfl
  · intro i d ph hd
    have hcount := count_saves h i
    have hzero : (l.batch now files store drafts).returnedCount i = 0 := by
      unfold returnedCount
      split
      · next d' result hd' => cases (docs_batch hd').2
      · rfl
    rw [hzero, Nat.zero_add, returnedCount_of_docs hd] at hcount
    exact hcount

/-- What rounds leave in a localizer. -/
structure Left (l : Localizer) (rs : List Round) (l' : Localizer) : Prop where
  distinct : l'.shared.hashes.Nodup
  idle : ∀ q, ¬ Active l'.shared q
  hashes : ∀ x, x ∈ l'.shared.hashes ↔ x ∈ l.shared.hashes ∨ ∃ r ∈ rs, r.finish.Returns x
  ascends : Ascends l.shared.hashes (rs.flatMap Round.saves) l'.shared.hashes

theorem rounds_left {l l' : Localizer} {store store' : Store} {rs : List Round}
    (h : Rounds l store rs l' store') (hn : l.shared.hashes.Nodup)
    (ha : ∀ q, ¬ Active l.shared q) : Left l rs l' := by
  induction h with
  | nil => exact ⟨hn, ha, by simp, .nil (List.Subset.refl _)⟩
  | @cons l store now files drafts es b rs l' store' hrun hret _ ih =>
    have hb := (kept_start hn ha now files store drafts).run hrun
    obtain ⟨hdistinct, hidle, hhashes, hascends⟩ := ih hb.distinct (hret.idle hb)
    refine ⟨hdistinct, hidle, ?_, ?_⟩
    · intro x
      rw [hhashes, hret.hashes_iff hb]
      simp [or_assoc]
    · have hfirst := (round_spec hrun).2.2
      have hl := hret.saving ((exclusive_start l now files store drafts).run hrun)
      rw [floor_of_none hl] at hfirst
      exact hfirst.append hascends

theorem mem_rounds {l l' : Localizer} {store store' : Store} {rs : List Round}
    (h : Rounds l store rs l' store') {r : Round} (hr : r ∈ rs) :
    ∃ l₁ now files store₁ drafts, r.start = Localizer.batch l₁ now files store₁ drafts ∧
      Execution Succeeds r.start r.events r.finish := by
  induction h with
  | nil => cases hr
  | @cons l store now files drafts es b rs l' store' hrun _ _ ih =>
    rcases List.mem_cons.mp hr with rfl | hr
    · exact ⟨l, now, files, store, drafts, rfl, hrun⟩
    · exact ih hr

/-- A localizer that starts with a ledger keeps it through all batches: saves follow one another and
only grow, and the last of them holds the hashes of all documents. -/
theorem ledger_is_kept (p : Publisher) (ledger : Ledger) (store : Store) (rs : List Round)
    (l : Localizer) (store' : Store) (now : String) (files : Tree) (drafts : List Draft)
    (es : List Event) (b : Batch) (hn : (Assoc.keys ledger).Nodup)
    (hrounds : Rounds (Localizer.start p ledger) store rs l store')
    (h : Execution Succeeds (l.batch now files store' drafts) es b) :
    KeepsLedger ledger rs ⟨l.batch now files store' drafts, es, b⟩ := by
  have hidle : ∀ q, ¬ Active (Localizer.start p ledger).shared q := by
    rintro q (hq | hq) <;> cases hq
  have hleft := rounds_left hrounds hn hidle
  have hb := (kept_start hleft.distinct hleft.idle now files store' drafts).run h
  have hspec := round_spec h
  have each : ∀ r' ∈ rs ++ [(⟨l.batch now files store' drafts, es, b⟩ : Round)],
      ∃ l₁ now files store₁ drafts, r'.start = Localizer.batch l₁ now files store₁ drafts ∧
        Execution Succeeds r'.start r'.events r'.finish := by
    intro r' hr'
    rcases List.mem_append.mp hr' with hr' | hr'
    · exact mem_rounds hrounds hr'
    · obtain rfl := List.mem_singleton.mp hr'
      exact ⟨l, now, files, store', drafts, rfl, h⟩
  refine ⟨?_, ?_, ?_, ?_, ?_⟩
  · rintro ⟨start, es', b'⟩ hr'
    obtain ⟨l₁, now₁, files₁, store₁, drafts₁, rfl, hrun⟩ := each _ hr'
    exact (round_spec hrun).1
  · have hall := hleft.ascends.append hspec.2.2
    rw [List.flatMap_append, List.flatMap_singleton, List.pairwise_cons, List.pairwise_map]
    refine ⟨?_, hall.growing⟩
    intro xs hxs
    obtain ⟨r, hr, rfl⟩ := List.mem_map.mp hxs
    exact (hall.within r hr).1
  · rintro ⟨start, es', b'⟩ hr'
    obtain ⟨l₁, now₁, files₁, store₁, drafts₁, rfl, hrun⟩ := each _ hr'
    exact (round_spec hrun).2.1
  · intro hdocs hret now'
    have hx := (exclusive_start l now files store' drafts).run h
    refine hb.stored ?_ hret.not_unsaved (hret.saving hx) now'
    have hlen := congrArg List.length h.drafts.2
    rw [List.length_map, List.length_map] at hlen
    have hpos : 0 < b.docs.length := by
      rw [hlen]
      exact List.length_pos_iff.mpr hdocs
    have hfirst : b.docs[0]? = some (b.docs[0].1, b.docs[0].2) := List.getElem?_eq_getElem hpos
    obtain ⟨result, hr⟩ := hret 0 _ _ hfirst
    exact ⟨0, _, result, hr ▸ hfirst⟩
  · intro hret x
    have hx := hret.hashes_iff hb x
    rw [hleft.hashes] at hx
    refine hx.trans ?_
    simp only [List.mem_append, List.mem_singleton, or_and_right, exists_or, exists_eq_left,
      or_assoc]
    rfl

section Sample

def doesSucceed (b : Batch) (e : Event) (_ : Batch) : Bool :=
  match e with
  | .settle _ _ failure => failure.isNone
  | .save outcome => outcome.toOption.isSome &&
    b.saving.all fun (_, l) => decide (b.store.save b.files l = outcome)
  | _ => true

theorem succeeds_of_check {b : Batch} {e : Event} {b' : Batch} (h : doesSucceed b e b' = true) :
    Succeeds b e b' := by
  constructor
  · rintro q files failure rfl
    simpa [doesSucceed] using h
  · rintro outcome i l rfl hl
    simp only [doesSucceed, hl, Option.all_some, Bool.and_eq_true, decide_eq_true_eq] at h
    cases outcome with
    | error e => cases h.1
    | ok r => exact ⟨r, rfl, h.2⟩

def sampleLedger (time : String) : Ledger :=
  [("7037807198c22a7d2b0807371d763779a84fdfcf",
    ⟨".mp4", "/assets/hash/7037807198c22a7d2b0807371d763779a84fdfcf.mp4", time⟩)]

def firstEvents : List Event :=
  [.scan 0, .start sampleM, .settle sampleM copiedFiles none, .take 0,
    .save (.ok (.memory (sampleLedger "2024") 1, copiedFiles))]

def secondEvents : List Event :=
  [.scan 0, .take 0, .save (.ok (.memory (sampleLedger "2025") 2, copiedFiles))]

def firstStart : Batch :=
  (Localizer.start {} []).batch "2024" sampleFiles (.memory [] 0) [sampleDraft "a.md" ["m.mp4"]]

def secondStart (b : Batch) : Batch :=
  Localizer.batch ⟨b.publisher, b.shared⟩ "2025" b.files b.store [sampleDraft "b.md" ["m.mp4"]]

def sampleFinishes : Option (Batch × Batch) := do
  let b ← checked doesSucceed firstStart firstEvents
  let b' ← checked doesSucceed (secondStart b) secondEvents
  some (b, b')

def hasReturned (b : Batch) : Bool :=
  match b.docs with
  | [(_, ph)] => ph.isReturned
  | _ => false

theorem allReturned_of_check {b : Batch} (h : hasReturned b = true) : b.AllReturned := by
  intro i d ph hd
  unfold hasReturned at h
  split at h
  · next d' ph' hdocs =>
    rw [hdocs] at hd
    cases i with
    | zero =>
      cases hd
      cases ph with
      | returned result => exact ⟨result, rfl⟩
      | _ => cases h
    | succ n => cases hd
  · cases h

theorem sample_finishes : (sampleFinishes.any fun (b, b') => hasReturned b && hasReturned b') =
    true := by
  decide +kernel

theorem kept_ledger_sample : ∃ b b', KeepsLedger [] [⟨firstStart, firstEvents, b⟩]
    ⟨secondStart b, secondEvents, b'⟩ ∧ b.AllReturned ∧ b'.AllReturned := by
  obtain ⟨⟨b, b'⟩, hb, hret⟩ := (Option.any_eq_true _ _).mp sample_finishes
  obtain ⟨hret, hret'⟩ := Bool.and_eq_true_iff.mp hret
  simp only [sampleFinishes, Option.bind_eq_bind, Option.bind_eq_some_iff] at hb
  obtain ⟨u, hu, u', hu', he⟩ := hb
  cases he
  have hrun : Execution Succeeds firstStart firstEvents b :=
    execution_of_checked succeeds_of_check hu
  have hrun' : Execution Succeeds (secondStart b) secondEvents b' :=
    execution_of_checked succeeds_of_check hu'
  have hall := allReturned_of_check hret
  exact ⟨b, b', ledger_is_kept {} [] (.memory [] 0) _ _ _ _ _ _ _ _ (by simp [Assoc.keys])
    (.cons hrun hall (.nil _ _)) hrun', hall, allReturned_of_check hret'⟩

end Sample

end DocumentMedia.Asset
