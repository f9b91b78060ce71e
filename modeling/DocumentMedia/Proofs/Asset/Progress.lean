import DocumentMedia.Proofs.Asset.Saving
import Mathlib

/-! # Runs that end

The schedule of a run names only events that can happen, and each of them brings the batch nearer to
its end. When nothing is left to be scheduled, all documents have ended. -/
namespace DocumentMedia.Asset

open DocumentMedia.Files
open Shared (Schedules Active)
open DocumentMedia.Ledger (Store)

/-! ## The weight of a batch -/

def CopyState.weight : CopyState → Nat
  | .scheduled => 2
  | .running => 1
  | .done | .failed _ | .cancelled => 0

/-- How many events a document can still take part in, with those of copies that it may schedule. -/
def Phase.weight (d : Draft) : Phase → Nat
  | .waiting => 3 + 2 * (toScan d).length
  | .copying .. => 2
  | .saving _ => 1
  | .returned _ | .raised _ => 0

def Phase.isEnded : Phase → Bool
  | .returned _ | .raised _ => true
  | .waiting | .copying .. | .saving _ => false

namespace Shared

def weight (s : Shared) : Nat := (s.copies.map fun p => p.2.state.weight).sum

@[simp]
theorem weight_record (s : Shared) (now : String) (a : Asset) :
    (s.record now a).weight = s.weight := rfl

theorem sum_put {κ β : Type} [BEq κ] [LawfulBEq κ] (m : Assoc κ β) (w : β → Nat) (k : κ) (v : β) :
    ((Assoc.put m k v).map fun p => w p.2).sum + ((Assoc.find? m k).map w).getD 0 =
      (m.map fun p => w p.2).sum + w v := by
  induction m with
  | nil => simp [Assoc.put, Assoc.find?]
  | cons p m ih =>
    obtain ⟨j, u⟩ := p
    by_cases hj : j = k
    · subst hj
      simp [Assoc.put, Assoc.find?]
      omega
    · simp only [Assoc.put, Assoc.find?, beq_iff_eq, hj, if_false, List.map_cons, List.sum_cons]
      omega

theorem weight_setState {s : Shared} {target : Path} {old : CopyState}
    (h : s.stateOf target = some old) (state : CopyState) :
    (s.setState target state).weight + old.weight = s.weight + state.weight := by
  obtain ⟨source, hc⟩ := stateOf_eq_some.mp h
  have hsum := sum_put s.copies (fun c => c.state.weight) target ⟨source, state⟩
  rw [show Assoc.find? s.copies target = some ⟨source, old⟩ from hc] at hsum
  rw [setState_of_copy? hc]
  exact hsum

theorem weight_start (s : Shared) (f : Find) : (s.start f).weight ≤ s.weight + 2 := by
  have hsum := sum_put s.copies (fun c => c.state.weight) f.asset.target ⟨f.source, .scheduled⟩
  simp only [weight, start]
  simp only [CopyState.weight] at hsum ⊢
  omega

theorem weight_schedule {s s' : Shared} {t : Tree} {f : Find} {job : Option Path}
    (h : s.schedule t f = .ok (s', job)) : s'.weight ≤ s.weight + 2 := by
  have hs := schedules s t f
  rw [h] at hs
  cases hs with
  | again => exact weight_start s f
  | fresh => exact weight_start s f
  | _ => omega

end Shared

variable {p : Publisher} {t : Tree} {now : String} {document : Path}

theorem Scans.weight {sc refs sc' o} (h : Scans p t now document sc refs sc' o) :
    sc'.shared.weight ≤ sc.shared.weight + 2 * refs.length := by
  induction h with
  | nil => omega
  | unreachable => omega
  | absent _ _ ih => simp only [List.length_cons] at ih ⊢; omega
  | refused sc raw rest f e =>
    rw [Shared.weight_record]
    omega
  | unseen sc raw rest f s job e hf hs =>
    have hw := Shared.weight_schedule hs
    simp only [Shared.weight_record, List.length_cons] at hw ⊢
    omega
  | @published sc raw rest f s job sc' o hf hs hp _ ih =>
    have hw := Shared.weight_schedule hs
    simp only [Shared.weight_record, List.length_cons] at hw ih ⊢
    omega

theorem weight_scan {d : Draft} {s s' : Shared}
    {outcome : Except PublishError (List Path × Localized)}
    (h : scan p t now d s = (s', outcome)) : s'.weight ≤ s.weight + 2 * (toScan d).length := by
  obtain ⟨sc, o, hscans, rfl, -⟩ := scan_cases h
  exact hscans.weight

namespace Batch

def weight (b : Batch) : Nat := (b.docs.map fun p => p.2.weight p.1).sum + b.shared.weight

theorem sum_modify {α : Type} (w : α → Nat) (f : α → α) {as : List α} {i : Nat} {a : α}
    (h : as[i]? = some a) :
    ((as.modify i f).map w).sum + w a = (as.map w).sum + w (f a) := by
  induction as generalizing i with
  | nil => cases h
  | cons b as ih =>
    cases i with
    | zero =>
      cases h
      simp
      omega
    | succ i =>
      have := ih (i := i) h
      simp only [List.modify_succ_cons, List.map_cons, List.sum_cons]
      omega

theorem weight_moved {b u : Batch} {i : Nat} {d : Draft} {old ph : Phase} {s : Shared}
    (hd : b.docs[i]? = some (d, old)) (hu : u.docs = (b.setPhase i ph).docs) (hs : u.shared = s) :
    u.weight + old.weight d + b.shared.weight = b.weight + ph.weight d + s.weight := by
  have hsum := sum_modify (fun p : Draft × Phase => p.2.weight p.1) (fun p => (p.1, ph)) hd
  simp only at hsum
  rw [weight, weight, hu, hs, setPhase]
  simp only
  omega

theorem weight_lowered {b u : Batch} {i : Nat} {d : Draft} {old ph : Phase}
    (hd : b.docs[i]? = some (d, old)) (hu : u.docs = (b.setPhase i ph).docs)
    (hs : u.shared = b.shared) (hlt : ph.weight d < old.weight d) : u.weight < b.weight := by
  have hmoved := weight_moved hd hu hs
  omega

def isIdle : Event → Bool
  | .tick _ | .write .. => true
  | _ => false

/-- Each event that is not idle brings the batch nearer to its end. -/
theorem weight_step {b e b'} (h : Step b e b') (he : isIdle e = false) : b'.weight < b.weight := by
  cases h with
  | tick => cases he
  | write => cases he
  | scan i d shared outcome hd hs =>
    -- The weight of a waiting document pays for the copies that its references may schedule.
    have hscan := weight_scan hs
    have hmoved := weight_moved hd rfl rfl (u := { b with shared }.setPhase i (.afterScan outcome))
    have hold : Phase.waiting.weight d = 3 + 2 * (toScan d).length := rfl
    have hafter : (Phase.afterScan outcome).weight d ≤ 2 := by
      cases outcome <;> simp [Phase.afterScan, Phase.weight]
    have hshared : ({ b with shared }.setPhase i (.afterScan outcome)).shared = shared := rfl
    rw [hshared, hold] at hmoved
    omega
  | start target hq =>
    have hset := Shared.weight_setState hq .running
    simp only [weight, CopyState.weight] at hset ⊢
    omega
  | settle target files failure hq =>
    have hset := Shared.weight_setState hq (.ended failure)
    have hended : (CopyState.ended failure).weight = 0 := by cases failure <;> rfl
    rw [hended] at hset
    simp only [weight, CopyState.weight] at hset ⊢
    omega
  | fail i target d jobs result e hd => exact weight_lowered hd rfl rfl (by simp [Phase.weight])
  | take i d jobs result hd => exact weight_lowered hd rfl rfl (by simp [Phase.weight])
  | save i l d result store files hl hd => exact weight_lowered hd rfl rfl (by simp [Phase.weight])
  | unsaved i l d result e hl hd => exact weight_lowered hd rfl rfl (by simp [Phase.weight])

theorem length_filterMap_takeWhile {α β : Type} (f : α → Option β) (q : α → Bool) (as : List α) :
    ((as.takeWhile q).filterMap f).length ≤ (as.filterMap f).length :=
  ((List.takeWhile_sublist q).filterMap f).length_le

theorem length_toScan (d : Draft) : (toScan d).length ≤ (references d).length := by
  unfold toScan beforeMisfit? references
  simp only
  split
  · have := length_filterMap_takeWhile directiveSource? (fun n => !isMisfitDirective n)
      (iterNodes (fun _ => true) d.tree)
    simp only [Option.getD_some, List.length_append]
    omega
  · split
    · have := length_filterMap_takeWhile imageSource? (fun n => !isMisfitImage n)
        (iterNodes (fun _ => true) d.tree)
      simp only [Option.getD_some, List.length_append]
      omega
    · split
      · have := length_filterMap_takeWhile componentSource? (fun n => !isMisfitComponent n)
          (iterNodes (fun _ => true) d.tree)
        simp only [Option.getD_some, List.length_append]
        omega
      · exact Nat.le_refl _

theorem weight_le_eventBound (b : Batch) : b.weight ≤ b.eventBound := by
  have hcopies : ∀ m : Assoc Path Copy, (m.map fun p => p.2.state.weight).sum ≤ 2 * m.length := by
    intro m
    induction m with
    | nil => simp
    | cons p m ih =>
      have : p.2.state.weight ≤ 2 := by cases p.2.state <;> simp [CopyState.weight]
      simp only [List.map_cons, List.sum_cons, List.length_cons]
      omega
  have hdocs : ∀ docs : List (Draft × Phase), (docs.map fun p => p.2.weight p.1).sum ≤
      3 * docs.length + 2 * (docs.flatMap fun p => references p.1).length := by
    intro docs
    induction docs with
    | nil => simp
    | cons p docs ih =>
      have hscan := length_toScan p.1
      have : p.2.weight p.1 ≤ 3 + 2 * (references p.1).length := by
        cases p.2 <;> simp only [Phase.weight] <;> omega
      simp only [List.map_cons, List.sum_cons, List.length_cons, List.flatMap_cons,
        List.length_append]
      omega
  have hc := hcopies b.shared.copies
  have hd := hdocs b.docs
  simp only [weight, Shared.weight, eventBound]
  omega

/-! ## What is scheduled can happen -/

def Recorded (s : Shared) (q : Path) : Prop :=
  ∃ state, s.stateOf q = some state ∧ state ≠ .cancelled

/-- What the schedule of a run rests on. -/
structure Fit (b : Batch) : Prop where
  exclusive : Exclusive b
  keys : (Assoc.keys b.shared.copies).Nodup
  tracked : ∀ (i : Nat) d jobs result, b.docs[i]? = some (d, Phase.copying jobs result) →
    ∀ q ∈ jobs, Recorded b.shared q

theorem keys_setState {s : Shared} (h : (Assoc.keys s.copies).Nodup) (target : Path)
    (state : CopyState) : (Assoc.keys (s.setState target state).copies).Nodup := by
  unfold Shared.setState
  split
  · exact Assoc.nodup_keys_put _ _ _ h
  · exact h

theorem keys_schedule {s s' : Shared} {t : Tree} {f : Find} {job : Option Path}
    (h : s.schedule t f = .ok (s', job)) (hs : (Assoc.keys s.copies).Nodup) :
    (Assoc.keys s'.copies).Nodup := by
  have hcases := Shared.schedules s t f
  rw [h] at hcases
  cases hcases with
  | again => exact Assoc.nodup_keys_put _ _ _ hs
  | fresh => exact Assoc.nodup_keys_put _ _ _ hs
  | _ => exact hs

theorem keys_scans {sc refs sc' o} (h : Scans p t now document sc refs sc' o)
    (hs : (Assoc.keys sc.shared.copies).Nodup) : (Assoc.keys sc'.shared.copies).Nodup := by
  induction h with
  | nil => exact hs
  | unreachable => exact hs
  | absent _ _ ih => exact ih hs
  | refused => exact hs
  | unseen sc raw rest f s job e hf hsched => exact keys_schedule hsched hs
  | published hf hsched hp _ ih => exact ih (keys_schedule hsched hs)

theorem keys_step {b e b'} (h : Step b e b') (hb : (Assoc.keys b.shared.copies).Nodup) :
    (Assoc.keys b'.shared.copies).Nodup := by
  cases h with
  | scan i d shared outcome hd hs =>
    obtain ⟨sc, o, hscans, rfl, -⟩ := scan_cases hs
    exact keys_scans hscans hb
  | start target => exact keys_setState hb target _
  | settle target => exact keys_setState hb target _
  | _ => exact hb

theorem recorded_setState {s : Shared} {q : Path} (h : Recorded s q) (target : Path)
    {state : CopyState} (hs : state ≠ .cancelled) : Recorded (s.setState target state) q := by
  obtain ⟨old, hold, hne⟩ := h
  by_cases hq : target = q
  · exact ⟨state, by simp [Shared.stateOf_setState, hq, hold], hs⟩
  · exact ⟨old, by simp [Shared.stateOf_setState, hq, hold], hne⟩

theorem recorded_step {b e b' q} (h : Step b e b') (hq : Recorded b.shared q) :
    Recorded b'.shared q := by
  cases h with
  | scan i d shared outcome hd hs =>
    obtain ⟨sc, o, hscans, rfl, -⟩ := scan_cases hs
    obtain ⟨state, hstate, hne⟩ := hq
    have hkept := congrArg (Option.map Copy.state) (hscans.grows.kept q state hstate hne)
    exact ⟨state, hkept.trans hstate, hne⟩
  | start target => exact recorded_setState hq target (by simp)
  | settle target files failure =>
    exact recorded_setState hq target (by cases failure <;> simp [CopyState.ended])
  | _ => exact hq

theorem tracked_step {b e b'} (h : Step b e b') (hb : Fit b) :
    ∀ (i : Nat) d jobs result, b'.docs[i]? = some (d, Phase.copying jobs result) →
      ∀ q ∈ jobs, Recorded b'.shared q := by
  intro i d jobs result hi q hq
  rcases docs_step h hi with hold | hm
  · exact recorded_step h (hb.tracked i d jobs result hold q hq)
  · generalize hph : Phase.copying jobs result = ph at hm
    cases hm with
    | scanned shared outcome hd hs =>
      cases outcome with
      | error e => cases hph
      | ok r =>
        cases hph
        rw [step_unique h (.scan b i d shared _ hd hs)]
        rcases scan_jobs hs q hq with ha | ha <;> exact ⟨_, ha, by simp⟩
    | _ => cases hph

theorem Fit.step {b e b'} (h : Step b e b') (hb : Fit b) : Fit b' :=
  ⟨hb.exclusive.step h, keys_step h hb.keys, tracked_step h hb⟩

theorem fit_start (p : Publisher) (ledger : Ledger) (now : String) (files : Tree) (store : Store)
    (drafts : List Draft) : Fit ((Localizer.start p ledger).batch now files store drafts) where
  exclusive := exclusive_start _ _ _ _ _
  keys := .nil
  tracked i d jobs result hd := by cases (docs_batch hd).2

/-- The events that are scheduled, by any part of a run. -/
inductive Scheduled (b : Batch) (e : Event) : Prop where
  | copying (h : b.nextCopying = some e)
  | failing (h : b.nextFailure = some e)
  | finishing (h : b.nextFinishing = some e)

theorem firstDoc_spec {b : Batch} {q : Phase → Bool} {i : Nat} (h : b.firstDoc q = some i) :
    ∃ d ph, b.docs[i]? = some (d, ph) ∧ q ph = true := by
  obtain ⟨hlt, hq, -⟩ := List.findIdx?_eq_some_iff_getElem.mp h
  exact ⟨_, _, List.getElem?_eq_getElem hlt, hq⟩

theorem firstDoc_none {b : Batch} {q : Phase → Bool} (h : b.firstDoc q = none) {i : Nat} {d : Draft}
    {ph : Phase} (hd : b.docs[i]? = some (d, ph)) : q ph = false := by
  have := List.findIdx?_eq_none_iff.mp h (d, ph) (List.mem_of_getElem? hd)
  simpa using this

theorem find?_of_mem {m : Assoc Path Copy} {q : Path} {c : Copy} (hm : (Assoc.keys m).Nodup)
    (h : (q, c) ∈ m) : Assoc.find? m q = some c := by
  induction m with
  | nil => cases h
  | cons r m ih =>
    simp only [Assoc.keys, List.map_cons, List.nodup_cons] at hm
    rcases List.mem_cons.mp h with rfl | h
    · simp [Assoc.find?]
    · have hne : r.1 ≠ q := by
        rintro rfl
        exact hm.1 (List.mem_map.mpr ⟨(r.1, c), h, rfl⟩)
      simp [Assoc.find?, hne, ih hm.2 h]

theorem firstCopy_spec {b : Batch} {state : CopyState} {q : Path} {c : Copy} (hb : Fit b)
    (h : b.firstCopy state = some (q, c)) : b.shared.stateOf q = some state := by
  have hstate : c.state = state := by simpa using List.find?_some h
  have hfind : b.shared.copy? q = some c := find?_of_mem hb.keys (List.mem_of_find?_eq_some h)
  rw [Shared.stateOf, hfind, Option.map_some, hstate]

theorem firstCopy_none {b : Batch} {state : CopyState} (h : b.firstCopy state = none) (q : Path) :
    b.shared.stateOf q ≠ some state := by
  intro hq
  obtain ⟨source, hc⟩ := Shared.stateOf_eq_some.mp hq
  have := List.find?_eq_none.mp h _ (Assoc.mem_of_find? hc)
  simp at this

theorem enabled_clean {b : Batch} {e : Event} (h : b.nextClean = some e) :
    isIdle e = false ∧ ∃ b', Step b e b' := by
  unfold nextClean at h
  split at h
  · cases h
  · next hl =>
    obtain ⟨i, hi, rfl⟩ := Option.map_eq_some_iff.mp h
    obtain ⟨d, ph, hd, hph⟩ := firstDoc_spec hi
    have hnone : b.saving = none := by simpa using hl
    split at hph
    · next result => exact ⟨rfl, _, .take b i d [] result hd hnone rfl⟩
    · cases hph

theorem enabled_copying {b : Batch} {e : Event} (h : b.nextCopying = some e) (hb : Fit b) :
    isIdle e = false ∧ ∃ b', Step b e b' := by
  rcases Option.or_eq_some_iff.mp h with h | ⟨-, h⟩
  · exact enabled_clean h
  rcases Option.or_eq_some_iff.mp h with h | ⟨-, h⟩
  · obtain ⟨i, hi, rfl⟩ := Option.map_eq_some_iff.mp h
    obtain ⟨d, ph, hd, hph⟩ := firstDoc_spec hi
    split at hph
    · exact ⟨rfl, _, .scan b i d _ _ hd rfl⟩
    · cases hph
  rcases Option.or_eq_some_iff.mp h with h | ⟨-, h⟩
  · obtain ⟨⟨target, c⟩, hc, rfl⟩ := Option.map_eq_some_iff.mp h
    exact ⟨rfl, _, .start b target (firstCopy_spec hb hc)⟩
  · obtain ⟨⟨target, c⟩, hc, rfl⟩ := Option.map_eq_some_iff.mp h
    have hq := firstCopy_spec hb hc
    simp only [settled]
    split
    · exact ⟨rfl, _, .settle b target _ _ hq⟩
    · exact ⟨rfl, _, .settle b target _ _ hq⟩

theorem failedAmong_spec {s : Shared} {jobs : List Path} {q : Path}
    (h : failedAmong s jobs = some q) : q ∈ jobs ∧ ∃ e, s.stateOf q = some (.failed e) := by
  refine ⟨List.mem_of_find?_eq_some h, ?_⟩
  have hf := List.find?_some h
  unfold hasFailed at hf
  split at hf
  · next e hq => exact ⟨e, hq⟩
  · cases hf

theorem enabled_failure {b : Batch} {e : Event} (h : b.nextFailure = some e) :
    isIdle e = false ∧ ∃ b', Step b e b' := by
  obtain ⟨⟨i, target⟩, hfind, rfl⟩ := Option.map_eq_some_iff.mp h
  obtain ⟨⟨⟨d, ph⟩, j⟩, hmem, hf⟩ := List.exists_of_findSome?_eq_some hfind
  have hd := List.mk_mem_zipIdx_iff_getElem?.mp hmem
  split at hf
  · next d' jobs result j' he =>
    cases he
    obtain ⟨target', ht, hpair⟩ := Option.map_eq_some_iff.mp hf
    cases hpair
    obtain ⟨hm, err, hq⟩ := failedAmong_spec ht
    exact ⟨rfl, _, .fail b i target d jobs result err hd hm hq⟩
  · cases hf

theorem enabled_save {b : Batch} {e : Event} (h : b.nextSave = some e) (hb : Fit b) :
    isIdle e = false ∧ ∃ b', Step b e b' := by
  obtain ⟨⟨i, l⟩, hl, rfl⟩ := Option.map_eq_some_iff.mp h
  obtain ⟨d, result, hd⟩ := hb.exclusive.saver i l hl
  simp only
  cases b.store.save b.files l with
  | error e => exact ⟨rfl, _, .unsaved b i l d result e hl hd⟩
  | ok r => exact ⟨rfl, _, .save b i l d result r.1 r.2 hl hd⟩

theorem enabled_finishing {b : Batch} {e : Event} (h : b.nextFinishing = some e) (hb : Fit b) :
    isIdle e = false ∧ ∃ b', Step b e b' := by
  rcases Option.or_eq_some_iff.mp h with h | ⟨hnone, h⟩
  · exact enabled_save h hb
  rcases Option.or_eq_some_iff.mp h with h | ⟨-, h⟩
  · exact enabled_failure h
  · obtain ⟨i, hi, rfl⟩ := Option.map_eq_some_iff.mp h
    obtain ⟨d, ph, hd, hph⟩ := firstDoc_spec hi
    have hl : b.saving = none := by simpa [nextSave] using hnone
    split at hph
    · next jobs result => exact ⟨rfl, _, .take b i d jobs result hd hl hph⟩
    · cases hph

theorem Scheduled.enabled {b : Batch} {e : Event} (h : Scheduled b e) (hb : Fit b) :
    isIdle e = false ∧ ∃ b', Step b e b' := by
  cases h with
  | copying h => exact enabled_copying h hb
  | failing h => exact enabled_failure h
  | finishing h => exact enabled_finishing h hb

/-! ## Nothing is left when nothing is scheduled -/

theorem failedAmong_none {b : Batch} (h : b.nextFailure = none) {i : Nat} {d : Draft}
    {jobs : List Path} {result : Localized}
    (hd : b.docs[i]? = some (d, Phase.copying jobs result)) : failedAmong b.shared jobs = none := by
  have hfind := List.findSome?_eq_none_iff.mp (Option.map_eq_none_iff.mp h) _
    (List.mk_mem_zipIdx_iff_getElem?.mpr hd)
  exact Option.map_eq_none_iff.mp hfind

theorem not_copying {b : Batch} (hb : Fit b) (hcopying : b.nextCopying = none)
    (hfinishing : b.nextFinishing = none) {i : Nat} {d : Draft} {jobs : List Path}
    {result : Localized} : b.docs[i]? ≠ some (d, Phase.copying jobs result) := by
  intro hd
  obtain ⟨-, hcopying⟩ := Option.or_eq_none_iff.mp hcopying
  obtain ⟨-, hcopying⟩ := Option.or_eq_none_iff.mp hcopying
  obtain ⟨hstart, hsettle⟩ := Option.or_eq_none_iff.mp hcopying
  obtain ⟨-, hfinishing⟩ := Option.or_eq_none_iff.mp hfinishing
  obtain ⟨hfail, htake⟩ := Option.or_eq_none_iff.mp hfinishing
  have hall : allDone b.shared jobs = true := by
    rw [allDone, List.all_eq_true]
    intro q hq
    obtain ⟨state, hstate, hne⟩ := hb.tracked i d jobs result hd q hq
    -- A copy that is neither under way, failed nor given up is done.
    have hunfailed := List.find?_eq_none.mp (failedAmong_none hfail hd) q hq
    rw [decide_eq_true_eq, hstate]
    cases state with
    | scheduled => exact absurd hstate (firstCopy_none (Option.map_eq_none_iff.mp hstart) q)
    | running => exact absurd hstate (firstCopy_none (Option.map_eq_none_iff.mp hsettle) q)
    | done => rfl
    | failed e => simp [hasFailed, hstate] at hunfailed
    | cancelled => exact absurd rfl hne
  have hnot := firstDoc_none (Option.map_eq_none_iff.mp htake) hd
  simp only [hall] at hnot
  cases hnot

/-- When nothing is scheduled any more, all documents have ended. -/
theorem ended_of_unscheduled {b : Batch} (hb : Fit b) (hcopying : b.nextCopying = none)
    (hfinishing : b.nextFinishing = none) {i : Nat} {d : Draft} {ph : Phase}
    (hd : b.docs[i]? = some (d, ph)) : ph.isEnded = true := by
  cases ph with
  | waiting =>
    obtain ⟨-, hrest⟩ := Option.or_eq_none_iff.mp hcopying
    obtain ⟨hscan, -⟩ := Option.or_eq_none_iff.mp hrest
    have hnot := firstDoc_none (Option.map_eq_none_iff.mp hscan) hd
    cases hnot
  | copying jobs result => exact absurd hd (not_copying hb hcopying hfinishing)
  | saving result =>
    obtain ⟨l, hl⟩ := hb.exclusive.single i d result hd
    obtain ⟨hsave, -⟩ := Option.or_eq_none_iff.mp hfinishing
    rw [nextSave, hl] at hsave
    cases hsave
  | returned result => rfl
  | raised e => rfl

/-! ## Runs -/

variable {L : Batch → Event → Batch → Prop} {next : Batch → Option Event}

theorem play_succ (fuel : Nat) {b b' : Batch} {e : Event} (hn : next b = some e)
    (hs : Step b e b') : play next (fuel + 1) b = play next fuel b' := by
  rw [play, hn]
  simp only [Option.bind_eq_bind, Option.bind_some, step_complete hs]

theorem play_none (fuel : Nat) {b : Batch} (hn : next b = none) : play next fuel b = b := by
  cases fuel with
  | zero => rfl
  | succ n => rw [play, hn]; rfl

theorem play_execution (hnext : ∀ {b e}, next b = some e → Scheduled b e)
    (hL : ∀ {b e b'}, Step b e b' → Scheduled b e → L b e b') (fuel : Nat) {b : Batch}
    (hb : Fit b) : ∃ es, Execution L b es (play next fuel b) ∧ Fit (play next fuel b) := by
  induction fuel generalizing b with
  | zero => exact ⟨[], .nil b, hb⟩
  | succ fuel ih =>
    cases hn : next b with
    | none =>
      rw [play_none (fuel + 1) hn]
      exact ⟨[], .nil b, hb⟩
    | some e =>
      obtain ⟨-, b', hs⟩ := (hnext hn).enabled hb
      obtain ⟨es, hrun, hfit⟩ := ih (hb.step hs)
      rw [play_succ fuel hn hs]
      exact ⟨e :: es, .cons hs (hL hs (hnext hn)) hrun, hfit⟩

theorem play_ends (hnext : ∀ {b e}, next b = some e → Scheduled b e) {fuel : Nat} {b : Batch}
    (hb : Fit b) (hfuel : b.weight ≤ fuel) : next (play next fuel b) = none := by
  induction fuel generalizing b with
  | zero =>
    cases hn : next b with
    | none => exact hn
    | some e =>
      obtain ⟨he, b', hs⟩ := (hnext hn).enabled hb
      have := weight_step hs he
      omega
  | succ fuel ih =>
    cases hn : next b with
    | none => rw [play_none (fuel + 1) hn, hn]
    | some e =>
      obtain ⟨he, b', hs⟩ := (hnext hn).enabled hb
      have := weight_step hs he
      rw [play_succ fuel hn hs]
      exact ih (hb.step hs) (by omega)

theorem scheduled_run {b : Batch} {e : Event}
    (h : b.nextCopying.or b.nextFinishing = some e) : Scheduled b e := by
  rcases Option.or_eq_some_iff.mp h with h | ⟨-, h⟩
  · exact .copying h
  · exact .finishing h

/-- A run ends all documents. -/
theorem run_ends {b : Batch} (hb : Fit b) {i : Nat} {d : Draft} {ph : Phase}
    (hd : b.run.docs[i]? = some (d, ph)) : ph.isEnded = true := by
  have hnone := play_ends scheduled_run hb (weight_le_eventBound b)
  obtain ⟨hcopying, hfinishing⟩ := Option.or_eq_none_iff.mp hnone
  obtain ⟨-, -, hfit⟩ :=
    play_execution scheduled_run (L := fun _ _ _ => True) (fun _ _ => trivial) b.eventBound hb
  exact ended_of_unscheduled hfit hcopying hfinishing hd

end Batch

end DocumentMedia.Asset
