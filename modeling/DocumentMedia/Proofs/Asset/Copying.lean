import DocumentMedia.Proofs.Asset.Find
import DocumentMedia.Proofs.Asset.Scan
import DocumentMedia.Proofs.Asset.Step

/-! # Copies shared by documents

Documents of one batch share the copies to the targets they need. A target can be absent, half
written, whole or failed when a document is scanned; the invariant relates the files, the table of
copies and what each document waits for in all of these cases. -/
namespace DocumentMedia.Asset

open DocumentMedia.Files
open Publisher (Whole hashOf hashOf_target find_spec)
open Shared (Stands Active)
open DocumentMedia.Ledger (Store)

def Event.written? : Event → Option Path
  | .write q _ | .settle q _ _ => some q
  | _ => none

def Event.isStart (q : Path) : Event → Bool
  | .start q' => q' = q
  | _ => false

/-- An error of the file system, other than a path that cannot be passed to it. -/
def PublishError.IsSystem : PublishError → Prop
  | .file e => e.cause ≠ .nullCharacter
  | _ => False

namespace Batch

/-- What the surroundings owe to a batch. `T` holds the targets of its documents: they denote
distinct files, and only a copy to one of them changes it. Sources stay as they are. A copy that
succeeds leaves what is at its source, and one that fails may leave anything at its target. -/
structure Undisturbed (T : Path → Prop) (b : Batch) (e : Event) (b' : Batch) : Prop where
  known : ∀ (i : Nat) d ph raw f, e = .scan i → b.docs[i]? = some (d, ph) → raw ∈ toScan d →
    b.publisher.find b.files d.path raw = .ok (some f) → T f.asset.target
  targets : ∀ q, T q → e.written? ≠ some q →
    b'.files.pathExists q = b.files.pathExists q ∧ b'.files.readBytes q = b.files.readBytes q
  sources : ∀ q c, b.shared.copy? q = some c →
    b'.files.readBytes c.source = b.files.readBytes c.source
  success : ∀ q files c, e = .settle q files none → b.shared.copy? q = some c →
    files.readBytes q = b.files.readBytes c.source
  failure : ∀ q files err, e = .settle q files (some err) → err.cause ≠ .nullCharacter

def isUndisturbed (targets : List Path) (b : Batch) (e : Event) (b' : Batch) : Bool :=
  let same (q : Path) := decide (b'.files.readBytes q = b.files.readBytes q)
  (targets.all fun q => decide (e.written? = some q) ||
    decide (b'.files.pathExists q = b.files.pathExists q) && same q) &&
  (b.shared.copies.all fun (_, c) => same c.source) &&
  match e with
  | .scan i =>
    (b.docs[i]?.toList.flatMap fun (d, _) => (toScan d).map fun raw => (d.path, raw)).all
      fun (path, raw) =>
        match b.publisher.find b.files path raw with
        | .ok (some f) => targets.contains f.asset.target
        | _ => true
  | .settle q files none =>
    match b.shared.copy? q with
    | some c => decide (files.readBytes q = b.files.readBytes c.source)
    | none => true
  | .settle _ _ (some err) => decide (err.cause ≠ .nullCharacter)
  | _ => true

/-- What a copy in the table says about the files. -/
def Promised (t : Tree) (q : Path) (c : Copy) : Prop :=
  match c.state with
  | .scheduled | .running =>
    ∃ bytes, t.readBytes c.source = .ok bytes ∧ Sha1.hexDigest bytes = hashOf q
  | .done => Whole t q
  | .failed e => e.cause ≠ .nullCharacter
  | .cancelled => False

/-- An asset that its document can return: nothing has to be copied to its target any more. -/
def Settled (T : Path → Prop) (b : Batch) (a : Asset) : Prop :=
  T a.target ∧ hashOf a.target = a.hash ∧ Stands b.shared b.files a.target

structure Sound (T : Path → Prop) (b : Batch) : Prop where
  paths : ∀ (i : Nat) d ph, b.docs[i]? = some (d, ph) → d.path.WellFormed
  copies : ∀ q c, b.shared.copy? q = some c → T q ∧ Promised b.files q c
  standing : ∀ q, T q → b.shared.stateOf q = none → b.files.pathExists q = .ok true →
    Whole b.files q
  waiting : ∀ (i : Nat) d jobs result, b.docs[i]? = some (d, Phase.copying jobs result) →
    ∀ a ∈ result.assets, a.target ∈ jobs ∧ T a.target ∧ hashOf a.target = a.hash ∨ Settled T b a
  ending : ∀ (i : Nat) d result, b.docs[i]? = some (d, Phase.saving result) →
    ∀ a ∈ result.assets, Settled T b a
  ended : ∀ (i : Nat) d result, b.docs[i]? = some (d, Phase.returned result) →
    ∀ a ∈ result.assets, Settled T b a

theorem undisturbed_of_check {targets : List Path} {b : Batch} {e : Event} {b' : Batch}
    (h : isUndisturbed targets b e b' = true) : Undisturbed (· ∈ targets) b e b' := by
  simp only [isUndisturbed, Bool.and_eq_true, List.all_eq_true, Bool.or_eq_true,
    decide_eq_true_eq] at h
  obtain ⟨⟨htargets, hsources⟩, hevent⟩ := h
  constructor
  · rintro i d ph raw f rfl hd hraw hf
    have := List.all_eq_true.mp hevent (d.path, raw) (by
      simp only [List.mem_flatMap, Option.mem_toList, List.mem_map]
      exact ⟨(d, ph), hd, raw, hraw, rfl⟩)
    simpa [hf] using this
  · exact fun q hq hne => (htargets q hq).resolve_left hne
  · exact fun q c hc => hsources (q, c) (Assoc.mem_of_find? hc)
  · rintro q files c rfl hc
    simpa [hc] using hevent
  · rintro q files err rfl
    simpa using hevent

variable {T : Path → Prop}

theorem written_running {b e b' q} (h : Step b e b') (hw : e.written? = some q) :
    b.shared.stateOf q = some .running := by
  cases h <;> cases hw <;> assumption

theorem stands_of_exists {b e b' q} (h : Step b e b')
    (hx : b.shared.stateOf q = none → b.files.pathExists q = .ok true →
      b'.files.pathExists q = .ok true)
    (hs : Stands b.shared b.files q) : Stands b'.shared b'.files q := by
  have kept : b'.shared.stateOf q = b.shared.stateOf q → Stands b'.shared b'.files q := by
    intro hq
    unfold Stands
    rw [hq]
    exact hs.imp_right fun ⟨hn, ht⟩ => ⟨hn, hx hn ht⟩
  -- Only copies that are scheduled or under way change their state.
  have moved : ∀ target state old, b.shared.stateOf target = some old → old ≠ .done →
      (b.shared.setState target state).stateOf q = b.shared.stateOf q := by
    intro target state old ho hd
    rw [Shared.stateOf_setState]
    split
    · next he =>
      subst he
      rcases hs with hs | ⟨hs, -⟩
      · rw [hs] at ho
        exact absurd (Option.some.inj ho).symm hd
      · rw [hs] at ho
        cases ho
    · rfl
  cases h with
  | scan i d shared outcome hd hsc =>
    obtain ⟨sc, o, hscans, rfl, -⟩ := scan_cases hsc
    exact hscans.grows.stands hs
  | start target hst => exact kept (moved target _ _ hst (by simp))
  | settle target files failure hst => exact kept (moved target _ _ hst (by simp))
  | _ => exact kept rfl

theorem stands_step {b e b' q} (h : Step b e b') (hl : Undisturbed T b e b') (hq : T q)
    (hs : Stands b.shared b.files q) : Stands b'.shared b'.files q := by
  refine stands_of_exists h (fun hn ht => ?_) hs
  -- Only a running copy writes, and a target without one has none.
  have hne : e.written? ≠ some q := by
    intro hw
    have := written_running h hw
    rw [hn] at this
    cases this
  exact (hl.targets q hq hne).1.trans ht

theorem Settled.step {b e b' a} (h : Step b e b') (hl : Undisturbed T b e b')
    (ha : Settled T b a) : Settled T b' a :=
  ⟨ha.1, ha.2.1, stands_step h hl ha.1 ha.2.2⟩

theorem promised_step {b e b' q c} (h : Step b e b') (hl : Undisturbed T b e b') (hq : T q)
    (hc : b.shared.copy? q = some c) (hp : Promised b.files q c) : Promised b'.files q c := by
  obtain ⟨source, state⟩ := c
  have hsource := hl.sources q _ hc
  cases state with
  | scheduled =>
    obtain ⟨bytes, hb, hh⟩ := hp
    exact ⟨bytes, hsource.trans hb, hh⟩
  | running =>
    obtain ⟨bytes, hb, hh⟩ := hp
    exact ⟨bytes, hsource.trans hb, hh⟩
  | done =>
    obtain ⟨bytes, hb, hh⟩ := hp
    have hne : e.written? ≠ some q := by
      intro hw
      have hr := written_running h hw
      rw [Shared.stateOf, hc] at hr
      cases hr
    exact ⟨bytes, (hl.targets q hq hne).2.trans hb, hh⟩
  | failed e => exact hp
  | cancelled => exact hp

/-- The source of a copy that a scan adds holds what the name of its target says. -/
theorem promised_fresh {p : Publisher} {t : Tree} {document q : Path} {raw : String} {f : Find}
    {c : Copy} (hd : document.WellFormed) (hf : p.find t document raw = .ok (some f))
    (hq : f.asset.target = q) (hsrc : f.source = c.source) (hc : c.state = .scheduled) :
    Promised t q c := by
  obtain ⟨reference, bytes, -, -, hb, he⟩ := find_spec hf
  have hhash := congrArg (fun f => f.asset.hash) he
  simp only [Publisher.hash_findOf] at hhash
  unfold Promised
  rw [hc]
  exact ⟨bytes, hsrc ▸ hb, by rw [← hhash, ← hashOf_target hd hf, hq]⟩

theorem copies_step {b e b'} (h : Step b e b') (hl : Undisturbed T b e b') (hb : Sound T b) :
    ∀ q c, b'.shared.copy? q = some c → T q ∧ Promised b'.files q c := by
  intro q c hc
  have kept : b.shared.copy? q = some c → T q ∧ Promised b'.files q c := fun hq =>
    ⟨(hb.copies q c hq).1, promised_step h hl (hb.copies q c hq).1 hq (hb.copies q c hq).2⟩
  cases h with
  | scan i d shared outcome hd hsc =>
    obtain ⟨sc, o, hscans, rfl, -⟩ := scan_cases hsc
    rcases hscans.grows.added q c hc with hq | ⟨hst, -, -, raw, hraw, f, hf, ht, hsrc⟩
    · exact kept hq
    · exact ⟨ht ▸ hl.known i d _ raw f rfl hd hraw hf,
        promised_fresh (hb.paths i d _ hd) hf ht hsrc hst⟩
  | start target hst =>
    simp only [Shared.copy?_setState] at hc
    split at hc
    · next he =>
      subst he
      obtain ⟨source, hs⟩ := Shared.stateOf_eq_some.mp hst
      rw [hs] at hc
      cases hc
      obtain ⟨hT, hp⟩ := hb.copies target _ hs
      exact ⟨hT, hp⟩
    · exact kept hc
  | settle target files failure hst =>
    simp only [Shared.copy?_setState] at hc
    split at hc
    · next he =>
      subst he
      obtain ⟨source, hs⟩ := Shared.stateOf_eq_some.mp hst
      rw [hs] at hc
      cases hc
      obtain ⟨hT, bytes, hbytes, hhash⟩ := hb.copies target _ hs
      refine ⟨hT, ?_⟩
      cases failure with
      | none => exact ⟨bytes, (hl.success target files _ rfl hs).trans hbytes, hhash⟩
      | some err => exact hl.failure target files err rfl
    · exact kept hc
  | _ => exact kept hc

theorem unrecorded_step {b e b' q} (h : Step b e b') (hb : Sound T b)
    (hq : b'.shared.stateOf q = none) : b.shared.stateOf q = none := by
  cases h with
  | scan i d shared outcome hd hsc =>
    obtain ⟨sc, o, hscans, rfl, -⟩ := scan_cases hsc
    by_contra hn
    obtain ⟨state, hst⟩ := Option.ne_none_iff_exists'.mp hn
    obtain ⟨source, hc⟩ := Shared.stateOf_eq_some.mp hst
    have hkept := hscans.grows.kept q state hst (by
      rintro rfl
      exact (hb.copies q _ hc).2)
    change sc.shared.stateOf q = none at hq
    rw [Shared.stateOf_eq_none.mp hq, hc] at hkept
    cases hkept
  | start target hst =>
    simp only [Shared.stateOf_setState] at hq
    split at hq
    · next he => simpa using hq
    · exact hq
  | settle target files failure hst =>
    simp only [Shared.stateOf_setState] at hq
    split at hq
    · next he => simpa using hq
    · exact hq
  | _ => exact hq

theorem standing_step {b e b'} (h : Step b e b') (hl : Undisturbed T b e b') (hb : Sound T b) :
    ∀ q, T q → b'.shared.stateOf q = none → b'.files.pathExists q = .ok true →
      Whole b'.files q := by
  intro q hq hn hx
  have hnone := unrecorded_step h hb hn
  have hne : e.written? ≠ some q := by
    intro hw
    rw [written_running h hw] at hnone
    cases hnone
  obtain ⟨ht, hbytes⟩ := hl.targets q hq hne
  obtain ⟨bytes, hw, hh⟩ := hb.standing q hq hnone (ht.symm.trans hx)
  exact ⟨bytes, hbytes.trans hw, hh⟩

theorem scanned_assets {b : Batch} {i : Nat} {d : Draft} {shared : Shared} {jobs : List Path}
    {result : Localized} (hl : ∀ raw f, raw ∈ toScan d →
      b.publisher.find b.files d.path raw = .ok (some f) → T f.asset.target)
    (hd : d.path.WellFormed)
    (hs : Asset.scan b.publisher b.files b.now d b.shared = (shared, .ok (jobs, result))) :
    ∀ a ∈ result.assets, a.target ∈ jobs ∧ T a.target ∧ hashOf a.target = a.hash ∨
      Settled T ({ b with shared }.setPhase i (.copying jobs result)) a := by
  obtain ⟨hm, rfl, sc, hscans, rfl, rfl⟩ := scan_ok hs
  intro a ha
  obtain ⟨raw, hraw, hpub⟩ := List.mem_filterMap.mp ha
  obtain ⟨f, hf, rfl⟩ := Publisher.publish_eq_some.mp hpub
  obtain ⟨-, r, hr, hseen⟩ := hscans.complete rfl hraw
  rw [hf] at hr
  cases hr
  have hT := hl raw f (by rw [toScan, hm]; exact hraw) hf
  have hh := hashOf_target hd hf
  rcases hseen f rfl with hj | hst
  · exact Or.inl ⟨hj, hT, hh⟩
  · exact Or.inr ⟨hT, hh, hst⟩

theorem waiting_step {b e b'} (h : Step b e b') (hl : Undisturbed T b e b') (hb : Sound T b) :
    ∀ (j : Nat) d jobs result, b'.docs[j]? = some (d, Phase.copying jobs result) →
      ∀ a ∈ result.assets,
        a.target ∈ jobs ∧ T a.target ∧ hashOf a.target = a.hash ∨ Settled T b' a := by
  intro j d jobs result hj
  rcases docs_step h hj with hold | hm
  · intro a ha
    rcases hb.waiting j d jobs result hold a ha with hw | hs
    · exact Or.inl hw
    · exact Or.inr (hs.step h hl)
  · generalize hph : Phase.copying jobs result = ph at hm
    cases hm with
    | scanned shared outcome hd hsc =>
      cases outcome with
      | error e => cases hph
      | ok r =>
        cases hph
        rw [step_unique h (.scan b j d shared _ hd hsc)]
        exact scanned_assets (fun raw f hr hf => hl.known j d _ raw f rfl hd hr hf)
          (hb.paths j d _ hd) hsc
    | _ => cases hph

theorem settled_of_taken {b b' : Batch} {e : Event} {d : Draft} {j : Nat} {jobs : List Path}
    {result : Localized} (h : Step b e b') (hl : Undisturbed T b e b') (hb : Sound T b)
    (hd : b.docs[j]? = some (d, Phase.copying jobs result)) (hdone : allDone b.shared jobs) :
    ∀ a ∈ result.assets, Settled T b' a := by
  intro a ha
  rcases hb.waiting j d jobs result hd a ha with ⟨hj, hT, hh⟩ | hs
  · have hst := List.all_eq_true.mp hdone _ hj
    exact Settled.step h hl ⟨hT, hh, Or.inl (of_decide_eq_true hst)⟩
  · exact hs.step h hl

theorem ending_step {b e b'} (h : Step b e b') (hl : Undisturbed T b e b') (hb : Sound T b) :
    ∀ (j : Nat) d result, b'.docs[j]? = some (d, Phase.saving result) →
      ∀ a ∈ result.assets, Settled T b' a := by
  intro j d result hj
  rcases docs_step h hj with hold | hm
  · exact fun a ha => (hb.ending j d result hold a ha).step h hl
  · generalize hph : Phase.saving result = ph at hm
    cases hm with
    | scanned shared outcome hd hsc => cases outcome <;> cases hph
    | took jobs result' hd hl' hdone =>
      cases hph
      exact settled_of_taken h hl hb hd hdone
    | _ => cases hph

theorem ended_step {b e b'} (h : Step b e b') (hl : Undisturbed T b e b') (hb : Sound T b) :
    ∀ (j : Nat) d result, b'.docs[j]? = some (d, Phase.returned result) →
      ∀ a ∈ result.assets, Settled T b' a := by
  intro j d result hj
  rcases docs_step h hj with hold | hm
  · exact fun a ha => (hb.ended j d result hold a ha).step h hl
  · generalize hph : Phase.returned result = ph at hm
    cases hm with
    | scanned shared outcome hd hsc => cases outcome <;> cases hph
    | saved l result' store files hsv hd =>
      cases hph
      exact fun a ha => (hb.ending j d result hd a ha).step h hl
    | _ => cases hph

theorem paths_step {b e b'} (h : Step b e b') (hb : Sound T b) :
    ∀ (j : Nat) d ph, b'.docs[j]? = some (d, ph) → d.path.WellFormed := by
  intro j d ph hj
  have hd := congrArg (fun l => l[j]?) (step_drafts h).2
  simp only [List.getElem?_map, hj, Option.map_some] at hd
  obtain ⟨⟨d', ph'⟩, hx, rfl⟩ := Option.map_eq_some_iff.mp hd.symm
  exact hb.paths j _ ph' hx

theorem Sound.step {b e b'} (h : Step b e b') (hl : Undisturbed T b e b') (hb : Sound T b) :
    Sound T b' where
  paths := paths_step h hb
  copies := copies_step h hl hb
  standing := standing_step h hl hb
  waiting := waiting_step h hl hb
  ending := ending_step h hl hb
  ended := ended_step h hl hb

theorem sound_start {p : Publisher} {ledger : Ledger} {now : String} {files : Tree} {store : Store}
    {drafts : List Draft} (hp : ∀ d ∈ drafts, d.path.WellFormed)
    (hw : ∀ q, T q → files.pathExists q = .ok true → Whole files q) :
    Sound T ((Localizer.start p ledger).batch now files store drafts) where
  paths j d ph hd := hp d (docs_batch hd).1
  copies q c hc := by cases hc
  standing q hq _ hx := hw q hq hx
  waiting j d jobs result hd := by cases (docs_batch hd).2
  ending j d result hd := by cases (docs_batch hd).2
  ended j d result hd := by cases (docs_batch hd).2

theorem Sound.run {b es b'} (h : Execution (Undisturbed T) b es b') (hb : Sound T b) : Sound T b' :=
  h.invariant hb Sound.step

theorem Sound.whole {b : Batch} (hb : Sound T b) {a : Asset} (ha : Settled T b a) :
    ∃ bytes, b.files.readBytes a.target = .ok bytes ∧ Sha1.hexDigest bytes = a.hash := by
  obtain ⟨hT, hh, hs⟩ := ha
  rw [← hh]
  rcases hs with hd | ⟨hn, hx⟩
  · obtain ⟨source, hc⟩ := Shared.stateOf_eq_some.mp hd
    exact (hb.copies _ _ hc).2
  · exact hb.standing _ hT hn hx

/-! ## Starts -/

/-- The end of a copy, or its progress: nothing that can begin again. -/
def Begun (s : Shared) (q : Path) : Prop :=
  s.stateOf q = some .running ∨ s.stateOf q = some .done ∨ ∃ e, s.stateOf q = some (.failed e)

theorem begun_step {b e b' q} (h : Step b e b') (hq : Begun b.shared q) : Begun b'.shared q := by
  cases h with
  | scan i d shared outcome hd hsc =>
    obtain ⟨sc, o, hscans, rfl, -⟩ := scan_cases hsc
    have kept : ∀ state, b.shared.stateOf q = some state → state ≠ .cancelled →
        sc.shared.stateOf q = some state := by
      intro state hs hc
      rw [Shared.stateOf, hscans.grows.kept q state hs hc]
      exact hs
    rcases hq with hq | hq | ⟨err, hq⟩
    · exact Or.inl (kept _ hq (by simp))
    · exact Or.inr (Or.inl (kept _ hq (by simp)))
    · exact Or.inr (Or.inr ⟨err, kept _ hq (by simp)⟩)
  | start target hst =>
    by_cases he : target = q
    · subst he
      rcases hq with hq | hq | ⟨err, hq⟩ <;> rw [hq] at hst <;> cases hst
    · simpa [Begun, Shared.stateOf_setState, he] using hq
  | settle target files failure hst =>
    by_cases he : target = q
    · subst he
      simp only [Begun, Shared.stateOf_setState, hst, if_true, Option.map_some]
      cases failure <;> simp [CopyState.ended]
    · simpa [Begun, Shared.stateOf_setState, he] using hq
  | _ => exact hq

theorem start_spec {b e b' q} (h : Step b e b') (he : Event.isStart q e) :
    b.shared.stateOf q = some .scheduled ∧ b'.shared.stateOf q = some .running := by
  cases h with
  | start target hst =>
    obtain rfl : target = q := of_decide_eq_true he
    exact ⟨hst, by simp [Shared.stateOf_setState, hst]⟩
  | _ => cases he

theorem starts_begun {L : Batch → Event → Batch → Prop} {b es b' q} (h : Execution L b es b')
    (hq : Begun b.shared q) : es.countP (Event.isStart q) = 0 := by
  induction h with
  | nil => rfl
  | cons hs _ _ ih =>
    rw [List.countP_cons_of_neg, ih (begun_step hs hq)]
    intro he
    have hst := (start_spec hs he).1
    rcases hq with hq | hq | ⟨err, hq⟩ <;> rw [hq] at hst <;> cases hst

/-- A copy to a target is started at most once. -/
theorem starts_le_one {L : Batch → Event → Batch → Prop} {b es b'} (h : Execution L b es b')
    (q : Path) : es.countP (Event.isStart q) ≤ 1 := by
  induction h with
  | nil => simp
  | @cons b e u es b' hs _ hr ih =>
    by_cases he : Event.isStart q e
    · rw [List.countP_cons_of_pos he, starts_begun hr (Or.inl (start_spec hs he).2)]
    · rw [List.countP_cons_of_neg he]
      exact ih

end Batch

end DocumentMedia.Asset
