import DocumentMedia.Asset.Copies
import DocumentMedia.Proofs.Asset.Relink

/-! # Scans of documents

What a scan does with the shared copies and the ledger, one constructor for each way in which a
reference can be dealt with. A scan only ever adds copies. -/
namespace DocumentMedia.Asset

open DocumentMedia.Files

namespace Shared

/-- The ways in which a target is seen to. -/
inductive Schedules (s : Shared) (t : Tree) (f : Find) :
    Except FileError (Shared × Option Path) → Prop where
  | done (hq : s.stateOf f.asset.target = some .done) : Schedules s t f (.ok (s, none))
  | failed (e) (hq : s.stateOf f.asset.target = some (.failed e)) : Schedules s t f (.error e)
  | again (hq : s.stateOf f.asset.target = some .cancelled) :
      Schedules s t f (.ok (s.start f, some f.asset.target))
  | awaited (hq : s.stateOf f.asset.target = some .scheduled ∨
        s.stateOf f.asset.target = some .running) :
      Schedules s t f (.ok (s, some f.asset.target))
  | unknown (e) (hq : s.stateOf f.asset.target = none)
      (ht : t.pathExists f.asset.target = .error e) : Schedules s t f (.error e)
  | standing (hq : s.stateOf f.asset.target = none)
      (ht : t.pathExists f.asset.target = .ok true) : Schedules s t f (.ok (s, none))
  | fresh (hq : s.stateOf f.asset.target = none)
      (ht : t.pathExists f.asset.target = .ok false) :
      Schedules s t f (.ok (s.start f, some f.asset.target))

theorem schedules (s : Shared) (t : Tree) (f : Find) : Schedules s t f (s.schedule t f) := by
  simp only [schedule]
  split
  · next hq => exact .done hq
  · next e hq => exact .failed e hq
  · next hq => exact .again hq
  · next hq => exact .awaited (Or.inl hq)
  · next hq => exact .awaited (Or.inr hq)
  · next hq =>
    cases ht : t.pathExists f.asset.target with
    | error e => exact .unknown e hq ht
    | ok there =>
      cases there with
      | true => exact .standing hq ht
      | false => exact .fresh hq ht

/-- Nothing has to be copied to a target: its copy is done, or it stood there without one. -/
def Stands (s : Shared) (t : Tree) (q : Path) : Prop :=
  s.stateOf q = some .done ∨ (s.stateOf q = none ∧ t.pathExists q = .ok true)

def Active (s : Shared) (q : Path) : Prop :=
  s.stateOf q = some .scheduled ∨ s.stateOf q = some .running

end Shared

open Shared (Schedules Stands Active)

variable {p : Publisher} {t : Tree} {now : String} {document : Path}

/-- The ways in which references are published in turn. -/
inductive Scans (p : Publisher) (t : Tree) (now : String) (document : Path) :
    Scan → List String → Scan → Option PublishError → Prop where
  | nil (sc) : Scans p t now document sc [] sc none
  | unreachable (sc raw rest e) (hf : p.find t document raw = .error e) :
      Scans p t now document sc (raw :: rest) sc (some (.file e))
  | absent {sc raw rest sc' o} (hf : p.find t document raw = .ok none)
      (h : Scans p t now document { sc with found := Assoc.put sc.found raw none } rest sc' o) :
      Scans p t now document sc (raw :: rest) sc' o
  | refused (sc raw rest f e) (hf : p.find t document raw = .ok (some f))
      (hs : (sc.shared.record now f.asset).schedule t f = .error e) :
      Scans p t now document sc (raw :: rest)
        { sc with shared := sc.shared.record now f.asset } (some (.file e))
  | unseen (sc raw rest f s job e) (hf : p.find t document raw = .ok (some f))
      (hs : (sc.shared.record now f.asset).schedule t f = .ok (s, job)) (hp : f.fault = some e) :
      Scans p t now document sc (raw :: rest) { sc with shared := s } (some (.picture e))
  | published {sc raw rest f s job sc' o} (hf : p.find t document raw = .ok (some f))
      (hs : (sc.shared.record now f.asset).schedule t f = .ok (s, job)) (hp : f.fault = none)
      (h : Scans p t now document
        ⟨s, sc.jobs ++ job.toList, Assoc.put sc.found raw (some f.asset)⟩ rest sc' o) :
      Scans p t now document sc (raw :: rest) sc' o

theorem scans_scanAll (sc : Scan) (refs : List String) :
    Scans p t now document sc refs (scanAll p t now document sc refs).1
      (scanAll p t now document sc refs).2 := by
  induction refs generalizing sc with
  | nil => exact .nil sc
  | cons raw rest ih =>
    unfold scanAll
    split
    · next e hf => exact .unreachable sc raw rest e hf
    · next hf => exact .absent hf (ih _)
    · next f hf =>
      simp only
      split
      · next e hs => exact .refused sc raw rest f e hf hs
      · next s job hs =>
        split
        · next e hp => exact .unseen sc raw rest f s job e hf hs hp
        · next hp => exact .published hf hs hp (ih _)

/-- A scan that gets through some references goes on with the rest. -/
theorem Scans.append {sc refs sc' o} (h : Scans p t now document sc refs sc' o) (ho : o = none)
    (rest : List String) :
    scanAll p t now document sc (refs ++ rest) = scanAll p t now document sc' rest := by
  induction h with
  | nil => rfl
  | absent hf _ ih =>
    rw [List.cons_append, scanAll, hf]
    exact ih ho
  | published hf hs hp _ ih =>
    rw [List.cons_append, scanAll]
    simp only [hf, hs, hp]
    exact ih ho
  | _ => cases ho

theorem scanAll_of_failed {sc : Scan} {raw : String} {f : Find} {e : FileError}
    (hf : p.find t document raw = .ok (some f))
    (hq : sc.shared.stateOf f.asset.target = some (.failed e)) (rest : List String) :
    (scanAll p t now document sc (raw :: rest)).2 = some (.file e) := by
  have hs : (sc.shared.record now f.asset).schedule t f = .error e := by
    simp [Shared.schedule, hq]
  unfold scanAll
  simp [hf, hs]

/-- What a scan relates: the copies and the ledger before and after it. -/
theorem scan_cases {d : Draft} {s s' : Shared}
    {outcome : Except PublishError (List Path × Localized)}
    (h : scan p t now d s = (s', outcome)) :
    ∃ sc o, Scans p t now d.path ⟨s, [], []⟩ (toScan d) sc o ∧ s' = sc.shared ∧
      ((∃ e, o = some e ∧ outcome = .error e) ∨
        (o = none ∧ (beforeMisfit? d).isSome ∧ outcome = .error .misfit) ∨
        (o = none ∧ beforeMisfit? d = none ∧ outcome =
          .ok (sc.jobs, relink (fun raw => (Assoc.find? sc.found raw).join) d))) := by
  have hs : Scans p t now d.path ⟨s, [], []⟩ (toScan d) _ _ := scans_scanAll _ _
  unfold scan at h
  generalize scanAll p t now d.path ⟨s, [], []⟩ (toScan d) = r at h hs
  obtain ⟨sc, o⟩ := r
  refine ⟨sc, o, hs, ?_⟩
  cases o with
  | some e => cases h; exact ⟨rfl, Or.inl ⟨e, rfl, rfl⟩⟩
  | none =>
    simp only at h
    split at h
    · next hm => cases h; exact ⟨rfl, Or.inr (Or.inl ⟨rfl, hm, rfl⟩)⟩
    · next hm =>
      cases h
      exact ⟨rfl, Or.inr (Or.inr ⟨rfl, by simpa using hm, rfl⟩)⟩

/-! ## The copies -/

/-- Copies that are wanted for references are added, and all others stay as they are. -/
structure Grows (p : Publisher) (t : Tree) (document : Path) (refs : List String) (s s' : Shared) :
    Prop where
  kept : ∀ q state, s.stateOf q = some state → state ≠ .cancelled → s'.copy? q = s.copy? q
  added : ∀ q c, s'.copy? q = some c → s.copy? q = some c ∨
    c.state = .scheduled ∧ ¬ Active s q ∧ ¬ Stands s t q ∧
      ∃ raw ∈ refs, ∃ f, p.find t document raw = .ok (some f) ∧
        f.asset.target = q ∧ f.source = c.source

theorem Grows.refl (refs : List String) (s : Shared) : Grows p t document refs s s :=
  ⟨fun _ _ _ _ => rfl, fun _ _ h => Or.inl h⟩

theorem Grows.active {refs : List String} {s s' : Shared} (h : Grows p t document refs s s')
    {q : Path} (hq : Active s q) : Active s' q := by
  rcases hq with hq | hq
  · exact Or.inl (by rw [Shared.stateOf, h.kept q _ hq (by simp)]; exact hq)
  · exact Or.inr (by rw [Shared.stateOf, h.kept q _ hq (by simp)]; exact hq)

theorem Grows.stands {refs : List String} {s s' : Shared} (h : Grows p t document refs s s')
    {q : Path} (hq : Stands s t q) : Stands s' t q := by
  rcases hq with hd | ⟨hn, ht⟩
  · exact Or.inl (by rw [Shared.stateOf, h.kept q _ hd (by simp)]; exact hd)
  · refine Or.inr ⟨?_, ht⟩
    rw [Shared.stateOf_eq_none, Option.eq_none_iff_forall_not_mem]
    intro c hc
    rcases h.added q c hc with hs | ⟨-, -, hst, -⟩
    · rw [Shared.stateOf_eq_none.mp hn] at hs
      cases hs
    · exact hst (Or.inr ⟨hn, ht⟩)

theorem Grows.trans {refs refs' : List String} {s u s' : Shared}
    (h : Grows p t document refs s u) (k : Grows p t document refs' u s') :
    Grows p t document (refs ++ refs') s s' := by
  constructor
  · intro q state hq hc
    have hu : u.stateOf q = some state := by rw [Shared.stateOf, h.kept q state hq hc]; exact hq
    rw [k.kept q state hu hc, h.kept q state hq hc]
  · intro q c hq
    rcases k.added q c hq with hu | ⟨hc, ha, hs, raw, hr, f, hf, ht, hsrc⟩
    · rcases h.added q c hu with hs | ⟨hc, ha, hs, raw, hr, f, hf, ht, hsrc⟩
      · exact Or.inl hs
      · exact Or.inr ⟨hc, ha, hs, raw, List.mem_append_left _ hr, f, hf, ht, hsrc⟩
    · exact Or.inr ⟨hc, fun hq => ha (h.active hq), fun hq => hs (h.stands hq), raw,
        List.mem_append_right _ hr, f, hf, ht, hsrc⟩

theorem grows_start {s : Shared} {raw : String} {f : Find}
    (hf : p.find t document raw = .ok (some f)) (ha : ¬ Active s f.asset.target)
    (hst : ¬ Stands s t f.asset.target)
    (hn : s.stateOf f.asset.target = none ∨ s.stateOf f.asset.target = some .cancelled) :
    Grows p t document [raw] s (s.start f) := by
  constructor
  · intro q state hq hc
    rw [Shared.copy?_start, if_neg]
    rintro rfl
    rcases hn with hn | hn
    · rw [hn] at hq; cases hq
    · rw [hn] at hq; exact hc (Option.some.inj hq).symm
  · intro q c hq
    rw [Shared.copy?_start] at hq
    split at hq
    · next he =>
      subst q
      cases hq
      exact Or.inr ⟨rfl, ha, hst, raw, List.mem_singleton_self raw, f, hf, rfl, rfl⟩
    · exact Or.inl hq

theorem schedule_spec {s s' : Shared} {raw : String} {f : Find} {job : Option Path}
    (hf : p.find t document raw = .ok (some f)) (h : s.schedule t f = .ok (s', job)) :
    Grows p t document [raw] s s' ∧
      (job = some f.asset.target ∧ Active s' f.asset.target ∨
        job = none ∧ Stands s' t f.asset.target) := by
  have hs := Shared.schedules s t f
  rw [h] at hs
  have started : Active (s.start f) f.asset.target :=
    Or.inl (by rw [Shared.stateOf, Shared.copy?_start, if_pos rfl]; rfl)
  cases hs with
  | done hq => exact ⟨.refl _ _, Or.inr ⟨rfl, Or.inl hq⟩⟩
  | again hq =>
    exact ⟨grows_start hf (by simp [Active, hq]) (by simp [Stands, hq]) (Or.inr hq),
      Or.inl ⟨rfl, started⟩⟩
  | awaited hq => exact ⟨.refl _ _, Or.inl ⟨rfl, hq⟩⟩
  | standing hq ht => exact ⟨.refl _ _, Or.inr ⟨rfl, Or.inr ⟨hq, ht⟩⟩⟩
  | fresh hq ht =>
    exact ⟨grows_start hf (by simp [Active, hq]) (by simp [Stands, hq, ht]) (Or.inl hq),
      Or.inl ⟨rfl, started⟩⟩

theorem grows_record {refs : List String} {s s' : Shared} {a : Asset}
    (h : Grows p t document refs (s.record now a) s') : Grows p t document refs s s' :=
  ⟨h.kept, h.added⟩

theorem Scans.grows {sc refs sc' o} (h : Scans p t now document sc refs sc' o) :
    Grows p t document refs sc.shared sc'.shared := by
  induction h with
  | nil sc => exact .refl _ _
  | unreachable sc raw rest e hf => exact .refl _ _
  | @absent sc raw rest sc' o hf _ ih => exact (Grows.refl [raw] _).trans ih
  | refused sc raw rest f e hf hs => exact grows_record (.refl _ _)
  | unseen sc raw rest f s job e hf hs hp =>
    exact (grows_record (schedule_spec hf hs).1).trans (.refl rest s)
  | published hf hs hp _ ih => exact (grows_record (schedule_spec hf hs).1).trans ih

theorem Scans.jobs_active {sc refs sc' o} (h : Scans p t now document sc refs sc' o)
    (hj : ∀ q ∈ sc.jobs, Active sc.shared q) : ∀ q ∈ sc'.jobs, Active sc'.shared q := by
  induction h with
  | nil sc => exact hj
  | unreachable sc raw rest e hf => exact hj
  | absent hf _ ih => exact ih hj
  | refused sc raw rest f e hf hs => exact hj
  | unseen sc raw rest f s job e hf hs hp =>
    exact fun q hq => (grows_record (schedule_spec hf hs).1).active (hj q hq)
  | @published sc raw rest f s job sc' o hf hs hp _ ih =>
    obtain ⟨hg, hjob⟩ := schedule_spec hf hs
    apply ih
    intro q hq
    rcases List.mem_append.mp hq with hq | hq
    · exact (grows_record hg).active (hj q hq)
    · rcases hjob with ⟨rfl, ha⟩ | ⟨rfl, -⟩
      · rw [Option.toList_some, List.mem_singleton] at hq
        exact hq ▸ ha
      · cases hq

theorem Scans.jobs_kept {sc refs sc' o} (h : Scans p t now document sc refs sc' o) :
    ∀ q ∈ sc.jobs, q ∈ sc'.jobs := by
  induction h with
  | absent hf _ ih => exact ih
  | published hf hs hp _ ih => exact fun q hq => ih q (List.mem_append_left _ hq)
  | _ => exact fun q hq => hq

theorem active_schedule {s s' : Shared} {f : Find} {job : Option Path} {q : Path}
    (h : s.schedule t f = .ok (s', job)) (hq : Active s' q) : Active s q ∨ job = some q := by
  have hs := Shared.schedules s t f
  rw [h] at hs
  have started : Active (s.start f) q → Active s q ∨ some f.asset.target = some q := by
    intro hq
    by_cases he : f.asset.target = q
    · exact Or.inr (congrArg some he)
    · simp only [Active, Shared.stateOf, Shared.copy?_start, if_neg he] at hq
      exact Or.inl hq
  cases hs with
  | done => exact Or.inl hq
  | again => exact started hq
  | awaited => exact Or.inl hq
  | standing => exact Or.inl hq
  | fresh => exact started hq

theorem Scans.active_jobs {sc refs sc' o} (h : Scans p t now document sc refs sc' o)
    (ho : o = none) {q : Path} (hq : Active sc'.shared q) :
    Active sc.shared q ∨ q ∈ sc'.jobs := by
  induction h with
  | nil => exact Or.inl hq
  | absent hf _ ih => exact ih ho hq
  | published hf hs hp h ih =>
    rcases ih ho hq with ha | hj
    · rcases active_schedule hs ha with ha | rfl
      · exact Or.inl ha
      · exact Or.inr (h.jobs_kept _ (by simp))
    · exact Or.inr hj
  | _ => cases ho

/-! ## What was found -/

/-- What was noted for references is what they lead to. -/
def Noted (p : Publisher) (t : Tree) (document : Path)
    (found : Assoc String (Option Asset)) : Prop :=
  ∀ raw v, Assoc.find? found raw = some v →
    ∃ r, p.find t document raw = .ok r ∧ v = r.map Find.asset

theorem Noted.put {found : Assoc String (Option Asset)} {raw : String} {r : Option Find}
    (h : Noted p t document found) (hf : p.find t document raw = .ok r) :
    Noted p t document (Assoc.put found raw (r.map Find.asset)) := by
  intro raw' v hv
  rw [Assoc.find?_put] at hv
  split at hv
  · next he =>
    cases hv
    exact ⟨r, (beq_iff_eq.mp he) ▸ hf, rfl⟩
  · exact h raw' v hv

theorem Scans.noted {sc refs sc' o} (h : Scans p t now document sc refs sc' o)
    (hn : Noted p t document sc.found) : Noted p t document sc'.found := by
  induction h with
  | absent hf _ ih => exact ih (hn.put hf)
  | published hf hs hp _ ih => exact ih (hn.put hf)
  | _ => exact hn

theorem isSome_find?_put (m : Assoc String (Option Asset)) (raw raw' : String) (v : Option Asset)
    (h : raw = raw' ∨ (Assoc.find? m raw').isSome) :
    (Assoc.find? (Assoc.put m raw v) raw').isSome := by
  rw [Assoc.find?_put]
  split
  · rfl
  · next he => exact h.resolve_left fun h => he (beq_iff_eq.mpr h)

theorem Scans.noted_kept {sc refs sc' o} (h : Scans p t now document sc refs sc' o) {raw : String}
    (hr : (Assoc.find? sc.found raw).isSome) : (Assoc.find? sc'.found raw).isSome := by
  induction h with
  | absent hf _ ih => exact ih (isSome_find?_put _ _ _ _ (Or.inr hr))
  | published hf hs hp _ ih => exact ih (isSome_find?_put _ _ _ _ (Or.inr hr))
  | _ => exact hr

/-- What a reference is published as, if it can be. -/
def Publisher.publish (p : Publisher) (t : Tree) (document : Path) (raw : String) : Option Asset :=
  (p.find t document raw).toOption.join.map Find.asset

theorem Publisher.publish_eq_some {a : Asset} {raw : String} :
    p.publish t document raw = some a ↔
      ∃ f, p.find t document raw = .ok (some f) ∧ f.asset = a := by
  unfold Publisher.publish
  cases p.find t document raw with
  | error e => simp [Except.toOption]
  | ok r => cases r <;> simp [Except.toOption]

/-- After a scan that did not fail, each reference is noted, and what it leads to is waited for or
needs no copy. -/
theorem Scans.complete {sc refs sc' o} (h : Scans p t now document sc refs sc' o) (ho : o = none)
    {raw : String} (hr : raw ∈ refs) :
    (Assoc.find? sc'.found raw).isSome ∧ ∃ r, p.find t document raw = .ok r ∧
      ∀ f ∈ r, f.asset.target ∈ sc'.jobs ∨ Stands sc'.shared t f.asset.target := by
  induction h with
  | nil sc => cases hr
  | unreachable => cases ho
  | @absent sc raw' rest sc' o hf h ih =>
    rcases List.mem_cons.mp hr with rfl | hr
    · exact ⟨h.noted_kept (isSome_find?_put _ _ _ _ (Or.inl rfl)), none, hf, by simp⟩
    · exact ih ho hr
  | refused => cases ho
  | unseen => cases ho
  | @published sc raw' rest f s job sc' o hf hs hp h ih =>
    rcases List.mem_cons.mp hr with rfl | hr
    · refine ⟨h.noted_kept (isSome_find?_put _ _ _ _ (Or.inl rfl)), some f, hf, ?_⟩
      intro f' hf'
      cases hf'
      rcases (schedule_spec hf hs).2 with ⟨rfl, -⟩ | ⟨-, hst⟩
      · exact Or.inl (h.jobs_kept _ (by simp))
      · exact Or.inr (h.grows.stands hst)
    · exact ih ho hr

/-- What a scan that does not fail leaves: the copies it waits for, and the document relinked by
what each of its references leads to. -/
theorem scan_ok {d : Draft} {s s' : Shared} {jobs : List Path} {result : Localized}
    (h : scan p t now d s = (s', .ok (jobs, result))) :
    beforeMisfit? d = none ∧ result = relink (p.publish t d.path) d ∧
      ∃ sc, Scans p t now d.path ⟨s, [], []⟩ (references d) sc none ∧ s' = sc.shared ∧
        jobs = sc.jobs := by
  obtain ⟨sc, o, hscans, rfl, ⟨e, -, he⟩ | ⟨-, -, he⟩ | ⟨ho, hm, he⟩⟩ := scan_cases h
  · cases he
  · cases he
  · cases he
    subst ho
    rw [toScan, hm, Option.getD_none] at hscans
    refine ⟨hm, relink_congr ?_, sc, hscans, rfl, rfl⟩
    intro raw hraw
    obtain ⟨hsome, r, hr, -⟩ := hscans.complete rfl hraw
    obtain ⟨v, hv⟩ := Option.isSome_iff_exists.mp hsome
    obtain ⟨r', hr', rfl⟩ := hscans.noted (by intro raw v h; cases h) raw v hv
    rw [hr] at hr'
    cases hr'
    rw [hv, Publisher.publish, hr]
    rfl

/-! ## The ledger -/

theorem ledger_schedule {s s' : Shared} {f : Find} {job : Option Path}
    (h : s.schedule t f = .ok (s', job)) : s'.ledger = s.ledger := by
  have hs := Shared.schedules s t f
  rw [h] at hs
  cases hs <;> rfl

def Shared.hashes (s : Shared) : List String := Assoc.keys s.ledger

theorem mem_hashes_record {s : Shared} {a : Asset} {h : String} :
    h ∈ (s.record now a).hashes ↔ h = a.hash ∨ h ∈ s.hashes :=
  Assoc.mem_keys_put s.ledger a.hash h _

/-- A scan lists hashes of what it finds, all of them if it does not fail. -/
theorem Scans.hashes {sc refs sc' o} (h : Scans p t now document sc refs sc' o) (x : String) :
    (x ∈ sc.shared.hashes → x ∈ sc'.shared.hashes) ∧
      (o = none → (x ∈ sc'.shared.hashes ↔ x ∈ sc.shared.hashes ∨
        ∃ raw ∈ refs, ∃ f, p.find t document raw = .ok (some f) ∧ f.asset.hash = x)) := by
  induction h with
  | nil sc => simp
  | unreachable => simp
  | absent hf _ ih =>
    refine ⟨ih.1, fun ho => ?_⟩
    rw [ih.2 ho]
    simp [hf]
  | refused sc raw rest f e hf hs =>
    exact ⟨fun hx => mem_hashes_record.mpr (Or.inr hx), fun ho => by cases ho⟩
  | unseen sc raw rest f s job e hf hs hp =>
    refine ⟨fun hx => ?_, fun ho => by cases ho⟩
    rw [Shared.hashes, ledger_schedule hs]
    exact mem_hashes_record.mpr (Or.inr hx)
  | @published sc raw rest f s job sc' o hf hs hp _ ih =>
    have hrecord : x ∈ s.hashes ↔ x = f.asset.hash ∨ x ∈ sc.shared.hashes := by
      rw [Shared.hashes, ledger_schedule hs]
      exact mem_hashes_record
    refine ⟨fun hx => ih.1 (hrecord.mpr (Or.inr hx)), fun ho => ?_⟩
    rw [ih.2 ho, hrecord]
    constructor
    · rintro ((rfl | hx) | ⟨raw', hr, hfind⟩)
      · exact Or.inr ⟨raw, List.mem_cons_self, f, hf, rfl⟩
      · exact Or.inl hx
      · exact Or.inr ⟨raw', List.mem_cons_of_mem _ hr, hfind⟩
    · rintro (hx | ⟨raw', hr, f', hf', rfl⟩)
      · exact Or.inl (Or.inr hx)
      · rcases List.mem_cons.mp hr with rfl | hr
        · rw [hf] at hf'
          cases hf'
          exact Or.inl (Or.inl rfl)
        · exact Or.inr ⟨raw', hr, f', hf', rfl⟩

theorem Scans.nodup {sc refs sc' o} (h : Scans p t now document sc refs sc' o)
    (hn : sc.shared.hashes.Nodup) : sc'.shared.hashes.Nodup := by
  induction h with
  | nil => exact hn
  | unreachable => exact hn
  | absent _ _ ih => exact ih hn
  | refused => exact Assoc.nodup_keys_put _ _ _ hn
  | unseen sc raw rest f s job e hf hs hp =>
    rw [Shared.hashes, ledger_schedule hs]
    exact Assoc.nodup_keys_put _ _ _ hn
  | published hf hs hp _ ih =>
    apply ih
    rw [Shared.hashes, ledger_schedule hs]
    exact Assoc.nodup_keys_put _ _ _ hn

end DocumentMedia.Asset
