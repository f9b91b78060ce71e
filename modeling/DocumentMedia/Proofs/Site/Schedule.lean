import DocumentMedia.Proofs.Asset.Progress
import DocumentMedia.Proofs.Site.Independence

/-! # The builds of a program

A program builds documents in one order of events. Its run ends all documents, and when it succeeds
it is one of the builds that are possible. -/
namespace DocumentMedia.Site

open DocumentMedia.Files
open DocumentMedia.Asset (Batch Event Draft Localized Localizer Phase)
open DocumentMedia.Asset.Batch (Step Execution Scheduled Fit fit_start play_execution run_ends
  scheduled_run)
open DocumentMedia.Document (Page)
open DocumentMedia.Ledger (Store)

variable {L : Batch → Event → Batch → Prop}

theorem firstFailure_none {α ε : Type} {rs : List (Path × Except ε α)}
    (h : firstFailure rs = none) : ∀ r ∈ rs, ∃ a, r.2 = .ok a := by
  induction rs with
  | nil => simp
  | cons r rs ih =>
    obtain ⟨p, o⟩ := r
    cases o with
    | error e => cases h
    | ok a =>
      intro r hr
      rcases List.mem_cons.mp hr with rfl | hr
      · exact ⟨a, rfl⟩
      · exact ih h r hr

/-- Documents that all ended, none of them with a failure, have returned. -/
theorem outcomes_ok {b : Batch} {pages : List Page} (hended : ∀ r ∈ b.results, r ≠ none)
    (hlen : pages.length = b.results.length) (h : firstFailure (outcomes b pages) = none) :
    ∃ results, (b.results = results.map fun r => some (.ok r)) ∧
      ((outcomes b pages).filterMap fun r => r.2.toOption) = pages.zip results := by
  unfold outcomes at h ⊢
  generalize b.results = rs at hended hlen h ⊢
  induction rs generalizing pages with
  | nil =>
    obtain rfl := List.length_eq_zero_iff.mp hlen
    exact ⟨[], rfl, rfl⟩
  | cons r rs ih =>
    cases pages with
    | nil => cases hlen
    | cons page pages =>
      rw [List.forall_mem_cons] at hended
      cases r with
      | none => exact absurd rfl hended.1
      | some o =>
        simp only [List.zip_cons_cons, List.filterMap_cons, Option.map_some] at h ⊢
        cases o with
        | error e => cases h
        | ok result =>
          obtain ⟨results, hresults, hzip⟩ :=
            ih hended.2 (Nat.succ.inj hlen) h
          refine ⟨result :: results, ?_, ?_⟩
          · rw [hresults]
            rfl
          · rw [List.zip_cons_cons, ← hzip]
            rfl

/-- The run of a program ends all documents. -/
theorem execution_of_publish {b : Batch} (hb : Fit b)
    (hL : ∀ {b e b'}, Step b e b' → Scheduled b e → L b e b') :
    ∃ es, Execution L b es b.runCopies.failAll.run ∧
      ∀ r ∈ b.runCopies.failAll.run.results, r ≠ none := by
  obtain ⟨es₁, h₁, hb₁⟩ := play_execution .copying hL b.eventBound hb
  obtain ⟨es₂, h₂, hb₂⟩ := play_execution .failing hL b.runCopies.docs.length hb₁
  obtain ⟨es₃, h₃, -⟩ := play_execution scheduled_run hL b.runCopies.failAll.eventBound hb₂
  refine ⟨es₁ ++ (es₂ ++ es₃), h₁.trans (h₂.trans h₃), ?_⟩
  intro r hr
  obtain ⟨⟨d, ph⟩, hmem, rfl⟩ := List.mem_map.mp hr
  obtain ⟨i, hi⟩ := List.mem_iff_getElem?.mp hmem
  have hended := run_ends hb₂ hi
  cases ph with
  | returned result => exact Option.some_ne_none _
  | raised e => exact Option.some_ne_none _
  | _ => cases hended

theorem readings_ok {documents : List Path} {read : Path → Except Failure Page}
    (h : ∀ p ∈ documents, ∃ page, read p = .ok page) :
    ∃ pages, List.Forall₂ (fun p page => read p = .ok page) documents pages ∧
      (documents.map fun p => (p, read p)).filterMap (fun r => r.2.toOption) = pages := by
  induction documents with
  | nil => exact ⟨[], .nil, rfl⟩
  | cons p documents ih =>
    obtain ⟨⟨page, hpage⟩, hrest⟩ := List.forall_mem_cons.mp h
    obtain ⟨pages, hpages, hmap⟩ := ih hrest
    refine ⟨page :: pages, .cons hpage hpages, ?_⟩
    rw [List.map_cons, List.filterMap_cons, hpage, ← hmap]
    rfl

theorem publish_ok {b b' : Batch} {readings : List (Path × Except Failure Page)}
    {ends : List (Page × Localized)} (h : publish b readings = (b', .ok ends)) :
    (∀ r ∈ readings, ∃ page, r.2 = .ok page) ∧ b' = b.runCopies.failAll.run ∧
      firstFailure (outcomes b' (readings.filterMap fun r => r.2.toOption)) = none ∧
      (outcomes b' (readings.filterMap fun r => r.2.toOption)).filterMap
        (fun r => r.2.toOption) = ends := by
  unfold publish at h
  simp only at h
  split at h
  · cases h
  · next hearly =>
    split at h
    · cases h
    · split at h
      · cases h
      · next hends =>
        cases h
        refine ⟨?_, rfl, hends, rfl⟩
        intro r hr
        obtain ⟨p, o⟩ := r
        obtain ⟨a, ha⟩ := firstFailure_none hearly _ (List.mem_map_of_mem hr)
        cases o with
        | error e => cases ha
        | ok page => exact ⟨page, rfl⟩

theorem buildPages_ok {s : Settings} {store : Store} {t t' : Tree} {now : String}
    {documents : List Path} {built : List Built}
    (h : buildPages s store t now documents = (t', .ok built)) :
    ∃ ledger b ends, store.load t now = .ok ledger ∧
      publish ((Localizer.start s.publisher ledger).batch now t store
        ((documents.map fun p => (p, readFile s.reading t p)).filterMap
          fun r => r.2.toOption.map draftOf))
        (documents.map fun p => (p, readFile s.reading t p)) = (b, .ok ends) ∧
      t' = b.files ∧ built = ends.map fun r => finish s.videoAttrs r.1 r.2 := by
  unfold buildPages at h
  cases hload : store.load t now with
  | error e => rw [hload] at h; cases h
  | ok ledger =>
    rw [hload] at h
    simp only at h
    generalize hpub : publish _ _ = r at h
    obtain ⟨b, o⟩ := r
    obtain ⟨rfl, hbuilt⟩ := Prod.mk.inj h
    obtain ⟨ends, rfl, rfl⟩ := map_eq_ok.mp hbuilt
    exact ⟨ledger, b, ends, rfl, hpub, rfl, rfl⟩

/-- A program that succeeds has read all documents, and all of them returned in one order of
events. -/
theorem buildPages_builds {s : Settings} {store : Store} {t t' : Tree} {now : String}
    {documents : List Path} {built : List Built}
    (hL : ∀ {b e b'}, Step b e b' → Scheduled b e → L b e b')
    (h : buildPages s store t now documents = (t', .ok built)) :
    Builds L s t now store documents built := by
  obtain ⟨ledger, b', ends, hload, hpub, -, rfl⟩ := buildPages_ok h
  obtain ⟨hread, hb', hnone, hends⟩ := publish_ok hpub
  obtain ⟨pages, hpages, hmap⟩ := readings_ok fun p hp => hread _ (List.mem_map_of_mem hp)
  have hdrafts : ((documents.map fun p => (p, readFile s.reading t p)).filterMap
      fun r => r.2.toOption.map draftOf) = pages.map draftOf := by
    rw [← hmap, List.map_filterMap]
  obtain ⟨es, hrun, hended⟩ := execution_of_publish (fit_start s.publisher ledger now t store
    (pages.map draftOf)) hL
  rw [hdrafts] at hb'
  rw [← hb'] at hrun hended
  have hlen : pages.length = b'.results.length := by
    have hdocs := congrArg List.length hrun.drafts.2
    simp only [List.length_map, Localizer.batch, Batch.results] at hdocs ⊢
    omega
  rw [hmap] at hnone hends
  obtain ⟨results, hresults, hzip⟩ := outcomes_ok hended hlen hnone
  have hpairs : (ends.map fun r => finish s.videoAttrs r.1 r.2) =
      List.zipWith (finish s.videoAttrs) pages results := by
    rw [← hends, hzip, List.map_zip_eq_zipWith]
    rfl
  rw [hpairs]
  exact .intro ledger pages results es b' hload hpages hrun hresults

end DocumentMedia.Site
