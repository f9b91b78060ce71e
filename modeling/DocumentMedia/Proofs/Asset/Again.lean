import DocumentMedia.Proofs.Asset.Find
import DocumentMedia.Proofs.Asset.Scan
import DocumentMedia.Proofs.Asset.Step
import Mathlib.Data.List.Forall2

/-! # Publishing a document again

After a document was published each of its references is a public path or as it was written. A
public path is no local path, so there is nothing left to publish in a document that was published.
-/
namespace DocumentMedia.Asset

open DocumentMedia.Files DocumentMedia.Text
open DocumentMedia.Ledger (Store)

/-! ## Public paths -/

theorem strip_cons {c : Char} (hc : isBlank c = false) (cs : List Char) :
    ∃ cs', strip (c :: cs) = c :: cs' := by
  have hstart : stripStart (c :: cs) = c :: cs := by
    simp [stripStart, hc]
  refine ⟨(cs.reverse.dropWhile isBlank).reverse, ?_⟩
  rw [strip, hstart, stripEnd, List.reverse_cons, List.dropWhile_append]
  split
  · next he =>
    rw [List.isEmpty_iff.mp he]
    simp [hc]
  · simp

theorem localPath?_of_slash {raw : String} {cs : List Char} (h : raw.toList = '/' :: cs) :
    localPath? raw = none := by
  obtain ⟨cs', hs⟩ := strip_cons (show isBlank '/' = false by decide) cs
  have hbare : bare raw.toList = '/' :: cs' := by
    rw [h, bare, hs]
    rfl
  simp [localPath?, hbare, isExternalText]

theorem publicPath_slash (mode : DedupeMode) (base id digest ext : String) :
    ∃ cs, (publicPath mode base id digest ext).toList = '/' :: cs := by
  cases mode with
  | shared =>
    refine ⟨trimSlashes base.toList ++ "/hash/".toList ++ digest.toList ++ ext.toList, ?_⟩
    simp [publicPath]
  | perPost =>
    refine ⟨trimSlashes base.toList ++ "/images/".toList ++ id.toList ++ '/' :: digest.toList ++
      ext.toList, ?_⟩
    simp [publicPath]

namespace Publisher

variable {p : Publisher} {t : Tree} {document folder : Path} {raw : String}

/-- No public path names a local file, whatever the mode, the base and the identifier. -/
theorem localPath?_published {f : Find} (h : p.find t document raw = .ok (some f)) :
    localPath? f.asset.publicPath = none := by
  obtain ⟨reference, bytes, -, -, -, he⟩ := find_spec h
  obtain ⟨cs, hs⟩ := publicPath_slash p.mode p.publicBase (p.idOf document) (Sha1.hexDigest bytes)
    (Text.lowerString f.source.suffix)
  have hpath := congrArg (fun f => f.asset.publicPath) he
  simp only [publicPath_findOf] at hpath
  exact localPath?_of_slash (hpath ▸ hs)

/-! ## References that are not published -/

/-- Neither spelling of a local path names a file. -/
def Missing (t : Tree) (folder : Path) (raw : String) : Prop :=
  ∃ reference, localPath? raw = some reference ∧
    ∀ spelling ∈ spellings reference, NoFile t folder spelling

/-- The first spelling of a local path that names a file names one that cannot be read. -/
def Unreadable (t : Tree) (folder : Path) (raw : String) : Prop :=
  ∃ reference before spelling after e, localPath? raw = some reference ∧
    spellings reference = before ++ spelling :: after ∧
    (∀ s ∈ before, NoFile t folder s) ∧
    t.isFile (folder.join (Path.ofString spelling)) = .ok true ∧
    t.readBytes (folder.join (Path.ofString spelling)) = .error e

theorem firstFile_none {spellings : List String} :
    firstFile t folder spellings = .ok none ↔ ∀ s ∈ spellings, NoFile t folder s := by
  induction spellings with
  | nil => simp [firstFile]
  | cons s rest ih =>
    rw [firstFile, List.forall_mem_cons, ← ih, NoFile]
    cases t.isFile (folder.join (Path.ofString s)) with
    | error e => simp [bind, Except.bind]
    | ok there => cases there <;> simp [ok_bind, pure, Except.pure]

theorem find_none (h : p.find t document raw = .ok none) :
    localPath? raw = none ∨ Missing t document.parent raw ∨ Unreadable t document.parent raw := by
  have hs := finds p t document raw
  rw [h] at hs
  cases hs with
  | foreign hr => exact Or.inl hr
  | absent reference hr hf => exact Or.inr (Or.inl ⟨reference, hr, firstFile_none.mp hf⟩)
  | unreadable reference source e hr hf hb =>
    obtain ⟨before, s, after, hsplit, hbefore, rfl, hfile⟩ := firstFile_some hf
    exact Or.inr (Or.inr ⟨reference, before, s, after, e, hr, hsplit, hbefore, hfile, hb⟩)

theorem find_of_foreign (h : localPath? raw = none) : p.find t document raw = .ok none := by
  simp only [find, h]
  rfl

theorem find_of_missing (h : Missing t document.parent raw) :
    p.find t document raw = .ok none := by
  obtain ⟨reference, hr, hmissing⟩ := h
  simp only [find, hr, firstFile_none.mpr hmissing]
  rfl

theorem readBytes_of_isFile {q : Path} (h : t.isFile q = .ok true) :
    ∃ bytes, t.readBytes q = .ok bytes := by
  simp only [Tree.isFile, Tree.ask] at h
  split at h
  · next e he =>
    cases e with
    | file c =>
      refine ⟨c.toBytes, ?_⟩
      simp only [Tree.readBytes, Tree.readContent, he]
      rfl
    | directory => cases h
    | link => cases h
  · split at h <;> cases h

theorem not_unreadable : ¬ Unreadable t folder raw := by
  rintro ⟨reference, before, s, after, e, -, -, -, hfile, hb⟩
  obtain ⟨bytes, hbytes⟩ := readBytes_of_isFile hfile
  rw [hbytes] at hb
  cases hb

end Publisher

open Publisher (Missing Unreadable)

/-! ## Scans that find nothing -/

theorem scanAll_of_none {p : Publisher} {t : Tree} {now : String} {document : Path} {sc : Scan}
    {refs : List String} (h : ∀ raw ∈ refs, p.find t document raw = .ok none) :
    ∃ found, scanAll p t now document sc refs = (⟨sc.shared, sc.jobs, found⟩, none) := by
  induction refs generalizing sc with
  | nil => exact ⟨sc.found, rfl⟩
  | cons raw rest ih =>
    rw [List.forall_mem_cons] at h
    obtain ⟨found, hrest⟩ := @ih ⟨sc.shared, sc.jobs, Assoc.put sc.found raw none⟩ h.2
    refine ⟨found, ?_⟩
    rw [scanAll]
    simp only [h.1, hrest]

/-- A document without misfits, none of whose references leads to a file, stays as it is. -/
theorem scan_of_none {p : Publisher} {t : Tree} {now : String} {d : Draft} {s : Shared}
    (hm : beforeMisfit? d = none) (h : ∀ raw ∈ references d, p.find t d.path raw = .ok none) :
    Asset.scan p t now d s = (s, .ok ([], ⟨d.tree, d.fields, []⟩)) := by
  have hscan : toScan d = references d := by
    rw [toScan, hm, Option.getD_none]
  obtain ⟨found, hall⟩ := @scanAll_of_none p t now d.path ⟨s, [], []⟩ _ h
  have heq : Asset.scan p t now d s =
      (s, .ok ([], relink (fun raw => (Assoc.find? found raw).join) d)) := by
    simp [Asset.scan, hscan, hall, hm]
  obtain ⟨-, hrelink, -⟩ := scan_ok heq
  rw [heq, hrelink, relink_of_none]
  intro raw hraw
  simp [Publisher.publish, h raw hraw, Except.toOption]

/-! ## Documents that were published -/

/-- A document as it is after it was published. -/
def Localized.draft (r : Localized) (path : Path) : Draft := ⟨path, r.tree, r.fields⟩

/-- What became of a reference: the public path of an asset, or the text as it was, which is no
local path, names no file or names one that cannot be read. -/
inductive Resolved (t : Tree) (folder : Path) (assets : List Asset) (raw : String) :
    String → Prop where
  | published (a) (ha : a ∈ assets) : Resolved t folder assets raw a.publicPath
  | foreign (hr : localPath? raw = none) : Resolved t folder assets raw raw
  | missing (hr : Missing t folder raw) : Resolved t folder assets raw raw
  | unreadable (hr : Unreadable t folder raw) : Resolved t folder assets raw raw

theorem find_of_scan {p : Publisher} {t : Tree} {now : String} {d : Draft} {s s' : Shared}
    {jobs : List Path} {result : Localized}
    (h : Asset.scan p t now d s = (s', .ok (jobs, result))) {raw : String}
    (hraw : raw ∈ references d) :
    (∃ f, p.find t d.path raw = .ok (some f) ∧
      shown (p.publish t d.path) raw = f.asset.publicPath ∧ f.asset ∈ result.assets) ∨
    p.find t d.path raw = .ok none ∧ shown (p.publish t d.path) raw = raw := by
  obtain ⟨-, rfl, sc, hscans, -, -⟩ := scan_ok h
  obtain ⟨-, r, hr, -⟩ := hscans.complete rfl hraw
  cases r with
  | none =>
    refine Or.inr ⟨hr, shown_of_none ?_⟩
    simp [Publisher.publish, hr, Except.toOption]
  | some f =>
    have hpub : p.publish t d.path raw = some f.asset := Publisher.publish_eq_some.mpr ⟨f, hr, rfl⟩
    exact Or.inl ⟨f, hr, shown_of_some hpub, List.mem_filterMap.mpr ⟨raw, hraw, hpub⟩⟩

theorem references_of_scan {p : Publisher} {t : Tree} {now : String} {d : Draft} {s s' : Shared}
    {jobs : List Path} {result : Localized}
    (h : Asset.scan p t now d s = (s', .ok (jobs, result))) :
    references (result.draft d.path) = (references d).map (shown (p.publish t d.path)) := by
  obtain ⟨-, rfl, -⟩ := scan_ok h
  exact references_relink d

theorem resolved_of_scan {p : Publisher} {t : Tree} {now : String} {d : Draft} {s s' : Shared}
    {jobs : List Path} {result : Localized}
    (h : Asset.scan p t now d s = (s', .ok (jobs, result))) :
    List.Forall₂ (Resolved t d.path.parent result.assets) (references d)
      (references (result.draft d.path)) := by
  rw [references_of_scan h, List.forall₂_map_right_iff, List.forall₂_same]
  intro raw hraw
  rcases find_of_scan h hraw with ⟨f, -, hshown, ha⟩ | ⟨hnone, hshown⟩
  · rw [hshown]
    exact .published f.asset ha
  · rw [hshown]
    rcases Publisher.find_none hnone with hr | hr | hr
    · exact .foreign hr
    · exact .missing hr
    · exact .unreadable hr

/-- A document that was published is not changed again while nothing appears where its references
found no file, whoever publishes it. -/
theorem scan_again {p p' : Publisher} {t t' : Tree} {now now' : String} {d : Draft}
    {s s' u : Shared} {jobs : List Path} {result : Localized}
    (h : Asset.scan p t now d s = (s', .ok (jobs, result)))
    (hmissing : ∀ raw ∈ references d, Missing t d.path.parent raw →
      Missing t' d.path.parent raw) :
    Asset.scan p' t' now' (result.draft d.path) u =
      (u, .ok ([], ⟨result.tree, result.fields, []⟩)) := by
  have hmisfit : beforeMisfit? (result.draft d.path) = none := by
    obtain ⟨hm, rfl, -⟩ := scan_ok h
    exact beforeMisfit?_relink hm
  apply scan_of_none hmisfit
  intro raw' hraw'
  rw [references_of_scan h] at hraw'
  obtain ⟨raw, hraw, rfl⟩ := List.mem_map.mp hraw'
  rcases find_of_scan h hraw with ⟨f, hf, hshown, -⟩ | ⟨hnone, hshown⟩
  · rw [hshown]
    exact Publisher.find_of_foreign (Publisher.localPath?_published hf)
  · rw [hshown]
    rcases Publisher.find_none hnone with hr | hr | hr
    · exact Publisher.find_of_foreign hr
    · exact Publisher.find_of_missing (hmissing raw hraw hr)
    · exact absurd hr Publisher.not_unreadable

section Sample

open Batch

def mixedDraft : Draft := sampleDraft "a.md" ["m.mp4", "gone.mp4", "https://media/m.mp4"]

def mixedStart : Batch :=
  (Localizer.start {} []).batch "2024" sampleFiles (.memory [] 0) [mixedDraft]

/-- The first of three references is published, the others lead nowhere. -/
def mixedEvents : List Event :=
  [.scan 0, .start sampleM, .settle sampleM copiedFiles none, .take 0,
    .save (.ok (.memory [] 1, copiedFiles))]

def shownIn (b : Batch) : Option (List String) :=
  match b.docs with
  | [(d, .returned result)] => some (references (result.draft d.path))
  | _ => none

theorem mixed_run : (checked (fun _ _ _ => true) mixedStart mixedEvents >>= shownIn) =
    some ["/assets/hash/7037807198c22a7d2b0807371d763779a84fdfcf.mp4", "gone.mp4",
      "https://media/m.mp4"] := by
  decide +kernel

end Sample

end DocumentMedia.Asset
