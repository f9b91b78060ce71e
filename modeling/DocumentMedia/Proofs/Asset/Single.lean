import DocumentMedia.Proofs.Asset.Find
import DocumentMedia.Proofs.Asset.Scan
import DocumentMedia.Proofs.Document.ImageNotation

/-! # Documents with one reference

A document with one reference is scanned as that reference is found. What is found for a plain
reference to a media file has the extension of the reference. -/
namespace DocumentMedia.Asset

open DocumentMedia.Files DocumentMedia.Text
open DocumentMedia.Document (IsReference mediaField isImageKind)

namespace Publisher

variable {p : Publisher} {t : Tree} {a b : Path} {raw : String}

/-- A lookup does not depend on the document but for its folder and, where the files of documents
are kept apart, its identifier. -/
theorem find_congr (hparent : a.parent = b.parent)
    (hid : p.mode = .shared ∨ p.idOf a = p.idOf b) : p.find t a raw = p.find t b raw := by
  have hfind (source : Path) (bytes : Bytes) (reference : String) :
      p.findOf (p.idOf a) source bytes reference = p.findOf (p.idOf b) source bytes reference := by
    rcases hid with hmode | hid
    · simp only [findOf, hmode, publicPath]
    · rw [hid]
  unfold find
  rw [hparent]
  simp only [hfind]

/-- The asset that is found for a reference, if there is one. -/
def published (p : Publisher) (t : Tree) (document : Path) (raw : String) : Option Asset :=
  match p.find t document raw with
  | .ok f => f.map Find.asset
  | .error _ => none

end Publisher

/-! ## Plain references -/

section

variable {url : List Char}

theorem bare_reference (h : IsReference url) : bare url = url := by
  have hstrip := h.trimmed.strip
  unfold bare
  rw [hstrip]
  dsimp only
  split
  · next r => exact absurd (h.chars '<' List.mem_cons_self).2 (by decide)
  · rfl

/-- The extension of a reference in lower case. -/
def extOf (url : List Char) : String := lowerString (Path.ofString (String.ofList url)).suffix

theorem localPath?_reference (h : IsReference url) (hm : isMediaExt (extOf url))
    {reference : String} (hr : localPath? (String.ofList url) = some reference) : reference = String.ofList url := by
  have hblank : url.any isBlank = false := by
    simpa using fun c hc => (h.chars c hc).1
  rw [extOf] at hm
  unfold localPath? at hr
  simp only [String.toList_ofList, bare_reference h, hm, hblank] at hr
  split at hr
  · cases hr
  · simpa using hr.symm

theorem spellings_reference (h : IsReference url) :
    Publisher.spellings (String.ofList url) = [String.ofList url] := by
  have hpercent : '%' ∉ url := fun hc => absurd (h.chars '%' hc).2 (by decide)
  simp [Publisher.spellings, unpercent, String.toList_ofList, hpercent, List.eraseDups_cons]

theorem suffix_join {folder q : Path} (h : q.suffix ≠ "") : (folder.join q).suffix = q.suffix := by
  cases hlast : q.parts.getLast? with
  | none =>
    refine absurd ?_ h
    rw [Path.suffix, Path.name, hlast]
    rfl
  | some name =>
    rw [Path.suffix, Path.name_join hlast, Path.suffix, Path.name, hlast, Option.getD_some]

theorem suffix_ne_empty {q : Path} (h : isMediaExt (lowerString q.suffix)) : q.suffix ≠ "" := by
  intro he
  rw [he] at h
  exact absurd h (by decide)

variable {p : Publisher} {t : Tree} {document : Path} {a : Asset}

/-- What is published for a plain reference is made of the bytes of a file with its extension. -/
theorem published_spec (h : IsReference url) (hm : isMediaExt (extOf url))
    (ha : p.published t document (String.ofList url) = some a) :
    ∃ source bytes, lowerString source.suffix = extOf url ∧
      a = (p.findOf (p.idOf document) source bytes (String.ofList url)).asset := by
  unfold Publisher.published at ha
  split at ha
  · next found hf =>
    obtain ⟨f, rfl, rfl⟩ := Option.map_eq_some_iff.mp ha
    obtain ⟨reference, bytes, hr, hfile, -, he⟩ := Publisher.find_spec hf
    obtain rfl := localPath?_reference h hm hr
    rw [spellings_reference h] at hfile
    obtain ⟨s, hs, hsource, -⟩ := Publisher.firstFile_mem hfile
    obtain rfl := List.mem_singleton.mp hs
    refine ⟨f.source, bytes, ?_, congrArg Find.asset he⟩
    rw [hsource, suffix_join (suffix_ne_empty hm), extOf]
  · cases ha

theorem trimmed_publicPath (mode : DedupeMode) (base id digest : String) {ext : String}
    (hm : isMediaExt ext) : Trimmed (publicPath mode base id digest ext).toList := by
  have hext : ∀ ext ∈ imageExts ++ videoExts, ext.toList.getLast?.any (!isBlank ·) := by decide
  have hmem : ext ∈ imageExts ++ videoExts := by
    simpa [isMediaExt] using hm
  obtain ⟨c, hc, hblank⟩ := (Option.any_eq_true _ _).mp (hext ext hmem)
  rw [Bool.not_eq_true'] at hblank
  constructor
  · intro d hd
    have hslash : (publicPath mode base id digest ext).toList.head? = some '/' := by
      cases mode <;> simp [publicPath]
    rw [hslash] at hd
    obtain rfl := Option.some.inj hd
    decide
  · intro d hd
    obtain ⟨before, -, -, -, hsplit⟩ := Publisher.publicPath_split mode base id digest ext
    rw [hsplit, List.getLast?_append, List.getLast?_cons, List.getLast?_append, hc] at hd
    obtain rfl := Option.some.inj hd
    exact hblank

theorem published_trimmed (h : IsReference url) (hm : isMediaExt (extOf url))
    (ha : p.published t document (String.ofList url) = some a) : Trimmed a.publicPath.toList := by
  obtain ⟨source, bytes, hext, rfl⟩ := published_spec h hm ha
  rw [Publisher.publicPath_findOf, hext]
  exact trimmed_publicPath _ _ _ _ hm

theorem published_sized (h : IsReference url) (hm : isMediaExt (extOf url))
    (ha : p.published t document (String.ofList url) = some a) (hw : a.media.width ≠ none) :
    a.media.kind = "image" := by
  obtain ⟨source, bytes, hext, rfl⟩ := published_spec h hm ha
  have hkind : ∀ ext ∈ imageExts, mediaKind ext = "image" := by decide
  by_cases himage : imageExts.contains (extOf url) = true
  · simp only [Publisher.findOf, hext]
    exact hkind _ (by simpa using himage)
  · refine absurd ?_ hw
    simp only [Publisher.findOf, Publisher.sizeOf, hext, himage]
    rfl

end

/-! ## Scans -/

/-- What becomes of the one reference of a document: what is shared afterwards, and the copy to wait
for, if any. -/
def scanFind (t : Tree) (now : String) (s : Shared) :
    Except FileError (Option Find) → Shared × Except PublishError (List Path)
  | .error e => (s, .error (.file e))
  | .ok none => (s, .ok [])
  | .ok (some f) =>
    match (s.record now f.asset).schedule t f with
    | .error e => (s.record now f.asset, .error (.file e))
    | .ok (shared, job) =>
      match f.fault with
      | some e => (shared, .error (.picture e))
      | none => (shared, .ok job.toList)

/-- An asset for one reference and none for others. -/
def only (raw : String) (a : Option Asset) (raw' : String) : Option Asset :=
  if raw = raw' then a else none

theorem only_found (raw : String) (a : Option Asset) :
    (fun raw' => (Assoc.find? (Assoc.put [] raw a) raw').join) = only raw a := by
  funext raw'
  by_cases h : raw = raw' <;> simp [Assoc.put, Assoc.find?, only, h]

theorem scan_single {p : Publisher} {t : Tree} {d : Draft} {raw : String}
    (hrefs : references d = [raw]) (hm : beforeMisfit? d = none) (now : String) (s : Shared) :
    scan p t now d s = ((scanFind t now s (p.find t d.path raw)).1,
      (scanFind t now s (p.find t d.path raw)).2.map fun jobs =>
        (jobs, relink (only raw (p.published t d.path raw)) d)) := by
  unfold scan toScan
  rw [hm, hrefs, Option.getD_none]
  unfold scanAll Publisher.published
  cases hf : p.find t d.path raw with
  | error e => rfl
  | ok found =>
    cases found with
    | none =>
      simp only [scanAll, scanFind, only_found]
      rfl
    | some f =>
      simp only [scanFind]
      cases hs : (s.record now f.asset).schedule t f with
      | error e => rfl
      | ok shared =>
        obtain ⟨shared, job⟩ := shared
        cases hfault : f.fault with
        | some e => rfl
        | none =>
          simp only [scanAll, only_found]
          rfl

end DocumentMedia.Asset
