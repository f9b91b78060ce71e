import DocumentMedia.Proofs.Asset.Again
import DocumentMedia.Proofs.Asset.Extension

/-! # Files named as they are written

A relative reference without blanks that ends in an extension of media is taken as a whole, and as
it is written before its percent codes are read. So the file that it names is the one that is
published, whatever other files there are. -/
namespace DocumentMedia.Asset

open DocumentMedia.Files
open DocumentMedia.Ledger (Store)
open DocumentMedia.Text

/-- A reference with an extension of media, without blanks, that names a file below a folder as it
is written. -/
structure AsWritten (t : Tree) (folder : Path) (raw : String) : Prop where
  relative : isExternal raw = false
  media : isMediaExt (lowerString (Path.ofString raw).suffix) = true
  solid : ∀ c ∈ raw.toList, isBlank c = false
  file : t.isFile (folder.join (Path.ofString raw)) = .ok true

section

variable {s x : List Char}

theorem EndsIn.ne_nil (h : EndsIn x s) : s ≠ [] := by
  obtain ⟨front, t, rfl, -⟩ := h
  simp

theorem EndsIn.getLast?_ne (hx : IsMediaWord x) (h : EndsIn x s) : s.getLast? ≠ some '>' := by
  obtain ⟨front, t, rfl, ht⟩ := h
  intro hlast
  have hplain : '>' ∉ x ++ t := by
    rw [List.mem_append, not_or]
    exact ⟨hx.notMem (by decide), ht.notMem (by decide) (by decide)⟩
  rw [List.append_assoc, List.cons_append, List.getLast?_append_of_ne_nil _ (List.cons_ne_nil _ _),
    List.getLast?_cons_of_ne_nil (List.append_ne_nil_of_left_ne_nil hx.ne_nil t)] at hlast
  exact hplain (List.mem_of_getLast? hlast)

theorem bare_of_solid (h : ∀ c ∈ s, isBlank c = false) (hlast : s.getLast? ≠ some '>') :
    bare s = s := by
  have htrimmed : Trimmed s :=
    ⟨fun c hc => h c (List.mem_of_mem_head? hc), fun c hc => h c (List.mem_of_getLast? hc)⟩
  unfold bare
  rw [htrimmed.strip]
  dsimp only
  split
  · next r =>
    split
    · next inside hinside =>
      have hend : ('<' :: r).getLast? = some '>' := by
        rw [← List.reverse_reverse r, hinside]
        simp [List.getLast?_cons]
      exact absurd hend hlast
    · rfl
  · rfl

end

namespace Publisher

variable {p : Publisher} {t : Tree} {document folder : Path} {raw : String}

theorem localPath?_asWritten (h : AsWritten t folder raw) : localPath? raw = some raw := by
  have hmedia := h.media
  rw [← String.ofList_toList (s := raw)] at hmedia
  obtain ⟨x, hx, hends⟩ := endsIn_of_suffix hmedia
  have hbare : bare raw.toList = raw.toList := bare_of_solid h.solid (hends.getLast?_ne hx)
  have hempty : raw.toList.isEmpty = false := by simpa using hends.ne_nil
  have hsolid : raw.toList.any isBlank = false := by simpa using h.solid
  have hrelative : isExternalText raw.toList = false := h.relative
  unfold localPath?
  simp only [hbare, hempty, hrelative, hsolid, String.ofList_toList, h.media]
  rfl

theorem firstFile_cons {name : String} {rest : List String}
    (h : t.isFile (folder.join (Path.ofString name)) = .ok true) :
    firstFile t folder (name :: rest) = .ok (some (folder.join (Path.ofString name))) := by
  rw [firstFile, h]
  rfl

theorem find_asWritten (p : Publisher) (h : AsWritten t document.parent raw) :
    ∃ bytes, t.readBytes (document.parent.join (Path.ofString raw)) = .ok bytes ∧
      p.find t document raw = .ok (some (p.findOf (p.idOf document)
        (document.parent.join (Path.ofString raw)) bytes raw)) := by
  obtain ⟨bytes, hbytes⟩ := readBytes_of_isFile h.file
  refine ⟨bytes, hbytes, ?_⟩
  have hfirst : firstFile t document.parent (spellings raw) =
      .ok (some (document.parent.join (Path.ofString raw))) := by
    rw [spellings, List.eraseDups_cons]
    exact firstFile_cons h.file
  simp only [find, localPath?_asWritten h, hfirst, hbytes, ok_bind]
  rfl

end Publisher

namespace Batch

/-- A reference that names a file as it is written leads to that file, and in every execution a
document that returned has published it: at the place of the reference stands the public path of an
asset with the hash of the file, as it was when the document was scanned. -/
theorem written_file_is_published {L : Batch → Event → Batch → Prop} {l : Localizer} {now : String}
    {files : Tree} {store : Store} {drafts : List Draft} {es : List Event} {b : Batch} {i : Nat}
    {d : Draft} {result : Localized} (h : Execution L (l.batch now files store drafts) es b)
    (hd : b.docs[i]? = some (d, .returned result)) :
    (∀ (p : Publisher) (t : Tree) (document : Path) (raw : String),
      AsWritten t document.parent raw → ∃ f bytes, p.find t document raw = .ok (some f) ∧
        f.source = document.parent.join (Path.ofString raw) ∧
        t.readBytes f.source = .ok bytes ∧ f.asset.hash = Sha1.hexDigest bytes) ∧
    ∃ es₁ es₂ u, es = es₁ ++ .scan i :: es₂ ∧ (l.batch now files store drafts).after es₁ = some u ∧
      ∀ (k : Nat) (raw : String), (references d)[k]? = some raw →
        AsWritten u.files d.path.parent raw → ∃ a ∈ result.assets, ∃ bytes,
          u.files.readBytes (d.path.parent.join (Path.ofString raw)) = .ok bytes ∧
          a.hash = Sha1.hexDigest bytes ∧
          (references (result.draft d.path))[k]? = some a.publicPath := by
  constructor
  · intro p t document raw hraw
    obtain ⟨bytes, hbytes, hfind⟩ := Publisher.find_asWritten p hraw
    exact ⟨_, bytes, hfind, rfl, hbytes, rfl⟩
  · rcases h.scanned hd rfl with ⟨old, hold, hr⟩ | ⟨es₁, es₂, u, shared, jobs, he, hu, hsc⟩
    · rw [(docs_batch hold).2] at hr
      cases hr
    refine ⟨es₁, es₂, u, he, hu, fun k raw hk hraw => ?_⟩
    obtain ⟨bytes, hbytes, hfind⟩ := Publisher.find_asWritten u.publisher hraw
    rcases find_of_scan hsc (List.mem_of_getElem? hk) with ⟨f, hf, hshown, ha⟩ | ⟨hnone, -⟩
    · obtain rfl : f = _ := by simpa [hfind] using hf.symm
      refine ⟨_, ha, bytes, hbytes, rfl, ?_⟩
      rw [references_of_scan hsc, List.getElem?_map, hk, Option.map_some, hshown]
    · rw [hfind] at hnone
      cases hnone

section Sample

theorem written_file_is_published_sample : ∃ (b : Batch) (result : Localized),
    b.docs[0]? = some (mixedDraft, .returned result) ∧ ∃ a ∈ result.assets,
      a.hash = Sha1.hexDigest [1, 2, 3] ∧
        (references (result.draft mixedDraft.path))[0]? = some a.publicPath := by
  obtain ⟨b, hb, hshown⟩ := Option.bind_eq_some_iff.mp mixed_run
  have hrun : Execution (fun _ _ _ => True) mixedStart mixedEvents b :=
    execution_of_checked (fun _ => trivial) hb
  unfold shownIn at hshown
  split at hshown
  · next d result hdocs =>
    have hd : b.docs[0]? = some (d, .returned result) := by
      rw [hdocs]
      rfl
    obtain rfl : d = mixedDraft := by
      have hdraft := hrun.drafts.2
      rw [hdocs] at hdraft
      exact (List.cons.inj hdraft).1
    obtain ⟨-, es₁, es₂, u, he, hu, hpublished⟩ := written_file_is_published hrun hd
    -- The only scan is the first event, so it sees the files of the start.
    obtain rfl : es₁ = [] := by
      cases es₁ with
      | nil => rfl
      | cons e es₁ =>
        have hscan : Event.scan 0 ∈ mixedEvents.tail := by
          rw [he]
          simp
        simp [mixedEvents] at hscan
    obtain rfl : mixedStart = u := Option.some.inj hu
    have hwritten : AsWritten mixedStart.files mixedDraft.path.parent "m.mp4" :=
      ⟨by decide, by decide +kernel, forall_mem_of_all (by decide), by decide +kernel⟩
    have hbytes : mixedStart.files.readBytes (mixedDraft.path.parent.join (Path.ofString "m.mp4")) =
        .ok [1, 2, 3] := by
      decide +kernel
    obtain ⟨a, ha, bytes, hread, hhash, hplace⟩ :=
      hpublished 0 "m.mp4" (by decide +kernel) hwritten
    rw [hbytes] at hread
    cases hread
    exact ⟨b, result, hd, a, ha, hhash, hplace⟩
  · cases hshown

/-- Another file beside the one that is named last. -/
def besideFiles : Tree :=
  { sampleFiles with entries := (["my m.mp4"], .file (.bytes [7])) :: sampleFiles.entries }

/-- The hashes of what documents that returned have published. -/
def publishedHashes (b : Batch) : List String :=
  b.docs.flatMap fun
    | (_, .returned result) => result.assets.map Asset.hash
    | _ => []

/-- With a blank in its name a file is passed over for the one that the rest of the name names. -/
theorem blanks_cut_names :
    Trimmed "my m.mp4".toList ∧ isExternal "my m.mp4" = false ∧
      isMediaExt (lowerString (Path.ofString "my m.mp4").suffix) = true ∧
      besideFiles.readBytes ((⟨"", ["a.md"]⟩ : Path).parent.join (Path.ofString "my m.mp4")) =
        .ok [7] ∧
      publishedHashes ((Localizer.start {} []).batch "2024" besideFiles (.memory [] 0)
        [sampleDraft "a.md" ["my m.mp4"]]).run = [Sha1.hexDigest [1, 2, 3]] ∧
      Sha1.hexDigest [1, 2, 3] ≠ Sha1.hexDigest [7] := by
  decide +kernel

end Sample

end Batch

end DocumentMedia.Asset
