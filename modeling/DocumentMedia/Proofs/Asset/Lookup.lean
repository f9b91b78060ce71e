import DocumentMedia.Proofs.Asset.Find
import DocumentMedia.Proofs.Asset.Reference
import DocumentMedia.Proofs.Asset.Scan
import DocumentMedia.Proofs.Asset.Step

/-! # Where references are looked up

A scan asks the files about nothing but the paths that its references spell, read from the folder
of the document, and about the targets of what it finds. Main result: as long as no reference
disguises a rooted or remote path, all paths that are asked about and all sources of copies are
relative ones behind the folder of a document. -/
namespace DocumentMedia.Asset

open DocumentMedia.Files
open DocumentMedia.Text (unpercent NoSlashCode)

/-! ## What a reference spells -/

/-- No rooted or remote path hides in a reference: neither in the part that names the local path,
nor in the percent codes of that path. -/
structure Undisguised (raw : String) : Prop where
  part : ∀ w ∈ namedPart? raw, isExternalText w = false
  slash : ∀ s ∈ localPath? raw, NoSlashCode s.toList
  double : ∀ s ∈ localPath? raw, ¬ "//".toList <:+: s.toList.dropWhile (· ≠ '%')

instance (raw : String) : Decidable (Undisguised raw) :=
  decidable_of_iff
    ((∀ w ∈ namedPart? raw, isExternalText w = false) ∧
      (∀ s ∈ localPath? raw, NoSlashCode s.toList) ∧
      ∀ s ∈ localPath? raw, ¬ "//".toList <:+: s.toList.dropWhile (· ≠ '%'))
    ⟨fun ⟨hp, hs, hd⟩ => ⟨hp, hs, hd⟩, fun ⟨hp, hs, hd⟩ => ⟨hp, hs, hd⟩⟩

theorem Undisguised.isExternal {raw s : String} (h : Undisguised raw)
    (hs : localPath? raw = some s) :
    isExternal s = false ∧ isExternal (unpercent s) = false := by
  have hlocal := isExternal_localPath? hs h.part
  exact ⟨hlocal, isExternal_unpercent hlocal (h.slash s hs) (h.double s hs)⟩

theorem isAbsolute_of_isExternal {name : String} (h : isExternal name = false) :
    (Path.ofString name).isAbsolute = false := by
  have hroot : Path.rootOf name.toList = "" := by
    unfold Path.rootOf
    split
    · next hs => rw [isExternal, hs] at h; cases h
    · next hs => rw [isExternal, hs] at h; cases h
    · next hs => rw [isExternal, hs] at h; cases h
    · rfl
  rw [Path.isAbsolute, Path.ofString, hroot]
  rfl

/-- A relative path that is not remote, read from the folder of a document. -/
def IsLocal (document q : Path) : Prop :=
  ∃ name, isExternal name = false ∧ (Path.ofString name).isAbsolute = false ∧
    q = document.parent.join (Path.ofString name)

theorem IsLocal.root {document q : Path} (h : IsLocal document q) : q.root = document.root := by
  obtain ⟨name, -, hrelative, rfl⟩ := h
  rw [Path.join, hrelative]
  rfl

theorem isLocal_spelling {document : Path} {raw reference name : String} (h : Undisguised raw)
    (hr : localPath? raw = some reference) (hn : name ∈ Publisher.spellings reference) :
    IsLocal document (document.parent.join (Path.ofString name)) := by
  have hname : isExternal name = false := by
    obtain ⟨hplain, hdecoded⟩ := h.isExternal hr
    rw [Publisher.spellings, List.mem_eraseDups, List.mem_pair] at hn
    rcases hn with rfl | rfl
    · exact hplain
    · exact hdecoded
  exact ⟨name, hname, isAbsolute_of_isExternal hname, rfl⟩

/-! ## What a scan asks about -/

/-- Two trees tell the same of what a path leads to. -/
structure SameAnswer (t t' : Tree) (q : Path) : Prop where
  isFile : t'.isFile q = t.isFile q
  readBytes : t'.readBytes q = t.readBytes q

namespace Publisher

variable {p : Publisher} {t t' : Tree} {document : Path} {raw : String}

theorem firstFile_congr {folder : Path} {names : List String}
    (h : ∀ s ∈ names, SameAnswer t t' (folder.join (Path.ofString s))) :
    firstFile t' folder names = firstFile t folder names := by
  induction names with
  | nil => rfl
  | cons s rest ih =>
    rw [List.forall_mem_cons] at h
    rw [firstFile, firstFile, h.1.isFile, ih h.2]

theorem find_of_sameAnswer (h : ∀ reference ∈ localPath? raw, ∀ s ∈ spellings reference,
    SameAnswer t t' (document.parent.join (Path.ofString s))) :
    p.find t' document raw = p.find t document raw := by
  refine find_of_firstFile fun reference hr => ⟨firstFile_congr (h reference hr), fun source hf => ?_⟩
  obtain ⟨s, hs, rfl, -⟩ := firstFile_mem hf
  exact (h reference hr s hs).readBytes

end Publisher

variable {p : Publisher} {t t' : Tree} {now : String}

theorem Shared.schedule_congr {s : Shared} {f : Find}
    (h : t'.pathExists f.asset.target = t.pathExists f.asset.target) :
    s.schedule t' f = s.schedule t f := by
  unfold Shared.schedule
  dsimp only
  rw [h]

theorem scanAll_congr {document : Path} {refs : List String}
    (hfind : ∀ raw ∈ refs, p.find t' document raw = p.find t document raw)
    (htarget : ∀ path, t'.pathExists (p.targetOf path) = t.pathExists (p.targetOf path))
    (sc : Scan) :
    scanAll p t' now document sc refs = scanAll p t now document sc refs := by
  induction refs generalizing sc with
  | nil => rfl
  | cons raw rest ih =>
    rw [List.forall_mem_cons] at hfind
    unfold scanAll
    rw [hfind.1]
    cases hf : p.find t document raw with
    | error e => rfl
    | ok f? =>
      cases f? with
      | none => exact ih hfind.2 _
      | some f =>
        obtain ⟨reference, bytes, -, -, -, he⟩ := Publisher.find_spec hf
        have hschedule : (sc.shared.record now f.asset).schedule t' f =
            (sc.shared.record now f.asset).schedule t f := by
          refine Shared.schedule_congr ?_
          rw [he, Publisher.target_findOf]
          exact htarget _
        simp only [hschedule, ih hfind.2]

/-- A scan of a document that disguises nothing goes the same in all trees that tell the same of
local paths and of what stands at targets. -/
theorem scan_congr {d : Draft} (hd : ∀ raw ∈ toScan d, Undisguised raw)
    (hlocal : ∀ q, IsLocal d.path q → SameAnswer t t' q)
    (htarget : ∀ path, t'.pathExists (p.targetOf path) = t.pathExists (p.targetOf path))
    (s : Shared) : scan p t' now d s = scan p t now d s := by
  have hfind : ∀ raw ∈ toScan d, p.find t' d.path raw = p.find t d.path raw :=
    fun raw hraw => Publisher.find_of_sameAnswer fun reference hr name hn =>
      hlocal _ (isLocal_spelling (hd raw hraw) hr hn)
  unfold scan
  rw [scanAll_congr hfind htarget]

/-! ## What is copied -/

/-- The source of a copy is local to one of some documents. -/
def FromLocal (drafts : List Draft) (source : Path) : Prop := ∃ d ∈ drafts, IsLocal d.path source

/-- The source of a copy is local to a document, or that of a copy that was there before. -/
def Sourced (drafts : List Draft) (before s : Shared) : Prop :=
  ∀ q c, s.copy? q = some c →
    FromLocal drafts c.source ∨ ∃ c₀, before.copy? q = some c₀ ∧ c₀.source = c.source

theorem isLocal_of_find {document : Path} {raw : String} {f : Find} (h : Undisguised raw)
    (hf : p.find t document raw = .ok (some f)) : IsLocal document f.source := by
  obtain ⟨reference, bytes, hr, hfirst, -, -⟩ := Publisher.find_spec hf
  obtain ⟨s, hs, hsource, -⟩ := Publisher.firstFile_mem hfirst
  rw [hsource]
  exact isLocal_spelling h hr hs

namespace Batch

/-- What holds of the targets and sources of all copies, and of whatever a document that waits for
its scan may find, is kept by each event. -/
theorem sources_step {P : Path → Path → Prop} {b b' : Batch} {e : Event} (h : Step b e b')
    (hfind : ∀ (i : Nat) d, b.docs[i]? = some (d, .waiting) → ∀ raw ∈ toScan d, ∀ f,
      b.publisher.find b.files d.path raw = .ok (some f) → P f.asset.target f.source)
    (hb : ∀ q c, b.shared.copy? q = some c → P q c.source) :
    ∀ q c, b'.shared.copy? q = some c → P q c.source := by
  have hset : ∀ target state q c,
      (b.shared.setState target state).copy? q = some c → P q c.source := by
    intro target state q c hq
    rw [Shared.copy?_setState] at hq
    split at hq
    · obtain ⟨c', hc', rfl⟩ := Option.map_eq_some_iff.mp hq
      exact hb q c' hc'
    · exact hb q c hq
  cases h with
  | scan i d shared outcome hd hs =>
    obtain ⟨sc, o, hscans, rfl, -⟩ := scan_cases hs
    intro q c hq
    rcases hscans.grows.added q c hq with hold | ⟨-, -, -, raw, hmem, f, hf, rfl, hsource⟩
    · exact hb q c hold
    · rw [← hsource]
      exact hfind i d hd raw hmem f hf
  | start target => exact hset target _
  | settle target => exact hset target _
  | _ => exact hb

theorem sourced_step {drafts : List Draft} {before : Shared} {b b' : Batch} {e : Event}
    (h : Step b e b') (hdocs : b.docs.map (·.1) = drafts)
    (hraw : ∀ d ∈ drafts, ∀ raw ∈ toScan d, Undisguised raw)
    (hb : Sourced drafts before b.shared) : Sourced drafts before b'.shared := by
  refine sources_step (P := fun q source =>
    FromLocal drafts source ∨ ∃ c₀, before.copy? q = some c₀ ∧ c₀.source = source) h ?_ hb
  intro i d hd raw hmem f hf
  have hdraft : d ∈ drafts := by
    rw [← hdocs]
    exact List.mem_map_of_mem (List.mem_of_getElem? hd)
  exact Or.inl ⟨d, hdraft, isLocal_of_find (hraw d hdraft raw hmem) hf⟩

theorem sourced_run {L : Batch → Event → Batch → Prop} {b b' : Batch} {es : List Event}
    (h : Execution L b es b')
    (hraw : ∀ d ∈ b.docs.map (·.1), ∀ raw ∈ toScan d, Undisguised raw) :
    Sourced (b.docs.map (·.1)) b.shared b'.shared := by
  have hinvariant : b'.docs.map (·.1) = b.docs.map (·.1) ∧
      Sourced (b.docs.map (·.1)) b.shared b'.shared := by
    refine h.invariant (I := fun u => u.docs.map (·.1) = b.docs.map (·.1) ∧
      Sourced (b.docs.map (·.1)) b.shared u.shared) ⟨rfl, fun q c hq => Or.inr ⟨c, hq, rfl⟩⟩ ?_
    rintro u e u' hs - ⟨hdocs, hu⟩
    exact ⟨(step_drafts hs).2.trans hdocs, sourced_step hs hdocs hraw hu⟩
  exact hinvariant.2

/-- What a reference names that disguises nothing is not rooted or remote, and a batch whose
documents disguise no such paths neither asks about one nor copies from one, whatever happens in
which order. -/
theorem lookups_are_local {L : Batch → Event → Batch → Prop} {b b' : Batch} {es : List Event}
    (h : Execution L b es b')
    (hraw : ∀ d ∈ b.docs.map (·.1), ∀ raw ∈ toScan d, Undisguised raw) :
    (∀ raw, Undisguised raw → ∀ s ∈ localPath? raw,
      isExternal s = false ∧ isExternal (unpercent s) = false) ∧
    (∀ d ∈ b'.docs.map (·.1), ∀ files : Tree,
      (∀ q, IsLocal d.path q → SameAnswer b'.files files q) →
      (∀ path, files.pathExists (b'.publisher.targetOf path) =
        b'.files.pathExists (b'.publisher.targetOf path)) →
      Asset.scan b'.publisher files b'.now d b'.shared =
        Asset.scan b'.publisher b'.files b'.now d b'.shared) ∧
    Sourced (b.docs.map (·.1)) b.shared b'.shared := by
  refine ⟨fun raw hone s hs => hone.isExternal hs, ?_, sourced_run h hraw⟩
  intro d hd files hlocal htarget
  rw [h.drafts.2] at hd
  exact scan_congr (hraw d hd) hlocal htarget _

section Sample

def folderStart (file : Location) (reference : String) : Batch :=
  (Localizer.start {} []).batch "2024"
    ⟨[(file.dropLast, .directory), (file, .file (.bytes [1, 2, 3]))], []⟩ (.memory [] 0)
    [{ sampleDraft "a.md" [reference] with path := ⟨"", ["docs", "a.md"]⟩ }]

/-- The source of the copy that the scan of the first document schedules. -/
def scannedSource (b : Batch) : Option Path :=
  (b.after [.scan 0]).bind fun u => (u.shared.copy? sampleM).map Copy.source

theorem scannedSource_spec {b : Batch} {source : Path} (h : scannedSource b = some source) :
    ∃ u c, Execution (fun _ _ _ => True) b [.scan 0] u ∧
      u.shared.copy? sampleM = some c ∧ c.source = source := by
  obtain ⟨u, hu, hc⟩ := Option.bind_eq_some_iff.mp h
  obtain ⟨c, hc, hsource⟩ := Option.map_eq_some_iff.mp hc
  obtain ⟨v, hstep, rfl⟩ : ∃ v, b.step (.scan 0) = some v ∧ v = u := by
    simpa [after] using hu
  exact ⟨v, c, .cons (step_sound hstep) trivial (.nil v), hc, hsource⟩

theorem lookups_are_local_sample :
    FromLocal ((folderStart ["docs", "m.mp4"] "m.mp4").docs.map (·.1)) ⟨"", ["docs", "m.mp4"]⟩ ∧
      isExternal (unpercent "my%20m.mp4") = false := by
  have hundisguised : Undisguised "my%20m.mp4" := by decide +kernel
  have hraw : ∀ d ∈ (folderStart ["docs", "m.mp4"] "m.mp4").docs.map (·.1),
      ∀ raw ∈ toScan d, Undisguised raw := by
    decide +kernel
  have hscanned : scannedSource (folderStart ["docs", "m.mp4"] "m.mp4") =
      some ⟨"", ["docs", "m.mp4"]⟩ := by
    decide +kernel
  obtain ⟨b, c, hrun, hc, hsource⟩ := scannedSource_spec hscanned
  obtain ⟨hstring, -, hsourced⟩ := lookups_are_local hrun hraw
  have hplain := hstring "my%20m.mp4" hundisguised "my%20m.mp4" (by decide +kernel)
  rcases hsourced sampleM c hc with hfrom | ⟨c₀, hc₀, -⟩
  · exact ⟨hsource ▸ hfrom, hplain.2⟩
  · cases hc₀

theorem unpercent_rooted : unpercent "%2Fsecret/m.mp4" = "/secret/m.mp4" := by
  have hrest : Text.hasCode "ecret/m.mp4".toList = false := by decide +kernel
  rw [← String.toList_inj, Text.toList_unpercent,
    show "%2Fsecret/m.mp4".toList = ['%', '2', 'F'] ++ 's' :: "ecret/m.mp4".toList by decide,
    Text.decodeLossy_percentBytes_append (by decide) (by decide),
    Text.decodeLossy_percentBytes hrest, Text.percentBytes_code (n := 47) (by decide)]
  decide +kernel

/-- A rooted path is found in brackets and copied from the root of the file system, and another
becomes rooted when its percent codes are read. -/
theorem hidden_paths_are_opened :
    (∃ source,
      scannedSource (folderStart ["secret", "m.mp4"] "(/secret/m.mp4)") = some source ∧
      ¬ FromLocal ((folderStart ["secret", "m.mp4"] "(/secret/m.mp4)").docs.map (·.1)) source) ∧
    localPath? "(/secret/m.mp4)" = some "/secret/m.mp4" ∧ isExternal "/secret/m.mp4" ∧
    localPath? "%2Fsecret/m.mp4" = some "%2Fsecret/m.mp4" ∧
      isExternal (unpercent "%2Fsecret/m.mp4") := by
  refine ⟨⟨⟨"/", ["secret", "m.mp4"]⟩, by decide +kernel, ?_⟩, by decide +kernel, by decide,
    by decide +kernel, unpercent_rooted ▸ by decide⟩
  rintro ⟨d, hd, hlocal⟩
  rw [List.mem_singleton.mp hd] at hlocal
  exact absurd hlocal.root (by decide)

end Sample

end Batch

end DocumentMedia.Asset
