import DocumentMedia.Asset.Publisher
import DocumentMedia.Proofs.Files.Agree
import DocumentMedia.Proofs.Files.Path
import DocumentMedia.Proofs.Text.LetterCase
import Mathlib.Data.List.TakeWhile

/-! # What references lead to

A find is made of the bytes of the first file that a reference spells. The name of its target
begins with the hash of these bytes, so a target path tells what a whole file there holds. -/
namespace DocumentMedia.Asset

open DocumentMedia.Files

namespace Publisher

variable {p : Publisher} {t : Tree} {document : Path} {raw : String}

/-- The ways in which a reference is looked up. -/
inductive Finds (p : Publisher) (t : Tree) (document : Path) (raw : String) :
    Except FileError (Option Find) → Prop where
  | foreign (hr : localPath? raw = none) : Finds p t document raw (.ok none)
  | unreachable (reference e) (hr : localPath? raw = some reference)
      (hf : firstFile t document.parent (spellings reference) = .error e) :
      Finds p t document raw (.error e)
  | absent (reference) (hr : localPath? raw = some reference)
      (hf : firstFile t document.parent (spellings reference) = .ok none) :
      Finds p t document raw (.ok none)
  | unreadable (reference source e) (hr : localPath? raw = some reference)
      (hf : firstFile t document.parent (spellings reference) = .ok (some source))
      (hb : t.readBytes source = .error e) : Finds p t document raw (.ok none)
  | found (reference bytes f) (hr : localPath? raw = some reference)
      (hf : firstFile t document.parent (spellings reference) = .ok (some f.source))
      (hb : t.readBytes f.source = .ok bytes)
      (he : f = p.findOf (p.idOf document) f.source bytes reference) :
      Finds p t document raw (.ok (some f))

theorem finds (p : Publisher) (t : Tree) (document : Path) (raw : String) :
    Finds p t document raw (p.find t document raw) := by
  unfold find
  cases hr : localPath? raw with
  | none => exact .foreign hr
  | some reference =>
    dsimp only
    cases hf : firstFile t document.parent (spellings reference) with
    | error e => exact .unreachable reference e hr hf
    | ok source? =>
      cases source? with
      | none => exact .absent reference hr hf
      | some source =>
        simp only [ok_bind]
        cases hb : t.readBytes source with
        | error e => exact .unreadable reference source e hr hf hb
        | ok bytes => exact .found reference bytes _ hr hf hb rfl

/-- A find copies a file that was read, and its asset is named after what was read. -/
theorem find_spec {f : Find} (h : p.find t document raw = .ok (some f)) :
    ∃ reference bytes, localPath? raw = some reference ∧
      firstFile t document.parent (spellings reference) = .ok (some f.source) ∧
      t.readBytes f.source = .ok bytes ∧
      f = p.findOf (p.idOf document) f.source bytes reference := by
  have hs := finds p t document raw
  rw [h] at hs
  cases hs with
  | found reference bytes _ hr hf hb he => exact ⟨reference, bytes, hr, hf, hb, he⟩

/-- A spelling of a reference names no file. -/
def NoFile (t : Tree) (folder : Path) (spelling : String) : Prop :=
  t.isFile (folder.join (Path.ofString spelling)) = .ok false

theorem firstFile_some {folder source : Path} {spellings : List String}
    (h : firstFile t folder spellings = .ok (some source)) :
    ∃ before s after, spellings = before ++ s :: after ∧ (∀ s' ∈ before, NoFile t folder s') ∧
      source = folder.join (Path.ofString s) ∧ t.isFile source = .ok true := by
  induction spellings with
  | nil => cases h
  | cons s rest ih =>
    obtain ⟨there, hi, h⟩ := bind_eq_ok.mp h
    cases there with
    | true =>
      cases h
      exact ⟨[], s, rest, rfl, by simp, rfl, hi⟩
    | false =>
      obtain ⟨before, s', after, rfl, hbefore, hsource, hfile⟩ := ih h
      refine ⟨s :: before, s', after, rfl, ?_, hsource, hfile⟩
      exact List.forall_mem_cons.mpr ⟨hi, hbefore⟩

theorem firstFile_mem {folder source : Path} {spellings : List String}
    (h : firstFile t folder spellings = .ok (some source)) :
    ∃ s ∈ spellings, source = folder.join (Path.ofString s) ∧ t.isFile source = .ok true := by
  obtain ⟨before, s, after, rfl, -, hsource, hfile⟩ := firstFile_some h
  exact ⟨s, List.mem_append_right _ List.mem_cons_self, hsource, hfile⟩

/-- A reference leads to the same in two trees when the same file is the first one there, with the
same bytes. -/
theorem find_of_firstFile {t' : Tree} (h : ∀ reference ∈ localPath? raw,
    firstFile t' document.parent (spellings reference) =
        firstFile t document.parent (spellings reference) ∧
      ∀ source, firstFile t document.parent (spellings reference) = .ok (some source) →
        t'.readBytes source = t.readBytes source) :
    p.find t' document raw = p.find t document raw := by
  unfold find
  cases hr : localPath? raw with
  | none => rfl
  | some reference =>
    obtain ⟨hfirst, hbytes⟩ := h reference hr
    dsimp only
    rw [hfirst]
    cases hf : firstFile t document.parent (spellings reference) with
    | error e => rfl
    | ok source? =>
      cases source? with
      | none => rfl
      | some source => simp only [ok_bind, hbytes source hf]

/-! ## What a lookup depends on -/

/-- The paths that are tried for spellings, up to the first one that names a file. -/
def tried (t : Tree) (folder : Path) : List String → List Path
  | [] => []
  | s :: rest =>
    let source := folder.join (Path.ofString s)
    source :: if t.isFile source = .ok false then tried t folder rest else []

/-- Nothing that is tried for a reference passes through some places. -/
def Clear (W : Location → Prop) (t : Tree) (document : Path) (raw : String) : Prop :=
  ∀ reference ∈ localPath? raw, ∀ source ∈ tried t document.parent (spellings reference),
    t.Avoids W source

instance (W : Location → Prop) [DecidablePred W] (t : Tree) (document : Path) (raw : String) :
    Decidable (Clear W t document raw) :=
  match h : localPath? raw with
  | none => isTrue (by simp [Clear, h])
  | some reference =>
    decidable_of_iff
      (∀ source ∈ tried t document.parent (spellings reference), t.Avoids W source)
      (by simp [Clear, h])

section

variable {W : Location → Prop} {t' : Tree} {folder : Path}

theorem firstFile_agree (h : AgreeOff W t t') {spellings : List String}
    (ha : ∀ source ∈ tried t folder spellings, t.Avoids W source) :
    firstFile t' folder spellings = firstFile t folder spellings := by
  induction spellings with
  | nil => rfl
  | cons s rest ih =>
    simp only [tried] at ha
    simp only [firstFile]
    rw [Tree.isFile_agree h (ha _ List.mem_cons_self)]
    cases hi : t.isFile (folder.join (Path.ofString s)) with
    | error e => rfl
    | ok there =>
      cases there with
      | true => rfl
      | false =>
        rw [hi, if_pos rfl] at ha
        exact ih fun source hs => ha source (List.mem_cons_of_mem _ hs)

theorem mem_tried {before after : List String} {s : String}
    (h : ∀ s' ∈ before, NoFile t folder s') :
    folder.join (Path.ofString s) ∈ tried t folder (before ++ s :: after) := by
  induction before with
  | nil => exact List.mem_cons_self
  | cons b before ih =>
    rw [List.forall_mem_cons] at h
    have hb : t.isFile (folder.join (Path.ofString b)) = .ok false := h.1
    simp only [List.cons_append, tried, if_pos hb]
    exact List.mem_cons_of_mem _ (ih h.2)

theorem firstFile_tried {spellings : List String} {source : Path}
    (h : firstFile t folder spellings = .ok (some source)) : source ∈ tried t folder spellings := by
  obtain ⟨before, s, after, rfl, hbefore, rfl, -⟩ := firstFile_some h
  exact mem_tried hbefore

/-- A reference leads to the same in trees that agree at the places its lookup passes through. -/
theorem find_agree (h : AgreeOff W t t') (hc : Clear W t document raw) :
    p.find t' document raw = p.find t document raw :=
  find_of_firstFile fun reference hr =>
    ⟨firstFile_agree h (hc reference hr), fun source hf =>
      Tree.readBytes_agree h (hc reference hr source (firstFile_tried hf))⟩

end

/-! ## Names of targets -/

theorem dropSlashes_append {before after : List Char} {c : Char} (hc : c ∈ before) (hs : c ≠ '/') :
    (before ++ after).dropWhile (· = '/') = before.dropWhile (· = '/') ++ after := by
  rw [List.dropWhile_append, if_neg]
  intro he
  rw [List.isEmpty_iff, List.dropWhile_eq_nil_iff] at he
  exact hs (by simpa using he c hc)

/-- What a public path ends in: the hash and the extension, behind a slash. -/
theorem publicPath_split (mode : DedupeMode) (base id digest ext : String) :
    ∃ before c, c ∈ before ∧ c ≠ '/' ∧
      (publicPath mode base id digest ext).toList =
        before ++ '/' :: (digest.toList ++ ext.toList) := by
  cases mode with
  | shared =>
    refine ⟨'/' :: trimSlashes base.toList ++ "/hash".toList, 'h', by simp, by decide, ?_⟩
    simp [publicPath]
  | perPost =>
    refine ⟨'/' :: trimSlashes base.toList ++ "/images/".toList ++ id.toList, 'i', by simp,
      by decide, ?_⟩
    simp [publicPath]

theorem name_targetOf (p : Publisher) (mode : DedupeMode) (base id : String) {digest ext : String}
    (hd : digest.toList.length = 40) (hs : '/' ∉ digest.toList) (he : '/' ∉ ext.toList) :
    (p.targetOf (publicPath mode base id digest ext)).name = digest ++ ext := by
  obtain ⟨before, c, hc, hne, hsplit⟩ := publicPath_split mode base id digest ext
  have hlen : 1 < (digest.toList ++ ext.toList).length := by
    rw [List.length_append]
    omega
  unfold targetOf
  rw [hsplit, dropSlashes_append hc hne]
  rw [Path.name_join (Path.name_ofString (String.toList_ofList) (by simp [hs, he]) _ _)]
  · rw [← String.toList_append, String.ofList_toList]
  · intro h
    rw [h] at hlen
    simp at hlen
  · intro h
    rw [h] at hlen
    simp at hlen

/-- The hash that the name of a target path begins with. -/
def hashOf (target : Path) : String := String.ofList (target.name.toList.take 40)

/-- A whole file at a target path: its bytes have the hash that its name begins with. -/
def Whole (t : Tree) (target : Path) : Prop :=
  ∃ bytes, t.readBytes target = .ok bytes ∧ Sha1.hexDigest bytes = hashOf target

instance (t : Tree) (target : Path) : Decidable (Whole t target) :=
  match h : t.readBytes target with
  | .ok bytes => decidable_of_iff (Sha1.hexDigest bytes = hashOf target) (by simp [Whole, h])
  | .error _ => isFalse (by simp [Whole, h])

theorem hashOf_target {f : Find} (hd : document.WellFormed)
    (h : p.find t document raw = .ok (some f)) : hashOf f.asset.target = f.asset.hash := by
  obtain ⟨reference, bytes, -, hf, -, he⟩ := find_spec h
  obtain ⟨s, -, hsource, -⟩ := firstFile_mem hf
  have hw : f.source.WellFormed := hsource ▸ hd.parent.join (Path.wellFormed_ofString s)
  have hext : '/' ∉ (Text.lowerString f.source.suffix).toList := by
    simpa [Text.lowerString] using Text.slash_notMem_lower hw.suffix
  have hlen := Sha1.length_hexDigest bytes
  have hname := name_targetOf p p.mode p.publicBase (p.idOf document) hlen
    (Sha1.slash_notMem_hexDigest bytes) hext
  have htarget := congrArg (fun f => f.asset.target) he
  have hhash := congrArg (fun f => f.asset.hash) he
  simp only [target_findOf] at htarget
  simp only [hash_findOf] at hhash
  rw [hashOf, htarget, hname, hhash, String.toList_append, List.take_append_of_le_length (by omega),
    List.take_of_length_le (by omega), String.ofList_toList]

end Publisher

end DocumentMedia.Asset
