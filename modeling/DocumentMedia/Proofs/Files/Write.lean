import DocumentMedia.Files.Change
import DocumentMedia.Files.Reading
import DocumentMedia.Proofs.Files.Follow
import DocumentMedia.Proofs.Text.Utf8

/-! # Reading files that were written

A file put where a path leads does not change where the path leads, so what is written at a path is
read at that path. -/
namespace DocumentMedia.Files.Tree

variable {t : Tree} {place : Location} {content : Content}

theorem at?_put (t : Tree) (place : Location) (e : Entry) (l : Location) :
    (t.put place e).at? l = if l.isEmpty then some .directory
      else if place = l then some e else t.at? l := by
  simp only [at?, put, Assoc.find?_put, beq_iff_eq]
  split
  · rfl
  · rfl

/-- Nothing but a file may stand at a location. -/
def Free (t : Tree) (place : Location) : Prop :=
  t.at? place = none ∨ ∃ c, t.at? place = some (.file c)

theorem at?_put_other {l : Location} {e e' : Entry} (h : t.at? l = some e) (hf : t.Free place)
    (he : ∀ c, e ≠ .file c) : (t.put place e').at? l = some e := by
  rw [at?_put]
  split
  · next hl => rw [← h, at?, if_pos hl]
  · rw [if_neg, h]
    rintro rfl
    rcases hf with hf | ⟨c, hf⟩
    · rw [hf] at h
      cases h
    · rw [hf] at h
      exact he c (Option.some.inj h).symm

theorem Free.ne_nil (hf : t.Free place) : place.isEmpty = false := by
  cases place with
  | nil => rcases hf with hf | ⟨c, hf⟩ <;> cases hf
  | cons name rest => rfl

theorem at?_put_self (hf : t.Free place) (e : Entry) : (t.put place e).at? place = some e := by
  rw [at?_put, hf.ne_nil]
  simp

/-- Names lead to a location, or to a link from which they may lead on to it. -/
def Stop.MayReach (place : Location) : Stop → Prop
  | .arrived l => l = place
  | .link .. => True
  | .failed _ => False

/-- Names that may reach a location stop at the same when a file is put at the location. -/
theorem walk_put (hf : t.Free place) {cur : Location} {names : List String}
    (hs : (walk t true cur names).MayReach place) :
    walk (t.put place (.file content)) true cur names = walk t true cur names := by
  induction names generalizing cur with
  | nil => rfl
  | cons name rest ih =>
    unfold walk at hs ⊢
    by_cases hup : name = ".."
    · simp only [hup, if_true] at hs ⊢
      exact ih hs
    · by_cases hlong : maxName < name.utf8ByteSize
      · simp only [hup, hlong, if_false, if_true]
      · simp only [hup, hlong, if_false] at hs ⊢
        -- Only the last name can be where the file is put; all before it are directories.
        cases hat : t.at? (cur ++ [name]) with
        | none =>
          rw [hat] at hs
          cases rest with
          | nil =>
            obtain rfl : cur ++ [name] = place := hs
            rw [at?_put_self hf]
            rfl
          | cons _ _ => exact hs.elim
        | some e =>
          rw [hat] at hs
          cases e with
          | directory =>
            rw [at?_put_other hat hf (by simp)]
            exact ih hs
          | file c =>
            cases rest with
            | nil =>
              obtain rfl : cur ++ [name] = place := hs
              rw [at?_put_self hf]
            | cons _ _ => exact hs.elim
          | link target => rw [at?_put_other hat hf (by simp)]

theorem Arrives.put (hf : t.Free place) {links : Nat} {cur : Location} {names : List String}
    (h : Arrives t true place links cur names) :
    Arrives (t.put place (.file content)) true place links cur names := by
  induction h with
  | arrived hw => exact .arrived ((walk_put hf (hw ▸ rfl)).trans hw)
  | link hw _ ih => exact .link ((walk_put hf (hw ▸ trivial)).trans hw) ih

theorem locate_put {p : Path} (h : t.locate true p = .ok place) (hf : t.Free place) :
    (t.put place (.file content)).locate true p = .ok place := by
  rw [locate_ok_iff] at h ⊢
  exact ⟨h.1, h.2.put hf⟩

theorem entryAt_put {p : Path} (h : t.locate true p = .ok place) (hf : t.Free place) :
    (t.put place (.file content)).entryAt p = .ok (.file content) := by
  simp only [entryAt, locate_put h hf, ok_bind, at?_put_self hf]
  rfl

theorem write_spec {t' : Tree} {p : Path} (h : t.write p content = .ok t') :
    ∃ place, t.locate true p = .ok place ∧ t.Free place ∧ t' = t.put place (.file content) := by
  obtain ⟨place, hl, h⟩ := bind_eq_ok.mp h
  split at h
  · cases h
  · cases h
  · next hdir hlink =>
    cases h
    refine ⟨place, hl, ?_, rfl⟩
    cases hat : t.at? place with
    | none => exact Or.inl hat
    | some e =>
      cases e with
      | directory => exact absurd hat hdir
      | file c => exact Or.inr ⟨c, hat⟩
      | link target => exact absurd hat (hlink target)

theorem entryAt_write {t' : Tree} {p : Path} (h : t.write p content = .ok t') :
    t'.entryAt p = .ok (.file content) := by
  obtain ⟨place, hl, hf, rfl⟩ := write_spec h
  exact entryAt_put hl hf

/-! ## Texts -/

theorem plainLineEnds_of_notMem {cs : List Char} (h : '\r' ∉ cs) : plainLineEnds cs = cs := by
  induction cs with
  | nil => rfl
  | cons c cs ih =>
    simp only [List.mem_cons, not_or] at h
    rw [plainLineEnds, ih h.2]
    · rintro cs' rfl
      exact absurd rfl h.1
    · rintro rfl
      exact absurd rfl h.1

theorem readText_writeText {t' : Tree} {p : Path} {text : String} (hr : '\r' ∉ text.toList)
    (h : t.writeText p text = .ok t') : t'.readText p = .ok text := by
  have he := entryAt_write h
  have hbytes : ByteArray.mk text.toUTF8.toList.toArray = text.toUTF8 := by
    rw [Text.Utf8.toList_eq]
  have hread : t'.readBytes p = .ok text.toUTF8.toList := by
    simp only [readBytes, readContent, he]
    rfl
  simp only [readText, hread, Except.mapError, bind, Except.bind, hbytes, Text.Utf8.decode_toUTF8,
    plainLineEnds_of_notMem hr, String.ofList_toList]
  rfl

theorem pathExists_writeText {t' : Tree} {p : Path} {text : String}
    (h : t.writeText p text = .ok t') : t'.pathExists p = .ok true := by
  simp only [pathExists, ask, entryAt_write h]

end DocumentMedia.Files.Tree
