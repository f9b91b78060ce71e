import DocumentMedia.Files.Listing
import DocumentMedia.Proofs.Files.Write

/-! # Growing trees

Writing files and making directories takes nothing away: directories and links stay what they are,
and files stay files. A path that led somewhere leads there afterwards. -/
namespace DocumentMedia.Files

/-- Directories and files were added, and files changed at some places only. -/
structure Grows (W : Location → Prop) (t t' : Tree) : Prop where
  here : t'.here = t.here
  directory : ∀ {l}, t.at? l = some .directory → t'.at? l = some .directory
  link : ∀ {l target}, t'.at? l = some (.link target) ↔ t.at? l = some (.link target)
  file : ∀ {l c}, t.at? l = some (.file c) → ∃ c', t'.at? l = some (.file c')
  kept : ∀ {l c}, t.at? l = some (.file c) → ¬ W l → t'.at? l = some (.file c)
  old : ∀ {l c}, t'.at? l = some (.file c) → ¬ W l → t.at? l = some (.file c)

namespace Grows

variable {W V : Location → Prop} {t u t' : Tree}

theorem refl (t : Tree) : Grows W t t where
  here := rfl
  directory h := h
  link := Iff.rfl
  file h := ⟨_, h⟩
  kept h _ := h
  old h _ := h

theorem trans (h : Grows W t u) (k : Grows W u t') : Grows W t t' where
  here := k.here.trans h.here
  directory hl := k.directory (h.directory hl)
  link := k.link.trans h.link
  file hl := by
    obtain ⟨c, hc⟩ := h.file hl
    exact k.file hc
  kept hl hw := k.kept (h.kept hl hw) hw
  old hl hw := h.old (k.old hl hw) hw

theorem mono (h : Grows W t t') (hw : ∀ l, W l → V l) : Grows V t t' where
  here := h.here
  directory := h.directory
  link := h.link
  file := h.file
  kept hl hv := h.kept hl fun hl => hv (hw _ hl)
  old hl hv := h.old hl fun hl => hv (hw _ hl)

/-- What stands at a place is of the same kind afterwards. -/
theorem stands (h : Grows W t t') {l : Location} (hl : t.at? l ≠ none) : t'.at? l ≠ none := by
  cases he : t.at? l with
  | none => exact absurd he hl
  | some e =>
    cases e with
    | directory =>
      rw [h.directory he]
      exact Option.some_ne_none _
    | file c =>
      obtain ⟨c', hc'⟩ := h.file he
      rw [hc']
      exact Option.some_ne_none _
    | link target =>
      rw [h.link.mpr he]
      exact Option.some_ne_none _

end Grows

namespace Tree

variable {W : Location → Prop} {t t' : Tree} {place : Location}

/-! ## Changes that let a tree grow -/

theorem grows_put_file (hf : t.Free place) (hw : W place) (c : Content) :
    Grows W t (t.put place (.file c)) where
  here := rfl
  directory hl := at?_put_other hl hf (by simp)
  link := by
    intro l target
    constructor
    · intro hl
      rw [at?_put] at hl
      split at hl
      · cases hl
      · split at hl
        · cases hl
        · exact hl
    · intro hl
      exact at?_put_other hl hf (by simp)
  file := by
    intro l c' hl
    by_cases he : place = l
    · subst he
      exact ⟨c, at?_put_self hf _⟩
    · have hne : l.isEmpty = false := by
        cases l with
        | nil => cases hl
        | cons name rest => rfl
      exact ⟨c', by rw [at?_put, if_neg (by simp [hne]), if_neg he, hl]⟩
  kept := by
    intro l c' hl hnot
    have he : place ≠ l := by
      rintro rfl
      exact hnot hw
    rw [at?_put, if_neg he, ← hl]
    split
    · next hempty => rw [at?, if_pos hempty]
    · rfl
  old := by
    intro l c' hl hnot
    have he : place ≠ l := by
      rintro rfl
      exact hnot hw
    rw [at?_put, if_neg he] at hl
    split at hl
    · cases hl
    · exact hl

theorem grows_put_directory (hnone : t.at? place = none) : Grows W t (t.put place .directory) := by
  have hput : ∀ l, (t.put place .directory).at? l =
      if place = l then some .directory else t.at? l := by
    intro l
    rw [at?_put]
    by_cases hl : l.isEmpty = true
    · have hroot : t.at? l = some .directory := by rw [at?, if_pos hl]
      rw [if_pos hl, hroot]
      simp
    · rw [if_neg hl]
  -- Only an empty place changes.
  have hsame : ∀ {l e}, t.at? l = some e → (t.put place .directory).at? l = some e := by
    intro l e hl
    have hne : place ≠ l := by
      rintro rfl
      rw [hnone] at hl
      cases hl
    rw [hput, if_neg hne, hl]
  have hbefore : ∀ {l e}, (t.put place .directory).at? l = some e → e ≠ .directory →
      t.at? l = some e := by
    intro l e hl he
    rw [hput] at hl
    split at hl
    · exact absurd (Option.some.inj hl).symm he
    · exact hl
  exact ⟨rfl, hsame, ⟨fun hl => hbefore hl (by simp), hsame⟩, fun hl => ⟨_, hsame hl⟩,
    fun hl _ => hsame hl, fun hl _ => hbefore hl (by simp)⟩

theorem grows_makeDirectory {p : Path} (h : t.makeDirectory p = .ok t') : Grows W t t' := by
  obtain ⟨place, -, h⟩ := bind_eq_ok.mp h
  cases hat : t.at? place with
  | some e => rw [hat] at h; cases h
  | none =>
    rw [hat] at h
    cases h
    exact grows_put_directory hat

theorem keepDirectory_eq {p : Path} {e : FileError} (h : t.keepDirectory p e = .ok t') :
    t' = t := by
  obtain ⟨d, -, h⟩ := bind_eq_ok.mp h
  cases d with
  | true => cases h; rfl
  | false => cases h

theorem grows_ensureDirectory {p : Path} (h : t.ensureDirectory p = .ok t') : Grows W t t' := by
  unfold ensureDirectory at h
  split at h
  · next hm =>
    cases h
    exact grows_makeDirectory hm
  · split at h
    · cases h
    · rw [keepDirectory_eq h]
      exact .refl t

theorem grows_ensureAbove {above : Nat} {p : Path} (h : ensureAbove above t p = .ok t') :
    Grows W t t' := by
  induction above generalizing p t' with
  | zero => exact grows_ensureDirectory h
  | succ above ih =>
    unfold ensureAbove at h
    split at h
    · next hm =>
      cases h
      exact grows_makeDirectory hm
    · split at h
      · rw [keepDirectory_eq h]
        exact .refl t
      · split at h
        · cases h
        · obtain ⟨u, ha, h⟩ := bind_eq_ok.mp h
          exact (ih ha).trans (grows_ensureDirectory h)

theorem grows_ensureDirectories {p : Path} (h : t.ensureDirectories p = .ok t') : Grows W t t' :=
  grows_ensureAbove h

theorem grows_write {p : Path} {c : Content} (h : t.write p c = .ok t')
    (hw : ∀ place, t.locate true p = .ok place → W place) : Grows W t t' := by
  obtain ⟨place, hl, hf, rfl⟩ := write_spec h
  exact grows_put_file hf (hw place hl) c

/-! ## Paths in a growing tree -/

/-- Names lead to where something stands, or to a link. -/
def Stop.Stands (t : Tree) : Stop → Prop
  | .arrived l => t.at? l ≠ none
  | .link .. => True
  | .failed _ => False

theorem walk_grows (h : Grows W t t') {cur : Location} {names : List String}
    (hs : (walk t true cur names).Stands t) : walk t' true cur names = walk t true cur names := by
  induction names generalizing cur with
  | nil => rfl
  | cons name rest ih =>
    unfold walk at hs ⊢
    by_cases hup : name = ".."
    · simp only [hup, if_true] at hs ⊢
      exact ih hs
    · by_cases hlong : maxName < name.utf8ByteSize
      · simp only [hup, hlong, if_false, if_true]
      · simp only [hup, hlong, if_false] at hs ⊢
        cases hat : t.at? (cur ++ [name]) with
        | none =>
          rw [hat] at hs
          cases rest with
          | nil => exact absurd hat hs
          | cons _ _ => exact hs.elim
        | some e =>
          rw [hat] at hs
          cases e with
          | directory =>
            rw [h.directory hat]
            exact ih hs
          | file c =>
            obtain ⟨c', hc'⟩ := h.file hat
            rw [hc']
          | link target => rw [h.link.mpr hat]

theorem Arrives.grows (h : Grows W t t') {links : Nat} {cur : Location} {names : List String}
    (hf : Arrives t true place links cur names) (hs : t.at? place ≠ none) :
    Arrives t' true place links cur names := by
  induction hf with
  | arrived hw => exact .arrived ((walk_grows h (hw ▸ hs)).trans hw)
  | link hw _ ih => exact .link ((walk_grows h (hw ▸ trivial)).trans hw) ih

theorem start_grows (h : Grows W t t') (p : Path) : t'.start p = t.start p := by
  rw [start, start, h.here]

theorem locate_grows (h : Grows W t t') {p : Path} (hl : t.locate true p = .ok place)
    (hs : t.at? place ≠ none) : t'.locate true p = .ok place := by
  rw [locate_ok_iff] at hl ⊢
  rw [start_grows h]
  exact ⟨hl.1, hl.2.grows h hs⟩

theorem entryAt_ok_iff {p : Path} {e : Entry} :
    t.entryAt p = .ok e ↔ ∃ place, t.locate true p = .ok place ∧ t.at? place = some e := by
  rw [entryAt, bind_eq_ok]
  refine exists_congr fun place => and_congr_right fun _ => ?_
  cases t.at? place with
  | none => simp [throw, throwThe, MonadExceptOf.throw]
  | some e' => simp [pure, Except.pure]

/-- What a path led to is still there, though it may be another file. -/
theorem entryAt_grows (h : Grows W t t') {p : Path} {e : Entry} (he : t.entryAt p = .ok e) :
    ∃ e', t'.entryAt p = .ok e' := by
  obtain ⟨place, hl, hat⟩ := entryAt_ok_iff.mp he
  have hs : t.at? place ≠ none := by
    rw [hat]
    exact Option.some_ne_none _
  obtain ⟨e', hat'⟩ := Option.ne_none_iff_exists'.mp (h.stands hs)
  exact ⟨e', entryAt_ok_iff.mpr ⟨place, locate_grows h hl hs, hat'⟩⟩

/-- Where a file was, there is one afterwards. -/
theorem entryAt_file_grows (h : Grows W t t') {p : Path} {c : Content}
    (he : t.entryAt p = .ok (.file c)) : ∃ c', t'.entryAt p = .ok (.file c') := by
  obtain ⟨place, hl, hat⟩ := entryAt_ok_iff.mp he
  obtain ⟨c', hat'⟩ := h.file hat
  have hl' := locate_grows h hl (by rw [hat]; exact Option.some_ne_none _)
  exact ⟨c', entryAt_ok_iff.mpr ⟨place, hl', hat'⟩⟩

/-- A path that leads to something leads to a directory afterwards if it did before. -/
theorem isDirectory_grows (h : Grows W t t') {p : Path} {e : Entry} (he : t.entryAt p = .ok e) :
    t'.isDirectory p = t.isDirectory p := by
  obtain ⟨place, hl, hat⟩ := entryAt_ok_iff.mp he
  have hl' := locate_grows h hl (by rw [hat]; exact Option.some_ne_none _)
  unfold isDirectory ask
  rw [he]
  cases e with
  | directory => rw [entryAt_ok_iff.mpr ⟨place, hl', h.directory hat⟩]
  | file c =>
    obtain ⟨c', hc'⟩ := h.file hat
    rw [entryAt_ok_iff.mpr ⟨place, hl', hc'⟩]
  | link target => rw [entryAt_ok_iff.mpr ⟨place, hl', h.link.mpr hat⟩]

/-- A file outside the places that may change is read as before. -/
theorem entryAt_kept (h : Grows W t t') {p : Path} {c : Content}
    (he : t.entryAt p = .ok (.file c)) (hw : ∀ place, t.locate true p = .ok place → ¬ W place) :
    t'.entryAt p = .ok (.file c) := by
  obtain ⟨place, hl, hat⟩ := entryAt_ok_iff.mp he
  have hl' := locate_grows h hl (by rw [hat]; exact Option.some_ne_none _)
  exact entryAt_ok_iff.mpr ⟨place, hl', h.kept hat (hw place hl)⟩

/-! ## Real locations -/

theorem realWalk_grows (h : Grows W t t') (cur : Location) (names : List String) :
    realWalk t' cur names = realWalk t cur names := by
  induction names generalizing cur with
  | nil => rfl
  | cons name rest ih =>
    unfold realWalk
    split
    · exact ih _
    · by_cases hlink : ∃ target, t.at? (cur ++ [name]) = some (.link target)
      · obtain ⟨target, hat⟩ := hlink
        rw [hat, h.link.mpr hat]
      · have hnone : ∀ target, t.at? (cur ++ [name]) ≠ some (.link target) :=
          fun target hat => hlink ⟨target, hat⟩
        have hnone' : ∀ target, t'.at? (cur ++ [name]) ≠ some (.link target) :=
          fun target hat => hnone target (h.link.mp hat)
        split
        · next hat => exact absurd hat (hnone' _)
        · exact ih _

theorem realFollow_grows (h : Grows W t t') (links : Nat) (cur : Location) (names : List String) :
    realFollow t' links cur names = realFollow t links cur names := by
  induction links generalizing cur names with
  | zero => rw [realFollow, realFollow, realWalk_grows h]
  | succ n ih =>
    rw [realFollow, realFollow, realWalk_grows h]
    split
    · rfl
    · rfl
    · exact ih _ _

theorem realLocation_grows (h : Grows W t t') (p : Path) : t'.realLocation p = t.realLocation p := by
  rw [realLocation, realLocation, start_grows h, realFollow_grows h]

theorem realWalk_of_walk {cur : Location} {names : List String} :
    (∀ c, walk t true cur names ≠ .failed c) → realWalk t cur names = walk t true cur names := by
  intro hs
  induction names generalizing cur with
  | nil => rfl
  | cons name rest ih =>
    unfold walk at hs ⊢
    unfold realWalk
    by_cases hup : name = ".."
    · simp only [hup, if_true] at hs ⊢
      exact ih hs
    · by_cases hlong : maxName < name.utf8ByteSize
      · simp only [hup, hlong, if_false, if_true] at hs
        exact absurd rfl (hs _)
      · simp only [hup, hlong, if_false] at hs ⊢
        cases hat : t.at? (cur ++ [name]) with
        | none =>
          rw [hat] at hs
          cases rest with
          | nil => rfl
          | cons _ _ => exact absurd rfl (hs _)
        | some e =>
          rw [hat] at hs
          cases e with
          | directory => exact ih hs
          | file c =>
            cases rest with
            | nil => rfl
            | cons _ _ => exact absurd rfl (hs _)
          | link target => simp

theorem Arrives.realFollow {links : Nat} {cur : Location} {names : List String}
    (h : Arrives t true place links cur names) : t.realFollow links cur names = place := by
  induction h with
  | @arrived links _ _ hw =>
    cases links <;> rw [Tree.realFollow, realWalk_of_walk (by rw [hw]; nofun), hw]
  | link hw _ ih =>
    rw [Tree.realFollow, realWalk_of_walk (by rw [hw]; nofun), hw]
    exact ih

/-- Where a path leads is its real location. -/
theorem realLocation_of_locate {p : Path} (h : t.locate true p = .ok place) :
    t.realLocation p = place :=
  (locate_ok_iff.mp h).2.realFollow

/-- Writing changes no file but that at the real location of the path. -/
theorem grows_write_real {p : Path} {c : Content} (h : t.write p c = .ok t') :
    Grows (· = t.realLocation p) t t' :=
  grows_write h fun _ hl => (realLocation_of_locate hl).symm

theorem grows_copy {source target : Path} (h : t.copy source target = .ok t') :
    Grows (· = t.realLocation target) t t' := by
  obtain ⟨u, hd, h⟩ := bind_eq_ok.mp h
  obtain ⟨c, -, h⟩ := bind_eq_ok.mp h
  have hmade : Grows (· = t.realLocation target) t u := grows_ensureDirectories hd
  have hwritten := grows_write_real h
  rw [realLocation_grows hmade] at hwritten
  exact hmade.trans hwritten

/-! ## Locations below a place without links -/

/-- No link stands at a place or below it. -/
def LinkFree (t : Tree) (place : Location) : Prop :=
  ∀ l target, t.at? l = some (.link target) → ¬ place <+: l

theorem realWalk_linkFree (h : t.LinkFree place) {cur : Location} (hcur : place <+: cur)
    {names : List String} (hup : ".." ∉ names) :
    realWalk t cur names = .arrived (cur ++ names) := by
  induction names generalizing cur with
  | nil => rw [List.append_nil, realWalk]
  | cons name rest ih =>
    rw [List.mem_cons, not_or] at hup
    have hnext : place <+: cur ++ [name] := hcur.trans (List.prefix_append _ _)
    have hrest := ih hnext hup.2
    rw [List.append_assoc, List.singleton_append] at hrest
    unfold realWalk
    rw [if_neg (Ne.symm hup.1)]
    split
    · next target hat => exact absurd hnext (h _ target hat)
    · exact hrest

theorem realWalk_ne_failed (cur : Location) (names : List String) (c : Cause) :
    realWalk t cur names ≠ .failed c := by
  induction names generalizing cur with
  | nil => nofun
  | cons name rest ih =>
    unfold realWalk
    split
    · exact ih _
    · split
      · nofun
      · exact ih _

theorem realWalk_append (t : Tree) (cur : Location) (names more : List String) :
    realWalk t cur (names ++ more) =
      match realWalk t cur names with
      | .arrived l => realWalk t l more
      | .link base target rest => .link base target (rest ++ more)
      | .failed c => .failed c := by
  induction names generalizing cur with
  | nil => rfl
  | cons name rest ih =>
    rw [List.cons_append, realWalk, realWalk]
    split
    · exact ih _
    · split
      · rfl
      · exact ih _

/-- Names behind names that lead to a place without links lead on from there. -/
theorem realFollow_append {links : Nat} {cur : Location} {names more : List String}
    (h : t.LinkFree (realFollow t links cur names)) (hup : ".." ∉ more) :
    realFollow t links cur (names ++ more) = realFollow t links cur names ++ more := by
  induction links generalizing cur names with
  | zero =>
    unfold realFollow at h ⊢
    rw [realWalk_append]
    cases hw : realWalk t cur names with
    | arrived l =>
      rw [hw] at h
      simp only [realWalk_linkFree h (List.prefix_refl l) hup]
    | link base target rest => simp only [List.append_assoc]
    | failed c => exact absurd hw (realWalk_ne_failed cur names c)
  | succ n ih =>
    unfold realFollow at h ⊢
    rw [realWalk_append]
    cases hw : realWalk t cur names with
    | arrived l =>
      rw [hw] at h
      simp only [realWalk_linkFree h (List.prefix_refl l) hup]
    | link base target rest =>
      rw [hw] at h
      have hrest := ih h
      rw [List.append_assoc] at hrest
      exact hrest
    | failed c => exact absurd hw (realWalk_ne_failed cur names c)

theorem realLocation_extend {p : Path} {more : Location} (h : t.LinkFree (t.realLocation p))
    (hup : ".." ∉ more) : t.realLocation (extend p more) = t.realLocation p ++ more :=
  realFollow_append h hup

/-! ## Locations without double dots -/

/-- The place at which names stop. -/
def Stop.place? : Stop → Option Location
  | .arrived l => some l
  | .link base _ _ => some base
  | .failed _ => none

theorem walk_up {cur l : Location} {names : List String} (hcur : ".." ∉ cur)
    (h : (walk t true cur names).place? = some l) : ".." ∉ l := by
  induction names generalizing cur with
  | nil =>
    obtain rfl : cur = l := Option.some.inj h
    exact hcur
  | cons name rest ih =>
    unfold walk at h
    by_cases hup : name = ".."
    · rw [if_pos hup] at h
      exact ih (fun hm => hcur (List.dropLast_subset _ hm)) h
    · have hnext : ".." ∉ cur ++ [name] := by
        rw [List.mem_append, List.mem_singleton]
        exact fun hm => hm.elim hcur (Ne.symm hup)
      rw [if_neg hup] at h
      split at h
      · cases h
      · simp only at h
        split at h
        · split at h
          · exact Option.some.inj h ▸ hnext
          · cases h
        · exact ih hnext h
        · split at h
          · exact Option.some.inj h ▸ hnext
          · cases h
        · split at h
          · exact Option.some.inj h ▸ hnext
          · exact Option.some.inj h ▸ hcur

theorem Arrives.up {links : Nat} {cur : Location} {names : List String} (hcur : ".." ∉ cur)
    (h : Arrives t true place links cur names) : ".." ∉ place := by
  induction h with
  | arrived hw => exact walk_up hcur (by rw [hw]; rfl)
  | link hw _ ih =>
    refine ih ?_
    split
    · exact List.not_mem_nil
    · exact walk_up hcur (by rw [hw]; rfl)

theorem walk_append {cur : Location} {names more : List String} :
    (∀ base target rest, walk t true cur names = .link base target rest →
      walk t true cur (names ++ more) = .link base target (rest ++ more)) ∧
    (∀ c, walk t true cur names = .failed c → walk t true cur (names ++ more) = .failed c) := by
  induction names generalizing cur with
  | nil => exact ⟨nofun, nofun⟩
  | cons name rest ih =>
    rw [List.cons_append]
    unfold walk
    by_cases hup : name = ".."
    · simp only [hup, if_true]
      exact ih
    · by_cases hlong : maxName < name.utf8ByteSize
      · simp only [hup, hlong, if_false, if_true]
        exact ⟨nofun, fun _ h => h⟩
      · simp only [hup, hlong, if_false]
        cases hat : t.at? (cur ++ [name]) with
        | none => cases rest <;> simp
        | some e =>
          cases e with
          | directory => exact ih
          | file c => cases rest <;> simp
          | link target => simp

/-- Names that lead somewhere lead somewhere on the way. -/
theorem Arrives.before {links : Nat} {cur : Location} {names more : List String}
    (h : Arrives t true place links cur (names ++ more)) :
    ∃ l, Arrives t true l links cur names := by
  cases hw : walk t true cur names with
  | arrived l => exact ⟨l, .arrived hw⟩
  | failed c =>
    cases h with
    | arrived hm => rw [walk_append.2 c hw] at hm; cases hm
    | link hm => rw [walk_append.2 c hw] at hm; cases hm
  | link base target rest =>
    cases h with
    | arrived hm => rw [walk_append.1 _ _ _ hw] at hm; cases hm
    | link hm h =>
      rw [walk_append.1 _ _ _ hw] at hm
      cases hm
      rw [← List.append_assoc] at h
      obtain ⟨l, hl⟩ := h.before
      exact ⟨l, .link hw hl⟩

end Tree

end DocumentMedia.Files
