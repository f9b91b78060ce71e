import DocumentMedia.Files.Change
import DocumentMedia.Proofs.Files.Follow

/-! # Trees that agree at some places

Following a path looks at certain places only. Trees that hold the same at these places give the
same answers about the path. -/
namespace DocumentMedia.Files

/-- Trees that differ only at some places. -/
structure AgreeOff (W : Location → Prop) (t t' : Tree) : Prop where
  here : t'.here = t.here
  same : ∀ place, ¬ W place → t'.at? place = t.at? place

namespace AgreeOff

variable {W : Location → Prop} {t u t' : Tree}

theorem refl (t : Tree) : AgreeOff W t t := ⟨rfl, fun _ _ => rfl⟩

theorem trans (h : AgreeOff W t u) (k : AgreeOff W u t') : AgreeOff W t t' :=
  ⟨k.here.trans h.here, fun place hw => (k.same place hw).trans (h.same place hw)⟩

theorem symm (h : AgreeOff W t t') : AgreeOff W t' t :=
  ⟨h.here.symm, fun place hw => (h.same place hw).symm⟩

end AgreeOff

namespace Tree

variable {W : Location → Prop} {t t' : Tree} {followLast : Bool}

/-- The places looked at while names are followed until the first link. -/
def walkPlaces (t : Tree) : Location → List String → List Location
  | _, [] => []
  | place, name :: rest =>
    if name = ".." then walkPlaces t place.dropLast rest
    else if maxName < name.utf8ByteSize then []
    else
      let next := place ++ [name]
      match t.at? next with
      | some .directory => next :: walkPlaces t next rest
      | _ => [next]

/-- The places looked at while names and links are followed, and the one where they end. -/
def followPlaces (t : Tree) (followLast : Bool) : Nat → Location → List String → List Location
  | links, place, names =>
    walkPlaces t place names ++
      match walk t followLast place names with
      | .arrived place => [place]
      | .failed _ => []
      | .link base target rest =>
        match links with
        | 0 => []
        | n + 1 =>
          followPlaces t followLast n (if target.isAbsolute then [] else base)
            (target.parts ++ rest)

/-- The places looked at to tell what a path leads to. -/
def placesOf (t : Tree) (p : Path) : List Location :=
  followPlaces t true maxLinks (t.start p) p.parts

/-- Following a path looks at none of some places. -/
def Avoids (W : Location → Prop) (t : Tree) (p : Path) : Prop := ∀ place ∈ t.placesOf p, ¬ W place

instance (W : Location → Prop) [DecidablePred W] (t : Tree) (p : Path) :
    Decidable (Avoids W t p) := inferInstanceAs (Decidable (∀ _ ∈ _, _))

theorem walk_agree (h : AgreeOff W t t') {place : Location} {names : List String}
    (ha : ∀ l ∈ t.walkPlaces place names, ¬ W l) :
    walk t' followLast place names = walk t followLast place names := by
  induction names generalizing place with
  | nil => rfl
  | cons name rest ih =>
    unfold walkPlaces at ha
    unfold walk
    split
    · next hup =>
      rw [if_pos hup] at ha
      exact ih ha
    · next hup =>
      rw [if_neg hup] at ha
      split
      · rfl
      · next hlong =>
        rw [if_neg hlong] at ha
        simp only at ha ⊢
        have hnext : t'.at? (place ++ [name]) = t.at? (place ++ [name]) := by
          apply h.same
          apply ha
          split <;> exact List.mem_cons_self
        rw [hnext]
        cases hat : t.at? (place ++ [name]) with
        | none => rfl
        | some e =>
          cases e with
          | directory =>
            rw [hat] at ha
            exact ih fun l hl => ha l (List.mem_cons_of_mem _ hl)
          | file c => rfl
          | link target => rfl

theorem follow_agree (h : AgreeOff W t t') {links : Nat} {place : Location} {names : List String}
    (ha : ∀ l ∈ t.followPlaces followLast links place names, ¬ W l) :
    follow t' followLast links place names = follow t followLast links place names := by
  induction links generalizing place names with
  | zero =>
    unfold followPlaces at ha
    unfold follow
    rw [walk_agree h fun l hl => ha l (List.mem_append_left _ hl)]
  | succ n ih =>
    unfold followPlaces at ha
    unfold follow
    rw [walk_agree h fun l hl => ha l (List.mem_append_left _ hl)]
    cases hw : walk t followLast place names with
    | arrived place => rfl
    | failed c => rfl
    | link base target rest =>
      rw [hw] at ha
      exact ih fun l hl => ha l (List.mem_append_right _ hl)

theorem Arrives.mem_followPlaces {links : Nat} {place last : Location} {names : List String}
    (h : Arrives t followLast last links place names) :
    last ∈ t.followPlaces followLast links place names := by
  induction h with
  | @arrived links _ _ hw => cases links <;> simp [followPlaces, hw]
  | link hw _ ih =>
    rw [followPlaces, hw]
    exact List.mem_append_right _ ih

section

variable {p : Path} (h : AgreeOff W t t') (ha : Avoids W t p)

include h ha

theorem locate_agree : t'.locate true p = t.locate true p := by
  have hstart : t'.start p = t.start p := by
    rw [start, start, h.here]
  unfold locate
  rw [hstart, follow_agree h ha]

theorem entryAt_agree : t'.entryAt p = t.entryAt p := by
  unfold entryAt
  rw [locate_agree h ha]
  cases hl : t.locate true p with
  | error e => rfl
  | ok place =>
    have hplace : place ∈ t.placesOf p := (locate_ok_iff.mp hl).2.mem_followPlaces
    rw [ok_bind, ok_bind, h.same place (ha place hplace)]

theorem isFile_agree : t'.isFile p = t.isFile p := by
  simp only [isFile, ask, entryAt_agree h ha]

theorem readBytes_agree : t'.readBytes p = t.readBytes p := by
  simp only [readBytes, readContent, entryAt_agree h ha]

end

/-! ## Changes at known places -/

theorem agreeOff_put {place : Location} (e : Entry) (hw : W place) : AgreeOff W t (t.put place e) :=
  ⟨rfl, fun l hl => by
    have hne : place ≠ l := fun he => hl (he ▸ hw)
    simp [at?, put, Assoc.find?_put, hne]⟩

/-- Trees agree off some places when all entries elsewhere are the same. -/
theorem agreeOff_of_filter {inside : Location → Bool} (hhere : t'.here = t.here)
    (h : t'.entries.filter (fun e => !inside e.1) = t.entries.filter fun e => !inside e.1) :
    AgreeOff (fun l => inside l = true) t t' := by
  have find?_filter : ∀ (m : Assoc Location Entry) (l : Location), inside l = false →
      Assoc.find? (m.filter fun e => !inside e.1) l = Assoc.find? m l := by
    intro m l hl
    induction m with
    | nil => rfl
    | cons e m ih =>
      obtain ⟨k, v⟩ := e
      by_cases hk : k = l
      · subst hk
        simp [hl, Assoc.find?]
      · rw [List.filter_cons]
        split <;> simp [Assoc.find?, hk, ih]
  refine ⟨hhere, fun l hl => ?_⟩
  have hin : inside l = false := by simpa using hl
  rw [at?, at?, ← find?_filter t'.entries l hin, ← find?_filter t.entries l hin, h]

end Tree

end DocumentMedia.Files
