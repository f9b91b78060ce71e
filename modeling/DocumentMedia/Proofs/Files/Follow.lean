import DocumentMedia.Files.Tree
import DocumentMedia.Proofs.Outcome

/-! # Following paths

Names are followed from link to link. What holds of the place to which they lead is shown along the
way there, which ends without a link or goes on behind one. -/
namespace DocumentMedia.Files.Tree

/-- The way on which names lead to a place. -/
inductive Arrives (t : Tree) (followLast : Bool) (place : Location) :
    Nat → Location → List String → Prop where
  | arrived {links cur names} (hw : walk t followLast cur names = .arrived place) :
      Arrives t followLast place links cur names
  | link {links cur names base target rest}
      (hw : walk t followLast cur names = .link base target rest)
      (h : Arrives t followLast place links (if target.isAbsolute then [] else base)
        (target.parts ++ rest)) : Arrives t followLast place (links + 1) cur names

variable {t : Tree} {followLast : Bool} {links : Nat} {cur place : Location} {names : List String}

theorem follow_arrived (hw : walk t followLast cur names = .arrived place) :
    follow t followLast links cur names = .ok place := by
  cases links <;> rw [follow, hw]

theorem follow_failed {c : Cause} (hw : walk t followLast cur names = .failed c) :
    follow t followLast links cur names = .error c := by
  cases links <;> rw [follow, hw]

section

variable {base : Location} {target : Path} {rest : List String}
  (hw : walk t followLast cur names = .link base target rest)

include hw

theorem follow_loop : follow t followLast 0 cur names = .error .linkLoop := by
  rw [follow, hw]

theorem follow_link : follow t followLast (links + 1) cur names =
    follow t followLast links (if target.isAbsolute then [] else base) (target.parts ++ rest) := by
  rw [follow, hw]

end

theorem Arrives.follow (h : Arrives t followLast place links cur names) :
    follow t followLast links cur names = .ok place := by
  induction h with
  | arrived hw => exact follow_arrived hw
  | link hw _ ih => exact (follow_link hw).trans ih

theorem arrives_of_follow {links : Nat} {cur : Location} {names : List String}
    (h : follow t followLast links cur names = .ok place) :
    Arrives t followLast place links cur names := by
  cases hw : walk t followLast cur names with
  | arrived l =>
    rw [follow_arrived hw] at h
    cases h
    exact .arrived hw
  | failed c =>
    rw [follow_failed hw] at h
    cases h
  | link base target rest =>
    cases links with
    | zero =>
      rw [follow_loop hw] at h
      cases h
    | succ n =>
      rw [follow_link hw] at h
      exact .link hw (arrives_of_follow h)

theorem follow_ok_iff : follow t followLast links cur names = .ok place ↔
    Arrives t followLast place links cur names := ⟨arrives_of_follow, Arrives.follow⟩

theorem locate_ok_iff {p : Path} :
    t.locate followLast p = .ok place ↔
      ('\x00' ∉ p.text.toList ∧ p.text.utf8ByteSize ≤ maxPath) ∧
        Arrives t followLast place maxLinks (t.start p) p.parts := by
  rw [← follow_ok_iff, locate]
  by_cases hnull : '\x00' ∈ p.text.toList
  · simp [hnull]
  · by_cases hlong : maxPath < p.text.utf8ByteSize
    · simp [hnull, hlong, Nat.not_le_of_lt hlong]
    · simp [mapError_eq_ok, hnull, hlong, Nat.le_of_not_lt hlong]

end DocumentMedia.Files.Tree
