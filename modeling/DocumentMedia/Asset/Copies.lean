import DocumentMedia.Asset.Error
import DocumentMedia.Asset.Surface
import DocumentMedia.Ledger.Basic

/-! # Copies and the shared ledger

What documents share while they are published: the ledger, and for each target file the state of
the copy to it. A target is copied once; documents that need it wait for the same copy.
-/
namespace DocumentMedia.Asset

open DocumentMedia.Files

inductive CopyState where
  | scheduled
  | running
  | done
  | failed (e : FileError)
  /-- Given up before its end was known; it is done again when it is needed. -/
  | cancelled
  deriving DecidableEq, Repr

def CopyState.ended : Option FileError → CopyState
  | none => .done
  | some e => .failed e

structure Copy where
  source : Path
  state : CopyState
  deriving DecidableEq, Repr

structure Shared where
  ledger : Ledger
  copies : Assoc Path Copy
  deriving DecidableEq, Repr

namespace Shared

def record (s : Shared) (now : String) (a : Asset) : Shared :=
  { s with ledger := Assoc.put s.ledger a.hash ⟨a.media.ext, a.publicPath, now⟩ }

def copy? (s : Shared) (target : Path) : Option Copy := Assoc.find? s.copies target

def stateOf (s : Shared) (target : Path) : Option CopyState := (s.copy? target).map Copy.state

def setState (s : Shared) (target : Path) (state : CopyState) : Shared :=
  match s.copy? target with
  | some c => { s with copies := Assoc.put s.copies target { c with state } }
  | none => s

def start (s : Shared) (f : Find) : Shared :=
  { s with copies := Assoc.put s.copies f.asset.target ⟨f.source, .scheduled⟩ }

@[simp]
theorem copy?_record (s : Shared) (now : String) (a : Asset) (q : Path) :
    (s.record now a).copy? q = s.copy? q := rfl

@[simp]
theorem stateOf_record (s : Shared) (now : String) (a : Asset) (q : Path) :
    (s.record now a).stateOf q = s.stateOf q := rfl

theorem copy?_start (s : Shared) (f : Find) (q : Path) :
    (s.start f).copy? q = if f.asset.target = q then some ⟨f.source, .scheduled⟩ else s.copy? q := by
  simp [copy?, start, Assoc.find?_put]

theorem setState_of_copy? {s : Shared} {target : Path} {c : Copy} (h : s.copy? target = some c)
    (state : CopyState) :
    s.setState target state = { s with copies := Assoc.put s.copies target { c with state } } := by
  simp [setState, h]

theorem copy?_setState (s : Shared) (target : Path) (state : CopyState) (q : Path) :
    (s.setState target state).copy? q =
      if target = q then (s.copy? q).map fun c => { c with state } else s.copy? q := by
  cases hc : s.copy? target with
  | none =>
    by_cases hq : target = q
    · subst q
      simp [setState, hc]
    · simp [setState, hc, hq]
  | some c =>
    rw [setState_of_copy? hc]
    by_cases hq : target = q
    · subst q
      rw [hc]
      simp [copy?, Assoc.find?_put]
    · simp [copy?, Assoc.find?_put, hq]

@[simp]
theorem ledger_start (s : Shared) (f : Find) : (s.start f).ledger = s.ledger := rfl

@[simp]
theorem ledger_setState (s : Shared) (target : Path) (state : CopyState) :
    (s.setState target state).ledger = s.ledger := by
  unfold setState
  split <;> rfl

theorem stateOf_eq_some {s : Shared} {q : Path} {state : CopyState} :
    s.stateOf q = some state ↔ ∃ source, s.copy? q = some ⟨source, state⟩ := by
  simp only [stateOf, Option.map_eq_some_iff]
  constructor
  · rintro ⟨⟨source, _⟩, hc, rfl⟩
    exact ⟨source, hc⟩
  · rintro ⟨source, hc⟩
    exact ⟨_, hc, rfl⟩

theorem stateOf_eq_none {s : Shared} {q : Path} : s.stateOf q = none ↔ s.copy? q = none := by
  simp [stateOf]

theorem stateOf_setState (s : Shared) (target : Path) (state : CopyState) (q : Path) :
    (s.setState target state).stateOf q =
      if target = q then (s.stateOf q).map fun _ => state else s.stateOf q := by
  unfold stateOf
  rw [copy?_setState]
  by_cases hq : target = q <;> simp [hq, Function.comp_def]

/-- Sees to it that the target of a find is copied. The answer is the copy to wait for, if any. A
target that stood there before needs no copy; a copy that failed fails again. -/
def schedule (s : Shared) (t : Tree) (f : Find) : Except FileError (Shared × Option Path) :=
  let target := f.asset.target
  match s.stateOf target with
  | some .done => .ok (s, none)
  | some (.failed e) => .error e
  -- What stands there may be half of a copy, so existence is not asked.
  | some .cancelled => .ok (s.start f, some target)
  | some .scheduled | some .running => .ok (s, some target)
  | none => do
    if ← t.pathExists target then return (s, none) else return (s.start f, some target)

def cancelAll (s : Shared) : Shared :=
  { s with
    copies := s.copies.map fun (target, c) =>
      (target, if c.state = .scheduled || c.state = .running then { c with state := .cancelled }
        else c) }

end Shared

/-- The state of a scan of a document: what is shared, the copies to wait for, and what was found
for the references so far. -/
structure Scan where
  shared : Shared
  jobs : List Path
  found : Assoc String (Option Asset)

/-- Publishes references in turn until one fails. The copy of a picture that cannot be looked at is
scheduled before that shows. -/
def scanAll (p : Publisher) (t : Tree) (now : String) (document : Path) :
    Scan → List String → Scan × Option PublishError
  | sc, [] => (sc, none)
  | sc, raw :: rest =>
    match p.find t document raw with
    | .error e => (sc, some (.file e))
    | .ok none =>
      scanAll p t now document { sc with found := Assoc.put sc.found raw none } rest
    | .ok (some f) =>
      let shared := sc.shared.record now f.asset
      match shared.schedule t f with
      | .error e => ({ sc with shared }, some (.file e))
      | .ok (shared, job) =>
        match f.fault with
        | some e => ({ sc with shared }, some (.picture e))
        | none =>
          scanAll p t now document
            ⟨shared, sc.jobs ++ job.toList, Assoc.put sc.found raw (some f.asset)⟩ rest

/-- What is scanned of a document: all references, or those before a misfit. -/
def toScan (d : Draft) : List String := (beforeMisfit? d).getD (references d)

/-- Publishes all references of a document: what is shared afterwards, and the copies to wait for
with the relinked document, or the failure that ended the scan. -/
def scan (p : Publisher) (t : Tree) (now : String) (d : Draft) (s : Shared) :
    Shared × Except PublishError (List Path × Localized) :=
  let (sc, failure) := scanAll p t now d.path ⟨s, [], []⟩ (toScan d)
  match failure with
  | some e => (sc.shared, .error e)
  | none =>
    if (beforeMisfit? d).isSome then (sc.shared, .error .misfit)
    else (sc.shared, .ok (sc.jobs, relink (fun raw => (Assoc.find? sc.found raw).join) d))

end DocumentMedia.Asset
