import DocumentMedia.Asset.Copies
import DocumentMedia.Files.Change
import DocumentMedia.Ledger.Store

/-! # Batches of documents

Documents of a batch are published side by side. Each is scanned in one step, waits for its copies,
and then saves the ledger; one document saves at a time. What happens next is an event; `step` says
what each event changes, and `run` plays one order of events to the end.
-/
namespace DocumentMedia.Asset

open DocumentMedia.Files
open DocumentMedia.Ledger (Store StoreError)

/-- How far the work on a document has come. -/
inductive Phase where
  | waiting
  | copying (jobs : List Path) (result : Localized)
  | saving (result : Localized)
  | returned (result : Localized)
  | raised (e : PublishError)

def Phase.afterScan : Except PublishError (List Path × Localized) → Phase
  | .ok (jobs, result) => .copying jobs result
  | .error e => .raised e

structure Batch where
  publisher : Publisher
  now : String
  files : Tree
  store : Store
  shared : Shared
  docs : List (Draft × Phase)
  /-- The document that saves, with the ledger as it was when it began to. -/
  saving : Option (Nat × Ledger)

inductive Event where
  | tick (now : String)
  | scan (doc : Nat)
  | start (target : Path)
  /-- A copy under way has written some of its target. -/
  | write (target : Path) (files : Tree)
  /-- A copy ends, with the files as it leaves them. -/
  | settle (target : Path) (files : Tree) (failure : Option FileError)
  /-- A document fails because one of its copies did. -/
  | fail (doc : Nat) (target : Path)
  /-- A document whose copies are done takes the ledger as it is to save it. -/
  | take (doc : Nat)
  | save (outcome : Except StoreError (Store × Tree))

namespace Batch

def setPhase (b : Batch) (doc : Nat) (phase : Phase) : Batch :=
  { b with docs := b.docs.modify doc fun (d, _) => (d, phase) }

def hasFailed (s : Shared) (target : Path) : Bool :=
  match s.stateOf target with
  | some (.failed _) => true
  | _ => false

def failedAmong (s : Shared) (jobs : List Path) : Option Path := jobs.find? (hasFailed s)

def allDone (s : Shared) (jobs : List Path) : Bool :=
  jobs.all fun target => s.stateOf target = some .done

/-- The batch after an event, none if it cannot happen now. -/
def step (b : Batch) : Event → Option Batch
  | .tick now => some { b with now }
  | .scan i =>
    match b.docs[i]? with
    | some (d, .waiting) =>
      let (shared, outcome) := Asset.scan b.publisher b.files b.now d b.shared
      some ({ b with shared }.setPhase i (.afterScan outcome))
    | _ => none
  | .start target =>
    if b.shared.stateOf target = some .scheduled then
      some { b with shared := b.shared.setState target .running }
    else none
  | .write target files =>
    if b.shared.stateOf target = some .running then some { b with files } else none
  | .settle target files failure =>
    if b.shared.stateOf target = some .running then
      some { b with files, shared := b.shared.setState target (.ended failure) }
    else none
  | .fail i target =>
    match b.docs[i]?, b.shared.stateOf target with
    | some (_, .copying jobs _), some (.failed e) =>
      if target ∈ jobs then some (b.setPhase i (.raised (.file e))) else none
    | _, _ => none
  | .take i =>
    match b.docs[i]?, b.saving with
    | some (_, .copying jobs result), none =>
      if allDone b.shared jobs then
        some ({ b with saving := some (i, b.shared.ledger) }.setPhase i (.saving result))
      else none
    | _, _ => none
  | .save outcome =>
    match b.saving with
    | none => none
    | some (i, _) =>
      match outcome, b.docs[i]? with
      | .ok (store, files), some (_, .saving result) =>
        some ({ b with store, files, saving := none }.setPhase i (.returned result))
      | .error e, some (_, .saving _) =>
        some ({ b with saving := none }.setPhase i (.raised (.store e)))
      -- Does not happen: who saves is in its saving phase.
      | _, none | _, some _ => none

def firstDoc (b : Batch) (p : Phase → Bool) : Option Nat := b.docs.findIdx? fun (_, phase) => p phase

def firstCopy (b : Batch) (state : CopyState) : Option (Path × Copy) :=
  List.find? (fun p => p.2.state = state) b.shared.copies

def settled (b : Batch) (target source : Path) : Event :=
  match b.files.copy source target with
  | .ok files => .settle target files none
  -- A failed copy may leave anything; here it leaves the files as they are.
  | .error e => .settle target b.files (some e)

def nextClean (b : Batch) : Option Event :=
  if b.saving.isSome then none
  else
    (b.firstDoc fun | .copying [] _ => true | _ => false).map .take

/-- Events up to the end of all copies: scans in order, then copies in order. -/
def nextCopying (b : Batch) : Option Event :=
  b.nextClean.or <|
    ((b.firstDoc fun | .waiting => true | _ => false).map .scan).or <|
      ((b.firstCopy .scheduled).map fun (target, _) => .start target).or <|
        (b.firstCopy .running).map fun (target, c) => b.settled target c.source

def nextSave (b : Batch) : Option Event :=
  b.saving.map fun (_, l) => .save (b.store.save b.files l)

def nextFailure (b : Batch) : Option Event :=
  (b.docs.zipIdx.findSome? fun
    | ((_, .copying jobs _), i) => (failedAmong b.shared jobs).map fun target => (i, target)
    | _ => none).map fun (i, target) => .fail i target

/-- Events after the end of all copies. -/
def nextFinishing (b : Batch) : Option Event :=
  b.nextSave.or <|
    b.nextFailure.or <|
      (b.firstDoc fun
        | .copying jobs _ => allDone b.shared jobs
        | _ => false).map .take

/-- Plays the events that `next` names, at most `fuel` of them. -/
def play (next : Batch → Option Event) : Nat → Batch → Batch
  | 0, b => b
  | fuel + 1, b =>
    match next b >>= b.step with
    | some b => play next fuel b
    | none => b

/-- As many events as can happen: three for a document and two for a copy. -/
def eventBound (b : Batch) : Nat :=
  3 * b.docs.length +
    2 * (b.shared.copies.length + (b.docs.flatMap fun (d, _) => references d).length)

def runCopies (b : Batch) : Batch := play nextCopying b.eventBound b

def run (b : Batch) : Batch := play (fun b => b.nextCopying.or b.nextFinishing) b.eventBound b

def runSave (b : Batch) : Batch := play nextSave 1 b

def raisedIn : Draft × Phase → Option PublishError
  | (_, .raised e) => some e
  | _ => none

def failure? (b : Batch) : Option PublishError := b.docs.findSome? raisedIn

def failAll (b : Batch) : Batch := play nextFailure b.docs.length b

/-- Lets the copies under way end, but forgets how they ended. -/
def abandon (b : Batch) : Batch :=
  let targets := (b.shared.copies.filter fun (_, c) => c.state = .scheduled).map (·.1)
  let b' := b.runCopies
  { b' with shared := targets.foldl (fun s t => s.setState t .cancelled) b'.shared }

/-- Runs a batch whose scan comes first; if that fails, copies already under way are abandoned. -/
def runScanFirst (b : Batch) : Batch :=
  match b.step (.scan 0) with
  | some b' => if b'.failure?.isSome then b'.abandon else b'.run
  | none => b.run

def results (b : Batch) : List (Option (Except PublishError Localized)) :=
  b.docs.map fun
    | (_, .returned result) => some (.ok result)
    | (_, .raised e) => some (.error e)
    | _ => none

end Batch

/-- A publisher with what its documents share from batch to batch. -/
structure Localizer where
  publisher : Publisher
  shared : Shared
  deriving DecidableEq, Repr

namespace Localizer

def start (p : Publisher) (ledger : Ledger) : Localizer := ⟨p, ⟨ledger, []⟩⟩

def batch (l : Localizer) (now : String) (files : Tree) (store : Store) (drafts : List Draft) :
    Batch :=
  ⟨l.publisher, now, files, store, l.shared, drafts.map fun d => (d, .waiting), none⟩

end Localizer

end DocumentMedia.Asset
