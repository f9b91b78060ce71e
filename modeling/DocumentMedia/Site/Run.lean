import DocumentMedia.Site.Arguments
import DocumentMedia.Site.Build
import DocumentMedia.Site.Config

/-! # Running commands

What each command writes, with which status it ends, and what it leaves of the files.
-/
namespace DocumentMedia.Site

open DocumentMedia.Files
open DocumentMedia.Ledger (DatabaseError databaseAt)

inductive Ending where
  | done
  /-- With an explanation for the user. -/
  | refused (message : String)
  /-- Without one, since nothing was wrong. -/
  | nothing
  /-- By a failure that no command explains. -/
  | failed (f : Failure)
  deriving DecidableEq, Repr

structure Outcome where
  files : Tree
  output : String
  ending : Ending

def Ending.status : Ending → Nat
  | .done => 0
  | .refused _ | .nothing | .failed _ => 1

/-- The status of a command line that is used wrongly. -/
def usageStatus : Nat := 2

def line (s : String) : String := s ++ "\n"

/-- Runs the rest of a command with the settings, or explains what is wrong with them. -/
def withSettings (t : Tree) (env : Environment) (overrides : Fields) (rest : Settings → Outcome) :
    Outcome :=
  match loadSettings t env overrides with
  | .ok s => rest s
  | .error e => ⟨t, "", if e.isReported then .refused e.message else .failed (.config e)⟩

/-- Failures of single documents are explained. -/
def endingOf : Failure → Ending
  | f@(.building ..) => .refused f.message
  | f => .failed f

def builtLine (r : Path × Path) : String := line ("  " ++ r.1.text ++ " -> " ++ r.2.text)

def runBuild (t : Tree) (now : String) (path : String) (s : Settings) : Outcome :=
  match t.pathExists (Path.ofString path) with
  | .error e => ⟨t, "", .failed (.file e)⟩
  | .ok false => ⟨t, "", .refused ("Path not found: " ++ path)⟩
  | .ok true =>
    match build s t now (Path.ofString path) with
    | (t, .error e) => ⟨t, "", endingOf e⟩
    | (t, .ok results) =>
      ⟨t, String.join (results.map builtLine) ++
        line s!"Built {results.length} document(s) to {s.outputDir}/", .done⟩

def runPreprocess (t : Tree) (file : Path) (s : Settings) : Outcome :=
  match t.readText file with
  | .error e => ⟨t, "", .failed (.read e)⟩
  | .ok text => ⟨t, Document.replaceInSource text file.text s.preprocessSuffix, .done⟩

def entryLine (hash : String) (e : LedgerEntry) : String :=
  line (hash ++ "  " ++ e.path ++ "  " ++ e.lastUsed)

def sortedEntries (l : Ledger) : Ledger := l.mergeSort fun a b => decide (a.2.path ≤ b.2.path)

def runLedger (t : Tree) (now : String) (s : Settings) : Outcome :=
  match openStore s t with
  | .error e => ⟨t, "", .failed (.store e)⟩
  | .ok (store, t) =>
    match store.load t now with
    | .error e => ⟨t, "", .failed (.store e)⟩
    | .ok [] => ⟨t, line "Usage ledger is empty.", .nothing⟩
    | .ok l => ⟨t, String.join ((sortedEntries l).map fun (hash, e) => entryLine hash e), .done⟩

/-- Makes the table of the ledger, after clearing it on demand. -/
def runInit (t : Tree) (reset : Bool) (s : Settings) : Outcome :=
  match s.ledgerBackend with
  | .json =>
    ⟨t, line ("Ledger backend is 'json'; nothing to initialize (the ledger lives in " ++
      s.usageLogPath ++ ")."), .done⟩
  | .sql =>
    let opened : Except DatabaseError Tree := do
      let d ← databaseAt s.dbUrl
      if reset then d.clearIn t else return (← d.openIn t).2
    match opened with
    | .error e => ⟨t, "", .failed (.store (.database e))⟩
    | .ok t =>
      ⟨t, (if reset then line "Existing ledger cleared." else "") ++
        line ("Ledger database initialized at: " ++ s.dbUrl), .done⟩

def isPlainFile (t : Tree) (p : Path) : Bool :=
  match t.isFile p with
  | .ok b => b
  | .error _ => false

/-- Runs a command; none if its arguments are wrong. -/
def run (t : Tree) (env : Environment) (now : String) : Command → Option Outcome
  | .build path overrides =>
    some (withSettings t env (overrides.map fun (name, v) => (name, .str v)) (runBuild t now path))
  | .preprocess file =>
    let p := Path.ofString file
    if isPlainFile t p then some (withSettings t env [] (runPreprocess t p)) else none
  | .ledger => some (withSettings t env [] (runLedger t now))
  | .init reset => some (withSettings t env [] (runInit t reset))

end DocumentMedia.Site
