import DocumentMedia.Asset.Error
import DocumentMedia.Document.Page
import DocumentMedia.Files.Error
import DocumentMedia.Ledger.Store
import DocumentMedia.Site.Settings
import DocumentMedia.Site.Sidecar

/-! # Failures

All that can go wrong while a site is configured and built.
-/
namespace DocumentMedia.Site

open DocumentMedia.Asset (PublishError)
open DocumentMedia.Files (FileError ReadError Path)
open DocumentMedia.Ledger (StoreError)
open DocumentMedia.Document (PageError)

def configName : String := "config.yaml"

inductive ConfigError where
  | read (e : ReadError)
  | yaml (e : YamlError)
  | notMapping
  /-- A name that is no text. -/
  | badName
  | settings (faults : List Fault)
  deriving DecidableEq, Repr

def ConfigError.message : ConfigError → String
  | .read e => e.message
  | .yaml .malformed => "Invalid " ++ configName
  | .yaml e => e.message
  | .notMapping => "Invalid " ++ configName ++ ": expected a mapping"
  | .badName => "keywords must be strings"
  | .settings faults =>
    s!"{faults.length} validation error" ++ (if faults.length = 1 then "" else "s") ++
      " for Settings"

/-- Faults of the texts in a configuration, which are reported to the user; the others end the
program. -/
def ConfigError.isReported : ConfigError → Bool
  | .read (.decode _) | .notMapping | .settings _ => true
  | .read (.file _) | .badName => false
  | .yaml e =>
    match e with
    | .emptyNumber | .truthValue _ | .timestamp | .hugeCodePoint => false
    | _ => true

inductive Failure where
  | file (e : FileError)
  | read (e : ReadError)
  | store (e : StoreError)
  | publish (e : PublishError)
  | page (e : PageError)
  | config (e : ConfigError)
  /-- A header that cannot be written in JSON. -/
  | sidecar (e : Value.JsonFault)
  | building (path : Path) (cause : Failure)
  deriving DecidableEq, Repr

namespace Failure

/-- The message inside another one. -/
def inner : Failure → String
  | .file e => e.message
  | .read e => e.message
  | .store e => e.message
  | .publish e => e.message
  | .page e => e.inner
  | .config e => e.message
  | .sidecar e => e.message
  | .building path cause => "Failed to build " ++ path.text ++ ": " ++ cause.inner

def message : Failure → String
  | .page e => e.message
  | f => f.inner

end Failure

end DocumentMedia.Site
