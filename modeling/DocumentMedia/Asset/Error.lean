import DocumentMedia.Ledger.Store
import DocumentMedia.Picture.Size

/-! # Failures of publishing

What can stop the work on one document.
-/
namespace DocumentMedia.Asset

open DocumentMedia.Files (FileError)
open DocumentMedia.Ledger (StoreError)

inductive PublishError where
  | file (e : FileError)
  | picture (e : Picture.DecodeError)
  /-- A node is of another kind than its type says. -/
  | misfit
  | store (e : StoreError)
  deriving DecidableEq, Repr

def PublishError.message : PublishError → String
  | .file e => e.message
  | .picture e => e.message
  | .misfit => "the type of a node asks for fields that it does not have"
  | .store e => e.message

end DocumentMedia.Asset
