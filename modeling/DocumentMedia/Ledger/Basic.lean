import DocumentMedia.Assoc

/-! # The usage ledger

For each content hash, where a file with that content was published and when it was last used.
-/
namespace DocumentMedia

structure LedgerEntry where
  ext : String
  path : String
  lastUsed : String
  deriving DecidableEq, Repr

/-- Entries under the hashes of their contents. -/
abbrev Ledger := Assoc String LedgerEntry

end DocumentMedia
