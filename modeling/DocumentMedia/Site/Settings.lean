import DocumentMedia.Asset.Publisher
import DocumentMedia.Document.Expand
import DocumentMedia.Document.Page
import DocumentMedia.Text.Utf8

/-! # Settings

How a site is built. Settings are read from named values; each value that does not fit is a fault,
and faults are listed in the order of the settings.
-/
namespace DocumentMedia.Site

open DocumentMedia.Asset (DedupeMode Publisher)

inductive LedgerBackend where
  | json
  | sql
  deriving DecidableEq, Repr

def LedgerBackend.name : LedgerBackend → String
  | .json => "json"
  | .sql => "sql"

def LedgerBackend.ofName? (name : String) : Option LedgerBackend :=
  if name = "json" then some .json else if name = "sql" then some .sql else none

structure Settings where
  publicDir : String := "public"
  publicBase : String := "assets"
  dedupeMode : DedupeMode := .shared
  usageLogPath : String := ".asset-usage.json"
  videoAttrs : String := Document.defaultVideoAttrs
  contentRoot : String := "src/content"
  preprocessSuffix : String := ".mdx"
  parserConfig : String := "gfm-like"
  outputDir : String := "dist"
  ledgerBackend : LedgerBackend := .json
  dbUrl : String := "sqlite:///mdmedia.db"
  deriving DecidableEq, Repr

namespace Settings

def toPairs (s : Settings) : List (String × String) :=
  [("public_dir", s.publicDir), ("public_base", s.publicBase), ("dedupe_mode", s.dedupeMode.name),
    ("usage_log_path", s.usageLogPath), ("video_attrs", s.videoAttrs),
    ("content_root", s.contentRoot), ("preprocess_suffix", s.preprocessSuffix),
    ("parser_config", s.parserConfig), ("output_dir", s.outputDir),
    ("ledger_backend", s.ledgerBackend.name), ("db_url", s.dbUrl)]

def names : List String := (toPairs {}).map (·.1)

/-- Sets one setting, if there is one of that name and the text is allowed. -/
def set? (s : Settings) (name text : String) : Option Settings :=
  match name with
  | "public_dir" => some { s with publicDir := text }
  | "public_base" => some { s with publicBase := text }
  | "dedupe_mode" => (DedupeMode.ofName? text).map fun m => { s with dedupeMode := m }
  | "usage_log_path" => some { s with usageLogPath := text }
  | "video_attrs" => some { s with videoAttrs := text }
  | "content_root" => some { s with contentRoot := text }
  | "preprocess_suffix" => some { s with preprocessSuffix := text }
  | "parser_config" => some { s with parserConfig := text }
  | "output_dir" => some { s with outputDir := text }
  | "ledger_backend" => (LedgerBackend.ofName? text).map fun b => { s with ledgerBackend := b }
  | "db_url" => some { s with dbUrl := text }
  | _ => none

end Settings

inductive FaultKind where
  | notText
  | badEncoding
  /-- None of the texts that are allowed. -/
  | mismatch
  deriving DecidableEq, Repr

structure Fault where
  field : String
  kind : FaultKind
  deriving DecidableEq, Repr

def settingText (v : Value) : Except FaultKind String :=
  match v with
  | .str s => .ok s
  | .bytes bs => (Text.Utf8.decode (ByteArray.mk bs.toArray)).mapError fun _ => .badEncoding
  | _ => .error .notText

def readSetting (values : Fields) (acc : Settings × List Fault) (name : String) :
    Settings × List Fault :=
  match Assoc.find? values name with
  | none => acc
  | some v =>
    match settingText v with
    | .error kind => (acc.1, acc.2 ++ [⟨name, kind⟩])
    | .ok text =>
      match acc.1.set? name text with
      | some s => (s, acc.2)
      | none => (acc.1, acc.2 ++ [⟨name, .mismatch⟩])

/-- The settings of named values. Missing ones have their defaults, unknown names are passed over. -/
def Settings.ofFields (values : Fields) : Except (List Fault) Settings :=
  let (s, faults) := Settings.names.foldl (readSetting values) ({}, [])
  if faults.isEmpty then .ok s else .error faults

def Settings.publisher (s : Settings) : Publisher where
  publicDir := Files.Path.ofString s.publicDir
  publicBase := s.publicBase
  mode := s.dedupeMode
  contentRoot := s.contentRoot

def Settings.reading (s : Settings) : Document.Reading := ⟨s.parserConfig, s.preprocessSuffix⟩

end DocumentMedia.Site
