import DocumentMedia.Files.Reading
import DocumentMedia.Site.Failure

/-! # Configuration

Settings come from a YAML file in the current directory, then from the environment, then from the
command line; the later source wins.
-/
namespace DocumentMedia.Site

open DocumentMedia.Files

abbrev Environment := Assoc String String

/-- The named values of the configuration file, none if there is no file. -/
def fileValues (t : Tree) : Except ConfigError (List (Value × Value)) := do
  let p := Path.ofString configName
  if !(← (t.pathExists p).mapError fun e => .read (.file e)) then return []
  else
    let text ← (t.readText p).mapError .read
    let v ← (Yaml.load text).mapError .yaml
    if v.isFalsy then return []
    else
      match v with
      | .map es => return es
      | _ => throw .notMapping

def variableOf (name : String) : String := "MDMEDIA_" ++ String.ofList (name.toList.map Char.toUpper)

/-- Values from the environment; empty variables count as unset. -/
def withVariables (env : Environment) (es : List (Value × Value)) : List (Value × Value) :=
  Settings.names.foldl
    (fun es name =>
      match Assoc.find? env (variableOf name) with
      | some text => if text.isEmpty then es else Value.putEntry es (.str name) (.str text)
      | none => es)
    es

/-- Values from the command line; absent ones leave the earlier value. -/
def withOverrides (overrides : Fields) (es : List (Value × Value)) : List (Value × Value) :=
  overrides.foldl
    (fun es (name, v) =>
      match v with
      | .null => es
      | v => Value.putEntry es (.str name) v)
    es

def namedValues : List (Value × Value) → Except ConfigError Fields
  | [] => .ok []
  | (.str name, v) :: rest => (namedValues rest).map fun fs => (name, v) :: fs
  | _ :: _ => .error .badName

def loadSettings (t : Tree) (env : Environment) (overrides : Fields) :
    Except ConfigError Settings := do
  let values ← namedValues (withOverrides overrides (withVariables env (← fileValues t)))
  (Settings.ofFields values).mapError .settings

end DocumentMedia.Site
