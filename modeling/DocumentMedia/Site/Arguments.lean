import DocumentMedia.Assoc

/-! # Command line arguments

The words of a command line as a command with its options. Options may stand among the arguments; two
hyphens alone end them.
-/
namespace DocumentMedia.Site

structure OptionTable where
  /-- Options that take a value, under the names of what they set. -/
  valued : List (String × String) := []
  flags : List String := []
  /-- Single letters that stand for flags. -/
  letters : List (Char × String) := []
  deriving DecidableEq, Repr

/-- What was read so far: values and flags that were set, and arguments. -/
structure Words where
  values : Assoc String String := []
  flags : List String := []
  arguments : List String := []
  deriving DecidableEq, Repr

def splitValue (word : String) : String × Option String :=
  let cs := word.toList
  let name := String.ofList (cs.takeWhile (· ≠ '='))
  match cs.dropWhile (· ≠ '=') with
  | [] => (name, none)
  | _ :: v => (name, some (String.ofList v))

def lookup? (pairs : List (String × String)) (name : String) : Option String :=
  Assoc.find? pairs name

/-- The flags of letters behind one hyphen. -/
def letterFlags? (t : OptionTable) (letters : List Char) : Option (List String) :=
  letters.mapM fun c => Assoc.find? t.letters c

/-- Whether a word names an option. One hyphen alone is an argument. -/
def isOption (word : String) : Bool :=
  match word.toList with
  | '-' :: _ :: _ => true
  | _ => false

/-- Reads words in turn; none for a word that is no option of the command, or lacks its value. -/
def readWords (t : OptionTable) : Words → List String → Option Words
  | w, [] => some w
  | w, word :: rest =>
    if word = "--" then some { w with arguments := w.arguments ++ rest }
    else if !isOption word then readWords t { w with arguments := w.arguments ++ [word] } rest
    else
      let (name, value) := splitValue word
      match lookup? t.valued name, value with
      | some field, some v => readWords t { w with values := Assoc.put w.values field v } rest
      | some field, none =>
        match rest with
        | [] => none
        | v :: more => readWords t { w with values := Assoc.put w.values field v } more
      | none, _ =>
        if t.flags.contains name then
          if value.isSome then none else readWords t { w with flags := w.flags ++ [name] } rest
        else if word.startsWith "--" then none
        else
          match letterFlags? t (word.toList.drop 1) with
          | some names => readWords t { w with flags := w.flags ++ names } rest
          | none => none

inductive Command where
  /-- Builds the documents at a path, with settings from the command line. -/
  | build (path : String) (overrides : Assoc String String)
  | preprocess (file : String)
  | ledger
  | init (reset : Bool)
  deriving DecidableEq, Repr

def buildOptions : OptionTable where
  valued := [("--out-dir", "output_dir"), ("--public-dir", "public_dir"),
    ("--public-base", "public_base"), ("--dedupe-mode", "dedupe_mode"),
    ("--usage-log", "usage_log_path")]
  flags := ["--verbose"]
  letters := [('v', "--verbose")]

def commandOf? (name : String) (words : List String) : Option Command :=
  match name with
  | "build" => do
    let w ← readWords buildOptions {} words
    match w.arguments with
    | [path] => some (.build path w.values)
    | _ => none
  | "preprocess" => do
    let w ← readWords {} {} words
    match w.arguments with
    | [file] => some (.preprocess file)
    | _ => none
  | "ledger" => do
    let w ← readWords {} {} words
    if w.arguments.isEmpty then some .ledger else none
  | "init" => do
    let w ← readWords { flags := ["--reset"] } {} words
    if w.arguments.isEmpty then some (.init (w.flags.contains "--reset")) else none
  | _ => none

/-- The command of a command line, none if it is used wrongly. -/
def Command.ofArguments? : List String → Option Command
  | [] => none
  | name :: words =>
    if name = "--" then
      match words with
      | [] => none
      | name :: words => commandOf? name words
    else commandOf? name words

end DocumentMedia.Site
