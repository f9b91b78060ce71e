import DocumentMedia.Ledger.Store
import DocumentMedia.Text.Alnum
import DocumentMedia.Text.Digit
import DocumentMedia.Text.LetterCase
import DocumentMedia.Text.Percent

/-! # Database addresses

An address names the kind of a database, possibly with a driver, then after `://` a user and a
password, a host with a number, the database, and options. Ledgers are kept in files and in memory
only; the other kinds that exist have no driver here.
-/
namespace DocumentMedia.Ledger

open DocumentMedia.Files DocumentMedia.Text

structure DatabaseAddress where
  kind : List Char
  user : List Char
  password : List Char
  host : List Char
  portText : Option (List Char)
  database : List Char
  options : List Char

namespace DatabaseAddress

/-- User and password before an at sign, and the rest. A password reaches to the first at sign;
without a colon the user reaches to the last one before a slash. -/
def splitUser (s : List Char) : List Char × List Char × List Char :=
  let isEnd (c : Char) : Bool := c = ':' || c = '/'
  let user := s.takeWhile (!isEnd ·)
  let behind := s.dropWhile (!isEnd ·)
  let short : List Char × List Char × List Char :=
    match user.reverse.dropWhile (· ≠ '@') with
    | '@' :: u => (u.reverse, [], (user.reverse.takeWhile (· ≠ '@')).reverse ++ behind)
    | _ => ([], [], s)
  match behind with
  | ':' :: r =>
    match r.dropWhile (· ≠ '@') with
    | '@' :: rest => (user, r.takeWhile (· ≠ '@'), rest)
    | _ => short
  | _ => short

def splitHost (s : List Char) : List Char × List Char :=
  let isEnd (c : Char) : Bool := c = '/' || c = '?'
  let plain := (s.takeWhile fun c => !isEnd c && c ≠ ':', s.dropWhile fun c => !isEnd c && c ≠ ':')
  match s with
  | '[' :: r =>
    let inside := r.takeWhile (!isEnd ·)
    match inside.reverse.dropWhile (· ≠ ']') with
    | ']' :: h =>
      if h.isEmpty then plain else (h.reverse, r.drop (h.length + 1))
    | _ => plain
  | _ => plain

def splitPort (s : List Char) : Option (List Char) × List Char :=
  let isEnd (c : Char) : Bool := c = '/' || c = '?'
  match s with
  | ':' :: r => (some (r.takeWhile (!isEnd ·)), r.dropWhile (!isEnd ·))
  | _ => (none, s)

def ofText? (s : List Char) : Option DatabaseAddress := do
  let isKind (c : Char) : Bool := isWord c || c = '+'
  let kind := s.takeWhile isKind
  let rest ← dropHead? "://".toList (s.dropWhile isKind)
  if kind.isEmpty then none
  else
    let (user, password, rest) := splitUser rest
    let (host, rest) := splitHost rest
    let (portText, rest) := splitPort rest
    let (database, rest) := match rest with
      | '/' :: r => (r.takeWhile (· ≠ '?'), r.dropWhile (· ≠ '?'))
      | r => ([], r)
    let options := match rest with
      | '?' :: r => r
      | _ => []
    some ⟨kind, user, password, host, portText, database, options⟩

/-- The named options that have a value. -/
def optionPairs (a : DatabaseAddress) : List (String × String) :=
  let readText (s : List Char) : String :=
    unpercent (String.ofList (s.map fun c => if c = '+' then ' ' else c))
  (splitWhere (· = '&') a.options).filterMap fun p =>
    match p.dropWhile (· ≠ '=') with
    | _ :: c :: cs => some (readText (p.takeWhile (· ≠ '=')), readText (c :: cs))
    | _ => none

def option? (a : DatabaseAddress) (name : String) : Option String :=
  (a.optionPairs.find? (·.1 = name)).map (·.2)

/-- Other kinds of databases, each with its drivers. -/
def otherKinds : List (String × List String) :=
  [("postgresql", ["base", "psycopg2", "psycopg", "asyncpg", "pg8000"]),
    ("mysql", ["base", "mysqldb", "pymysql", "mysqlconnector", "mariadbconnector", "aiomysql",
      "asyncmy", "cymysql", "pyodbc"]),
    ("mariadb", ["base", "mysqldb", "pymysql", "mysqlconnector", "mariadbconnector", "aiomysql",
      "asyncmy", "cymysql", "pyodbc"]),
    ("oracle", ["base", "cx_oracle", "oracledb"]),
    ("mssql", ["base", "pyodbc", "pymssql", "aioodbc"])]

/-- Checks that databases of the kind are kept in files, and can be opened. -/
def checkKind (a : DatabaseAddress) : Except DatabaseError Unit :=
  match (splitWhere (· = '+') a.kind).map String.ofList with
  | kind :: drivers =>
    match drivers with
    | _ :: _ :: _ => .error .manyDrivers
    | _ =>
      let driver := drivers.headD "base"
      if kind = "sqlite" then
        if driver = "base" || driver = "pysqlite" then .ok ()
        else if driver = "aiosqlite" || driver = "pysqlcipher" then .error .noDriver
        else .error .unknownKind
      else
        match otherKinds.find? (·.1 = kind) with
        | some (_, known) => if known.contains driver then .error .noDriver else .error .unknownKind
        | none => .error .unknownKind
  | [] => .error .unknownKind

/-- Checks that what stands behind the host is a number. -/
def checkPort (a : DatabaseAddress) : Except DatabaseError Unit :=
  match a.portText with
  | none => .ok ()
  | some [] => .error .noPort
  | some p => if isWholeNumber p then .ok () else .error (.badWhole (String.ofList p))

/-- Whether the address names something that files do not have. -/
def isRemote (a : DatabaseAddress) : Bool :=
  !a.user.isEmpty || !a.password.isEmpty || !a.host.isEmpty ||
    (a.portText.getD []).any fun c => c.isDigit && c ≠ '0'

def truthWords : List String :=
  ["true", "yes", "on", "y", "t", "1", "false", "no", "off", "n", "f", "0"]

def checkTruth (text : String) : Except DatabaseError Unit :=
  let text := String.ofList (lower (strip text.toList))
  if truthWords.contains text then .ok () else .error (.badTruth text)

def checkWhole (text : String) : Except DatabaseError Unit :=
  if isWholeNumber text.toList then .ok () else .error (.badWhole text)

def checkNumber (text : String) : Except DatabaseError Unit :=
  if isDecimalNumber text.toList then .ok () else .error (.badNumber text)

/-- Options for opening a file, with what their values must be. -/
def optionChecks : List (String × (String → Except DatabaseError Unit)) :=
  [("uri", checkTruth), ("timeout", checkNumber), ("detect_types", checkWhole),
    ("check_same_thread", checkTruth), ("cached_statements", checkWhole)]

def checkOptions (a : DatabaseAddress) : Except DatabaseError Unit :=
  optionChecks.forM fun (name, check) =>
    match a.option? name with
    | some text => check text
    | none => .ok ()

end DatabaseAddress

inductive Database where
  | file (path : Path)
  | memory
  deriving DecidableEq, Repr

/-- The database of a name, which is a path unless it is empty or that of memory. -/
def Database.ofName (name : String) : Except DatabaseError Database :=
  if name.isEmpty || name = ":memory:" then .ok .memory
  else if name.toList.contains '\x00' then .error .nullCharacter
  else .ok (.file (Path.ofString name).normal)

/-- The database at an address. No plugin is known that an address could ask for. -/
def databaseAt (address : String) : Except DatabaseError Database := do
  match DatabaseAddress.ofText? address.toList with
  | none => throw .badAddress
  | some a =>
    a.checkPort
    if (a.option? "plugin").isSome then throw .unknownKind
    a.checkKind
    if a.isRemote then throw .badAddress
    a.checkOptions
    Database.ofName (unpercent (String.ofList a.database))

namespace Database

/-- Opens a database, which may make its file. -/
def openIn (t : Tree) : Database → Except DatabaseError (Store × Tree)
  | .memory => .ok (.transient, t)
  | .file p => do
    let (t, _) ← openTable t p
    return (.table p, t)

def clearIn (t : Tree) : Database → Except DatabaseError Tree
  | .memory => .ok t
  | .file p => replaceRows t p []

def files : Database → List Path
  | .memory => []
  | .file p => [p]

end Database

end DocumentMedia.Ledger
