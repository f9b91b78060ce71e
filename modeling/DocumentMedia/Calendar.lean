/-! # Dates and times

Calendar dates of the years 1 to 9999, times of day with an optional offset, and the text of an
instant counted in microseconds.
-/
namespace DocumentMedia

structure Date where
  year : Nat
  month : Nat
  day : Nat
  deriving DecidableEq, Repr

structure DateTime where
  date : Date
  hour : Nat
  minute : Nat
  second : Nat
  microsecond : Nat
  /-- Seconds east of Greenwich, if the time says so. -/
  offset : Option Int
  deriving DecidableEq, Repr

inductive CalendarError where
  | year (y : Nat)
  | month
  | day
  | hour
  | minute
  | second
  /-- An offset of a day or more. -/
  | offset (seconds : Int)
  deriving DecidableEq, Repr

def isLeap (year : Nat) : Bool :=
  year % 4 = 0 && (year % 100 ≠ 0 || year % 400 = 0)

def daysIn (year month : Nat) : Nat :=
  if month = 2 then if isLeap year then 29 else 28
  else if month = 4 || month = 6 || month = 9 || month = 11 then 30
  else 31

def Date.make (year month day : Nat) : Except CalendarError Date :=
  if year < 1 || 9999 < year then .error (.year year)
  else if month < 1 || 12 < month then .error .month
  else if day < 1 || daysIn year month < day then .error .day
  else .ok ⟨year, month, day⟩

def DateTime.make (year month day hour minute second microsecond : Nat) (offset : Option Int) :
    Except CalendarError DateTime := do
  if let some o := offset then
    if o.natAbs ≥ 86400 then throw (.offset o)
  let date ← Date.make year month day
  if 23 < hour then throw .hour
  if 59 < minute then throw .minute
  if 59 < second then throw .second
  return ⟨date, hour, minute, second, microsecond, offset⟩

def padded (width n : Nat) : String :=
  let digits := Nat.toDigits 10 n
  String.ofList (List.replicate (width - digits.length) '0' ++ digits)

def Date.text (d : Date) : String :=
  padded 4 d.year ++ "-" ++ padded 2 d.month ++ "-" ++ padded 2 d.day

def offsetText (o : Int) : String :=
  let n := o.natAbs
  (if o < 0 then "-" else "+") ++ padded 2 (n / 3600) ++ ":" ++ padded 2 (n / 60 % 60) ++
    (if n % 60 = 0 then "" else ":" ++ padded 2 (n % 60))

def DateTime.textWith (separator : String) (t : DateTime) : String :=
  t.date.text ++ separator ++ padded 2 t.hour ++ ":" ++ padded 2 t.minute ++ ":" ++
    padded 2 t.second ++
    (if t.microsecond = 0 then "" else "." ++ padded 6 t.microsecond) ++
    (match t.offset with
      | none => ""
      | some o => offsetText o)

/-- Days from 1 March of the year 0 to the first of the given month, counted from March. -/
def daysBeforeMonth (month : Nat) : Nat := (153 * ((month + 9) % 12) + 2) / 5

/-- Days since 1 March of the year 0. -/
def Date.dayNumber (d : Date) : Nat :=
  let y := if d.month ≤ 2 then d.year - 1 else d.year
  365 * y + y / 4 - y / 100 + y / 400 + daysBeforeMonth d.month + (d.day - 1)

def Date.ofDayNumber (n : Nat) : Date :=
  let era := n / 146097
  let doe := n % 146097
  let yoe := (doe - doe / 1460 + doe / 36524 - doe / 146096) / 365
  let doy := doe - (365 * yoe + yoe / 4 - yoe / 100)
  let mp := (5 * doy + 2) / 153
  let day := doy - (153 * mp + 2) / 5 + 1
  let month := if mp < 10 then mp + 3 else mp - 9
  let year := yoe + era * 400 + (if month ≤ 2 then 1 else 0)
  ⟨year, month, day⟩

/-- Day number of 1 January 1970. -/
def epochDay : Nat := 719468

/-- The time of an instant in microseconds since 1970. -/
def DateTime.ofEpoch (microseconds : Int) : DateTime :=
  let n := (microseconds + epochDay * 86400000000).toNat
  let seconds := n / 1000000
  let ofDay := seconds % 86400
  ⟨Date.ofDayNumber (seconds / 86400), ofDay / 3600, ofDay / 60 % 60, ofDay % 60,
    n % 1000000, none⟩

/-- The text under which an instant is recorded in the ledger. -/
def instantText (microseconds : Int) : String :=
  (DateTime.ofEpoch microseconds).textWith "T" ++ "Z"

/-- Microseconds since 1970 of a time, with no offset counted as none. -/
def DateTime.instant (t : DateTime) : Int :=
  (((t.date.dayNumber : Int) - epochDay) * 86400 + t.hour * 3600 + t.minute * 60 + t.second
    - t.offset.getD 0) * 1000000 + t.microsecond

/-- Equal times: the same reading when neither has an offset, the same instant when both do. -/
def DateTime.same (a b : DateTime) : Bool :=
  a.offset.isSome = b.offset.isSome && a.instant = b.instant

example : (Date.ofDayNumber epochDay).text = "1970-01-01" := by decide +kernel

end DocumentMedia
