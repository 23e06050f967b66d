import ScriptAgent.Script.Library.Argument

/-!
# Time

The library's clock stands still, so that a script's run depends on nothing but the script and its
tools. Dates are computed in the proleptic calendar without a time zone; calendar times are
counted in seconds from the beginning of 1970.
-/

namespace ScriptAgent.Script.Library

open Invocation

/-- The time that the clock shows. -/
def now : Int := 1767225600

/-- The day of a date, counted from the beginning of 1970; months beyond the year count on. -/
def dayNumber (year month day : Int) : Int :=
  let year := year + Int.fdiv (month - 1) 12
  let month := Int.fmod (month - 1) 12 + 1
  let y := if month ≤ 2 then year - 1 else year
  let era := Int.fdiv y 400
  let yearOfEra := y - era * 400
  let shifted := if month > 2 then month - 3 else month + 9
  let dayOfYear := (153 * shifted + 2) / 5
  era * 146097 + yearOfEra * 365 + yearOfEra / 4 - yearOfEra / 100 + dayOfYear - 719468 + day - 1

/-- A date and a time of day. -/
structure Moment where
  year : Int
  month : Int
  day : Int
  hour : Int
  minute : Int
  second : Int
  weekday : Int
  yearday : Int

/-- The moment of a calendar time. -/
def Moment.ofSeconds (t : Int) : Moment :=
  let days := Int.fdiv t 86400
  let seconds := Int.fmod t 86400
  let z := days + 719468
  let era := Int.fdiv z 146097
  let dayOfEra := z - era * 146097
  let yearOfEra :=
    (dayOfEra - dayOfEra / 1460 + dayOfEra / 36524 - dayOfEra / 146096) / 365
  let dayOfYear := dayOfEra - (365 * yearOfEra + yearOfEra / 4 - yearOfEra / 100)
  let shifted := (5 * dayOfYear + 2) / 153
  let day := dayOfYear - (153 * shifted + 2) / 5 + 1
  let month := if shifted < 10 then shifted + 3 else shifted - 9
  let year := yearOfEra + era * 400 + (if month ≤ 2 then 1 else 0)
  { year, month, day
    hour := seconds / 3600, minute := seconds / 60 % 60, second := seconds % 60
    weekday := Int.fmod (days + 4) 7
    yearday := days - dayNumber year 1 1 }

/-- The days of the week. -/
def weekdayNames : List String :=
  ["Sunday", "Monday", "Tuesday", "Wednesday", "Thursday", "Friday", "Saturday"]

/-- The months. -/
def monthNames : List String :=
  ["January", "February", "March", "April", "May", "June", "July", "August", "September",
    "October", "November", "December"]

/-- A number with a least number of digits. -/
def digits (width : Nat) (n : Int) : String :=
  String.ofList (Decimal.padZeros width (Decimal.digitChars n.toNat))

/-- The number of a week of a year whose weeks begin on Monday and belong to the year that has
most of their days. -/
def weekOfYear (yearday weekday : Int) : Int := (yearday - (weekday + 6) % 7 + 10) / 7

/-- The year that the week of a moment belongs to, and the number of that week. -/
def Moment.week (m : Moment) : Int × Int :=
  let w := weekOfYear m.yearday m.weekday
  let length := dayNumber (m.year + 1) 1 1 - dayNumber m.year 1 1
  if w < 1 then
    let before := dayNumber m.year 1 1 - dayNumber (m.year - 1) 1 1
    (m.year - 1, weekOfYear (m.yearday + before) m.weekday)
  else if w = 53 && weekOfYear (m.yearday - length) m.weekday ≥ 1 then (m.year + 1, 1)
  else (m.year, w)

/-- The text of a conversion in a date format, where `zone` is the name of the time zone. -/
def Moment.field? (m : Moment) (zone : String) (letter : Char) : Option String :=
  let weekday := weekdayNames.getD m.weekday.toNat ""
  let month := monthNames.getD (m.month.toNat - 1) ""
  let short (s : String) : String := String.ofList (s.toList.take 3)
  let date := s!"{digits 2 m.month}/{digits 2 m.day}/{digits 2 (m.year % 100)}"
  let time := s!"{digits 2 m.hour}:{digits 2 m.minute}:{digits 2 m.second}"
  let blank := if m.day < 10 then " " else ""
  let hour := if m.hour % 12 = 0 then 12 else m.hour % 12
  let half := if m.hour < 12 then "AM" else "PM"
  let full := s!"{short weekday} {short month} {blank}{m.day} {time} {m.year}"
  match letter with
  | 'a' => some (short weekday)
  | 'A' => some weekday
  | 'b' | 'h' => some (short month)
  | 'B' => some month
  | 'c' => some full
  | 'C' => some (digits 2 (Int.fdiv m.year 100))
  | 'd' => some (digits 2 m.day)
  | 'D' | 'x' => some date
  | 'e' => some s!"{blank}{m.day}"
  | 'F' => some s!"{digits 4 m.year}-{digits 2 m.month}-{digits 2 m.day}"
  | 'g' => some (digits 2 (m.week.1 % 100))
  | 'G' => some (toString m.week.1)
  | 'H' => some (digits 2 m.hour)
  | 'I' => some (digits 2 hour)
  | 'j' => some (digits 3 (m.yearday + 1))
  | 'm' => some (digits 2 m.month)
  | 'M' => some (digits 2 m.minute)
  | 'n' => some "\n"
  | 'p' => some half
  | 'r' => some s!"{digits 2 hour}:{digits 2 m.minute}:{digits 2 m.second} {half}"
  | 'R' => some s!"{digits 2 m.hour}:{digits 2 m.minute}"
  | 'S' => some (digits 2 m.second)
  | 't' => some "\t"
  | 'T' | 'X' => some time
  | 'u' => some (toString (if m.weekday = 0 then 7 else m.weekday))
  | 'U' => some (digits 2 ((m.yearday + 7 - m.weekday) / 7))
  | 'V' => some (digits 2 m.week.2)
  | 'w' => some (toString m.weekday)
  | 'W' => some (digits 2 ((m.yearday + 7 - (m.weekday + 6) % 7) / 7))
  | 'y' => some (digits 2 (m.year % 100))
  | 'Y' => some (toString m.year)
  | 'z' => some "+0000"
  | 'Z' => some zone
  | '%' => some "%"
  | _ => none

/-- Takes the conversion at the beginning of a format off: its letter, and the rest. Two letters
may stand before others to ask for another calendar or other digits, of which there are none. -/
def conversion : Bytes → Option (Char × Bytes)
  | m :: b :: rest =>
    let modified := if m == 69 then "cCxXyY" else if m == 79 then "deHImMSuUVwWy" else ""
    if modified.isEmpty then some (Char.ofNat m.toNat, b :: rest)
    else if modified.toList.contains (Char.ofNat b.toNat) then some (Char.ofNat b.toNat, rest)
    else none
  | [b] => some (Char.ofNat b.toNat, [])
  | [] => none

/-- The text of a moment by a format; `fuel` is no less than the length of the format. -/
def dateText (inv : Invocation) (m : Moment) (zone : String) : Nat → Bytes → Program Bytes
  | 0, _ | _, [] => .done []
  | fuel + 1, 37 :: rest =>
    match (conversion rest).bind fun (letter, rest) => (m.field? zone letter).map (·, rest) with
    | some (s, rest) => do return Bytes.ofAscii s ++ (← dateText inv m zone fuel rest)
    | none =>
      inv.wrong 1 (Bytes.ofAscii "invalid conversion specifier '%" ++ rest ++
        Bytes.ofAscii "'")
  | fuel + 1, b :: rest => do return b :: (← dateText inv m zone fuel rest)

/-- The fields of a table that gives a moment. -/
def Moment.fields (m : Moment) : List (String × Value) :=
  [("year", .int m.year), ("month", .int m.month), ("day", .int m.day), ("hour", .int m.hour),
    ("min", .int m.minute), ("sec", .int m.second), ("yday", .int (m.yearday + 1)),
    ("wday", .int (m.weekday + 1)), ("isdst", .bool false)]

/-- Writes the fields of a moment to a table. -/
def setFields (t : Value) : List (String × Value) → Program Unit
  | [] => .done ()
  | (name, v) :: rest => do
    Operation.setIndex .library none t (.text name) v
    setFields t rest

/-- `os.date`. -/
def osDate (inv : Invocation) : Program (List Value) := do
  let format ← inv.bytesOr 1 (Bytes.ofAscii "%c")
  let t ← inv.integerOr 2 (Int64.ofInt now)
  let universal := format.head? == some 33
  let format := if universal then format.drop 1 else format
  let m := Moment.ofSeconds t.toInt
  if format == Bytes.ofAscii "*t" then
    let table ← Program.queryOne .newTable
    setFields table m.fields
    return [table]
  else
    return [.str (← dateText inv m (if universal then "GMT" else "UTC") format.length format)]

/-- A field of a table that gives a moment. -/
def dateField (inv : Invocation) (t : Value) (name : String) (default : Option Int) :
    Program Int := do
  let v ← Operation.index .library none t (.text name)
  match v.toNum?.bind Num.toInt? with
  | some i => return i.toInt
  | none =>
    if v != .nil then inv.failText s!"field '{name}' is not an integer"
    match default with
    | some d => return d
    | none => inv.failText s!"field '{name}' missing in date table"

/-- `os.time`: the calendar time of a date, whose fields are brought into their ranges, or that of
the clock. -/
def osTime (inv : Invocation) : Program (List Value) := do
  if inv.lacks 1 then return [.int now]
  let t := Value.table (← inv.table 1)
  let year ← dateField inv t "year" none
  let month ← dateField inv t "month" none
  let day ← dateField inv t "day" none
  let hour ← dateField inv t "hour" (some 12)
  let minute ← dateField inv t "min" (some 0)
  let second ← dateField inv t "sec" (some 0)
  let seconds := dayNumber year month day * 86400 + hour * 3600 + minute * 60 + second
  setFields t (Moment.ofSeconds seconds).fields
  return [.int seconds]

/-- `os.clock`. -/
def osClock (_ : Invocation) : Program (List Value) := .done [.num (.float 0.05)]

/-- `os.difftime`. -/
def osDifftime (inv : Invocation) : Program (List Value) := do
  let a ← inv.integer 1
  let b ← inv.integer 2
  return [.num (.float (Decimal.ofInt a.toInt - Decimal.ofInt b.toInt))]

/-- `debug.traceback`: the message with the heading of a list of calls, which is left empty. -/
def debugTraceback (inv : Invocation) : Program (List Value) := do
  let args := match inv.arg 1 with
    | .thread _ => inv.args.drop 1
    | _ => inv.args
  match args.headD .nil with
  | .nil => return [.text "stack traceback:"]
  | v =>
    match v.toBytes? with
    | some s => return [.str (s ++ Bytes.ofAscii "\nstack traceback:")]
    | none => return [v]

end ScriptAgent.Script.Library
