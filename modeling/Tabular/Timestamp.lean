import Tabular.Text.Blank

/-!
Points in time as texts: `2020-01-02T03:04:05.678Z`, always in universal time, with 0, 3, 6 or 9
digits of a second, as few as keep the value. Reading is laxer: blanks may stand between the parts,
a space or a small letter for the `T`, and any offset for the `Z`.
-/
namespace Tabular

/-- A day of the calendar, extended to the years before it was used. -/
structure Day where
  year : Int
  month : Nat
  day : Nat
  deriving DecidableEq, Repr

namespace Day

def isLeap (year : Int) : Bool := year % 4 == 0 && (year % 100 != 0 || year % 400 == 0)

def monthLength (year : Int) (month : Nat) : Nat :=
  if month == 2 then (if isLeap year then 29 else 28)
  else if month ∈ [4, 6, 9, 11] then 30
  else 31

/-- The years that can be written. -/
def isYear (year : Int) : Bool := -262143 ≤ year && year ≤ 262142

def isValid (d : Day) : Bool :=
  isYear d.year && 1 ≤ d.month && d.month ≤ 12 && 1 ≤ d.day &&
    d.day ≤ monthLength d.year d.month

def next (d : Day) : Day :=
  if d.day < monthLength d.year d.month then { d with day := d.day + 1 }
  else if d.month < 12 then ⟨d.year, d.month + 1, 1⟩
  else ⟨d.year + 1, 1, 1⟩

def previous (d : Day) : Day :=
  if 1 < d.day then { d with day := d.day - 1 }
  else if 1 < d.month then ⟨d.year, d.month - 1, monthLength d.year (d.month - 1)⟩
  else ⟨d.year - 1, 12, 31⟩

/-- The day that many days after the first of January 1970. Years are counted from March, so that a
leap day is the last of its year, in eras of 400 years of equal length. -/
def ofNumber (days : Int) : Day :=
  let shifted := days + 719468
  let era := shifted.fdiv 146097
  let dayOfEra := shifted.fmod 146097
  let yearOfEra := (dayOfEra - dayOfEra / 1460 + dayOfEra / 36524 - dayOfEra / 146096) / 365
  let dayOfYear := dayOfEra - (365 * yearOfEra + yearOfEra / 4 - yearOfEra / 100)
  let month := (5 * dayOfYear + 2) / 153
  let day := dayOfYear - (153 * month + 2) / 5 + 1
  let year := yearOfEra + 400 * era
  if month < 10 then ⟨year, (month + 3).toNat, day.toNat⟩
  else ⟨year + 1, (month - 9).toNat, day.toNat⟩

end Day

/-- A moment in universal time. Second 60 is a leap second. -/
structure Moment where
  day : Day
  /-- Minutes since midnight. -/
  minute : Nat
  second : Nat
  nanosecond : Nat
  deriving DecidableEq, Repr

namespace Moment

def minutesPerDay : Int := 1440

/-- The moment that many minutes later, at most a day away. -/
def shift (m : Moment) (minutes : Int) : Moment :=
  let minute := m.minute + minutes
  if minute < 0 then { m with day := m.day.previous, minute := (minute + minutesPerDay).toNat }
  else if minute < minutesPerDay then { m with minute := minute.toNat }
  else { m with day := m.day.next, minute := (minute - minutesPerDay).toNat }

/-- The moment that many seconds and nanoseconds after the start of 1970. -/
def ofSeconds (seconds : Int) (nanosecond : Nat) : Moment :=
  let secondOfDay := (seconds.fmod 86400).toNat
  ⟨Day.ofNumber (seconds.fdiv 86400), secondOfDay / 60, secondOfDay % 60, nanosecond⟩

/-- A number in at least `width` digits. -/
def padded (width n : Nat) : List Char :=
  let digits := Nat.toDigits 10 n
  List.replicate (width - digits.length) '0' ++ digits

/-- Four digits, or a sign and at least four. -/
def yearText (year : Int) : List Char :=
  if 0 ≤ year && year ≤ 9999 then padded 4 year.toNat
  else (if year < 0 then '-' else '+') :: padded 4 year.natAbs

def fractionText (nanosecond : Nat) : List Char :=
  if nanosecond == 0 then []
  else if nanosecond % 1000000 == 0 then '.' :: padded 3 (nanosecond / 1000000)
  else if nanosecond % 1000 == 0 then '.' :: padded 6 (nanosecond / 1000)
  else '.' :: padded 9 nanosecond

def toText (m : Moment) : String :=
  String.ofList (yearText m.day.year ++ '-' :: padded 2 m.day.month ++ '-' :: padded 2 m.day.day ++
    'T' :: padded 2 (m.minute / 60) ++ ':' :: padded 2 (m.minute % 60) ++
    ':' :: padded 2 m.second ++ fractionText m.nanosecond ++ ['Z'])

/-! ### Reading -/

def digits (cs : List Char) : List Char := cs.takeWhile Char.isDigit

def numeral (cs : List Char) : Nat := cs.foldl (fun n c => 10 * n + (c.toNat - '0'.toNat)) 0

/-- A number of one digit up to `width`, and the rest. -/
def number? (width : Nat) (cs : List Char) : Option (Nat × List Char) :=
  let ds := (digits cs).take width
  if ds.isEmpty then none else some (numeral ds, cs.drop ds.length)

/-- A number after blanks. -/
def field? (width : Nat) (cs : List Char) : Option (Nat × List Char) :=
  number? width (Text.trimStart cs)

/-- A year after blanks: four digits at most, or a sign and any number of them. -/
def year? (cs : List Char) : Option (Int × List Char) :=
  match Text.trimStart cs with
  | '-' :: rest => (number? rest.length rest).map fun (n, r) => (-(n : Int), r)
  | '+' :: rest => (number? rest.length rest).map fun (n, r) => ((n : Int), r)
  | rest => (number? 4 rest).map fun (n, r) => ((n : Int), r)

/-- The rest behind a mark, which may follow blanks. -/
def mark? (c : Char) (cs : List Char) : Option (List Char) :=
  match Text.trimStart cs with
  | x :: rest => if x == c then some rest else none
  | [] => none

/-- A fraction of a second, of which nine digits count. -/
def fraction? : List Char → Option (Nat × List Char)
  | '.' :: cs => do
    let (n, _) ← number? 9 cs
    let ds := digits cs
    return (n * Nat.pow 10 (9 - (ds.take 9).length), cs.drop ds.length)
  | cs => some (0, cs)

def isZulu (cs : List Char) : Bool := cs.map Char.toUpper == ['U', 'T', 'C']

def twoDigits? : List Char → Option (Nat × List Char)
  | a :: b :: cs => if a.isDigit && b.isDigit then some (numeral [a, b], cs) else none
  | _ => none

/-- Minutes east of universal time, less than a day. -/
def offset? (cs : List Char) : Option (Int × List Char) :=
  match cs with
  | 'Z' :: rest | 'z' :: rest => some (0, rest)
  | c :: rest =>
    if isZulu (cs.take 3) then some (0, cs.drop 3)
    else do
      let sign ← if c == '+' then some 1 else if c == '-' || c == '\u2212' then some (-1) else none
      let (hours, rest) ← twoDigits? rest
      let (minutes, rest) ← twoDigits? (rest.dropWhile fun c => c == ':' || Text.isBlank c)
      if hours < 24 && minutes < 60 then some (sign * ↑(60 * hours + minutes), rest) else none
  | [] => none

def isDivider (c : Char) : Bool := c == 'T' || c == 't' || c == ' '

def read? (text : String) : Option Moment := do
  let (year, cs) ← year? text.toList
  let (month, cs) ← field? 2 (← mark? '-' cs)
  let (day, cs) ← field? 2 (← mark? '-' cs)
  let cs ← if cs.head?.any isDivider then some cs.tail else none
  let (hour, cs) ← field? 2 cs
  let (minute, cs) ← field? 2 (← mark? ':' cs)
  let (second, cs) ← field? 2 (← mark? ':' cs)
  let (nanosecond, cs) ← fraction? cs
  let (offset, cs) ← offset? (Text.trimStart cs)
  let day : Day := ⟨year, month, day⟩
  if day.isValid && hour < 24 && minute < 60 && second ≤ 60 && (Text.trimStart cs).isEmpty then
    let moment := (Moment.mk day (60 * hour + minute) second nanosecond).shift (-offset)
    if moment.day.isValid then some moment else none
  else none

end Moment

/-- The written form of a moment, a text that is read as the moment it came from. -/
structure Timestamp where
  text : String
  isWritten : (Moment.read? text).map Moment.toText = some text
  deriving DecidableEq

namespace Timestamp

/-- Reads any form of a moment. -/
def read? (text : String) : Option Timestamp :=
  match (Moment.read? text).map Moment.toText with
  | none => none
  | some written =>
    if h : (Moment.read? written).map Moment.toText = some written then some ⟨written, h⟩ else none

/-- The start of 1970. -/
def epoch : Timestamp := ⟨"1970-01-01T00:00:00Z", by decide +kernel⟩

/-- The written form of a moment, the epoch where it has none. -/
def ofMoment (m : Moment) : Timestamp := (read? m.toText).getD epoch

theorem read?_text (t : Timestamp) : read? t.text = some t := by
  unfold read?
  rw [t.isWritten]
  simp [t.isWritten]

end Timestamp

end Tabular
