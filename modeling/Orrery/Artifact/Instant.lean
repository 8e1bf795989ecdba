import Orrery.Text.Space

/-!
# Instants

A point of civil time to the nanosecond, in universal time.  It is written as a date, `T`, a time of day
and `Z`; the fraction of the second has no digits, three, six or nine, the fewest that lose nothing.

Reading is more relaxed: any offset from universal time, blanks between the parts, a blank or a small
`t` between date and time, numbers without leading zeros, and a fraction of any length, of which nine
digits count.  The sixtieth second of a minute is a leap second; it is kept as the second before it with
a fraction of one or more.

Dates are those of the Gregorian calendar extended in both directions.  The years are counted in eras of
400, and within an era from the first of March, so that a leap day comes last.
-/

namespace Orrery

/-- A point of civil time. -/
structure Instant where
  /-- Days since the first of January 1970. -/
  day : Int
  /-- The second of the day. -/
  second : Nat
  /-- The nanosecond of the second; in a leap second, a second more. -/
  nanosecond : Nat
  deriving DecidableEq

namespace Instant

/-! ## The calendar -/

/-- A year with a leap day. -/
def isLeap (year : Int) : Bool := year % 4 = 0 && (year % 100 ≠ 0 || year % 400 = 0)

/-- How many days a month has. -/
def monthLength (year : Int) (month : Nat) : Nat :=
  if month = 2 then if isLeap year then 29 else 28
  else if month = 4 || month = 6 || month = 9 || month = 11 then 30
  else 31

/-- The day number of a date. -/
def dayOf (year : Int) (month day : Nat) : Int :=
  let y := if month ≤ 2 then year - 1 else year
  let era := y / 400
  let ofEra := y - era * 400
  let fromMarch : Int := ((month : Int) + 9) % 12
  let ofYear := (153 * fromMarch + 2) / 5 + day - 1
  era * 146097 + (ofEra * 365 + ofEra / 4 - ofEra / 100 + ofYear) - 719468

/-- The date of a day number. -/
def dateOf (n : Int) : Int × Nat × Nat :=
  let z := n + 719468
  let era := z / 146097
  let ofEra := z - era * 146097
  let year := (ofEra - ofEra / 1460 + ofEra / 36524 - ofEra / 146096) / 365
  let ofYear := ofEra - (365 * year + year / 4 - year / 100)
  let fromMarch := (5 * ofYear + 2) / 153
  let day := ofYear - (153 * fromMarch + 2) / 5 + 1
  let month := if fromMarch < 10 then fromMarch + 3 else fromMarch - 9
  let y := year + era * 400
  (if month ≤ 2 then y + 1 else y, month.toNat, day.toNat)

/-- The years that the calendar covers. -/
def inCalendar (year : Int) : Bool := -262143 ≤ year && year ≤ 262142

/-! ## Reading -/

/-- The number that digits spell. -/
def natural (ds : List Char) : Nat := ds.foldl (fun n d => 10 * n + (d.toNat - 48)) 0

/-- A number of at least one digit, and at most as many as given. -/
def number? (most : Nat) (cs : List Char) : Option (Nat × List Char) :=
  let ds := (cs.takeWhile Char.isDigit).take most
  if ds.isEmpty then none else some (natural ds, cs.drop ds.length)

/-- White space and a number of at most two digits. -/
def twoDigits? (cs : List Char) : Option (Nat × List Char) := number? 2 (Text.trimmedLeft cs)

/-- White space and a year: four digits, or any number of them after a sign. -/
def year? (cs : List Char) : Option (Int × List Char) :=
  match Text.trimmedLeft cs with
  | '-' :: cs => (number? cs.length cs).map fun (n, cs) => (-(n : Int), cs)
  | '+' :: cs => (number? cs.length cs).map fun (n, cs) => ((n : Int), cs)
  | cs => (number? 4 cs).map fun (n, cs) => ((n : Int), cs)

/-- White space and a given character. -/
def mark? (c : Char) (cs : List Char) : Option (List Char) :=
  match Text.trimmedLeft cs with
  | x :: rest => if x = c then some rest else none
  | [] => none

/-- A fraction, in nanoseconds. -/
def fraction? : List Char → Option (Nat × List Char)
  | '.' :: cs =>
    let ds := cs.takeWhile Char.isDigit
    if ds.isEmpty then none
    else
      let nine := ds.take 9
      some (natural nine * Nat.pow 10 (9 - nine.length), cs.drop ds.length)
  | cs => some (0, cs)

/-- Two digits of an offset. -/
def offsetPart? : List Char → Option (Nat × List Char)
  | a :: b :: rest => if a.isDigit && b.isDigit then some (natural [a, b], rest) else none
  | _ => none

/-- The offset from universal time, in minutes. -/
def offset? (cs : List Char) : Option (Int × List Char) :=
  let signed (negative : Bool) (cs : List Char) : Option (Int × List Char) := do
    let (hours, cs) ← offsetPart? cs
    let (minutes, cs) ← offsetPart? (cs.dropWhile fun c => c = ':' || Text.isSpace c)
    if 60 ≤ minutes || 24 ≤ hours then none
    else
      let total : Int := hours * 60 + minutes
      return (if negative then -total else total, cs)
  match cs with
  | '+' :: rest => signed false rest
  | '-' :: rest => signed true rest
  | '\u2212' :: rest => signed true rest
  | c :: rest =>
    if c = 'Z' || c = 'z' then some (0, rest)
    else if (cs.take 3).map Char.toUpper = ['U', 'T', 'C'] then some (0, cs.drop 3)
    else none
  | [] => none

/-- The instant that a text denotes. -/
def ofText? (text : String) : Option Instant := do
  let (year, cs) ← year? text.toList
  let cs ← mark? '-' cs
  let (month, cs) ← twoDigits? cs
  let cs ← mark? '-' cs
  let (day, cs) ← twoDigits? cs
  let cs ← match cs with
    | c :: rest => if c = 'T' || c = 't' || c = ' ' then some rest else none
    | [] => none
  let (hour, cs) ← twoDigits? cs
  let cs ← mark? ':' cs
  let (minute, cs) ← twoDigits? cs
  let cs ← mark? ':' cs
  let (second, cs) ← twoDigits? cs
  let (nanosecond, cs) ← fraction? cs
  let (offset, cs) ← offset? (Text.trimmedLeft cs)
  if !(Text.trimmedLeft cs).isEmpty then none
  else if !inCalendar year || month < 1 || 12 < month || day < 1 || monthLength year month < day then none
  else if 24 ≤ hour || 60 ≤ minute || 60 < second then none
  else
    let leap := second = 60
    let local_ : Int := dayOf year month day * 86400 + (hour * 3600 + minute * 60 : Nat)
      + (if leap then 59 else second : Nat)
    let universal := local_ - offset * 60
    -- the date in universal time can lie outside of the calendar although the written one does not
    if !inCalendar (dateOf (universal / 86400)).1 then none
    return ⟨universal / 86400, (universal % 86400).toNat,
      if leap then nanosecond + 1000000000 else nanosecond⟩

/-! ## Writing -/

/-- A number with at least so many digits. -/
def padded (width n : Nat) : String :=
  let ds := Nat.toDigits 10 n
  String.ofList (List.replicate (width - ds.length) '0' ++ ds)

/-- A year: four digits, or a sign and at least five of which the sign counts. -/
def yearText (year : Int) : String :=
  if 0 ≤ year && year ≤ 9999 then padded 4 year.toNat
  else (if year < 0 then "-" else "+") ++ padded 4 year.natAbs

/-- A fraction with no digits, three, six or nine. -/
def fractionText (n : Nat) : String :=
  if n = 0 then ""
  else if n % 1000000 = 0 then "." ++ padded 3 (n / 1000000)
  else if n % 1000 = 0 then "." ++ padded 6 (n / 1000)
  else "." ++ padded 9 n

/-- The instant in universal time. -/
def text (t : Instant) : String :=
  let (year, month, day) := dateOf t.day
  let leap := 1000000000 ≤ t.nanosecond
  let second := t.second % 60 + if leap then 1 else 0
  let nanosecond := if leap then t.nanosecond - 1000000000 else t.nanosecond
  yearText year ++ "-" ++ padded 2 month ++ "-" ++ padded 2 day ++ "T"
    ++ padded 2 (t.second / 3600) ++ ":" ++ padded 2 (t.second / 60 % 60) ++ ":" ++ padded 2 second
    ++ fractionText nanosecond ++ "Z"

end Instant

end Orrery
