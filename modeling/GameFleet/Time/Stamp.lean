import GameFleet.Text.Blank
import GameFleet.Time.Instant

/-!
# RFC 3339 timestamps

An instant is written in UTC with a `Z`, and with as many groups of three fraction
digits as it takes, or with none (`Instant.toStamp`, `Instant.toStampSeconds`). The
year has four digits, and a sign where it lies outside 0 to 9999.

Two readers take such a text. `ofStamp?` takes the form of RFC 3339, with a space for
the `T` and either case of the letters. `ofStampLenient?` also takes blanks between the
parts, parts with fewer digits, signed years, `UTC` for the zone, and zones without
their colon.
-/

namespace GameFleet.Time

/-! ## Writing -/

/-- The digits of `n`, at least `width` of them. -/
def padded (width n : Nat) : List Char :=
  let digits := Nat.toDigits 10 n
  List.replicate (width - digits.length) '0' ++ digits

def writeYear (year : Int) : List Char :=
  if 0 ≤ year ∧ year ≤ 9999 then padded 4 year.toNat
  else (if year < 0 then '-' else '+') :: padded 4 year.natAbs

/-- The date and the time of day to the second. -/
def writeClock (t : Instant) : List Char :=
  let date := dateOf t.day
  let time := t.secondOfDay
  let second := time % 60 + (if t.leaping then 1 else 0)
  writeYear date.year ++ '-' :: padded 2 date.month.toNat ++ '-' :: padded 2 date.day.toNat ++
    'T' :: padded 2 (time / 3600).toNat ++ ':' :: padded 2 (time / 60 % 60).toNat ++
    ':' :: padded 2 second.toNat

/-- The fraction of a second, in as few groups of three digits as are needed. -/
def writeFraction (nano : Nat) : List Char :=
  if nano = 0 then []
  else if nano % 1000000 = 0 then '.' :: padded 3 (nano / 1000000)
  else if nano % 1000 = 0 then '.' :: padded 6 (nano / 1000)
  else '.' :: padded 9 nano

/-- The instant as a timestamp. -/
def Instant.toStamp (t : Instant) : String :=
  String.ofList (writeClock t ++ writeFraction (t.nano % nanosPerSecond) ++ ['Z'])

/-- The second of the instant as a timestamp. -/
def Instant.toStampSeconds (t : Instant) : String :=
  String.ofList (writeClock t ++ ['Z'])

/-! ## Parts -/

/-- The number in the first `least` to `most` digits, and the rest. -/
def readCount (least most : Nat) (cs : List Char) : Option (Nat × List Char) :=
  let digits := (cs.take most).takeWhile Char.isDigit
  if digits.length < least then none
  else some (Nat.ofDigitChars 10 digits 0, cs.drop digits.length)

def readChar (c : Char) : List Char → Option (List Char)
  | c' :: cs => if c' = c then some cs else none
  | [] => none

/-- The letter or space between date and time. -/
def readSeparator : List Char → Option (List Char)
  | c :: cs => if c = 't' ∨ c = 'T' ∨ c = ' ' then some cs else none
  | [] => none

/-- The nanoseconds after a point, if there is one. Digits beyond the ninth are read
past. -/
def readFraction : List Char → Option (Nat × List Char)
  | '.' :: cs => do
    let digits := (cs.take 9).takeWhile Char.isDigit
    if digits.isEmpty then none
    else
      let n := Nat.ofDigitChars 10 digits 0
      some (n * Nat.pow 10 (9 - digits.length), (cs.drop digits.length).dropWhile Char.isDigit)
  | cs => some (0, cs)

/-- The offset of a zone from UTC, in seconds. `colon` reads what separates its hours
from its minutes. -/
def readZone (colon : List Char → Option (List Char)) : List Char → Option (Int × List Char)
  | [] => none
  | c :: cs =>
    if c = 'Z' ∨ c = 'z' then some (0, cs)
    else do
      let minus ← if c = '+' then some false
        else if c = '-' ∨ c = '\u2212' then some true
        else none
      let (hours, cs) ← readCount 2 2 cs
      let cs ← colon cs
      let (minutes, cs) ← readCount 2 2 cs
      if 60 ≤ minutes then none
      else
        let offset : Int := hours * 3600 + minutes * 60
        some (if minus then -offset else offset, cs)

/-- Years that a date can have. -/
def yearInRange (year : Int) : Bool := -262143 ≤ year && year ≤ 262142

/-- The instant of a local date and time in a zone. Second 60 is a leap second. -/
def Instant.ofLocal? (date : Date) (hour minute second nano : Nat) (offset : Int) :
    Option Instant :=
  let leap := second == 60
  let t : Instant := {
    second := date.number * secondsPerDay + hour * 3600 + minute * 60 +
      (if leap then 59 else second) - offset
    nano := nano + (if leap then nanosPerSecond else 0) }
  if date.exists && yearInRange date.year && hour < 24 && minute < 60 && second ≤ 60 &&
      -secondsPerDay < offset && offset < secondsPerDay &&
      yearInRange (dateOf t.day).year then
    some t
  else none

/-! ## Readers -/

/-- The instant of a timestamp. -/
def ofStamp? (s : String) : Option Instant := do
  let (year, cs) ← readCount 4 4 s.toList
  let cs ← readChar '-' cs
  let (month, cs) ← readCount 2 2 cs
  let cs ← readChar '-' cs
  let (day, cs) ← readCount 2 2 cs
  let cs ← readSeparator cs
  let (hour, cs) ← readCount 2 2 cs
  let cs ← readChar ':' cs
  let (minute, cs) ← readCount 2 2 cs
  let cs ← readChar ':' cs
  let (second, cs) ← readCount 2 2 cs
  let (nano, cs) ← readFraction cs
  let (offset, cs) ← readZone (readChar ':') cs
  if cs.isEmpty then Instant.ofLocal? ⟨year, month, day⟩ hour minute second nano offset
  else none

/-- A year with a sign and any number of digits, or one to four digits. -/
def readYear (cs : List Char) : Option (Int × List Char) :=
  match Text.trimLeft cs with
  | '-' :: cs => (readCount 1 cs.length cs).map fun r => (-(r.1 : Int), r.2)
  | '+' :: cs => (readCount 1 cs.length cs).map fun r => ((r.1 : Int), r.2)
  | cs => (readCount 1 4 cs).map fun r => ((r.1 : Int), r.2)

/-- One or two digits after blanks. -/
def readPart (cs : List Char) : Option (Nat × List Char) :=
  readCount 1 2 (Text.trimLeft cs)

/-- A character after blanks. -/
def readMark (c : Char) (cs : List Char) : Option (List Char) :=
  readChar c (Text.trimLeft cs)

/-- The zone of a lenient timestamp. -/
def readZoneLenient (cs : List Char) : Option (Int × List Char) :=
  let cs := Text.trimLeft cs
  if (cs.take 3).map Char.toUpper = ['U', 'T', 'C'] then some (0, cs.drop 3)
  else readZone (fun cs => some (cs.dropWhile fun c => c == ':' || Text.blank c)) cs

/-- The instant of a timestamp that need not be spelled out. -/
def ofStampLenient? (s : String) : Option Instant := do
  let (year, cs) ← readYear s.toList
  let cs ← readMark '-' cs
  let (month, cs) ← readPart cs
  let cs ← readMark '-' cs
  let (day, cs) ← readPart cs
  let cs ← readSeparator cs
  let (hour, cs) ← readPart cs
  let cs ← readMark ':' cs
  let (minute, cs) ← readPart cs
  let cs ← readMark ':' cs
  let (second, cs) ← readPart cs
  let (nano, cs) ← readFraction cs
  let (offset, cs) ← readZoneLenient cs
  if (Text.trimLeft cs).isEmpty then
    Instant.ofLocal? ⟨year, month, day⟩ hour minute second nano offset
  else none

example : (ofStamp? "2024-05-01T14:30:00.5+02:30").map Instant.toStamp =
    some "2024-05-01T12:00:00.500Z" := by decide +kernel

example : (ofStampLenient? "2024-5-1 23:59:60 utc").map Instant.toStamp =
    some "2024-05-01T23:59:60Z" := by decide +kernel

end GameFleet.Time
