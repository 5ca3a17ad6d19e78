import Arazzo.Text.Blank
import Arazzo.Text.Scan

/-! Dates of HTTP headers, in their three spellings, as seconds since the start of 1970. -/

namespace Arazzo.HttpDate

/-- Fields as they are written; the weekday counts from Monday as zero. -/
structure Fields where
  weekday : Nat
  day : Nat
  month : Nat
  year : Nat
  hour : Nat
  minute : Nat
  second : Nat

def weekdays : List String :=
  ["Monday", "Tuesday", "Wednesday", "Thursday", "Friday", "Saturday", "Sunday"]

def months : List String :=
  ["Jan", "Feb", "Mar", "Apr", "May", "Jun", "Jul", "Aug", "Sep", "Oct", "Nov", "Dec"]

def isLeap (year : Nat) : Bool := year % 4 == 0 && (year % 100 != 0 || year % 400 == 0)

def monthLength (year month : Nat) : Nat :=
  if month = 2 then (if isLeap year then 29 else 28)
  else if month = 4 ∨ month = 6 ∨ month = 9 ∨ month = 11 then 30 else 31

def daysBeforeYear (year : Nat) : Nat :=
  let before := year - 1
  year * 365 + before / 4 - before / 100 + before / 400 - 719527

def daysBeforeMonth (year month : Nat) : Nat :=
  ((List.range (month - 1)).map fun m => monthLength year (m + 1)).foldl (· + ·) 0

def Fields.days (f : Fields) : Nat :=
  daysBeforeYear f.year + daysBeforeMonth f.year f.month + (f.day - 1)

/-- The date exists, and its weekday is right; 1970 began with a Thursday. -/
def Fields.valid (f : Fields) : Bool :=
  1970 ≤ f.year && f.year ≤ 9999 && 1 ≤ f.month && f.month ≤ 12 && 1 ≤ f.day &&
    f.day ≤ monthLength f.year f.month && f.hour < 24 && f.minute < 60 && f.second < 60 &&
    f.weekday == (f.days + 3) % 7

def Fields.seconds (f : Fields) : Nat :=
  f.days * 86400 + f.hour * 3600 + f.minute * 60 + f.second

def takeName? (names : List String) (cs : List Char) : Option (Nat × List Char) :=
  names.zipIdx.findSome? fun (name, i) =>
    (Text.afterLead? name.toList cs).map fun rest => (i, rest)

def takeDigits? (count : Nat) (cs : List Char) : Option (Nat × List Char) :=
  if cs.length < count then none
  else (Text.readNat? (cs.take count)).map fun n => (n, cs.drop count)

def takeTime? (cs : List Char) : Option ((Nat × Nat × Nat) × List Char) := do
  let (hour, cs) ← takeDigits? 2 cs
  let cs ← Text.afterLead? [':'] cs
  let (minute, cs) ← takeDigits? 2 cs
  let cs ← Text.afterLead? [':'] cs
  let (second, cs) ← takeDigits? 2 cs
  return ((hour, minute, second), cs)

def takeMonth? (cs : List Char) : Option (Nat × List Char) :=
  (takeName? months cs).map fun (i, cs) => (i + 1, cs)

def isZone (cs : List Char) : Bool := cs == " GMT".toList

/-- As in `Sun, 06 Nov 1994 08:49:37 GMT`. -/
def fixed? (cs : List Char) : Option Fields := do
  let (weekday, cs) ← takeName? (weekdays.map (String.ofList <| ·.toList.take 3)) cs
  let cs ← Text.afterLead? ", ".toList cs
  let (day, cs) ← takeDigits? 2 cs
  let cs ← Text.afterLead? [' '] cs
  let (month, cs) ← takeMonth? cs
  let cs ← Text.afterLead? [' '] cs
  let (year, cs) ← takeDigits? 4 cs
  let cs ← Text.afterLead? [' '] cs
  let ((hour, minute, second), cs) ← takeTime? cs
  if isZone cs then return ⟨weekday, day, month, year, hour, minute, second⟩ else none

/-- As in `Sunday, 06-Nov-94 08:49:37 GMT`; any character may stand before the hour. -/
def dashed? (cs : List Char) : Option Fields := do
  let (weekday, cs) ← takeName? weekdays cs
  let cs ← Text.afterLead? ", ".toList cs
  let (day, cs) ← takeDigits? 2 cs
  let cs ← Text.afterLead? ['-'] cs
  let (month, cs) ← takeMonth? cs
  let cs ← Text.afterLead? ['-'] cs
  let (year, cs) ← takeDigits? 2 cs
  let ((hour, minute, second), cs) ← takeTime? (cs.drop 1)
  let century := if year < 70 then 2000 else 1900
  if isZone cs then return ⟨weekday, day, month, century + year, hour, minute, second⟩ else none

/-- As in `Sun Nov  6 08:49:37 1994`. -/
def spaced? (cs : List Char) : Option Fields := do
  let (weekday, cs) ← takeName? (weekdays.map (String.ofList <| ·.toList.take 3)) cs
  let cs ← Text.afterLead? [' '] cs
  let (month, cs) ← takeMonth? cs
  let cs ← Text.afterLead? [' '] cs
  let (day, cs) ← match cs with
    | ' ' :: cs => takeDigits? 1 cs
    | cs => takeDigits? 2 cs
  let cs ← Text.afterLead? [' '] cs
  let ((hour, minute, second), cs) ← takeTime? cs
  let cs ← Text.afterLead? [' '] cs
  let (year, cs) ← takeDigits? 4 cs
  if cs.isEmpty then return ⟨weekday, day, month, year, hour, minute, second⟩ else none

def read? (s : String) : Option Nat :=
  if s.toList.all fun c => c.toNat < 128 then
    let cs := Text.trimChars s.toList
    let fields := match fixed? cs with
      | some f => some f
      | none => (dashed? cs).or (spaced? cs)
    fields.bind fun f => if f.valid then some f.seconds else none
  else none

end Arazzo.HttpDate
