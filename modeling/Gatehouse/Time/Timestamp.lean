/-!
Moments of universal time, as calendar date and time of day.

The calendar is the Gregorian one, carried back before its introduction; years may be zero or
negative. A minute may have a 60th second, a leap second, at any time of day. The order is that of
the fields from the year down, which is the order in time.
-/

namespace Gatehouse

/-- The year has a 29th of February. -/
def isLeapYear (year : Int) : Bool :=
  year % 4 = 0 && (year % 100 ≠ 0 || year % 400 = 0)

/-- The number of days of a month. -/
def daysInMonth (year : Int) (month : Nat) : Nat :=
  if month = 2 then if isLeapYear year then 29 else 28
  else if month = 4 ∨ month = 6 ∨ month = 9 ∨ month = 11 then 30
  else 31

/-- The years that dates are kept for. -/
def firstYear : Int := -262143

@[inherit_doc firstYear] def lastYear : Int := 262142

/-- A day of the calendar, checked or not. -/
structure Date where
  year : Int
  month : Nat
  day : Nat
  deriving Repr, DecidableEq

namespace Date

/-- The day exists. -/
def Exists (d : Date) : Prop :=
  firstYear ≤ d.year ∧ d.year ≤ lastYear ∧ 1 ≤ d.month ∧ d.month ≤ 12 ∧
    1 ≤ d.day ∧ d.day ≤ daysInMonth d.year d.month

instance (d : Date) : Decidable d.Exists := by unfold Exists; infer_instance

/-- The day after. -/
def next (d : Date) : Date :=
  if d.day < daysInMonth d.year d.month then { d with day := d.day + 1 }
  else if d.month < 12 then ⟨d.year, d.month + 1, 1⟩
  else ⟨d.year + 1, 1, 1⟩

/-- The day before. -/
def previous (d : Date) : Date :=
  if 1 < d.day then { d with day := d.day - 1 }
  else if 1 < d.month then ⟨d.year, d.month - 1, daysInMonth d.year (d.month - 1)⟩
  else ⟨d.year - 1, 12, 31⟩

end Date

/-- The fields of a date and a time of day, checked or not. -/
structure DateTime where
  date : Date
  hour : Nat
  minute : Nat
  second : Nat
  nano : Nat
  deriving Repr, DecidableEq

namespace DateTime

/-- The date exists, and so does the time of day; second 60 is a leap second. -/
def Exists (t : DateTime) : Prop :=
  t.date.Exists ∧ t.hour < 24 ∧ t.minute < 60 ∧ t.second ≤ 60 ∧ t.nano < 1000000000

instance (t : DateTime) : Decidable t.Exists := by unfold Exists; infer_instance

/-- The same moment where clocks are `offset` minutes ahead, for offsets of less than a day. -/
def minus (t : DateTime) (offset : Int) : DateTime :=
  let minutes : Int := 60 * t.hour + t.minute - offset
  let date :=
    if minutes < 0 then t.date.previous
    else if 1440 ≤ minutes then t.date.next
    else t.date
  let ofDay := (minutes % 1440).toNat
  { t with date, hour := ofDay / 60, minute := ofDay % 60 }

/-- The fields in the order of their weight. -/
def fields (t : DateTime) : List Int :=
  [t.date.year, t.date.month, t.date.day, t.hour, t.minute, t.second, t.nano]

end DateTime

/-- A moment of universal time. -/
structure Timestamp where
  time : DateTime
  valid : time.Exists
  deriving DecidableEq

namespace Timestamp

instance : Repr Timestamp := ⟨fun t n => reprPrec t.time n⟩

/-- The moment with these fields, if they exist. -/
def ofDateTime? (t : DateTime) : Option Timestamp :=
  if h : t.Exists then some ⟨t, h⟩ else none

/-- The start of the year 1970. -/
def epoch : Timestamp := ⟨⟨⟨1970, 1, 1⟩, 0, 0, 0, 0⟩, by decide⟩

instance : Inhabited Timestamp := ⟨epoch⟩

/-- Not later than. -/
protected def le (s t : Timestamp) : Bool :=
  !decide (t.time.fields < s.time.fields)

instance : LE Timestamp := ⟨fun s t => s.le t⟩

instance (s t : Timestamp) : Decidable (s ≤ t) := inferInstanceAs (Decidable (s.le t = true))

end Timestamp

end Gatehouse
