/-!
# Days and instants

A DATE is the ordinal of its day and a TIMESTAMP a number of microseconds.  A
DATE that a TIMESTAMP column stores is the midnight its day begins with.
-/

namespace Northwind

def microsecondsPerDay : Nat :=
  86400000000

def microsecondsPerHour : Nat :=
  3600000000

def midnight (date : Nat) : Nat :=
  date * microsecondsPerDay

def dateOf (instant : Nat) : Nat :=
  instant / microsecondsPerDay

/-- `f"{date.isoformat()} {hour:02d}:00:00"` -/
def atHour (date hour : Nat) : Nat :=
  midnight date + hour * microsecondsPerHour

/-- `instant + timedelta(days=days)` -/
def daysAfter (days instant : Nat) : Nat :=
  instant + days * microsecondsPerDay

theorem midnight_le {date instant : Nat} : midnight date ≤ instant ↔ date ≤ dateOf instant :=
  (Nat.le_div_iff_mul_le (by decide)).symm

theorem lt_midnight {date instant : Nat} : instant < midnight date ↔ dateOf instant < date :=
  Nat.div_lt_iff_lt_mul (by decide) |>.symm

@[simp] theorem dateOf_midnight (date : Nat) : dateOf (midnight date) = date :=
  Nat.mul_div_cancel date (by decide)

@[simp] theorem midnight_le_midnight {date date' : Nat} :
    midnight date ≤ midnight date' ↔ date ≤ date' := by
  rw [midnight_le, dateOf_midnight]

@[simp] theorem midnight_lt_midnight {date date' : Nat} :
    midnight date < midnight date' ↔ date < date' := by
  rw [lt_midnight, dateOf_midnight]

@[simp] theorem atHour_lt_atHour {date date' hour : Nat} :
    atHour date hour < atHour date' hour ↔ date < date' := by
  rw [atHour, atHour, Nat.add_lt_add_iff_right, midnight_lt_midnight]

theorem dateOf_le_dateOf {instant instant' : Nat} (h : instant ≤ instant') :
    dateOf instant ≤ dateOf instant' :=
  Nat.div_le_div_right h

theorem dateOf_daysAfter (days instant : Nat) :
    dateOf (daysAfter days instant) = dateOf instant + days :=
  Nat.add_mul_div_right instant days (by decide)

end Northwind
