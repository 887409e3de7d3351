import DracVms.Library.Json

namespace DracVms.JsDate

open Json (Text)

/-- The day, the month and the year of a day counted from the first of 1970. The years are counted
from March, so that the leap day is the last one. -/
def civil (day : ℕ) : ℕ × ℕ × ℕ :=
  let shifted := day + 719468
  let era := shifted / 146097
  let dayOfEra := shifted % 146097
  let yearOfEra := (dayOfEra - dayOfEra / 1460 + dayOfEra / 36524 - dayOfEra / 146096) / 365
  let dayOfYear := dayOfEra - (365 * yearOfEra + yearOfEra / 4 - yearOfEra / 100)
  let monthFromMarch := (5 * dayOfYear + 2) / 153
  let dayOfMonth := dayOfYear - (153 * monthFromMarch + 2) / 5 + 1
  let month := if monthFromMarch < 10 then monthFromMarch + 3 else monthFromMarch - 9
  (era * 400 + yearOfEra + (if month ≤ 2 then 1 else 0), month, dayOfMonth)

def padded (width n : ℕ) : Text :=
  let digits := Nat.toDigits 10 n
  List.replicate (width - digits.length) '0' ++ digits

/-- A year of more than four digits is written with a sign and six. -/
def isoYear (year : ℕ) : Text := if year ≤ 9999 then padded 4 year else '+' :: padded 6 year

/-- `new Date(ms).toISOString()`, for an instant that is not before 1970. -/
def toISOString (ms : ℕ) : Text :=
  let (year, month, day) := civil (ms / 86400000)
  let rest := ms % 86400000
  isoYear year ++ "-".toList ++ padded 2 month ++ "-".toList ++ padded 2 day ++ "T".toList ++
    padded 2 (rest / 3600000) ++ ":".toList ++ padded 2 (rest / 60000 % 60) ++ ":".toList ++
    padded 2 (rest / 1000 % 60) ++ ".".toList ++ padded 3 (rest % 1000) ++ "Z".toList

example : toISOString 1709210096789 = "2024-02-29T12:34:56.789Z".toList := by decide +kernel

end DracVms.JsDate
