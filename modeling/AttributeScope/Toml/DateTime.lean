import AttributeScope.Toml.Number

/-!
# Dates and times of TOML documents

A date such as `1979-05-27`, a time such as `07:32:00.5`, or both with a `T` or a blank between
them and, possibly, an offset from universal time.
-/

namespace AttributeScope
namespace Toml
namespace DateTime

/-- The number that decimal digits stand for, if there are as many as expected. -/
def fixed? (count : Nat) (text : List Char) : Option Nat :=
  if text.length = count then foldDigits 10 0 text else none

/-- Whether a year has a leap day. -/
def isLeapYear (year : Nat) : Bool := year % 4 == 0 && (year % 100 != 0 || year % 400 == 0)

/-- How many days a month has. -/
def daysIn (year month : Nat) : Nat :=
  if month = 2 then (if isLeapYear year then 29 else 28)
  else if month ∈ [4, 6, 9, 11] then 30
  else 31

/-- Whether a text is a date. -/
def isDate (text : List Char) : Bool :=
  match text.splitOn '-' with
  | [year, month, day] =>
    match fixed? 4 year, fixed? 2 month, fixed? 2 day with
    | some year, some month, some day =>
      1 ≤ month && month ≤ 12 && 1 ≤ day && day ≤ daysIn year month
    | _, _, _ => false
  | _ => false

/-- Whether a text is a number of seconds, possibly with a fraction. -/
def isSeconds (text : List Char) : Bool :=
  let (whole, fraction) := cut (· == '.') text
  ((fixed? 2 whole).any fun n => n ≤ 60) &&
    fraction.all fun digits => !digits.isEmpty && (foldDigits 10 0 digits).isSome

/-- Whether a text is an hour. -/
def isHour (text : List Char) : Bool := (fixed? 2 text).any fun n => n ≤ 23

/-- Whether a text is a minute. -/
def isMinute (text : List Char) : Bool := (fixed? 2 text).any fun n => n ≤ 59

/-- Whether a text is a time of day. -/
def isTime (text : List Char) : Bool :=
  match text.splitOn ':' with
  | [hour, minute, seconds] => isHour hour && isMinute minute && isSeconds seconds
  | _ => false

/-- Whether a text is hours and minutes of an offset. -/
def isOffset (text : List Char) : Bool :=
  match text.splitOn ':' with
  | [hour, minute] => isHour hour && isMinute minute
  | _ => false

/-- Whether a text is a time of day, possibly with an offset. -/
def isZonedTime (text : List Char) : Bool :=
  match text.getLast? with
  | some 'Z' => isTime text.dropLast
  | some 'z' => isTime text.dropLast
  | _ =>
    match cut (fun c => c == '+' || c == '-') text with
    | (time, some offset) => isTime time && isOffset offset
    | (time, none) => isTime time

/-- Whether a word is a date, a time, or both with a letter between them. -/
def isDateTime (word : List Char) : Bool :=
  isTime word ||
    match cut (fun c => c == 'T' || c == 't') word with
    | (date, none) => isDate date
    | (date, some time) => isDate date && isZonedTime time

example : (["1979-05-27", "07:32:00", "1979-05-27T00:32:00.999-07:00", "2000-02-29", "1900-02-29",
    "1979-05-27T07:32", "24:00:00", "23:59:60"].map fun word => isDateTime word.toList) =
    [true, true, true, true, false, false, false, true] := by decide +kernel

end DateTime
end Toml
end AttributeScope
