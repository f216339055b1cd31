import AttributeScope.Toml.DateTime
import AttributeScope.Toml.Value

/-!
# Dates as tables

A table whose first key is a certain reserved one stands for the date that its first value spells
out.  The dates in such texts are written more freely than those of a document: the time may begin
with a small `t` or a blank, the hour may be 24, and an offset may follow a date without a time.
-/

namespace AttributeScope
namespace Toml

/-! ## Dates in texts -/

namespace DateTime

/-- Read a number of so many digits. -/
def readDigits? (count : Nat) (text : List Char) : Option (Nat × List Char) :=
  (fixed? count (text.take count)).map fun n => (n, text.drop count)

/-- Read one given character. -/
def readMark? (mark : Char) : List Char → Option (List Char)
  | [] => none
  | c :: rest => if c = mark then some rest else none

/-- Read a date. -/
def readDate? (text : List Char) : Option (List Char) := do
  let (year, rest) ← readDigits? 4 text
  let rest ← readMark? '-' rest
  let (month, rest) ← readDigits? 2 rest
  let rest ← readMark? '-' rest
  let (day, rest) ← readDigits? 2 rest
  if 1 ≤ month ∧ month ≤ 12 ∧ 1 ≤ day ∧ day ≤ daysIn year month then some rest else none

/-- Read the fraction of a second, if there is one. -/
def readFraction? : List Char → Option (List Char)
  | '.' :: rest => if rest.head?.any Char.isDigit then some (rest.dropWhile Char.isDigit) else none
  | rest => some rest

/-- Read a time of day. -/
def readTime? (text : List Char) : Option (List Char) := do
  let (hour, rest) ← readDigits? 2 text
  let rest ← readMark? ':' rest
  let (minute, rest) ← readDigits? 2 rest
  let rest ← readMark? ':' rest
  let (second, rest) ← readDigits? 2 rest
  if hour ≤ 24 ∧ minute ≤ 59 ∧ second ≤ 60 then readFraction? rest else none

/-- Read the hours and minutes of an offset, which is at most a day. -/
def readHours? (text : List Char) : Option (List Char) := do
  let (hours, rest) ← readDigits? 2 text
  let rest ← readMark? ':' rest
  let (minutes, rest) ← readDigits? 2 rest
  if hours * 60 + minutes ≤ 24 * 60 then some rest else none

/-- Read an offset, if there is one. -/
def readOffset? : List Char → Option (List Char)
  | [] => some []
  | 'Z' :: rest => some rest
  | 'z' :: rest => some rest
  | '+' :: rest => readHours? rest
  | '-' :: rest => readHours? rest
  | _ => none

/-- Read a time of day after a date, if there is one. -/
def readTimeOfDate? : List Char → Option (List Char)
  | ' ' :: rest => readTime? rest
  | 'T' :: rest => readTime? rest
  | 't' :: rest => readTime? rest
  | rest => some rest

/-- Whether a text spells out a date, a time of day, or both. -/
def isWritten (text : List Char) : Bool :=
  let rest :=
    if text[2]? = some ':' then readTime? text
    else ((readDate? text).bind readTimeOfDate?).bind readOffset?
  rest == some []

example : (["07:32:00", "24:00:00", "23:59:60.5", "1979-05-27", "1979-05-27Z",
    "1979-05-27 07:32:00z", "07:32:00Z", "1979-02-30", "1979-05-27T07:32",
    "1979-05-27+24:01", "bad"].map fun text => isWritten text.toList) =
    [true, true, true, true, true, true, false, false, false, false, false] := by decide +kernel

end DateTime

/-! ## Tables that stand for dates -/

/-- The key that a table begins with if it stands for a date. -/
def dateKey : String := "$__toml_private_datetime"

/-- The value that a table gives in place of a date, if it stands for one. -/
def dateValue? : Entries Value → Option Value
  | (key, value) :: _ => if key = dateKey then some value else none
  | [] => none

/-- The date that a value spells out. -/
def Value.asDate? : Value → Option Value
  | .string text => if DateTime.isWritten text.toList then some .dateTime else none
  | _ => none

mutual

/-- A value with dates for the tables that stand for them; none if one of those is no date. -/
def Value.withDates? : Value → Option Value
  | .array items => (itemsWithDates? items).map .array
  | .table entries =>
    match dateValue? entries with
    | some value => value.asDate?
    | none => (entriesWithDates? entries).map .table
  | value => some value

/-- Values with dates for the tables that stand for them. -/
def itemsWithDates? : List Value → Option (List Value)
  | [] => some []
  | value :: rest =>
    value.withDates?.bind fun value => (itemsWithDates? rest).map (value :: ·)

/-- Entries with dates for the tables that stand for them. -/
def entriesWithDates? : List (String × Value) → Option (List (String × Value))
  | [] => some []
  | (key, value) :: rest =>
    value.withDates?.bind fun value => (entriesWithDates? rest).map ((key, value) :: ·)

end

end Toml
end AttributeScope
