import Mathlib.Data.List.GetD
import ObmcWebapp.Library.Numerals

/-!
# Library - Dates and times as texts

A date of the Gregorian calendar with a time of day, its number of seconds since the start
of 1970, and readers for two formats: the date of an HTTP header, which is in GMT, and a
date with the offset of its zone.

Main results:

- Theorems {lit}`readHttpDate_httpDate`, {lit}`readZonedDate_zonedDate`: what is written in
  a format is read back.
-/

namespace Library
namespace Calendar

open Numerals

/-! ## Moments -/

/-- A day of the calendar with a time. -/
structure Moment where
  year : Nat
  month : Nat
  day : Nat
  hour : Nat
  minute : Nat
  second : Nat
deriving DecidableEq

/-- Leap years of the Gregorian calendar. -/
def isLeap (year : Nat) : Bool :=
  year % 4 = 0 && (year % 100 ≠ 0 || year % 400 = 0)

/-- The days of the months before one, in a year without a leap day. -/
def daysBefore : List Nat :=
  [0, 31, 59, 90, 120, 151, 181, 212, 243, 273, 304, 334]

/-- The days between the start of 1970 and that of a year. -/
def daysToYear (year : Nat) : Int :=
  let last : Int := year - 1
  365 * (last - 1969) + (last / 4 - last / 100 + last / 400) - 477

namespace Moment

/-- The days from the epoch. -/
def days (moment : Moment) : Int :=
  daysToYear moment.year + daysBefore.getD (moment.month - 1) 0 +
    (if 2 < moment.month ∧ isLeap moment.year then 1 else 0) + (moment.day - 1 : Int)

/-- The seconds since the start of 1970. -/
def seconds (moment : Moment) : Int :=
  86400 * moment.days + 3600 * moment.hour + 60 * moment.minute + moment.second

example : Moment.seconds ⟨2000, 3, 1, 0, 0, 0⟩ = 951868800 := by decide

/-- The numbers fit the places that the formats have for them. -/
structure Printable (moment : Moment) : Prop where
  year : moment.year < 10000
  month : moment.month - 1 < 12
  month_pos : 0 < moment.month
  day : moment.day < 100
  hour : moment.hour < 100
  minute : moment.minute < 100
  second : moment.second < 100

end Moment

/-! ## The date of an HTTP header -/

/-- The names of the days, from Sunday on. -/
def dayNames : List Bytes :=
  [bytes "Sun", bytes "Mon", bytes "Tue", bytes "Wed", bytes "Thu", bytes "Fri", bytes "Sat"]

/-- The names of the months. -/
def monthNames : List Bytes :=
  [bytes "Jan", bytes "Feb", bytes "Mar", bytes "Apr", bytes "May", bytes "Jun", bytes "Jul",
    bytes "Aug", bytes "Sep", bytes "Oct", bytes "Nov", bytes "Dec"]

/-- The time of a day in front of a text. -/
def timeText (moment : Moment) (rest : Bytes) : Bytes :=
  numeral 2 moment.hour ++ (bytes ":" ++ (numeral 2 moment.minute ++ (bytes ":" ++
    (numeral 2 moment.second ++ rest))))

/-- A date in GMT with the name of its weekday. -/
def httpDate (weekday : Nat) (moment : Moment) : Bytes :=
  dayNames.getD weekday [] ++ (bytes ", " ++ (numeral 2 moment.day ++ (bytes " " ++
    (monthNames.getD (moment.month - 1) [] ++ (bytes " " ++ (numeral 4 moment.year ++
      (bytes " " ++ timeText moment (bytes " GMT"))))))))

/-- A time is read off the front of a text. -/
def readTime (text : Bytes) : Option ((Nat × Nat × Nat) × Bytes) := do
  let (hour, text) ← readNumeral 2 text
  let text ← text.dropPrefix? (bytes ":")
  let (minute, text) ← readNumeral 2 text
  let text ← text.dropPrefix? (bytes ":")
  let (second, text) ← readNumeral 2 text
  return ((hour, minute, second), text)

/-- The date of a header is read. -/
def readHttpDate (text : Bytes) : Option Moment := do
  let (_, text) ← readName dayNames 3 text
  let text ← text.dropPrefix? (bytes ", ")
  let (day, text) ← readNumeral 2 text
  let text ← text.dropPrefix? (bytes " ")
  let (month, text) ← readName monthNames 3 text
  let text ← text.dropPrefix? (bytes " ")
  let (year, text) ← readNumeral 4 text
  let text ← text.dropPrefix? (bytes " ")
  let ((hour, minute, second), text) ← readTime text
  if text = bytes " GMT" then
    return { year, month := month + 1, day, hour, minute, second }
  else
    none

/-! ## A date with a zone -/

/-- A date, its time and the minutes by which its zone is behind GMT or ahead of it. -/
def zonedDate (moment : Moment) (behind : Bool) (minutes : Nat) : Bytes :=
  numeral 4 moment.year ++ (bytes "-" ++ (numeral 2 moment.month ++ (bytes "-" ++
    (numeral 2 moment.day ++ (bytes "T" ++ timeText moment
      ((if behind then bytes "-" else bytes "+") ++ (numeral 2 (minutes / 60) ++
        numeral 2 (minutes % 60))))))))

/-- The date, and the minutes by which its zone is ahead. -/
def readZonedDate (text : Bytes) : Option (Moment × Int) := do
  let (year, text) ← readNumeral 4 text
  let text ← text.dropPrefix? (bytes "-")
  let (month, text) ← readNumeral 2 text
  let text ← text.dropPrefix? (bytes "-")
  let (day, text) ← readNumeral 2 text
  let text ← text.dropPrefix? (bytes "T")
  let ((hour, minute, second), text) ← readTime text
  let (sign, text) ← readName [bytes "+", bytes "-"] 1 text
  let (hours, text) ← readNumeral 2 text
  let (minutes, text) ← readNumeral 2 text
  let zone : Int := 60 * hours + minutes
  if text = [] then
    return ({ year, month, day, hour, minute, second }, if sign = 0 then zone else -zone)
  else
    none

/-! ## The round trips -/

/-- The name of a day is read. -/
theorem readDayName {weekday : Nat} (h : weekday < 7) (rest : Bytes) :
    readName dayNames 3 (dayNames.getD weekday [] ++ rest) = some (weekday, rest) := by
  have hlength : ∀ name ∈ dayNames, name.length = 3 := by decide
  have hname := @readName_append dayNames (by decide) 3 weekday h
    (hlength _ (List.getElem_mem h)) rest
  rwa [← List.getD_eq_getElem dayNames [] h] at hname

/-- The name of a month is read. -/
theorem readMonthName {month : Nat} (h : month < 12) (rest : Bytes) :
    readName monthNames 3 (monthNames.getD month [] ++ rest) = some (month, rest) := by
  have hlength : ∀ name ∈ monthNames, name.length = 3 := by decide
  have hname := @readName_append monthNames (by decide) 3 month h
    (hlength _ (List.getElem_mem h)) rest
  rwa [← List.getD_eq_getElem monthNames [] h] at hname

/-- The sign of a zone is read. -/
theorem readSign (behind : Bool) (rest : Bytes) :
    readName [bytes "+", bytes "-"] 1 ((if behind then bytes "-" else bytes "+") ++ rest) =
      some (if behind then 1 else 0, rest) := by
  cases behind with
  | true =>
      exact @readName_append [bytes "+", bytes "-"] (by decide) 1 1 (by decide) rfl rest
  | false =>
      exact @readName_append [bytes "+", bytes "-"] (by decide) 1 0 (by decide) rfl rest

/-- A time is read as it was written. -/
theorem readTime_timeText {moment : Moment} (h : moment.Printable) (rest : Bytes) :
    readTime (timeText moment rest) =
      some ((moment.hour, moment.minute, moment.second), rest) := by
  have hhour := @readNumeral_append 2 _ h.hour
  have hminute := @readNumeral_append 2 _ h.minute
  have hsecond := @readNumeral_append 2 _ h.second
  simp only [readTime, timeText, hhour, hminute, hsecond, dropPrefix?_append, Option.bind_eq_bind,
    Option.bind_some, Option.pure_def]

/-- The date of a header is read as it was written. -/
theorem readHttpDate_httpDate {weekday : Nat} (hweekday : weekday < 7) {moment : Moment}
    (h : moment.Printable) : readHttpDate (httpDate weekday moment) = some moment := by
  have hday := @readNumeral_append 2 _ h.day
  have hyear := @readNumeral_append 4 _ h.year
  have hmonth : moment.month - 1 + 1 = moment.month := Nat.sub_add_cancel h.month_pos
  simp only [readHttpDate, httpDate, readDayName hweekday, readMonthName h.month, hday, hyear,
    readTime_timeText h, dropPrefix?_append, Option.bind_eq_bind, Option.bind_some, Option.pure_def,
    if_true, hmonth]

/-- A date with its zone is read as it was written. -/
theorem readZonedDate_zonedDate {moment : Moment} (h : moment.Printable) (behind : Bool)
    {minutes : Nat} (hminutes : minutes < 6000) :
    readZonedDate (zonedDate moment behind minutes) =
      some (moment, if behind then -(minutes : Int) else minutes) := by
  have hyear := @readNumeral_append 4 _ h.year
  have hmonth := @readNumeral_append 2 moment.month (by have := h.month; omega)
  have hday := @readNumeral_append 2 _ h.day
  have hhours := @readNumeral_append 2 (minutes / 60) (by omega)
  have hrest : readNumeral 2 (numeral 2 (minutes % 60)) = some (minutes % 60, []) := by
    have hread := @readNumeral_append 2 (minutes % 60) (by omega) []
    rwa [List.append_nil] at hread
  have hsum : 60 * ((minutes / 60 : Nat) : Int) + ((minutes % 60 : Nat) : Int) = minutes := by omega
  simp only [readZonedDate, zonedDate, hyear, hmonth, hday, hhours, hrest, readSign,
    readTime_timeText h, dropPrefix?_append, Option.bind_eq_bind, Option.bind_some, Option.pure_def,
    if_true, hsum]
  cases behind <;> rfl

end Calendar
end Library
