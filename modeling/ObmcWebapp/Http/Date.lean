import ObmcWebapp.Http.Headers
import ObmcWebapp.Library.Calendar

/-!
# HTTP - The texts of dates

{lit}`getFormattedDate` breaks a time down with {lit}`std::localtime`, which depends on the
zone of the process, and writes it with {lit}`std::put_time`.  The date of a response is
written without its zone and with {lit}`GMT` at its end; the dates among the properties of
the entities have the offset of their zone.

Main results:

- Theorems {lit}`putTime_headerDateFormat`, {lit}`putTime_zonedFormat`: the two formats that
  the program uses.
- Theorem {lit}`dates_denote`: the times that the two texts denote.
-/

open Library Library.Calendar Library.Numerals

namespace ObmcWebapp
namespace Http

/-! ## Formatting -/

/-- {lit}`std::tm`; the zone is {lit}`tm_gmtoff` seconds ahead of GMT. -/
structure Tm where
  tm_sec : Nat
  tm_min : Nat
  tm_hour : Nat
  tm_mday : Nat
  tm_mon : Nat
  tm_year : Nat
  tm_wday : Nat
  tm_gmtoff : Int

namespace Tm

/-- The moment that a broken-down time names. -/
def moment (tm : Tm) : Moment where
  year := tm.tm_year + 1900
  month := tm.tm_mon + 1
  day := tm.tm_mday
  hour := tm.tm_hour
  minute := tm.tm_min
  second := tm.tm_sec

/-- What {lit}`localtime` gives for a time. -/
structure BreaksDown (tm : Tm) (time : Int) : Prop where
  sec : tm.tm_sec ≤ 60
  min : tm.tm_min < 60
  hour : tm.tm_hour < 24
  mday : 1 ≤ tm.tm_mday ∧ tm.tm_mday ≤ 31
  mon : tm.tm_mon < 12
  wday : tm.tm_wday < 7
  gmtoff : tm.tm_gmtoff.natAbs ≤ 86400
  seconds : tm.moment.seconds = time + tm.tm_gmtoff

end Tm

/-- The conversions in the formats of the program, in the C locale. -/
def conversion (tm : Tm) (c : UInt8) : Bytes :=
  if c = 0x61 then dayNames.getD tm.tm_wday []
  else if c = 0x62 then monthNames.getD tm.tm_mon []
  else if c = 0x64 then numeral 2 tm.tm_mday
  else if c = 0x6D then numeral 2 (tm.tm_mon + 1)
  else if c = 0x48 then numeral 2 tm.tm_hour
  else if c = 0x4D then numeral 2 tm.tm_min
  else if c = 0x53 then numeral 2 tm.tm_sec
  else if c = 0x59 then Redfish.decimal (tm.tm_year + 1900)
  else if c = 0x46 then
    Redfish.decimal (tm.tm_year + 1900) ++ bytes "-" ++ numeral 2 (tm.tm_mon + 1) ++ bytes "-" ++
      numeral 2 tm.tm_mday
  else if c = 0x54 then
    numeral 2 tm.tm_hour ++ bytes ":" ++ numeral 2 tm.tm_min ++ bytes ":" ++ numeral 2 tm.tm_sec
  else if c = 0x7A then
    (if tm.tm_gmtoff < 0 then bytes "-" else bytes "+") ++
      numeral 2 (tm.tm_gmtoff.natAbs / 60 / 60) ++ numeral 2 (tm.tm_gmtoff.natAbs / 60 % 60)
  else [0x25, c]

/-- {lit}`std::put_time` -/
def putTime (tm : Tm) : Bytes → Bytes
  | 0x25 :: c :: rest => conversion tm c ++ putTime tm rest
  | c :: rest => c :: putTime tm rest
  | [] => []

/-- {lit}`getFormattedDate` -/
def getFormattedDate (localtime : Int → Tm) (format : Bytes) (time : Int) : Bytes :=
  putTime (localtime time) format

/-- The format of {lit}`setGeneralHeaders`. -/
def headerDateFormat : Bytes := bytes "%a, %d %b %Y %H:%M:%S GMT"

/-- The format of the entities' properties. -/
def zonedFormat : Bytes := bytes "%FT%T%z"

/-! ## The two formats -/

/-- A number of four digits. -/
theorem decimal_fourDigits {n : Nat} (hlow : 1000 ≤ n) (hhigh : n < 10000) :
    Redfish.decimal n = numeral 4 n := by
  have hhundreds : n / 100 = 10 * (n / 1000) + n / 100 % 10 := by omega
  rw [Redfish.decimal_of_hundred_le (by omega), Redfish.decimal_of_le (n := n / 100) (by omega),
    Redfish.decimal_of_lt (n := n / 100 / 10) (by omega)]
  have hthousands : n / 10 / 10 / 10 % 10 = n / 100 / 10 := by omega
  have hhundreds : n / 10 / 10 % 10 = n / 100 % 10 := by omega
  have htens : n / 10 % 10 = n % 100 / 10 := by omega
  have hones : n % 10 = n % 100 % 10 := by omega
  simp only [numeral, hthousands, hhundreds, htens, hones]
  rfl

section

variable {tm : Tm} {time : Int}

/-- The format of the header writes its date. -/
theorem putTime_headerDateFormat (hyear : tm.tm_year + 1900 < 10000) :
    putTime tm headerDateFormat = httpDate tm.tm_wday tm.moment := by
  have hdecimal := decimal_fourDigits (n := tm.tm_year + 1900) (by omega) hyear
  have hformat : putTime tm headerDateFormat =
      conversion tm 0x61 ++ (bytes ", " ++ (conversion tm 0x64 ++ (bytes " " ++
        (conversion tm 0x62 ++ (bytes " " ++ (conversion tm 0x59 ++ (bytes " " ++
          (conversion tm 0x48 ++ (bytes ":" ++ (conversion tm 0x4D ++ (bytes ":" ++
            (conversion tm 0x53 ++ bytes " GMT")))))))))))) := by
    rfl
  rw [hformat]
  simp only [conversion, hdecimal, httpDate, timeText, Tm.moment, Nat.add_sub_cancel]
  rfl

/-- The other format writes a date with its zone. -/
theorem putTime_zonedFormat (hyear : tm.tm_year + 1900 < 10000) :
    putTime tm zonedFormat =
      zonedDate tm.moment (tm.tm_gmtoff < 0) (tm.tm_gmtoff.natAbs / 60) := by
  have hdecimal := decimal_fourDigits (n := tm.tm_year + 1900) (by omega) hyear
  have hformat : putTime tm zonedFormat =
      conversion tm 0x46 ++ (bytes "T" ++ (conversion tm 0x54 ++ (conversion tm 0x7A ++ []))) := by
    rfl
  rw [hformat]
  simp [conversion, hdecimal, zonedDate, timeText, Tm.moment]

/-- A broken-down time can be printed. -/
theorem Tm.BreaksDown.printable (h : tm.BreaksDown time) (hyear : tm.tm_year + 1900 < 10000) :
    tm.moment.Printable where
  year := hyear
  month := h.mon
  month_pos := Nat.succ_pos _
  day := Nat.lt_of_le_of_lt h.mday.2 (by decide)
  hour := Nat.lt_trans h.hour (by decide)
  minute := Nat.lt_trans h.min (by decide)
  second := Nat.lt_of_le_of_lt h.sec (by decide)

/-- The date of a response denotes its time only in a zone without an offset, though it says
so in every zone; the date of a property denotes its time in every zone of whole minutes. -/
theorem dates_denote {localtime : Int → Tm} (h : (localtime time).BreaksDown time)
    (hyear : (localtime time).tm_year + 1900 < 10000) :
    (∃ moment, readHttpDate (getFormattedDate localtime headerDateFormat time) = some moment ∧
      moment.seconds = time + (localtime time).tm_gmtoff ∧
        (moment.seconds = time ↔ (localtime time).tm_gmtoff = 0)) ∧
      ∃ moment zone,
        readZonedDate (getFormattedDate localtime zonedFormat time) = some (moment, zone) ∧
          (moment.seconds - 60 * zone = time ↔ 60 ∣ (localtime time).tm_gmtoff) := by
  have hprintable := h.printable hyear
  have hseconds := h.seconds
  have hgmtoff := h.gmtoff
  unfold getFormattedDate
  rw [putTime_headerDateFormat hyear, putTime_zonedFormat hyear]
  constructor
  · refine ⟨_, readHttpDate_httpDate h.wday hprintable, hseconds, ?_⟩
    omega
  · refine ⟨_, _, readZonedDate_zonedDate hprintable _ (by omega), ?_⟩
    generalize (localtime time).tm_gmtoff = gmtoff at *
    by_cases hbehind : gmtoff < 0
    · simp only [hbehind, decide_true, if_true]
      omega
    · simp only [hbehind, decide_false, Bool.false_eq_true, if_false]
      omega

end

/-! ## A zone of three hours -/

/-- The start of 1970 in a zone that is three hours ahead. -/
def threeHoursAhead : Tm where
  tm_sec := 0
  tm_min := 0
  tm_hour := 3
  tm_mday := 1
  tm_mon := 0
  tm_year := 70
  tm_wday := 4
  tm_gmtoff := 10800

/-- The zone is three hours ahead. -/
theorem threeHoursAhead_breaksDown : threeHoursAhead.BreaksDown 0 := by
  constructor <;> decide

/-- Three hours ahead of Greenwich the header does not denote the moment. -/
theorem dates_denote_ahead :
    ¬ ∃ moment, readHttpDate (getFormattedDate (fun _ => threeHoursAhead) headerDateFormat 0) =
      some moment ∧ moment.seconds = 0 := by
  rintro ⟨other, hother, hzero⟩
  obtain ⟨⟨moment, hread, -, hiff⟩, -⟩ :=
    @dates_denote 0 (fun _ => threeHoursAhead) threeHoursAhead_breaksDown (by decide)
  rw [hread] at hother
  cases hother
  exact absurd (hiff.mp hzero) (by decide)

end Http
end ObmcWebapp
