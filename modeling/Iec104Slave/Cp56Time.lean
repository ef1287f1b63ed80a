import Iec104Slave.HistoryCall
import Iec104Slave.Lib.Calendar

/-!
# Time stamps (`CP56Time2a` in `cpXXtime2a.c`)

A time stamp has milliseconds, minute, hour, day, month, and the year without its century.
`CP56Time2a_setFromMsTimestamp` takes the fields from `gmtime_r`, and `CP56Time2a_toMsTimestamp`
goes back with a formula of its own, which takes every year for one from 2000 on.

Result: `timestamp_round_trip_iff`: the way there and back is the identity exactly for the years
2000 to 2099.
-/

namespace Iec104Slave

open Calendar

/-- `struct tm`, as far as it is used. -/
structure Tm where
  tmYear : Nat
  tmMon : Nat
  tmMday : Nat
  tmHour : Nat
  tmMin : Nat
  tmSec : Nat
deriving DecidableEq

/-- The first of January 1970. -/
def epochDay : Nat := 719468

/-- The years since 1900. The years of the calendar go from March to February. -/
def yearSince1900 (date : Date) : Nat :=
  if date.month < 10 then date.year - 1900 else date.year + 1 - 1900

/-- A date of the calendar and the time of the day. -/
def Tm.ofDate (date : Date) (timeVal : Nat) : Tm where
  tmYear := yearSince1900 date
  tmMon := (date.month + 2) % 12
  tmMday := date.day + 1
  tmHour := timeVal % 86400 / 3600
  tmMin := timeVal % 3600 / 60
  tmSec := timeVal % 60

/-- `gmtime_r`. -/
def gmtime (timeVal : Nat) : Tm := .ofDate (dateOf (timeVal / 86400 + epochDay)) timeVal

namespace Cp56Time2a

/-! ## The fields -/

/-- A change of one byte. -/
def setByte (time : Cp56Time2a) (i : Fin 7) (f : UInt8 → UInt8) : Cp56Time2a :=
  time.set i (f (time.get i))

theorem get_setByte (time : Cp56Time2a) (i j : Fin 7) (f : UInt8 → UInt8) :
    (time.setByte i f).get j = if i = j then f (time.get j) else time.get j := by
  have hget : (time.setByte i f).get j = if (i : Nat) = j then f (time.get i) else time.get j :=
    Vector.getElem_set i.isLt j.isLt
  rw [hget]
  by_cases hij : i = j
  · simp [hij]
  · rw [if_neg fun h => hij (Fin.ext h), if_neg hij]

def millies (time : Cp56Time2a) : Nat := (time.get 0).toNat + (time.get 1).toNat * 0x100

def setMillies (time : Cp56Time2a) (millies : Nat) : Cp56Time2a :=
  (time.setByte 0 fun _ => UInt8.ofNat (millies &&& 0xff)).setByte 1 fun _ =>
    UInt8.ofNat (millies / 0x100 &&& 0xff)

def setMillisecond (time : Cp56Time2a) (value : Nat) : Cp56Time2a :=
  time.setMillies (time.millies - time.millies % 1000 + value)

def setSecond (time : Cp56Time2a) (value : Nat) : Cp56Time2a :=
  time.setMillies (value * 1000 + time.millies % 1000)

def setMinute (time : Cp56Time2a) (value : Nat) : Cp56Time2a :=
  time.setByte 2 fun b => b &&& 0xc0 ||| UInt8.ofNat (value &&& 0x3f)

def setHour (time : Cp56Time2a) (value : Nat) : Cp56Time2a :=
  time.setByte 3 fun b => b &&& 0xe0 ||| UInt8.ofNat (value &&& 0x1f)

def setDayOfMonth (time : Cp56Time2a) (value : Nat) : Cp56Time2a :=
  time.setByte 4 fun b => (b &&& 0xe0) + UInt8.ofNat (value &&& 0x1f)

def setDayOfWeek (time : Cp56Time2a) (value : Nat) : Cp56Time2a :=
  time.setByte 4 fun b => b &&& 0x1f ||| UInt8.ofNat ((value &&& 0x07) * 0x20)

def setMonth (time : Cp56Time2a) (value : Nat) : Cp56Time2a :=
  time.setByte 5 fun b => (b &&& 0xf0) + UInt8.ofNat (value &&& 0x0f)

def setYear (time : Cp56Time2a) (value : Nat) : Cp56Time2a :=
  time.setByte 6 fun b => (b &&& 0x80) + UInt8.ofNat (value % 100 &&& 0x7f)

/-- The fields in the order in which they are set. -/
def ofTm (tm : Tm) (msPart : Nat) : Cp56Time2a :=
  let time : Cp56Time2a := Vector.replicate 7 0
  (((((((time.setMillisecond msPart).setSecond tm.tmSec).setMinute tm.tmMin).setHour
    tm.tmHour).setDayOfMonth tm.tmMday).setDayOfWeek 0).setMonth (tm.tmMon + 1)).setYear tm.tmYear

def setFromMsTimestamp (timestamp : UInt64) : Cp56Time2a :=
  ofTm (gmtime (timestamp.toNat / 1000)) (timestamp.toNat % 1000)

/-! ## The fields read back -/

/-- A field of some bits of a byte that was 0. -/
theorem bits_minute {value : Nat} (h : value < 60) :
    ((0 &&& 0xc0 ||| UInt8.ofNat (value &&& 0x3f)) &&& (0x3f : UInt8)).toNat = value := by
  revert value
  decide

theorem bits_hour {value : Nat} (h : value < 24) :
    ((0 &&& 0xe0 ||| UInt8.ofNat (value &&& 0x1f)) &&& (0x1f : UInt8)).toNat = value := by
  revert value
  decide

theorem bits_day {value : Nat} (h : value < 32) :
    ((((0 &&& 0xe0) + UInt8.ofNat (value &&& 0x1f)) &&& 0x1f |||
      UInt8.ofNat ((0 &&& 0x07) * 0x20)) &&& (0x1f : UInt8)).toNat = value := by
  revert value
  decide

theorem bits_month {value : Nat} (h : value < 13) :
    (((0 &&& 0xf0) + UInt8.ofNat (value &&& 0x0f)) &&& (0x0f : UInt8)).toNat = value := by
  revert value
  decide

theorem bits_year {value : Nat} (h : value < 100) :
    (((0 &&& 0x80) + UInt8.ofNat (value &&& 0x7f)) &&& (0x7f : UInt8)).toNat = value := by
  revert value
  decide

theorem millies_setMillies (time : Cp56Time2a) {value : Nat} (h : value < 0x10000) :
    (time.setMillies value).millies = value := by
  have hbyte (x : Nat) : (UInt8.ofNat (x &&& 0xff)).toNat = x % 256 := by
    rw [show 0xff = 2 ^ 8 - 1 from rfl, Nat.and_two_pow_sub_one_eq_mod]
    exact UInt8.toNat_ofNat_of_lt' (Nat.mod_lt _ (by decide))
  have hbytes : (time.setMillies value).millies =
      (UInt8.ofNat (value &&& 0xff)).toNat + (UInt8.ofNat (value / 0x100 &&& 0xff)).toNat *
        0x100 := by
    simp [setMillies, millies, get_setByte]
  rw [hbytes, hbyte, hbyte]
  omega

end Cp56Time2a

/-! ## There and back -/

/-- The fields of `gmtime_r` are in their ranges. -/
structure Tm.InRange (tm : Tm) : Prop where
  mon : tm.tmMon < 12
  mday : 1 ≤ tm.tmMday ∧ tm.tmMday < 32
  hour : tm.tmHour < 24
  min : tm.tmMin < 60
  sec : tm.tmSec < 60

theorem inRange_ofDate {date : Date} (hday : date.day ≤ 30) (timeVal : Nat) :
    (Tm.ofDate date timeVal).InRange := by
  constructor <;> simp only [Tm.ofDate] <;> omega

theorem gmtime_inRange (timeVal : Nat) : (gmtime timeVal).InRange :=
  inRange_ofDate (dateOf_bounds _).2 timeVal

/-- The seconds that `my_mktime` gives for the fields of a time stamp. -/
def Tm.secondsBack (tm : Tm) : Int :=
  myMktime ((tm.tmYear % 100 : Nat) + 100) tm.tmMon tm.tmMday tm.tmHour tm.tmMin tm.tmSec

theorem millies_ofTm {tm : Tm} {msPart : Nat} (hms : msPart < 1000) (hsec : tm.tmSec < 60) :
    (Cp56Time2a.ofTm tm msPart).millies = tm.tmSec * 1000 + msPart := by
  -- the milliseconds are set before the seconds
  have hzero : Cp56Time2a.millies (Vector.replicate 7 0) = 0 := rfl
  have hfirst : (Cp56Time2a.setMillisecond (Vector.replicate 7 0) msPart).millies = msPart := by
    rw [Cp56Time2a.setMillisecond, hzero, Cp56Time2a.millies_setMillies] <;> omega
  have hsecond : ((Cp56Time2a.setMillisecond (Vector.replicate 7 0) msPart).setSecond
      tm.tmSec).millies = tm.tmSec * 1000 + msPart := by
    rw [Cp56Time2a.setSecond, hfirst, Nat.mod_eq_of_lt hms, Cp56Time2a.millies_setMillies]
    omega
  rw [← hsecond]
  simp [Cp56Time2a.ofTm, Cp56Time2a.millies, Cp56Time2a.setMinute, Cp56Time2a.setHour,
    Cp56Time2a.setDayOfMonth, Cp56Time2a.setDayOfWeek, Cp56Time2a.setMonth, Cp56Time2a.setYear,
    Cp56Time2a.get_setByte]

/-- The fields of a time stamp, turned into milliseconds. -/
theorem toMs_ofTm {tm : Tm} {msPart : Nat} (h : tm.InRange) (hms : msPart < 1000) :
    cp56Time2aToMsTimestamp (Cp56Time2a.ofTm tm msPart) =
      UInt64.ofInt (tm.secondsBack * 1000 + msPart) := by
  have hmillies : (Cp56Time2a.ofTm tm msPart)[0].toNat + (Cp56Time2a.ofTm tm msPart)[1].toNat *
      0x100 = tm.tmSec * 1000 + msPart := millies_ofTm hms h.sec
  have hmin : ((Cp56Time2a.ofTm tm msPart)[2] &&& 0x3f).toNat = tm.tmMin :=
    Cp56Time2a.bits_minute h.min
  have hhour : ((Cp56Time2a.ofTm tm msPart)[3] &&& 0x1f).toNat = tm.tmHour :=
    Cp56Time2a.bits_hour h.hour
  have hday : ((Cp56Time2a.ofTm tm msPart)[4] &&& 0x1f).toNat = tm.tmMday :=
    Cp56Time2a.bits_day h.mday.2
  have hmonth : ((Cp56Time2a.ofTm tm msPart)[5] &&& 0x0f).toNat = tm.tmMon + 1 :=
    Cp56Time2a.bits_month (Nat.succ_lt_succ h.mon)
  have hyear : ((Cp56Time2a.ofTm tm msPart)[6] &&& 0x7f).toNat = tm.tmYear % 100 :=
    Cp56Time2a.bits_year (Nat.mod_lt _ (by decide))
  have hsec : ((tm.tmSec * 1000 + msPart : Nat) : Int) / 1000 = tm.tmSec := by omega
  have hrest : (tm.tmSec * 1000 + msPart) % 1000 = msPart := by omega
  have hmon : ((tm.tmMon + 1 : Nat) : Int) - 1 = tm.tmMon := by omega
  simp only [cp56Time2aToMsTimestamp, hmillies, hmin, hhour, hday, hmonth, hyear, hsec, hrest, hmon,
    Tm.secondsBack]

/-- Every time stamp is taken for one of the years 2000 to 2099. -/
theorem secondsBack_range {tm : Tm} (h : tm.InRange) :
    946684800 ≤ tm.secondsBack ∧ tm.secondsBack < 4102444800 := by
  obtain ⟨hmon, hmday, hhour, hmin, hsec⟩ := h
  rw [Tm.secondsBack, myMktime]
  split
  · omega
  · omega

/-- The formula of `my_mktime` counts the days of the calendar. -/
theorem daysBack (year month day : Nat) (hyear : 99 ≤ year ∧ year ≤ 199) :
    ((year : Int) - 69) * 365 + year / 4 - year / 100 * 3 / 4 + ((month : Int) + 2 + 2) * 153 / 5 -
      446 + (day + 1 : Nat) = (Date.number ⟨year + 1900, month, day⟩ : Int) - epochDay := by
  have hfour : (year + 1900) / 4 = year / 4 + 475 := by omega
  have hcentury : (year + 1900) / 100 = year / 100 + 19 := by omega
  have hcycle : (year + 1900) / 400 = year / 100 + 4 := by omega
  have hsecular : (year : Int) / 100 * 3 / 4 = 0 := by omega
  have hmonth : ((month : Int) + 2 + 2) * 153 / 5 = (153 * month + 2) / 5 + 122 := by omega
  simp only [Date.number, yearStart, monthStart, epochDay, hfour, hcentury, hcycle, hsecular,
    hmonth]
  omega

/-- The year of a day from 2000 to 2099, counted from March. -/
theorem year_bounds {year month day : Nat} (hmonth : month ≤ 11) (hday : day ≤ 30)
    (h : 730425 ≤ Date.number ⟨year, month, day⟩ ∧ Date.number ⟨year, month, day⟩ < 766950) :
    (month < 10 → 2000 ≤ year ∧ year ≤ 2099) ∧ (¬ month < 10 → 1999 ≤ year ∧ year ≤ 2098) := by
  simp only [Date.number] at h
  have hbefore (bound : Nat) (hlt : yearStart year < yearStart bound) : year < bound :=
    yearStart_mono.reflect_lt hlt
  have hafter (bound : Nat) (hlt : yearStart bound < yearStart year) : bound < year :=
    yearStart_mono.reflect_lt hlt
  have h1998 : yearStart 1998 = 729754 := rfl
  have h1999 : yearStart 1999 = 730119 := rfl
  have h2099 : yearStart 2099 = 766644 := rfl
  have h2100 : yearStart 2100 = 767009 := rfl
  have hstart : monthStart month = (153 * month + 2) / 5 := rfl
  constructor
  · intro hmarch
    have hlow := hafter 1999 (by omega)
    have hhigh := hbefore 2100 (by omega)
    omega
  · intro hjanuary
    have hlow := hafter 1998 (by omega)
    have hhigh := hbefore 2099 (by omega)
    omega

/-- For these years the calendar of `gmtime_r` and the formula of `my_mktime` agree. -/
theorem secondsBack_ofDate {date : Date} {timeVal : Nat}
    (hnumber : date.number = timeVal / 86400 + epochDay) (hmonth : date.month ≤ 11)
    (hday : date.day ≤ 30) (h : 946684800 ≤ timeVal ∧ timeVal < 4102444800) :
    (Tm.ofDate date timeVal).secondsBack = timeVal := by
  obtain ⟨year, month, day⟩ := date
  have hbounds := year_bounds hmonth hday (by rw [hnumber, epochDay]; omega)
  replace hmonth : month ≤ 11 := hmonth
  have hdays : (Date.number ⟨year, month, day⟩ : Int) - epochDay = timeVal / 86400 := by
    rw [hnumber]
    omega
  have htime : ((timeVal / 86400 * 24 + (timeVal % 86400 / 3600 : Nat)) * 60 +
      (timeVal % 3600 / 60 : Nat)) * 60 + (timeVal % 60 : Nat) = (timeVal : Int) := by omega
  simp only [Tm.secondsBack, Tm.ofDate, yearSince1900, myMktime]
  by_cases hmarch : month < 10
  · have hyear := hbounds.1 hmarch
    obtain ⟨y, rfl⟩ : ∃ y, year = y + 1900 := ⟨year - 1900, by omega⟩
    have hcentury : ((y + 1900 - 1900) % 100 : Nat) + 100 = (y : Int) := by omega
    have hmon : ((month + 2) % 12 : Nat) = (month : Int) + 2 := by omega
    rw [if_pos hmarch, hcentury, hmon, if_neg (by omega), if_neg (by omega),
      daysBack y month day (by omega), hdays, htime]
  · -- `my_mktime` takes January and February for months of the year before
    have hyear := hbounds.2 hmarch
    obtain ⟨y, rfl⟩ : ∃ y, year = y + 1900 := ⟨year - 1900, by omega⟩
    have hcentury : ((y + 1900 + 1 - 1900) % 100 : Nat) + 100 = (y : Int) + 1 := by omega
    have hmon : ((month + 2) % 12 : Nat) = (month : Int) - 10 := by omega
    have hback : ((month : Int) - 10 + 12 : Int) = month + 2 := by omega
    rw [if_neg hmarch, hcentury, hmon, if_pos (by omega), if_pos (by omega), hback,
      add_sub_cancel_right, daysBack y month day (by omega), hdays, htime]

theorem secondsBack_gmtime {timeVal : Nat} (h : 946684800 ≤ timeVal ∧ timeVal < 4102444800) :
    (gmtime timeVal).secondsBack = timeVal :=
  secondsBack_ofDate (number_dateOf _) (dateOf_bounds _).1 (dateOf_bounds _).2 h

/-- A time stamp tells the time it was made from exactly for the years 2000 to 2099. -/
theorem timestamp_round_trip_iff (timestamp : UInt64) :
    cp56Time2aToMsTimestamp (Cp56Time2a.setFromMsTimestamp timestamp) = timestamp ↔
      946684800000 ≤ timestamp.toNat ∧ timestamp.toNat < 4102444800000 := by
  have hms : timestamp.toNat % 1000 < 1000 := Nat.mod_lt _ (by decide)
  have hrange := gmtime_inRange (timestamp.toNat / 1000)
  have hback := secondsBack_range hrange
  rw [Cp56Time2a.setFromMsTimestamp, toMs_ofTm hrange hms, ← UInt64.toNat_inj]
  have hvalue := HistoryCallLemmas.toNat_ofInt
    (v := (gmtime (timestamp.toNat / 1000)).secondsBack * 1000 + (timestamp.toNat % 1000 : Nat))
    (by omega) (by omega)
  constructor
  · intro heq
    rw [heq] at hvalue
    omega
  · intro hin
    rw [secondsBack_gmtime (by omega)] at hvalue ⊢
    omega

end Iec104Slave
