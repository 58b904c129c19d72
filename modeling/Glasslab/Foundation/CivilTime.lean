import Mathlib.Data.Rat.Floor

/-!
# Civil time

The date and the time of day, in UTC, of an instant in seconds since the beginning of 1970. Years
begin in March where days are counted, so that the leap day is the last one, and 400 years are an
era of 146097 days. A civil minute tells its minute (`civilMinute_inj`).
-/

namespace Foundation

structure CivilMinute where
  year : Int
  month : Int
  day : Int
  hour : Int
  minute : Int
  deriving DecidableEq, Repr

def minuteOf (t : ℚ) : Int := ⌊t / 60⌋

def dayOfEra (days : Int) : Int := (days + 719468) % 146097

def yearOfEra (doe : Int) : Int := (doe - doe / 1460 + doe / 36524 - doe / 146096) / 365

def dayOfYear (doe : Int) : Int :=
  let yoe := yearOfEra doe
  doe - (365 * yoe + yoe / 4 - yoe / 100)

def monthOfYear (doy : Int) : Int := (5 * doy + 2) / 153

def marchYear (days : Int) : Int :=
  yearOfEra (dayOfEra days) + (days + 719468) / 146097 * 400

def civilMonth (days : Int) : Int :=
  let mp := monthOfYear (dayOfYear (dayOfEra days))
  if mp < 10 then mp + 3 else mp - 9

def civilDay (days : Int) : Int :=
  let doy := dayOfYear (dayOfEra days)
  doy - (153 * monthOfYear doy + 2) / 5 + 1

def civilYear (days : Int) : Int :=
  if civilMonth days ≤ 2 then marchYear days + 1 else marchYear days

theorem yearOfEra_range {doe : Int} (h : 0 ≤ doe ∧ doe < 146097) :
    0 ≤ yearOfEra doe ∧ yearOfEra doe < 400 := by
  unfold yearOfEra
  omega

theorem dayOfYear_range {doe : Int} (h : 0 ≤ doe ∧ doe < 146097) :
    0 ≤ dayOfYear doe ∧ dayOfYear doe ≤ 366 := by
  unfold dayOfYear
  dsimp only
  have hYear : yearOfEra doe = (doe - doe / 1460 + doe / 36524 - doe / 146096) / 365 := rfl
  generalize yearOfEra doe = yoe at hYear ⊢
  -- The centuries are counted one by one.
  have hCentury : doe / 36524 - doe / 146096 ≤ yoe / 100 ∧
      yoe / 100 ≤ doe / 36524 - doe / 146096 + 1 := by
    all_goals omega
  omega

theorem civilDate_inj {d e : Int} (hYear : civilYear d = civilYear e)
    (hMonth : civilMonth d = civilMonth e) (hDay : civilDay d = civilDay e) : d = e := by
  have hRangeD : 0 ≤ dayOfEra d ∧ dayOfEra d < 146097 := by
    unfold dayOfEra
    omega
  have hRangeE : 0 ≤ dayOfEra e ∧ dayOfEra e < 146097 := by
    unfold dayOfEra
    omega
  have hMarch : marchYear d = marchYear e := by
    unfold civilYear at hYear
    rw [hMonth] at hYear
    split at hYear
    · omega
    · exact hYear
  have hYearD := yearOfEra_range hRangeD
  have hYearE := yearOfEra_range hRangeE
  have hEra : yearOfEra (dayOfEra d) = yearOfEra (dayOfEra e) ∧
      (d + 719468) / 146097 = (e + 719468) / 146097 := by
    unfold marchYear at hMarch
    omega
  have hMp : monthOfYear (dayOfYear (dayOfEra d)) = monthOfYear (dayOfYear (dayOfEra e)) := by
    have hDoyD := dayOfYear_range hRangeD
    have hDoyE := dayOfYear_range hRangeE
    unfold civilMonth at hMonth
    dsimp only at hMonth
    unfold monthOfYear at hMonth ⊢
    split at hMonth <;> split at hMonth <;> omega
  have hDoy : dayOfYear (dayOfEra d) = dayOfYear (dayOfEra e) := by
    unfold civilDay at hDay
    dsimp only at hDay
    omega
  have hDoe : dayOfEra d = dayOfEra e := by
    have hD : dayOfYear (dayOfEra d) = dayOfEra d - (365 * yearOfEra (dayOfEra d) +
      yearOfEra (dayOfEra d) / 4 - yearOfEra (dayOfEra d) / 100) := rfl
    have hE : dayOfYear (dayOfEra e) = dayOfEra e - (365 * yearOfEra (dayOfEra e) +
      yearOfEra (dayOfEra e) / 4 - yearOfEra (dayOfEra e) / 100) := rfl
    rw [hEra.1] at hD
    omega
  unfold dayOfEra at hDoe
  omega

def civilMinute (t : ℚ) : CivilMinute :=
  let minutes := minuteOf t
  let days := minutes / 1440
  { year := civilYear days
    month := civilMonth days
    day := civilDay days
    hour := minutes % 1440 / 60
    minute := minutes % 60 }

def weekday (t : ℚ) : Int := (minuteOf t / 1440 + 3) % 7

theorem civilMinute_inj {t u : ℚ} (h : civilMinute t = civilMinute u) :
    minuteOf t = minuteOf u := by
  have hYear := congrArg CivilMinute.year h
  have hMonth := congrArg CivilMinute.month h
  have hDay := congrArg CivilMinute.day h
  have hHour := congrArg CivilMinute.hour h
  have hMinute := congrArg CivilMinute.minute h
  have hDays : minuteOf t / 1440 = minuteOf u / 1440 := civilDate_inj hYear hMonth hDay
  replace hHour : minuteOf t % 1440 / 60 = minuteOf u % 1440 / 60 := hHour
  replace hMinute : minuteOf t % 60 = minuteOf u % 60 := hMinute
  omega

theorem minuteOf_mono {t u : ℚ} (h : t ≤ u) : minuteOf t ≤ minuteOf u := by
  apply Int.floor_le_floor
  linarith

example : civilMinute 951827640 = ⟨2000, 2, 29, 12, 34⟩ ∧ weekday 951827640 = 1 := by
  decide +kernel

end Foundation
