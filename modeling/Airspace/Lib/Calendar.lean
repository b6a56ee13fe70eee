import Mathlib.Algebra.Order.Group.Unbundled.Int
import Mathlib.Algebra.Order.Ring.Int
import Mathlib.Data.List.Basic

/-! Dates of the proleptic Gregorian calendar, and instants as text.

    A day is the number of days since the epoch. Counted from March, the day a leap year adds is the last
    one of its year; four hundred years make an era of 146097 days. An instant is a number of microseconds,
    written as `YYYY-MM-DDTHH:MM:SS`, the microseconds if there are any, and a `Z`; what is written is read
    back. -/

namespace Airspace

/-! ### Days -/

/-- The days before a year that begins in March, within its era. -/
def daysBefore (yoe : ℤ) : ℤ := yoe * 365 + yoe / 4 - yoe / 100

/-- The year of a day of the era: centuries, then groups of four years, then years. -/
def yearOfEra (doe : ℤ) : ℤ :=
  let century := min (doe / 36524) 3
  let quad := (doe - 36524 * century) / 1461
  100 * century + 4 * quad + min ((doe - 36524 * century - 1461 * quad) / 365) 3

theorem yearOfEra_mem {doe : ℤ} (h0 : 0 ≤ doe) (h : doe < 146097) :
    (0 ≤ yearOfEra doe ∧ yearOfEra doe ≤ 399) ∧ daysBefore (yearOfEra doe) ≤ doe ∧
      doe ≤ daysBefore (yearOfEra doe) + 365 := by
  simp only [yearOfEra, daysBefore]
  generalize hcentury : min (doe / 36524) 3 = century
  generalize hquad : (doe - 36524 * century) / 1461 = quad
  generalize hyear : min ((doe - 36524 * century - 1461 * quad) / 365) 3 = year
  have hbounds : 0 ≤ century ∧ century ≤ 3 ∧ 0 ≤ quad ∧ quad ≤ 24 ∧ 0 ≤ year ∧ year ≤ 3 := by omega
  have hfours : (100 * century + 4 * quad + year) / 4 = 25 * century + quad := by omega
  have hhundreds : (100 * century + 4 * quad + year) / 100 = century := by omega
  omega

/-- The month of a day of the year, counted from March. -/
def monthOfYear (doy : ℤ) : ℤ := (5 * doy + 2) / 153

/-- The days before a month, counted from March. -/
def daysBeforeMonth (mp : ℤ) : ℤ := (153 * mp + 2) / 5

theorem monthOfYear_mem {doy : ℤ} (h0 : 0 ≤ doy) (h : doy ≤ 365) :
    (0 ≤ monthOfYear doy ∧ monthOfYear doy ≤ 11) ∧ 0 ≤ doy - daysBeforeMonth (monthOfYear doy) ∧
      doy - daysBeforeMonth (monthOfYear doy) ≤ 30 := by
  unfold monthOfYear daysBeforeMonth
  omega

/-- A date of the calendar. -/
structure Civil where
  year : ℤ
  month : ℤ
  day : ℤ

/-- The date of a year and a month counted from March. -/
def Civil.ofMarch (year mp day : ℤ) : Civil :=
  if mp < 10 then ⟨year, mp + 3, day⟩ else ⟨year + 1, mp - 9, day⟩

/-- The date of a day since the epoch. -/
def Civil.ofDays (days : ℤ) : Civil :=
  let z := days + 719468
  let doe := z % 146097
  let doy := doe - daysBefore (yearOfEra doe)
  .ofMarch (z / 146097 * 400 + yearOfEra doe) (monthOfYear doy) (doy - daysBeforeMonth (monthOfYear doy) + 1)

/-- The day since the epoch of a year and a month counted from March. -/
def daysOfMarch (year mp day : ℤ) : ℤ :=
  year / 400 * 146097 + daysBefore (year % 400) + daysBeforeMonth mp + day - 1 - 719468

/-- The day since the epoch of a date. -/
def Civil.toDays (c : Civil) : ℤ :=
  if c.month ≤ 2 then daysOfMarch (c.year - 1) (c.month + 9) c.day else daysOfMarch c.year (c.month - 3) c.day

theorem Civil.toDays_ofMarch {year mp day : ℤ} (h0 : 0 ≤ mp) (h : mp ≤ 11) :
    (Civil.ofMarch year mp day).toDays = daysOfMarch year mp day := by
  unfold ofMarch
  split_ifs with hlt
  · rw [toDays, if_neg (by simp; omega), add_sub_cancel_right]
  · rw [toDays, if_pos (by simp; omega), add_sub_cancel_right, sub_add_cancel]

/-- A day is where its date says. -/
theorem Civil.toDays_ofDays (days : ℤ) : (Civil.ofDays days).toDays = days := by
  have hdoe : 0 ≤ (days + 719468) % 146097 ∧ (days + 719468) % 146097 < 146097 := by omega
  obtain ⟨hyoe, hfirst, hlast⟩ := yearOfEra_mem hdoe.1 hdoe.2
  obtain ⟨hmonth, -⟩ := monthOfYear_mem (sub_nonneg.mpr hfirst) (sub_le_iff_le_add'.mpr hlast)
  rw [ofDays, toDays_ofMarch hmonth.1 hmonth.2, daysOfMarch]
  generalize yearOfEra ((days + 719468) % 146097) = yoe at *
  have hera : ((days + 719468) / 146097 * 400 + yoe) / 400 = (days + 719468) / 146097 := by omega
  have hrest : ((days + 719468) / 146097 * 400 + yoe) % 400 = yoe := by omega
  rw [hera, hrest]
  omega

/-- The dates of the years from 1 to 9999. -/
theorem Civil.ofDays_mem {days : ℤ} (h : -719162 ≤ days ∧ days ≤ 2932896) :
    (1 ≤ (Civil.ofDays days).year ∧ (Civil.ofDays days).year ≤ 9999) ∧
      (1 ≤ (Civil.ofDays days).month ∧ (Civil.ofDays days).month ≤ 12) ∧
      1 ≤ (Civil.ofDays days).day ∧ (Civil.ofDays days).day ≤ 31 := by
  have hdoe : 0 ≤ (days + 719468) % 146097 ∧ (days + 719468) % 146097 < 146097 := by omega
  obtain ⟨hyoe, hfirst, hlast⟩ := yearOfEra_mem hdoe.1 hdoe.2
  obtain ⟨hmonth, hday⟩ := monthOfYear_mem (sub_nonneg.mpr hfirst) (sub_le_iff_le_add'.mpr hlast)
  have hmp : monthOfYear ((days + 719468) % 146097 - daysBefore (yearOfEra ((days + 719468) % 146097))) =
      (5 * ((days + 719468) % 146097 - daysBefore (yearOfEra ((days + 719468) % 146097))) + 2) / 153 := rfl
  rw [ofDays, ofMarch]
  generalize yearOfEra ((days + 719468) % 146097) = yoe at *
  have hbefore : daysBefore yoe = yoe * 365 + yoe / 4 - yoe / 100 := rfl
  generalize daysBefore yoe = before at *
  generalize monthOfYear ((days + 719468) % 146097 - before) = mp at *
  generalize daysBeforeMonth mp = beforeMonth at *
  split_ifs <;> simp only <;> omega

/-! ### Numbers of a fixed width -/

/-- The decimals of a number, as many as are asked for. -/
def decimals : ℕ → ℕ → List Char
  | 0, _ => []
  | w + 1, n => decimals w (n / 10) ++ [Nat.digitChar (n % 10)]

/-- The number some decimals stand for. -/
def readDecimals (cs : List Char) : Option ℕ :=
  cs.foldlM (fun n c => if c.isDigit then some (n * 10 + (c.toNat - '0'.toNat)) else none) 0

@[simp] theorem length_decimals (w n : ℕ) : (decimals w n).length = w := by
  induction w generalizing n with
  | zero => rfl
  | succ w ih => simp [decimals, ih]

theorem readDecimals_decimals {w n : ℕ} (h : n < 10 ^ w) : readDecimals (decimals w n) = some n := by
  induction w generalizing n with
  | zero =>
    obtain rfl := Nat.lt_one_iff.mp h
    rfl
  | succ w ih =>
    have hdigit : ∀ d < 10, (Nat.digitChar d).isDigit = true ∧ (Nat.digitChar d).toNat - '0'.toNat = d := by
      decide
    obtain ⟨hisDigit, hvalue⟩ := hdigit (n % 10) (Nat.mod_lt n (by decide))
    have hrest := ih (n := n / 10) (by omega)
    rw [readDecimals] at hrest ⊢
    rw [decimals, List.foldlM_append, hrest]
    simp only [List.foldlM_cons, List.foldlM_nil, Option.bind_eq_bind, Option.bind_some, hisDigit, hvalue, if_true]
    exact congrArg some (by omega)

/-- A number of so many decimals, and what comes after it. -/
def takeDecimals (w : ℕ) (cs : List Char) : Option (ℕ × List Char) :=
  if w ≤ cs.length then (readDecimals (cs.take w)).map fun n => (n, cs.drop w) else none

theorem takeDecimals_append {w n : ℕ} (h : n < 10 ^ w) (rest : List Char) :
    takeDecimals w (decimals w n ++ rest) = some (n, rest) := by
  have htake : (decimals w n ++ rest).take w = decimals w n := List.take_left' (length_decimals w n)
  have hdrop : (decimals w n ++ rest).drop w = rest := List.drop_left' (length_decimals w n)
  rw [takeDecimals, if_pos (by simp), htake, hdrop, readDecimals_decimals h]
  rfl

/-- A character that is expected, and what comes after it. -/
def takeChar (c : Char) : List Char → Option (List Char)
  | [] => none
  | c' :: rest => if c' = c then some rest else none

@[simp] theorem takeChar_cons (c : Char) (rest : List Char) : takeChar c (c :: rest) = some rest := if_pos rfl

/-! ### Instants as text -/

/-- From 0001-01-01T00:00:00 to 9999-12-31T23:59:59.999999. -/
def IsDatetime (t : ℤ) : Prop := -62135596800000000 ≤ t ∧ t ≤ 253402300799999999

instance (t : ℤ) : Decidable (IsDatetime t) :=
  inferInstanceAs (Decidable (-62135596800000000 ≤ t ∧ t ≤ 253402300799999999))

/-- The end of an instant's text: its microseconds if there are any. -/
def fraction (us : ℕ) : List Char := if us = 0 then ['Z'] else '.' :: (decimals 6 us ++ ['Z'])

def isoChars (t : ℤ) : List Char :=
  let c := Civil.ofDays (t / 86400000000)
  let us := (t % 86400000000).toNat
  decimals 4 c.year.toNat ++ '-' :: (decimals 2 c.month.toNat ++ '-' :: (decimals 2 c.day.toNat ++
    'T' :: (decimals 2 (us / 3600000000) ++ ':' :: (decimals 2 (us / 60000000 % 60) ++
      ':' :: (decimals 2 (us / 1000000 % 60) ++ fraction (us % 1000000))))))

/-- The text of an instant. -/
def isoformat (t : ℤ) : String := String.ofList (isoChars t)

def takeFraction : List Char → Option ℕ
  | ['Z'] => some 0
  | '.' :: cs => do
    let (us, rest) ← takeDecimals 6 cs
    if rest = ['Z'] then some us else none
  | _ => none

theorem takeFraction_fraction {us : ℕ} (h : us < 1000000) : takeFraction (fraction us) = some us := by
  unfold fraction
  split_ifs with hzero
  · rw [hzero]
    rfl
  · have hfits : us < 10 ^ 6 := by omega
    simp [takeFraction, takeDecimals_append hfits]

/-- The instant at some microseconds of a day. -/
def instantOf (c : Civil) (hour minute second us : ℕ) : ℤ :=
  c.toDays * 86400000000 + hour * 3600000000 + minute * 60000000 + second * 1000000 + us

def takeIso (cs : List Char) : Option ℤ := do
  let (year, cs) ← takeDecimals 4 cs
  let cs ← takeChar '-' cs
  let (month, cs) ← takeDecimals 2 cs
  let cs ← takeChar '-' cs
  let (day, cs) ← takeDecimals 2 cs
  let cs ← takeChar 'T' cs
  let (hour, cs) ← takeDecimals 2 cs
  let cs ← takeChar ':' cs
  let (minute, cs) ← takeDecimals 2 cs
  let cs ← takeChar ':' cs
  let (second, cs) ← takeDecimals 2 cs
  let us ← takeFraction cs
  return instantOf ⟨year, month, day⟩ hour minute second us

/-- The instant a text is the text of, if there is one. -/
def readIso (s : String) : Option ℤ :=
  (takeIso s.toList).filter fun t => IsDatetime t ∧ isoformat t = s

theorem takeIso_isoChars {t : ℤ} (h : IsDatetime t) : takeIso (isoChars t) = some t := by
  have hdays : -719162 ≤ t / 86400000000 ∧ t / 86400000000 ≤ 2932896 := by
    obtain ⟨hlow, hhigh⟩ := h
    omega
  obtain ⟨hyear, hmonth, hday⟩ := Civil.ofDays_mem hdays
  have hus : ((t % 86400000000).toNat : ℤ) = t % 86400000000 := Int.toNat_of_nonneg (by omega)
  have htoDays := Civil.toDays_ofDays (t / 86400000000)
  unfold isoChars
  generalize Civil.ofDays (t / 86400000000) = c at *
  generalize (t % 86400000000).toNat = us at *
  have hyear' : c.year.toNat < 10 ^ 4 := by omega
  have hmonth' : c.month.toNat < 10 ^ 2 := by omega
  have hday' : c.day.toNat < 10 ^ 2 := by omega
  have hhour : us / 3600000000 < 10 ^ 2 := by omega
  have hminute : us / 60000000 % 60 < 10 ^ 2 := by omega
  have hsecond : us / 1000000 % 60 < 10 ^ 2 := by omega
  have hfraction : us % 1000000 < 1000000 := Nat.mod_lt us (by decide)
  have hcivil : (⟨c.year.toNat, c.month.toNat, c.day.toNat⟩ : Civil) = c := by
    obtain ⟨year, month, day⟩ := c
    simp only [Civil.mk.injEq] at *
    omega
  simp only [takeIso, takeDecimals_append hyear', takeDecimals_append hmonth', takeDecimals_append hday',
    takeDecimals_append hhour, takeDecimals_append hminute, takeDecimals_append hsecond,
    takeFraction_fraction hfraction, takeChar_cons, Option.bind_eq_bind, Option.bind_some, hcivil, instantOf,
    htoDays]
  refine congrArg some ?_
  push_cast
  omega

/-- An instant's text is read back. -/
theorem readIso_isoformat {t : ℤ} (h : IsDatetime t) : readIso (isoformat t) = some t := by
  rw [readIso, isoformat, String.toList_ofList, takeIso_isoChars h, Option.filter_some, if_pos]
  exact decide_eq_true ⟨h, rfl⟩

/-- A text that is read is the text of its instant. -/
theorem readIso_eq_some_iff {s : String} {t : ℤ} : readIso s = some t ↔ IsDatetime t ∧ isoformat t = s := by
  constructor
  · intro h
    exact of_decide_eq_true (Option.filter_eq_some_iff.mp h).2
  · rintro ⟨ht, rfl⟩
    exact readIso_isoformat ht

example : isoformat 1767225600000000 = "2026-01-01T00:00:00Z" := by decide

end Airspace
