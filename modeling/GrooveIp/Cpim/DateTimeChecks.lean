import GrooveIp.Cpim.DateTime
import Mathlib.Tactic.IntervalCases

/-!
# What becomes of a date and time

Which date-time texts the DateTime header accepts, and whether an accepted one is printed back and
denotes the instant it should. The check counts months from zero but looks at them as though they
were counted from one, so it is wrong about January, the end of February and the end of March in a
leap year; minutes of the offset are never checked; and the offset is applied the wrong way round.
-/

namespace GrooveIp.Cpim

open Lib List DateTimeHeader DateTimeHeaderNode Date

/-! ## The check -/

/-- The dates that the check is wrong about, with the month from zero. -/
def Misjudged (year : Int) (month : Nat) (day : Int) : Prop :=
  month = 0 ∨ (month = 1 ∧ day = 29) ∨ (month = 2 ∧ isLeapYear year = true ∧ 30 ≤ day)

/-- The number of days that the check grants a month. -/
def daysGranted (year mon : Int) : Except Fault Int :=
  if mon = 2 ∧ isLeapYear year = true then .ok 29 else daysInMonth mon

/-- The date of a node passes the check. -/
def DateAccepted (year : Int) (month : Nat) (day : Int) : Prop :=
  1 ≤ day ∧ day ≤ monthLength year month ∧ ¬ Misjudged year month day

variable (node : DateTimeHeaderNode) (timezone : Int)

/-- The clock and the offset of a node pass the check. -/
def DateTimeHeaderNode.ClockAccepted : Prop :=
  node.time.tmHour ≤ 24 ∧ node.time.tmMin ≤ 59 ∧ node.time.tmSec ≤ 60 ∧
    (node.signOffset = ['Z'] ∨ node.timeOffset.tmHour ≤ 24)

instance (node : DateTimeHeaderNode) : Decidable node.ClockAccepted := by
  unfold ClockAccepted
  infer_instance

theorem daysGranted_spec (year : Int) {month : Nat} (h1 : 1 ≤ month) (h12 : month < 12) :
    ∃ days, daysGranted year month = .ok days ∧
      ∀ day, 1 ≤ day → (day ≤ days ↔ day ≤ monthLength year month ∧
        ¬ Misjudged year month day) := by
  unfold Misjudged daysGranted monthLength
  cases isLeapYear year <;> interval_cases month <;>
    refine ⟨_, rfl, fun day hday => ?_⟩ <;> simp <;> omega

theorem isValid_eq
    (hmon : ¬(node.time.tmMon < 1 ∨ node.time.tmMon > 12)) (hday : ¬ node.time.tmMday < 1) :
    node.isValid = (daysGranted node.time.tmYear node.time.tmMon).map fun days =>
      decide (node.time.tmMday ≤ days ∧ node.ClockAccepted) := by
  have htail (days : Int) : (if node.time.tmMday > days then pure false
      else if node.time.tmHour > 24 ∨ node.time.tmMin > 59 ∨ node.time.tmSec > 60 then pure false
      else if node.signOffset ≠ ['Z'] then
        if node.timeOffset.tmHour > 24 ∨ node.time.tmMin > 59 then pure false else pure true
      else pure true : Except Fault Bool) =
      .ok (decide (node.time.tmMday ≤ days ∧ node.ClockAccepted)) := by
    unfold ClockAccepted
    split
    · next h => exact congrArg Except.ok (decide_eq_false (by omega)).symm
    · next h =>
      split
      · next hclock => exact congrArg Except.ok (decide_eq_false (by omega)).symm
      · next hclock =>
        split
        · next hsign =>
          split
          · exact congrArg Except.ok (decide_eq_false (by grind)).symm
          · exact congrArg Except.ok (decide_eq_true (by grind)).symm
        · next hsign => exact congrArg Except.ok (decide_eq_true (by grind)).symm
  have hleap : ((node.time.tmYear % 4 == 0 && node.time.tmYear % 100 != 0) ||
      node.time.tmYear % 400 == 0) = isLeapYear node.time.tmYear := rfl
  unfold isValid daysGranted
  rw [if_neg hmon, if_neg hday]
  simp only [hleap]
  split
  · exact htail 29
  · cases daysInMonth node.time.tmMon with
    | error fault => rfl
    | ok days => exact htail days

theorem isValid_of_lt {month : Nat} (hmonth : month < 12)
    (hmon : node.time.tmMon = month) : ∃ valid, node.isValid = .ok valid ∧
      (valid = true ↔ DateAccepted node.time.tmYear month node.time.tmMday ∧
        node.ClockAccepted) := by
  unfold DateAccepted
  by_cases hzero : month = 0
  · subst hzero
    refine ⟨false, ?_, by simp [Misjudged]⟩
    rw [isValid, if_pos (by omega)]
    rfl
  · have hrange : ¬(node.time.tmMon < 1 ∨ node.time.tmMon > 12) := by omega
    by_cases hday : node.time.tmMday < 1
    · refine ⟨false, ?_, ?_⟩
      · rw [isValid, if_neg hrange, if_pos hday]
        rfl
      · simp
        omega
    · obtain ⟨days, hdays, hspec⟩ := daysGranted_spec node.time.tmYear (by omega) hmonth
      have hgrant := hspec node.time.tmMday (by omega)
      refine ⟨decide (node.time.tmMday ≤ days ∧ node.ClockAccepted), ?_, ?_⟩
      · rw [isValid_eq node hrange hday, hmon, hdays]
        rfl
      · rw [decide_eq_true_eq, hgrant]
        have := Int.not_lt.mp hday
        tauto

theorem isValid_thirteen (hmon : node.time.tmMon = 12)
    (hday : 1 ≤ node.time.tmMday) : node.isValid = .error .outOfBounds := by
  rw [isValid_eq node (by omega) (by omega), hmon]
  simp [daysGranted, daysInMonth, Except.map]

theorem isValid_out_of_range (hmon : node.time.tmMon < 0 ∨ 12 < node.time.tmMon ∨
      (node.time.tmMon = 12 ∧ node.time.tmMday < 1)) : node.isValid = .ok false := by
  by_cases hrange : node.time.tmMon < 1 ∨ node.time.tmMon > 12
  · rw [isValid, if_pos hrange]
    rfl
  · rw [isValid, if_neg hrange, if_pos (by omega)]
    rfl

/-! ## The time -/

theorem timegm_carryMinutes (tm : Tm) : timegm (carryMinutes tm) = timegm tm := by
  induction tm using carryMinutes.induct with
  | case1 tm h ih =>
    rw [carryMinutes, if_pos h, ih]
    simp only [timegm, Tm.clock]
    omega
  | case2 tm h => rw [carryMinutes, if_neg h]

theorem timegm_borrowMinutes (tm : Tm) : timegm (borrowMinutes tm) = timegm tm := by
  induction tm using borrowMinutes.induct with
  | case1 tm h ih =>
    rw [borrowMinutes, if_pos h, ih]
    simp only [timegm, Tm.clock]
    omega
  | case2 tm h => rw [borrowMinutes, if_neg h]

/-- The date and the clock of a header as seconds. -/
def DateTimeHeader.seconds (d : DateTimeHeader) : Int :=
  timegm { d.dateTime with tmYear := d.dateTime.tmYear - 1900, tmIsdst := 0 }

/-- What the offset of a header adds to its seconds. -/
def DateTimeHeader.shift (d : DateTimeHeader) : Int :=
  if d.signOffset = ['+'] then 3600 * d.dateTimeOffset.tmHour + 60 * d.dateTimeOffset.tmMin
  else if d.signOffset = ['-'] then
    -(3600 * (d.dateTimeOffset.tmHour + d.dateTimeOffset.tmMin))
  else 0

theorem getTmAsTimeT_eq {tm : Tm} {seconds : Int} (h : timegm tm = seconds) :
    getTmAsTimeT timezone tm = if seconds + timezone = -1 then -1 else seconds := by
  simp [getTmAsTimeT, mktime, h]

theorem getTime_eq (d : DateTimeHeader) : d.getTime timezone =
      if d.seconds + d.shift + timezone = -1 then -1 else d.seconds + d.shift := by
  apply getTmAsTimeT_eq
  unfold shift seconds
  split
  · rw [timegm_carryMinutes]
    simp only [timegm, Tm.clock]
    omega
  · split
    · rw [timegm_borrowMinutes]
      simp only [timegm, Tm.clock]
      omega
    · exact (Int.add_zero _).symm

theorem seconds_ofTime (unset : Tm) (time : Int) :
    (ofTime unset time).seconds = time := by
  have hnumber : dayNumber (ofNumber (time / 86400)).year (ofNumber (time / 86400)).month
      (ofNumber (time / 86400)).day = time / 86400 := number_ofNumber (time / 86400)
  have hmonth := (ofNumber (time / 86400)).month_lt
  simp only [seconds, ofTime, getTimeTAsTm, gmtime, timegm, Tm.clock]
  have hyear : (ofNumber (time / 86400)).year - 1900 + 1900 - 1900 + 1900 +
      ((ofNumber (time / 86400)).month : Int) / 12 = (ofNumber (time / 86400)).year := by
    omega
  have hindex : (((ofNumber (time / 86400)).month : Int) % 12).toNat =
      (ofNumber (time / 86400)).month := by
    omega
  rw [hyear, hindex, hnumber]
  omega

/-! ## A text that is read -/

variable {d : DateTimeText} {unset : Tm}

/-- The header that is made of a text, if it passes the check. -/
def DateTimeText.header (unset : Tm) (d : DateTimeText) : DateTimeHeader :=
  ⟨(d.collect unset).time, (d.collect unset).timeOffset, (d.collect unset).signOffset⟩

theorem time_collect (unset : Tm) (d : DateTimeText) : (d.collect unset).time =
      { tmYear := d.year.value, tmMon := d.month.value - 1, tmMday := d.mday.value,
        tmHour := d.hour.value, tmMin := d.minute.value, tmSec := d.second.value,
          tmIsdst := 0 } := by
  simp [DateTimeText.collect, stoi, Tm.zero, atoi_digits (n := 4) (by decide) (by decide), atoi_digits (n := 2) (by decide) (by decide)]

theorem collect_num (unset : Tm) (sign : TimeSign) (hour minute : Digits 2) :
    (TimeOffset.num sign hour minute).collect unset = ⟨sign.text, hour.value, minute.value⟩ := by
  simp only [TimeOffset.collect, stoi, atoi_digits (n := 2) (by decide) (by decide)]

theorem TimeSign.text_ne (sign : TimeSign) : sign.text ≠ ['Z'] := by cases sign <;> decide

theorem setw_value {n : Nat} (hn : 0 < n) (ds : Digits n) : setw n ds.value = ds.chars :=
  printPadded_value hn ds

/-- The letters of the text are capital ones. -/
def DateTimeText.Capital (d : DateTimeText) : Prop :=
  d.letter.val = 'T' ∧ ∀ letter, d.offset = .zulu letter → letter.val = 'Z'

/-- The sign and the numbers of the offset as they are printed. -/
def DateTimeHeader.offsetValue (d : DateTimeHeader) : List Char :=
  d.signOffset ++ if d.signOffset = ['Z'] then []
    else setw 2 d.dateTimeOffset.tmHour ++ ':' :: setw 2 d.dateTimeOffset.tmMin

theorem offsetValue_header (unset : Tm) (d : DateTimeText) :
    (d.header unset).offsetValue = d.offset.text ↔
      ∀ letter, d.offset = .zulu letter → letter.val = 'Z' := by
  cases hoffset : d.offset with
  | zulu letter =>
    have hvalue : (d.header unset).offsetValue = ['Z'] := by
      simp [offsetValue, DateTimeText.header, DateTimeText.collect, hoffset, TimeOffset.collect, DateTimeOffsetNode.new]
    rw [hvalue]
    constructor
    · rintro h _ ⟨⟩
      exact (List.cons.inj h).1.symm
    · intro h
      rw [TimeOffset.text, h letter rfl]
  | num sign hour minute =>
    have hvalue : (d.header unset).offsetValue = (TimeOffset.num sign hour minute).text := by
      simp only [offsetValue, DateTimeText.header, DateTimeText.collect, hoffset,
        collect_num, if_neg sign.text_ne, setw_value (n := 2) (by decide), TimeOffset.text,
        append_assoc]
    exact ⟨fun _ _ h => (nomatch h), fun _ => hvalue⟩

theorem getValue_header (unset : Tm) (d : DateTimeText) :
    (d.header unset).getValue = d.withoutFraction ↔ d.Capital := by
  have hmonth : (d.month.value : Int) - 1 + 1 = d.month.value := by omega
  have hvalue : (d.header unset).getValue =
      d.year.chars ++ '-' :: (d.month.chars ++ '-' :: (d.mday.chars ++ 'T' :: (d.hour.chars ++
        ':' :: (d.minute.chars ++ ':' :: (d.second.chars ++ (d.header unset).offsetValue))))) := by
    simp only [getValue, offsetValue]
    rw [DateTimeText.header]
    simp [time_collect, hmonth, setw_value (n := 4) (by decide), setw_value (n := 2) (by decide)]
  have htext : d.withoutFraction =
      d.year.chars ++ '-' :: (d.month.chars ++ '-' :: (d.mday.chars ++ d.letter.val ::
        (d.hour.chars ++ ':' :: (d.minute.chars ++
          ':' :: (d.second.chars ++ d.offset.text))))) := by
    simp [DateTimeText.withoutFraction, DateTimeText.text]
  rw [hvalue, htext, DateTimeText.Capital, ← offsetValue_header unset d]
  simp only [append_cancel_left_eq, List.cons.injEq, true_and]
  rw [eq_comm (a := 'T')]

/-- What the header adds for an offset. -/
def TimeOffset.shift : TimeOffset → Int
  | .zulu _ => 0
  | .num .plus hour minute => 3600 * hour.value + 60 * minute.value
  | .num .minus hour minute => -(3600 * (hour.value + minute.value))

/-- The offset is nothing. -/
def TimeOffset.IsZero : TimeOffset → Prop
  | .zulu _ => True
  | .num _ hour minute => hour.value = 0 ∧ minute.value = 0

theorem shift_eq_neg_seconds_iff (offset : TimeOffset) :
    offset.shift = -offset.seconds ↔ offset.IsZero := by
  cases offset with
  | zulu letter => exact ⟨fun _ => trivial, fun _ => rfl⟩
  | num sign hour minute =>
    cases sign with
    | plus =>
      simp only [TimeOffset.shift, TimeOffset.seconds, TimeOffset.IsZero]
      omega
    | minus =>
      simp only [TimeOffset.shift, TimeOffset.seconds, TimeOffset.IsZero]
      omega

theorem shift_header (unset : Tm) (d : DateTimeText) : (d.header unset).shift = d.offset.shift := by
  cases hoffset : d.offset with
  | zulu letter =>
    simp only [shift, DateTimeText.header, DateTimeText.collect, hoffset]
    rfl
  | num sign hour minute =>
    simp only [shift, DateTimeText.header, DateTimeText.collect, hoffset,
      collect_num]
    cases sign <;> rfl

theorem seconds_header (unset : Tm) (d : DateTimeText) (h1 : 1 ≤ d.month.value)
    (h12 : d.month.value ≤ 12) : (d.header unset).seconds = d.localSeconds := by
  have hindex : (((d.month.value : Int) - 1) % 12).toNat = d.monthIndex := by
    unfold DateTimeText.monthIndex
    omega
  have hyear : (d.year.value : Int) - 1900 + 1900 + ((d.month.value : Int) - 1) / 12 =
      d.year.value := by
    omega
  simp only [seconds, DateTimeText.header, time_collect, timegm, Tm.clock, hindex,
    hyear, DateTimeText.localSeconds]
  omega

/-- The instant survives: there is no offset and `mktime` gives nothing that looks like its
failure, or the one before the epoch is meant. -/
def DateTimeText.TimeKept (d : DateTimeText) : Prop :=
  (d.localSeconds + d.offset.shift + timezone = -1 ∧ d.instant = -1) ∨
    (d.localSeconds + d.offset.shift + timezone ≠ -1 ∧ d.offset.IsZero)

theorem getTime_header (unset : Tm) (d : DateTimeText) (h1 : 1 ≤ d.month.value)
    (h12 : d.month.value ≤ 12) :
    (d.header unset).getTime timezone = d.instant ↔ d.TimeKept timezone := by
  rw [getTime_eq, seconds_header unset d h1 h12, shift_header, DateTimeText.TimeKept,
    ← shift_eq_neg_seconds_iff]
  have hinstant : d.instant = d.localSeconds - d.offset.seconds := rfl
  split
  · omega
  · omega

/-! ## Texts and times -/

/-- What is asked for a text: it is accepted if and only if it denotes an instant, and then it is
printed back and its time is that instant. -/
def DateTimeText.Right (unset : Tm) (d : DateTimeText) : Prop :=
  ∃ header?, (d.collect unset).createHeader = .ok header? ∧ (header?.isSome = true ↔ d.Denotes) ∧
    ∀ header ∈ header?, header.getValue = d.withoutFraction ∧ header.getTime timezone = d.instant

/-- The texts that are handled as asked: none of a thirteenth month, and of those that exist, with
hours in range, the ones judged rightly and kept. -/
structure DateTimeText.Handled (timezone : Int) (d : DateTimeText) : Prop where
  not_thirteen : ¬(d.month.value = 13 ∧ 1 ≤ d.mday.value)
  kept : d.DateExists → d.ClockInRange → d.offset.HoursInRange → d.offset.MinutesInRange →
    ¬ Misjudged d.year.value d.monthIndex d.mday.value ∧ d.Capital ∧ d.TimeKept timezone
  refused : d.DateExists → d.ClockInRange → d.offset.HoursInRange → ¬ d.offset.MinutesInRange →
    Misjudged d.year.value d.monthIndex d.mday.value

open DateTimeText

theorem clockAccepted_collect (unset : Tm) (d : DateTimeText) :
    (d.collect unset).ClockAccepted ↔ d.ClockInRange ∧ d.offset.HoursInRange := by
  have htime : (d.collect unset).time.tmHour ≤ 24 ∧ (d.collect unset).time.tmMin ≤ 59 ∧
      (d.collect unset).time.tmSec ≤ 60 ↔ d.ClockInRange := by
    simp only [time_collect, ClockInRange]
    omega
  have hoffset : ((d.collect unset).signOffset = ['Z'] ∨ (d.collect unset).timeOffset.tmHour ≤ 24) ↔
      d.offset.HoursInRange := by
    cases hoffset : d.offset with
    | zulu letter =>
      simp [collect, hoffset, TimeOffset.collect, DateTimeOffsetNode.new, TimeOffset.HoursInRange]
    | num sign hour minute =>
      simp only [collect, hoffset, collect_num, TimeOffset.HoursInRange,
        sign.text_ne, false_or]
      omega
  rw [← htime, ← hoffset]
  simp only [ClockAccepted, and_assoc]

theorem createHeader_of_isValid {valid : Bool} (h : (d.collect unset).isValid = .ok valid) :
    (d.collect unset).createHeader =
      .ok (if valid = true then some (d.header unset) else none) := by
  unfold createHeader
  rw [h]
  cases valid <;> rfl

theorem right_iff_of_month {timezone : Int} (hmonth : ¬(1 ≤ d.month.value ∧ d.month.value ≤ 12)) :
    d.Right timezone unset ↔ d.Handled timezone := by
  have hnot : ¬ d.DateExists := fun h => hmonth ⟨h.1, h.2.1⟩
  have hmon : (d.collect unset).time.tmMon = d.month.value - 1 := by rw [time_collect]
  have hmday : (d.collect unset).time.tmMday = d.mday.value := by rw [time_collect]
  by_cases hthirteen : d.month.value = 13 ∧ 1 ≤ d.mday.value
  · constructor
    · rintro ⟨header?, hcreate, -⟩
      have hfault := isValid_thirteen (d.collect unset) (by omega) (by omega)
      rw [createHeader, hfault] at hcreate
      cases hcreate
    · intro h
      exact absurd hthirteen h.not_thirteen
  · have hvalid := isValid_out_of_range (d.collect unset) (by omega)
    refine ⟨fun _ => ⟨hthirteen, fun h => absurd h hnot, fun h => absurd h hnot⟩, fun _ => ?_⟩
    refine ⟨none, createHeader_of_isValid hvalid, ?_, fun header h => ?_⟩
    · simp [Denotes, hnot]
    · cases h

theorem right_iff_of_month_le {timezone : Int} (h1 : 1 ≤ d.month.value)
    (h12 : d.month.value ≤ 12) : d.Right timezone unset ↔ d.Handled timezone := by
  have hindex : d.monthIndex < 12 := by
    unfold monthIndex
    omega
  obtain ⟨valid, hvalid, hiff⟩ := isValid_of_lt (d.collect unset) hindex (by
    rw [time_collect, monthIndex]
    show (d.month.value : Int) - 1 = _
    omega)
  have hdate : DateAccepted (d.collect unset).time.tmYear d.monthIndex
      (d.collect unset).time.tmMday ↔
      d.DateExists ∧ ¬ Misjudged d.year.value d.monthIndex d.mday.value := by
    rw [time_collect, DateAccepted, DateExists]
    dsimp only
    constructor
    · rintro ⟨hday, hlength, hmis⟩
      exact ⟨⟨h1, h12, by omega, hlength⟩, hmis⟩
    · rintro ⟨⟨-, -, hday, hlength⟩, hmis⟩
      exact ⟨by omega, hlength, hmis⟩
  rw [hdate, clockAccepted_collect] at hiff
  have hcreate := createHeader_of_isValid hvalid
  have hright : d.Right timezone unset ↔ (valid = true ↔ d.Denotes) ∧
      (valid = true → d.Capital ∧ d.TimeKept timezone) := by
    rw [← getValue_header unset d, ← getTime_header timezone unset d h1 h12]
    constructor
    · rintro ⟨header?, hheader, hsome, hkept⟩
      rw [hcreate] at hheader
      cases hheader
      cases valid with
      | true => exact ⟨by simpa using hsome, fun _ => hkept _ rfl⟩
      | false => exact ⟨by simpa using hsome, fun h => (nomatch h)⟩
    · rintro ⟨hsome, hkept⟩
      refine ⟨_, hcreate, ?_, ?_⟩
      · cases valid <;> simpa using hsome
      · cases valid with
        | true =>
          rintro header ⟨⟩
          exact hkept rfl
        | false => exact fun header h => (nomatch h)
  rw [hright, Denotes]
  have hthirteen : ¬(d.month.value = 13 ∧ 1 ≤ d.mday.value) := by omega
  constructor
  · rintro ⟨hdenotes, hkept⟩
    refine ⟨hthirteen, fun hexists hclock hhours hminutes => ?_,
      fun hexists hclock hhours hminutes => Classical.byContradiction fun hmis => ?_⟩
    · have hv : valid = true := hdenotes.mpr ⟨hexists, hclock, hhours, hminutes⟩
      exact ⟨(hiff.mp hv).1.2, hkept hv⟩
    · have hv : valid = true := hiff.mpr ⟨⟨hexists, hmis⟩, hclock, hhours⟩
      exact hminutes (hdenotes.mp hv).2.2.2
  · rintro ⟨-, hkept, hrefused⟩
    have hminutes (hv : valid = true) : d.offset.MinutesInRange := by
      obtain ⟨⟨hexists, hmis⟩, hclock, hhours⟩ := hiff.mp hv
      exact Classical.byContradiction fun h => hmis (hrefused hexists hclock hhours h)
    refine ⟨⟨fun hv => ?_, fun h => ?_⟩, fun hv => ?_⟩
    · obtain ⟨⟨hexists, -⟩, hclock, hhours⟩ := hiff.mp hv
      exact ⟨hexists, hclock, hhours, hminutes hv⟩
    · obtain ⟨hexists, hclock, hhours, hmin⟩ := h
      exact hiff.mpr ⟨⟨hexists, (hkept hexists hclock hhours hmin).1⟩, hclock, hhours⟩
    · obtain ⟨⟨hexists, -⟩, hclock, hhours⟩ := hiff.mp hv
      exact (hkept hexists hclock hhours (hminutes hv)).2

/-- What is asked for a time: its header is taken into any message, and gives the time back. -/
def TimeRight (unset : Tm) (time : Int) : Prop :=
  (∀ messageHeaders ns, ∃ messageHeaders',
    addMessageHeader messageHeaders (ofTime unset time) ns =
      .ok (true, messageHeaders')) ∧
  (ofTime unset time).getTime timezone = time

/-- The times that are handled as asked. -/
structure TimeHandled (timezone time : Int) : Prop where
  judged : ¬ Misjudged (ofNumber (time / 86400)).year (ofNumber (time / 86400)).month
    (ofNumber (time / 86400)).day
  told : time + timezone = -1 → time = -1

theorem timeRight_iff (unset : Tm) (time : Int) :
    TimeRight timezone unset time ↔ TimeHandled timezone time := by
  set date := ofNumber (time / 86400) with hdate
  set header := ofTime unset time with hheader
  let node : DateTimeHeaderNode := ⟨header.dateTime, header.dateTimeOffset, header.signOffset⟩
  have hshift : header.shift = 0 := rfl
  have hyear : node.time.tmYear = date.year := Int.sub_add_cancel _ _
  have hclock : node.ClockAccepted := by
    refine ⟨?_, ?_, ?_, .inl rfl⟩
    · show time % 86400 / 3600 ≤ 24
      omega
    · show time % 86400 % 3600 / 60 ≤ 59
      omega
    · show time % 86400 % 60 ≤ 60
      omega
  obtain ⟨valid, hvalid, hiff⟩ := isValid_of_lt node date.month_lt rfl
  have hday : node.time.tmMday = date.day := rfl
  rw [hyear, hday] at hiff
  have haccepted : valid = true ↔ ¬ Misjudged date.year date.month date.day := by
    rw [hiff, DateAccepted]
    have := date.one_le_day
    have := date.day_le
    tauto
  have htime : header.getTime timezone = time ↔ (time + timezone = -1 → time = -1) := by
    rw [getTime_eq, hshift, Int.add_zero, seconds_ofTime]
    split
    · next h =>
      rw [eq_comm]
      exact ⟨fun h' _ => h', fun h' => h' h⟩
    · next h => exact ⟨fun _ h' => absurd h' h, fun _ => rfl⟩
  have hadd : (∀ messageHeaders ns, ∃ messageHeaders',
      addMessageHeader messageHeaders header ns = .ok (true, messageHeaders')) ↔ valid = true := by
    have hclone : cloneHeader header = .ok (if valid = true then some header else none) := by
      show node.createHeader = _
      unfold createHeader
      rw [hvalid]
      cases valid <;> rfl
    constructor
    · intro h
      obtain ⟨messageHeaders', hok⟩ := h (fun _ => none) []
      rw [addMessageHeader, hclone] at hok
      cases valid with
      | true => rfl
      | false => cases hok
    · rintro rfl messageHeaders ns
      refine ⟨Function.update messageHeaders ns
        (some ((messageHeaders ns).getD [] ++ [header])), ?_⟩
      rw [addMessageHeader, hclone]
      rfl
  constructor
  · rintro ⟨hright, hkept⟩
    exact ⟨haccepted.mp (hadd.mp hright), htime.mp hkept⟩
  · rintro ⟨hjudged, htold⟩
    exact ⟨hadd.mpr (haccepted.mpr hjudged), htime.mpr htold⟩

/-- The time lies in a year of four digits. -/
def InFourDigitYears (time : Int) : Prop :=
  0 ≤ (ofNumber (time / 86400)).year ∧ (ofNumber (time / 86400)).year ≤ 9999

/-- Which texts and which times the DateTime header handles as asked. -/
theorem dateTime_right_iff (unset : Tm) :
    (∀ d : DateTimeText, d.Right timezone unset ↔ d.Handled timezone) ∧
      ∀ time, InFourDigitYears time →
        (TimeRight timezone unset time ↔ TimeHandled timezone time) := by
  refine ⟨fun d => ?_, fun time _ => timeRight_iff timezone unset time⟩
  by_cases hmonth : 1 ≤ d.month.value ∧ d.month.value ≤ 12
  · exact right_iff_of_month_le hmonth.1 hmonth.2
  · exact right_iff_of_month hmonth

/-- The thirteenth of December 2000, 05:40:00 UTC, comes back. -/
theorem dateTime_right_december : TimeRight 0 Tm.zero 976686000 :=
  ((dateTime_right_iff 0 Tm.zero).2 976686000 (by unfold InFourDigitYears; decide +kernel)).mpr
    ⟨by unfold Misjudged; decide +kernel, by decide⟩

/-- The text `2000-01-15T12:00:00Z`. -/
def januaryText : DateTimeText where
  year := ⟨['2', '0', '0', '0'], rfl, by simp⟩
  month := ⟨['0', '1'], rfl, by simp⟩
  mday := ⟨['1', '5'], rfl, by simp⟩
  letter := ⟨'T', rfl⟩
  hour := ⟨['1', '2'], rfl, by simp⟩
  minute := ⟨['0', '0'], rfl, by simp⟩
  second := ⟨['0', '0'], rfl, by simp⟩
  fraction := none
  offset := .zulu ⟨'Z', rfl⟩

/-- A date in January is refused, and so is the epoch. -/
theorem january_refused : ¬ januaryText.Right 0 Tm.zero ∧ ¬ TimeRight 0 Tm.zero 0 := by
  constructor
  · rintro ⟨header?, hcreate, hsome, -⟩
    cases hcreate
    have hdenotes : januaryText.Denotes :=
      ⟨⟨by decide, by decide, by decide, by decide⟩, ⟨by decide, by decide, by decide⟩, trivial,
        trivial⟩
    exact absurd (hsome.mpr hdenotes) (by decide)
  · rintro ⟨hadd, -⟩
    obtain ⟨messageHeaders', hok⟩ := hadd (fun _ => none) []
    cases hok

end GrooveIp.Cpim
