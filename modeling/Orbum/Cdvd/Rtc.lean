import Mathlib.Algebra.Order.Floor.Semiring
import Mathlib.Data.NNRat.Defs
import Mathlib.Data.Rat.Floor
import Mathlib.Tactic.Linarith
import Orbum.Common.Primitive
import Orbum.Lib.Run

/-!
# The real time clock of the CDVD

`Resources/Cdvd/CdvdRtc.cpp`: `increment` counts microseconds, and a second whenever more than 10⁶ of them have come
together. No field goes back to 0 when the next one is counted up, and a call counts one second at most.

## What is proved

`keepsTime_iff`: over any calls the clock shows the time that has passed just if no call leaves more than a second behind
and no minute is completed.

The doubles of the code are rationals here.
-/

namespace Orbum

/-- `CdvdRtc`. -/
structure CdvdRtc where
  /-- `second`. -/
  second : Ubyte
  /-- `minute`. -/
  minute : Ubyte
  /-- `hour`. -/
  hour : Ubyte
  /-- `day`. -/
  day : Ubyte
  /-- `month`. -/
  month : Ubyte
  /-- `year`. -/
  year : Ubyte
  /-- `microseconds`. -/
  microseconds : ℚ

namespace CdvdRtc

/-- `CdvdRtc()`, which leaves the microseconds alone: they are 0 here. -/
def initial : CdvdRtc := ⟨0, 0, 0, 4, 11, 2, 0⟩

variable (r : CdvdRtc)

/-- `increment(time_us)`. -/
def increment (timeUs : ℚ≥0) : CdvdRtc :=
  let microseconds := r.microseconds + timeUs
  if 10 ^ 6 < microseconds then
    let second := r.second + 1
    let minute := if 60 ≤ second then r.minute + 1 else r.minute
    let hour := if 60 ≤ minute then r.hour + 1 else r.hour
    let day := if 24 ≤ hour then r.day + 1 else r.day
    -- every month has 25 days
    let month := if 25 ≤ day then r.month + 1 else r.month
    let year := if 13 ≤ month then r.year + 1 else r.year
    ⟨second, minute, hour, day, month, year, microseconds - 10 ^ 6⟩
  else { r with microseconds }

/-- The fields are a date and a time of the calendar of 25 days a month. -/
structure Valid : Prop where
  /-- The seconds of a minute. -/
  second_lt : r.second < 60
  /-- The minutes of an hour. -/
  minute_lt : r.minute < 60
  /-- The hours of a day. -/
  hour_lt : r.hour < 24
  /-- The days of a month. -/
  day_lt : r.day < 25
  /-- The first month. -/
  month_pos : 1 ≤ r.month
  /-- The last month. -/
  month_lt : r.month < 13

/-- The seconds up to the date and time of the fields. -/
def seconds : ℕ :=
  r.second.toNat +
    60 * (r.minute.toNat +
      60 * (r.hour.toNat + 24 * (r.day.toNat + 25 * (r.month.toNat - 1 + 12 * r.year.toNat))))

/-- The clock shows the date and time of the start and `elapsed` microseconds. At a whole second it may be that second
late. -/
def KeepsTime (start : CdvdRtc) (elapsed : ℚ) : Prop :=
  r.Valid ∧ ∃ n : ℕ, (n = ⌊elapsed / 10 ^ 6⌋₊ ∨ elapsed = (n + 1) * 10 ^ 6) ∧ r.seconds = start.seconds + n

/-- A call that has to count no second, or has to count one that does not complete a minute. -/
def CountsOnce (timeUs : ℚ≥0) : Prop :=
  r.microseconds + timeUs ≤ 10 ^ 6 ∨ r.microseconds + timeUs ≤ 2 * 10 ^ 6 ∧ r.second < 59

/-! ### Calls -/

/-- A clock and the time since it was started. -/
structure Timed where
  /-- The clock. -/
  rtc : CdvdRtc
  /-- The microseconds of all calls. -/
  elapsed : ℚ

/-- `handle_rtc_increment(time_us)`. -/
def step (timeUs : ℚ≥0) (s : Timed) : Except HostError Timed := .ok ⟨s.rtc.increment timeUs, s.elapsed + timeUs⟩

/-- The clock keeps the time of every call. -/
def AlwaysKeepsTime (start : CdvdRtc) (ts : List ℚ≥0) : Prop :=
  Run.Always step (fun t s => (s.rtc.increment t).KeepsTime start (s.elapsed + t)) ts ⟨start, 0⟩

/-- Every call has at most one second to count, and completes no minute. -/
def AlwaysCountsOnce (start : CdvdRtc) (ts : List ℚ≥0) : Prop :=
  Run.Always step (fun t s => s.rtc.CountsOnce t) ts ⟨start, 0⟩

/-- What holds as long as no second has been missed: a second is left over at most. -/
def InTime (start : CdvdRtc) (s : Timed) : Prop :=
  s.rtc.Valid ∧ ∃ n : ℕ, s.rtc.seconds = start.seconds + n ∧ (s.elapsed : ℚ) = n * 10 ^ 6 + s.rtc.microseconds ∧
    0 ≤ s.rtc.microseconds ∧ s.rtc.microseconds ≤ 10 ^ 6

variable {r} {start : CdvdRtc} {t : ℚ≥0}

/-- The whole seconds of a time, the one that is just over counted or not. -/
theorem wholeSeconds_iff {elapsed : ℚ} (h : 0 ≤ elapsed) (n : ℕ) :
    (n = ⌊elapsed / 10 ^ 6⌋₊ ∨ elapsed = (n + 1) * 10 ^ 6) ↔ n * 10 ^ 6 ≤ elapsed ∧ elapsed ≤ (n + 1) * 10 ^ 6 := by
  have hpos : (0 : ℚ) < 10 ^ 6 := by norm_num
  have hfloor : n = ⌊elapsed / 10 ^ 6⌋₊ ↔ n * 10 ^ 6 ≤ elapsed ∧ elapsed < (n + 1) * 10 ^ 6 := by
    rw [eq_comm, Nat.floor_eq_iff (div_nonneg h hpos.le), le_div_iff₀ hpos, div_lt_iff₀ hpos]
  rw [hfloor]
  constructor
  · rintro (⟨hlow, hhigh⟩ | h)
    · exact ⟨hlow, hhigh.le⟩
    · exact ⟨by linarith, h.le⟩
  · rintro ⟨hlow, hhigh⟩
    exact hhigh.lt_or_eq.imp (⟨hlow, ·⟩) id

theorem increment_of_le (h : r.microseconds + t ≤ 10 ^ 6) :
    r.increment t = { r with microseconds := r.microseconds + t } := if_neg h.not_gt

/-- A second that does not complete a minute. -/
theorem increment_of_second_lt (hr : r.Valid) (hsecond : r.second < 59) (h : 10 ^ 6 < r.microseconds + t) :
    r.increment t = { r with second := r.second + 1, microseconds := r.microseconds + t - 10 ^ 6 } := by
  have hs : ¬60 ≤ r.second + 1 := by bv_omega
  have hm : ¬60 ≤ r.minute := BitVec.not_le.mpr hr.minute_lt
  have hh : ¬24 ≤ r.hour := BitVec.not_le.mpr hr.hour_lt
  have hd : ¬25 ≤ r.day := BitVec.not_le.mpr hr.day_lt
  have hmonth : ¬13 ≤ r.month := BitVec.not_le.mpr hr.month_lt
  dsimp only [increment]
  simp only [if_pos h, if_neg hs, if_neg hm, if_neg hh, if_neg hd, if_neg hmonth]

theorem increment_second (h : 10 ^ 6 < r.microseconds + t) : (r.increment t).second = r.second + 1 := by
  dsimp only [increment]
  rw [if_pos h]

theorem seconds_increment (hr : r.Valid) (hsecond : r.second < 59) (h : 10 ^ 6 < r.microseconds + t) :
    (r.increment t).seconds = r.seconds + 1 := by
  have hcount : (r.second + 1).toNat = r.second.toNat + 1 := by bv_omega
  rw [increment_of_second_lt hr hsecond h, seconds, seconds, hcount]
  exact Nat.add_right_comm ..

/-- A call that has at most one second to count stays in time. -/
theorem InTime.step {s s' : Timed} (h : InTime start s) (hcounts : s.rtc.CountsOnce t)
    (hstep : step t s = .ok s') : InTime start s' := by
  obtain rfl := Except.ok.inj hstep
  obtain ⟨hr, n, hn, helapsed, hnonneg, hle⟩ := h
  have ht : (0 : ℚ) ≤ t := t.2
  by_cases hlate : 10 ^ 6 < s.rtc.microseconds + t
  · obtain ⟨hsmall, hsecond⟩ := hcounts.resolve_left hlate.not_ge
    have hs : s.rtc.second + 1 < 60 := by bv_omega
    have hseconds := seconds_increment hr hsecond hlate
    rw [increment_of_second_lt hr hsecond hlate] at hseconds ⊢
    refine ⟨⟨hs, hr.minute_lt, hr.hour_lt, hr.day_lt, hr.month_pos, hr.month_lt⟩, n + 1, ?_, ?_, ?_, ?_⟩
    · rw [hseconds, hn, Nat.add_assoc]
    · push_cast
      linarith
    · linarith
    · linarith
  · have hle' : s.rtc.microseconds + t ≤ 10 ^ 6 := not_lt.mp hlate
    rw [increment_of_le hle']
    refine ⟨⟨hr.second_lt, hr.minute_lt, hr.hour_lt, hr.day_lt, hr.month_pos, hr.month_lt⟩, n, hn, ?_, ?_, hle'⟩
    · linarith
    · linarith

theorem inTime_start (h : start.Valid) (hμ : start.microseconds = 0) : InTime start ⟨start, 0⟩ := by
  refine ⟨h, 0, rfl, ?_, hμ.ge, ?_⟩
  · rw [hμ]
    norm_num
  · rw [hμ]
    norm_num

theorem InTime.elapsed_nonneg {s : Timed} (h : InTime start s) : 0 ≤ s.elapsed := by
  obtain ⟨-, n, -, helapsed, hnonneg, -⟩ := h
  rw [helapsed]
  positivity

/-- Up to now in time, the clock is right after a call just if that had at most one second to count. -/
theorem InTime.keepsTime_iff {s : Timed} (h : InTime start s) (t : ℚ≥0) :
    (s.rtc.increment t).KeepsTime start (s.elapsed + t) ↔ s.rtc.CountsOnce t := by
  have ht : (0 : ℚ) ≤ t := t.2
  constructor
  · rintro ⟨hvalid, m, hm, hseconds⟩
    by_cases hlate : 10 ^ 6 < s.rtc.microseconds + t
    · have hnonneg := h.elapsed_nonneg
      obtain ⟨hr, n, hn, helapsed, -⟩ := h
      -- second 59 is followed by 60, which is none
      have hsecond : s.rtc.second < 59 := by
        have hlt := hvalid.second_lt
        rw [increment_second hlate] at hlt
        have := hr.second_lt
        bv_omega
      have hmn : m = n + 1 := by
        rw [seconds_increment hr hsecond hlate, hn] at hseconds
        omega
      have hhigh := ((wholeSeconds_iff (by linarith) m).mp hm).2
      rw [hmn, helapsed] at hhigh
      push_cast at hhigh
      exact .inr ⟨by linarith, hsecond⟩
    · exact .inl (not_lt.mp hlate)
  · intro hcounts
    have hnext : InTime start ⟨s.rtc.increment t, s.elapsed + t⟩ := h.step hcounts rfl
    obtain ⟨hr, n, hn, helapsed, hnonneg, hle⟩ := hnext
    refine ⟨hr, n, (wholeSeconds_iff (by linarith [h.elapsed_nonneg]) n).mpr ⟨?_, ?_⟩, hn⟩
    · linarith
    · linarith

/-- Over any calls the clock keeps the time just if each of them has at most one second to count and none completes a
minute. -/
theorem alwaysKeepsTime_iff (start : CdvdRtc) (hstart : start.Valid) (hμ : start.microseconds = 0) (ts : List ℚ≥0) :
    start.AlwaysKeepsTime ts ↔ start.AlwaysCountsOnce ts := by
  exact Run.always_iff_of_keeps (fun _ _ _ h hcounts hstep => h.step hcounts hstep) (fun t _ h => h.keepsTime_iff t)
    (inTime_start hstart hμ)

/-- Two calls of 0.75 s. -/
theorem initial_alwaysKeepsTime : initial.AlwaysKeepsTime [750000, 750000] := by
  refine (alwaysKeepsTime_iff initial (by constructor <;> decide) rfl [750000, 750000]).mpr ⟨?_, fun s hs => ⟨?_, ?_⟩⟩
  · left
    norm_num [initial]
  · obtain rfl := Except.ok.inj hs
    right
    rw [increment_of_le (by norm_num [initial])]
    exact ⟨by norm_num [initial], by decide⟩
  · exact fun _ _ => trivial

/-- Of one call of 3 s only one second is counted. -/
theorem initial_not_alwaysKeepsTime :
    ¬∀ start : CdvdRtc, start.Valid → start.microseconds = 0 → ∀ ts, start.AlwaysKeepsTime ts := by
  intro h
  have hin : InTime initial ⟨initial, 0⟩ := inTime_start (by constructor <;> decide) rfl
  have hcounts := (hin.keepsTime_iff 3000000).mp (h initial hin.1 rfl [3000000]).1
  unfold CountsOnce at hcounts
  norm_num [initial] at hcounts

end CdvdRtc

end Orbum
