import Mathlib.Data.List.Range
import Mathlib.Tactic.Common

/-!
# The CRTC

`CCrtc.cpp`: a beam that goes round lines of 1280 pixels and frames of 448 lines. Where a line ends it sends an HBlank,
and at two of the lines the end and the start of the vertical blank.

The beam starts in the middle of a line and of a frame, so that the first HBlank comes after 640 ticks and the first
vertical blank after 224 lines. From then on every signal comes at its own period, and starts and ends of the vertical
blank take turns.
-/

namespace Orbum

/-- What the CRTC sends. -/
inductive CrtcSignal where
  /-- An HBlank event, to the timers. -/
  | hBlank
  /-- The end of the vertical blank, to the INTCs. -/
  | vBlankEnd
  /-- The start of the vertical blank, to the INTCs. -/
  | vBlankStart
  deriving DecidableEq

/-- What `time_step` keeps, the `int`s `col` and `row`. -/
structure Crtc where
  /-- `col`. -/
  col : ℤ
  /-- `row`. -/
  row : ℤ
  deriving DecidableEq

namespace Crtc

/-- Before the first step. -/
def initial : Crtc := ⟨0, 0⟩

/-- `time_step(ticks_available)`, with what it sends. -/
def timeStep (c : Crtc) : List CrtcSignal × Crtc :=
  let col := c.col + 1
  if 639 < col then
    let sent : List CrtcSignal := .hBlank :: if c.row = -1 then [.vBlankEnd] else []
    let row := c.row + 1
    if 223 < row then (sent ++ [.vBlankStart], ⟨-640, -224⟩) else (sent, ⟨-640, row⟩)
  else ([], ⟨col, c.row⟩)

/-- `handle_event` for a time event of some ticks, with what is sent. -/
def handleTicks : ℕ → Crtc → List CrtcSignal × Crtc
  | 0, c => ([], c)
  | n + 1, c => ((handleTicks n c).1 ++ (handleTicks n c).2.timeStep.1, (handleTicks n c).2.timeStep.2)

/-! ### The raster -/

/-- The lines that have ended after some ticks. -/
def lines (n : ℕ) : ℕ := (n + 640) / 1280

/-- Where the beam is after some ticks. -/
def beam (n : ℕ) : Crtc := ⟨((n + 640) % 1280 : ℕ) - 640, ((lines n + 224) % 448 : ℕ) - 224⟩

/-- The blanks among the signals, by their number. -/
def vBlank (i : ℕ) : CrtcSignal := if i % 2 = 0 then .vBlankStart else .vBlankEnd

/-- What the step after some ticks sends. -/
def sentAt (n : ℕ) : List CrtcSignal :=
  if lines (n + 1) = lines n then []
  else .hBlank :: if lines (n + 1) % 224 = 0 then [vBlank (lines n / 224)] else []

theorem beam_zero : beam 0 = initial := by
  simp [beam, lines, initial]

/-- A line goes on, or the next one begins. -/
theorem lines_succ (n : ℕ) :
    lines (n + 1) = lines n ∧ (n + 1 + 640) % 1280 = (n + 640) % 1280 + 1 ∨
      lines (n + 1) = lines n + 1 ∧ (n + 640) % 1280 = 1279 ∧ (n + 1 + 640) % 1280 = 0 := by
  unfold lines
  omega

/-- The beam goes round. -/
theorem timeStep_beam (n : ℕ) : (beam n).timeStep = (sentAt n, beam (n + 1)) := by
  have hcol := Nat.mod_lt (n + 640) (show 0 < 1280 by decide)
  obtain ⟨hlines, hnext⟩ | ⟨hlines, hlast, hnext⟩ := lines_succ n
  · have hno : ¬639 < (((n + 640) % 1280 : ℕ) - 640 : ℤ) + 1 := by omega
    rw [timeStep, beam, if_neg hno, sentAt, if_pos hlines, beam, hlines]
    simp only [Prod.mk.injEq, Crtc.mk.injEq, true_and, and_true]
    omega
  · have hyes : 639 < (((n + 640) % 1280 : ℕ) - 640 : ℤ) + 1 := by omega
    have hrow := Nat.mod_lt (lines n + 224) (show 0 < 448 by decide)
    have hne : ¬lines n + 1 = lines n := by omega
    rw [timeStep, beam, if_pos hyes, sentAt, beam, hlines, if_neg hne, hnext, vBlank]
    dsimp only
    by_cases hstart : (lines n + 224) % 448 = 447
    · have h1 : ¬((lines n + 224) % 448 : ℕ) - 224 = (-1 : ℤ) := by omega
      have h2 : 223 < (((lines n + 224) % 448 : ℕ) - 224 : ℤ) + 1 := by omega
      rw [if_neg h1, if_pos h2, if_pos (by omega), if_pos (by omega)]
      simp only [Prod.mk.injEq, Crtc.mk.injEq]
      exact ⟨rfl, by omega, by omega⟩
    · have h2 : ¬223 < (((lines n + 224) % 448 : ℕ) - 224 : ℤ) + 1 := by omega
      rw [if_neg h2]
      by_cases hend : (lines n + 224) % 448 = 223
      · have h1 : ((lines n + 224) % 448 : ℕ) - 224 = (-1 : ℤ) := by omega
        rw [if_pos h1, if_pos (by omega), if_neg (by omega)]
        simp only [Prod.mk.injEq, Crtc.mk.injEq, true_and]
        exact ⟨by omega, by omega⟩
      · have h1 : ¬((lines n + 224) % 448 : ℕ) - 224 = (-1 : ℤ) := by omega
        rw [if_neg h1, if_neg (by omega)]
        simp only [Prod.mk.injEq, Crtc.mk.injEq, true_and]
        exact ⟨by omega, by omega⟩

/-- The blanks that a step sends are the next ones, and there is an HBlank where a line ends. -/
theorem sentAt_eq (n : ℕ) :
    (sentAt n).count .hBlank = lines (n + 1) - lines n ∧
      (List.range (lines n / 224)).map vBlank ++ (sentAt n).filter (· ≠ .hBlank) =
        (List.range (lines (n + 1) / 224)).map vBlank := by
  have hblank (i : ℕ) : vBlank i ≠ .hBlank := by
    unfold vBlank
    split_ifs <;> decide
  obtain ⟨hlines, -⟩ | ⟨hlines, -, -⟩ := lines_succ n
  · rw [sentAt, if_pos hlines, hlines]
    simp
  · rw [sentAt, if_neg (by omega)]
    by_cases hv : lines (n + 1) % 224 = 0
    · have hdiv : lines (n + 1) / 224 = lines n / 224 + 1 := by omega
      rw [if_pos hv, hdiv, List.range_succ, List.map_append]
      simp [hblank, hlines]
    · have hdiv : lines (n + 1) / 224 = lines n / 224 := by omega
      rw [if_neg hv, hdiv]
      simp [hlines]

/-- Where the beam is after some ticks in one go, and what they have sent: an HBlank for each line that has ended, and a
start of the vertical blank and an end in turn, one for every 224 of them. -/
theorem handleTicks_initial (n : ℕ) :
    (handleTicks n initial).2 = ⟨((n + 640) % 1280 : ℕ) - 640, ((lines n + 224) % 448 : ℕ) - 224⟩ ∧
      (handleTicks n initial).1.count .hBlank = lines n ∧
      (handleTicks n initial).1.filter (· ≠ .hBlank) = (List.range (lines n / 224)).map vBlank := by
  induction n with
  | zero => exact ⟨beam_zero.symm, rfl, rfl⟩
  | succ n ih =>
    obtain ⟨hbeam, hcount, hfilter⟩ := ih
    have hstep : (handleTicks n initial).2.timeStep = (sentAt n, beam (n + 1)) := by
      rw [hbeam]
      exact timeStep_beam n
    have hmono : lines n ≤ lines (n + 1) := by
      unfold lines
      omega
    rw [handleTicks, hstep]
    refine ⟨rfl, ?_, ?_⟩
    · rw [List.count_append, hcount, (sentAt_eq n).1]
      omega
    · rw [List.filter_append, hfilter, (sentAt_eq n).2]

end Crtc

end Orbum
