import Mathlib.Data.Finset.Max
import Mathlib.Data.Set.Card
import LivefireRag.Lib.Intervals
import LivefireRag.Lib.Ranking
import LivefireRag.Builder.TaskReports

/-!
# The time a run was active

Tasks of a run overlap, nest and pause. `executionTimeBounds` sorts the intervals of
the task reports and sweeps them once, adding up the milliseconds in which some task
was running; the calendar span is taken from the first start to the last finish.

The sweep is the general one on half-open intervals, with checked arithmetic. On
ordered intervals the checks never fail (`closeSegment_eq`, `sweepIntervals_eq_ok`),
and what the function returns is a function of three numbers, the measure of the union,
the first start and the last finish, and of two fallbacks (`executionTimeBounds_eq_ok`).
-/

namespace LivefireRag.Builder

open Fallible Machine Ranking Intervals

/-! ### The computation -/

def BuilderEmbeddingTaskReport.interval (report : BuilderEmbeddingTaskReport) :
    Option (ℕ × ℕ) := do
  let start ← report.startedUnixMs
  let finish ← report.finishedUnixMs
  return (start, finish)

/-- The closed measure with the open segment added. -/
def closeSegment (state : Sweep) : Result ℕ := do
  let elapsed ← orThrow (checkedSub state.finish state.start) .countOverflow
  orThrow (checkedAdd 64 state.closed elapsed) .countOverflow

def sweepInterval (state : Sweep) (interval : ℕ × ℕ) : Result Sweep := do
  if interval.1 ≤ state.finish then
    return { state with finish := max state.finish interval.2 }
  else
    let closed ← closeSegment state
    return ⟨closed, interval.1, interval.2⟩

/-- The accumulated active milliseconds of the sorted intervals. -/
def sweepIntervals (first : ℕ × ℕ) (rest : List (ℕ × ℕ)) : Result ℕ := do
  let state ← rest.foldlM sweepInterval ⟨0, first.1, first.2⟩
  closeSegment state

/-- The intervals of the reports in order of start and finish. -/
def sortedIntervals (reports : List BuilderEmbeddingTaskReport) : Result (List (ℕ × ℕ)) := do
  let intervals ← reports.mapM fun report => orThrow report.interval
    (.accountingClosure "embedding task report execution interval is absent")
  return sortBy toLex intervals

def positive (micros : Option ℕ) : Option ℕ := micros.filter (0 < ·)

/-- The longest execution, else the sum of the elapsed times, if positive. -/
def fallbackMicros (reports : List BuilderEmbeddingTaskReport)
    (taskElapsedMicrosSum : Option U64) : Option ℕ :=
  let elapsed := (reports.filterMap (·.execution)).map fun execution =>
    (execution.elapsedMicros : ℕ)
  (positive elapsed.max?).or (positive (taskElapsedMicrosSum.map fun micros => (micros : ℕ)))

def executionTimeBounds (reports : List BuilderEmbeddingTaskReport)
    (taskElapsedMicrosSum : Option U64) : Result (Option ℕ × Option ℕ) := do
  match ← sortedIntervals reports with
  | [] => return (none, none)
  | first :: rest =>
    let lastEnd ← orThrow ((first :: rest).map Prod.snd).max?
      (.accountingClosure "embedding task report execution interval is absent")
    let calendarSpanMicros :=
      positive ((checkedSub lastEnd first.1).bind (checkedMul 64 · 1000))
    let activeMillis ← sweepIntervals first rest
    let activeTimeMicros := (positive (checkedMul 64 activeMillis 1000)).or
      (fallbackMicros reports taskElapsedMicrosSum)
    return (calendarSpanMicros.or activeTimeMicros, activeTimeMicros)

/-! ### The checked sweep -/

/-- On an ordered state below the width, closing the segment cannot overflow. -/
theorem closeSegment_eq {state : Sweep} (h : state.Ordered) (hwidth : state.finish < 2 ^ 64) :
    closeSegment state = .ok state.total := by
  obtain ⟨hclosed, hopen⟩ := h
  have hsub : checkedSub state.finish state.start = some (state.finish - state.start) :=
    checkedSub_eq_some.mpr ⟨hopen, rfl⟩
  have hadd : checkedAdd 64 state.closed (state.finish - state.start) = some state.total :=
    checkedAdd_eq_some.mpr ⟨by omega, rfl⟩
  rw [closeSegment, hsub, orThrow, ok_bind, hadd, orThrow]

theorem sweepInterval_eq {state : Sweep} {interval : ℕ × ℕ} (h : state.Ordered)
    (hwidth : state.finish < 2 ^ 64) : sweepInterval state interval = .ok (state.step interval) := by
  rw [sweepInterval, Sweep.step]
  by_cases htouch : interval.1 ≤ state.finish
  · rw [if_pos htouch, if_pos htouch]
    rfl
  · rw [if_neg htouch, if_neg htouch, closeSegment_eq h hwidth]
    rfl

/-- The checked sweep of ordered intervals is the sweep. -/
theorem foldlM_sweepInterval {rest : List (ℕ × ℕ)} {state : Sweep} (h : state.Ordered)
    (hwidth : state.finish < 2 ^ 64) (hrest : ∀ p ∈ rest, p.1 ≤ p.2 ∧ p.2 < 2 ^ 64) :
    rest.foldlM sweepInterval state = .ok (rest.foldl Sweep.step state) ∧
      (rest.foldl Sweep.step state).Ordered ∧
      (rest.foldl Sweep.step state).finish < 2 ^ 64 := by
  induction rest generalizing state with
  | nil => exact ⟨rfl, h, hwidth⟩
  | cons p rest ih =>
    rw [List.forall_mem_cons] at hrest
    obtain ⟨⟨hp, hpwidth⟩, hrest⟩ := hrest
    rw [List.foldlM_cons, sweepInterval_eq h hwidth, ok_bind, List.foldl_cons]
    have hfinish : (state.step p).finish ≤ 2 ^ 64 - 1 :=
      Sweep.step_finish_le (by omega) (by omega)
    exact ih (h.step hp) (by omega) hrest

/-- **The accumulated milliseconds are the measure of the union.** -/
theorem sweepIntervals_eq_ok {first : ℕ × ℕ} {rest : List (ℕ × ℕ)}
    (hsorted : (first :: rest).Pairwise fun p q => p.1 ≤ q.1)
    (hordered : ∀ p ∈ first :: rest, p.1 ≤ p.2 ∧ p.2 < 2 ^ 64) :
    sweepIntervals first rest = .ok (covered (first :: rest)).card := by
  rw [List.forall_mem_cons] at hordered
  obtain ⟨⟨hfirst, hwidth⟩, hrest⟩ := hordered
  have hstart : (⟨0, first.1, first.2⟩ : Sweep).Ordered := ⟨Nat.zero_le _, hfirst⟩
  obtain ⟨hrun, hend, hendwidth⟩ := foldlM_sweepInterval hstart (by exact hwidth) hrest
  rw [sweepIntervals, hrun, ok_bind, closeSegment_eq hend hendwidth,
    total_sweep_cons hsorted]

/-! ### What is returned -/

/-- The report has an ordered interval of milliseconds below `2 ^ 53`. -/
def BuilderEmbeddingTaskReport.Timed (report : BuilderEmbeddingTaskReport) : Prop :=
  ∃ start finish, report.interval = some (start, finish) ∧ start ≤ finish ∧ finish < 2 ^ 53

/-- The report was running in the millisecond. -/
def BuilderEmbeddingTaskReport.RunsAt (report : BuilderEmbeddingTaskReport) (t : ℕ) : Prop :=
  ∃ start finish, report.interval = some (start, finish) ∧ start ≤ t ∧ t < finish

/-- The number of milliseconds in which some report was running. -/
noncomputable def runningMillis (reports : List BuilderEmbeddingTaskReport) : ℕ :=
  {t | ∃ report ∈ reports, report.RunsAt t}.ncard

/-- Between the first start and the last finish some report is always running. -/
def Gapless (reports : List BuilderEmbeddingTaskReport) : Prop :=
  ∀ t, (∃ report ∈ reports, ∃ start finish, report.interval = some (start, finish) ∧ start ≤ t) →
    (∃ report ∈ reports, ∃ start finish, report.interval = some (start, finish) ∧ t < finish) →
    ∃ report ∈ reports, report.RunsAt t

/-- The intervals of the reports. -/
def intervalsOf (reports : List BuilderEmbeddingTaskReport) : List (ℕ × ℕ) :=
  reports.filterMap (·.interval)

variable {reports reports' : List BuilderEmbeddingTaskReport} {sum : Option U64}

theorem mem_intervalsOf {p : ℕ × ℕ} :
    p ∈ intervalsOf reports ↔ ∃ report ∈ reports, report.interval = some p := List.mem_filterMap

theorem mem_covered_intervalsOf {t : ℕ} :
    t ∈ covered (intervalsOf reports) ↔ ∃ report ∈ reports, report.RunsAt t := by
  rw [mem_covered]
  constructor
  · rintro ⟨p, hp, hrun⟩
    obtain ⟨report, hreport, hinterval⟩ := mem_intervalsOf.mp hp
    exact ⟨report, hreport, p.1, p.2, hinterval, hrun⟩
  · rintro ⟨report, hreport, start, finish, hinterval, hrun⟩
    exact ⟨(start, finish), mem_intervalsOf.mpr ⟨report, hreport, hinterval⟩, hrun⟩

theorem card_covered_intervalsOf : (covered (intervalsOf reports)).card = runningMillis reports := by
  rw [runningMillis, ← Set.ncard_coe_finset]
  congr 1
  ext t
  exact mem_covered_intervalsOf

/-- Sorting the intervals succeeds when every report has one. -/
theorem sortedIntervals_eq_ok (h : ∀ report ∈ reports, report.Timed) :
    sortedIntervals reports = .ok (sortBy toLex (intervalsOf reports)) := by
  have hmap : reports.mapM (fun report => orThrow report.interval
      (Error.accountingClosure "embedding task report execution interval is absent")) =
      .ok (intervalsOf reports) := by
    induction reports with
    | nil => rfl
    | cons report reports ih =>
      rw [List.forall_mem_cons] at h
      obtain ⟨start, finish, hinterval, -⟩ := h.1
      have hcons : intervalsOf (report :: reports) = (start, finish) :: intervalsOf reports :=
        List.filterMap_cons_some hinterval
      rw [List.mapM_cons, ih h.2, hcons, hinterval]
      rfl
  rw [sortedIntervals, hmap]
  rfl

/-- The largest of a list depends on the list only as a set. -/
theorem max?_congr {xs ys : List ℕ} (h : ∀ x, x ∈ xs ↔ x ∈ ys) : xs.max? = ys.max? := by
  ext a
  rw [List.max?_eq_some_iff, List.max?_eq_some_iff, h]
  simp only [h]

theorem fallbackMicros_congr (h : ∀ report, report ∈ reports ↔ report ∈ reports') :
    fallbackMicros reports sum = fallbackMicros reports' sum := by
  have hmax : ((reports.filterMap (·.execution)).map fun execution =>
        (execution.elapsedMicros : ℕ)).max? =
      ((reports'.filterMap (·.execution)).map fun execution =>
        (execution.elapsedMicros : ℕ)).max? := by
    refine max?_congr ?_
    intro x
    simp only [List.mem_map, List.mem_filterMap, h]
  rw [fallbackMicros, fallbackMicros, hmax]

theorem intervalsOf_ne_nil (h : ∀ report ∈ reports, report.Timed) (hne : reports ≠ []) :
    intervalsOf reports ≠ [] := by
  obtain ⟨report, hreport⟩ := List.exists_mem_of_ne_nil reports hne
  obtain ⟨start, finish, hinterval, -⟩ := h report hreport
  exact List.ne_nil_of_mem (mem_intervalsOf.mpr ⟨report, hreport, hinterval⟩)

theorem ordered_of_mem_intervalsOf (h : ∀ report ∈ reports, report.Timed) {p : ℕ × ℕ}
    (hp : p ∈ intervalsOf reports) : p.1 ≤ p.2 ∧ p.2 < 2 ^ 53 := by
  obtain ⟨report, hreport, hinterval⟩ := mem_intervalsOf.mp hp
  obtain ⟨start, finish, htimes, hle, hlt⟩ := h report hreport
  obtain rfl := Option.some.inj (hinterval.symm.trans htimes)
  exact ⟨hle, hlt⟩

/-- The first start and the last finish. -/
structure Span (reports : List BuilderEmbeddingTaskReport) (first last : ℕ) : Prop where
  first_mem : ∃ p ∈ intervalsOf reports, p.1 = first
  first_le : ∀ p ∈ intervalsOf reports, first ≤ p.1
  last_mem : ∃ p ∈ intervalsOf reports, p.2 = last
  le_last : ∀ p ∈ intervalsOf reports, p.2 ≤ last

theorem exists_span (h : ∀ report ∈ reports, report.Timed) (hne : reports ≠ []) :
    ∃ first last, Span reports first last := by
  have hintervals := intervalsOf_ne_nil h hne
  obtain ⟨p, hp, hfirst⟩ := Finset.exists_min_image (intervalsOf reports).toFinset Prod.fst
    (by rwa [List.toFinset_nonempty_iff])
  obtain ⟨q, hq, hlast⟩ := Finset.exists_max_image (intervalsOf reports).toFinset Prod.snd
    (by rwa [List.toFinset_nonempty_iff])
  simp only [List.mem_toFinset] at hp hfirst hq hlast
  exact ⟨p.1, q.2, ⟨p, hp, rfl⟩, hfirst, ⟨q, hq, rfl⟩, hlast⟩

theorem Span.congr {first last : ℕ} (h : ∀ report, report ∈ reports ↔ report ∈ reports')
    (hspan : Span reports first last) : Span reports' first last := by
  have hmem : ∀ p, p ∈ intervalsOf reports ↔ p ∈ intervalsOf reports' := by
    intro p
    simp only [mem_intervalsOf, h]
  constructor <;> simp only [← hmem]
  exacts [hspan.first_mem, hspan.first_le, hspan.last_mem, hspan.le_last]

/-- A positive time is kept. -/
theorem positive_some {micros : ℕ} (h : micros ≠ 0) : positive (some micros) = some micros := by
  rw [positive, Option.filter_some, if_pos (by simpa using Nat.pos_of_ne_zero h)]

theorem positive_zero : positive (some 0) = none := rfl

theorem positive_ne_zero (micros : Option ℕ) : positive micros ≠ some 0 := by
  intro h
  have hpos := (Option.filter_eq_some_iff.mp h).2
  simp at hpos

/-- The sweep of the sorted intervals accumulates the number of milliseconds in which
some report was running. -/
theorem sweepIntervals_sorted (h : ∀ report ∈ reports, report.Timed) {first : ℕ × ℕ}
    {rest : List (ℕ × ℕ)} (hsorted : sortBy toLex (intervalsOf reports) = first :: rest) :
    (first :: rest).Pairwise (fun p q => p.1 ≤ q.1) ∧
      (∀ p, p ∈ first :: rest ↔ p ∈ intervalsOf reports) ∧
      sweepIntervals first rest = .ok (runningMillis reports) := by
  have hpairs := sortBy_pairwise toLex (intervalsOf reports)
  have hmem : ∀ p, p ∈ sortBy toLex (intervalsOf reports) ↔ p ∈ intervalsOf reports :=
    fun p => mem_sortBy
  rw [hsorted] at hpairs hmem
  -- sorted pairs have sorted starts
  have hstarts : (first :: rest).Pairwise fun p q => p.1 ≤ q.1 :=
    hpairs.imp fun hle => (Prod.Lex.toLex_le_toLex.mp hle).elim le_of_lt fun heq => heq.1.le
  refine ⟨hstarts, hmem, ?_⟩
  rw [sweepIntervals_eq_ok hstarts, covered_congr hmem, card_covered_intervalsOf]
  intro p hp
  obtain ⟨hle, hlt⟩ := ordered_of_mem_intervalsOf h ((hmem p).mp hp)
  exact ⟨hle, by omega⟩

/-- A report that passes its check is timed, if its clock stands below `2 ^ 53`. -/
theorem timed_of_validated {report : BuilderEmbeddingTaskReport} {binding : TaskBinding}
    {prepared : Option Pipeline.PreparedCorpusManifest} {u : Unit}
    (h : validateTaskReport report binding prepared = .ok u) {start finish : U64}
    (hstart : report.startedUnixMs = some start) (hfinish : report.finishedUnixMs = some finish)
    (hbound : (finish : ℕ) < 2 ^ 53) : report.Timed := by
  obtain ⟨-, hdiffers, -⟩ := validateTaskReport_eq_ok.mp h
  refine ⟨start, finish, ?_, TaskReportBinding.start_le_finish hdiffers hstart hfinish, hbound⟩
  rw [BuilderEmbeddingTaskReport.interval, hstart, hfinish]
  rfl

/-- **What is returned.** The calendar span and the active time are computed from the
first start, the last finish and the number of milliseconds in which a task ran. -/
theorem executionTimeBounds_eq_ok (h : ∀ report ∈ reports, report.Timed) {first last : ℕ}
    (hspan : Span reports first last) :
    let active := (positive (some (runningMillis reports * 1000))).or (fallbackMicros reports sum)
    executionTimeBounds reports sum =
      .ok ((positive (some ((last - first) * 1000))).or active, active) := by
  intro active
  have hwidth := fun p => @ordered_of_mem_intervalsOf _ h p
  obtain ⟨p₀, hp₀, hfirst⟩ := hspan.first_mem
  obtain ⟨p₁, hp₁, hlast⟩ := hspan.last_mem
  rw [executionTimeBounds, sortedIntervals_eq_ok h, ok_bind]
  cases hsorted : sortBy toLex (intervalsOf reports) with
  | nil =>
    have hnone := (@mem_sortBy _ _ _ toLex _ _).mpr hp₀
    rw [hsorted] at hnone
    exact absurd hnone List.not_mem_nil
  | cons q rest =>
    obtain ⟨hstarts, hmem, hactive⟩ := sweepIntervals_sorted h hsorted
    have hq : q.1 = first := by
      refine le_antisymm ?_ (hspan.first_le q ((hmem q).mp List.mem_cons_self))
      rw [← hfirst]
      rcases List.mem_cons.mp ((hmem p₀).mpr hp₀) with rfl | hrest
      · exact le_rfl
      · exact (List.pairwise_cons.mp hstarts).1 p₀ hrest
    have hmax : ((q :: rest).map Prod.snd).max? = some last := by
      rw [List.max?_eq_some_iff]
      constructor
      · rw [← hlast]
        exact List.mem_map_of_mem ((hmem p₁).mpr hp₁)
      · intro finish hfinish
        obtain ⟨p, hp, rfl⟩ := List.mem_map.mp hfinish
        exact hspan.le_last p ((hmem p).mp hp)
    -- no product overflows: all times are below `2 ^ 53`
    have hbound : last < 2 ^ 53 := hlast ▸ (hwidth p₁ hp₁).2
    have hordered : first ≤ last :=
      (hspan.first_le p₁ hp₁).trans (hlast ▸ (hwidth p₁ hp₁).1)
    have hmillis : runningMillis reports ≤ last - first := by
      rw [← card_covered_intervalsOf]
      exact card_covered_le hspan.first_le hspan.le_last
    have hsub : checkedSub last first = some (last - first) :=
      checkedSub_eq_some.mpr ⟨hordered, rfl⟩
    have hcalendar : checkedMul 64 (last - first) 1000 = some ((last - first) * 1000) :=
      checkedMul_eq_some.mpr ⟨by omega, rfl⟩
    have hmul : checkedMul 64 (runningMillis reports) 1000 = some (runningMillis reports * 1000) :=
      checkedMul_eq_some.mpr ⟨by omega, rfl⟩
    simp only [hmax, orThrow, ok_bind, hactive, hq, hsub, Option.bind_some, hcalendar, hmul]
    rfl

/-- A time is at most the span, and is the span when nothing is left out of it. -/
theorem gapless_iff {first last : ℕ} (hspan : Span reports first last) :
    Gapless reports ↔ runningMillis reports = last - first := by
  rw [← card_covered_intervalsOf, card_covered_eq_iff hspan.first_le hspan.le_last]
  constructor
  · intro hgapless t hfirst hlast
    rw [← mem_covered, mem_covered_intervalsOf]
    obtain ⟨p, hp, rfl⟩ := hspan.first_mem
    obtain ⟨q, hq, rfl⟩ := hspan.last_mem
    obtain ⟨report, hreport, hinterval⟩ := mem_intervalsOf.mp hp
    obtain ⟨report', hreport', hinterval'⟩ := mem_intervalsOf.mp hq
    exact hgapless t ⟨report, hreport, _, _, hinterval, hfirst⟩
      ⟨report', hreport', _, _, hinterval', hlast⟩
  · rintro hall t ⟨report, hreport, start, finish, hinterval, hstart⟩
      ⟨report', hreport', start', finish', hinterval', hfinish⟩
    rw [← mem_covered_intervalsOf, mem_covered]
    have hfirst := hspan.first_le _ (mem_intervalsOf.mpr ⟨report, hreport, hinterval⟩)
    have hlast := hspan.le_last _ (mem_intervalsOf.mpr ⟨report', hreport', hinterval'⟩)
    exact hall t (hfirst.trans hstart) (hfinish.trans_le hlast)

/-- What holds of the two times that are returned. -/
structure ActiveTime (reports : List BuilderEmbeddingTaskReport) (sum : Option U64)
    (span active : Option ℕ) : Prop where
  accumulated : ∀ first rest, sortedIntervals reports = .ok (first :: rest) →
    sweepIntervals first rest = .ok (runningMillis reports)
  not_zero : active ≠ some 0
  measured : runningMillis reports ≠ 0 → active = some (runningMillis reports * 1000)
  fallback : runningMillis reports = 0 → active = if reports = [] then none else
    fallbackMicros reports sum
  at_most_span : runningMillis reports ≠ 0 → ∃ calendar, span = some calendar ∧
    runningMillis reports * 1000 ≤ calendar ∧
    (runningMillis reports * 1000 = calendar ↔ Gapless reports)

/-- **Active time is the measure of the union of the task intervals.** On reports with
ordered intervals the function succeeds, what it accumulates is the number of
milliseconds in which some task ran, and the result depends on the reports only as a
set. -/
theorem executionTimeBounds_measures (reports : List BuilderEmbeddingTaskReport)
    (sum : Option U64) (h : ∀ report ∈ reports, report.Timed) :
    ∃ span active, executionTimeBounds reports sum = .ok (span, active) ∧
      ActiveTime reports sum span active ∧
      ∀ reports', (∀ report, report ∈ reports ↔ report ∈ reports') →
        executionTimeBounds reports' sum = .ok (span, active) := by
  by_cases hempty : reports = []
  · subst hempty
    have hnone : runningMillis [] = 0 := by simp [runningMillis]
    refine ⟨none, none, ?_, ⟨?_, nofun, fun hpos => absurd hnone hpos, fun _ => rfl,
      fun hpos => absurd hnone hpos⟩, ?_⟩
    · rw [executionTimeBounds, sortedIntervals_eq_ok h]
      simp [intervalsOf, sortBy]
    · intro first rest hsorted
      rw [sortedIntervals_eq_ok h] at hsorted
      simp [intervalsOf, sortBy] at hsorted
    · intro reports' hsame
      have hnil : reports' = [] := List.eq_nil_iff_forall_not_mem.mpr
        fun report hreport => List.not_mem_nil ((hsame report).mpr hreport)
      rw [hnil, executionTimeBounds, sortedIntervals_eq_ok (by simp)]
      simp [intervalsOf, sortBy]
  · obtain ⟨first, last, hspan⟩ := exists_span h hempty
    refine ⟨_, _, executionTimeBounds_eq_ok h hspan, ?_, ?_⟩
    · constructor
      · intro p rest hsorted
        rw [sortedIntervals_eq_ok h] at hsorted
        exact (sweepIntervals_sorted h (Except.ok.inj hsorted)).2.2
      · -- neither the measure nor a fallback is ever a reported zero
        intro hzero
        rcases Option.or_eq_some_iff.mp hzero with hmeasured | ⟨-, hfallback⟩
        · exact positive_ne_zero _ hmeasured
        · rcases Option.or_eq_some_iff.mp hfallback with hlongest | ⟨-, hsum⟩
          · exact positive_ne_zero _ hlongest
          · exact positive_ne_zero _ hsum
      · intro hpos
        rw [positive_some (by omega), Option.some_or]
      · intro hzero
        rw [if_neg hempty, hzero, Nat.zero_mul, positive_zero, Option.none_or]
      · intro hpos
        have hle : runningMillis reports ≤ last - first := by
          rw [← card_covered_intervalsOf]
          exact card_covered_le hspan.first_le hspan.le_last
        refine ⟨(last - first) * 1000, ?_, by omega, ?_⟩
        · rw [positive_some (by omega), Option.some_or]
        · rw [gapless_iff hspan]
          omega
    · intro reports' hsame
      have h' : ∀ report ∈ reports', report.Timed := fun report hreport =>
        h report ((hsame report).mpr hreport)
      have hmillis : runningMillis reports' = runningMillis reports := by
        simp only [runningMillis, hsame]
      rw [executionTimeBounds_eq_ok h' (hspan.congr hsame), hmillis, fallbackMicros_congr hsame]

/-- A report of an execution in the given interval. -/
def sampleTaskReport (start finish : U64) : BuilderEmbeddingTaskReport where
  schemaVersion := taskReportSchema
  planSha256 := Pipeline.hexDigest 1
  sourceSnapshotSha256 := Pipeline.hexDigest 2
  preparedCorpusSha256 := Pipeline.hexDigest 3
  embeddingProfileSha256 := Pipeline.hexDigest 4
  tokenizerSha256 := Pipeline.hexDigest 5
  taskId := "task"
  taskIndex := 0
  ordinalStart := 0
  ordinalEnd := 1
  documentCount := 1
  tokenCount := 1
  receiptSha256 := Pipeline.hexDigest 6
  startedUnixMs := some start
  finishedUnixMs := some finish
  transportBytes := ⟨none, none, some 8, some 8⟩
  artifactSizes := ⟨some 8, some 8, none⟩
  execution := some ⟨1, 1, 0, 8, 8, 8, 5⟩
  lmStudio := ⟨"model", "model"⟩

/-- Two tasks that overlap, one nested in the first, and one after a pause. -/
theorem overlapping_reports_measured :
    let reports := [sampleTaskReport 20 30, sampleTaskReport 3 9, sampleTaskReport 1 5,
      sampleTaskReport 2 4]
    ∃ span active, executionTimeBounds reports none = .ok (span, active) ∧
      ActiveTime reports none span active ∧
      ∀ reports', (∀ report, report ∈ reports ↔ report ∈ reports') →
        executionTimeBounds reports' none = .ok (span, active) := by
  refine executionTimeBounds_measures _ none ?_
  intro report hreport
  simp only [List.mem_cons, List.not_mem_nil, or_false] at hreport
  rcases hreport with rfl | rfl | rfl | rfl
  · exact ⟨20, 30, rfl, by omega, by omega⟩
  · exact ⟨3, 9, rfl, by omega, by omega⟩
  · exact ⟨1, 5, rfl, by omega, by omega⟩
  · exact ⟨2, 4, rfl, by omega, by omega⟩

end LivefireRag.Builder
