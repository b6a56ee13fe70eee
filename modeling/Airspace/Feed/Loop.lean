import Airspace.Feed.Runner
import Mathlib.Algebra.Order.BigOperators.Group.Finset

/-! The pace of the feed, and playing a scenario over and over (`acp-feed --loop`).

    A turn that works longer than the interval is not made up for by the turns after it: a run in real time
    is late by the sum of all it overran and overslept. So the next play starts after the last instant the
    one before it was about, and the order of an aircraft's messages goes on across plays. -/

namespace Airspace

noncomputable section

namespace FeedRunner

variable {γ : Type} {edge : Edge γ} {runner : FeedRunner}

/-! ### The pace -/

/-- What a turn takes over the interval: what the work overran, and what the sleep took too long. -/
def overrunS (edge : Edge γ) (runner : FeedRunner) (tick : ℕ) : ℚ :=
  max 0 (edge.work tick - runner.reportIntervalS) + edge.overshoot tick

theorem overrunS_nonneg (edge : Edge γ) (runner : FeedRunner) (tick : ℕ) : 0 ≤ overrunS edge runner tick :=
  add_nonneg (le_max_left _ _) (edge.overshoot tick).2

theorem turnS_of_realtime (hrealtime : runner.realtime = true) (tick : ℕ) :
    turnS edge runner tick = runner.reportIntervalS + overrunS edge runner tick := by
  have hmax : (edge.work tick : ℚ) + max 0 (runner.reportIntervalS - edge.work tick) =
      runner.reportIntervalS + max 0 (edge.work tick - runner.reportIntervalS) := by
    rcases le_total (edge.work tick : ℚ) runner.reportIntervalS with h | h
    · rw [max_eq_right (sub_nonneg.mpr h), max_eq_left (sub_nonpos.mpr h)]
      ring
    · rw [max_eq_left (sub_nonpos.mpr h), max_eq_right (sub_nonneg.mpr h)]
      ring
  simp only [turnS, hrealtime, if_true, overrunS]
  rw [← add_assoc, hmax, add_assoc]

theorem sum_turnS (hrealtime : runner.realtime = true) (first n : ℕ) :
    ∑ i ∈ Finset.range n, turnS edge runner (first + i) =
      n * runner.reportIntervalS + ∑ i ∈ Finset.range n, overrunS edge runner (first + i) := by
  simp only [turnS_of_realtime hrealtime, Finset.sum_add_distrib]
  simp

/-- A run in real time never catches up: one that ends has taken an interval for every turn, and on top of
    that everything its turns overran and overslept. -/
theorem realtime_never_catches_up (edge : Edge γ) (runner : FeedRunner) (hrealtime : runner.realtime = true)
    (startTime : Option Instant) (feed : Feed) :
    ∃ result, (∀ fuel ≥ runner.turns, run edge runner fuel startTime feed = some result) ∧
      ((∀ n, edge.accepts n = true) → ∃ ended, result = .ok ended) ∧
      ∀ ended, result = .ok ended → ended.1.clock = feed.clock + runner.turns * runner.reportIntervalS +
        ∑ i ∈ Finset.range runner.turns, overrunS edge runner (feed.ticks + i) := by
  obtain ⟨_, sim, messages, -, hrun, rfl⟩ := run_scripted edge runner startTime feed
  refine ⟨_, hrun, fun haccepts => ?_, fun ended hended => ?_⟩
  · have hall : deliver edge.accepts feed.log messages = .ok (feed.log ++ messages) :=
      deliver_eq_ok_iff.mpr ⟨rfl, fun i _ => haccepts _⟩
    rw [outcome, hall]
    exact ⟨_, rfl⟩
  · unfold outcome at hended
    cases hsent : deliver edge.accepts feed.log messages with
    | error log =>
      rw [hsent] at hended
      cases hended
    | ok log =>
      rw [hsent] at hended
      rw [← Except.ok.inj hended, add_assoc, ← sum_turnS hrealtime]

/-- Every turn works two seconds and oversleeps none. -/
theorem realtime_never_catches_up_slow :
    let edge : Edge ℕ := ⟨fun _ => [], countingRandom, fun _ => true, fun _ => 2, fun _ => 0⟩
    ∃ result, (∀ fuel ≥ levelRunner.turns, run edge levelRunner fuel none {} = some result) ∧
      ((∀ n, edge.accepts n = true) → ∃ ended, result = .ok ended) ∧
      ∀ ended, result = .ok ended → ended.1.clock = 0 + levelRunner.turns * levelRunner.reportIntervalS +
        ∑ i ∈ Finset.range levelRunner.turns, overrunS edge levelRunner (0 + i) :=
  realtime_never_catches_up _ levelRunner rfl none {}

/-! ### Play after play -/

/-- `while True: await runner.run()`, for so many plays; `pause` is how long the process takes to come to the
    next one. A play that raises ends it. -/
def plays (edge : Edge γ) (pause : ℕ → ℚ≥0) (runner : FeedRunner) (fuel : ℕ) :
    ℕ → Feed → Option (Except Stopped Feed)
  | 0, feed => some (.ok feed)
  | n + 1, feed =>
    match run edge runner fuel none { feed with clock := feed.clock + pause feed.ticks } with
    | none => none
    | some (.error stopped) => some (.error stopped)
    | some (.ok result) => plays edge pause runner fuel n result.1

/-- The messages acknowledged by the end of so many plays. -/
def acknowledged : Except Stopped Feed → List Published
  | .ok feed => feed.log
  | .error stopped => stopped.log

/-- The messages of a feed are sound and in order, and all about instants before the ones a play that began
    now would be about. -/
structure Settled (runner : FeedRunner) (feed : Feed) : Prop where
  sound : ∀ m ∈ feed.log, m.Sound
  before : feed.log.Pairwise Published.Before
  past : ∀ m ∈ feed.log, m.at < wallTime feed.clock + timedelta runner.reportIntervalS

theorem wallTime_mono {a b : ℚ} (h : a ≤ b) : wallTime a ≤ wallTime b :=
  Int.floor_mono (mul_le_mul_of_nonneg_right h (by norm_num))

/-- The last instant of a play is before the first one of a play that begins once it has run its time. -/
theorem wallTime_add_lt {a b intervalS : ℚ} {n : ℕ} (hinterval : 2 / 1000000 ≤ intervalS)
    (h : a + n * intervalS ≤ b) : wallTime a + timedelta (n * intervalS) < wallTime b + timedelta intervalS := by
  have hstart := Int.floor_le (a * 1000000)
  have hend := Int.lt_floor_add_one (b * 1000000)
  have hlast := (roundHalfEven_mem (n * intervalS * 1000000)).2
  have hfirst := (roundHalfEven_mem (intervalS * 1000000)).1
  have hlt : ((wallTime a + timedelta (n * intervalS) : ℤ) : ℚ) <
      ((wallTime b + timedelta intervalS : ℤ) : ℚ) := by
    push_cast
    rw [wallTime, wallTime, timedelta, timedelta]
    linarith
  exact_mod_cast hlt

/-- What a play that begins now adds is about later instants than what is there. -/
theorem pairwise_append_script {feed : Feed} {clock : ℚ} {sim : Simulation γ} {messages : List Published} {k n : ℕ}
    (h : Settled runner feed) (hclock : feed.clock ≤ clock) (hinterval : 2 / 1000000 ≤ runner.reportIntervalS)
    (hscript : runner.script edge.sha256 edge.rng (wallTime clock) k = .ok (sim, messages)) :
    (feed.log ++ messages.take n).Pairwise Published.Before := by
  have hfine : 1 / 1000000 < runner.reportIntervalS := by linarith
  refine List.pairwise_append.mpr ⟨h.before, ?_, fun m hm m' hm' _ _ => ?_⟩
  · exact (pairwise_script hfine hscript).sublist (List.take_sublist n messages)
  · obtain ⟨j, hj, -, hat⟩ := (scripted_script hscript).timed m' (List.mem_of_mem_take hm')
    have hfirst : timedelta runner.reportIntervalS ≤ timedelta (j * runner.reportIntervalS) := by
      have hone := (timedelta_strictMono hfine).monotone hj
      simpa using hone
    calc m.at < wallTime feed.clock + timedelta runner.reportIntervalS := h.past m hm
      _ ≤ wallTime clock + timedelta (j * runner.reportIntervalS) := add_le_add (wallTime_mono hclock) hfirst
      _ = m'.at := hat.symm

/-- A play in real time leaves a settled feed settled; one that raises leaves the messages in order. -/
theorem settled_outcome {feed : Feed} {pause : ℚ≥0} {sim : Simulation γ} {messages : List Published}
    (h : Settled runner feed) (hrealtime : runner.realtime = true)
    (hinterval : 2 / 1000000 ≤ runner.reportIntervalS)
    (hscript : runner.script edge.sha256 edge.rng (wallTime (feed.clock + pause)) runner.turns =
      .ok (sim, messages)) :
    match outcome edge runner { feed with clock := feed.clock + pause } messages with
    | .ok result => Settled runner result.1
    | .error stopped => (∀ m ∈ stopped.log, m.Sound) ∧ stopped.log.Pairwise Published.Before := by
  have hclock : feed.clock ≤ feed.clock + pause := le_add_of_nonneg_right pause.2
  have hscripted := scripted_script hscript
  have hsound : ∀ n, ∀ m ∈ feed.log ++ messages.take n, m.Sound := by
    intro n m hm
    rcases List.mem_append.mp hm with hm | hm
    · exact h.sound m hm
    · exact hscripted.sound m (List.mem_of_mem_take hm)
  unfold outcome
  cases hsent : deliver edge.accepts feed.log messages with
  | error log =>
    obtain ⟨n, rfl⟩ := exists_take_of_deliver (.inr hsent)
    exact ⟨hsound n, pairwise_append_script h hclock hinterval hscript⟩
  | ok log =>
    obtain ⟨rfl, -⟩ := deliver_eq_ok_iff.mp hsent
    have hall := pairwise_append_script (n := messages.length) h hclock hinterval hscript
    have hsound' := hsound messages.length
    rw [List.take_length] at hall hsound'
    refine ⟨hsound', hall, fun m hm => ?_⟩
    -- the play has taken at least an interval for every turn
    have htook : feed.clock + pause + runner.turns * runner.reportIntervalS ≤ feed.clock + pause +
        ∑ i ∈ Finset.range runner.turns, turnS edge runner (feed.ticks + i) := by
      rw [sum_turnS hrealtime]
      have hover : 0 ≤ ∑ i ∈ Finset.range runner.turns, overrunS edge runner (feed.ticks + i) :=
        Finset.sum_nonneg fun i _ => overrunS_nonneg edge runner _
      linarith
    rcases List.mem_append.mp hm with hm | hm
    · refine (h.past m hm).trans_le (Int.add_le_add_right (wallTime_mono (hclock.trans ?_)) _)
      refine le_trans (le_add_of_nonneg_right ?_) htook
      exact mul_nonneg (Nat.cast_nonneg _) runner.reportIntervalS_pos.le
    · obtain ⟨j, -, hj, hat⟩ := hscripted.timed m hm
      have hfine : 1 / 1000000 < runner.reportIntervalS := by linarith
      calc m.at = wallTime (feed.clock + pause) + timedelta (j * runner.reportIntervalS) := hat
        _ ≤ wallTime (feed.clock + pause) + timedelta (runner.turns * runner.reportIntervalS) :=
          Int.add_le_add_left ((timedelta_strictMono hfine).monotone hj) _
        _ < _ := wallTime_add_lt hinterval htook

theorem settled_plays (pause : ℕ → ℚ≥0) (hrealtime : runner.realtime = true)
    (hinterval : 2 / 1000000 ≤ runner.reportIntervalS) (n : ℕ) {feed : Feed} (h : Settled runner feed) :
    ∃ result, (∀ fuel ≥ runner.turns, plays edge pause runner fuel n feed = some result) ∧
      (∀ m ∈ acknowledged result, m.Sound) ∧ (acknowledged result).Pairwise Published.Before := by
  induction n generalizing feed with
  | zero => exact ⟨.ok feed, fun _ _ => rfl, h.sound, h.before⟩
  | succ n ih =>
    obtain ⟨_, sim, messages, hscript, hrun, rfl⟩ := run_scripted edge runner none
      { feed with clock := feed.clock + pause feed.ticks }
    have hthere := settled_outcome h hrealtime hinterval hscript
    cases hcome : outcome edge runner { feed with clock := feed.clock + pause feed.ticks } messages with
    | error stopped =>
      rw [hcome] at hthere
      exact ⟨.error stopped, fun fuel hfuel => by simp only [plays, hrun fuel hfuel, hcome], hthere⟩
    | ok result =>
      rw [hcome] at hthere
      obtain ⟨final, hfinal, hkept⟩ := ih hthere
      exact ⟨final, fun fuel hfuel => by simp only [plays, hrun fuel hfuel, hcome, hfinal fuel hfuel], hkept⟩

/-- A scenario played over and over in real time keeps every aircraft's messages in order across the plays,
    however the turns overrun, and also if the broker ends it. -/
theorem plays_keep_order (edge : Edge γ) (pause : ℕ → ℚ≥0) (runner : FeedRunner) (hrealtime : runner.realtime = true)
    (hinterval : 2 / 1000000 ≤ runner.reportIntervalS) (n : ℕ) :
    ∃ result, (∀ fuel ≥ runner.turns, plays edge pause runner fuel n {} = some result) ∧
      (∀ m ∈ acknowledged result, m.Sound) ∧ (acknowledged result).Pairwise Published.Before :=
  settled_plays pause hrealtime hinterval n ⟨by simp, List.Pairwise.nil, by simp⟩

theorem plays_keep_order_level : ∃ result,
    (∀ fuel ≥ levelRunner.turns, plays refusing (fun _ => 1) levelRunner fuel 3 {} = some result) ∧
      (∀ m ∈ acknowledged result, m.Sound) ∧ (acknowledged result).Pairwise Published.Before :=
  plays_keep_order refusing (fun _ => 1) levelRunner rfl (by norm_num [levelRunner]) 3

end FeedRunner

end

end Airspace
