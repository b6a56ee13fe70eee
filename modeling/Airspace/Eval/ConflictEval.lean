import Airspace.Eval.ConflictTruth

/-! Scoring the conflict detector against ground truth (`eval.run_conflict_eval`).

    The first alert of each key is kept, and scored against the true events of its pair: each event looks for
    the alerts of its pair raised at or before its start, gives the earliest of them its lead time and marks
    them all. An event that comes later does so again, so that an alert ends with the lead time to the last
    event it was raised before. -/

namespace Airspace

/-- One alert raised during a scenario replay. -/
structure RaisedAlert where
  key : String
  pair : List String
  raisedAt : Instant
  leadTimeS : Option ℚ := none
  matched : Bool := false

/-- What happened in one scenario. -/
structure ScenarioOutcome where
  truthEvents : List ConflictEvent := []
  alerts : List RaisedAlert := []

/-- The pair of an event as alerts name theirs. -/
def ConflictEvent.addresses (e : ConflictEvent) : List String := [e.pair.1, e.pair.2]

/-- `tuple(sorted(address_of.get(t, t) for t in track_ids))`. -/
def addressesOf (addressOf : Dict String String) (alert : Alert) : List String :=
  inKeyOrder id (alert.trackIds.map fun t => (addressOf.get? t).getD t)

/-- Remember the first `NEW` for each alert key. -/
def record (addressOf : Dict String String) (raised : Dict String RaisedAlert) (alert : Alert) :
    Dict String RaisedAlert :=
  if alert.kind ≠ .predictedConflict then raised
  else if alert.state ≠ .new then raised
  else if alert.alertKey ∈ raised.keys then raised
  else
    raised.set alert.alertKey
      { key := alert.alertKey, pair := addressesOf addressOf alert, raisedAt := alert.raisedAt }

/-- The alert is about the event's pair and was raised at or before its start. -/
def candidate (event : ConflictEvent) (a : RaisedAlert) : Bool :=
  a.pair = event.addresses ∧ a.raisedAt ≤ event.startedAt

/-- A candidate that no candidate was raised before. -/
def isEarliest (event : ConflictEvent) (alerts : List RaisedAlert) (a : RaisedAlert) : Bool :=
  candidate event a && (alerts.filter (candidate event)).all fun c => a.raisedAt ≤ c.raisedAt

/-- `(event.started_at - alert.raised_at).total_seconds()`. -/
def leadTo (event : ConflictEvent) (a : RaisedAlert) : ℚ := totalSeconds (event.startedAt - a.raisedAt)

/-- The loop body: the earliest candidate gets its lead time, and every candidate is matched. -/
def scoreEvent (alerts : List RaisedAlert) (event : ConflictEvent) : List RaisedAlert :=
  let candidates := alerts.filter (candidate event)
  if candidates.isEmpty then alerts
  else
    let led := alerts.modify (alerts.findIdx (isEarliest event alerts))
      fun a => { a with leadTimeS := some (leadTo event a) }
    led.map fun a => if candidate event a then { a with matched := true } else a

/-- Attach lead times and mark which alerts corresponded to a real event. -/
def score (outcome : ScenarioOutcome) : ScenarioOutcome :=
  let alerts := outcome.truthEvents.foldl scoreEvent outcome.alerts
  let conflictingPairs := outcome.truthEvents.map ConflictEvent.addresses
  { outcome with
    alerts := alerts.map fun a => if a.pair ∈ conflictingPairs then { a with matched := true } else a }

namespace ScenarioOutcome

variable (outcome : ScenarioOutcome)

/-- The events an alert of their pair was raised at or before the start of. -/
def detected : ℕ := (outcome.truthEvents.filter fun e => outcome.alerts.any (candidate e)).length

def falseAlerts : ℕ := (outcome.alerts.filter fun a => !a.matched).length

end ScenarioOutcome

variable {alerts : List RaisedAlert} {events : List ConflictEvent} {event : ConflictEvent} {a : RaisedAlert}

/-! ### One alert for each pair -/

/-- Changing the first element with a property changes the only one. -/
theorem modify_findIdx {α : Type*} (p : α → Bool) (f : α → α) {l : List α}
    (h : l.Pairwise fun x y => ¬ (p x ∧ p y)) :
    l.modify (l.findIdx p) f = l.map fun x => if p x then f x else x := by
  induction l with
  | nil => rfl
  | cons b l ih =>
    obtain ⟨hb, hl⟩ := List.pairwise_cons.mp h
    by_cases hp : p b
    · have hrest : l.map (fun x => if p x then f x else x) = l := by
        refine (List.map_congr_left fun x hx => ?_).trans (List.map_id l)
        rw [if_neg fun hpx => hb x hx ⟨hp, hpx⟩]
        rfl
      rw [List.findIdx_cons, hp, cond_true, List.modify_zero_cons, List.map_cons, hrest, if_pos hp]
    · rw [List.findIdx_cons, Bool.eq_false_of_not_eq_true hp, cond_false, List.modify_succ_cons, ih hl,
        List.map_cons, Bool.eq_false_of_not_eq_true hp, if_neg Bool.false_ne_true]

/-- What an event does to an alert that is alone with its pair. -/
def scoreOne (event : ConflictEvent) (a : RaisedAlert) : RaisedAlert :=
  if candidate event a then { a with leadTimeS := some (leadTo event a), matched := true } else a

theorem pairwise_candidate (event : ConflictEvent) (hn : (alerts.map RaisedAlert.pair).Nodup) :
    alerts.Pairwise fun x y => ¬ (candidate event x ∧ candidate event y) := by
  rw [List.Nodup, List.pairwise_map] at hn
  refine hn.imp fun hne h => hne ?_
  simp only [candidate, decide_eq_true_eq] at h
  exact h.1.1.trans h.2.1.symm

/-- The only candidate is the earliest. -/
theorem isEarliest_eq (hn : (alerts.map RaisedAlert.pair).Nodup) (ha : a ∈ alerts) :
    isEarliest event alerts a = candidate event a := by
  cases hc : candidate event a with
  | false => rw [isEarliest, hc, Bool.false_and]
  | true =>
    rw [isEarliest, hc, Bool.true_and, List.all_eq_true]
    intro c hmem
    obtain ⟨hcmem, hcc⟩ := List.mem_filter.mp hmem
    simp only [candidate, decide_eq_true_eq] at hc hcc
    have hsame : c = a := List.inj_on_of_nodup_map hn hcmem ha (hcc.1.trans hc.1.symm)
    rw [hsame]
    exact decide_eq_true le_rfl

/-- With one alert for each pair an event changes its own alert and no other. -/
theorem scoreEvent_eq (hn : (alerts.map RaisedAlert.pair).Nodup) :
    scoreEvent alerts event = alerts.map (scoreOne event) := by
  simp only [scoreEvent, List.isEmpty_iff]
  split_ifs with hnone
  · refine ((List.map_congr_left fun a ha => ?_).trans (List.map_id alerts)).symm
    rw [scoreOne, if_neg (List.filter_eq_nil_iff.mp hnone a ha)]
    rfl
  · have hearliest : alerts.Pairwise fun x y =>
        ¬ (isEarliest event alerts x ∧ isEarliest event alerts y) := by
      refine (pairwise_candidate event hn).imp fun hne h => hne ?_
      exact ⟨(Bool.and_eq_true_iff.mp h.1).1, (Bool.and_eq_true_iff.mp h.2).1⟩
    rw [modify_findIdx _ _ hearliest, List.map_map]
    refine List.map_congr_left fun a ha => ?_
    rw [Function.comp_apply, isEarliest_eq hn ha, scoreOne]
    by_cases hc : candidate event a
    · have hled : candidate event { a with leadTimeS := some (leadTo event a) } := hc
      rw [if_pos hc, if_pos hled, if_pos hc]
    · rw [if_neg hc, if_neg hc, if_neg hc]

@[simp] theorem pair_scoreOne (event : ConflictEvent) (a : RaisedAlert) : (scoreOne event a).pair = a.pair := by
  unfold scoreOne
  split_ifs <;> rfl

@[simp] theorem raisedAt_scoreOne (event : ConflictEvent) (a : RaisedAlert) :
    (scoreOne event a).raisedAt = a.raisedAt := by
  unfold scoreOne
  split_ifs <;> rfl

/-- What all events in turn do to it. -/
def scoreAll (events : List ConflictEvent) (a : RaisedAlert) : RaisedAlert :=
  events.foldl (fun a event => scoreOne event a) a

theorem scoreAll_concat (events : List ConflictEvent) (event : ConflictEvent) (a : RaisedAlert) :
    scoreAll (events ++ [event]) a = scoreOne event (scoreAll events a) := List.foldl_concat ..

theorem foldl_scoreEvent (events : List ConflictEvent) (hn : (alerts.map RaisedAlert.pair).Nodup) :
    events.foldl scoreEvent alerts = alerts.map (scoreAll events) := by
  induction events generalizing alerts with
  | nil => exact (List.map_id alerts).symm
  | cons event events ih =>
    have hpairs : (alerts.map (scoreOne event)).map RaisedAlert.pair = alerts.map RaisedAlert.pair := by
      rw [List.map_map]
      exact List.map_congr_left fun a _ => pair_scoreOne event a
    rw [List.foldl_cons, scoreEvent_eq hn, ih (hpairs.symm ▸ hn), List.map_map]
    rfl

/-- Events change neither the pair of an alert nor when it was raised. -/
theorem scoreAll_frame (events : List ConflictEvent) (a : RaisedAlert) :
    (scoreAll events a).pair = a.pair ∧ (scoreAll events a).raisedAt = a.raisedAt := by
  induction events using List.reverseRecOn with
  | nil => exact ⟨rfl, rfl⟩
  | append_singleton events event ih =>
    rw [scoreAll_concat, pair_scoreOne, raisedAt_scoreOne]
    exact ih

theorem candidate_scoreAll (event : ConflictEvent) (events : List ConflictEvent) (a : RaisedAlert) :
    candidate event (scoreAll events a) = candidate event a := by
  obtain ⟨hpair, hraised⟩ := scoreAll_frame events a
  rw [candidate, hpair, hraised, candidate]

/-- Each event overwrites the lead time, so the last one of the alert's pair stays. -/
theorem leadTimeS_scoreAll (events : List ConflictEvent) (a : RaisedAlert) : (scoreAll events a).leadTimeS =
    ((events.filter fun e => candidate e a).getLast?.map fun e => leadTo e a).or a.leadTimeS := by
  induction events using List.reverseRecOn with
  | nil => rfl
  | append_singleton events event ih =>
    rw [scoreAll_concat, List.filter_append]
    by_cases hc : candidate event a
    · have hlead : leadTo event (scoreAll events a) = leadTo event a := by
        rw [leadTo, (scoreAll_frame events a).2, leadTo]
      rw [scoreOne, candidate_scoreAll, if_pos hc, hlead, List.filter_cons_of_pos (by simpa using hc),
        List.filter_nil, List.getLast?_concat]
      rfl
    · rw [scoreOne, candidate_scoreAll, if_neg hc, List.filter_cons_of_neg (by simpa using hc),
        List.filter_nil, List.append_nil]
      exact ih

/-- The lead time is the time to the earliest event of the pair that starts at or after the alert, and there
    is none where there is no such event. -/
def HonestLead (events : List ConflictEvent) (a : RaisedAlert) : Prop :=
  (∀ event ∈ events, candidate event a → (∀ e ∈ events, candidate e a → event.startedAt ≤ e.startedAt) →
    a.leadTimeS = some (leadTo event a)) ∧
  ((∀ event ∈ events, ¬ candidate event a) → a.leadTimeS = none)

/-- The alerts after the scoring: those of before, each with the lead time to the last event of its pair. -/
theorem alerts_score {outcome : ScenarioOutcome} (hn : (outcome.alerts.map RaisedAlert.pair).Nodup) :
    (score outcome).alerts = outcome.alerts.map fun a =>
      if a.pair ∈ outcome.truthEvents.map ConflictEvent.addresses
        then { scoreAll outcome.truthEvents a with matched := true } else scoreAll outcome.truthEvents a := by
  simp only [score, foldl_scoreEvent outcome.truthEvents hn, List.map_map]
  refine List.map_congr_left fun a _ => ?_
  simp only [Function.comp_apply, (scoreAll_frame outcome.truthEvents a).1]

/-! ### What is counted -/

/-- An alert is marked by an event of its pair only. -/
theorem matched_scoreAll (events : List ConflictEvent) (a : RaisedAlert) (h : (scoreAll events a).matched) :
    a.matched ∨ a.pair ∈ events.map ConflictEvent.addresses := by
  induction events using List.reverseRecOn with
  | nil => exact .inl h
  | append_singleton events event ih =>
    rw [scoreAll_concat, scoreOne, candidate_scoreAll] at h
    rw [List.map_append, List.mem_append]
    by_cases hc : candidate event a
    · exact .inr (.inr (List.mem_singleton.mpr (of_decide_eq_true hc).1))
    · rw [if_neg hc] at h
      exact (ih h).imp_right .inl

/-- The false alerts are those of a pair that never lost separation. -/
theorem falseAlerts_score {outcome : ScenarioOutcome} (hn : (outcome.alerts.map RaisedAlert.pair).Nodup)
    (hfresh : ∀ a ∈ outcome.alerts, a.matched = false) : (score outcome).falseAlerts =
      (outcome.alerts.filter fun a => a.pair ∉ outcome.truthEvents.map ConflictEvent.addresses).length := by
  rw [ScenarioOutcome.falseAlerts, alerts_score hn, List.filter_map, List.length_map]
  refine congrArg List.length (List.filter_congr fun a ha => ?_)
  rw [Function.comp_apply]
  split_ifs with hpair
  · simp [hpair]
  · have hunmatched : (scoreAll outcome.truthEvents a).matched = false := by
      refine Bool.eq_false_of_not_eq_true fun hmatched => ?_
      rcases matched_scoreAll _ _ hmatched with h | h
      · exact Bool.false_ne_true ((hfresh a ha).symm.trans h)
      · exact hpair h
    simp [hunmatched, hpair]

/-- Scoring does not change what was detected. -/
theorem detected_score {outcome : ScenarioOutcome} (hn : (outcome.alerts.map RaisedAlert.pair).Nodup) :
    (score outcome).detected = outcome.detected := by
  have hevents : (score outcome).truthEvents = outcome.truthEvents := rfl
  rw [ScenarioOutcome.detected, ScenarioOutcome.detected, alerts_score hn, hevents]
  refine congrArg List.length (List.filter_congr fun event _ => ?_)
  rw [List.any_map]
  refine List.any_congr rfl fun a => ?_
  rw [Function.comp_apply, ← candidate_scoreAll event outcome.truthEvents a]
  split_ifs <;> rfl

/-! ### Lead times -/

theorem leadTo_eq_iff {event e : ConflictEvent} :
    leadTo event a = leadTo e a ↔ event.startedAt = e.startedAt := by
  have hseconds : ∀ c d : Span, totalSeconds c = totalSeconds d ↔ c = d := by
    intro c d
    unfold totalSeconds
    rw [div_left_inj' (by norm_num), Int.cast_inj]
  rw [leadTo, leadTo, hseconds]
  exact sub_left_inj

theorem honestLead_congr {b : RaisedAlert} (hpair : b.pair = a.pair) (hraised : b.raisedAt = a.raisedAt)
    (hlead : b.leadTimeS = a.leadTimeS) : HonestLead events b ↔ HonestLead events a := by
  simp only [HonestLead, candidate, leadTo, hpair, hraised, hlead]

/-- The lead time to the last event is honest for an alert exactly if all its events start together. -/
theorem honestLead_scoreAll_iff (hsorted : events.Pairwise fun d e => d.startedAt ≤ e.startedAt)
    (hfresh : a.leadTimeS = none) : HonestLead events (scoreAll events a) ↔
      ∀ event ∈ events, ∀ e ∈ events, candidate event a → candidate e a → event.startedAt = e.startedAt := by
  have hlead := leadTimeS_scoreAll events a
  have hleadTo : ∀ e, leadTo e (scoreAll events a) = leadTo e a := by
    intro e
    rw [leadTo, (scoreAll_frame events a).2, leadTo]
  have hmem : ∀ e, e ∈ events.filter (fun e => candidate e a) ↔ e ∈ events ∧ candidate e a :=
    fun e => List.mem_filter
  have hrows := hsorted.filter fun e => candidate e a
  simp only [HonestLead, candidate_scoreAll, hleadTo, hlead, hfresh, Option.or_none]
  generalize events.filter (fun e => candidate e a) = own at hmem hrows ⊢
  cases hown : own with
  | nil =>
    have hnone : ∀ e ∈ events, ¬ candidate e a := fun e he hc => by
      have := (hmem e).mpr ⟨he, hc⟩
      rw [hown] at this
      exact List.not_mem_nil this
    exact ⟨fun _ event hevent e _ hc => absurd hc (hnone event hevent),
      fun _ => ⟨fun event hevent hc => absurd hc (hnone event hevent), fun _ => rfl⟩⟩
  | cons first rest =>
    have hne : own ≠ [] := hown ▸ List.cons_ne_nil first rest
    have hlast : own.getLast? = some (own.getLast hne) := List.getLast?_eq_some_getLast hne
    have hfirstMem : first ∈ own := hown ▸ List.mem_cons_self
    -- the events of the pair lie between the first and the last of them
    have hbetween : ∀ e ∈ own, first.startedAt ≤ e.startedAt ∧ e.startedAt ≤ (own.getLast hne).startedAt := by
      intro e he
      constructor
      · rw [hown] at he hrows
        rcases List.mem_cons.mp he with rfl | he
        · exact le_rfl
        · exact (List.pairwise_cons.mp hrows).1 e he
      · rw [← List.dropLast_append_getLast hne] at he hrows
        rcases List.mem_append.mp he with he | he
        · exact (List.pairwise_append.mp hrows).2.2 e he _ (by simp)
        · rw [List.mem_singleton.mp he]
    rw [← hown, hlast, Option.map_some]
    constructor
    · rintro ⟨hhonest, -⟩ event hevent e he hc hc'
      obtain ⟨hfirst, hfirstc⟩ := (hmem first).mp hfirstMem
      have hleast : ∀ e ∈ events, candidate e a → first.startedAt ≤ e.startedAt :=
        fun e he hc => (hbetween e ((hmem e).mpr ⟨he, hc⟩)).1
      have hsame := leadTo_eq_iff.mp (Option.some_inj.mp (hhonest first hfirst hfirstc hleast))
      obtain ⟨hlo, hhi⟩ := hbetween event ((hmem event).mpr ⟨hevent, hc⟩)
      obtain ⟨hlo', hhi'⟩ := hbetween e ((hmem e).mpr ⟨he, hc'⟩)
      exact le_antisymm (hhi.trans (hsame.le.trans hlo')) (hhi'.trans (hsame.le.trans hlo))
    · intro hone
      obtain ⟨hlastMem, hlastc⟩ := (hmem _).mp (List.getLast_mem hne)
      refine ⟨fun event hevent hc _ => ?_, fun hnone => absurd hlastc (hnone _ hlastMem)⟩
      rw [leadTo_eq_iff.mpr (hone _ hlastMem event hevent hlastc hc)]

/-- With one fresh alert for each pair and the events in the order of their starts, every lead time is honest
    exactly if, for every alert, all events of its pair that start at or after it start together. -/
theorem leadTimes_honest_iff {outcome : ScenarioOutcome}
    (hsorted : outcome.truthEvents.Pairwise fun d e => d.startedAt ≤ e.startedAt)
    (hn : (outcome.alerts.map RaisedAlert.pair).Nodup) (hfresh : ∀ a ∈ outcome.alerts, a.leadTimeS = none) :
    (∀ a ∈ (score outcome).alerts, HonestLead outcome.truthEvents a) ↔
      ∀ a ∈ outcome.alerts, ∀ event ∈ outcome.truthEvents, ∀ e ∈ outcome.truthEvents,
        candidate event a → candidate e a → event.startedAt = e.startedAt := by
  rw [alerts_score hn, List.forall_mem_map]
  refine forall₂_congr fun a ha => ?_
  rw [← honestLead_scoreAll_iff hsorted (hfresh a ha)]
  split_ifs
  · exact honestLead_congr rfl rfl rfl
  · exact Iff.rfl

/-- A pair that loses separation for an instant, some seconds into a replay. -/
def lossAt (s : ℤ) : ConflictEvent := ⟨"a1b2c3", "d4e5f6", seconds s, seconds s, 4, 500⟩

/-- An alert at the start of a replay, and its pair's losses of separation. -/
def alertedAtStart (losses : List ℤ) : ScenarioOutcome where
  truthEvents := losses.map lossAt
  alerts := [{ key := "conflict:trk-a1b2c3:trk-d4e5f6", pair := (lossAt 0).addresses, raisedAt := 0 }]

theorem leadTimes_honest_once : (score (alertedAtStart [10])).alerts.length = 1 ∧
    ∀ a ∈ (score (alertedAtStart [10])).alerts, HonestLead (alertedAtStart [10]).truthEvents a := by
  have hpairs : ((alertedAtStart [10]).alerts.map RaisedAlert.pair).Nodup := List.nodup_singleton _
  refine ⟨by rw [alerts_score hpairs]; rfl,
    (leadTimes_honest_iff (List.pairwise_singleton _ _) hpairs ?_).mpr ?_⟩
  · intro a ha
    rw [List.mem_singleton.mp ha]
  · intro a _ event hevent e he _ _
    rw [List.mem_singleton.mp hevent, List.mem_singleton.mp he]

/-- Lost ten seconds and again a hundred seconds after the alert: it is credited with a hundred. -/
theorem leadTime_of_last_event :
    ((alertedAtStart [10, 100]).truthEvents.Pairwise (fun d e => d.startedAt ≤ e.startedAt) ∧
      ((alertedAtStart [10, 100]).alerts.map RaisedAlert.pair).Nodup ∧
      ∀ a ∈ (alertedAtStart [10, 100]).alerts, a.leadTimeS = none) ∧
    ¬ ∀ a ∈ (score (alertedAtStart [10, 100])).alerts, HonestLead (alertedAtStart [10, 100]).truthEvents a := by
  have hpairs : ((alertedAtStart [10, 100]).alerts.map RaisedAlert.pair).Nodup := List.nodup_singleton _
  refine ⟨⟨?_, hpairs, fun a ha => by rw [List.mem_singleton.mp ha]⟩, fun hhonest => ?_⟩
  · exact List.pairwise_cons.mpr ⟨fun e he => by rw [List.mem_singleton.mp he]; decide,
      List.pairwise_singleton _ _⟩
  · set alert : RaisedAlert :=
      { key := "conflict:trk-a1b2c3:trk-d4e5f6", pair := (lossAt 0).addresses, raisedAt := 0 } with halert
    have hcandidate : ∀ s : ℤ, 0 ≤ s → candidate (lossAt s) alert := by
      intro s hs
      have hstart : (0 : ℤ) ≤ seconds s := mul_nonneg hs (by norm_num)
      exact decide_eq_true ⟨rfl, hstart⟩
    have hscored := hhonest _ (by
      rw [alerts_score hpairs]
      exact List.mem_map_of_mem List.mem_cons_self)
    rw [honestLead_congr (a := scoreAll (alertedAtStart [10, 100]).truthEvents alert) (by split_ifs <;> rfl)
      (by split_ifs <;> rfl) (by split_ifs <;> rfl), honestLead_scoreAll_iff (by decide) rfl] at hscored
    have hsame := hscored (lossAt 10) List.mem_cons_self (lossAt 100) (by simp [alertedAtStart])
      (hcandidate 10 (by norm_num)) (hcandidate 100 (by norm_num))
    exact absurd hsame (by decide)

end Airspace
