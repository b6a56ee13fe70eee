import Airspace.Lib.Prefixes
import Airspace.Track.Checked
import Airspace.Track.Runner

/-! The lives of a track.

    The updates an estimator emits for one aircraft are a sequence of lives. A life begins with the report
    that starts a record; reports confirm it, silence makes it coast, and it ends with the one TERMINATED
    update a sweep emits. The next life should begin with news: a report that is older than the ended life,
    dropped by a live record, starts a record over a terminated one. A call that raises emits nothing, although
    it may have ended a track, so the lives are told of runs that keep off the poles. -/

namespace Airspace

noncomputable section

namespace TrackEstimator

/-- An update of an aircraft, the call that emits it, and whether the call starts a record. -/
structure Emission where
  cause : Call
  starts : Bool
  update : TrackUpdate

/-- What a call emits for an aircraft. -/
def emits (icao24 : String) (e : TrackEstimator) : Call → List Emission
  | .report r =>
    if r.icao24 = icao24 then [⟨.report r, e.initiates r.icao24, (e.onReport r).2⟩] else []
  | .sweep now =>
    ((e.sweep now).2.filter fun u => u.icao24 = icao24).map fun u => ⟨.sweep now, false, u⟩

/-- What a run emits for an aircraft, in order. -/
def emissions (icao24 : String) (e : TrackEstimator) : List Call → List Emission
  | [] => []
  | call :: calls => emits icao24 e call ++ emissions icao24 (e.after [call]) calls

/-- A report that finds a terminated record is newer than it. -/
def StartsFresh (icao24 : String) (e : TrackEstimator) (call : Call) : Prop :=
  ∀ r, call = .report r → r.icao24 = icao24 → ∀ record, e.tracks.get? icao24 = some record →
    record.terminated = true → record.lastReportAt < r.observedAt

theorem after_concat (e : TrackEstimator) (calls : List Call) (call : Call) :
    e.after (calls ++ [call]) = (e.after calls).after [call] := by
  induction calls generalizing e with
  | nil => rfl
  | cons first calls ih => cases first <;> exact ih _

theorem emissions_concat (icao24 : String) (e : TrackEstimator) (calls : List Call) (call : Call) :
    emissions icao24 e (calls ++ [call]) = emissions icao24 e calls ++ emits icao24 (e.after calls) call := by
  induction calls generalizing e with
  | nil => exact List.append_nil _
  | cons first calls ih =>
    have hafter : e.after (first :: calls) = (e.after [first]).after calls := by cases first <;> rfl
    rw [List.cons_append, emissions, ih, ← List.append_assoc, hafter]
    rfl

/-! ### Lives -/

/-- The reports answered. -/
def reportsOf (log : List Emission) : List SurveillanceReport :=
  log.filterMap fun m => match m.cause with
    | .report r => some r
    | .sweep _ => none

theorem reportsOf_concat_report {log : List Emission} {r : SurveillanceReport} {starts : Bool}
    {u : TrackUpdate} : reportsOf (log ++ [⟨.report r, starts, u⟩]) = reportsOf log ++ [r] := by
  simp [reportsOf]

theorem reportsOf_concat_sweep {log : List Emission} {now : Instant} {starts : Bool} {u : TrackUpdate} :
    reportsOf (log ++ [⟨.sweep now, starts, u⟩]) = reportsOf log := by
  simp [reportsOf]

/-- What may be emitted in a life after what the life has emitted before: only its first update starts a
    record, only a sweep leads to COASTING or TERMINATED, a track is CONFIRMED after enough reports each
    newer than all before it, and nothing follows TERMINATED. -/
structure Lawful (confirmationUpdates : ℕ) (before : List Emission) (m : Emission) : Prop where
  starts : m.starts = true ↔ before = []
  first : before = [] → (∃ r, m.cause = .report r) ∧ m.update.state = .initiating ∧ m.update.updateCount = 1
  aged : m.update.state = .coasting ∨ m.update.state = .terminated →
    (∃ now, m.cause = .sweep now) ∨ ∃ m' ∈ before.getLast?, m'.update.state = m.update.state
  confirmed : m.update.state = .confirmed →
    confirmationUpdates ≤ (highs (·.observedAt) (reportsOf (before ++ [m]))).length
  unended : ∀ m' ∈ before, m'.update.state ≠ .terminated

/-- The updates of one life. -/
structure Life (confirmationUpdates : ℕ) where
  emissions : List Emission
  nonempty : emissions ≠ []
  lawful : EachAfter (Lawful confirmationUpdates) emissions

namespace Life

variable {k : ℕ}

def reports (l : Life k) : List SurveillanceReport := reportsOf l.emissions

/-- The last update is TERMINATED. -/
def Ended (l : Life k) : Prop := ∃ m ∈ l.emissions.getLast?, m.update.state = .terminated

/-- The later life begins with a report newer than every report of the earlier one. -/
def Before (l l' : Life k) : Prop := ∀ r ∈ l.reports, ∀ r' ∈ l'.reports.head?, r.observedAt < r'.observedAt

def opened (m : Emission) (h : Lawful k [] m) : Life k where
  emissions := [m]
  nonempty := List.cons_ne_nil _ _
  lawful := eachAfter_concat.mpr ⟨eachAfter_nil, h⟩

def extend (l : Life k) (m : Emission) (h : Lawful k l.emissions m) : Life k where
  emissions := l.emissions ++ [m]
  nonempty := List.append_ne_nil_of_left_ne_nil l.nonempty _
  lawful := eachAfter_concat.mpr ⟨l.lawful, h⟩

/-- A life is told apart by its first update, the only one that starts a record. -/
theorem headed (l : Life k) : Headed (fun m => m.starts = true) l.emissions := by
  obtain ⟨first, rest, hl⟩ := List.exists_cons_of_ne_nil l.nonempty
  refine ⟨first, rest, hl, (l.lawful [] first rest hl).starts.mpr rfl, fun m hm hstarts => ?_⟩
  obtain ⟨before, later, rfl⟩ := List.append_of_mem hm
  exact absurd ((l.lawful (first :: before) m later hl).starts.mp hstarts) (List.cons_ne_nil _ _)

/-- The updates of several lives are those of no others. -/
theorem eq_of_flatten_eq {lives lives' : List (Life k)}
    (h : (lives.map Life.emissions).flatten = (lives'.map Life.emissions).flatten) : lives = lives' := by
  have hheaded : ∀ (ls : List (Life k)), ∀ ms ∈ ls.map Life.emissions,
      Headed (fun m => m.starts = true) ms := by
    intro ls ms hms
    obtain ⟨l, -, rfl⟩ := List.mem_map.mp hms
    exact l.headed
  refine List.map_injective_iff.mpr ?_ (flatten_inj_of_headed (hheaded _) (hheaded _) h)
  rintro ⟨ms, _, _⟩ ⟨ms', _, _⟩ rfl
  rfl

/-- A life begins with a report. -/
theorem exists_head_reports (l : Life k) : ∃ r, l.reports.head? = some r := by
  obtain ⟨m, rest, hm⟩ := List.exists_cons_of_ne_nil l.nonempty
  obtain ⟨⟨r, hr⟩, -⟩ := (l.lawful [] m rest hm).first rfl
  refine ⟨r, ?_⟩
  rw [reports, hm, reportsOf, List.filterMap_cons]
  simp only [hr, List.head?_cons]

/-- What a life goes on with does not change what it begins with. -/
theorem before_extend {l l' : Life k} {m : Emission} (h : Lawful k l'.emissions m) :
    l.Before (l'.extend m h) ↔ l.Before l' := by
  obtain ⟨r, hr⟩ := l'.exists_head_reports
  have hsame : (l'.extend m h).reports.head? = l'.reports.head? := by
    rw [hr, reports, extend, reportsOf, List.filterMap_append, List.head?_append]
    exact congrArg (fun o : Option SurveillanceReport => o.or _) hr
  rw [Before, Before, hsame]

end Life

/-! ### A record and its life -/

variable {e : TrackEstimator} {k : ℕ} {record : TrackRecord} {icao24 : String} {log : List Emission}
  {lives : List (Life k)}

/-- The record is what its life says: as new as the newest report, counting the reports folded in, in the
    state last emitted. -/
structure Follows (record : TrackRecord) (l : Life k) : Prop where
  newest : Tops (·.observedAt) l.reports record.lastReportAt
  count : record.updateCount = (highs (·.observedAt) l.reports).length
  state : ∀ m ∈ l.emissions.getLast?, m.update.state = record.state
  confirmed : record.state = .confirmed → k ≤ record.updateCount
  terminated : record.terminated = true ↔ record.state = .terminated

theorem Follows.ended {l : Life k} (h : Follows record l) (hterm : record.terminated = true) : l.Ended := by
  obtain ⟨m, hm⟩ := Option.ne_none_iff_exists'.mp (mt List.getLast?_eq_none_iff.mp l.nonempty)
  exact ⟨m, hm, (h.state m hm).trans (h.terminated.mp hterm)⟩

/-- A life whose last update is not TERMINATED has none. -/
theorem Follows.unended {l : Life k} (h : Follows record l) (hlive : record.terminated = false) :
    ∀ m ∈ l.emissions, m.update.state ≠ .terminated := by
  have hstate : record.state ≠ .terminated := fun heq => by
    rw [h.terminated.mpr heq] at hlive
    cases hlive
  obtain ⟨before, m, hm⟩ := List.eq_nil_or_concat l.emissions |>.resolve_left l.nonempty
  rw [List.concat_eq_append] at hm
  intro m' hm'
  rw [hm] at hm'
  rcases List.mem_append.mp hm' with hbefore | hlast
  · exact (l.lawful before m [] hm).unended m' hbefore
  · rw [List.mem_singleton.mp hlast, h.state m (by rw [hm, List.getLast?_concat]; rfl)]
    exact hstate

/-- The next life begins with news exactly if its first report is newer than the record. -/
theorem Follows.before_opened {l : Life k} (h : Follows record l) {r : SurveillanceReport} {starts : Bool}
    {u : TrackUpdate} (hlawful : Lawful k [] ⟨.report r, starts, u⟩) :
    l.Before (.opened _ hlawful) ↔ record.lastReportAt < r.observedAt := by
  have hhead : ∀ r', r' ∈ (Life.opened _ hlawful).reports.head? ↔ r = r' := fun r' => Option.some_inj
  simp only [Life.Before, hhead, forall_eq']
  constructor
  · intro hall
    obtain ⟨top, htop, heq⟩ := h.newest.attained
    exact heq ▸ hall top ((highs_sublist _).subset htop)
  · exact fun hlt r' hr' => (h.newest.bound r' hr').trans_lt hlt

theorem toUpdate_frame (record : TrackRecord) (t : Instant) :
    (toUpdate record t).2.state = record.state ∧ (toUpdate record t).2.updateCount = record.updateCount :=
  ⟨(coast_frame record t).1, updateCount_coast record t⟩

/-- A life opens with the record that a report starts. -/
theorem follows_initiate (e : TrackEstimator) (r : SurveillanceReport) :
    ∃ hlawful : Lawful k [] ⟨.report r, true, (toUpdate (e.initiate r) r.observedAt).2⟩,
      Follows (e.initiate r) (.opened _ hlawful) := by
  obtain ⟨hstate, hcount⟩ := toUpdate_frame (e.initiate r) r.observedAt
  have hinitiating : (toUpdate (e.initiate r) r.observedAt).2.state = .initiating := hstate
  refine ⟨⟨by simp, fun _ => ⟨⟨r, rfl⟩, hinitiating, hcount⟩, ?_, ?_, by simp⟩, ?_⟩
  · rintro (hcoasting | hterminated)
    · cases hinitiating.symm.trans hcoasting
    · cases hinitiating.symm.trans hterminated
  · intro hconfirmed
    cases hinitiating.symm.trans hconfirmed
  · refine ⟨tops_singleton r, rfl, ?_, ?_, ?_⟩
    · rintro m ⟨⟩
      exact hstate
    · rintro ⟨⟩
    · exact iff_of_false Bool.false_ne_true (by simp [initiate])

/-- A record that agrees with a life and one report more goes on with it. -/
theorem follows_extend_report {l : Life k} (hunended : ∀ m ∈ l.emissions, m.update.state ≠ .terminated)
    (r : SurveillanceReport) (hnewest : Tops (·.observedAt) (l.reports ++ [r]) record.lastReportAt)
    (hcount : record.updateCount = (highs (·.observedAt) (l.reports ++ [r])).length)
    (hconfirmed : record.state = .confirmed → k ≤ record.updateCount)
    (hterm : record.terminated = true ↔ record.state = .terminated)
    (haged : record.state = .coasting ∨ record.state = .terminated →
      ∃ m ∈ l.emissions.getLast?, m.update.state = record.state) :
    ∃ hlawful : Lawful k l.emissions ⟨.report r, false, (toUpdate record r.observedAt).2⟩,
      Follows record (l.extend _ hlawful) := by
  obtain ⟨hstate, -⟩ := toUpdate_frame record r.observedAt
  have hreports : ∀ u, reportsOf (l.emissions ++ [⟨.report r, false, u⟩]) = l.reports ++ [r] :=
    fun _ => reportsOf_concat_report
  have hlawful : Lawful k l.emissions ⟨.report r, false, (toUpdate record r.observedAt).2⟩ := by
    refine ⟨iff_of_false Bool.false_ne_true l.nonempty, fun hnil => absurd hnil l.nonempty, ?_, ?_, hunended⟩
    · rw [hstate]
      exact fun h => .inr (haged h)
    · rw [hstate, hreports, ← hcount]
      exact hconfirmed
  refine ⟨hlawful, ?_, ?_, fun m hm => ?_, hconfirmed, hterm⟩
  · rw [Life.reports, Life.extend, hreports]
    exact hnewest
  · rw [Life.reports, Life.extend, hreports]
    exact hcount
  · rw [Life.extend, List.getLast?_concat] at hm
    cases hm
    exact hstate

/-- A report of a live record goes on with its life, folded in or not. -/
theorem follows_update {l : Life k} (h : Follows record l) (hlive : record.terminated = false)
    (hk : e.confirmationUpdates = k) (r : SurveillanceReport) :
    ∃ hlawful : Lawful k l.emissions ⟨.report r, false, (toUpdate (e.update record r) r.observedAt).2⟩,
      Follows (e.update record r) (l.extend _ hlawful) := by
  rcases le_or_gt r.observedAt record.lastReportAt with hle | hlt
  · -- dropped: the record and what it says of itself stay as they are
    obtain ⟨hhighs, htops⟩ := h.newest.concat_of_le hle
    rw [update_of_le hle]
    refine follows_extend_report (h.unended hlive) r htops (hhighs.symm ▸ h.count) h.confirmed h.terminated
      fun _ => ?_
    obtain ⟨m, hm⟩ := Option.ne_none_iff_exists'.mp (mt List.getLast?_eq_none_iff.mp l.nonempty)
    exact ⟨m, hm, h.state m hm⟩
  · obtain ⟨hhighs, htops⟩ := h.newest.concat_of_lt hlt
    obtain ⟨hnewest, hterm, hnot⟩ := update_of_lt (e := e) hlt
    obtain ⟨hcount, hconfirms⟩ := update_count (e := e) hlt
    refine follows_extend_report (h.unended hlive) r (hnewest.symm ▸ htops) ?_ ?_ ?_ ?_
    · rw [hcount, h.count, hhighs, List.length_append, List.length_singleton]
    · intro hconfirmed
      rw [hconfirms] at hconfirmed
      split_ifs at hconfirmed with hge
      rw [hcount, ← hk]
      exact hge
    · rw [hterm, hlive]
      exact iff_of_false Bool.false_ne_true hnot
    · -- folded in, the record is tentative or confirmed
      rw [hconfirms]
      split_ifs <;> simp

/-- A sweep that announces a record goes on with its life, or ends it. -/
theorem follows_sweep {l : Life k} (h : Follows record l) {now : Instant} {u : TrackUpdate}
    (hout : (e.sweepRecord now record).2 = some u) : ∃ hlawful : Lawful k l.emissions ⟨.sweep now, false, u⟩,
      Follows (e.sweepRecord now record).1 (l.extend _ hlawful) := by
  have hsaid := announced_sweepRecord hout
  have hreports : reportsOf (l.emissions ++ [⟨.sweep now, false, u⟩]) = l.reports := reportsOf_concat_sweep
  have hnot : u.state ≠ .confirmed := by
    rcases hsaid.coasting_or with ⟨hs, -⟩ | ⟨hs, -⟩ <;> rw [hs] <;> simp
  have hlawful : Lawful k l.emissions ⟨.sweep now, false, u⟩ :=
    ⟨iff_of_false Bool.false_ne_true l.nonempty, fun hnil => absurd hnil l.nonempty,
      fun _ => .inl ⟨now, rfl⟩, fun hconfirmed => absurd hconfirmed hnot, h.unended hsaid.live⟩
  refine ⟨hlawful, ?_, ?_, ?_, ?_, ?_⟩
  · rw [Life.reports, Life.extend, hreports, hsaid.lastReportAt]
    exact h.newest
  · rw [Life.reports, Life.extend, hreports, hsaid.updateCount]
    exact h.count
  · intro m hm
    rw [Life.extend, List.getLast?_concat] at hm
    cases hm
    exact hsaid.state.symm
  · rw [hsaid.state]
    exact fun hconfirmed => absurd hconfirmed hnot
  · rw [hsaid.state]
    rcases hsaid.coasting_or with ⟨hs, ht⟩ | ⟨hs, ht⟩ <;> simp [hs, ht]

/-! ### Runs -/

/-- What has been emitted for an aircraft is its lives, all ended but the last, which is that of the record
    if there is one. -/
structure Story (record : Option TrackRecord) (log : List Emission) (lives : List (Life k)) : Prop where
  emitted : log = (lives.map Life.emissions).flatten
  ended : lives.IsChain fun l _ => l.Ended
  unheld : record = none → lives = []
  held : ∀ held ∈ record, ∃ past l, lives = past ++ [l] ∧ Follows held l

/-- The next life opens after the others, all of them ended. -/
theorem Story.opens {old : Option TrackRecord} (h : Story old log lives)
    (hended : ∀ held ∈ old, held.terminated = true) {m : Emission} (hlawful : Lawful k [] m)
    (hfollows : Follows record (.opened m hlawful)) :
    Story (some record) (log ++ [m]) (lives ++ [.opened m hlawful]) := by
  refine ⟨?_, ?_, by simp, ?_⟩
  · rw [h.emitted, List.map_append, List.flatten_append]
    rfl
  · refine h.ended.append (List.isChain_singleton _) ?_
    intro l hl l' _
    cases old with
    | none =>
      rw [h.unheld rfl] at hl
      cases hl
    | some held =>
      obtain ⟨past, last, rfl, hlast⟩ := h.held held rfl
      rw [List.getLast?_concat] at hl
      cases hl
      exact hlast.ended (hended held rfl)
  · rintro held ⟨⟩
    exact ⟨lives, _, rfl, hfollows⟩

/-- The last life goes on. -/
theorem Story.extends {past : List (Life k)} {l : Life k} {held : TrackRecord}
    (h : Story (some held) log (past ++ [l])) {m : Emission} (hlawful : Lawful k l.emissions m)
    (hfollows : Follows record (l.extend m hlawful)) :
    Story (some record) (log ++ [m]) (past ++ [l.extend m hlawful]) := by
  refine ⟨?_, ?_, by simp, ?_⟩
  · rw [h.emitted]
    simp [Life.extend]
  · obtain ⟨hpast, -, hlast⟩ := List.isChain_append.mp h.ended
    exact hpast.append (List.isChain_singleton _) fun x hx y _ => hlast x hx l rfl
  · rintro _ ⟨⟩
    exact ⟨past, _, rfl, hfollows⟩

/-- Whether every life begins with news, before and after the last one. -/
theorem chain_concat {past : List (Life k)} {l : Life k} :
    (past ++ [l]).IsChain Life.Before ↔ past.IsChain Life.Before ∧ ∀ x ∈ past.getLast?, x.Before l := by
  rw [List.isChain_append]
  simp

/-- Where no record is live a report opens a life. -/
theorem story_opened {r : SurveillanceReport} (h : Story (e.tracks.get? r.icao24) log lives)
    (hk : e.confirmationUpdates = k) (hended : ∀ held ∈ e.tracks.get? r.icao24, held.terminated = true) :
    ∃ lives' : List (Life k),
    Story ((e.onReport r).1.tracks.get? r.icao24) (log ++ emits r.icao24 e (.report r)) lives' ∧
      (lives'.IsChain Life.Before ↔ lives.IsChain Life.Before ∧ StartsFresh r.icao24 e (.report r)) := by
  obtain ⟨honReport, hinitiates⟩ :
      e.onReport r = e.answer r (e.initiate r) ∧ e.initiates r.icao24 = true := by
    cases hold : e.tracks.get? r.icao24 with
    | none => exact ⟨onReport_of_none hold, by rw [initiates, hold]⟩
    | some held =>
      have hterm := hended held hold
      exact ⟨onReport_of_terminated hold hterm, by rw [initiates, hold]; exact hterm⟩
  subst hk
  obtain ⟨hlawful, hfollows⟩ := follows_initiate e r
  simp only [emits, if_true]
  rw [honReport, hinitiates, get?_answer (le_refl _)]
  refine ⟨_, h.opens hended hlawful hfollows, ?_⟩
  rw [chain_concat]
  refine and_congr_right fun _ => ?_
  constructor
  · rintro hbefore _ ⟨⟩ - held hold hterm
    obtain ⟨past, last, rfl, hlast⟩ := h.held held hold
    exact (hlast.before_opened hlawful).mp (hbefore last (by rw [List.getLast?_concat]; rfl))
  · intro hfresh l hl
    cases hold : e.tracks.get? r.icao24 with
    | none =>
      rw [h.unheld hold] at hl
      cases hl
    | some held =>
      obtain ⟨past, last, rfl, hlast⟩ := h.held held hold
      rw [List.getLast?_concat] at hl
      cases hl
      exact (hlast.before_opened hlawful).mpr (hfresh r rfl rfl held hold (hended held hold))

/-- A report of a live record goes on with the last life. -/
theorem story_continued {r : SurveillanceReport} (h : Story (e.tracks.get? r.icao24) log lives)
    (hk : e.confirmationUpdates = k) {held : TrackRecord} (hold : e.tracks.get? r.icao24 = some held)
    (hlive : held.terminated = false) : ∃ lives' : List (Life k),
    Story ((e.onReport r).1.tracks.get? r.icao24) (log ++ emits r.icao24 e (.report r)) lives' ∧
      (lives'.IsChain Life.Before ↔ lives.IsChain Life.Before ∧ StartsFresh r.icao24 e (.report r)) := by
  obtain ⟨past, l, rfl, hl⟩ := h.held held hold
  obtain ⟨hlawful, hfollows⟩ := follows_update hl hlive hk r
  have hinitiates : e.initiates r.icao24 = false := by
    rw [initiates, hold]
    exact hlive
  simp only [emits, if_true]
  rw [onReport_of_live hold hlive, hinitiates, get?_answer (le_lastReportAt_update held r)]
  rw [hold] at h
  refine ⟨_, h.extends hlawful hfollows, ?_⟩
  have hfresh : StartsFresh r.icao24 e (.report r) := by
    rintro _ ⟨⟩ - other hother hterm
    obtain rfl := Option.some.inj (hold.symm.trans hother)
    exact absurd (hlive.symm.trans hterm) Bool.false_ne_true
  simp only [chain_concat, Life.before_extend, hfresh, and_true]

/-- What a report of the aircraft adds to its story. -/
theorem story_report (h : Story (e.tracks.get? icao24) log lives) (hk : e.confirmationUpdates = k)
    {r : SurveillanceReport} (hr : r.icao24 = icao24) : ∃ lives' : List (Life k),
    Story ((e.onReport r).1.tracks.get? icao24) (log ++ emits icao24 e (.report r)) lives' ∧
      (lives'.IsChain Life.Before ↔ lives.IsChain Life.Before ∧ StartsFresh icao24 e (.report r)) := by
  subst hr
  by_cases hended : ∀ held ∈ e.tracks.get? r.icao24, held.terminated = true
  · exact story_opened h hk hended
  · obtain ⟨held, hold, hnot⟩ : ∃ held ∈ e.tracks.get? r.icao24, ¬ held.terminated = true := by
      simpa only [not_forall, exists_prop] using hended
    exact story_continued h hk hold (Bool.eq_false_iff.mpr hnot)

/-- What a sweep adds. -/
theorem story_sweep (h : Story (e.tracks.get? icao24) log lives) (hfiled : e.Filed) (now : Instant) :
    ∃ lives' : List (Life k),
    Story ((e.sweep now).1.tracks.get? icao24) (log ++ emits icao24 e (.sweep now)) lives' ∧
      (lives'.IsChain Life.Before ↔ lives.IsChain Life.Before) := by
  have hemits : emits icao24 e (.sweep now) = ((e.tracks.get? icao24).bind fun record =>
      (e.sweepRecord now record).2).toList.map fun u => ⟨.sweep now, false, u⟩ := by
    refine congrArg (List.map _) (Dict.filter_filterMap_values _ ?_ icao24)
    intro key record hget u hu
    exact ((isOf_sweepRecord (hfiled key record hget) now).2 u hu).1
  have hget : (e.sweep now).1.tracks.get? icao24 = (e.tracks.get? icao24).map fun record =>
      (e.sweepRecord now record).1 := Dict.get?_mapValues _ _ _
  rw [hemits, hget]
  cases hold : e.tracks.get? icao24 with
  | none =>
    rw [hold] at h
    refine ⟨lives, ?_, Iff.rfl⟩
    simpa using h
  | some held =>
    obtain ⟨past, l, rfl, hl⟩ := h.held held hold
    rw [hold] at h
    simp only [Option.bind_some, Option.map_some]
    cases hout : (e.sweepRecord now held).2 with
    | none =>
      rw [sweepRecord_of_none hout hl.terminated.mpr]
      refine ⟨past ++ [l], ?_, Iff.rfl⟩
      simpa using h
    | some u =>
      obtain ⟨hlawful, hfollows⟩ := follows_sweep hl hout
      refine ⟨_, h.extends hlawful hfollows, ?_⟩
      simp only [chain_concat, Life.before_extend]

/-- One call. -/
theorem story_call (h : Story (e.tracks.get? icao24) log lives) (hfiled : e.Filed)
    (hk : e.confirmationUpdates = k) (call : Call) : ∃ lives' : List (Life k),
    Story ((e.after [call]).tracks.get? icao24) (log ++ emits icao24 e call) lives' ∧
      (lives'.IsChain Life.Before ↔ lives.IsChain Life.Before ∧ StartsFresh icao24 e call) := by
  cases call with
  | sweep now =>
    obtain ⟨lives', hstory, hchain⟩ := story_sweep h hfiled now
    have hfresh : StartsFresh icao24 e (.sweep now) := by rintro r ⟨⟩
    exact ⟨lives', hstory, by rw [hchain]; simp [hfresh]⟩
  | report r =>
    by_cases hr : r.icao24 = icao24
    · exact story_report h hk hr
    · have hfresh : StartsFresh icao24 e (.report r) := by
        rintro _ ⟨⟩ heq
        exact absurd heq hr
      have hget : (e.onReport r).1.tracks.get? icao24 = e.tracks.get? icao24 := by
        rw [onReport, Dict.get?_set, if_neg (Ne.symm hr)]
      refine ⟨lives, ?_, by simp [hfresh]⟩
      change Story ((e.onReport r).1.tracks.get? icao24) _ _
      rw [hget, emits, if_neg hr, List.append_nil]
      exact h

/-- A whole run. -/
theorem story_run (hempty : e.tracks = Dict.empty) (hk : e.confirmationUpdates = k) (icao24 : String)
    (calls : List Call) : (e.after calls).Filed ∧ (e.after calls).confirmationUpdates = k ∧
    ∃ lives : List (Life k),
    Story ((e.after calls).tracks.get? icao24) (emissions icao24 e calls) lives ∧
      (lives.IsChain Life.Before ↔
        EachAfter (fun before call => StartsFresh icao24 (e.after before) call) calls) := by
  induction calls using List.reverseRecOn with
  | nil =>
    have hnone : (e.after []).tracks.get? icao24 = none := by
      change e.tracks.get? icao24 = none
      rw [hempty, Dict.get?_empty]
    refine ⟨?_, hk, [], ?_, iff_of_true List.isChain_nil eachAfter_nil⟩
    · intro key record hget
      replace hget : e.tracks.get? key = some record := hget
      rw [hempty, Dict.get?_empty] at hget
      cases hget
    · rw [hnone]
      exact ⟨rfl, List.isChain_nil, fun _ => rfl, by rintro _ ⟨⟩⟩
  | append_singleton calls call ih =>
    obtain ⟨hfiled, hk', lives, hstory, hchain⟩ := ih
    obtain ⟨lives', hstory', hchain'⟩ := story_call hstory hfiled hk' call
    rw [after_concat, emissions_concat]
    refine ⟨?_, ?_, lives', hstory', ?_⟩
    · cases call with
      | report r => exact (filed_onReport hfiled r).1
      | sweep now => exact (filed_sweep hfiled now).1
    · cases call <;> exact hk'
    · rw [hchain', hchain, eachAfter_concat]

/-! ### Calls that raise -/

/-- The estimator after some calls, those that raise included. -/
def afterChecked (e : TrackEstimator) : List Call → TrackEstimator
  | [] => e
  | .report r :: calls => (e.onReportChecked r).1.afterChecked calls
  | .sweep now :: calls => (e.sweepChecked now).1.afterChecked calls

/-- What a call emits for an aircraft: nothing if it raises. -/
def emitsChecked (icao24 : String) (e : TrackEstimator) : Call → List Emission
  | .report r =>
    if r.icao24 = icao24 then
      (e.onReportChecked r).2.toList.map fun u => ⟨.report r, e.initiates r.icao24, u⟩
    else []
  | .sweep now =>
    (((e.sweepChecked now).2.getD []).filter fun u => u.icao24 = icao24).map fun u => ⟨.sweep now, false, u⟩

/-- What a run emits for an aircraft, in order. -/
def emissionsChecked (icao24 : String) (e : TrackEstimator) : List Call → List Emission
  | [] => []
  | call :: calls => emitsChecked icao24 e call ++ emissionsChecked icao24 (e.afterChecked [call]) calls

/-- Every call of a run keeps off the poles. -/
def RunKeepsOffPoles (e : TrackEstimator) (calls : List Call) : Prop :=
  EachAfter (fun before call => KeepsOffPoles (e.afterChecked before) call) calls

theorem afterChecked_concat (e : TrackEstimator) (calls : List Call) (call : Call) :
    e.afterChecked (calls ++ [call]) = (e.afterChecked calls).afterChecked [call] := by
  induction calls generalizing e with
  | nil => rfl
  | cons first calls ih => cases first <;> exact ih _

theorem emissionsChecked_concat (icao24 : String) (e : TrackEstimator) (calls : List Call) (call : Call) :
    emissionsChecked icao24 e (calls ++ [call]) =
      emissionsChecked icao24 e calls ++ emitsChecked icao24 (e.afterChecked calls) call := by
  induction calls generalizing e with
  | nil => exact List.append_nil _
  | cons first calls ih =>
    have hafter : e.afterChecked (first :: calls) = (e.afterChecked [first]).afterChecked calls := by
      cases first <;> rfl
    rw [List.cons_append, emissionsChecked, ih, ← List.append_assoc, hafter]
    rfl

/-- A call that keeps off the poles is answered as if nothing were checked. -/
theorem call_checked (h : Steady e) {call : Call} (hadmitted : ∀ r, call = .report r → r.Admitted)
    (hkeeps : KeepsOffPoles e call) : e.afterChecked [call] = e.after [call] ∧
      emitsChecked icao24 e call = emits icao24 e call ∧ Steady (e.after [call]) := by
  cases call with
  | report r =>
    obtain ⟨hanswered, hsteady⟩ := report_checked h (hadmitted r rfl)
    refine ⟨rfl, ?_, hsteady⟩
    simp only [emitsChecked, onReportChecked_of_admitted (hanswered.mpr hkeeps)]
    rfl
  | sweep now =>
    have hsweep := sweepChecked_of_answers ((answers_all_iff h).mpr hkeeps)
    refine ⟨congrArg Prod.fst hsweep, ?_, steady_sweep h now⟩
    simp only [emitsChecked, hsweep]
    rfl

/-- So is a whole run. -/
theorem run_checked (h : Steady e) {calls : List Call} (hadmitted : ∀ r, .report r ∈ calls → r.Admitted)
    (hkeeps : RunKeepsOffPoles e calls) : e.afterChecked calls = e.after calls ∧
      emissionsChecked icao24 e calls = emissions icao24 e calls ∧ Steady (e.after calls) := by
  induction calls using List.reverseRecOn with
  | nil => exact ⟨rfl, rfl, h⟩
  | append_singleton calls call ih =>
    obtain ⟨hbefore, hlast⟩ := eachAfter_concat.mp hkeeps
    obtain ⟨hafter, hemitted, hsteady⟩ := ih (fun r hr => hadmitted r (List.mem_append_left _ hr)) hbefore
    rw [hafter] at hlast
    have hcall := @call_checked _ icao24 hsteady call (fun r hr => hadmitted r (by simp [hr])) hlast
    rw [afterChecked_concat, after_concat, emissionsChecked_concat, emissions_concat, hafter, hemitted]
    exact ⟨hcall.1, by rw [hcall.2.1], hcall.2.2⟩

/-- What is said of every call of such a run may be said of either. -/
theorem eachAfter_checked (h : Steady e) {P : TrackEstimator → Call → Prop} {calls : List Call}
    (hadmitted : ∀ r, .report r ∈ calls → r.Admitted) (hkeeps : RunKeepsOffPoles e calls) :
    EachAfter (fun before call => P (e.afterChecked before) call) calls ↔
      EachAfter (fun before call => P (e.after before) call) calls := by
  induction calls using List.reverseRecOn with
  | nil => exact iff_of_true eachAfter_nil eachAfter_nil
  | append_singleton calls call ih =>
    have hearlier : ∀ r, .report r ∈ calls → r.Admitted := fun r hr => hadmitted r (List.mem_append_left _ hr)
    have hbefore := (eachAfter_concat.mp hkeeps).1
    rw [eachAfter_concat, eachAfter_concat, ih hearlier hbefore,
      (@run_checked _ "" h calls hearlier hbefore).1]

/-! ### Revived tracks -/

/-- Of a run that keeps off the poles what is emitted for an aircraft falls into lives in one way, each but the
    last ended; every next life begins with a report newer than all of the life before if and only if every
    report that finds a terminated record is newer than it. -/
theorem lives_begin_with_news_iff (e : TrackEstimator) (hempty : e.tracks = Dict.empty)
    (ht : e.tuning.Positive) (icao24 : String) (calls : List Call)
    (hadmitted : ∀ r, .report r ∈ calls → r.Admitted) (hkeeps : RunKeepsOffPoles e calls) :
    ∃ lives : List (Life e.confirmationUpdates),
    (∀ lives', emissionsChecked icao24 e calls = (lives'.map Life.emissions).flatten ↔ lives' = lives) ∧
    (lives.IsChain fun l _ => l.Ended) ∧ (lives.IsChain Life.Before ↔
      EachAfter (fun before call => StartsFresh icao24 (e.afterChecked before) call) calls) := by
  have hsteady := steady_empty hempty ht
  obtain ⟨-, -, lives, hstory, hchain⟩ := story_run hempty rfl icao24 calls
  rw [(run_checked hsteady hadmitted hkeeps).2.1, eachAfter_checked hsteady hadmitted hkeeps]
  refine ⟨lives, fun lives' => ⟨fun heq => ?_, ?_⟩, hstory.ended, hchain⟩
  · exact Life.eq_of_flatten_eq (heq.symm.trans hstory.emitted)
  · rintro rfl
    exact hstory.emitted

/-- The calls up to the end of the climbing aircraft's track keep off the poles, and so does a report after
    it. -/
theorem keepsOffPoles_climbEnded {r : SurveillanceReport} (hr : r.icao24 = "abc123") :
    RunKeepsOffPoles {} [.report climbStart, .sweep (seconds 31), .report r] := by
  obtain ⟨swept, v, record, hsweep, -, -, htracks, hterminated, -⟩ := sweep_climb_silent
  have hfirst : KeepsOffPoles {} (.report climbStart) := by
    rintro record ⟨⟩
  have hsecond := keepsOffPoles_climbStart (seconds 31)
  have hthird : KeepsOffPoles (({} : TrackEstimator).afterChecked
      [.report climbStart, .sweep (seconds 31)]) (.report r) := by
    have hstart : Steady ({} : TrackEstimator) := steady_empty rfl TrackFilter.positive_default
    have hsteady := (report_checked hstart admitted_climbStart).2
    have hanswered := sweepChecked_of_answers ((answers_all_iff hsteady).mpr hsecond)
    intro held hheld hlive
    change (sweepChecked (({} : TrackEstimator).onReport climbStart).1 _).1.tracks.get? _ = _ at hheld
    rw [hanswered, hsweep, htracks, hr, Dict.get?_set, if_pos rfl] at hheld
    obtain rfl := Option.some.inj hheld
    rw [hterminated] at hlive
    cases hlive
  exact eachAfter_concat.mpr ⟨eachAfter_concat.mpr ⟨eachAfter_concat.mpr ⟨eachAfter_nil, hfirst⟩, hsecond⟩,
    hthird⟩

/-- A track that ended after thirty-one silent seconds is revived by a report after sixty. -/
theorem lives_begin_with_news_revived : ∃ lives : List (Life 3),
    emissionsChecked "abc123" {}
      [.report climbStart, .sweep (seconds 31), .report (climbLater (seconds 60))] =
      (lives.map Life.emissions).flatten ∧ (lives.IsChain fun l _ => l.Ended) ∧
    lives.IsChain Life.Before := by
  obtain ⟨swept, v, record, hsweep, -, -, htracks, -, hlast⟩ := sweep_climb_silent
  have hadmitted : ∀ r, .report r ∈ [Call.report climbStart, .sweep (seconds 31),
      .report (climbLater (seconds 60))] → r.Admitted := by
    intro r hr
    rcases (by simpa using hr : r = climbStart ∨ r = climbLater (seconds 60)) with rfl | rfl
    · exact admitted_climbStart
    · exact admitted_climbLater _
  have hkeeps := keepsOffPoles_climbEnded (rfl : (climbLater (seconds 60)).icao24 = "abc123")
  obtain ⟨lives, hemitted, hended, hchain⟩ := lives_begin_with_news_iff {} rfl TrackFilter.positive_default
    "abc123" [.report climbStart, .sweep (seconds 31), .report (climbLater (seconds 60))] hadmitted hkeeps
  refine ⟨lives, (hemitted lives).mpr rfl, hended, hchain.mpr ?_⟩
  have hsteady : Steady ({} : TrackEstimator) := steady_empty rfl TrackFilter.positive_default
  rw [eachAfter_checked hsteady hadmitted hkeeps]
  have hfirst : StartsFresh "abc123" {} (.report climbStart) := by
    rintro _ ⟨⟩ - record ⟨⟩
  have hsecond : StartsFresh "abc123" (({} : TrackEstimator).after [.report climbStart])
      (.sweep (seconds 31)) := by
    rintro r ⟨⟩
  have hthird : StartsFresh "abc123"
      (({} : TrackEstimator).after [.report climbStart, .sweep (seconds 31)])
      (.report (climbLater (seconds 60))) := by
    rintro _ ⟨⟩ - held hheld -
    rw [after, after, after, hsweep, htracks, Dict.get?_set, if_pos rfl] at hheld
    rw [← Option.some.inj hheld, hlast]
    decide
  exact eachAfter_concat.mpr ⟨eachAfter_concat.mpr ⟨eachAfter_concat.mpr ⟨eachAfter_nil, hfirst⟩, hsecond⟩,
    hthird⟩

/-- The same report again, after the track has ended, starts the next life. -/
theorem stale_report_starts_life : ∃ u v w : TrackUpdate,
    emissionsChecked "abc123" {} [.report climbStart, .sweep (seconds 31), .report climbStart] =
      [⟨.report climbStart, true, u⟩, ⟨.sweep (seconds 31), false, v⟩, ⟨.report climbStart, true, w⟩] ∧
    v.state = .terminated ∧ w.state = .initiating := by
  obtain ⟨swept, v, record, hsweep, hicao, hstate, htracks, hterminated, hlast⟩ := sweep_climb_silent
  have hheld : swept.tracks.get? climbStart.icao24 = some record := by
    rw [htracks]
    exact (Dict.get?_set ..).trans (if_pos rfl)
  have hstarts : swept.initiates climbStart.icao24 = true := by
    rw [initiates, hheld]
    exact hterminated
  have hinitiating : (swept.onReport climbStart).2.state = .initiating := by
    rw [onReport_of_terminated hheld hterminated]
    exact (toUpdate_frame _ _).1
  have hadmitted : ∀ r, .report r ∈ [Call.report climbStart, .sweep (seconds 31), .report climbStart] →
      r.Admitted := by
    intro r hr
    obtain rfl : r = climbStart := by simpa using hr
    exact admitted_climbStart
  have hsteady : Steady ({} : TrackEstimator) := steady_empty rfl TrackFilter.positive_default
  refine ⟨(({} : TrackEstimator).onReport climbStart).2, v, (swept.onReport climbStart).2, ?_, hstate,
    hinitiating⟩
  rw [(run_checked hsteady hadmitted (keepsOffPoles_climbEnded rfl)).2.1]
  have hicao' : climbStart.icao24 = "abc123" := rfl
  have hfresh : ({} : TrackEstimator).initiates climbStart.icao24 = true := rfl
  simp only [emissions, emits, after, hsweep, hicao', if_true, List.filter_cons, hicao, decide_true,
    List.filter_nil, List.map_cons, List.map_nil]
  rw [← hicao', hfresh, hstarts]
  rfl

end TrackEstimator

end

end Airspace
