import Airspace.Storage.TrackHistory
import Mathlib.Data.List.Induction

/-! Cutting updates into batches.

    What a table holds is read at its key. A batch comes down to one row of `tracks` and to one point for
    each instant; over the batches the first row of a track fixes what an upsert leaves alone, the last one
    what it overwrites, and the first point of an instant is the one that stays. Inside a batch the newest
    update makes the row and the last one the point, so the cuts show unless the updates of a track come in
    order. -/

namespace Airspace

noncomputable section

namespace TrackHistoryStore

variable {store : TrackHistoryStore} {updates us : List TrackUpdate} {trackId : String} {observedAt : Instant}

/-! ### The update a batch is collapsed to -/

theorem latestOf_concat (us : List TrackUpdate) (u : TrackUpdate) :
    latestOf (us ++ [u]) = newerUpdate (latestOf us) u := List.foldl_concat ..

theorem earliestOf_concat (us : List TrackUpdate) (u : TrackUpdate) :
    earliestOf (us ++ [u]) = earlierReport (earliestOf us) u := List.foldl_concat ..

/-- The latest update is at least as new as all before it and newer than all after it. -/
theorem latestOf_split : ∀ {us : List TrackUpdate}, us ≠ [] →
    ∃ before u after, us = before ++ u :: after ∧ latestOf us = some u ∧
      (∀ v ∈ before, v.updatedAt ≤ u.updatedAt) ∧ ∀ v ∈ after, v.updatedAt < u.updatedAt := by
  intro us
  induction us using List.reverseRecOn with
  | nil => exact fun h => absurd rfl h
  | append_singleton us u ih =>
    intro _
    rw [latestOf_concat]
    rcases eq_or_ne us [] with rfl | hne
    · exact ⟨[], u, [], rfl, rfl, by simp, by simp⟩
    obtain ⟨before, latest, after, rfl, hlatest, hbefore, hafter⟩ := ih hne
    rw [hlatest, newerUpdate]
    split_ifs with hnew
    · refine ⟨before ++ latest :: after, u, [], rfl, rfl, ?_, by simp⟩
      intro v hv
      rcases List.mem_append.mp hv with hv | hv
      · exact (hbefore v hv).trans hnew
      · rcases List.mem_cons.mp hv with rfl | hv
        · exact hnew
        · exact (hafter v hv).le.trans hnew
    · refine ⟨before, latest, after ++ [u], by simp, rfl, hbefore, ?_⟩
      intro v hv
      rcases List.mem_append.mp hv with hv | hv
      · exact hafter v hv
      · rw [List.mem_singleton.mp hv]
        exact not_le.mp hnew

/-- An update at least as new as all before it is the latest so far. -/
theorem latestOf_concat_of_le {u : TrackUpdate} (h : ∀ v ∈ us, v.updatedAt ≤ u.updatedAt) :
    latestOf (us ++ [u]) = some u := by
  rw [latestOf_concat]
  rcases eq_or_ne us [] with rfl | hne
  · rfl
  obtain ⟨before, latest, after, rfl, hlatest, -⟩ := latestOf_split hne
  rw [hlatest, newerUpdate, if_pos (h latest (by simp))]

theorem earliestOf_spec : ∀ {us : List TrackUpdate}, us ≠ [] →
    ∃ u ∈ us, earliestOf us = some u.lastReportAt ∧ ∀ v ∈ us, u.lastReportAt ≤ v.lastReportAt := by
  intro us
  induction us using List.reverseRecOn with
  | nil => exact fun h => absurd rfl h
  | append_singleton us u ih =>
    intro _
    rw [earliestOf_concat]
    rcases eq_or_ne us [] with rfl | hne
    · exact ⟨u, by simp, rfl, by simp⟩
    obtain ⟨first, hfirst, hearliest, hle⟩ := ih hne
    rw [hearliest, earlierReport]
    simp only [List.mem_append, List.mem_singleton]
    split_ifs with hlt
    · refine ⟨u, .inr rfl, rfl, ?_⟩
      rintro v (hv | rfl)
      · exact hlt.le.trans (hle v hv)
      · exact le_rfl
    · refine ⟨first, .inl hfirst, rfl, ?_⟩
      rintro v (hv | rfl)
      · exact hle v hv
      · exact not_lt.mp hlt

theorem latestOf_mem {u : TrackUpdate} (h : latestOf us = some u) : u ∈ us := by
  have hne : us ≠ [] := by
    rintro rfl
    exact nomatch h
  obtain ⟨before, latest, after, rfl, hlatest, -⟩ := latestOf_split hne
  obtain rfl : latest = u := Option.some_inj.mp (hlatest.symm.trans h)
  simp

/-! ### One batch, read at a key -/

/-- The row of `tracks` a batch of updates of one track comes down to. -/
def batchRow (us : List TrackUpdate) : Option TrackRow :=
  (latestOf us).map fun u => trackRow u ((earliestOf us).getD u.lastReportAt)

/-- The point a batch of updates of one track and instant comes down to. -/
def batchPoint (us : List TrackUpdate) : Option TrackPoint := us.getLast?.map pointRow

theorem get?_upsert (tracks : Dict String TrackRow) (row : TrackRow) (trackId : String) :
    (upsert tracks row).get? trackId =
      if row.trackId = trackId then upserted (tracks.get? trackId) row else tracks.get? trackId := by
  obtain ⟨kept, hkept⟩ : ∃ kept, upserted (tracks.get? row.trackId) row = some kept := by
    unfold upserted
    split
    · exact ⟨_, rfl⟩
    · exact ⟨_, rfl⟩
  simp only [upsert, hkept, Dict.get?_set]
  by_cases hid : trackId = row.trackId
  · subst hid
    simp [hkept]
  · simp [hid, Ne.symm hid]

theorem get?_insertPoint (points : Dict (String × Instant) TrackPoint) (row : TrackPoint)
    (key : String × Instant) : (insertPoint points row).get? key =
      if (row.trackId, row.observedAt) = key then (points.get? key).or (some row) else points.get? key := by
  unfold insertPoint
  split <;> rename_i h
  · rw [Dict.get?_set]
    by_cases hkey : key = (row.trackId, row.observedAt)
    · rw [if_pos hkey, if_pos hkey.symm, hkey, h, Option.none_or]
    · rw [if_neg hkey, if_neg (Ne.symm hkey)]
  · split_ifs with hkey
    · rw [← hkey, h, Option.some_or]
    · rfl

/-- A batch changes the row of a track as its own updates say. -/
theorem get?_tracks_record (store : TrackHistoryStore) (updates : List TrackUpdate) (trackId : String) :
    (store.record updates).tracks.get? trackId =
      (batchRow (ofTrack trackId updates)).toList.foldl upserted (store.tracks.get? trackId) := by
  cases updates with
  | nil => rfl
  | cons first rest =>
    set updates := first :: rest with hupdates
    set collapsed := updates.foldl collapse (Dict.empty, Dict.empty) with hcollapsed
    have hkeyed : ∀ id u, collapsed.1.get? id = some u → u.trackId = id := by
      intro id u hu
      rw [hcollapsed, (get?_collapsed updates id).1] at hu
      simpa [ofTrack] using (List.mem_filter.mp (latestOf_mem hu)).2
    have hrows := Dict.filter_filterMap_values TrackRow.trackId (d := collapsed.1)
      (f := fun u => some (trackRow u ((collapsed.2.get? u.trackId).getD u.lastReportAt)))
      (fun id u hu row hrow => by
        obtain rfl : trackRow u _ = row := by simpa using hrow
        exact hkeyed id u hu) trackId
    have hstep := view_foldl_filter (fun id (d : Dict String TrackRow) => d.get? id) TrackRow.trackId _
      get?_upsert
      (collapsed.1.values.map fun u => trackRow u ((collapsed.2.get? u.trackId).getD u.lastReportAt))
      store.tracks trackId
    refine hstep.trans ?_
    rw [← List.filterMap_eq_map', hrows, hcollapsed, (get?_collapsed updates trackId).1]
    unfold batchRow
    cases hlatest : latestOf (ofTrack trackId updates) with
    | none => rfl
    | some u =>
      have hid : u.trackId = trackId := by simpa [ofTrack] using (List.mem_filter.mp (latestOf_mem hlatest)).2
      simp [hid, (get?_collapsed updates trackId).2]

/-- A batch adds the point of an instant that has none yet. -/
theorem get?_points_record (store : TrackHistoryStore) (updates : List TrackUpdate) (trackId : String)
    (observedAt : Instant) : (store.record updates).points.get? (trackId, observedAt) =
      (store.points.get? (trackId, observedAt)).or (batchPoint (atInstant trackId observedAt updates)) := by
  cases updates with
  | nil => exact (Option.or_none).symm
  | cons first rest =>
    set updates := first :: rest with hupdates
    set points := updates.foldl (fun d u => d.set (u.trackId, u.updatedAt) u) Dict.empty with hpoints
    have hget : ∀ key, points.get? key =
        (updates.filter fun u => (u.trackId, u.updatedAt) = key).getLast? := fun key =>
      (view_foldl_filter (fun key (d : Dict (String × Instant) TrackUpdate) => d.get? key)
        (fun u : TrackUpdate => (u.trackId, u.updatedAt)) (fun _ u => some u)
        (fun d u key => by simp [eq_comm]) updates Dict.empty key).trans
        ((foldl_overwrite ..).trans Option.or_none)
    have hrows := Dict.filter_filterMap_values (fun row : TrackPoint => (row.trackId, row.observedAt))
      (d := points) (f := fun u => some (pointRow u)) (fun key u hu row hrow => by
        obtain rfl : pointRow u = row := by simpa using hrow
        rw [hget] at hu
        exact of_decide_eq_true (List.mem_filter.mp (List.mem_of_getLast? hu)).2) (trackId, observedAt)
    have hstep := view_foldl_filter
      (fun key (d : Dict (String × Instant) TrackPoint) => d.get? key)
      (fun row : TrackPoint => (row.trackId, row.observedAt))
      (fun held row => held.or (some row)) get?_insertPoint
      (points.values.map pointRow) store.points (trackId, observedAt)
    refine hstep.trans ?_
    rw [← List.filterMap_eq_map', hrows, hget, batchPoint, atInstant]
    cases (updates.filter fun u => (u.trackId, u.updatedAt) = (trackId, observedAt)).getLast? with
    | none => exact Option.or_none.symm
    | some u => rfl

/-! ### One batch twice -/

/-- An upsert leaves nothing for a second one of the same row to change. -/
theorem upserted_upserted (held : Option TrackRow) (row : TrackRow) :
    upserted (upserted held row) row = upserted held row := by
  cases held <;> rfl

/-- A batch recorded again leaves both tables as they are. -/
theorem record_is_idempotent (store : TrackHistoryStore) (updates : List TrackUpdate) :
    SameTables ((store.record updates).record updates) (store.record updates) where
  tracks trackId := by
    rw [get?_tracks_record, get?_tracks_record]
    cases batchRow (ofTrack trackId updates) with
    | none => rfl
    | some row => exact upserted_upserted _ row
  points trackId observedAt := by
    rw [get?_points_record, get?_points_record, Option.or_assoc, Option.or_self]

/-! ### Batch after batch -/

theorem ofTrack_append (before after : List TrackUpdate) :
    ofTrack trackId (before ++ after) = ofTrack trackId before ++ ofTrack trackId after :=
  List.filter_append ..

theorem ofTrack_flatten (cut : List (List TrackUpdate)) :
    ofTrack trackId cut.flatten = (cut.map (ofTrack trackId)).flatten := List.filter_flatten ..

theorem atInstant_flatten (cut : List (List TrackUpdate)) :
    atInstant trackId observedAt cut.flatten = (cut.map (atInstant trackId observedAt)).flatten :=
  List.filter_flatten ..

/-- The first row stays but for the columns the last one overwrites. -/
theorem foldl_upserted {first last : TrackRow} (rows : List TrackRow)
    (hlast : (first :: rows).getLast? = some last) :
    (first :: rows).foldl upserted none = some (doUpdate first last) := by
  induction rows using List.reverseRecOn generalizing last with
  | nil =>
    obtain rfl := Option.some_inj.mp hlast
    rfl
  | append_singleton rows row ih =>
    rw [← List.cons_append] at hlast ⊢
    rw [List.getLast?_concat, Option.some_inj] at hlast
    rw [List.foldl_concat, ih (List.getLast?_eq_some_getLast (List.cons_ne_nil _ _)), upserted, hlast]
    rfl

/-- The rows the batches of a track come down to. -/
def batchRows (trackId : String) (cut : List (List TrackUpdate)) : List TrackRow :=
  (cut.map (ofTrack trackId)).filterMap batchRow

theorem get?_tracks_foldl_record (cut : List (List TrackUpdate)) (store : TrackHistoryStore)
    (trackId : String) : (cut.foldl record store).tracks.get? trackId =
      (batchRows trackId cut).foldl upserted (store.tracks.get? trackId) := by
  induction cut generalizing store with
  | nil => rfl
  | cons batch cut ih =>
    rw [List.foldl_cons, ih, get?_tracks_record, batchRows, batchRows, List.map_cons, List.filterMap_cons]
    cases batchRow (ofTrack trackId batch) with
    | none => rfl
    | some row => rfl

theorem get?_points_foldl_record (cut : List (List TrackUpdate)) (store : TrackHistoryStore)
    (trackId : String) (observedAt : Instant) :
    (cut.foldl record store).points.get? (trackId, observedAt) =
      (store.points.get? (trackId, observedAt)).or
        ((cut.map (atInstant trackId observedAt)).findSome? batchPoint) := by
  induction cut generalizing store with
  | nil => exact Option.or_none.symm
  | cons batch cut ih =>
    rw [List.foldl_cons, ih, get?_points_record, Option.or_assoc, List.map_cons, List.findSome?_cons]
    cases batchPoint (atInstant trackId observedAt batch) with
    | none => rfl
    | some point => rfl

/-! ### Which cuts show -/

/-- The updates of one track come in order: the last is the newest, the first has the earliest report, what
    is newest on the way belongs to the aircraft and the scenario of the first, and one instant has one
    estimate. -/
structure InOrder (us : List TrackUpdate) : Prop where
  newest : ∀ last ∈ us.getLast?, ∀ u ∈ us, u.updatedAt ≤ last.updatedAt
  earliest : ∀ first ∈ us.head?, ∀ u ∈ us, first.lastReportAt ≤ u.lastReportAt
  identity : ∀ first ∈ us.head?, ∀ before u after, us = before ++ u :: after →
    (∀ v ∈ before, v.updatedAt ≤ u.updatedAt) →
      u.icao24 = first.icao24 ∧ u.scenarioId = first.scenarioId
  instants : ∀ u ∈ us, ∀ v ∈ us, u.updatedAt = v.updatedAt → pointRow u = pointRow v

theorem batchRow_of_ne_nil (h : us ≠ []) :
    ∃ u ∈ us, ∃ v ∈ us, latestOf us = some u ∧ earliestOf us = some v.lastReportAt ∧
      batchRow us = some (trackRow u v.lastReportAt) := by
  obtain ⟨before, u, after, heq, hlatest, -⟩ := latestOf_split h
  obtain ⟨v, hv, hearliest, -⟩ := earliestOf_spec h
  refine ⟨u, by simp [heq], v, hv, hlatest, hearliest, ?_⟩
  rw [batchRow, hlatest, hearliest]
  rfl

/-- The first row comes from a first part of the updates. -/
theorem exists_first_row : ∀ {parts : List (List TrackUpdate)}, parts.flatten ≠ [] →
    ∃ pre post row rows, parts.flatten = pre ++ post ∧ pre ≠ [] ∧ batchRow pre = some row ∧
      parts.filterMap batchRow = row :: rows
  | [], h => absurd rfl h
  | part :: parts, h => by
      rcases eq_or_ne part [] with rfl | hne
      · have hrest : parts.flatten ≠ [] := h
        obtain ⟨pre, post, row, rows, heq, hpre, hrow, hrows⟩ := exists_first_row hrest
        exact ⟨pre, post, row, rows, heq, hpre, hrow, by rw [List.filterMap_cons]; exact hrows⟩
      · obtain ⟨u, -, v, -, -, -, hrow⟩ := batchRow_of_ne_nil hne
        exact ⟨part, parts.flatten, _, parts.filterMap batchRow, rfl, hne, hrow,
          by rw [List.filterMap_cons, hrow]⟩

/-- The last row comes from a last part of the updates. -/
theorem exists_last_row (parts : List (List TrackUpdate)) (h : parts.flatten ≠ []) :
    ∃ pre post rows row, parts.flatten = pre ++ post ∧ post ≠ [] ∧ batchRow post = some row ∧
      parts.filterMap batchRow = rows ++ [row] := by
  induction parts using List.reverseRecOn with
  | nil => exact absurd rfl h
  | append_singleton parts part ih =>
    rw [List.flatten_concat] at h ⊢
    rw [List.filterMap_append]
    rcases eq_or_ne part [] with rfl | hne
    · obtain ⟨pre, post, rows, row, heq, hpost, hrow, hrows⟩ := ih (by simpa using h)
      exact ⟨pre, post, rows, row, by simpa using heq, hpost, hrow, by rw [hrows]; exact List.append_nil _⟩
    · obtain ⟨u, -, v, -, -, -, hrow⟩ := batchRow_of_ne_nil hne
      exact ⟨parts.flatten, part, _, _, rfl, hne, hrow,
        by rw [List.filterMap_cons, hrow, List.filterMap_nil]⟩

theorem trackId_of_mem {u : TrackUpdate} (h : u ∈ ofTrack trackId updates) : u.trackId = trackId :=
  of_decide_eq_true (List.mem_filter.mp h).2

/-- The row of a first part has the identity and the first report of the first update. -/
theorem row_of_first_part {pre rest : List TrackUpdate} {first : TrackUpdate} {row : TrackRow}
    (h : InOrder (pre ++ rest)) (hne : pre ≠ []) (hfirst : (pre ++ rest).head? = some first)
    (hid : ∀ u ∈ pre ++ rest, u.trackId = trackId) (hrow : batchRow pre = some row) :
    row.trackId = first.trackId ∧ row.icao24 = first.icao24 ∧ row.scenarioId = first.scenarioId ∧
      row.firstSeenAt = first.lastReportAt := by
  obtain ⟨before, u, after, heq, hlatest, hbefore, -⟩ := latestOf_split hne
  obtain ⟨v, hv, hearliest, hle⟩ := earliestOf_spec hne
  obtain rfl : trackRow u v.lastReportAt = row := by
    simpa [batchRow, hlatest, hearliest] using hrow
  have hfirstmem : first ∈ pre := by
    obtain ⟨a, pre, rfl⟩ := List.exists_cons_of_ne_nil hne
    rw [List.cons_append, List.head?_cons, Option.some_inj] at hfirst
    exact hfirst ▸ List.mem_cons_self
  have hmem : ∀ w ∈ pre, w ∈ pre ++ rest := fun w hw => List.mem_append_left _ hw
  obtain ⟨hicao, hscenario⟩ := h.identity first hfirst before u (after ++ rest)
    (by rw [heq, List.append_assoc, List.cons_append]) hbefore
  refine ⟨?_, hicao, hscenario, le_antisymm (hle first hfirstmem) (h.earliest first hfirst v (hmem v hv))⟩
  exact (hid u (hmem u (latestOf_mem hlatest))).trans (hid first (hmem first hfirstmem)).symm

/-- The row of a last part has the state of the last update. -/
theorem row_of_last_part {init post : List TrackUpdate} {last : TrackUpdate} {row : TrackRow}
    (h : InOrder (init ++ post)) (hne : post ≠ []) (hlast : (init ++ post).getLast? = some last)
    (hrow : batchRow post = some row) : ∃ t, row = trackRow last t := by
  obtain ⟨before, u, after, heq, hlatest, -, hafter⟩ := latestOf_split hne
  obtain ⟨v, -, hearliest, -⟩ := earliestOf_spec hne
  have hlastpost : post.getLast? = some last := by
    rw [← hlast, List.getLast?_append_of_ne_nil _ hne]
  suffices hu : u = last by
    refine ⟨v.lastReportAt, ?_⟩
    simpa [batchRow, hlatest, hearliest, hu, eq_comm] using hrow
  rcases List.eq_nil_or_concat' after with rfl | ⟨after, w, rfl⟩
  · simpa [heq] using hlastpost
  · have hw : w = last := by
      rw [heq, ← List.cons_append, ← List.append_assoc, List.getLast?_concat] at hlastpost
      exact Option.some_inj.mp hlastpost
    have hle := h.newest last hlast u (by rw [heq]; simp)
    exact absurd (hafter last (by simp [hw])) (not_lt.mpr hle)

/-- The row of a track whose updates come in order, under any cut. -/
theorem row_of_inOrder {parts : List (List TrackUpdate)} {first last : TrackUpdate}
    (h : InOrder parts.flatten) (hfirst : parts.flatten.head? = some first)
    (hlast : parts.flatten.getLast? = some last) (hid : ∀ u ∈ parts.flatten, u.trackId = trackId) :
    (parts.filterMap batchRow).foldl upserted none =
      some (doUpdate (trackRow first first.lastReportAt) (trackRow last last.lastReportAt)) := by
  have hne : parts.flatten ≠ [] := by
    intro hnil
    rw [hnil] at hfirst
    exact nomatch hfirst
  obtain ⟨pre, rest, row, rows, hpre, hprene, hrow, hrows⟩ := exists_first_row hne
  obtain ⟨init, post, rows', row', hpost, hpostne, hrow', hrows'⟩ := exists_last_row parts hne
  obtain ⟨h₁, h₂, h₃, h₄⟩ := row_of_first_part (hpre ▸ h) hprene (hpre ▸ hfirst) (hpre ▸ hid) hrow
  obtain ⟨t, rfl⟩ := row_of_last_part (hpost ▸ h) hpostne (hpost ▸ hlast) hrow'
  have hgetLast : (row :: rows).getLast? = some (trackRow last t) := by
    rw [← hrows, hrows', List.getLast?_concat]
  rw [hrows, foldl_upserted rows hgetLast]
  simp [doUpdate, trackRow, h₁, h₂, h₃, h₄]

/-- The point of an instant is one of the estimates of that instant. -/
theorem findSome?_batchPoint : ∀ parts : List (List TrackUpdate),
    (parts.flatten = [] ∧ parts.findSome? batchPoint = none) ∨
      ∃ u ∈ parts.flatten, parts.findSome? batchPoint = some (pointRow u)
  | [] => .inl ⟨rfl, rfl⟩
  | part :: parts => by
      rw [List.findSome?_cons, List.flatten_cons]
      rcases List.eq_nil_or_concat' part with rfl | ⟨init, u, rfl⟩
      · exact findSome?_batchPoint parts
      · refine .inr ⟨u, by simp, ?_⟩
        rw [batchPoint, List.getLast?_concat]
        rfl

/-- The row of updates that come in order: the first with what the last one overwrites. -/
def orderedRow (us : List TrackUpdate) : Option TrackRow :=
  us.head?.bind fun first => us.getLast?.map fun last =>
    doUpdate (trackRow first first.lastReportAt) (trackRow last last.lastReportAt)

/-- Under every cut a track whose updates come in order gets that row. -/
theorem tracks_of_inOrder {cut : List (List TrackUpdate)} (hcut : cut.flatten = updates)
    (h : InOrder (ofTrack trackId updates)) :
    (cut.foldl record {}).tracks.get? trackId = orderedRow (ofTrack trackId updates) := by
  rw [get?_tracks_foldl_record]
  change (batchRows trackId cut).foldl upserted none = _
  subst hcut
  rw [ofTrack_flatten] at h ⊢
  rcases eq_or_ne (cut.map (ofTrack trackId)).flatten [] with hnil | hne
  · have hnone : batchRows trackId cut = [] := by
      rw [batchRows, List.filterMap_eq_nil_iff]
      intro part hpart
      rw [List.flatten_eq_nil_iff.mp hnil part hpart]
      rfl
    rw [hnone, hnil]
    rfl
  · have hfirst := List.head?_eq_some_head hne
    have hlast := List.getLast?_eq_some_getLast hne
    have hid : ∀ u ∈ (cut.map (ofTrack trackId)).flatten, u.trackId = trackId :=
      fun u hu => trackId_of_mem (ofTrack_flatten cut ▸ hu)
    refine (row_of_inOrder h hfirst hlast hid).trans ?_
    rw [orderedRow, hfirst, hlast]
    rfl

/-- Under every cut an instant gets the point of one of its updates, if it has any. -/
theorem points_of_cut {cut : List (List TrackUpdate)} (hcut : cut.flatten = updates) (trackId : String)
    (observedAt : Instant) :
    (atInstant trackId observedAt updates = [] ∧
      (cut.foldl record {}).points.get? (trackId, observedAt) = none) ∨
    ∃ u ∈ atInstant trackId observedAt updates,
      (cut.foldl record {}).points.get? (trackId, observedAt) = some (pointRow u) := by
  have hpoint := findSome?_batchPoint (cut.map (atInstant trackId observedAt))
  rw [← atInstant_flatten, hcut] at hpoint
  rw [get?_points_foldl_record]
  exact hpoint

theorem mem_atInstant {u : TrackUpdate} : u ∈ atInstant trackId observedAt updates ↔
    u ∈ ofTrack trackId updates ∧ u.updatedAt = observedAt := by
  simp [atInstant, ofTrack, and_assoc]

theorem points_of_inOrder {cut₁ cut₂ : List (List TrackUpdate)} (hcut₁ : cut₁.flatten = updates)
    (hcut₂ : cut₂.flatten = updates) (h : InOrder (ofTrack trackId updates)) :
    (cut₁.foldl record {}).points.get? (trackId, observedAt) =
      (cut₂.foldl record {}).points.get? (trackId, observedAt) := by
  rcases points_of_cut hcut₁ trackId observedAt with ⟨hnil, hnone⟩ | ⟨u, hu, hsome₁⟩
  · rcases points_of_cut hcut₂ trackId observedAt with ⟨-, hnone₂⟩ | ⟨v, hv, -⟩
    · rw [hnone, hnone₂]
    · rw [hnil] at hv
      exact absurd hv List.not_mem_nil
  · rcases points_of_cut hcut₂ trackId observedAt with ⟨hnil, -⟩ | ⟨v, hv, hsome₂⟩
    · rw [hnil] at hu
      exact absurd hu List.not_mem_nil
    · obtain ⟨hutrack, huat⟩ := mem_atInstant.mp hu
      obtain ⟨hvtrack, hvat⟩ := mem_atInstant.mp hv
      rw [hsome₁, hsome₂, h.instants u hutrack v hvtrack (huat.trans hvat.symm)]

/-- Every update in a batch of its own. -/
def singletons (updates : List TrackUpdate) : List (List TrackUpdate) := updates.map fun u => [u]

theorem flatten_singletons (updates : List TrackUpdate) : (singletons updates).flatten = updates := by
  induction updates with
  | nil => rfl
  | cons u updates ih => rw [singletons, List.map_cons, List.flatten_cons, ← singletons, ih]; rfl

theorem batchRows_singletons (updates : List TrackUpdate) :
    batchRows trackId (singletons updates) =
      (ofTrack trackId updates).map fun u => trackRow u u.lastReportAt := by
  induction updates with
  | nil => rfl
  | cons u updates ih =>
    simp only [batchRows, singletons, List.map_cons, ofTrack, List.filter_cons, List.filterMap_cons] at ih ⊢
    split_ifs with hid
    · simp only [List.filter_nil, List.map_cons, ← ih]
      rfl
    · simpa [batchRow, latestOf] using ih

theorem row_singletons {first last : TrackUpdate} (hfirst : (ofTrack trackId updates).head? = some first)
    (hlast : (ofTrack trackId updates).getLast? = some last) :
    ((singletons updates).foldl record {}).tracks.get? trackId =
      some (doUpdate (trackRow first first.lastReportAt) (trackRow last last.lastReportAt)) := by
  obtain ⟨rest, hus⟩ := List.head?_eq_some_iff.mp hfirst
  rw [get?_tracks_foldl_record, batchRows_singletons, hus]
  rw [hus] at hlast
  refine foldl_upserted _ ?_
  rw [← List.map_cons (f := fun u : TrackUpdate => trackRow u u.lastReportAt), List.getLast?_map, hlast]
  rfl

theorem row_two_batches {before : List TrackUpdate} (after : List TrackUpdate) {u : TrackUpdate}
    {earliest : Instant} (hlatest : latestOf (ofTrack trackId before) = some u)
    (hearliest : earliestOf (ofTrack trackId before) = some earliest) :
    ∃ row, ([before, after].foldl record {}).tracks.get? trackId =
      some (doUpdate (trackRow u earliest) row) ∧ (after = [] → row = trackRow u earliest) := by
  have hrow : batchRow (ofTrack trackId before) = some (trackRow u earliest) := by
    rw [batchRow, hlatest, hearliest]
    rfl
  rw [get?_tracks_foldl_record, batchRows]
  simp only [List.map_cons, List.map_nil, List.filterMap_cons, hrow]
  refine ⟨_, foldl_upserted _ (List.getLast?_eq_some_getLast (List.cons_ne_nil _ _)), ?_⟩
  rintro rfl
  rfl

/-- When the cuts do not show, a first part of the updates has the identity and the first report of the
    first update. -/
theorem first_part_of_sameTables {before after : List TrackUpdate} {first u : TrackUpdate} {earliest : Instant}
    (h : SameTables ((singletons (before ++ after)).foldl record {}) ([before, after].foldl record {}))
    (hfirst : (ofTrack trackId (before ++ after)).head? = some first)
    (hlatest : latestOf (ofTrack trackId before) = some u)
    (hearliest : earliestOf (ofTrack trackId before) = some earliest) :
    u.icao24 = first.icao24 ∧ u.scenarioId = first.scenarioId ∧ earliest = first.lastReportAt := by
  have hne : ofTrack trackId (before ++ after) ≠ [] := by
    intro hnil
    rw [hnil] at hfirst
    exact nomatch hfirst
  obtain ⟨row, hrow, -⟩ := row_two_batches after hlatest hearliest
  have hsame := h.tracks trackId
  rw [row_singletons hfirst (List.getLast?_eq_some_getLast hne), hrow, Option.some_inj] at hsame
  exact ⟨(congrArg TrackRow.icao24 hsame).symm, (congrArg TrackRow.scenarioId hsame).symm,
    (congrArg TrackRow.firstSeenAt hsame).symm⟩

/-- When one batch of all updates makes the row that batches of one make, the last update is the newest. -/
theorem newest_of_sameTables {last : TrackUpdate}
    (h : SameTables ((singletons updates).foldl record {}) ([updates, []].foldl record {}))
    (hlast : (ofTrack trackId updates).getLast? = some last) :
    ∀ u ∈ ofTrack trackId updates, u.updatedAt ≤ last.updatedAt := by
  intro u hu
  have hne := List.ne_nil_of_mem hu
  obtain ⟨before, latest, after, heq, hlatest, hbefore, hafter⟩ := latestOf_split hne
  obtain ⟨v, -, hearliest, -⟩ := earliestOf_spec hne
  obtain ⟨row, hrow, hwhole⟩ := row_two_batches [] hlatest hearliest
  have hsame := h.tracks trackId
  rw [row_singletons (List.head?_eq_some_head hne) hlast, hrow, hwhole rfl, Option.some_inj] at hsame
  have hat : last.updatedAt = latest.updatedAt := congrArg TrackRow.lastSeenAt hsame
  rw [heq] at hu
  rw [hat]
  rcases List.mem_append.mp hu with hu | hu
  · exact hbefore u hu
  · rcases List.mem_cons.mp hu with rfl | hu
    · exact le_rfl
    · exact (hafter u hu).le

/-- A cut before which an update is the last of its instant makes its point. -/
theorem points_of_first_part {before after : List TrackUpdate} {init : List TrackUpdate} {u : TrackUpdate}
    (h : atInstant trackId observedAt before = init ++ [u]) :
    ([before, after].foldl record {}).points.get? (trackId, observedAt) = some (pointRow u) := by
  rw [get?_points_foldl_record]
  simp only [List.map_cons, List.findSome?_cons, h, batchPoint, List.getLast?_concat]
  rfl

/-- When the cuts do not show, the updates of every track come in order. -/
theorem inOrder_of_sameTables (h : ∀ cut₁ cut₂ : List (List TrackUpdate), cut₁.flatten = updates →
    cut₂.flatten = updates → SameTables (cut₁.foldl record {}) (cut₂.foldl record {})) :
    InOrder (ofTrack trackId updates) := by
  have hcut : ∀ before after : List TrackUpdate, updates = before ++ after →
      SameTables ((singletons updates).foldl record {}) ([before, after].foldl record {}) := by
    rintro before after rfl
    exact h _ _ (flatten_singletons _) (by simp)
  have hwhole := hcut updates [] (List.append_nil _).symm
  constructor
  case newest => exact fun last hlast => newest_of_sameTables hwhole hlast
  case earliest =>
    intro first hfirst u hu
    have hne := List.ne_nil_of_mem hu
    obtain ⟨before, latest, after, -, hlatest, -⟩ := latestOf_split hne
    obtain ⟨v, -, hearliest, hle⟩ := earliestOf_spec hne
    have happend : SameTables ((singletons (updates ++ [])).foldl record {})
        ([updates, []].foldl record {}) := by
      rwa [List.append_nil]
    have heq := (first_part_of_sameTables happend (by rwa [List.append_nil]) hlatest hearliest).2.2
    exact heq ▸ hle u hu
  case identity =>
    intro first hfirst before u after heq hbefore
    obtain ⟨front, back, rfl, hfront, -⟩ := List.filter_eq_append_iff.mp
      (show ofTrack trackId updates = (before ++ [u]) ++ after by rw [heq, List.append_assoc]; rfl)
    have hlatest : latestOf (ofTrack trackId front) = some u := by
      rw [ofTrack, hfront]
      exact latestOf_concat_of_le hbefore
    obtain ⟨v, -, hearliest, -⟩ := earliestOf_spec
      (show ofTrack trackId front ≠ [] by rw [ofTrack, hfront]; simp)
    obtain ⟨hicao, hscenario, -⟩ := first_part_of_sameTables (hcut front back rfl) hfirst hlatest hearliest
    exact ⟨hicao, hscenario⟩
  case instants =>
    -- the cut after an update keeps its point
    have hpoint : ∀ u ∈ ofTrack trackId updates,
        ((singletons updates).foldl record {}).points.get? (trackId, u.updatedAt) = some (pointRow u) := by
      intro u hu
      obtain ⟨before, after, heq⟩ := List.append_of_mem (mem_atInstant.mpr ⟨hu, rfl⟩)
      obtain ⟨front, back, rfl, hfront, -⟩ := List.filter_eq_append_iff.mp
        (show atInstant trackId u.updatedAt updates = (before ++ [u]) ++ after by
          rw [heq, List.append_assoc]; rfl)
      rw [(hcut front back rfl).points]
      exact points_of_first_part hfront
    intro u hu v hv hat
    have hpu := hpoint u hu
    rw [hat, hpoint v hv] at hpu
    exact (Option.some_inj.mp hpu).symm

/-- The cuts do not show exactly when the updates of every track come in order. -/
theorem history_independent_of_batching_iff (updates : List TrackUpdate) :
    (∀ cut₁ cut₂ : List (List TrackUpdate), cut₁.flatten = updates → cut₂.flatten = updates →
      SameTables (cut₁.foldl record {}) (cut₂.foldl record {})) ↔
      ∀ trackId, InOrder (ofTrack trackId updates) := by
  constructor
  · intro h trackId
    exact inOrder_of_sameTables h
  · intro h cut₁ cut₂ hcut₁ hcut₂
    exact ⟨fun trackId =>
        (tracks_of_inOrder hcut₁ (h trackId)).trans (tracks_of_inOrder hcut₂ (h trackId)).symm,
      fun trackId _ => points_of_inOrder hcut₁ hcut₂ (h trackId)⟩

/-- An estimate for one aircraft at the time of a report. -/
def estimateAt (reportedAt : Instant) : TrackUpdate where
  trackId := "trk-1"
  icao24 := "a1b2c3"
  updatedAt := reportedAt
  lastReportAt := reportedAt
  state := .confirmed
  lat := 0
  lon := 0
  altitudeFt := 0
  groundSpeedKt := 0
  trackDeg := 0
  verticalRateFpm := 0
  turnRateDegS := 0
  positionUncertaintyM := 0
  updateCount := 5

/-- An estimate that follows a newer one: in one batch with it, it loses the row, in a batch of its own it
    takes it. -/
theorem older_estimate_shows_the_cut : ¬ ∀ (updates : List TrackUpdate) (cut₁ cut₂ : List (List TrackUpdate)),
    cut₁.flatten = updates → cut₂.flatten = updates →
      SameTables (cut₁.foldl record {}) (cut₂.foldl record {}) := by
  intro h
  have hsame := (h _ [[estimateAt 2, estimateAt 1]] [[estimateAt 2], [estimateAt 1]] rfl rfl).tracks "trk-1"
  rw [get?_tracks_foldl_record, get?_tracks_foldl_record] at hsame
  have hat := congrArg (Option.map TrackRow.lastSeenAt) hsame
  exact absurd hat (by
    simp [batchRows, ofTrack, batchRow, latestOf, newerUpdate, estimateAt, upserted, doUpdate, trackRow])

end TrackHistoryStore

end

end Airspace
