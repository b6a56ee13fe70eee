import Airspace.Common.Contracts

/-! Single-aircraft rule checks (`acp.services.conformance.rules`).

    Deterministic tests on one track: a reserved transponder code, and a descent that is steep for the
    altitude it happens at. -/

namespace Airspace

noncomputable section

open Classical

/-- One rule that fired on one track. -/
structure RuleFinding where
  trackId : String
  kind : AlertKind
  severity : Severity
  summary : String
  reasonCodes : List String

def RuleFinding.key (f : RuleFinding) : String := f.kind.value ++ ":" ++ f.trackId

/-- Transponder codes reserved for emergencies: what they mean and their reason code. -/
def emergencySquawks (squawk : String) : Option (String × String) :=
  if squawk = "7500" then some ("unlawful interference", "squawk_7500_hijack")
  else if squawk = "7600" then some ("radio failure", "squawk_7600_radio_failure")
  else if squawk = "7700" then some ("general emergency", "squawk_7700_emergency")
  else none

def excessiveDescentFpm : ℝ := -6000

def lowAltitudeFt : ℝ := 10000

def lowAltitudeDescentFpm : ℝ := -3000

def squawkFinding (track : TrackUpdate) (label : String) : Option RuleFinding :=
  match track.squawk with
  | none => none
  | some squawk =>
    (emergencySquawks squawk).map fun entry =>
      { trackId := track.trackId
        kind := .emergencySquawk
        severity := .warning
        summary := label ++ " squawking " ++ squawk ++ " (" ++ entry.1 ++ ")"
        reasonCodes := [entry.2] }

/-- A descent rate that is abnormal for the altitude it is happening at. -/
def descentFinding (track : TrackUpdate) (label : String) : Option RuleFinding :=
  let rate := track.verticalRateFpm
  if rate ≥ 0 then none
  else if ¬ (track.altitudeFt < lowAltitudeFt ∧ rate ≤ lowAltitudeDescentFpm ∨
      rate ≤ excessiveDescentFpm) then none
  else
    let lowAndSteep := decide (track.altitudeFt < lowAltitudeFt ∧ rate ≤ lowAltitudeDescentFpm)
    let verySteep := decide (rate ≤ excessiveDescentFpm)
    some
      { trackId := track.trackId
        kind := .excessiveDescent
        severity := if lowAndSteep then .warning else .caution
        summary := label ++ " descending at " ++ formatThousands |pyRound rate| ++ " fpm through " ++
          formatThousands (pyRound track.altitudeFt) ++ " ft"
        reasonCodes := (if verySteep then ["descent_rate_above_6000_fpm"] else []) ++
          if lowAndSteep then ["steep_descent_below_10000_ft"] else [] }

/-- `check`: apply every rule to one track. -/
def checkRules (track : TrackUpdate) : List RuleFinding :=
  let label := displayName track.callsign track.icao24
  (squawkFinding track label).toList ++ (descentFinding track label).toList

/-- Every finding names the track it was found on, and says why. -/
theorem trackId_of_mem_checkRules {track : TrackUpdate} {f : RuleFinding} (h : f ∈ checkRules track) :
    f.trackId = track.trackId ∧ f.reasonCodes ≠ [] := by
  rcases List.mem_append.mp h with h | h
  · rw [Option.mem_toList, squawkFinding] at h
    split at h
    · cases h
    · obtain ⟨entry, -, rfl⟩ := Option.map_eq_some_iff.mp h
      exact ⟨rfl, List.cons_ne_nil _ _⟩
  · rw [Option.mem_toList, descentFinding] at h
    split_ifs at h with hlevel hmild
    obtain rfl := Option.some.inj h
    refine ⟨rfl, ?_⟩
    rcases hmild with hlow | hsteep
    · simp [hlow]
    · simp [hsteep]

end

end Airspace
