import Mathlib.Data.List.Basic

/-! Runs of a machine that shows events.

    A step either is not enabled or leads to one state and shows some events. A run carries every event
    shown so far, so an invariant may speak of the past. Runs are restricted to steps that meet a
    condition on the state before them; the condition that always holds gives every run. -/

namespace Airspace

/-- A guarded step function that shows events. -/
structure Machine (σ α ε : Type*) where
  step : σ → α → Option (σ × List ε)

namespace Machine

variable {σ α ε : Type*} {m : Machine σ α ε} {allowed : σ → α → Prop} {start s s' : σ} {log : List ε}

/-- The states and logs reached from `start` by steps that are allowed where they are taken. -/
inductive Run (m : Machine σ α ε) (allowed : σ → α → Prop) (start : σ) : σ → List ε → Prop where
  | start : Run m allowed start start []
  | step {s s' : σ} {log shown : List ε} {a : α} : Run m allowed start s log → allowed s a →
      m.step s a = some (s', shown) → Run m allowed start s' (log ++ shown)

/-- What holds at the start and is kept by every allowed step holds throughout. -/
theorem Run.invariant {I : σ → List ε → Prop} (h0 : I start [])
    (hstep : ∀ s log a s' shown, I s log → allowed s a → m.step s a = some (s', shown) →
      I s' (log ++ shown)) (h : m.Run allowed start s log) : I s log := by
  induction h with
  | start => exact h0
  | step _ hallowed hs ih => exact hstep _ _ _ _ _ ih hallowed hs

/-- A run is a run under every weaker restriction. -/
theorem Run.mono {allowed' : σ → α → Prop} (h : m.Run allowed start s log)
    (hweaker : ∀ s a, allowed s a → allowed' s a) : m.Run allowed' start s log := by
  induction h with
  | start => exact .start
  | step _ hallowed hs ih => exact ih.step (hweaker _ _ hallowed) hs

/-- One run goes on as another. -/
theorem Run.trans {later : List ε} (h : m.Run allowed start s log) (h' : m.Run allowed s s' later) :
    m.Run allowed start s' (log ++ later) := by
  induction h' with
  | start => rwa [List.append_nil]
  | step _ hallowed hs ih =>
    rw [← List.append_assoc]
    exact ih.step hallowed hs

/-- The state and the log after some actions in turn; none if one of them is not enabled. -/
def exec (m : Machine σ α ε) (s : σ) : List α → Option (σ × List ε)
  | [] => some (s, [])
  | a :: as => (m.step s a).bind fun out => (m.exec out.1 as).map fun rest => (rest.1, out.2 ++ rest.2)

theorem exec_cons {a : α} {as : List α} {shown : List ε} (hstep : m.step s a = some (s', shown))
    {t : σ} (hrest : m.exec s' as = some (t, log)) : m.exec s (a :: as) = some (t, shown ++ log) := by
  simp [exec, hstep, hrest]

/-- Actions that are allowed in every state, taken in turn, go on with a run. -/
theorem Run.execAllowed {as : List α} {later : List ε} (h : m.Run allowed start s log)
    (hallowed : ∀ s, ∀ a ∈ as, allowed s a) (hexec : m.exec s as = some (s', later)) :
    m.Run allowed start s' (log ++ later) := by
  induction as generalizing s log later with
  | nil =>
    cases hexec
    rwa [List.append_nil]
  | cons a as ih =>
    simp only [Machine.exec, Option.bind_eq_some_iff, Option.map_eq_some_iff] at hexec
    obtain ⟨⟨mid, shown⟩, hstep, ⟨⟨last, rest⟩, hrest, heq⟩⟩ := hexec
    cases heq
    rw [← List.append_assoc]
    exact ih (h.step (hallowed s a List.mem_cons_self) hstep)
      (fun s b hb => hallowed s b (List.mem_cons_of_mem a hb)) hrest

/-- Actions taken in turn are a run. -/
theorem Run.exec {as : List α} {later : List ε} (h : m.Run (fun _ _ => True) start s log)
    (hexec : m.exec s as = some (s', later)) : m.Run (fun _ _ => True) start s' (log ++ later) :=
  h.execAllowed (fun _ _ _ => trivial) hexec

end Machine

end Airspace
