import Mathlib.Data.List.Basic

/-! Messages sent one by one to a log that may refuse.

    The log acknowledges a message by keeping it, and says by the number of messages it holds whether it
    takes another. The first refusal ends the sending, and what was acknowledged before it stays. Sending
    one list after another is sending the two as one. -/

namespace Airspace

variable {μ : Type*} {accepts : ℕ → Bool} {log after ms ms' : List μ}

/-- Send the messages in turn, up to the first refusal; the log comes back either way. -/
def deliver (accepts : ℕ → Bool) : List μ → List μ → Except (List μ) (List μ)
  | log, [] => .ok log
  | log, m :: ms => if accepts log.length then deliver accepts (log ++ [m]) ms else .error log

@[simp] theorem deliver_nil : deliver accepts log [] = .ok log := by simp only [deliver]

theorem deliver_append :
    deliver accepts log (ms ++ ms') = deliver accepts log ms >>= fun l => deliver accepts l ms' := by
  induction ms generalizing log with
  | nil => simp [bind, Except.bind]
  | cons m ms ih =>
    rw [List.cons_append]
    simp only [deliver]
    split_ifs
    · exact ih
    · rfl

theorem deliver_append_of_ok (ms' : List μ) (h : deliver accepts log ms = .ok after) :
    deliver accepts log (ms ++ ms') = deliver accepts after ms' := by
  rw [deliver_append, h]
  rfl

theorem deliver_append_of_error (h : deliver accepts log ms = .error after) :
    deliver accepts log (ms ++ ms') = .error after := by
  rw [deliver_append, h]
  rfl

/-- Where the messages after the first one go. -/
theorem length_concat_add (m : μ) (i : ℕ) : (log ++ [m]).length + i = log.length + (i + 1) := by
  simp
  omega

/-- All of it is acknowledged exactly if none of the messages is refused. -/
theorem deliver_eq_ok_iff : deliver accepts log ms = .ok after ↔
    log ++ ms = after ∧ ∀ i < ms.length, accepts (log.length + i) = true := by
  induction ms generalizing log with
  | nil => simp
  | cons m ms ih =>
    simp only [deliver]
    split_ifs with haccept
    · simp only [ih, length_concat_add, List.append_assoc, List.singleton_append, List.length_cons]
      refine and_congr_right fun _ => ⟨fun h i hi => ?_, fun h i hi => h (i + 1) (by omega)⟩
      cases i with
      | zero => exact haccept
      | succ i => exact h i (by omega)
    · simp only [false_iff, not_and]
      exact fun _ h => haccept (h 0 (by simp))

/-- A refusal leaves what was sent before it: the log holds the messages up to the first refused one. -/
theorem deliver_eq_error_iff : deliver accepts log ms = .error after ↔
    ∃ n < ms.length, log ++ ms.take n = after ∧ accepts (log.length + n) = false ∧
      ∀ i < n, accepts (log.length + i) = true := by
  induction ms generalizing log with
  | nil => simp
  | cons m ms ih =>
    simp only [deliver]
    split_ifs with haccept
    · simp only [ih, length_concat_add, List.append_assoc, List.singleton_append, List.length_cons]
      constructor
      · rintro ⟨n, hn, rfl, hrefused, hbefore⟩
        refine ⟨n + 1, by omega, by simp, hrefused, fun i hi => ?_⟩
        cases i with
        | zero => exact haccept
        | succ i => exact hbefore i (by omega)
      · rintro ⟨n, hn, rfl, hrefused, hbefore⟩
        cases n with
        | zero => simp [haccept] at hrefused
        | succ n => exact ⟨n, by omega, by simp, hrefused, fun i hi => hbefore (i + 1) (by omega)⟩
    · constructor
      · intro h
        exact ⟨0, by simp, by simpa using Except.error.inj h, by simpa using haccept, by simp⟩
      · rintro ⟨n, -, rfl, -, hbefore⟩
        cases n with
        | zero => simp
        | succ n => exact absurd (hbefore 0 (by omega)) haccept

/-- Whatever the log refuses, it ends with the messages up to some point, in their order. -/
theorem exists_take_of_deliver (h : deliver accepts log ms = .ok after ∨ deliver accepts log ms = .error after) :
    ∃ n, after = log ++ ms.take n := by
  rcases h with h | h
  · exact ⟨ms.length, by rw [List.take_length, (deliver_eq_ok_iff.mp h).1]⟩
  · obtain ⟨n, -, hafter, -⟩ := deliver_eq_error_iff.mp h
    exact ⟨n, hafter.symm⟩

end Airspace
