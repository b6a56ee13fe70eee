import Airspace.Api.Stream
import Mathlib.Order.Lattice.Nat
import Mathlib.Tactic.Tauto

/-! Isolation and cancellation of a broadcast.

    A broadcast removes the clients whose own send went wrong and no others, whatever others do while it
    waits, and reaches the rest. A request to cancel ends it in the read and in the closing of a socket; in
    a send the handler that drops a bad client takes it, and the broadcast goes on. -/

namespace Airspace.AirspaceBroadcaster

/-- The registry if the broadcast had removed nobody. -/
def withoutBroadcast (w : World) (r : Registry) (awaited : List Await) : Registry :=
  awaited.foldl (fun r a => r.after (w.others a)) r

/-- What a broadcast owes its clients and the one who cancels it. -/
structure Isolated (w : World) (r : Registry) (b : Broadcast) : Prop where
  sent : ∀ c, c ∈ b.sent ↔ .send c ∈ b.awaited ∧ w.send c = .returned
  count : ∀ n, b.result = .ok n → b.sent.Nodup ∧ n = b.sent.length
  delivers : ∀ n, b.result = .ok n → ∀ c ∈ r.clients, .left c ∉ w.others .read →
    c ∈ b.sent ∨ (w.send c).failed
  removes : ∀ c, c ∈ b.registry.clients ↔
    c ∈ (withoutBroadcast w r b.awaited).clients ∧ ¬ (.send c ∈ b.awaited ∧ (w.send c).failed)
  raises : ∀ e, b.result = .error e → e = .cancelledError ∨ ∃ s, w.read = .raised s ∧ e = s.raised
  undisturbed : ∀ a ∈ b.awaited.dropLast, w.requested a = false
  propagates : b.result = .error .cancelledError ↔ ∃ a, b.awaited.getLast? = some a ∧ w.requested a

/-- No request to cancel arrives in a send, up to the closing that one cancels. -/
def QuietSends (w : World) : List ℕ → Prop
  | [] => True
  | c :: cs => (w.send c).requested = false ∧
      (¬ ((w.send c).leaves = some .timeoutError ∧ w.close c = .cancelled) → QuietSends w cs)

/-- No request to cancel arrives while the broadcast is sending. -/
def Quiet (w : World) (r : Registry) : Prop :=
  w.read = .returned → QuietSends w (w.listing (r.after (w.others .read)).clients)

variable {w : World} {r r₀ : Registry} {p : Progress} {c : ℕ} {cs : List ℕ}

/-! ### The registry -/

/-- One registry is another without the clients that were removed. -/
structure Without (removed : ℕ → Prop) (r r₀ : Registry) : Prop where
  next : r.next = r₀.next
  clients : ∀ c, c ∈ r.clients ↔ c ∈ r₀.clients ∧ ¬ removed c
  old : ∀ c, removed c → c < r₀.next

theorem Without.congr {removed removed' : ℕ → Prop} (h : Without removed r r₀)
    (hsame : ∀ c, removed' c ↔ removed c) : Without removed' r r₀ where
  next := h.next
  clients := fun c => by rw [h.clients, hsame]
  old := fun c hc => h.old c ((hsame c).mp hc)

theorem Without.happen {removed : ℕ → Prop} (h : Without removed r r₀) (event : Happening) :
    Without removed (r.happen event) (r₀.happen event) := by
  cases event with
  | joined =>
    refine ⟨by simp only [Registry.happen, Registry.register, h.next], fun c => ?_,
      fun c hc => Nat.lt_succ_of_lt (h.old c hc)⟩
    simp only [Registry.happen, Registry.register, Finset.mem_insert, h.clients, h.next]
    constructor
    · rintro (rfl | ⟨hc, hkept⟩)
      · exact ⟨.inl rfl, fun hremoved => lt_irrefl _ (h.old _ hremoved)⟩
      · exact ⟨.inr hc, hkept⟩
    · rintro ⟨rfl | hc, hkept⟩
      · exact .inl rfl
      · exact .inr ⟨hc, hkept⟩
  | left d =>
    refine ⟨h.next, fun c => ?_, h.old⟩
    simp only [Registry.happen, Registry.unregister, Finset.mem_erase, h.clients, and_assoc]

theorem Without.after {removed : ℕ → Prop} (h : Without removed r r₀) (others : List Happening) :
    Without removed (r.after others) (r₀.after others) := by
  induction others generalizing r r₀ with
  | nil => exact h
  | cons event others ih => exact ih (h.happen event)

theorem Without.unregister {removed : ℕ → Prop} (h : Without removed r r₀) (hc : c < r₀.next) :
    Without (fun d => removed d ∨ d = c) (r.unregister c) r₀ where
  next := h.next
  clients := fun d => by
    simp only [Registry.unregister, Finset.mem_erase, h.clients]
    tauto
  old := fun d hd => hd.elim (h.old d) fun heq => heq ▸ hc

theorem next_le_after (r : Registry) (others : List Happening) : r.next ≤ (r.after others).next := by
  induction others generalizing r with
  | nil => exact le_rfl
  | cons event others ih =>
    refine le_trans ?_ (ih (r.happen event))
    cases event with
    | joined => exact Nat.le_succ _
    | left d => exact le_rfl

theorem next_le_foldl (w : World) (r : Registry) (awaited : List Await) :
    r.next ≤ (awaited.foldl (fun r a => r.after (w.others a)) r).next := by
  induction awaited generalizing r with
  | nil => exact le_rfl
  | cons a awaited ih => exact (next_le_after r (w.others a)).trans (ih _)

/-- A client that does not leave stays. -/
theorem mem_after {others : List Happening} (hc : c ∈ r.clients) (hleft : .left c ∉ others) :
    c ∈ (r.after others).clients := by
  induction others generalizing r with
  | nil => exact hc
  | cons event others ih =>
    obtain ⟨hevent, hrest⟩ := not_or.mp (mt List.mem_cons.mpr hleft)
    refine ih ?_ hrest
    cases event with
    | joined => exact Finset.mem_insert_of_mem hc
    | left d => exact Finset.mem_erase.mpr ⟨fun heq => hevent (heq ▸ rfl), hc⟩

theorem withoutBroadcast_concat (awaited : List Await) (a : Await) :
    withoutBroadcast w r (awaited ++ [a]) = (withoutBroadcast w r awaited).after (w.others a) :=
  List.foldl_concat ..

/-! ### One send -/

/-- The books of a broadcast under way. -/
structure Kept (w : World) (r : Registry) (p : Progress) : Prop where
  sent : ∀ c, c ∈ p.sent ↔ .send c ∈ p.awaited ∧ w.send c = .returned
  nodup : p.sent.Nodup
  count : p.delivered = p.sent.length
  without : Without (fun c => .send c ∈ p.awaited ∧ (w.send c).failed) p.registry
    (withoutBroadcast w r p.awaited)

/-- A send that is dropped closes the socket if it timed out or was cancelled. -/
def closes (b : SendBack) : Bool := b.leaves = some .timeoutError ∨ b.leaves = some .cancelledError

/-- The awaits of one turn of the loop. -/
def turn (w : World) (c : ℕ) : List Await := .send c :: if closes (w.send c) then [.close c] else []

theorem closeSocket_eq (w : World) (p : Progress) (c : ℕ) : closeSocket w p c =
    (p.await w (.close c), if w.close c = .cancelled then some .cancelledError else none) := by
  unfold closeSocket
  cases w.close c <;> rfl

theorem awaited_sendTo (w : World) (p : Progress) (c : ℕ) :
    (sendTo w p c).1.awaited = p.awaited ++ turn w c ∧
      (sendTo w p c).2 =
        if closes (w.send c) ∧ w.close c = .cancelled then some .cancelledError else none := by
  cases hleaves : (w.send c).leaves with
  | none => simp [sendTo, turn, closes, hleaves, Progress.await]
  | some e =>
    cases e <;> simp [sendTo, turn, closes, hleaves, closeSocket_eq, Progress.await, Progress.unregister]

theorem Kept.await (h : Kept w r p) {a : Await} (ha : ∀ c, a ≠ .send c) : Kept w r (p.await w a) := by
  have hsends : ∀ c, Await.send c ∈ p.awaited ++ [a] ↔ Await.send c ∈ p.awaited := by
    intro c
    rw [List.mem_append, List.mem_singleton]
    exact or_iff_left (Ne.symm (ha c))
  constructor
  · intro c
    simp only [Progress.await, hsends]
    exact h.sent c
  · exact h.nodup
  · exact h.count
  · simp only [Progress.await, withoutBroadcast_concat, hsends]
    exact h.without.after _

theorem mem_await_send {awaited : List Await} {d : ℕ} :
    Await.send d ∈ awaited ++ [Await.send c] ↔ Await.send d ∈ awaited ∨ d = c := by
  rw [List.mem_append, List.mem_singleton, Await.send.injEq]

/-- Another client's send that comes back keeps the removals. -/
theorem Kept.without_send (h : Kept w r p) (c : ℕ) :
    Without (fun d => .send d ∈ p.awaited ∧ (w.send d).failed) (p.await w (.send c)).registry
      (withoutBroadcast w r (p.awaited ++ [.send c])) := by
  rw [withoutBroadcast_concat]
  exact h.without.after _

/-- A send that returns is counted. -/
theorem Kept.delivered (h : Kept w r p) (hnew : .send c ∉ p.awaited) (hback : w.send c = .returned) :
    Kept w r { p.await w (.send c) with sent := p.sent ++ [c], delivered := p.delivered + 1 } := by
  constructor
  · intro d
    simp only [Progress.await, List.mem_append, List.mem_singleton, Await.send.injEq, h.sent, or_and_right]
    exact or_congr_right ⟨fun heq => ⟨heq, heq ▸ hback⟩, And.left⟩
  · refine List.Nodup.append h.nodup (List.nodup_singleton c) ?_
    rw [List.disjoint_singleton]
    exact fun hc => hnew ((h.sent c).mp hc).1
  · simp [h.count]
  · refine (h.without_send c).congr fun d => ?_
    simp only [Progress.await, mem_await_send, or_and_right]
    refine or_iff_left ?_
    rintro ⟨rfl, hfailed⟩
    rw [hback] at hfailed
    exact Bool.false_ne_true hfailed

/-- A send that goes wrong removes the client. -/
theorem Kept.dropped (h : Kept w r p) (hold : c < (withoutBroadcast w r p.awaited).next)
    (hfailed : (w.send c).failed) : Kept w r ((p.await w (.send c)).unregister c) := by
  have hback : w.send c ≠ .returned := by
    intro hback
    rw [hback] at hfailed
    exact Bool.false_ne_true hfailed
  have hold' : c < (withoutBroadcast w r (p.awaited ++ [.send c])).next := by
    rw [withoutBroadcast_concat]
    exact hold.trans_le (next_le_after _ _)
  constructor
  · intro d
    simp only [Progress.await, Progress.unregister, mem_await_send, h.sent]
    constructor
    · rintro ⟨hd, hreturned⟩
      exact ⟨.inl hd, hreturned⟩
    · rintro ⟨hd | rfl, hreturned⟩
      · exact ⟨hd, hreturned⟩
      · exact absurd hreturned hback
  · exact h.nodup
  · exact h.count
  · refine ((h.without_send c).unregister hold').congr fun d => ?_
    simp only [Progress.await, Progress.unregister, mem_await_send, or_and_right]
    exact or_congr_right ⟨And.left, fun heq => ⟨heq, heq ▸ hfailed⟩⟩

/-- One turn keeps the books, unless a request to cancel the task arrives in the send. -/
theorem kept_sendTo (h : Kept w r p) (hnew : .send c ∉ p.awaited)
    (hold : c < (withoutBroadcast w r p.awaited).next) (hquiet : (w.send c).requested = false) :
    Kept w r (sendTo w p c).1 := by
  cases hback : w.send c with
  | returned =>
    have hleaves : (w.send c).leaves = none := by rw [hback]; rfl
    simp only [sendTo, hleaves]
    exact h.delivered hnew hback
  | raised e =>
    have hkept := h.dropped hold (by rw [hback]; rfl)
    cases e with
    | timeoutError =>
      have hleaves : (w.send c).leaves = some .timeoutError := by rw [hback]; rfl
      simp only [sendTo, hleaves, closeSocket_eq]
      exact hkept.await fun d => Await.noConfusion
    | other =>
      have hleaves : (w.send c).leaves = some .other := by rw [hback]; rfl
      simp only [sendTo, hleaves]
      exact hkept
  | timedOut =>
    have hkept := h.dropped hold (by rw [hback]; rfl)
    have hleaves : (w.send c).leaves = some .timeoutError := by rw [hback]; rfl
    simp only [sendTo, hleaves, closeSocket_eq]
    exact hkept.await fun d => Await.noConfusion
  | cancelled deadline =>
    rw [hback] at hquiet
    exact absurd hquiet.symm Bool.false_ne_true

/-! ### The loop over the clients -/

theorem sendAll_cons (w : World) (c : ℕ) (cs : List ℕ) (p : Progress) : sendAll w (c :: cs) p =
    if closes (w.send c) ∧ w.close c = .cancelled then ((sendTo w p c).1, some .cancelledError)
    else sendAll w cs (sendTo w p c).1 := by
  have hraised := (awaited_sendTo w p c).2
  rw [sendAll]
  split_ifs at hraised ⊢ with hended
  · split
    · next p' heq => rw [heq] at hraised; exact nomatch hraised
    · next p' e heq =>
      rw [heq] at hraised ⊢
      exact Prod.ext rfl hraised
  · split
    · next p' heq => rw [heq]
    · next p' e heq => rw [heq] at hraised; exact nomatch hraised

theorem mem_turn {a : Await} : a ∈ turn w c ↔ a = .send c ∨ a = .close c ∧ closes (w.send c) := by
  unfold turn
  split_ifs with hcloses <;> simp [hcloses]

/-- The loop only adds awaits, and sends to the clients it is given. -/
theorem awaited_sendAll (w : World) (cs : List ℕ) (p : Progress) : ∃ more,
    (sendAll w cs p).1.awaited = p.awaited ++ more ∧ ∀ d, .send d ∈ more → d ∈ cs := by
  induction cs generalizing p with
  | nil => exact ⟨[], (List.append_nil _).symm, fun d hd => absurd hd List.not_mem_nil⟩
  | cons c cs ih =>
    have hturn := (awaited_sendTo w p c).1
    have hown : ∀ d, Await.send d ∈ turn w c → d = c := by
      intro d hd
      rcases mem_turn.mp hd with heq | ⟨heq, -⟩
      · exact Await.send.inj heq
      · exact nomatch heq
    rw [sendAll_cons]
    split_ifs with hended
    · exact ⟨turn w c, hturn, fun d hd => hown d hd ▸ List.mem_cons_self⟩
    · obtain ⟨more, hmore, hsends⟩ := ih (sendTo w p c).1
      refine ⟨turn w c ++ more, by rw [hmore, hturn, List.append_assoc], fun d hd => ?_⟩
      rcases List.mem_append.mp hd with hd | hd
      · exact hown d hd ▸ List.mem_cons_self
      · exact List.mem_cons_of_mem _ (hsends d hd)

theorem closes_of_requested {b : SendBack} (h : b.requested = true) : closes b := by
  cases b with
  | cancelled deadline => exact decide_eq_true (.inr rfl)
  | returned | raised _ | timedOut => exact nomatch h

theorem closes_iff_of_quiet {b : SendBack} (h : b.requested = false) :
    closes b ↔ b.leaves = some .timeoutError := by
  cases b with
  | returned => simp [closes, SendBack.leaves]
  | raised e => cases e <;> simp [closes, SendBack.leaves, SocketError.raised]
  | timedOut => simp [closes, SendBack.leaves]
  | cancelled deadline => exact absurd h.symm Bool.false_ne_true

/-- How the loop ends when no request to cancel arrives in a send: with every client sent to, or at the closing
    of a socket that is cancelled. -/
structure Calm (w : World) (cs : List ℕ) (awaited : List Await) (e : Option StreamError) : Prop where
  undisturbed : ∀ a ∈ awaited.dropLast, w.requested a = false
  ended : e = if ∃ a, awaited.getLast? = some a ∧ w.requested a then some .cancelledError else none
  complete : e = none → ∀ c ∈ cs, .send c ∈ awaited

/-- What holds of a list up to its last entry, and of that entry, holds of all of it. -/
theorem forall_of_dropLast {α : Type} {q : α → Prop} {l : List α} (hinit : ∀ a ∈ l.dropLast, q a)
    (hlast : ∀ a, l.getLast? = some a → q a) : ∀ a ∈ l, q a := by
  intro a ha
  have hne : l ≠ [] := List.ne_nil_of_mem ha
  rw [← List.dropLast_append_getLast hne] at ha
  rcases List.mem_append.mp ha with ha | ha
  · exact hinit a ha
  · rw [List.mem_singleton.mp ha]
    exact hlast _ (List.getLast?_eq_some_getLast hne)

/-- A loop that runs through is not asked to end. -/
theorem Calm.requested_eq {awaited : List Await} (h : Calm w cs awaited none) :
    ∀ a ∈ awaited, w.requested a = false := by
  classical
  have hended := h.ended
  split_ifs at hended with hlast
  exact forall_of_dropLast h.undisturbed fun a ha =>
    Bool.eq_false_of_not_eq_true fun hrequested => hlast ⟨a, ha, hrequested⟩

/-- A client the loop is done with has been sent to, or its send went wrong. -/
theorem Calm.reached {awaited : List Await} (h : Calm w cs awaited none) (hc : c ∈ cs) :
    .send c ∈ awaited ∧ (w.send c = .returned ∨ (w.send c).failed) := by
  have hmem := h.complete rfl c hc
  have hrequested : (w.send c).requested = false := h.requested_eq _ hmem
  refine ⟨hmem, ?_⟩
  cases hback : w.send c with
  | returned => exact .inl rfl
  | raised s => exact .inr rfl
  | timedOut => exact .inr rfl
  | cancelled deadline =>
    rw [hback] at hrequested
    exact absurd hrequested.symm Bool.false_ne_true

/-- A loop about to send to the clients `cs`, not asked to end so far. -/
structure Going (w : World) (r : Registry) (cs : List ℕ) (p : Progress) : Prop where
  kept : Kept w r p
  nodup : cs.Nodup
  new : ∀ c ∈ cs, .send c ∉ p.awaited
  old : ∀ c ∈ cs, c < (withoutBroadcast w r p.awaited).next
  calm : ∀ a ∈ p.awaited, w.requested a = false

theorem Going.kept_step (h : Going w r (c :: cs) p) (hsend : (w.send c).requested = false) :
    Kept w r (sendTo w p c).1 :=
  kept_sendTo h.kept (h.new c List.mem_cons_self) (h.old c List.mem_cons_self) hsend

/-- A turn that is not asked to end leaves the loop going. -/
theorem Going.step (h : Going w r (c :: cs) p) (hsend : (w.send c).requested = false)
    (hgo : ¬ (closes (w.send c) ∧ w.close c = .cancelled)) : Going w r cs (sendTo w p c).1 := by
  obtain ⟨hc, hcs⟩ := List.nodup_cons.mp h.nodup
  have hturn := (awaited_sendTo w p c).1
  refine ⟨h.kept_step hsend, hcs, fun d hd hmem => ?_, fun d hd => ?_, fun a ha => ?_⟩
  · rw [hturn] at hmem
    rcases List.mem_append.mp hmem with hmem | hmem
    · exact h.new d (List.mem_cons_of_mem _ hd) hmem
    · rcases mem_turn.mp hmem with heq | ⟨heq, -⟩
      · exact hc (Await.send.inj heq ▸ hd)
      · exact nomatch heq
  · rw [hturn, withoutBroadcast, List.foldl_append]
    exact (h.old d (List.mem_cons_of_mem _ hd)).trans_le (next_le_foldl _ _ _)
  · rw [hturn] at ha
    rcases List.mem_append.mp ha with ha | ha
    · exact h.calm a ha
    · rcases mem_turn.mp ha with rfl | ⟨rfl, hcloses⟩
      · exact hsend
      · exact decide_eq_false fun hcancelled => hgo ⟨hcloses, hcancelled⟩

/-- A turn whose closing is cancelled ends the loop there. -/
theorem Going.calm_of_close (h : Going w r (c :: cs) p) (hsend : (w.send c).requested = false)
    (hended : closes (w.send c) ∧ w.close c = .cancelled) :
    Calm w (c :: cs) (sendTo w p c).1.awaited (some .cancelledError) := by
  classical
  have hawaited : (sendTo w p c).1.awaited = (p.awaited ++ [.send c]) ++ [.close c] := by
    rw [(awaited_sendTo w p c).1, turn, if_pos hended.1, List.append_assoc]
    rfl
  have hclose : w.requested (.close c) = true := decide_eq_true hended.2
  refine ⟨?_, ?_, nofun⟩
  · rw [hawaited, List.dropLast_concat]
    intro a ha
    rcases List.mem_append.mp ha with ha | ha
    · exact h.calm a ha
    · rw [List.mem_singleton.mp ha]
      exact hsend
  · rw [hawaited, if_pos ⟨.close c, List.getLast?_concat, hclose⟩]

theorem sendAll_quiet (h : Going w r cs p) (hquiet : QuietSends w cs) :
    Kept w r (sendAll w cs p).1 ∧ Calm w cs (sendAll w cs p).1.awaited (sendAll w cs p).2 := by
  classical
  induction cs generalizing p with
  | nil =>
    refine ⟨h.kept, fun a ha => h.calm a (List.dropLast_subset _ ha), ?_,
      fun _ c hc => absurd hc List.not_mem_nil⟩
    rw [if_neg]
    · rfl
    · rintro ⟨a, ha, hrequested⟩
      exact Bool.false_ne_true ((h.calm a (List.mem_of_getLast? ha)).symm.trans hrequested)
  | cons c cs ih =>
    obtain ⟨hsend, hrest⟩ := hquiet
    rw [sendAll_cons]
    split_ifs with hended
    · exact ⟨h.kept_step hsend, h.calm_of_close hsend hended⟩
    · have hgo : ¬ ((w.send c).leaves = some .timeoutError ∧ w.close c = .cancelled) := by
        rw [← closes_iff_of_quiet hsend]
        exact hended
      obtain ⟨hkept, hdone⟩ := ih (h.step hsend hended) (hrest hgo)
      refine ⟨hkept, hdone.undisturbed, hdone.ended, fun hnone d hd => ?_⟩
      rcases List.mem_cons.mp hd with rfl | hd
      · obtain ⟨more, hmore, -⟩ := awaited_sendAll w cs (sendTo w p d).1
        rw [hmore, (awaited_sendTo w p d).1]
        exact List.mem_append_left _ (List.mem_append_right _ (mem_turn.mpr (.inl rfl)))
      · exact hdone.complete hnone d hd

/-- A request to cancel that arrives in a send does not end the broadcast there. -/
theorem disturbed_of_not_quiet (w : World) (cs : List ℕ) (p : Progress) (h : ¬ QuietSends w cs) :
    ∃ a ∈ (sendAll w cs p).1.awaited.dropLast, w.requested a = true := by
  induction cs generalizing p with
  | nil => exact absurd trivial h
  | cons c cs ih =>
    have hturn := (awaited_sendTo w p c).1
    rw [sendAll_cons]
    cases hsend : (w.send c).requested with
    | true =>
      have hcloses : closes (w.send c) := closes_of_requested hsend
      have hmem : ∀ more : List Await, Await.send c ∈ (p.awaited ++ turn w c ++ more).dropLast := by
        intro more
        rw [turn, if_pos hcloses, List.append_assoc, List.dropLast_append_of_ne_nil (by simp)]
        simp
      refine ⟨.send c, ?_, hsend⟩
      split_ifs
      · rw [hturn]
        exact List.append_nil (p.awaited ++ turn w c) ▸ hmem []
      · obtain ⟨more, hmore, -⟩ := awaited_sendAll w cs (sendTo w p c).1
        rw [hmore, hturn]
        exact hmem more
    | false =>
      have hgo : ¬ (closes (w.send c) ∧ w.close c = .cancelled) := by
        rw [closes_iff_of_quiet hsend]
        exact fun hended => h ⟨hsend, fun hnot => absurd hended hnot⟩
      rw [if_neg hgo]
      exact ih _ fun hquiet => h ⟨hsend, fun _ => hquiet⟩

/-! ### One broadcast -/

theorem broadcastOnce_eq (hread : w.read = .returned) :
    (broadcastOnce w r).registry = (sendAll w (w.listing (r.after (w.others .read)).clients)
      (Progress.await ⟨r, [], [], 0⟩ w .read)).1.registry ∧
    (broadcastOnce w r).awaited = (sendAll w (w.listing (r.after (w.others .read)).clients)
      (Progress.await ⟨r, [], [], 0⟩ w .read)).1.awaited ∧
    (broadcastOnce w r).sent = (sendAll w (w.listing (r.after (w.others .read)).clients)
      (Progress.await ⟨r, [], [], 0⟩ w .read)).1.sent ∧
    (broadcastOnce w r).result = (sendAll w (w.listing (r.after (w.others .read)).clients)
      (Progress.await ⟨r, [], [], 0⟩ w .read)).2.elim (.ok (sendAll w
        (w.listing (r.after (w.others .read)).clients) (Progress.await ⟨r, [], [], 0⟩ w .read)).1.delivered)
          Except.error := by
  have hregistry : (Progress.await ⟨r, [], [], 0⟩ w .read).registry = r.after (w.others .read) := rfl
  simp only [broadcastOnce, hread]
  rw [hregistry]
  generalize sendAll w (w.listing (r.after (w.others .read)).clients) _ = out
  obtain ⟨p, e⟩ := out
  cases e <;> exact ⟨rfl, rfl, rfl, rfl⟩

/-- The books before the first send. -/
theorem kept_read (w : World) (r : Registry) : Kept w r (Progress.await ⟨r, [], [], 0⟩ w .read) where
  sent := fun c => by simp [Progress.await]
  nodup := List.nodup_nil
  count := rfl
  without := by
    refine ⟨rfl, fun c => ?_, fun c hc => ?_⟩
    · simp [Progress.await, withoutBroadcast]
    · simp [Progress.await] at hc

theorem isolated_of_read {e : StreamError}
    (hb : broadcastOnce w r = ⟨r.after (w.others .read), [.read], [], .error e⟩)
    (he : e = .cancelledError ∧ w.read = .cancelled ∨ ∃ s, w.read = .raised s ∧ e = s.raised) :
    Isolated w r (broadcastOnce w r) := by
  rw [hb]
  refine ⟨fun c => by simp, nofun, nofun, fun c => by simp [withoutBroadcast], fun e' he' => ?_, nofun, ?_⟩
  · obtain rfl := Except.error.inj he'
    exact he.imp_left And.left
  · rcases he with ⟨rfl, hcancelled⟩ | ⟨s, hraised, rfl⟩
    · exact ⟨fun _ => ⟨.read, rfl, decide_eq_true hcancelled⟩, fun _ => rfl⟩
    · constructor
      · intro h
        cases s <;> exact nomatch Except.error.inj h
      · rintro ⟨a, ha, hrequested⟩
        obtain rfl : Await.read = a := by simpa using ha
        rw [World.requested, hraised] at hrequested
        exact absurd hrequested (by simp)

/-- The loop is going when the read has returned. -/
theorem going_read (w : World) (r : Registry) (hread : w.read = .returned) :
    Going w r (w.listing (r.after (w.others .read)).clients) (Progress.await ⟨r, [], [], 0⟩ w .read) where
  kept := kept_read w r
  nodup := w.listing_nodup _
  new := fun c _ => by simp [Progress.await]
  old := fun c hc => (r.after (w.others .read)).fresh c ((w.mem_listing _ c).mp hc)
  calm := fun a ha => by
    rw [List.mem_singleton.mp ha, World.requested, hread]
    rfl

theorem isolated_of_returned (hread : w.read = .returned) (h : Quiet w r) :
    Isolated w r (broadcastOnce w r) := by
  classical
  set cs := w.listing (r.after (w.others .read)).clients with hcs
  obtain ⟨hregistry, hawaited, hsent, hresult⟩ := broadcastOnce_eq (w := w) (r := r) hread
  obtain ⟨hkept, hcalm⟩ := sendAll_quiet (going_read w r hread) (h hread)
  rw [← hcs] at hkept hcalm hregistry hawaited hsent hresult
  rw [← hawaited] at hcalm
  generalize sendAll w cs (Progress.await ⟨r, [], [], 0⟩ w .read) = out at *
  obtain ⟨p, e⟩ := out
  simp only at hregistry hawaited hsent hresult hcalm
  have hended := hcalm.ended
  constructor
  · intro c
    rw [hsent, hawaited]
    exact hkept.sent c
  · intro n hn
    cases e with
    | none =>
      obtain rfl := Except.ok.inj (hresult.symm.trans hn)
      rw [hsent]
      exact ⟨hkept.nodup, hkept.count⟩
    | some e => exact nomatch hresult.symm.trans hn
  · intro n hn c hc hleft
    cases e with
    | none =>
      obtain ⟨hmem, hback⟩ := hcalm.reached ((w.mem_listing _ c).mpr (mem_after hc hleft))
      rw [hsent, hkept.sent, ← hawaited]
      exact hback.imp_left fun hreturned => ⟨hmem, hreturned⟩
    | some e => exact nomatch hresult.symm.trans hn
  · intro c
    rw [hregistry, hawaited]
    exact hkept.without.clients c
  · intro e' he'
    cases e with
    | none => exact nomatch hresult.symm.trans he'
    | some e =>
      obtain rfl := Except.error.inj (hresult.symm.trans he')
      split_ifs at hended
      exact .inl (Option.some_inj.mp hended)
  · exact hcalm.undisturbed
  · rw [hresult, hended]
    split_ifs with hlast
    · exact ⟨fun _ => hlast, fun _ => rfl⟩
    · exact ⟨nofun, fun h => absurd h hlast⟩

theorem isolated_of_quiet (h : Quiet w r) : Isolated w r (broadcastOnce w r) := by
  cases hread : w.read with
  | raised s =>
    exact isolated_of_read (by simp only [broadcastOnce, hread]; rfl) (.inr ⟨s, hread, rfl⟩)
  | cancelled =>
    exact isolated_of_read (by simp only [broadcastOnce, hread]; rfl) (.inl ⟨rfl, hread⟩)
  | returned => exact isolated_of_returned hread h

/-- A broadcast keeps all it owes exactly if no request to cancel arrives while it is sending. -/
theorem isolated_iff_quiet : Isolated w r (broadcastOnce w r) ↔ Quiet w r := by
  refine ⟨fun h hread => ?_, isolated_of_quiet⟩
  by_contra hnot
  obtain ⟨a, ha, hrequested⟩ := disturbed_of_not_quiet w _ (Progress.await ⟨r, [], [], 0⟩ w .read) hnot
  rw [← (broadcastOnce_eq hread).2.1] at ha
  exact Bool.false_ne_true ((h.undisturbed a ha).symm.trans hrequested)

/-! ### The loop -/

/-- The broadcasts the loop makes, each with the registry it starts from. -/
def broadcastsOf : List Tick → Registry → List (World × Registry)
  | [], _ => []
  | t :: ts, r =>
    let r := r.after t.others
    if t.cancelled then []
    else if r.clients = ∅ then broadcastsOf ts r
    else
      (t.world, r) ::
        if (broadcastOnce t.world r).result = .error .cancelledError then []
        else broadcastsOf ts (broadcastOnce t.world r).registry

theorem world_of_mem_broadcastsOf {ts : List Tick} {b : World × Registry} (h : b ∈ broadcastsOf ts r) :
    ∃ t ∈ ts, b.1 = t.world := by
  induction ts generalizing r with
  | nil => exact absurd h List.not_mem_nil
  | cons t ts ih =>
    have hlater : ∀ {r}, b ∈ broadcastsOf ts r → ∃ t' ∈ t :: ts, b.1 = t'.world := by
      intro r hb
      obtain ⟨t', ht', heq⟩ := ih hb
      exact ⟨t', List.mem_cons_of_mem _ ht', heq⟩
    simp only [broadcastsOf] at h
    split_ifs at h
    · exact absurd h List.not_mem_nil
    · exact hlater h
    · exact ⟨t, List.mem_cons_self, by rw [List.mem_singleton.mp h]⟩
    · rcases List.mem_cons.mp h with rfl | h
      · exact ⟨t, List.mem_cons_self, rfl⟩
      · exact hlater h

/-- The first request to cancel ends the loop, and nothing else does. -/
structure Stops (run : LoopRun) : Prop where
  running : run.ended = false → ∀ requested ∈ run.requests, requested = false
  ended : run.ended = true → ∃ before, run.requests = before ++ [true] ∧ ∀ requested ∈ before, requested = false

theorem Stops.prepend {run : LoopRun} (h : Stops run) {before : List Bool} (hbefore : ∀ b ∈ before, b = false) :
    Stops { run with requests := before ++ run.requests } where
  running := fun hrun requested hmem =>
    (List.mem_append.mp hmem).elim (hbefore requested) (h.running hrun requested)
  ended := fun hended => by
    obtain ⟨later, heq, hlater⟩ := h.ended hended
    refine ⟨before ++ later, ?_, fun requested hmem => ?_⟩
    · simp only [heq, List.append_assoc]
    · exact (List.mem_append.mp hmem).elim (hbefore requested) (hlater requested)

/-- The awaits of a broadcast that ends by a request to cancel. -/
theorem Isolated.requests_of_cancelled {b : Broadcast} (h : Isolated w r b)
    (hresult : b.result = .error .cancelledError) :
    ∃ before, b.awaited.map w.requested = before ++ [true] ∧ ∀ requested ∈ before, requested = false := by
  obtain ⟨a, hlast, hrequested⟩ := h.propagates.mp hresult
  refine ⟨b.awaited.dropLast.map w.requested, ?_, fun requested hmem => ?_⟩
  · conv_lhs => rw [← List.dropLast_append_getLast? a hlast]
    rw [List.map_append, List.map_singleton, hrequested]
  · obtain ⟨a', ha', rfl⟩ := List.mem_map.mp hmem
    exact h.undisturbed a' ha'

/-- And of one that does not. -/
theorem Isolated.requests_of_not_cancelled {b : Broadcast} (h : Isolated w r b)
    (hresult : b.result ≠ .error .cancelledError) :
    ∀ requested ∈ b.awaited.map w.requested, requested = false := by
  intro requested hmem
  obtain ⟨a, ha, rfl⟩ := List.mem_map.mp hmem
  exact forall_of_dropLast h.undisturbed (fun a hlast => Bool.eq_false_of_not_eq_true fun hrequested =>
    hresult (h.propagates.mpr ⟨a, hlast, hrequested⟩)) a ha

/-- Where no request arrives in a send of the loop, the first one ends it. -/
theorem stops_of_quiet (ts : List Tick) (r : Registry) (h : ∀ b ∈ broadcastsOf ts r, Quiet b.1 b.2) :
    Stops (broadcastForever ts r) := by
  induction ts generalizing r with
  | nil => exact ⟨fun _ requested hmem => absurd hmem List.not_mem_nil, nofun⟩
  | cons t ts ih =>
    have hsleep : ∀ requested ∈ [false], requested = false := fun requested hmem => List.mem_singleton.mp hmem
    simp only [broadcastsOf] at h
    simp only [broadcastForever]
    split_ifs at h ⊢ with hcancelled hempty hended
    · exact ⟨nofun, fun _ => ⟨[], rfl, fun requested hmem => absurd hmem List.not_mem_nil⟩⟩
    · exact (ih _ h).prepend hsleep
    · have hisolated := isolated_of_quiet (h _ List.mem_cons_self)
      obtain ⟨before, heq, hbefore⟩ := hisolated.requests_of_cancelled hended
      refine ⟨nofun, fun _ => ⟨false :: before, ?_, fun requested hmem => ?_⟩⟩
      · simp only [heq, List.cons_append]
      · exact (List.mem_cons.mp hmem).elim id (hbefore requested)
    · have hisolated := isolated_of_quiet (h _ List.mem_cons_self)
      have hcalm := hisolated.requests_of_not_cancelled hended
      refine (ih _ fun b hb => h b (List.mem_cons_of_mem _ hb)).prepend fun requested hmem => ?_
      exact (List.mem_cons.mp hmem).elim id (hcalm requested)

/-- A broadcast drops the clients whose own send failed or timed out and no others, reaches the rest, counts
    them and lets a request to cancel through, exactly if no such request arrives while it is sending; and a
    loop in none of whose broadcasts one does so ends with the first request. -/
theorem broadcast_isolated_iff (w : World) (r : Registry) (ts : List Tick) :
    (Isolated w r (broadcastOnce w r) ↔ Quiet w r) ∧
      ((∀ b ∈ broadcastsOf ts r, Quiet b.1 b.2) → Stops (broadcastForever ts r)) :=
  ⟨isolated_iff_quiet, stops_of_quiet ts r⟩

/-- A world in which nobody joins or leaves and every send comes back in one way. -/
def steady (send : SendBack) : World where
  read := .returned
  send := fun _ => send
  close := fun _ => .returned
  others := fun _ => []
  listing := fun s => (List.range (s.sup id + 1)).filter fun c => c ∈ s
  listing_nodup := fun _ => List.nodup_range.filter _
  mem_listing := fun s c => by
    simp only [List.mem_filter, List.mem_range, decide_eq_true_eq, and_iff_right_iff_imp]
    exact fun hc => Nat.lt_succ_of_le (Finset.le_sup hc (f := id))

/-- One viewer. -/
def oneViewer : Registry := ⟨{0}, 1, by decide⟩

theorem broadcast_isolated_calm :
    Isolated (steady .returned) oneViewer (broadcastOnce (steady .returned) oneViewer) ∧
      Stops (broadcastForever [⟨false, [], steady .returned⟩, ⟨true, [], steady .returned⟩] oneViewer) := by
  obtain ⟨hiff, hstops⟩ := broadcast_isolated_iff (steady .returned) oneViewer
    [⟨false, [], steady .returned⟩, ⟨true, [], steady .returned⟩]
  have hquiet : ∀ r, Quiet (steady .returned) r := by
    intro r _
    generalize (steady .returned).listing _ = cs
    induction cs with
    | nil => trivial
    | cons c cs ih => exact ⟨rfl, fun _ => ih⟩
  refine ⟨hiff.mpr (hquiet oneViewer), hstops fun b hb => ?_⟩
  obtain ⟨t, ht, hworld⟩ := world_of_mem_broadcastsOf hb
  have hsteady : t.world = steady .returned := by
    rcases List.mem_cons.mp ht with rfl | ht
    · rfl
    · rw [List.mem_singleton.mp ht]
  rw [hworld, hsteady]
  exact hquiet b.2

/-- Stopped while it sends to its only viewer, the broadcast drops the viewer, returns and is made again. -/
theorem stop_swallowed :
    (broadcastOnce (steady (.cancelled false)) oneViewer).result = .ok 0 ∧
      (broadcastOnce (steady (.cancelled false)) oneViewer).registry.clients = ∅ ∧
      ¬ Isolated (steady (.cancelled false)) oneViewer (broadcastOnce (steady (.cancelled false)) oneViewer) ∧
      ¬ Stops (broadcastForever [⟨false, [], steady (.cancelled false)⟩] oneViewer) := by
  refine ⟨by decide, by decide, fun h => ?_, fun h => ?_⟩
  · exact absurd (h.undisturbed (.send 0) (by decide)) (by decide)
  · exact absurd (h.running (by decide) true (by decide)) (by decide)

end Airspace.AirspaceBroadcaster
