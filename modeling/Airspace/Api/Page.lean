import Airspace.Api.Scope
import Airspace.Lib.Run

/-! The connection of the browser display (`acp/services/api/static/app.js`).

    The page holds one socket, or waits to open the next, and polls the server while it has none that is open.
    A poll awaits its two answers and their contents, so it may finish long after it was started, beside
    frames of a socket that was opened since. Nothing cancels it.

        load       start polling, connect
        open       stop polling
        close      start polling, connect again later
        error      close -/

namespace Airspace

noncomputable section

/-- The text of the link pill. -/
inductive Link where
  | connecting
  | live
  | noData
  | reconnecting
  deriving DecidableEq

/-- Where a socket stands; whether it was open before it began to close. -/
inductive ReadyState where
  | connecting
  | opened
  | closing (wasOpen : Bool)
  deriving DecidableEq

def ReadyState.wasOpen : ReadyState → Bool
  | .connecting => false
  | .opened => true
  | .closing wasOpen => wasOpen

/-- What a poll awaits. -/
inductive Awaited where
  | responses
  | alerts
  | tracks
  deriving DecidableEq

/-- The variables of the script, and what it has the browser hold: sockets that are not closed, intervals,
    timeouts with their delays, and polls that are not finished. -/
structure Page where
  canvas : Canvas
  scope : Scope := {}
  link : Link := .connecting
  socket : Option ℕ := none
  pollTimer : Option ℕ := none
  reconnectDelayMs : ℕ := 1000
  sockets : Dict ℕ ReadyState := Dict.empty
  intervals : Finset ℕ := ∅
  timeouts : List ℕ := []
  polls : Dict ℕ Awaited := Dict.empty
  next : ℕ := 0

/-- Where a payload came from. -/
inductive Origin where
  | poll (poll : ℕ)
  | socket (socket : ℕ)

/-- What happened to the page. -/
inductive PageEvent where
  | polled (poll : ℕ)
  | failed (poll : ℕ)
  | connected (socket : ℕ)
  | opened (socket : ℕ)
  | closed (socket : ℕ)
  | alerted (origin : Origin) (payload : AlertsPayload)
  | ingested (origin : Origin) (payload : TracksPayload)

/-- How the two requests of a poll come back. -/
inductive Responses where
  | rejected
  | answered (tracksOk alertsOk : Bool)

/-- What the browser does next; the contents of a response are missing where they do not parse. -/
inductive PageAction where
  | resize (canvas : Canvas)
  | opens (socket : ℕ)
  | message (socket : ℕ) (frame : StreamFrame)
  | errors (socket : ℕ)
  | closes (socket : ℕ)
  | tick (timer : ℕ)
  | timeout (delayMs : ℕ)
  | responds (poll : ℕ) (responses : Responses)
  | readsAlerts (poll : ℕ) (payload : Option AlertsPayload)
  | readsTracks (poll : ℕ) (payload : Option TracksPayload)

namespace Page

/-! ### The script -/

/-- `poll`, up to its first `await`. -/
def poll (p : Page) : Page × List PageEvent :=
  ({ p with polls := p.polls.set p.next .responses, next := p.next + 1 }, [.polled p.next])

/-- The `catch` of `poll`. -/
def failPoll (p : Page) (poll : ℕ) : Page × List PageEvent :=
  ({ p with polls := p.polls.erase poll, link := .noData }, [.failed poll])

def startPolling (p : Page) : Page × List PageEvent :=
  match p.pollTimer with
  | some _ => (p, [])
  | none =>
    let polling := p.poll
    ({ polling.1 with
        pollTimer := some polling.1.next
        intervals := insert polling.1.next polling.1.intervals
        next := polling.1.next + 1 }, polling.2)

def stopPolling (p : Page) : Page :=
  match p.pollTimer with
  | none => p
  | some timer => { p with intervals := p.intervals.erase timer, pollTimer := none }

def connect (p : Page) : Page × List PageEvent :=
  ({ p with sockets := p.sockets.set p.next .connecting, socket := some p.next, next := p.next + 1 },
    [.connected p.next])

/-- `socket.close()`. -/
def closeSocket (p : Page) (socket : ℕ) : Page :=
  match p.sockets.get? socket with
  | none => p
  | some readyState => { p with sockets := p.sockets.set socket (.closing readyState.wasOpen) }

/-- The listener of `open`. -/
def onOpen (p : Page) (socket : ℕ) : Page × List PageEvent :=
  let p := { p with sockets := p.sockets.set socket .opened, reconnectDelayMs := 1000 }
  ({ p.stopPolling with link := .live }, [.opened socket])

/-- The listener of `message`. -/
def onMessage (p : Page) (socket : ℕ) (frame : StreamFrame) : Page × List PageEvent :=
  ({ p with scope := ingest p.canvas (updateAlerts p.scope frame.forAlerts) frame.forTracks, link := .live },
    [.alerted (.socket socket) frame.forAlerts, .ingested (.socket socket) frame.forTracks])

/-- The listener of `close`. -/
def onClose (p : Page) (socket : ℕ) : Page × List PageEvent :=
  let polling := { p with sockets := p.sockets.erase socket, socket := none, link := .reconnecting }.startPolling
  ({ polling.1 with
      timeouts := polling.1.timeouts ++ [polling.1.reconnectDelayMs]
      reconnectDelayMs := min (polling.1.reconnectDelayMs * 2) 15000 }, .closed socket :: polling.2)

/-- The listener of `error`. -/
def onError (p : Page) : Page :=
  match p.socket with
  | none => p
  | some socket => p.closeSocket socket

/-- The page as it is loaded, and what that shows. -/
def load (canvas : Canvas) : Page × List PageEvent :=
  let polling := startPolling { canvas := canvas }
  let connecting := polling.1.connect
  (connecting.1, polling.2 ++ connecting.2)

/-! ### The browser -/

/-- The next event of the browser; none if it cannot happen. -/
def step (p : Page) : PageAction → Option (Page × List PageEvent)
  | .resize canvas => some ({ p with canvas := canvas }, [])
  | .opens socket => if p.sockets.get? socket = some .connecting then some (p.onOpen socket) else none
  | .message socket frame =>
    if p.sockets.get? socket = some .opened then some (p.onMessage socket frame) else none
  | .errors socket => if socket ∈ p.sockets.keys then some (p.onError, []) else none
  | .closes socket => if socket ∈ p.sockets.keys then some (p.onClose socket) else none
  | .tick timer => if timer ∈ p.intervals then some p.poll else none
  | .timeout delayMs =>
    if delayMs ∈ p.timeouts then some { p with timeouts := p.timeouts.erase delayMs }.connect else none
  | .responds poll responses =>
    if p.polls.get? poll = some .responses then
      match responses with
      | .rejected => some (p.failPoll poll)
      | .answered false _ => some (p.failPoll poll)
      | .answered true true => some ({ p with polls := p.polls.set poll .alerts }, [])
      | .answered true false => some ({ p with polls := p.polls.set poll .tracks }, [])
    else none
  | .readsAlerts poll payload =>
    if p.polls.get? poll = some .alerts then
      match payload with
      | none => some (p.failPoll poll)
      | some payload =>
        some ({ p with scope := updateAlerts p.scope payload, polls := p.polls.set poll .tracks },
          [.alerted (.poll poll) payload])
    else none
  | .readsTracks poll payload =>
    if p.polls.get? poll = some .tracks then
      match payload with
      | none => some (p.failPoll poll)
      | some payload =>
        some ({ p with scope := ingest p.canvas p.scope payload, polls := p.polls.erase poll, link := .live },
          [.ingested (.poll poll) payload])
    else none

def machine : Machine Page PageAction PageEvent := ⟨step⟩

/-! ### One connection -/

/-- An event that opens or closes no socket. -/
def Idle : PageEvent → Prop
  | .opened _ | .closed _ => False
  | _ => True

/-- What an event leaves on the screen. -/
def draw (canvas : Canvas) (scope : Scope) : PageEvent → Scope
  | .alerted _ payload => updateAlerts scope payload
  | .ingested _ payload => ingest canvas scope payload
  | _ => scope

/-- The same socket, timers and delay. -/
structure SameConnection (p p' : Page) : Prop where
  socket : p'.socket = p.socket
  pollTimer : p'.pollTimer = p.pollTimer
  reconnectDelayMs : p'.reconnectDelayMs = p.reconnectDelayMs
  sockets : p'.sockets = p.sockets
  intervals : p'.intervals = p.intervals
  timeouts : p'.timeouts = p.timeouts

variable {p p' : Page} {a : PageAction} {shown log : List PageEvent} {s : ℕ}

/-- What a step can do: leave the connection alone and draw what it shows, or be one of those of the
    connection. -/
theorem step_cases (h : p.step a = some (p', shown)) :
    (SameConnection p p' ∧ (∀ e ∈ shown, Idle e) ∧ (p.intervals = ∅ → ∀ poll, .polled poll ∉ shown) ∧
        p'.scope = shown.foldl (draw p.canvas) p.scope) ∨
      (∃ s, a = .opens s ∧ p.sockets.get? s = some .connecting ∧ (p', shown) = p.onOpen s) ∨
      (∃ s, a = .errors s ∧ s ∈ p.sockets.keys ∧ p' = p.onError ∧ shown = []) ∨
      (∃ s, a = .closes s ∧ s ∈ p.sockets.keys ∧ (p', shown) = p.onClose s) ∨
      ∃ delayMs, a = .timeout delayMs ∧ delayMs ∈ p.timeouts ∧
        (p', shown) = { p with timeouts := p.timeouts.erase delayMs }.connect := by
  cases a with
  | resize canvas =>
    obtain ⟨rfl, rfl⟩ := Prod.mk.inj (Option.some.inj h)
    exact .inl ⟨⟨rfl, rfl, rfl, rfl, rfl, rfl⟩, by simp, by simp, rfl⟩
  | opens s =>
    rw [step] at h
    split_ifs at h with hready
    exact .inr (.inl ⟨s, rfl, hready, (Option.some.inj h).symm⟩)
  | message s frame =>
    rw [step] at h
    split_ifs at h
    obtain ⟨rfl, rfl⟩ := Prod.mk.inj (Option.some.inj h)
    exact .inl ⟨⟨rfl, rfl, rfl, rfl, rfl, rfl⟩, by simp [Idle], by simp, rfl⟩
  | errors s =>
    rw [step] at h
    split_ifs at h with hs
    obtain ⟨rfl, rfl⟩ := Prod.mk.inj (Option.some.inj h)
    exact .inr (.inr (.inl ⟨s, rfl, hs, rfl, rfl⟩))
  | closes s =>
    rw [step] at h
    split_ifs at h with hs
    exact .inr (.inr (.inr (.inl ⟨s, rfl, hs, (Option.some.inj h).symm⟩)))
  | tick timer =>
    rw [step] at h
    split_ifs at h with htimer
    obtain ⟨rfl, rfl⟩ := Prod.mk.inj (Option.some.inj h)
    refine .inl ⟨⟨rfl, rfl, rfl, rfl, rfl, rfl⟩, by simp [Idle], fun hnone => ?_, rfl⟩
    rw [hnone] at htimer
    exact absurd htimer (Finset.notMem_empty _)
  | timeout delayMs =>
    rw [step] at h
    split_ifs at h with hdelay
    exact .inr (.inr (.inr (.inr ⟨delayMs, rfl, hdelay, (Option.some.inj h).symm⟩)))
  | responds poll responses =>
    simp only [step] at h
    split_ifs at h
    rcases responses with - | ⟨_ | _, _ | _⟩
    all_goals
      obtain ⟨rfl, rfl⟩ := Prod.mk.inj (Option.some.inj h)
      exact .inl ⟨⟨rfl, rfl, rfl, rfl, rfl, rfl⟩, by simp [Idle], by simp, rfl⟩
  | readsAlerts poll payload =>
    simp only [step] at h
    split_ifs at h
    rcases payload with - | payload
    all_goals
      obtain ⟨rfl, rfl⟩ := Prod.mk.inj (Option.some.inj h)
      exact .inl ⟨⟨rfl, rfl, rfl, rfl, rfl, rfl⟩, by simp [Idle], by simp, rfl⟩
  | readsTracks poll payload =>
    simp only [step] at h
    split_ifs at h
    rcases payload with - | payload
    all_goals
      obtain ⟨rfl, rfl⟩ := Prod.mk.inj (Option.some.inj h)
      exact .inl ⟨⟨rfl, rfl, rfl, rfl, rfl, rfl⟩, by simp [Idle], by simp, rfl⟩

/-- Sockets closed in a row. -/
def countFailure (failures : ℕ) : PageEvent → ℕ
  | .opened _ => 0
  | .closed _ => failures + 1
  | _ => failures

/-- How often a socket was closed since one was last opened. -/
def failures (log : List PageEvent) : ℕ := log.foldl countFailure 0

theorem failures_idle (h : ∀ e ∈ shown, Idle e) : failures (log ++ shown) = failures log := by
  induction shown using List.reverseRecOn with
  | nil => rw [List.append_nil]
  | append_singleton shown e ih =>
    have hidle : Idle e := h e (by simp)
    rw [← List.append_assoc, failures, List.foldl_concat]
    refine Eq.trans ?_ (ih fun e he => h e (List.mem_append_left _ he))
    cases e <;> first | rfl | exact hidle.elim

/-- What the page waits before it connects again, after so many failures. -/
def backoffMs (failures : ℕ) : ℕ := min (1000 * 2 ^ failures) 15000

theorem backoffMs_succ (n : ℕ) : min (backoffMs n * 2) 15000 = backoffMs (n + 1) := by
  rw [backoffMs, backoffMs, pow_succ]
  omega

/-- The page polls every second, or not at all. -/
def Polls (p : Page) : Prop := ∃ timer, p.pollTimer = some timer ∧ p.intervals = {timer}

def Quiet (p : Page) : Prop := p.pollTimer = none ∧ p.intervals = ∅

/-- The page holds one socket, and polls unless that was opened. -/
structure Holding (p : Page) (s : ℕ) (readyState : ReadyState) : Prop where
  sockets : ∀ k, p.sockets.get? k = if k = s then some readyState else none
  socket : p.socket = some s
  timeouts : p.timeouts = []
  polling : if readyState.wasOpen then p.Quiet else p.Polls

/-- The page holds no socket, polls, and waits to connect again. -/
structure Waiting (p : Page) (delayMs : ℕ) : Prop where
  sockets : ∀ k, p.sockets.get? k = none
  socket : p.socket = none
  timeouts : p.timeouts = [delayMs]
  polling : p.Polls

/-- The page after so many failures. -/
structure Linked (p : Page) (failures : ℕ) : Prop where
  delay : p.reconnectDelayMs = backoffMs failures
  attempt : (∃ s readyState, p.Holding s readyState) ∨ 0 < failures ∧ p.Waiting (backoffMs (failures - 1))

/-! ### What the listeners do to it -/

theorem startPolling_keeps (p : Page) : p.startPolling.1.sockets = p.sockets ∧
    p.startPolling.1.socket = p.socket ∧ p.startPolling.1.timeouts = p.timeouts ∧
    p.startPolling.1.reconnectDelayMs = p.reconnectDelayMs := by
  unfold startPolling
  split <;> exact ⟨rfl, rfl, rfl, rfl⟩

theorem startPolling_idle (p : Page) : ∀ e ∈ p.startPolling.2, Idle e := by
  unfold startPolling
  split
  · exact List.forall_mem_nil _
  · simp [poll, Idle]

theorem startPolling_polls (h : p.Polls ∨ p.Quiet) : p.startPolling.1.Polls := by
  rcases h with ⟨timer, htimer, hintervals⟩ | ⟨hnone, hintervals⟩
  · simp only [startPolling, htimer]
    exact ⟨timer, htimer, hintervals⟩
  · simp only [startPolling, hnone]
    exact ⟨_, rfl, congrArg (insert _) hintervals⟩

theorem stopPolling_keeps (p : Page) : p.stopPolling.sockets = p.sockets ∧ p.stopPolling.socket = p.socket ∧
    p.stopPolling.timeouts = p.timeouts ∧ p.stopPolling.reconnectDelayMs = p.reconnectDelayMs := by
  unfold stopPolling
  split <;> exact ⟨rfl, rfl, rfl, rfl⟩

theorem stopPolling_quiet (h : p.Polls ∨ p.Quiet) : p.stopPolling.Quiet := by
  rcases h with ⟨timer, htimer, hintervals⟩ | hquiet
  · simp only [stopPolling, htimer]
    refine ⟨rfl, ?_⟩
    rw [hintervals]
    exact Finset.erase_singleton timer
  · simp only [stopPolling, hquiet.1]
    exact hquiet

variable {n : ℕ} {readyState : ReadyState} {delayMs : ℕ}

theorem Holding.polls_or_quiet (h : p.Holding s readyState) : p.Polls ∨ p.Quiet := by
  have hpolling := h.polling
  split_ifs at hpolling
  · exact .inr hpolling
  · exact .inl hpolling

theorem Holding.mem_keys_iff (h : p.Holding s readyState) {k : ℕ} : k ∈ p.sockets.keys ↔ k = s := by
  rw [← not_iff_not, ← Dict.get?_eq_none_iff, h.sockets]
  split_ifs with hk <;> simp [hk]

theorem Waiting.not_mem_keys (h : p.Waiting delayMs) (k : ℕ) : k ∉ p.sockets.keys :=
  Dict.get?_eq_none_iff.mp (h.sockets k)

theorem Linked.same (h : p.Linked n) (hsame : SameConnection p p') : p'.Linked n := by
  have hpolls : p.Polls → p'.Polls := by
    rw [Polls, Polls, hsame.pollTimer, hsame.intervals]
    exact id
  have hquiet : p.Quiet → p'.Quiet := by
    rw [Quiet, Quiet, hsame.pollTimer, hsame.intervals]
    exact id
  refine ⟨hsame.reconnectDelayMs.trans h.delay, h.attempt.imp ?_ (And.imp_right ?_)⟩
  · rintro ⟨s, readyState, hholding⟩
    refine ⟨s, readyState, ?_, hsame.socket.trans hholding.socket, hsame.timeouts.trans hholding.timeouts, ?_⟩
    · rw [hsame.sockets]
      exact hholding.sockets
    · have hpolling := hholding.polling
      split_ifs at hpolling ⊢
      · exact hquiet hpolling
      · exact hpolls hpolling
  · intro hwaiting
    refine ⟨?_, hsame.socket.trans hwaiting.socket, hsame.timeouts.trans hwaiting.timeouts,
      hpolls hwaiting.polling⟩
    rw [hsame.sockets]
    exact hwaiting.sockets

theorem Linked.opens (h : p.Linked n) (hready : p.sockets.get? s = some .connecting) :
    (p.onOpen s).1.Linked 0 := by
  rcases h.attempt with ⟨k, readyState, hholding⟩ | ⟨-, hwaiting⟩
  · obtain rfl : s = k := hholding.mem_keys_iff.mp (Dict.mem_keys_iff.mpr ⟨_, hready⟩)
    obtain ⟨hsockets, hsocket, htimeouts, hdelay⟩ :=
      stopPolling_keeps { p with sockets := p.sockets.set s .opened, reconnectDelayMs := 1000 }
    refine ⟨hdelay, .inl ⟨s, .opened, fun k => ?_, hsocket.trans hholding.socket,
      htimeouts.trans hholding.timeouts, ?_⟩⟩
    · refine (congrArg (Dict.get? · k) hsockets).trans ?_
      rw [Dict.get?_set, hholding.sockets]
      split_ifs <;> rfl
    · exact stopPolling_quiet hholding.polls_or_quiet
  · rw [hwaiting.sockets] at hready
    cases hready

/-- An error closes the socket the page holds, and leaves the rest to the listener of `close`. -/
theorem Linked.errors (h : p.Linked n) : p.onError.Linked n := by
  rcases h.attempt with ⟨s, readyState, hholding⟩ | ⟨-, hwaiting⟩
  · have hheld : p.sockets.get? s = some readyState := by rw [hholding.sockets, if_pos rfl]
    simp only [onError, hholding.socket, closeSocket, hheld]
    refine ⟨h.delay, .inl ⟨s, .closing readyState.wasOpen, fun k => ?_, rfl, hholding.timeouts, ?_⟩⟩
    · rw [Dict.get?_set, hholding.sockets]
      split_ifs <;> rfl
    · exact hholding.polling
  · simp only [onError, hwaiting.socket]
    exact h

theorem Linked.closes (h : p.Linked n) (hs : s ∈ p.sockets.keys) : (p.onClose s).1.Linked (n + 1) := by
  rcases h.attempt with ⟨k, readyState, hholding⟩ | ⟨-, hwaiting⟩
  · obtain rfl : s = k := hholding.mem_keys_iff.mp hs
    obtain ⟨hsockets, hsocket, htimeouts, hdelay⟩ :=
      startPolling_keeps { p with sockets := p.sockets.erase s, socket := none, link := .reconnecting }
    refine ⟨?_, .inr ⟨Nat.succ_pos n, fun k => ?_, hsocket, ?_, startPolling_polls hholding.polls_or_quiet⟩⟩
    · refine (congrArg (fun delay => min (delay * 2) 15000) (hdelay.trans h.delay)).trans (backoffMs_succ n)
    · refine (congrArg (Dict.get? · k) hsockets).trans ?_
      rw [Dict.get?_erase, hholding.sockets]
      split_ifs <;> rfl
    · refine (congrArg₂ (fun timeouts delay => timeouts ++ [delay]) (htimeouts.trans hholding.timeouts)
        (hdelay.trans h.delay)).trans ?_
      rw [List.nil_append, Nat.add_sub_cancel]
  · exact absurd hs (hwaiting.not_mem_keys s)

theorem Linked.timeout (h : p.Linked n) (hdelay : delayMs ∈ p.timeouts) :
    ({ p with timeouts := p.timeouts.erase delayMs }.connect).1.Linked n := by
  rcases h.attempt with ⟨k, readyState, hholding⟩ | ⟨-, hwaiting⟩
  · rw [hholding.timeouts] at hdelay
    exact absurd hdelay List.not_mem_nil
  · refine ⟨h.delay, .inl ⟨p.next, .connecting, fun k => ?_, rfl, ?_, hwaiting.polling⟩⟩
    · refine (Dict.get?_set ..).trans ?_
      rw [hwaiting.sockets]
    · have hsame : delayMs = backoffMs (n - 1) := by
        rw [hwaiting.timeouts] at hdelay
        exact List.mem_singleton.mp hdelay
      refine (congrArg (List.erase · delayMs) hwaiting.timeouts).trans ?_
      rw [hsame]
      exact List.erase_cons_head _ _

/-! ### Runs -/

/-- A step keeps the page linked, one more failure counted for each socket closed. -/
theorem linked_step (h : p.Linked (failures log)) (hstep : p.step a = some (p', shown)) :
    p'.Linked (failures (log ++ shown)) := by
  rcases step_cases hstep with ⟨hsame, hidle, -, -⟩ | ⟨s, -, hready, heq⟩ | ⟨s, -, -, rfl, rfl⟩ | ⟨s, -, hs, heq⟩ |
    ⟨delayMs, -, hdelay, heq⟩
  · rw [failures_idle hidle]
    exact h.same hsame
  · obtain ⟨rfl, rfl⟩ := Prod.mk.inj heq
    rw [failures, List.foldl_append]
    exact h.opens hready
  · rw [List.append_nil]
    exact h.errors
  · have hp : p' = (p.onClose s).1 := congrArg Prod.fst heq
    have hshown : shown = (p.onClose s).2 := congrArg Prod.snd heq
    have hcount : failures (log ++ (p.onClose s).2) = failures log + 1 := by
      rw [onClose, List.append_cons, failures_idle (startPolling_idle _), failures, List.foldl_concat]
      rfl
    rw [hp, hshown, hcount]
    exact h.closes hs
  · obtain ⟨rfl, rfl⟩ := Prod.mk.inj heq
    rw [failures_idle (by simp [Idle])]
    exact h.timeout hdelay

theorem linked_load (canvas : Canvas) : (load canvas).1.Linked 0 where
  delay := rfl
  attempt := .inl ⟨2, .connecting, fun _ => Dict.get?_set .., rfl, rfl, ⟨1, rfl, rfl⟩⟩

/-- In every run of the page it holds one socket, or none and one timeout to open the next, which waits twice
    as long after every failure in a row, up to a quarter of a minute. It polls every second unless the socket
    it holds has been opened, and starts no poll then unless that socket closes. -/
theorem one_connection (canvas : Canvas) (hrun : machine.Run (fun _ _ => True) (load canvas).1 p log) :
    p.Linked (failures log) ∧ ∀ a p' shown poll, p.step a = some (p', shown) → .polled poll ∈ shown →
      p.Polls ∨ ∃ s, a = .closes s := by
  have hlinked : p.Linked (failures log) := by
    refine hrun.invariant (I := fun p log => p.Linked (failures log)) (linked_load canvas) ?_
    exact fun p log a p' shown h _ hstep => linked_step h hstep
  refine ⟨hlinked, fun a p' shown poll hstep hpolled => ?_⟩
  have hpolling : p.Polls ∨ p.Quiet := by
    rcases hlinked.attempt with ⟨s, readyState, hholding⟩ | ⟨-, hwaiting⟩
    · exact hholding.polls_or_quiet
    · exact .inl hwaiting.polling
  refine hpolling.imp_right fun hquiet => ?_
  rcases step_cases hstep with ⟨-, -, hnone, -⟩ | ⟨s, -, -, heq⟩ | ⟨s, -, -, -, rfl⟩ | ⟨s, hcloses, -⟩ |
    ⟨delayMs, -, -, heq⟩
  · exact absurd hpolled (hnone hquiet.2 poll)
  · obtain ⟨-, rfl⟩ := Prod.mk.inj heq
    cases List.mem_singleton.mp hpolled
  · cases hpolled
  · exact ⟨s, hcloses⟩
  · obtain ⟨-, rfl⟩ := Prod.mk.inj heq
    cases List.mem_singleton.mp hpolled

/-- A window to look through. -/
def desktop : Canvas := ⟨800, 600, by norm_num, by norm_num⟩

/-- The first socket is opened and closed, and a second later the next is tried. -/
theorem one_connection_retry : ∃ p log,
    machine.exec (load desktop).1 [.opens 2, .closes 2, .timeout 1000] = some (p, log) ∧
      p.Linked (failures log) ∧ ∀ a p' shown poll, p.step a = some (p', shown) → .polled poll ∈ shown →
        p.Polls ∨ ∃ s, a = .closes s := by
  obtain ⟨p, log, hexec⟩ : ∃ p log,
      machine.exec (load desktop).1 [.opens 2, .closes 2, .timeout 1000] = some (p, log) := ⟨_, _, rfl⟩
  exact ⟨p, log, hexec, one_connection desktop (Machine.Run.start.exec hexec)⟩

/-! ### The picture -/

theorem startPolling_draws (p : Page) (canvas : Canvas) (scope : Scope) :
    p.startPolling.1.scope = p.scope ∧ p.startPolling.2.foldl (draw canvas) scope = scope := by
  unfold startPolling
  split <;> exact ⟨rfl, rfl⟩

theorem stopPolling_scope (p : Page) : p.stopPolling.scope = p.scope := by
  unfold stopPolling
  split <;> rfl

theorem onError_scope (p : Page) : p.onError.scope = p.scope := by
  unfold onError closeSocket
  split
  · rfl
  · split <;> rfl

/-- A step changes the picture only by what it shows. -/
theorem scope_step (h : p.step a = some (p', shown)) : p'.scope = shown.foldl (draw p.canvas) p.scope := by
  rcases step_cases h with ⟨-, -, -, hscope⟩ | ⟨s, -, -, heq⟩ | ⟨s, -, -, rfl, rfl⟩ | ⟨s, -, -, heq⟩ |
    ⟨delayMs, -, -, heq⟩
  · exact hscope
  · obtain ⟨rfl, rfl⟩ := Prod.mk.inj heq
    exact stopPolling_scope _
  · exact onError_scope p
  · obtain ⟨rfl, rfl⟩ := Prod.mk.inj heq
    obtain ⟨hscope, hdraws⟩ := startPolling_draws
      { p with sockets := p.sockets.erase s, socket := none, link := .reconnecting } p.canvas p.scope
    exact hscope.trans hdraws.symm
  · obtain ⟨rfl, rfl⟩ := Prod.mk.inj heq
    rfl

/-- The payloads of tracks shown so far. -/
def tracksShown (log : List PageEvent) : List TracksPayload :=
  log.filterMap fun e => match e with | .ingested _ payload => some payload | _ => none

/-- The payloads of alerts shown so far. -/
def alertsShown (log : List PageEvent) : List AlertsPayload :=
  log.filterMap fun e => match e with | .alerted _ payload => some payload | _ => none

/-- The screen after what was shown. -/
structure Drawn (scope : Scope) (log : List PageEvent) : Prop where
  state : scope.state = (tracksShown log).foldl showPayload Dict.empty
  alerts : ∀ payload ∈ (alertsShown log).getLast?, scope.Lists payload
  noAlerts : alertsShown log = [] → scope.alertedTracks = ∅ ∧ scope.alertList = []
  scaled : ∀ view ∈ scope.view, view.Scaled
  unseen : (∀ payload ∈ tracksShown log, payload.tracks = []) → scope.view = none

theorem Drawn.silent {scope : Scope} {log' : List PageEvent} (h : Drawn scope log)
    (htracks : tracksShown log' = tracksShown log) (halerts : alertsShown log' = alertsShown log) :
    Drawn scope log' where
  state := htracks ▸ h.state
  alerts := halerts ▸ h.alerts
  noAlerts := halerts ▸ h.noAlerts
  scaled := h.scaled
  unseen := htracks ▸ h.unseen

theorem Drawn.draw {scope : Scope} (h : Drawn scope log) (canvas : Canvas) (e : PageEvent) :
    Drawn (draw canvas scope e) (log ++ [e]) := by
  cases e with
  | alerted origin payload =>
    have htracks : tracksShown (log ++ [.alerted origin payload]) = tracksShown log := by simp [tracksShown]
    have halerts : alertsShown (log ++ [.alerted origin payload]) = alertsShown log ++ [payload] := by
      simp [alertsShown]
    refine ⟨htracks ▸ h.state, fun last hlast => ?_, fun hnone => ?_, h.scaled, htracks ▸ h.unseen⟩
    · rw [halerts, List.getLast?_concat] at hlast
      exact Option.some.inj hlast ▸ lists_updateAlerts scope payload
    · rw [halerts] at hnone
      exact absurd hnone (by simp)
  | ingested origin payload =>
    have htracks : tracksShown (log ++ [.ingested origin payload]) = tracksShown log ++ [payload] := by
      simp [tracksShown]
    have halerts : alertsShown (log ++ [.ingested origin payload]) = alertsShown log := by simp [alertsShown]
    refine ⟨?_, ?_, ?_, scaled_fitView h.scaled payload.tracks, ?_⟩
    · rw [htracks, List.foldl_concat, ← h.state]
      rfl
    · rw [halerts]
      exact fun last hlast => { h.alerts last hlast with }
    · rw [halerts]
      exact h.noAlerts
    · intro hempty
      rw [htracks, List.forall_mem_append, List.forall_mem_singleton] at hempty
      exact (if_pos hempty.2).trans (h.unseen hempty.1)
  | polled | failed | connected | opened | closed =>
    exact h.silent (by simp [tracksShown]) (by simp [alertsShown])

theorem Drawn.foldl {scope : Scope} (h : Drawn scope log) (canvas : Canvas) (events : List PageEvent) :
    Drawn (events.foldl (Page.draw canvas) scope) (log ++ events) := by
  induction events using List.reverseRecOn with
  | nil => rwa [List.append_nil]
  | append_singleton events e ih =>
    rw [List.foldl_concat, ← List.append_assoc]
    exact ih.draw canvas e

theorem drawn_load (canvas : Canvas) : Drawn (load canvas).1.scope [] where
  state := rfl
  alerts _ hlast := by cases hlast
  noAlerts _ := ⟨rfl, rfl⟩
  scaled _ hview := by cases hview
  unseen _ := rfl

/-- The screen after what was shown. Of each track that the last payload named there is its last state and the
    last ninety of the places it was drawn at since a payload did not name it; of the last payload of alerts
    there are its alerts; the scale is never zero; and the first payload with a track will be drawn whole. -/
structure Shows (p : Page) (log : List PageEvent) : Prop where
  tracks : ∀ id, p.scope.state.get? id = entryFrom (sightings (tracksShown log) id)
  alerts : ∀ payload ∈ (alertsShown log).getLast?, p.scope.Lists payload
  noAlerts : alertsShown log = [] → p.scope.alertedTracks = ∅ ∧ p.scope.alertList = []
  scaled : ∀ view ∈ p.scope.view, view.Scaled
  whole : (∀ payload ∈ tracksShown log, payload.tracks = []) → ∀ payload : TracksPayload, payload.tracks ≠ [] →
    ∃ view, (ingest p.canvas p.scope payload).view = some view ∧
      ∀ t ∈ payload.tracks, p.canvas.Holds (project p.canvas view t.lat t.lon)

/-- A track on its way north, so many seconds into a run. -/
def northbound (elapsedS : ℕ) : TrackUpdate where
  trackId := "trk-a1b2c3"
  icao24 := "a1b2c3"
  updatedAt := seconds elapsedS
  lastReportAt := seconds elapsedS
  state := .confirmed
  lat := elapsedS / 1200
  lon := 0
  altitudeFt := 30000
  groundSpeedKt := 180
  trackDeg := 0
  verticalRateFpm := 0
  turnRateDegS := 0
  positionUncertaintyM := 30
  updateCount := elapsedS

end Page

end

end Airspace
