import Airspace.Lib.Numerals
import Mathlib.Data.Finset.Sort
import Mathlib.Data.Finset.Insert

/-! The WebSocket fan-out of the live picture (`acp.services.api.stream`).

    One task reads the picture and sends it to every client in turn. Each send may fail, time out or be
    interrupted by a request to cancel the task, and while the task waits others join and leave. Clients are
    numbered in the order they register, since every registration makes a new one. Logging is left out. -/

namespace Airspace.AirspaceBroadcaster

/-- What a socket or a store raises of its own. -/
inductive SocketError where
  | timeoutError
  | other
  deriving DecidableEq

inductive StreamError where
  | timeoutError
  | cancelledError
  | other
  deriving DecidableEq

def SocketError.raised : SocketError → StreamError
  | .timeoutError => .timeoutError
  | .other => .other

/-- How an await comes back. -/
inductive Back where
  | returned
  | raised (e : SocketError)
  | cancelled
  deriving DecidableEq

/-- How a send comes back: the deadline may pass, a request to cancel may arrive, or both. -/
inductive SendBack where
  | returned
  | raised (e : SocketError)
  | timedOut
  | cancelled (deadline : Bool)
  deriving DecidableEq

/-- What leaves `async with asyncio.timeout(...)`: the deadline's own interruption becomes a `TimeoutError`
    unless somebody else asked to cancel as well. -/
def SendBack.leaves : SendBack → Option StreamError
  | .returned => none
  | .raised e => some e.raised
  | .timedOut => some .timeoutError
  | .cancelled _ => some .cancelledError

/-- A request to cancel the task arrives during the send. -/
def SendBack.requested : SendBack → Bool
  | .cancelled _ => true
  | _ => false

/-- The send itself fails or times out. -/
def SendBack.failed : SendBack → Bool
  | .raised _ => true
  | .timedOut => true
  | .cancelled deadline => deadline
  | .returned => false

/-- The points at which one broadcast waits. -/
inductive Await where
  | read
  | send (c : ℕ)
  | close (c : ℕ)
  deriving DecidableEq

/-- What others do while the task waits. -/
inductive Happening where
  | joined
  | left (c : ℕ)
  deriving DecidableEq

/-- The registered clients, and the number of the next one. -/
@[ext] structure Registry where
  clients : Finset ℕ
  next : ℕ
  fresh : ∀ c ∈ clients, c < next

namespace Registry

/-- `self._clients.add(client)`, for a client that was not there before. -/
def register (r : Registry) : Registry where
  clients := insert r.next r.clients
  next := r.next + 1
  fresh := by
    intro c hc
    rcases Finset.mem_insert.mp hc with rfl | hc
    · exact Nat.lt_succ_self _
    · exact Nat.lt_succ_of_lt (r.fresh c hc)

/-- `self._clients.discard(client)`. -/
def unregister (r : Registry) (c : ℕ) : Registry where
  clients := r.clients.erase c
  next := r.next
  fresh := fun d hd => r.fresh d (Finset.mem_of_mem_erase hd)

def happen (r : Registry) : Happening → Registry
  | .joined => r.register
  | .left c => r.unregister c

/-- What is left of the registry after others have joined and left. -/
def after (r : Registry) (others : List Happening) : Registry := others.foldl happen r

end Registry

/-- How every await of one broadcast comes back, what others do meanwhile, and the order in which the set of
    clients is listed. -/
structure World where
  read : Back
  send : ℕ → SendBack
  close : ℕ → Back
  others : Await → List Happening
  listing : Finset ℕ → List ℕ
  listing_nodup : ∀ s, (listing s).Nodup
  mem_listing : ∀ s c, c ∈ listing s ↔ c ∈ s

/-- A request to cancel the task arrives during an await. -/
def World.requested (w : World) : Await → Bool
  | .read => w.read = .cancelled
  | .send c => (w.send c).requested
  | .close c => w.close c = .cancelled

/-- A broadcast under way: the registry, the awaits so far, the clients reached and their count. -/
structure Progress where
  registry : Registry
  awaited : List Await
  sent : List ℕ
  delivered : ℕ

/-- Wait, while others join and leave. -/
def Progress.await (p : Progress) (w : World) (a : Await) : Progress :=
  { p with registry := p.registry.after (w.others a), awaited := p.awaited ++ [a] }

def Progress.unregister (p : Progress) (c : ℕ) : Progress := { p with registry := p.registry.unregister c }

/-- Close a dropped client's socket; `contextlib.suppress(Exception)` lets only a cancellation through. -/
def closeSocket (w : World) (p : Progress) (c : ℕ) : Progress × Option StreamError :=
  match w.close c with
  | .cancelled => (p.await w (.close c), some .cancelledError)
  | _ => (p.await w (.close c), none)

/-- The loop body: send to one client, and drop it where that goes wrong. -/
def sendTo (w : World) (p : Progress) (c : ℕ) : Progress × Option StreamError :=
  let p := p.await w (.send c)
  match (w.send c).leaves with
  | none => ({ p with sent := p.sent ++ [c], delivered := p.delivered + 1 }, none)
  | some .timeoutError => closeSocket w (p.unregister c) c
  | some .cancelledError => closeSocket w (p.unregister c) c
  | some .other => (p.unregister c, none)

/-- The loop over the listed clients. -/
def sendAll (w : World) : List ℕ → Progress → Progress × Option StreamError
  | [], p => (p, none)
  | c :: cs, p =>
    match sendTo w p c with
    | (p, none) => sendAll w cs p
    | (p, some e) => (p, some e)

/-- What a broadcast comes to. -/
structure Broadcast where
  registry : Registry
  awaited : List Await
  sent : List ℕ
  result : Except StreamError ℕ

/-- Send one frame to every client, and return how many were reached. -/
def broadcastOnce (w : World) (r : Registry) : Broadcast :=
  let p := Progress.await ⟨r, [], [], 0⟩ w .read
  match w.read with
  | .raised e => ⟨p.registry, p.awaited, p.sent, .error e.raised⟩
  | .cancelled => ⟨p.registry, p.awaited, p.sent, .error .cancelledError⟩
  | .returned =>
    match sendAll w (w.listing p.registry.clients) p with
    | (p, none) => ⟨p.registry, p.awaited, p.sent, .ok p.delivered⟩
    | (p, some e) => ⟨p.registry, p.awaited, p.sent, .error e⟩

/-- One turn of the loop: a sleep, which may be cancelled, and a broadcast. -/
structure Tick where
  cancelled : Bool
  others : List Happening
  world : World

/-- A stretch of the loop: whether a request to cancel arrived in each await, and whether the loop ended. -/
structure LoopRun where
  requests : List Bool
  ended : Bool

/-- `_broadcast_forever`, over as many turns as are given. -/
def broadcastForever : List Tick → Registry → LoopRun
  | [], _ => ⟨[], false⟩
  | t :: ts, r =>
    let r := r.after t.others
    if t.cancelled then ⟨[true], true⟩
    else if r.clients = ∅ then
      -- nobody is watching
      let rest := broadcastForever ts r
      { rest with requests := false :: rest.requests }
    else
      let b := broadcastOnce t.world r
      let requests := false :: b.awaited.map t.world.requested
      if b.result = .error .cancelledError then ⟨requests, true⟩
      else
        let rest := broadcastForever ts b.registry
        { rest with requests := requests ++ rest.requests }

end Airspace.AirspaceBroadcaster
