/-
**Two threads that free one connection.**

`Tunnel::freeProxyConn` looks a connection up in `proxy_connect_map_`, tests `is_start`, erases the
entry and puts the connection into `free_proxy_connects_`, each under its own lock or none.  The
worker thread of the connection and the control thread both call it.  Here each of these operations,
each operation on another container, and each section of `close_mutex_` is one step; there are any
number of connections.

Whether the counters of a half are equal is not modelled: a thread that compares them may find them
equal or not, whatever was counted.

Main definitions:

* `FreePc`, `FreeWorker`, `FreeControl` — where the threads stand;
* `Freeing`, `FreeAct`, `Freeing.step` — the containers of a server tunnel and its threads;
* `Freeing.Safe` — no connection is twice in the free list, and none in it is in use;
* `FreeOnce`, `RemoteOnce` — no lookup of `freeProxyConn` while the other thread is between its own
  lookup and its erasure; no second `shutdownFromRemote` in a session.

Main results:

* `FreeInv.step` — **one step preserves the invariant**;
* `freeInv_of_reach` — so does a run whose steps satisfy both conditions;
* `free_list_safe` — **a run whose steps satisfy both conditions keeps the free list safe**.

Both conditions hold of the steps that a run of the counters without a crossing stands for (`CloseFree`).
-/

import Mathlib.Data.List.Basic
import Mathlib.Logic.Function.Basic
import ProxySocket.Lts
import ProxySocket.ProxyConnect

set_option relaxedAutoImplicit false
set_option autoImplicit false

namespace ProxySocket

open Function (update)

/-! ### The threads -/

/-- Where a thread stands in `Tunnel::freeProxyConn`. -/
inductive FreePc
  | enter
  /-- after `proxy_connect_map_.get` -/
  | got
  /-- after the test of `is_start` -/
  | tested
  /-- after `proxy_connect_map_.erase` -/
  | erased
deriving DecidableEq, Repr

/-- Where the worker thread stands with a connection. -/
inductive FreeWorker
  | idle
  /-- `handleStartProxyConnRsp`, at its beginning -/
  | received
  /-- `handleStartProxyConnRsp`, after `wait_proxy_connect_map_.isExist` -/
  | found
  /-- `handleStartProxyConnRsp`, after `Run` -/
  | ran
  /-- `handleStartProxyConnRsp`, after `proxy_connect_map_.add` -/
  | mapped
  /-- `claimProxyConn`, after `Run` -/
  | claimed
  /-- `shutdownFromPublic`, after `proxy_connect_map_.get` -/
  | localGot
  /-- in `freeProxyConn` -/
  | free (pc : FreePc)
deriving DecidableEq, Repr

/-- Where the control thread stands. -/
inductive FreeControl (κ : Type)
  | idle
  /-- `handleShutdownPublicConn`, after `getProxyConn` -/
  | shutGot (p : κ)
  /-- in `freeProxyConn` -/
  | free (p : κ) (pc : FreePc)
deriving DecidableEq, Repr

/-- Where the listener thread stands in `newPublicConnHandler`. -/
inductive FreeListener (κ : Type)
  | idle
  /-- after `popFreeProxyConn` -/
  | popped (p : κ)
  /-- after `reqStartProxy` -/
  | sent (p : κ)
deriving DecidableEq, Repr

/-- The containers of a server tunnel and its threads. -/
structure Freeing (κ : Type) where
  freeProxyConnects : List κ
  waitProxyConnectMap : κ → Bool
  proxyConnectMap : κ → Bool
  half : κ → ProxyConnect
  worker : κ → FreeWorker
  control : FreeControl κ
  listener : FreeListener κ
  /-- requests the server has sent and not received the reply to -/
  requests : κ → ℕ
  /-- public connections that have not seen the end of their stream -/
  publics : κ → ℕ
  /-- history: the connections that were claimed so far -/
  claimed : κ → Bool
  /-- history: `shutdownFromRemote` ran since the last `Run` -/
  remoteDone : κ → Bool

/-- The threads that call `freeProxyConn` for a connection. -/
inductive Freer (κ : Type)
  | worker (p : κ)
  | control
deriving DecidableEq, Repr

/-- The steps of the threads. -/
inductive FreeAct (κ : Type)
  /-- listener: `popFreeProxyConn` -/
  | popFree
  /-- listener: `reqStartProxy` -/
  | sendReq
  /-- listener: `wait_proxy_connect_map_.add` -/
  | addWait
  /-- worker: the reply is received -/
  | recvRsp (p : κ)
  /-- worker: `wait_proxy_connect_map_.isExist` -/
  | isExist (p : κ)
  /-- worker: `Run` in `handleStartProxyConnRsp` -/
  | run (p : κ)
  /-- worker: `Run` in `claimProxyConn` -/
  | claim (p : κ)
  /-- worker: `proxy_connect_map_.add` -/
  | addMap (p : κ)
  /-- worker: `wait_proxy_connect_map_.erase` -/
  | eraseWait (p : κ)
  /-- worker: `proxy_connect_map_.get` in `shutdownFromPublic` -/
  | localGet (p : κ)
  /-- worker: `shutdownFromLocal` -/
  | shutdownFromLocal (p : κ)
  /-- control: `getProxyConn` in `handleShutdownPublicConn` -/
  | remoteGet (p : κ)
  /-- control: the counters differ -/
  | remoteSkip
  /-- `shutdownFromRemote`: the counters are equal -/
  | shutdownFromRemote (t : Freer κ)
  /-- control: `handleFreeProxyConnReq` calls `freeProxyConn` -/
  | freeReq (p : κ)
  /-- `proxy_connect_map_.get` in `freeProxyConn` -/
  | freeGet (t : Freer κ)
  /-- `is_start` in `freeProxyConn` -/
  | freeTest (t : Freer κ)
  /-- `proxy_connect_map_.erase` in `freeProxyConn` -/
  | freeErase (t : Freer κ)
  /-- `free_proxy_connects_.emplace_back` in `freeProxyConn` -/
  | freePush (t : Freer κ)
deriving DecidableEq, Repr

variable {κ : Type} [DecidableEq κ]

namespace Freeing

/-- The connection a thread frees, and where it stands. -/
def freePc (s : Freeing κ) : Freer κ → Option (κ × FreePc)
  | .worker p =>
      match s.worker p with
      | .free pc => some (p, pc)
      | _ => none
  | .control =>
      match s.control with
      | .free p pc => some (p, pc)
      | _ => none

/-- The thread goes on in `freeProxyConn`, or leaves it. -/
def setFreePc (s : Freeing κ) (p : κ) (pc : Option FreePc) : Freer κ → Freeing κ
  | .worker _ => { s with worker := update s.worker p (pc.elim .idle .free) }
  | .control => { s with control := pc.elim .idle (.free p) }

/-- `shutdownFromRemote` on the half of `p`, and the call of `freeProxyConn` after a reset. -/
def closeRemote (s : Freeing κ) (p : κ) (t : Freer κ) : Freeing κ :=
  let r := (s.half p).shutdownFromRemote
  { s with
    half := update s.half p r.1
    remoteDone := update s.remoteDone p true }.setFreePc p (if r.2 then some .enter else none) t

/-- `Run` for a public connection on the half of `p`. -/
def startPublic (s : Freeing κ) (p : κ) (pc : FreeWorker) : Freeing κ :=
  { s with
    half := update s.half p ((s.half p).run { fd := 0 })
    publics := update s.publics p (s.publics p + 1)
    remoteDone := update s.remoteDone p false
    worker := update s.worker p pc }

/-- One step of one of the threads. -/
def step (s : Freeing κ) : FreeAct κ → Option (Freeing κ)
  | .popFree =>
      match s.listener, s.freeProxyConnects.getLast? with
      | .idle, some p =>
          some { s with
            freeProxyConnects := s.freeProxyConnects.dropLast
            listener := .popped p }
      | _, _ => none
  | .sendReq =>
      match s.listener with
      | .popped p =>
          some { s with requests := update s.requests p (s.requests p + 1), listener := .sent p }
      | _ => none
  | .addWait =>
      match s.listener with
      | .sent p =>
          some { s with
            waitProxyConnectMap := update s.waitProxyConnectMap p true
            listener := .idle }
      | _ => none
  | .recvRsp p =>
      if s.worker p = .idle ∧ (s.half p).start = false ∧ 0 < s.requests p then
        some { s with
          requests := update s.requests p (s.requests p - 1)
          worker := update s.worker p .received }
      else none
  | .isExist p =>
      if s.worker p = .received then
        some { s with
          worker := update s.worker p (if s.waitProxyConnectMap p then .found else .idle) }
      else none
  | .run p => if s.worker p = .found then some (s.startPublic p .ran) else none
  | .claim p =>
      if s.worker p = .idle ∧ s.claimed p = false then
        some { s.startPublic p .claimed with claimed := update s.claimed p true }
      else none
  | .addMap p =>
      match s.worker p with
      | .ran =>
          some { s with
            proxyConnectMap := update s.proxyConnectMap p true
            worker := update s.worker p .mapped }
      | .claimed =>
          some { s with
            proxyConnectMap := update s.proxyConnectMap p true
            worker := update s.worker p .idle }
      | _ => none
  | .eraseWait p =>
      if s.worker p = .mapped then
        some { s with
          waitProxyConnectMap := update s.waitProxyConnectMap p false
          worker := update s.worker p .idle }
      else none
  | .localGet p =>
      if s.worker p = .idle ∧ 0 < s.publics p then
        some { s with
          publics := update s.publics p (s.publics p - 1)
          worker := update s.worker p (if s.proxyConnectMap p then .localGot else .idle) }
      else none
  | .shutdownFromLocal p =>
      if s.worker p = .localGot then
        some { s with
          half := update s.half p (s.half p).shutdownFromLocal.1
          worker := update s.worker p .idle }
      else none
  | .remoteGet p =>
      match s.control with
      | .idle => some { s with control := if s.proxyConnectMap p then .shutGot p else .idle }
      | _ => none
  | .remoteSkip =>
      match s.control with
      | .shutGot _ => some { s with control := .idle }
      | _ => none
  | .shutdownFromRemote (.worker p) =>
      if s.worker p = .idle ∧ (s.half p).start = true then some (s.closeRemote p (.worker p))
      else none
  | .shutdownFromRemote .control =>
      match s.control with
      | .shutGot p => some (s.closeRemote p .control)
      | _ => none
  | .freeReq p =>
      match s.control with
      | .idle => some { s with control := .free p .enter }
      | _ => none
  | .freeGet t =>
      match s.freePc t with
      | some (p, .enter) =>
          some (s.setFreePc p (if s.proxyConnectMap p then some .got else none) t)
      | _ => none
  | .freeTest t =>
      match s.freePc t with
      | some (p, .got) => some (s.setFreePc p (if (s.half p).start then none else some .tested) t)
      | _ => none
  | .freeErase t =>
      match s.freePc t with
      | some (p, .tested) =>
          some ({ s with proxyConnectMap := update s.proxyConnectMap p false }.setFreePc p
            (some .erased) t)
      | _ => none
  | .freePush t =>
      match s.freePc t with
      | some (p, .erased) =>
          some ({ s with freeProxyConnects := s.freeProxyConnects ++ [p] }.setFreePc p none t)
      | _ => none

/-- A tunnel without connections. -/
def init : Freeing κ where
  freeProxyConnects := []
  waitProxyConnectMap _ := false
  proxyConnectMap _ := false
  half _ := { fd := 1 }
  worker _ := .idle
  control := .idle
  listener := .idle
  requests _ := 0
  publics _ := 0
  claimed _ := false
  remoteDone _ := false

omit [DecidableEq κ] in
/-- No connection is twice in the free list or in it and in use, and the connection that the listener
has just taken is in use nowhere. -/
structure Safe (s : Freeing κ) : Prop where
  nodup : s.freeProxyConnects.Nodup
  unused : ∀ p ∈ s.freeProxyConnects, s.proxyConnectMap p = false ∧ s.waitProxyConnectMap p = false
  handed : ∀ p, s.listener = .popped p →
    p ∉ s.freeProxyConnects ∧ s.proxyConnectMap p = false ∧ s.waitProxyConnectMap p = false

end Freeing

/-- A server tunnel around the freeing of connections. -/
def freeLts (κ : Type) [DecidableEq κ] : Lts (Freeing κ) (FreeAct κ) where
  init := Freeing.init
  step := Freeing.step

/-- The thread that is not at work for `p`. -/
def Freer.other (p : κ) : Freer κ → Freer κ
  | .worker _ => .control
  | .control => .worker p

/-- `freeProxyConn` does not look a connection up while the other thread stands between its own
lookup of that connection and its erasure. -/
def FreeOnce (s : Freeing κ) : FreeAct κ → Prop
  | .freeGet t => ∀ p, s.freePc t = some (p, .enter) →
      s.freePc (t.other p) ≠ some (p, .got) ∧ s.freePc (t.other p) ≠ some (p, .tested)
  | _ => True

/-- `shutdownFromRemote` does not run a second time in a session. -/
def RemoteOnce (s : Freeing κ) : FreeAct κ → Prop
  | .shutdownFromRemote (.worker p) => s.remoteDone p = false
  | .shutdownFromRemote .control => ∀ p, s.control = .shutGot p → s.remoteDone p = false
  | _ => True

instance (s : Freeing κ) : (a : FreeAct κ) → Decidable (FreeOnce s a)
  | .freeGet t =>
      match ht : s.freePc t with
      | some (p, .enter) =>
          decidable_of_iff (s.freePc (t.other p) ≠ some (p, .got) ∧
            s.freePc (t.other p) ≠ some (p, .tested)) (by simp [FreeOnce, ht])
      | none | some (_, .got) | some (_, .tested) | some (_, .erased) =>
          .isTrue (by simp [FreeOnce, ht])
  | .popFree | .sendReq | .addWait | .recvRsp _ | .isExist _ | .run _ | .claim _ | .addMap _
  | .eraseWait _ | .localGet _ | .shutdownFromLocal _ | .remoteGet _ | .remoteSkip
  | .shutdownFromRemote _ | .freeReq _ | .freeTest _ | .freeErase _ | .freePush _ => .isTrue trivial

instance (s : Freeing κ) : (a : FreeAct κ) → Decidable (RemoteOnce s a)
  | .shutdownFromRemote (.worker _) => inferInstanceAs (Decidable (_ = _))
  | .shutdownFromRemote .control =>
      match hc : s.control with
      | .shutGot p => decidable_of_iff (s.remoteDone p = false) (by simp [RemoteOnce, hc])
      | .idle | .free _ _ => .isTrue (by simp [RemoteOnce, hc])
  | .popFree | .sendReq | .addWait | .recvRsp _ | .isExist _ | .run _ | .claim _ | .addMap _
  | .eraseWait _ | .localGet _ | .shutdownFromLocal _ | .remoteGet _ | .remoteSkip
  | .freeReq _ | .freeGet _ | .freeTest _ | .freeErase _ | .freePush _ => .isTrue trivial

/-! ### What one connection sees -/

/-- The control thread as the connection `p` sees it. -/
def FreeControl.seen (p : κ) : FreeControl κ → FreeControl Unit
  | .idle => .idle
  | .shutGot q => if q = p then .shutGot () else .idle
  | .free q pc => if q = p then .free () pc else .idle

theorem FreeControl.seen_eq_free {p : κ} {pc : FreePc} : ∀ {c : FreeControl κ},
    c.seen p = .free () pc ↔ c = .free p pc
  | .idle => by simp [seen]
  | .shutGot q => by simp only [seen]; split <;> simp
  | .free q pc' => by simp only [seen]; split <;> simp_all

/-- The listener thread as the connection `p` sees it. -/
def FreeListener.seen (p : κ) : FreeListener κ → FreeListener Unit
  | .idle => .idle
  | .popped q => if q = p then .popped () else .idle
  | .sent q => if q = p then .sent () else .idle

/-- The part of the state that concerns one connection. -/
structure ConnView where
  inFree : Prop
  waiting : Bool
  mapped : Bool
  start : Bool
  halfClose : Bool
  worker : FreeWorker
  control : FreeControl Unit
  listener : FreeListener Unit
  requests : ℕ
  publics : ℕ
  claimed : Bool
  remoteDone : Bool

/-- What the connection `p` sees. -/
def Freeing.view (s : Freeing κ) (p : κ) : ConnView where
  inFree := p ∈ s.freeProxyConnects
  waiting := s.waitProxyConnectMap p
  mapped := s.proxyConnectMap p
  start := (s.half p).start
  halfClose := (s.half p).halfClose
  worker := s.worker p
  control := s.control.seen p
  listener := s.listener.seen p
  requests := s.requests p
  publics := s.publics p
  claimed := s.claimed p
  remoteDone := s.remoteDone p

/-! ### The invariant -/

/-- What a connection is going through. -/
inductive FreePhase
  | unborn
  | free
  | popped
  | requested
  | received
  /-- its reply was discarded -/
  | lost
  | found
  | ran
  | mapped
  | claiming
  | serving
  /-- its session is over and it is still in `proxy_connect_map_` -/
  | ended
  /-- a thread has erased it and not put it into the free list yet -/
  | erased
deriving DecidableEq, Repr

namespace FreePhase

/-- It is in `wait_proxy_connect_map_`, or about to be entered. -/
def waiting : FreePhase → Bool
  | .requested | .received | .lost | .found | .ran | .mapped => true
  | _ => false

/-- It is in `proxy_connect_map_`. -/
def inMap : FreePhase → Bool
  | .mapped | .serving | .ended => true
  | _ => false

/-- It serves a session. -/
def started : FreePhase → Bool
  | .ran | .mapped | .claiming | .serving => true
  | _ => false

/-- The replies on their way. -/
def requests : FreePhase → ℕ
  | .requested => 1
  | _ => 0

/-- A connection in the map that serves no session has ended its session. -/
theorem eq_ended {ph : FreePhase} (hm : ph.inMap = true) (hs : ph.started = false) :
    ph = .ended := by
  cases ph with
  | ended => rfl
  | mapped | serving => exact nomatch hs
  | _ => exact nomatch hm

end FreePhase

attribute [local grind =] FreePhase.waiting FreePhase.inMap FreePhase.started FreePhase.requests

/-- What a connection sees in the phase `ph`.  One thread at a time is inside `freeProxyConn` with a
connection it has found. -/
@[grind cases]
structure ConnInv (v : ConnView) (ph : FreePhase) : Prop where
  inFree : v.inFree ↔ ph = .free
  waiting : v.waiting = true ↔ ph.waiting = true ∧ v.listener ≠ .sent ()
  mapped : v.mapped = ph.inMap
  start : v.start = ph.started
  requests : v.requests = ph.requests
  claimed : v.claimed = false ↔ ph = .unborn
  popped : v.listener = .popped () ↔ ph = .popped
  sent : v.listener = .sent () → ph = .requested ∨ ph = .received ∨ ph = .lost
  received : v.worker = .received ↔ ph = .received
  found : v.worker = .found ↔ ph = .found
  ran : v.worker = .ran ↔ ph = .ran
  entered : v.worker = .mapped ↔ ph = .mapped
  claiming : v.worker = .claimed ↔ ph = .claiming
  localGot : v.worker = .localGot → ph = .serving ∧ v.publics = 0
  workerFree : ∀ pc, v.worker = .free pc → ph.started = false
  publics : v.publics ≤ 1
  connected : ph = .ran ∨ ph = .mapped ∨ ph = .claiming → v.publics = 1
  half_iff : ph.started = true → (v.halfClose = true ↔
    v.remoteDone = true ∨ (v.publics = 0 ∧ v.worker ≠ .localGot))
  notBoth : ph.started = true → v.remoteDone = true → v.publics = 1 ∨ v.worker = .localGot
  quiet : ph.started = false → v.publics = 0 ∧ v.halfClose = false
  remote : ph.started = false → ph ≠ .unborn → v.remoteDone = true
  shutGot : v.control = .shutGot () → ph ≠ .unborn
  workerGot : v.worker = .free .got → ph = .ended
  workerTested : v.worker = .free .tested → ph = .ended
  workerErased : v.worker = .free .erased → ph = .erased
  controlGot : v.control = .free () .got → ph.inMap = true
  controlTested : v.control = .free () .tested → ph = .ended
  controlErased : v.control = .free () .erased → ph = .erased
  once : ∀ a b, v.worker = .free a → v.control = .free () b → a = .enter ∨ b = .enter

/-- **The invariant.** -/
structure FreeInv (s : Freeing κ) : Prop where
  nodup : s.freeProxyConnects.Nodup
  conn : ∀ p, ∃ ph, ConnInv (s.view p) ph

/-- A step that only the connection `p` sees. -/
theorem FreeInv.set {s s' : Freeing κ} (h : FreeInv s) (p : κ) (hn : s'.freeProxyConnects.Nodup)
    (hother : ∀ q, q ≠ p → s'.view q = s.view q) {v : ConnView} (hv : s'.view p = v)
    {ph : FreePhase} (hp : ConnInv v ph) : FreeInv s' := by
  refine ⟨hn, fun q => ?_⟩
  by_cases hq : q = p
  · rw [hq, hv]
    exact ⟨ph, hp⟩
  · rw [hother q hq]
    exact h.conn q

theorem freeInv_init : FreeInv (κ := κ) Freeing.init := by
  refine ⟨List.nodup_nil, fun p => ⟨.unborn, ?_⟩⟩
  constructor <;> simp [Freeing.view, Freeing.init, FreePhase.waiting, FreePhase.inMap,
    FreePhase.started, FreePhase.requests, FreeControl.seen, FreeListener.seen]

theorem FreeInv.safe {s : Freeing κ} (h : FreeInv s) : s.Safe := by
  refine ⟨h.nodup, fun p hp => ?_, fun p hp => ?_⟩
  · obtain ⟨ph, hc⟩ := h.conn p
    have hin : (s.view p).inFree := hp
    have hph := hc.inFree.1 hin
    have hm := hc.mapped
    have hw : s.waitProxyConnectMap p = true ↔ _ := hc.waiting
    subst hph
    exact ⟨hm, by simpa [FreePhase.waiting] using hw⟩
  · obtain ⟨ph, hc⟩ := h.conn p
    have hl : (s.view p).listener = .popped () := by simp [Freeing.view, hp, FreeListener.seen]
    have hph := hc.popped.1 hl
    have hf := hc.inFree
    have hm := hc.mapped
    have hw : s.waitProxyConnectMap p = true ↔ _ := hc.waiting
    subst hph
    exact ⟨by simpa [Freeing.view] using hf, hm, by simpa [FreePhase.waiting] using hw⟩

/-! ### One step, as the connection sees it -/

section Views

variable {v : ConnView} {ph : FreePhase}

theorem ConnInv.popFree (h : ConnInv v ph) (hf : v.inFree) :
    ConnInv { v with inFree := False, listener := .popped () } .popped := by
  have hph := h.inFree.1 hf
  subst hph
  constructor <;> grind -ring -linarith

theorem ConnInv.sendReq (h : ConnInv v ph) (hl : v.listener = .popped ()) :
    ConnInv { v with requests := v.requests + 1, listener := .sent () } .requested := by
  have hph := h.popped.1 hl
  subst hph
  constructor <;> grind -ring -linarith

theorem ConnInv.addWait (h : ConnInv v ph) (hl : v.listener = .sent ()) :
    ConnInv { v with waiting := true, listener := .idle } ph := by
  refine { h with waiting := ?_, popped := ?_, sent := ?_ } <;> grind -ring -linarith

theorem ConnInv.recvRsp (h : ConnInv v ph) (hr : 0 < v.requests) (hw : v.worker = .idle) :
    ConnInv { v with requests := v.requests - 1, worker := .received } .received := by
  have hph : ph = .requested := by cases ph <;> grind -ring -linarith
  subst hph
  constructor <;> grind -ring -linarith

theorem ConnInv.isExist (h : ConnInv v ph) (hw : v.worker = .received) :
    ∃ ph, ConnInv { v with worker := if v.waiting then .found else .idle } ph := by
  have hph := h.received.1 hw
  subst hph
  cases hx : v.waiting with
  | true => exact ⟨.found, by constructor <;> grind -ring -linarith⟩
  | false => exact ⟨.lost, by constructor <;> grind -ring -linarith⟩

theorem ConnInv.run (h : ConnInv v ph) (hw : v.worker = .found) :
    ConnInv { v with
      start := true, publics := v.publics + 1, remoteDone := false, worker := .ran } .ran := by
  have hph := h.found.1 hw
  subst hph
  constructor <;> grind -ring -linarith

theorem ConnInv.claim (h : ConnInv v ph) (hc : v.claimed = false) :
    ConnInv { v with
      start := true, publics := v.publics + 1, remoteDone := false, worker := .claimed,
      claimed := true } .claiming := by
  have hph := h.claimed.1 hc
  subst hph
  constructor <;> grind -ring -linarith

theorem ConnInv.addMap_ran (h : ConnInv v ph) (hw : v.worker = .ran) :
    ConnInv { v with mapped := true, worker := .mapped } .mapped := by
  have hph := h.ran.1 hw
  subst hph
  constructor <;> grind -ring -linarith

theorem ConnInv.addMap_claimed (h : ConnInv v ph) (hw : v.worker = .claimed) :
    ConnInv { v with mapped := true, worker := .idle } .serving := by
  have hph := h.claiming.1 hw
  subst hph
  constructor <;> grind -ring -linarith

theorem ConnInv.eraseWait (h : ConnInv v ph) (hw : v.worker = .mapped) :
    ConnInv { v with waiting := false, worker := .idle } .serving := by
  have hph := h.entered.1 hw
  subst hph
  constructor <;> grind -ring -linarith

/-- A public connection that is still open belongs to a session that is served. -/
theorem ConnInv.localGet (h : ConnInv v ph) (hw : v.worker = .idle) (hp : 0 < v.publics) :
    ConnInv { v with
      publics := v.publics - 1, worker := if v.mapped then .localGot else .idle } .serving := by
  have hph : ph = .serving := by cases ph <;> grind -ring -linarith
  subst hph
  have hm : v.mapped = true := h.mapped
  rw [hm, if_pos rfl]
  constructor <;> grind -ring -linarith

theorem ConnInv.shutdownFromLocal (h : ConnInv v ph) (hw : v.worker = .localGot) :
    ∃ ph, ConnInv (if v.halfClose then { v with start := false, halfClose := false, worker := .idle }
      else { v with halfClose := true, worker := .idle }) ph := by
  obtain ⟨rfl, h0⟩ := h.localGot hw
  cases hh : v.halfClose with
  | true => exact ⟨.ended, by constructor <;> grind -ring -linarith⟩
  | false => exact ⟨.serving, by constructor <;> grind -ring -linarith⟩

/-- The control thread moves on, and the phase stays. -/
theorem ConnInv.setControl (h : ConnInv v ph) (c : FreeControl Unit)
    (hshut : c = .shutGot () → ph ≠ .unborn) (hgot : c = .free () .got → ph.inMap = true)
    (htested : c = .free () .tested → ph = .ended) (herased : c = .free () .erased → ph = .erased)
    (honce : ∀ a b, v.worker = .free a → c = .free () b → a = .enter ∨ b = .enter) :
    ConnInv { v with control := c } ph :=
  { h with
    shutGot := hshut
    controlGot := hgot
    controlTested := htested
    controlErased := herased
    once := honce }

theorem ConnInv.remoteSkip (h : ConnInv v ph) : ConnInv { v with control := .idle } ph :=
  h.setControl .idle nofun nofun nofun nofun nofun

theorem ConnInv.remoteGet (h : ConnInv v ph) :
    ConnInv { v with control := if v.mapped then .shutGot () else .idle } ph := by
  split
  · rename_i hm
    refine h.setControl (.shutGot ()) (fun _ hu => ?_) nofun nofun nofun nofun
    rw [h.mapped, hu] at hm
    exact nomatch hm
  · exact h.remoteSkip

/-- The first `shutdownFromRemote` of a session, on the worker thread. -/
theorem ConnInv.remote_worker (h : ConnInv v ph) (hw : v.worker = .idle) (hs : v.start = true)
    (hr : v.remoteDone = false) :
    ∃ ph, ConnInv (if v.halfClose then
        { v with start := false, halfClose := false, remoteDone := true, worker := .free .enter }
      else { v with halfClose := true, remoteDone := true, worker := .idle }) ph := by
  have hph : ph = .serving := by cases ph <;> grind -ring -linarith
  subst hph
  cases hh : v.halfClose with
  | true => exact ⟨.ended, by constructor <;> grind -ring -linarith⟩
  | false => exact ⟨.serving, by constructor <;> grind -ring -linarith⟩

/-- The first `shutdownFromRemote` of a session, on the control thread. -/
theorem ConnInv.remote_control (h : ConnInv v ph) (hc : v.control = .shutGot ())
    (hr : v.remoteDone = false) :
    ∃ ph, ConnInv (if v.halfClose then
        { v with
          start := false, halfClose := false, remoteDone := true, control := .free () .enter }
      else { v with halfClose := true, remoteDone := true, control := .idle }) ph := by
  have hs : ph.started = true := by cases ph <;> grind -ring -linarith
  cases hh : v.halfClose with
  | true =>
      have hph : ph = .serving := by cases ph <;> grind -ring -linarith
      exact ⟨.ended, by constructor <;> grind -ring -linarith⟩
  | false => exact ⟨ph, by constructor <;> grind -ring -linarith⟩

theorem ConnInv.freeReq (h : ConnInv v ph) :
    ConnInv { v with control := .free () .enter } ph := by
  refine h.setControl (.free () .enter) nofun nofun nofun nofun fun a b _ hb => .inr ?_
  cases hb
  rfl

/-- The worker thread moves on inside `freeProxyConn`, or leaves it, and the phase stays. -/
theorem ConnInv.setWorker (h : ConnInv v ph) {pc : FreePc} (hw : v.worker = .free pc)
    (w : FreeWorker) (hfree : w = .idle ∨ ∃ pc', w = .free pc')
    (hgot : w = .free .got → ph = .ended) (htested : w = .free .tested → ph = .ended)
    (herased : w = .free .erased → ph = .erased)
    (honce : ∀ a b, w = .free a → v.control = .free () b → a = .enter ∨ b = .enter) :
    ConnInv { v with worker := w } ph := by
  have hs := h.workerFree _ hw
  refine { h with
    workerGot := hgot
    workerTested := htested
    workerErased := herased
    once := honce
    received := ?_, found := ?_, ran := ?_, entered := ?_, claiming := ?_, localGot := ?_,
    workerFree := ?_, half_iff := ?_, notBoth := ?_ } <;> grind -ring -linarith

theorem ConnInv.freeGet_worker (h : ConnInv v ph) (hw : v.worker = .free .enter)
    (hc : v.control ≠ .free () .got ∧ v.control ≠ .free () .tested) :
    ConnInv { v with worker := if v.mapped then .free .got else .idle } ph := by
  split
  · rename_i hm
    rw [h.mapped] at hm
    refine h.setWorker hw (.free .got) (.inr ⟨_, rfl⟩)
      (fun _ => FreePhase.eq_ended hm (h.workerFree _ hw)) nofun nofun fun a b _ hb => .inr ?_
    cases b with
    | enter => rfl
    | got => exact absurd hb hc.1
    | tested => exact absurd hb hc.2
    | erased =>
        rw [h.controlErased hb] at hm
        exact nomatch hm
  · exact h.setWorker hw .idle (.inl rfl) nofun nofun nofun nofun

theorem ConnInv.freeGet_control (h : ConnInv v ph)
    (hw : v.worker ≠ .free .got ∧ v.worker ≠ .free .tested) :
    ConnInv { v with control := if v.mapped then .free () .got else .idle } ph := by
  split
  · rename_i hm
    rw [h.mapped] at hm
    refine h.setControl (.free () .got) nofun (fun _ => hm) nofun nofun fun a b ha _ => .inl ?_
    cases a with
    | enter => rfl
    | got => exact absurd ha hw.1
    | tested => exact absurd ha hw.2
    | erased =>
        rw [h.workerErased ha] at hm
        exact nomatch hm
  · exact h.remoteSkip

theorem ConnInv.freeTest_worker (h : ConnInv v ph) (hw : v.worker = .free .got) :
    ConnInv { v with worker := if v.start then .idle else .free .tested } ph := by
  split
  · exact h.setWorker hw .idle (.inl rfl) nofun nofun nofun nofun
  · refine h.setWorker hw (.free .tested) (.inr ⟨_, rfl⟩) nofun (fun _ => h.workerGot hw) nofun
      fun a b _ hb => .inr ?_
    exact (h.once .got b hw hb).resolve_left nofun

theorem ConnInv.freeTest_control (h : ConnInv v ph) (hc : v.control = .free () .got) :
    ConnInv { v with control := if v.start then .idle else .free () .tested } ph := by
  split
  · exact h.remoteSkip
  · rename_i hs
    have hm := h.controlGot hc
    rw [h.start] at hs
    refine h.setControl (.free () .tested) nofun nofun
      (fun _ => FreePhase.eq_ended hm (eq_false_of_ne_true hs)) nofun
      fun a b ha _ => .inl ?_
    exact (h.once a .got ha hc).resolve_right nofun

theorem ConnInv.freeErase_worker (h : ConnInv v ph) (hw : v.worker = .free .tested) :
    ConnInv { v with mapped := false, worker := .free .erased } .erased := by
  have hph := h.workerTested hw
  subst hph
  constructor <;> grind -ring -linarith

theorem ConnInv.freeErase_control (h : ConnInv v ph) (hc : v.control = .free () .tested) :
    ConnInv { v with mapped := false, control := .free () .erased } .erased := by
  have hph := h.controlTested hc
  subst hph
  constructor <;> grind -ring -linarith

theorem ConnInv.freePush_worker (h : ConnInv v ph) (hw : v.worker = .free .erased) :
    ConnInv { v with inFree := True, worker := .idle } .free := by
  have hph := h.workerErased hw
  subst hph
  constructor <;> grind -ring -linarith

theorem ConnInv.freePush_control (h : ConnInv v ph) (hc : v.control = .free () .erased) :
    ConnInv { v with inFree := True, control := .idle } .free := by
  have hph := h.controlErased hc
  subst hph
  constructor <;> grind -ring -linarith

end Views

/-! ### One step -/

section Steps

variable {s s' : Freeing κ}

attribute [local simp] Freeing.view FreeControl.seen FreeListener.seen

theorem FreeInv.popFree (h : FreeInv s) {p : κ} {rest : List κ} (hl : s.listener = .idle)
    (hf : s.freeProxyConnects = rest ++ [p]) :
    FreeInv { s with freeProxyConnects := rest, listener := .popped p } := by
  have hn := h.nodup
  rw [hf, List.nodup_append] at hn
  have hnp : p ∉ rest := fun hp => hn.2.2 p hp p (by simp) rfl
  obtain ⟨ph, hc⟩ := h.conn p
  exact h.set p hn.1 (fun q hq => by simp [hf, hl, hq, Ne.symm hq]) (by simp [hnp])
    (hc.popFree (by simp [hf]))

theorem FreeInv.sendReq (h : FreeInv s) {p : κ} (hl : s.listener = .popped p) :
    FreeInv { s with
      requests := update s.requests p (s.requests p + 1), listener := .sent p } := by
  obtain ⟨ph, hc⟩ := h.conn p
  exact h.set p h.nodup (fun q hq => by simp [hl, hq, Ne.symm hq]) (by simp)
    (hc.sendReq (by simp [hl]))

theorem FreeInv.addWait (h : FreeInv s) {p : κ} (hl : s.listener = .sent p) :
    FreeInv { s with
      waitProxyConnectMap := update s.waitProxyConnectMap p true, listener := .idle } := by
  obtain ⟨ph, hc⟩ := h.conn p
  exact h.set p h.nodup (fun q hq => by simp [hl, hq, Ne.symm hq]) (by simp)
    (hc.addWait (by simp [hl]))

theorem FreeInv.recvRsp (h : FreeInv s) {p : κ} (hw : s.worker p = .idle)
    (hr : 0 < s.requests p) :
    FreeInv { s with
      requests := update s.requests p (s.requests p - 1)
      worker := update s.worker p .received } := by
  obtain ⟨ph, hc⟩ := h.conn p
  exact h.set p h.nodup (fun q hq => by simp [hq]) (by simp) (hc.recvRsp hr hw)

theorem FreeInv.isExist (h : FreeInv s) {p : κ} (hw : s.worker p = .received) :
    FreeInv { s with
      worker := update s.worker p (if s.waitProxyConnectMap p then .found else .idle) } := by
  obtain ⟨ph, hc⟩ := h.conn p
  obtain ⟨ph', hc'⟩ := hc.isExist hw
  refine h.set p h.nodup (fun q hq => by simp [hq]) ?_ hc'
  cases hx : s.waitProxyConnectMap p <;> simp [hx]

theorem FreeInv.run (h : FreeInv s) {p : κ} (hw : s.worker p = .found) :
    FreeInv (s.startPublic p .ran) := by
  obtain ⟨ph, hc⟩ := h.conn p
  exact h.set p h.nodup (fun q hq => by simp [Freeing.startPublic, hq])
    (by simp [Freeing.startPublic]) (hc.run hw)

theorem FreeInv.claim (h : FreeInv s) {p : κ} (hc : s.claimed p = false) :
    FreeInv { s.startPublic p .claimed with claimed := update s.claimed p true } := by
  obtain ⟨ph, hv⟩ := h.conn p
  exact h.set p h.nodup (fun q hq => by simp [Freeing.startPublic, hq])
    (by simp [Freeing.startPublic]) (hv.claim hc)

theorem FreeInv.addMap_ran (h : FreeInv s) {p : κ} (hw : s.worker p = .ran) :
    FreeInv { s with
      proxyConnectMap := update s.proxyConnectMap p true
      worker := update s.worker p .mapped } := by
  obtain ⟨ph, hc⟩ := h.conn p
  exact h.set p h.nodup (fun q hq => by simp [hq]) (by simp) (hc.addMap_ran hw)

theorem FreeInv.addMap_claimed (h : FreeInv s) {p : κ} (hw : s.worker p = .claimed) :
    FreeInv { s with
      proxyConnectMap := update s.proxyConnectMap p true
      worker := update s.worker p .idle } := by
  obtain ⟨ph, hc⟩ := h.conn p
  exact h.set p h.nodup (fun q hq => by simp [hq]) (by simp) (hc.addMap_claimed hw)

theorem FreeInv.eraseWait (h : FreeInv s) {p : κ} (hw : s.worker p = .mapped) :
    FreeInv { s with
      waitProxyConnectMap := update s.waitProxyConnectMap p false
      worker := update s.worker p .idle } := by
  obtain ⟨ph, hc⟩ := h.conn p
  exact h.set p h.nodup (fun q hq => by simp [hq]) (by simp) (hc.eraseWait hw)

theorem FreeInv.localGet (h : FreeInv s) {p : κ} (hw : s.worker p = .idle)
    (hp : 0 < s.publics p) :
    FreeInv { s with
      publics := update s.publics p (s.publics p - 1)
      worker := update s.worker p (if s.proxyConnectMap p then .localGot else .idle) } := by
  obtain ⟨ph, hc⟩ := h.conn p
  refine h.set p h.nodup (fun q hq => by simp [hq]) ?_ (hc.localGet hw hp)
  cases hx : s.proxyConnectMap p <;> simp [hx]

theorem FreeInv.shutdownFromLocal (h : FreeInv s) {p : κ} (hw : s.worker p = .localGot) :
    FreeInv { s with
      half := update s.half p (s.half p).shutdownFromLocal.1
      worker := update s.worker p .idle } := by
  obtain ⟨ph, hc⟩ := h.conn p
  obtain ⟨ph', hc'⟩ := hc.shutdownFromLocal hw
  refine h.set p h.nodup (fun q hq => by simp [hq]) ?_ hc'
  by_cases hh : (s.half p).halfClose = true
  · simp [ProxyConnect.shutdownFromLocal_of_halfClose hh, hh]
  · simp [ProxyConnect.shutdownFromLocal_of_open (by simpa using hh), hh]

theorem FreeInv.remoteGet (h : FreeInv s) {p : κ} (hc : s.control = .idle) :
    FreeInv { s with control := if s.proxyConnectMap p then .shutGot p else .idle } := by
  obtain ⟨ph, hv⟩ := h.conn p
  refine h.set p h.nodup (fun q hq => ?_) ?_ hv.remoteGet
  · split <;> simp [hc, Ne.symm hq]
  · split <;> simp_all

theorem FreeInv.remoteSkip (h : FreeInv s) {p : κ} (hc : s.control = .shutGot p) :
    FreeInv { s with control := .idle } := by
  obtain ⟨ph, hv⟩ := h.conn p
  exact h.set p h.nodup (fun q hq => by simp [hc, Ne.symm hq]) (by simp) hv.remoteSkip

theorem FreeInv.remote_worker (h : FreeInv s) {p : κ} (hw : s.worker p = .idle)
    (hs : (s.half p).start = true) (hr : s.remoteDone p = false) :
    FreeInv (s.closeRemote p (.worker p)) := by
  obtain ⟨ph, hc⟩ := h.conn p
  obtain ⟨ph', hc'⟩ := hc.remote_worker hw hs hr
  refine h.set p h.nodup (fun q hq => by simp [Freeing.closeRemote, Freeing.setFreePc, hq]) ?_ hc'
  by_cases hh : (s.half p).halfClose = true
  · simp [Freeing.closeRemote, Freeing.setFreePc, ProxyConnect.shutdownFromRemote_of_halfClose hh,
      hh]
  · simp [Freeing.closeRemote, Freeing.setFreePc,
      ProxyConnect.shutdownFromRemote_of_open (by simpa using hh), hh]

theorem FreeInv.remote_control (h : FreeInv s) {p : κ} (hc : s.control = .shutGot p)
    (hr : s.remoteDone p = false) : FreeInv (s.closeRemote p .control) := by
  obtain ⟨ph, hv⟩ := h.conn p
  obtain ⟨ph', hv'⟩ := hv.remote_control (by simp [hc]) hr
  by_cases hh : (s.half p).halfClose = true
  · refine h.set p h.nodup (fun q hq => ?_) ?_ hv'
    · simp [Freeing.closeRemote, Freeing.setFreePc, ProxyConnect.shutdownFromRemote_of_halfClose hh,
        hc, hq, Ne.symm hq]
    · simp [Freeing.closeRemote, Freeing.setFreePc, ProxyConnect.shutdownFromRemote_of_halfClose hh,
        hh]
  · have ho : (s.half p).halfClose = false := by simpa using hh
    refine h.set p h.nodup (fun q hq => ?_) ?_ hv'
    · simp [Freeing.closeRemote, Freeing.setFreePc, ProxyConnect.shutdownFromRemote_of_open ho,
        hc, hq, Ne.symm hq]
    · simp [Freeing.closeRemote, Freeing.setFreePc, ProxyConnect.shutdownFromRemote_of_open ho, hh]

theorem FreeInv.freeReq (h : FreeInv s) {p : κ} (hc : s.control = .idle) :
    FreeInv { s with control := .free p .enter } := by
  obtain ⟨ph, hv⟩ := h.conn p
  exact h.set p h.nodup (fun q hq => by simp [hc, Ne.symm hq]) (by simp) hv.freeReq

omit [DecidableEq κ] in
theorem Freeing.freePc_worker {p q : κ} {pc : FreePc} :
    s.freePc (.worker q) = some (p, pc) ↔ q = p ∧ s.worker p = .free pc := by
  simp only [freePc]
  constructor
  · intro hs
    split at hs <;> simp_all
  · rintro ⟨rfl, hw⟩
    simp [hw]

omit [DecidableEq κ] in
theorem Freeing.freePc_control {p : κ} {pc : FreePc} :
    s.freePc .control = some (p, pc) ↔ s.control = .free p pc := by
  simp only [freePc]
  constructor
  · intro hs
    split at hs <;> simp_all
  · intro hc
    simp [hc]

/-- The lookup of `freeProxyConn`, while the other thread is not between its own and its erasure. -/
theorem FreeInv.freeGet (h : FreeInv s) {p : κ} {t : Freer κ} (ht : s.freePc t = some (p, .enter))
    (hg : s.freePc (t.other p) ≠ some (p, .got) ∧ s.freePc (t.other p) ≠ some (p, .tested)) :
    FreeInv (s.setFreePc p (if s.proxyConnectMap p then some .got else none) t) := by
  obtain ⟨ph, hv⟩ := h.conn p
  cases t with
  | worker q =>
      obtain ⟨rfl, hw⟩ := Freeing.freePc_worker.1 ht
      simp only [Freer.other, ne_eq, Freeing.freePc_control] at hg
      have hc : (s.view q).control ≠ .free () .got ∧ (s.view q).control ≠ .free () .tested :=
        ⟨fun hx => hg.1 (FreeControl.seen_eq_free.1 hx),
          fun hx => hg.2 (FreeControl.seen_eq_free.1 hx)⟩
      refine h.set q h.nodup (fun q' hq => by simp [Freeing.setFreePc, hq]) ?_
        (hv.freeGet_worker hw hc)
      cases hx : s.proxyConnectMap q <;> simp [Freeing.setFreePc, hx]
  | control =>
      have hc := Freeing.freePc_control.1 ht
      simp only [Freer.other, ne_eq, Freeing.freePc_worker, true_and] at hg
      refine h.set p h.nodup (fun q hq => ?_) ?_ (hv.freeGet_control hg)
      · cases hx : s.proxyConnectMap p <;> simp [Freeing.setFreePc, hc, Ne.symm hq]
      · cases hx : s.proxyConnectMap p <;> simp [Freeing.setFreePc, hx]

theorem FreeInv.freeTest (h : FreeInv s) {p : κ} {t : Freer κ} (ht : s.freePc t = some (p, .got)) :
    FreeInv (s.setFreePc p (if (s.half p).start then none else some .tested) t) := by
  obtain ⟨ph, hv⟩ := h.conn p
  cases t with
  | worker q =>
      obtain ⟨rfl, hw⟩ := Freeing.freePc_worker.1 ht
      refine h.set q h.nodup (fun q' hq => by simp [Freeing.setFreePc, hq]) ?_
        (hv.freeTest_worker hw)
      cases hx : (s.half q).start <;> simp [Freeing.setFreePc, hx]
  | control =>
      have hc := Freeing.freePc_control.1 ht
      refine h.set p h.nodup (fun q hq => ?_) ?_ (hv.freeTest_control (by simp [hc]))
      · cases hx : (s.half p).start <;> simp [Freeing.setFreePc, hc, Ne.symm hq]
      · cases hx : (s.half p).start <;> simp [Freeing.setFreePc, hx]

theorem FreeInv.freeErase (h : FreeInv s) {p : κ} {t : Freer κ}
    (ht : s.freePc t = some (p, .tested)) :
    FreeInv ({ s with proxyConnectMap := update s.proxyConnectMap p false }.setFreePc p
      (some .erased) t) := by
  obtain ⟨ph, hv⟩ := h.conn p
  cases t with
  | worker q =>
      obtain ⟨rfl, hw⟩ := Freeing.freePc_worker.1 ht
      exact h.set q h.nodup (fun q' hq => by simp [Freeing.setFreePc, hq])
        (by simp [Freeing.setFreePc]) (hv.freeErase_worker hw)
  | control =>
      have hc := Freeing.freePc_control.1 ht
      exact h.set p h.nodup (fun q hq => by simp [Freeing.setFreePc, hc, hq, Ne.symm hq])
        (by simp [Freeing.setFreePc]) (hv.freeErase_control (by simp [hc]))

theorem FreeInv.freePush (h : FreeInv s) {p : κ} {t : Freer κ}
    (ht : s.freePc t = some (p, .erased)) :
    FreeInv ({ s with freeProxyConnects := s.freeProxyConnects ++ [p] }.setFreePc p none t) := by
  obtain ⟨ph, hv⟩ := h.conn p
  have hn : p ∉ s.freeProxyConnects → (s.freeProxyConnects ++ [p]).Nodup := fun hp =>
    List.nodup_append.2 ⟨h.nodup, by simp, fun a ha b hb => by
      rintro rfl
      rw [List.mem_singleton] at hb
      exact hp (hb ▸ ha)⟩
  cases t with
  | worker q =>
      obtain ⟨rfl, hw⟩ := Freeing.freePc_worker.1 ht
      have hph := hv.workerErased hw
      have hp : q ∉ s.freeProxyConnects := fun hp => by
        have := hv.inFree.1 hp
        simp [hph] at this
      exact h.set q (hn hp) (fun q' hq => by simp [Freeing.setFreePc, hq])
        (by simp [Freeing.setFreePc]) (hv.freePush_worker hw)
  | control =>
      have hc := Freeing.freePc_control.1 ht
      have hph := hv.controlErased (by simp [hc])
      have hp : p ∉ s.freeProxyConnects := fun hp => by
        have := hv.inFree.1 hp
        simp [hph] at this
      exact h.set p (hn hp) (fun q hq => by simp [Freeing.setFreePc, hc, hq, Ne.symm hq])
        (by simp [Freeing.setFreePc]) (hv.freePush_control (by simp [hc]))

/-- **One step preserves the invariant**, when it satisfies both conditions. -/
theorem FreeInv.step (h : FreeInv s) {a : FreeAct κ} (hf : FreeOnce s a) (hr : RemoteOnce s a)
    (hs : s.step a = some s') : FreeInv s' := by
  cases a with
  | popFree =>
      simp only [Freeing.step] at hs
      split at hs
      · rename_i hl hlast
        obtain rfl := Option.some.inj hs
        exact h.popFree hl (List.dropLast_append_getLast? _ hlast).symm
      · exact absurd hs (by simp)
  | sendReq =>
      simp only [Freeing.step] at hs
      split at hs
      · obtain rfl := Option.some.inj hs
        exact h.sendReq ‹_›
      · exact absurd hs (by simp)
  | addWait =>
      simp only [Freeing.step] at hs
      split at hs
      · obtain rfl := Option.some.inj hs
        exact h.addWait ‹_›
      · exact absurd hs (by simp)
  | recvRsp p =>
      simp only [Freeing.step, Option.ite_none_right_eq_some, Option.some.injEq] at hs
      obtain ⟨⟨hw, -, hreq⟩, rfl⟩ := hs
      exact h.recvRsp hw hreq
  | isExist p =>
      simp only [Freeing.step, Option.ite_none_right_eq_some, Option.some.injEq] at hs
      obtain ⟨hw, rfl⟩ := hs
      exact h.isExist hw
  | run p =>
      simp only [Freeing.step, Option.ite_none_right_eq_some, Option.some.injEq] at hs
      obtain ⟨hw, rfl⟩ := hs
      exact h.run hw
  | claim p =>
      simp only [Freeing.step, Option.ite_none_right_eq_some, Option.some.injEq] at hs
      obtain ⟨⟨-, hc⟩, rfl⟩ := hs
      exact h.claim hc
  | addMap p =>
      simp only [Freeing.step] at hs
      split at hs
      · obtain rfl := Option.some.inj hs
        exact h.addMap_ran ‹_›
      · obtain rfl := Option.some.inj hs
        exact h.addMap_claimed ‹_›
      · exact absurd hs (by simp)
  | eraseWait p =>
      simp only [Freeing.step, Option.ite_none_right_eq_some, Option.some.injEq] at hs
      obtain ⟨hw, rfl⟩ := hs
      exact h.eraseWait hw
  | localGet p =>
      simp only [Freeing.step, Option.ite_none_right_eq_some, Option.some.injEq] at hs
      obtain ⟨⟨hw, hp⟩, rfl⟩ := hs
      exact h.localGet hw hp
  | shutdownFromLocal p =>
      simp only [Freeing.step, Option.ite_none_right_eq_some, Option.some.injEq] at hs
      obtain ⟨hw, rfl⟩ := hs
      exact h.shutdownFromLocal hw
  | remoteGet p =>
      simp only [Freeing.step] at hs
      split at hs
      · obtain rfl := Option.some.inj hs
        exact h.remoteGet ‹_›
      · exact absurd hs (by simp)
  | remoteSkip =>
      simp only [Freeing.step] at hs
      split at hs
      · obtain rfl := Option.some.inj hs
        exact h.remoteSkip ‹_›
      · exact absurd hs (by simp)
  | shutdownFromRemote t =>
      cases t with
      | worker p =>
          simp only [Freeing.step, Option.ite_none_right_eq_some, Option.some.injEq] at hs
          obtain ⟨⟨hw, hstart⟩, rfl⟩ := hs
          exact h.remote_worker hw hstart hr
      | control =>
          simp only [Freeing.step] at hs
          split at hs
          · rename_i p hc
            obtain rfl := Option.some.inj hs
            exact h.remote_control hc (hr p hc)
          · exact absurd hs (by simp)
  | freeReq p =>
      simp only [Freeing.step] at hs
      split at hs
      · obtain rfl := Option.some.inj hs
        exact h.freeReq ‹_›
      · exact absurd hs (by simp)
  | freeGet t =>
      simp only [Freeing.step] at hs
      split at hs
      · rename_i p ht
        obtain rfl := Option.some.inj hs
        exact h.freeGet ht (hf p ht)
      · exact absurd hs (by simp)
  | freeTest t =>
      simp only [Freeing.step] at hs
      split at hs
      · obtain rfl := Option.some.inj hs
        exact h.freeTest ‹_›
      · exact absurd hs (by simp)
  | freeErase t =>
      simp only [Freeing.step] at hs
      split at hs
      · obtain rfl := Option.some.inj hs
        exact h.freeErase ‹_›
      · exact absurd hs (by simp)
  | freePush t =>
      simp only [Freeing.step] at hs
      split at hs
      · obtain rfl := Option.some.inj hs
        exact h.freePush ‹_›
      · exact absurd hs (by simp)

end Steps

/-! ### Runs -/

theorem freeInv_of_reach {s : Freeing κ}
    (hr : (freeLts κ).Reach (fun s a => FreeOnce s a ∧ RemoteOnce s a) s) : FreeInv s :=
  hr.invariant (I := fun s => FreeInv s) freeInv_init fun _ _ _ _ h hg hs => h.step hg.1 hg.2 hs

/-- **The free list is safe.**  In a run in which `freeProxyConn` never looks a connection up while
the other thread is between its lookup of it and its erasure, and no session is shut down twice by
the remote side, no connection is ever twice in `free_proxy_connects_`, or in it and in one of the
maps, and the listener takes no connection that is in use. -/
theorem free_list_safe {as : List (FreeAct κ)} {s : Freeing κ}
    (he : (freeLts κ).exec (freeLts κ).init as = some s)
    (hg : (freeLts κ).AllSteps (fun s a => FreeOnce s a ∧ RemoteOnce s a) (freeLts κ).init as) :
    s.Safe :=
  (freeInv_of_reach (.of_allSteps .init he hg)).safe

/-- Two sessions over one connection; the control thread frees it after the first and the worker
thread after the second. -/
def freeTwoSessions : List (FreeAct ℕ) :=
  [.claim 0, .addMap 0, .remoteGet 0, .shutdownFromRemote .control, .localGet 0,
    .shutdownFromLocal 0, .freeReq 0, .freeGet .control, .freeTest .control, .freeErase .control,
    .freePush .control, .popFree, .sendReq, .addWait, .recvRsp 0, .isExist 0, .run 0, .addMap 0,
    .eraseWait 0, .localGet 0, .shutdownFromLocal 0, .shutdownFromRemote (.worker 0),
    .freeGet (.worker 0), .freeTest (.worker 0), .freeErase (.worker 0), .freePush (.worker 0)]

theorem free_list_safe_two_sessions :
    (((freeLts ℕ).exec (freeLts ℕ).init freeTwoSessions).get (by decide +kernel)).Safe :=
  @free_list_safe ℕ _ freeTwoSessions _ (Option.some_get _).symm (by decide +kernel)

/-- The worker thread has delivered the last byte and frees the connection while the control thread
handles the `FreeConnReq` of the client: both find the connection, and both put it into the
list. -/
theorem freed_twice :
    ¬ ∀ (as : List (FreeAct ℕ)) (s : Freeing ℕ),
      (freeLts ℕ).exec (freeLts ℕ).init as = some s → s.Safe := by
  intro h
  have hs := h [.claim 0, .addMap 0, .localGet 0, .shutdownFromLocal 0,
    .shutdownFromRemote (.worker 0), .freeReq 0, .freeGet .control, .freeGet (.worker 0),
    .freeTest .control, .freeTest (.worker 0), .freeErase .control, .freePush .control,
    .freeErase (.worker 0), .freePush (.worker 0)] _ (Option.some_get (by decide +kernel)).symm
  exact absurd hs.nodup (by decide +kernel)

end ProxySocket
