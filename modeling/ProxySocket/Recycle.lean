/-
**Recycled connections: what the client's half reads, and what a reset leaves behind.**

The server hands a connection to the next public client once both directions of the old session are
over at its own half.  When the public side closed first, the client is told so by a
`ShutdownPeerConn` that may still be on its way: the server does not wait for the `FreeConnReq` of
the client in that order, and the request for the next session can overtake the end of the old one.

Main results:

* `proxyConnectReq_meets_idle_half` — **in runs that never reuse a connection under a running client
  half, every request is read as a frame**;
* `reset_leaves_nothing` — **in such runs a reset half has received all bytes of its session, its
  pipe is empty, and no byte of one session is spliced into another**.
-/

import ProxySocket.PairRefine

set_option relaxedAutoImplicit false
set_option autoImplicit false

namespace ProxySocket

/-- Whole handlers, no early reuse and sessions within the bound follow the protocol. -/
theorem follows_false {bound : ℕ} (hle : bound ≤ byteBound) {s : Pair} {a : Act}
    (h : HandlerAtomic s a ∧ NoEarlyReuse s a ∧ Bounded bound s a) : Follows false s a := by
  obtain ⟨ha, hn, hb⟩ := h
  refine ⟨ha.runsInTime, fun s' hs => ?_, fun _ => ⟨ha, hn⟩⟩
  exact ⟨Nat.lt_of_lt_of_le (hb s' hs).1 hle, Nat.lt_of_lt_of_le (hb s' hs).2 hle⟩

/-- Every event of such a run was permitted by the protocol without early requests. -/
theorem eventOk_of_run {fd bound : ℕ} (hle : bound ≤ byteBound) {as : List Act} {s : Pair}
    (he : (pairLts fd).exec (pairLts fd).init as = some s)
    (hg : (pairLts fd).AllSteps
      (fun s a => HandlerAtomic s a ∧ NoEarlyReuse s a ∧ Bounded bound s a)
      (pairLts fd).init as) {e : Event} (hmem : e ∈ s.log) :
    ∃ t fds, t.Inv ∧ t.Settled ∧ EventOk t fds e := by
  have hreach : (pairLts fd).Reach (Follows false) s :=
    .of_allSteps .init he (hg.mono fun _ _ h => follows_false hle h)
  obtain ⟨-, -, -, -, hlog⟩ := refines hreach
  obtain ⟨t, fds, ht, hok⟩ := hlog e hmem
  exact ⟨t, fds, Session.inv_of_reach ht, Session.settled_of_reach ht, hok⟩

/-! ### Requests -/

/-- **A request meets an idle client half.**  In every run of whole handlers that never reuses a
connection under a running client half, the client half reads each `ProxyConnectReq` with `start_`
false, and no frame is ever spliced to the local server. -/
theorem proxyConnectReq_meets_idle_half {fd : ℕ} {as : List Act} {s : Pair}
    (he : (pairLts fd).exec (pairLts fd).init as = some s)
    (hg : (pairLts fd).AllSteps
      (fun s a => HandlerAtomic s a ∧ NoEarlyReuse s a ∧ Bounded byteBound s a)
      (pairLts fd).init as) :
    (∀ start conn2fd publicFd,
      .cliRead start conn2fd (.frame (.proxyConnectReq publicFd)) ∈ s.log → start = false) ∧
    ∀ sid m, .spliced .client sid (.frame m) ∉ s.log := by
  constructor
  · intro start conn2fd publicFd hmem
    obtain ⟨t, fds, hi, hset, hq, hrun⟩ := eventOk_of_run (Nat.le_refl _) he hg hmem
    rw [← Bool.not_eq_true]
    intro hst
    have := (hset.clean hi).2 (hrun hst)
    rw [hq] at this
    exact absurd this (by decide)
  · intro sid m hmem
    obtain ⟨t, fds, hi, hset, hok⟩ := eventOk_of_run (Nat.le_refl _) he hg hmem
    obtain ⟨b, hb⟩ := hok (hset.clean hi)
    exact absurd hb (by simp)

/-- One session ended from the public side first, on a connection that is then recycled: the client
half is reset before the server takes the connection back. -/
def recycledInOrder : List Act :=
  [.cliCtl 9, .cliRun, .srvRead 1 .fail, .publicRead (.moved []) .fail, .cliCtl 0,
    .localRead (.moved []) .fail, .srvCtl, .newPublicConn 8, .srvWrite, .cliRead 1 .fail 10]

theorem proxyConnectReq_meets_idle_half_recycled :
    ∃ s, (pairLts 7).exec (pairLts 7).init recycledInOrder = some s ∧
      .cliRead false 0 (.frame (.proxyConnectReq 8)) ∈ s.log ∧
      ∀ start conn2fd publicFd,
        .cliRead start conn2fd (.frame (.proxyConnectReq publicFd)) ∈ s.log → start = false := by
  refine ⟨((pairLts 7).exec (pairLts 7).init recycledInOrder).get (by decide +kernel),
    (Option.some_get _).symm, by decide +kernel, ?_⟩
  exact (proxyConnectReq_meets_idle_half (Option.some_get _).symm (by decide +kernel)).1

/-- Both sides close at once: the server recycles the connection on the client's announcement while
its own announcement is still on the way, and the running client half reads the request. -/
def crossingCloses : List Act :=
  [.cliCtl 9, .cliRun, .srvRead 1 .fail, .publicRead (.moved []) .fail,
    .localRead (.moved []) .fail, .srvCtl, .newPublicConn 8, .srvWrite, .cliRead 1 (.moved 1) 10]

/-- Whole handlers alone do not keep a request from a running client half. -/
theorem proxyConnectReq_meets_running_half :
    ¬ ∀ (as : List Act) (s : Pair), (pairLts 7).exec (pairLts 7).init as = some s →
      (pairLts 7).AllSteps HandlerAtomic (pairLts 7).init as →
      ∀ start conn2fd publicFd,
        .cliRead start conn2fd (.frame (.proxyConnectReq publicFd)) ∈ s.log → start = false := by
  intro h
  have := h crossingCloses (((pairLts 7).exec (pairLts 7).init crossingCloses).get (by decide +kernel))
    (Option.some_get _).symm (by decide +kernel) true 9 8 (by decide +kernel)
  exact absurd this (by decide)

/-! ### Resets -/

/-- **A reset leaves nothing behind.**  In every run of whole handlers that never reuses a
connection under a running client half, with fewer than `2^31` bytes for each session and direction,
`resetConn` finds the pipe of its half empty and `recv_count_` equal to the number of bytes the other
half wrote in the session, and every byte a half splices belongs to the session it is in. -/
theorem reset_leaves_nothing {fd : ℕ} {as : List Act} {s : Pair}
    (he : (pairLts fd).exec (pairLts fd).init as = some s)
    (hg : (pairLts fd).AllSteps
      (fun s a => HandlerAtomic s a ∧ NoEarlyReuse s a ∧ Bounded (2 ^ 31) s a)
      (pairLts fd).init as) :
    (∀ side pipe recv wrote, .reset side pipe recv wrote ∈ s.log → pipe = [] ∧ recv.toNat = wrote) ∧
    ∀ side sid c, .spliced side sid c ∈ s.log → ∃ b, c = .raw sid b := by
  have hle : 2 ^ 31 ≤ byteBound := by decide
  constructor
  · intro side pipe recv wrote hmem
    obtain ⟨t, fds, hi, hset, hok⟩ := eventOk_of_run hle he hg hmem
    cases side with
    | server => exact hok
    | client => exact hok (hset.clean hi)
  · intro side sid c hmem
    obtain ⟨t, fds, hi, hset, hok⟩ := eventOk_of_run hle he hg hmem
    cases side with
    | server => exact hok
    | client => exact hok (hset.clean hi)

/-- Two sessions on one connection, both closed by the local side first: the first one carries a byte each
way, and after both halves were reset the second one carries a byte to the local server. -/
def twoSessions : List Act :=
  [.cliCtl 9, .cliRun, .srvRead 1 .fail, .publicRead (.moved [97]) (.moved 1),
    .localRead (.moved [98]) (.moved 1), .cliRead 1 (.moved 1) 0, .srvRead 1 (.moved 1),
    .localRead (.moved []) .fail, .srvCtl, .publicRead (.moved []) .fail, .cliCtl 0, .srvCtl,
    .newPublicConn 8, .srvWrite, .cliRead 1 .fail 10, .cliRun, .srvRead 1 .fail,
    .publicRead (.moved [99]) (.moved 1), .cliRead 1 (.moved 1) 0, .localRead (.moved []) .fail, .srvCtl,
    .publicRead (.moved []) .fail, .cliCtl 0]

theorem reset_leaves_nothing_two :
    ∃ s, (pairLts 7).exec (pairLts 7).init twoSessions = some s ∧
      (.reset .client [] 1 1 ∈ s.log ∧ .cliRead false 0 (.frame (.proxyConnectReq 8)) ∈ s.log) ∧
      (∀ side pipe recv wrote, .reset side pipe recv wrote ∈ s.log → pipe = [] ∧ recv.toNat = wrote) ∧
      ∀ side sid c, .spliced side sid c ∈ s.log → ∃ b, c = .raw sid b := by
  refine ⟨((pairLts 7).exec (pairLts 7).init twoSessions).get (by decide +kernel),
    (Option.some_get _).symm, by decide +kernel, ?_⟩
  exact reset_leaves_nothing (Option.some_get _).symm (by decide +kernel)

/-- Both sides close at once after three bytes: the client half reads the request of the next session
together with the last bytes of the old one, and is reset with the request in its pipe. -/
def crossingClosesWithBytes : List Act :=
  [.cliCtl 9, .cliRun, .srvRead 1 .fail, .publicRead (.moved [97, 98, 99]) (.moved 3),
    .publicRead (.moved []) .fail, .localRead (.moved []) .fail, .srvCtl, .newPublicConn 8, .srvWrite,
    .cliCtl 0, .cliRead 4 (.moved 3) 10]

/-- Whole handlers and short sessions alone do not keep a reset from leaving a frame in the pipe. -/
theorem reset_leaves_request :
    ¬ ∀ (as : List Act) (s : Pair), (pairLts 7).exec (pairLts 7).init as = some s →
      (pairLts 7).AllSteps (fun s a => HandlerAtomic s a ∧ Bounded (2 ^ 31) s a)
        (pairLts 7).init as →
      ∀ side pipe recv wrote, .reset side pipe recv wrote ∈ s.log →
        pipe = [] ∧ recv.toNat = wrote := by
  intro h
  have := h crossingClosesWithBytes
    (((pairLts 7).exec (pairLts 7).init crossingClosesWithBytes).get (by decide +kernel))
    (Option.some_get _).symm (by decide +kernel) .client [.frame (.proxyConnectReq 8)] 3 3
    (by decide +kernel)
  exact absurd this.1 (by decide)

end ProxySocket
