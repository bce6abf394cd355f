/-
**The listener and the workers: who is first, the bookkeeping or the reply.**

`Tunnel::newPublicConnHandler` runs on the listener thread and `Tunnel::handleStartProxyConnRsp` on
the worker thread of the proxy connection.  The listener sends the request for a session before it
puts the connection into `wait_proxy_connect_map_`, and the reply is looked up there.  A step is one
operation on a locked container, or one message sent or received; there are any number of proxy
connections and public clients.

A connection goes back to `free_proxy_connects_` and a new connection claims a descriptor in one step
each, since nothing here depends on how they interleave.

Main definitions:

* `Reuse`, `ReuseAct`, `Reuse.step` — the containers, the threads and the messages in flight;
* `Life`, `Spot`, `ReuseInv` — what a connection and a public descriptor are going through, and **the
  invariant that ties them to the containers**.

Main results:

* `ReuseInv.step` — **one step preserves the invariant**, unless a reply is looked up too early;
* `reply_found_iff` — **a run loses no reply and binds every public descriptor exactly once exactly
  when no reply is looked up between the request and its entry in the map**.
-/

import Mathlib.Data.List.Basic
import Mathlib.Logic.Function.Basic
import ProxySocket.Lts

set_option relaxedAutoImplicit false
set_option autoImplicit false

namespace ProxySocket

open Function (update)

/-! ### Threads, containers and messages -/

/-- Where the listener thread stands in `newPublicConnHandler`. -/
inductive Listener (κ : Type)
  | idle
  /-- after `accept` -/
  | accepted (fd : ℕ)
  /-- after `popFreeProxyConn` -/
  | popped (fd : ℕ) (p : κ)
  /-- after `reqStartProxy` -/
  | sent (fd : ℕ) (p : κ)
deriving DecidableEq, Repr

/-- Where the worker thread stands in `handleStartProxyConnRsp` for a connection. -/
inductive Worker
  | idle
  /-- after the reply was received -/
  | received (fd : ℕ)
  /-- after `wait_proxy_connect_map_.isExist` answered yes -/
  | found (fd : ℕ)
  /-- after `Run` -/
  | ran (fd : ℕ)
  /-- after `proxy_connect_map_.add` -/
  | mapped (fd : ℕ)
deriving DecidableEq, Repr

/-- The state of the server tunnel, of its threads and of the messages in flight. -/
structure Reuse (κ : Type) where
  freeProxyConnects : List κ
  waitProxyConnectMap : κ → Bool
  proxyConnectMap : κ → Bool
  unhandleFds : List ℕ
  listener : Listener κ
  worker : κ → Worker
  /-- the descriptors of the requests on their way to the client -/
  reqs : κ → List ℕ
  /-- the descriptors of the replies on their way to the server -/
  rsps : κ → List ℕ
  /-- history: the connections that were claimed so far -/
  claimed : κ → Bool
  /-- history: the descriptors that were accepted so far -/
  accepted : List ℕ
  /-- history: the descriptors bound so far, with their connections -/
  bound : List (κ × ℕ)
  /-- history: the descriptors of the replies that were discarded -/
  discarded : List ℕ

/-- The steps of the threads. -/
inductive ReuseAct (κ : Type)
  /-- listener: `accept` -/
  | accept (fd : ℕ)
  /-- listener: `popFreeProxyConn`, and the entry in `unhandle_fds_` when there is none -/
  | popFree
  /-- listener: `reqStartProxy` -/
  | sendReq
  /-- listener: `wait_proxy_connect_map_.add` -/
  | addWait
  /-- client: `HandleProxyConnectReq` -/
  | answer (p : κ)
  /-- worker: the reply is received -/
  | recvRsp (p : κ)
  /-- worker: `wait_proxy_connect_map_.isExist` -/
  | isExist (p : κ)
  /-- worker: `Run` -/
  | run (p : κ)
  /-- worker: `proxy_connect_map_.add` -/
  | addMap (p : κ)
  /-- worker: `wait_proxy_connect_map_.erase` -/
  | eraseWait (p : κ)
  /-- `claimProxyConn` for a new connection -/
  | claim (p : κ)
  /-- the session of the connection is over and `freeProxyConn` takes it -/
  | release (p : κ)
deriving DecidableEq, Repr

variable {κ : Type} [DecidableEq κ]

/-- One step of one of the threads. -/
def Reuse.step (s : Reuse κ) : ReuseAct κ → Option (Reuse κ)
  | .accept fd =>
      match s.listener with
      | .idle =>
          if fd ∈ s.accepted then none
          else some { s with listener := .accepted fd, accepted := fd :: s.accepted }
      | _ => none
  | .popFree =>
      match s.listener with
      | .accepted fd =>
          match s.freeProxyConnects.getLast? with
          | some p =>
              some { s with
                freeProxyConnects := s.freeProxyConnects.dropLast
                listener := .popped fd p }
          | none => some { s with unhandleFds := s.unhandleFds ++ [fd], listener := .idle }
      | _ => none
  | .sendReq =>
      match s.listener with
      | .popped fd p =>
          some { s with reqs := update s.reqs p (s.reqs p ++ [fd]), listener := .sent fd p }
      | _ => none
  | .addWait =>
      match s.listener with
      | .sent _ p =>
          some { s with
            waitProxyConnectMap := update s.waitProxyConnectMap p true
            listener := .idle }
      | _ => none
  | .answer p =>
      match s.reqs p with
      | fd :: rest =>
          some { s with reqs := update s.reqs p rest, rsps := update s.rsps p (s.rsps p ++ [fd]) }
      | [] => none
  | .recvRsp p =>
      match s.worker p, s.rsps p with
      | .idle, fd :: rest =>
          some { s with rsps := update s.rsps p rest, worker := update s.worker p (.received fd) }
      | _, _ => none
  | .isExist p =>
      match s.worker p with
      | .received fd =>
          if s.waitProxyConnectMap p then some { s with worker := update s.worker p (.found fd) }
          else
            some { s with
              worker := update s.worker p .idle
              discarded := fd :: s.discarded }
      | _ => none
  | .run p =>
      match s.worker p with
      | .found fd =>
          some { s with worker := update s.worker p (.ran fd), bound := (p, fd) :: s.bound }
      | _ => none
  | .addMap p =>
      match s.worker p with
      | .ran fd =>
          some { s with
            worker := update s.worker p (.mapped fd)
            proxyConnectMap := update s.proxyConnectMap p true }
      | _ => none
  | .eraseWait p =>
      match s.worker p with
      | .mapped _ =>
          some { s with
            worker := update s.worker p .idle
            waitProxyConnectMap := update s.waitProxyConnectMap p false }
      | _ => none
  | .claim p =>
      match s.unhandleFds.getLast? with
      | some fd =>
          if s.claimed p then none
          else
            some { s with
              unhandleFds := s.unhandleFds.dropLast
              claimed := update s.claimed p true
              proxyConnectMap := update s.proxyConnectMap p true
              bound := (p, fd) :: s.bound }
      | none => none
  | .release p =>
      if s.proxyConnectMap p = true ∧ s.worker p = .idle then
        some { s with
          proxyConnectMap := update s.proxyConnectMap p false
          freeProxyConnects := s.freeProxyConnects ++ [p] }
      else none

/-- A tunnel nobody has connected to. -/
def Reuse.init : Reuse κ where
  freeProxyConnects := []
  waitProxyConnectMap _ := false
  proxyConnectMap _ := false
  unhandleFds := []
  listener := .idle
  worker _ := .idle
  reqs _ := []
  rsps _ := []
  claimed _ := false
  accepted := []
  bound := []
  discarded := []

/-- The threads of a server tunnel around the reuse of connections. -/
def reuseLts (κ : Type) [DecidableEq κ] : Lts (Reuse κ) (ReuseAct κ) where
  init := Reuse.init
  step := Reuse.step

/-- No reply is looked up while the listener stands between the request it answers and the entry in
`wait_proxy_connect_map_`. -/
def WaitFirst (s : Reuse κ) : ReuseAct κ → Prop
  | .isExist p => ∀ fd, s.listener ≠ .sent fd p
  | _ => True

instance (s : Reuse κ) : (a : ReuseAct κ) → Decidable (WaitFirst s a)
  | .isExist p =>
      match hl : s.listener with
      | .sent fd q =>
          if hq : q = p then .isFalse fun h => h fd (hq ▸ hl) else .isTrue fun _ h => by simp_all
      | .idle | .accepted _ | .popped _ _ => .isTrue fun _ h => by simp_all
  | .accept _ | .popFree | .sendReq | .addWait | .answer _ | .recvRsp _ | .run _ | .addMap _
  | .eraseWait _ | .claim _ | .release _ => .isTrue trivial

/-! ### The life of a connection and the owner of a descriptor -/

/-- What a proxy connection is going through. -/
inductive Life
  | unborn
  | free
  | popped (fd : ℕ)
  | requested (fd : ℕ)
  | answered (fd : ℕ)
  | received (fd : ℕ)
  | found (fd : ℕ)
  | ran (fd : ℕ)
  | mapped (fd : ℕ)
  | serving
deriving DecidableEq

/-- Where a public descriptor is. -/
inductive Spot (κ : Type)
  | unknown
  | listener
  | unhandled
  | inUse (p : κ)
  | bound (p : κ)
deriving DecidableEq

namespace Life

/-- A reply to the connection is expected or handled. -/
def Awaited : Life → Prop
  | .requested _ | .answered _ | .received _ | .found _ | .ran _ | .mapped _ => True
  | _ => False

/-- The request for the connection that is on its way. -/
def reqs : Life → List ℕ
  | .requested fd => [fd]
  | _ => []

/-- The reply that is on its way. -/
def rsps : Life → List ℕ
  | .answered fd => [fd]
  | _ => []

/-- Where the worker of the connection stands. -/
def worker : Life → Worker
  | .received fd => .received fd
  | .found fd => .found fd
  | .ran fd => .ran fd
  | .mapped fd => .mapped fd
  | _ => .idle

/-- The descriptor that is to be bound to the connection. -/
def fd? : Life → Option ℕ
  | .popped fd | .requested fd | .answered fd | .received fd | .found fd => some fd
  | _ => none

/-- The connection is in `proxy_connect_map_`. -/
def Mapped : Life → Prop
  | .mapped _ | .serving => True
  | _ => False

variable {l : Life} {fd : ℕ} {rest : List ℕ}

/-! A message on its way, or a worker that is not idle, tells what the connection is going through. -/

theorem reqs_eq_cons : l.reqs = fd :: rest ↔ l = .requested fd ∧ rest = [] := by
  cases l <;> simp [reqs, eq_comm]

theorem rsps_eq_cons : l.rsps = fd :: rest ↔ l = .answered fd ∧ rest = [] := by
  cases l <;> simp [rsps, eq_comm]

theorem worker_eq_received : l.worker = .received fd ↔ l = .received fd := by
  cases l <;> simp [worker]

theorem worker_eq_found : l.worker = .found fd ↔ l = .found fd := by
  cases l <;> simp [worker]

theorem worker_eq_ran : l.worker = .ran fd ↔ l = .ran fd := by
  cases l <;> simp [worker]

theorem worker_eq_mapped : l.worker = .mapped fd ↔ l = .mapped fd := by
  cases l <;> simp [worker]

/-- A descriptor is to be bound to a connection while the listener, a message or the worker holds
it. -/
theorem fd?_eq_some_iff : l.fd? = some fd ↔ l = .popped fd ∨ fd ∈ l.reqs ∨ fd ∈ l.rsps ∨
    l.worker = .received fd ∨ l.worker = .found fd := by
  cases l <;> simp [fd?, reqs, rsps, worker, eq_comm]

theorem eq_serving_of_mapped (hm : l.Mapped) (hw : l.worker = .idle) : l = .serving := by
  cases l with
  | serving => rfl
  | mapped fd => exact nomatch hw
  | _ => exact hm.elim

end Life

attribute [local grind =] Function.update_apply

attribute [grind =] Life.Awaited Life.Mapped Life.reqs Life.rsps Life.worker Life.fd?

/-- **The invariant.**  Every container and every thread says what the life of each connection and
the spot of each descriptor say. -/
@[grind cases]
structure ReuseInv (s : Reuse κ) (life : κ → Life) (spot : ℕ → Spot κ) : Prop where
  freeNodup : s.freeProxyConnects.Nodup
  free_iff : ∀ p, p ∈ s.freeProxyConnects ↔ life p = .free
  wait_iff : ∀ p, s.waitProxyConnectMap p = true ↔
    (life p).Awaited ∧ ∀ fd, s.listener ≠ .sent fd p
  map_iff : ∀ p, s.proxyConnectMap p = true ↔ (life p).Mapped
  reqs : ∀ p, s.reqs p = (life p).reqs
  rsps : ∀ p, s.rsps p = (life p).rsps
  worker : ∀ p, s.worker p = (life p).worker
  claimed_iff : ∀ p, s.claimed p = true ↔ life p ≠ .unborn
  popped_iff : ∀ p fd, life p = .popped fd ↔ s.listener = .popped fd p
  sent : ∀ p fd, s.listener = .sent fd p →
    life p = .requested fd ∨ life p = .answered fd ∨ life p = .received fd
  accepted_iff : ∀ fd, fd ∈ s.accepted ↔ spot fd ≠ .unknown
  listener_iff : ∀ fd, s.listener = .accepted fd ↔ spot fd = .listener
  unhandleNodup : s.unhandleFds.Nodup
  unhandled_iff : ∀ fd, fd ∈ s.unhandleFds ↔ spot fd = .unhandled
  inUse_iff : ∀ p fd, (life p).fd? = some fd ↔ spot fd = .inUse p
  boundNodup : (s.bound.map Prod.snd).Nodup
  bound_iff : ∀ p fd, (p, fd) ∈ s.bound ↔ spot fd = .bound p
  discarded : s.discarded = []

omit [DecidableEq κ] in
theorem reuseInv_init : ReuseInv (κ := κ) Reuse.init (fun _ => .unborn) (fun _ => .unknown) := by
  constructor <;> simp [Reuse.init, Life.Awaited, Life.Mapped, Life.reqs, Life.rsps, Life.worker,
    Life.fd?]

/-! ### One step -/

section Steps

variable {s s' : Reuse κ} {life : κ → Life} {spot : ℕ → Spot κ}

omit [DecidableEq κ] in
theorem ReuseInv.accept (h : ReuseInv s life spot) {fd : ℕ} (hl : s.listener = .idle)
    (hfd : fd ∉ s.accepted) :
    ReuseInv { s with listener := .accepted fd, accepted := fd :: s.accepted } life
      (update spot fd .listener) := by
  refine { h with
    wait_iff := ?_, popped_iff := ?_, sent := ?_, accepted_iff := ?_, listener_iff := ?_,
    unhandled_iff := ?_, inUse_iff := ?_, bound_iff := ?_ } <;>
    grind -ring -linarith

omit [DecidableEq κ] in
/-- A descriptor that is elsewhere was not bound. -/
theorem ReuseInv.not_mem_bound (h : ReuseInv s life spot) (fd : ℕ)
    (hfd : ∀ p, spot fd ≠ .bound p) : fd ∉ s.bound.map Prod.snd := by
  intro hm
  obtain ⟨⟨q, fd'⟩, hq, rfl⟩ := List.mem_map.1 hm
  exact hfd q ((h.bound_iff q fd').1 hq)

theorem ReuseInv.popFree_some (h : ReuseInv s life spot) {fd : ℕ} {p : κ} {rest : List κ}
    (hl : s.listener = .accepted fd) (hf : s.freeProxyConnects = rest ++ [p]) :
    ReuseInv { s with freeProxyConnects := rest, listener := .popped fd p }
      (update life p (.popped fd)) (update spot fd (.inUse p)) := by
  have hn := h.freeNodup
  rw [hf, List.nodup_append] at hn
  have hnp : p ∉ rest := fun hp => hn.2.2 p hp p (by simp) rfl
  have hlife : life p = .free := (h.free_iff p).1 (by simp [hf])
  have hspot : spot fd = .listener := (h.listener_iff fd).1 hl
  constructor <;> grind -ring -linarith

omit [DecidableEq κ] in
theorem ReuseInv.popFree_none (h : ReuseInv s life spot) {fd : ℕ}
    (hl : s.listener = .accepted fd) :
    ReuseInv { s with unhandleFds := s.unhandleFds ++ [fd], listener := .idle }
      life (update spot fd .unhandled) := by
  refine { h with
    wait_iff := ?_, popped_iff := ?_, sent := ?_, accepted_iff := ?_, listener_iff := ?_,
    unhandleNodup := ?_, unhandled_iff := ?_, inUse_iff := ?_, bound_iff := ?_ } <;>
    grind -ring -linarith

theorem ReuseInv.sendReq (h : ReuseInv s life spot) {fd : ℕ} {p : κ}
    (hl : s.listener = .popped fd p) :
    ReuseInv { s with reqs := update s.reqs p (s.reqs p ++ [fd]), listener := .sent fd p }
      (update life p (.requested fd)) spot := by
  refine { h with
    free_iff := ?_, wait_iff := ?_, map_iff := ?_, reqs := ?_, rsps := ?_, worker := ?_,
    claimed_iff := ?_, popped_iff := ?_, sent := ?_, listener_iff := ?_, inUse_iff := ?_ } <;>
    grind -ring -linarith

theorem ReuseInv.addWait (h : ReuseInv s life spot) {fd : ℕ} {p : κ}
    (hl : s.listener = .sent fd p) :
    ReuseInv { s with waitProxyConnectMap := update s.waitProxyConnectMap p true, listener := .idle }
      life spot := by
  refine { h with wait_iff := ?_, popped_iff := ?_, sent := ?_, listener_iff := ?_ } <;>
    grind -ring -linarith

theorem ReuseInv.answer (h : ReuseInv s life spot) {fd : ℕ} {p : κ} {rest : List ℕ}
    (hr : s.reqs p = fd :: rest) :
    ReuseInv { s with reqs := update s.reqs p rest, rsps := update s.rsps p (s.rsps p ++ [fd]) }
      (update life p (.answered fd)) spot := by
  obtain ⟨hlife, rfl⟩ := Life.reqs_eq_cons.1 ((h.reqs p).symm.trans hr)
  refine { h with
    free_iff := ?_, wait_iff := ?_, map_iff := ?_, reqs := ?_, rsps := ?_, worker := ?_,
    claimed_iff := ?_, popped_iff := ?_, sent := ?_, inUse_iff := ?_ } <;>
    grind -ring -linarith

theorem ReuseInv.recvRsp (h : ReuseInv s life spot) {fd : ℕ} {p : κ} {rest : List ℕ}
    (hr : s.rsps p = fd :: rest) :
    ReuseInv { s with rsps := update s.rsps p rest, worker := update s.worker p (.received fd) }
      (update life p (.received fd)) spot := by
  obtain ⟨hlife, rfl⟩ := Life.rsps_eq_cons.1 ((h.rsps p).symm.trans hr)
  refine { h with
    free_iff := ?_, wait_iff := ?_, map_iff := ?_, reqs := ?_, rsps := ?_, worker := ?_,
    claimed_iff := ?_, popped_iff := ?_, sent := ?_, inUse_iff := ?_ } <;>
    grind -ring -linarith

omit [DecidableEq κ] in
theorem ReuseInv.life_of_received (h : ReuseInv s life spot) {fd : ℕ} {p : κ}
    (hw : s.worker p = .received fd) : life p = .received fd :=
  Life.worker_eq_received.1 ((h.worker p).symm.trans hw)

theorem ReuseInv.isExist (h : ReuseInv s life spot) {fd : ℕ} {p : κ}
    (hw : s.worker p = .received fd) (hx : s.waitProxyConnectMap p = true) :
    ReuseInv { s with worker := update s.worker p (.found fd) } (update life p (.found fd)) spot := by
  have hlife := h.life_of_received hw
  refine { h with
    free_iff := ?_, wait_iff := ?_, map_iff := ?_, reqs := ?_, rsps := ?_, worker := ?_,
    claimed_iff := ?_, popped_iff := ?_, sent := ?_, inUse_iff := ?_ } <;>
    grind -ring -linarith

theorem ReuseInv.run (h : ReuseInv s life spot) {fd : ℕ} {p : κ} (hw : s.worker p = .found fd) :
    ReuseInv { s with worker := update s.worker p (.ran fd), bound := (p, fd) :: s.bound }
      (update life p (.ran fd)) (update spot fd (.bound p)) := by
  have hlife : life p = .found fd := Life.worker_eq_found.1 ((h.worker p).symm.trans hw)
  have hspot : spot fd = .inUse p := (h.inUse_iff p fd).1 (by rw [hlife]; rfl)
  have hnew := h.not_mem_bound fd (by simp [hspot])
  constructor <;> grind -ring -linarith

theorem ReuseInv.addMap (h : ReuseInv s life spot) {fd : ℕ} {p : κ} (hw : s.worker p = .ran fd) :
    ReuseInv { s with
        worker := update s.worker p (.mapped fd)
        proxyConnectMap := update s.proxyConnectMap p true }
      (update life p (.mapped fd)) spot := by
  have hlife : life p = .ran fd := Life.worker_eq_ran.1 ((h.worker p).symm.trans hw)
  refine { h with
    free_iff := ?_, wait_iff := ?_, map_iff := ?_, reqs := ?_, rsps := ?_, worker := ?_,
    claimed_iff := ?_, popped_iff := ?_, sent := ?_, inUse_iff := ?_ } <;>
    grind -ring -linarith

theorem ReuseInv.eraseWait (h : ReuseInv s life spot) {fd : ℕ} {p : κ}
    (hw : s.worker p = .mapped fd) :
    ReuseInv { s with
        worker := update s.worker p .idle
        waitProxyConnectMap := update s.waitProxyConnectMap p false }
      (update life p .serving) spot := by
  have hlife : life p = .mapped fd := Life.worker_eq_mapped.1 ((h.worker p).symm.trans hw)
  refine { h with
    free_iff := ?_, wait_iff := ?_, map_iff := ?_, reqs := ?_, rsps := ?_, worker := ?_,
    claimed_iff := ?_, popped_iff := ?_, sent := ?_, inUse_iff := ?_ } <;>
    grind -ring -linarith

theorem ReuseInv.claim (h : ReuseInv s life spot) {fd : ℕ} {p : κ} {rest : List ℕ}
    (hu : s.unhandleFds = rest ++ [fd]) (hc : s.claimed p = false) :
    ReuseInv { s with
        unhandleFds := rest
        claimed := update s.claimed p true
        proxyConnectMap := update s.proxyConnectMap p true
        bound := (p, fd) :: s.bound }
      (update life p .serving) (update spot fd (.bound p)) := by
  have hn := h.unhandleNodup
  rw [hu, List.nodup_append] at hn
  have hnp : fd ∉ rest := fun hp => hn.2.2 fd hp fd (by simp) rfl
  have hspot : spot fd = .unhandled := (h.unhandled_iff fd).1 (by simp [hu])
  have hnew := h.not_mem_bound fd (by simp [hspot])
  have hlife : life p = .unborn := by
    by_contra hne
    exact Bool.false_ne_true (hc.symm.trans ((h.claimed_iff p).2 hne))
  constructor <;> grind -ring -linarith

theorem ReuseInv.release (h : ReuseInv s life spot) {p : κ} (hm : s.proxyConnectMap p = true)
    (hw : s.worker p = .idle) :
    ReuseInv { s with
        proxyConnectMap := update s.proxyConnectMap p false
        freeProxyConnects := s.freeProxyConnects ++ [p] }
      (update life p .free) spot := by
  have hlife : life p = .serving :=
    Life.eq_serving_of_mapped ((h.map_iff p).1 hm) ((h.worker p).symm.trans hw)
  refine { h with
    freeNodup := ?_, free_iff := ?_, wait_iff := ?_, map_iff := ?_, reqs := ?_, rsps := ?_,
    worker := ?_, claimed_iff := ?_, popped_iff := ?_, sent := ?_, inUse_iff := ?_ } <;>
    grind -ring -linarith

/-- **One step preserves the invariant**, unless a reply is looked up between the request and its
entry in the map. -/
theorem ReuseInv.step (h : ReuseInv s life spot) {a : ReuseAct κ} (hw : WaitFirst s a)
    (hs : s.step a = some s') : ∃ life' spot', ReuseInv s' life' spot' := by
  cases a with
  | accept fd =>
      simp only [Reuse.step] at hs
      split at hs
      · split at hs
        · exact absurd hs (by simp)
        · obtain rfl := Option.some.inj hs
          exact ⟨_, _, h.accept ‹_› ‹_›⟩
      · exact absurd hs (by simp)
  | popFree =>
      simp only [Reuse.step] at hs
      split at hs
      · split at hs
        · rename_i hf
          obtain rfl := Option.some.inj hs
          exact ⟨_, _, h.popFree_some ‹_› (List.dropLast_append_getLast? _ hf).symm⟩
        · obtain rfl := Option.some.inj hs
          exact ⟨_, _, h.popFree_none ‹_›⟩
      · exact absurd hs (by simp)
  | sendReq =>
      simp only [Reuse.step] at hs
      split at hs
      · obtain rfl := Option.some.inj hs
        exact ⟨_, _, h.sendReq ‹_›⟩
      · exact absurd hs (by simp)
  | addWait =>
      simp only [Reuse.step] at hs
      split at hs
      · obtain rfl := Option.some.inj hs
        exact ⟨_, _, h.addWait ‹_›⟩
      · exact absurd hs (by simp)
  | answer p =>
      simp only [Reuse.step] at hs
      split at hs
      · obtain rfl := Option.some.inj hs
        exact ⟨_, _, h.answer ‹_›⟩
      · exact absurd hs (by simp)
  | recvRsp p =>
      simp only [Reuse.step] at hs
      split at hs
      · obtain rfl := Option.some.inj hs
        exact ⟨_, _, h.recvRsp ‹_›⟩
      · exact absurd hs (by simp)
  | isExist p =>
      simp only [Reuse.step] at hs
      split at hs
      · rename_i fd hrec
        have hx : s.waitProxyConnectMap p = true := by
          refine (h.wait_iff p).2 ⟨?_, hw⟩
          rw [h.life_of_received hrec]
          trivial
        rw [if_pos hx] at hs
        obtain rfl := Option.some.inj hs
        exact ⟨_, _, h.isExist hrec hx⟩
      · exact absurd hs (by simp)
  | run p =>
      simp only [Reuse.step] at hs
      split at hs
      · obtain rfl := Option.some.inj hs
        exact ⟨_, _, h.run ‹_›⟩
      · exact absurd hs (by simp)
  | addMap p =>
      simp only [Reuse.step] at hs
      split at hs
      · obtain rfl := Option.some.inj hs
        exact ⟨_, _, h.addMap ‹_›⟩
      · exact absurd hs (by simp)
  | eraseWait p =>
      simp only [Reuse.step] at hs
      split at hs
      · obtain rfl := Option.some.inj hs
        exact ⟨_, _, h.eraseWait ‹_›⟩
      · exact absurd hs (by simp)
  | claim p =>
      simp only [Reuse.step] at hs
      split at hs
      · rename_i hu
        split at hs
        · exact absurd hs (by simp)
        · rename_i hc
          obtain rfl := Option.some.inj hs
          exact ⟨_, _, h.claim (List.dropLast_append_getLast? _ hu).symm (by simpa using hc)⟩
      · exact absurd hs (by simp)
  | release p =>
      simp only [Reuse.step] at hs
      split at hs
      · rename_i hc
        obtain rfl := Option.some.inj hs
        exact ⟨_, _, h.release hc.1 hc.2⟩
      · exact absurd hs (by simp)

/-- A reply that is looked up between the request and its entry in the map is discarded. -/
theorem ReuseInv.discards (h : ReuseInv s life spot) {a : ReuseAct κ} (hw : ¬ WaitFirst s a)
    (hs : s.step a = some s') : s'.discarded ≠ [] := by
  cases a with
  | isExist p =>
      simp only [WaitFirst, not_forall, not_not] at hw
      obtain ⟨fd', hl⟩ := hw
      have hx : ¬ s.waitProxyConnectMap p = true := fun hx => ((h.wait_iff p).1 hx).2 fd' hl
      simp only [Reuse.step] at hs
      split at hs
      · rw [if_neg hx] at hs
        obtain rfl := Option.some.inj hs
        simp
      · exact absurd hs (by simp)
  | _ => exact absurd trivial hw

omit [DecidableEq κ] in
/-- What was discarded stays discarded. -/
theorem Reuse.discarded_mono [DecidableEq κ] {a : ReuseAct κ} (hs : s.step a = some s')
    (h' : s'.discarded = []) : s.discarded = [] := by
  cases a <;> simp only [Reuse.step] at hs <;> grind -ring -linarith

end Steps

/-! ### Runs -/

/-- A public descriptor that was accepted and is not bound yet. -/
def Reuse.Held (s : Reuse κ) (fd : ℕ) : Prop :=
  fd ∈ s.unhandleFds ∨ s.listener = .accepted fd ∨ (∃ p, s.listener = .popped fd p) ∨
    ∃ p, fd ∈ s.reqs p ∨ fd ∈ s.rsps p ∨ s.worker p = .received fd ∨ s.worker p = .found fd

/-- Every reply was found, and every accepted descriptor is either held or was bound, to one
connection and once. -/
structure Reuse.Kept (s : Reuse κ) : Prop where
  found : s.discarded = []
  once : (s.bound.map Prod.snd).Nodup
  bound_iff : ∀ fd ∈ s.accepted, fd ∈ s.bound.map Prod.snd ↔ ¬ s.Held fd

omit [DecidableEq κ] in
/-- A descriptor in use is held. -/
theorem ReuseInv.held_iff {s : Reuse κ} {life : κ → Life} {spot : ℕ → Spot κ}
    (h : ReuseInv s life spot) (fd : ℕ) :
    s.Held fd ↔ spot fd = .unhandled ∨ spot fd = .listener ∨ ∃ p, spot fd = .inUse p := by
  unfold Reuse.Held
  constructor
  · rintro (hu | hl | ⟨p, hl⟩ | ⟨p, hp⟩)
    · exact .inl ((h.unhandled_iff fd).1 hu)
    · exact .inr (.inl ((h.listener_iff fd).1 hl))
    · have hlife := (h.popped_iff p fd).2 hl
      exact .inr (.inr ⟨p, (h.inUse_iff p fd).1 (Life.fd?_eq_some_iff.2 (.inl hlife))⟩)
    · rw [h.reqs p, h.rsps p, h.worker p] at hp
      exact .inr (.inr ⟨p, (h.inUse_iff p fd).1 (Life.fd?_eq_some_iff.2 (.inr hp))⟩)
  · rintro (hu | hl | ⟨p, hp⟩)
    · exact .inl ((h.unhandled_iff fd).2 hu)
    · exact .inr (.inl ((h.listener_iff fd).2 hl))
    · rcases Life.fd?_eq_some_iff.1 ((h.inUse_iff p fd).2 hp) with hlife | hheld
      · exact .inr (.inr (.inl ⟨p, (h.popped_iff p fd).1 hlife⟩))
      · rw [← h.reqs p, ← h.rsps p, ← h.worker p] at hheld
        exact .inr (.inr (.inr ⟨p, hheld⟩))

omit [DecidableEq κ] in
theorem ReuseInv.kept {s : Reuse κ} {life : κ → Life} {spot : ℕ → Spot κ}
    (h : ReuseInv s life spot) : s.Kept := by
  refine ⟨h.discarded, h.boundNodup, fun fd hfd => ?_⟩
  rw [h.held_iff]
  have hacc := (h.accepted_iff fd).1 hfd
  constructor
  · intro hb
    obtain ⟨⟨p, fd'⟩, hp, rfl⟩ := List.mem_map.1 hb
    have := (h.bound_iff p fd').1 hp
    simp [this]
  · intro hn
    cases hs : spot fd with
    | bound p => exact List.mem_map.2 ⟨(p, fd), (h.bound_iff p fd).2 hs, rfl⟩
    | _ => simp [hs] at hn hacc

/-- **When every reply is found.**  A run discards no reply and binds every accepted descriptor that
is no longer held to exactly one connection, exactly when no reply of the run is looked up while the
listener stands between the request and its entry in `wait_proxy_connect_map_`. -/
theorem reply_found_iff {as : List (ReuseAct κ)} {s : Reuse κ}
    (he : (reuseLts κ).exec (reuseLts κ).init as = some s) :
    s.Kept ↔ (reuseLts κ).AllSteps WaitFirst (reuseLts κ).init as := by
  have hinv : ∀ {s : Reuse κ}, (reuseLts κ).Reach (fun s a => True ∧ WaitFirst s a) s →
      ∃ life spot, ReuseInv s life spot := fun hr =>
    hr.invariant (I := fun s => ∃ life spot, ReuseInv s life spot) ⟨_, _, reuseInv_init⟩
      fun s a s' _ ⟨_, _, h⟩ hg hs => h.step hg.2 hs
  have hdisc : s.discarded = [] ↔ (reuseLts κ).AllSteps WaitFirst (reuseLts κ).init as := by
    refine Lts.trace_iff (g := fun _ _ => True) (I := fun s => s.discarded = []) rfl ?_
      (fun s a s' _ hs => Reuse.discarded_mono hs) he (Lts.allSteps_true _ _)
    intro s a s' hr _ _ hs
    obtain ⟨life, spot, h⟩ := hinv hr
    constructor
    · intro hd
      by_contra hw
      exact h.discards hw hs hd
    · intro hw
      obtain ⟨life', spot', h'⟩ := h.step hw hs
      exact h'.discarded
  constructor
  · intro hk
    exact hdisc.1 hk.found
  · intro hall
    obtain ⟨life, spot, h⟩ := hinv (.of_allSteps .init he (hall.mono fun _ _ hw => ⟨trivial, hw⟩))
    exact h.kept

/-- Two clients in a row over one connection. -/
def reuseOnce : List (ReuseAct ℕ) :=
  [.accept 5, .popFree, .claim 0, .release 0, .accept 6, .popFree, .sendReq, .addWait, .answer 0,
    .recvRsp 0, .isExist 0, .run 0, .addMap 0, .eraseWait 0]

theorem reply_found_reuse :
    (((reuseLts ℕ).exec (reuseLts ℕ).init reuseOnce).get (by decide +kernel)).Kept :=
  (@reply_found_iff ℕ _ reuseOnce _ (Option.some_get _).symm).2 (by decide +kernel)

/-- The reply is looked up before the listener has put the connection into the map, and the second
client is lost. -/
theorem reply_discarded :
    ¬ ∀ (as : List (ReuseAct ℕ)) (s : Reuse ℕ),
      (reuseLts ℕ).exec (reuseLts ℕ).init as = some s → s.Kept := by
  intro h
  have hk := h [.accept 5, .popFree, .claim 0, .release 0, .accept 6, .popFree, .sendReq,
    .answer 0, .recvRsp 0, .isExist 0, .addWait] _ (Option.some_get (by decide +kernel)).symm
  exact absurd hk.found (by decide +kernel)

end ProxySocket
