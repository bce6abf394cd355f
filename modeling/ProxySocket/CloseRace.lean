/-
**Who closes a session: the counters between two threads.**

The server half counts the bytes it delivers on its worker thread (`ProxyConnect::handleRead`) and
learns the number of bytes to expect on the control thread (`Control::handleShutdownPublicConn`).
Each of them compares the two counters and calls `Tunnel::shutdownPublicConn` when they agree.  Here a
step is one atomic operation on a counter or one section of `close_mutex_`.

A section that resets the half is followed in the same step by `freeProxyConn`, and a connection is
started and entered into `proxy_connect_map_` in one step: what happens in between is not about the
counters.  The client half runs the same steps and keeps its map.

Main definitions:

* `ShutPc`, `ClosePc` — where a thread stands in `shutdownPublicConn` and in its handler;
* `Closing`, `CloseAct`, `Closing.step` — the half, the threads and what the other half has sent;
* `OneClose` — no session is shut down twice by the remote side, and none is reset before it was
  shut down by both;
* `NoCross` — the last byte is counted, or the total announced, while the other thread is not about
  to compare.

Main results:

* `ClosingInv.step` — **one step preserves the invariant**;
* `remote_once` — **a run without a crossing shuts every session down at most once**;
* `cross_closes_twice` — every crossing can end in a second shutdown of the session.
-/

import ProxySocket.Lts
import ProxySocket.ProxyConnect

set_option relaxedAutoImplicit false
set_option autoImplicit false

namespace ProxySocket

open Function (update)

/-! ### The threads -/

/-- Where a thread stands in `Tunnel::shutdownPublicConn`. -/
inductive ShutPc
  | enter
  /-- after `getTotalCount` -/
  | loadedTotal (total : Counter)
  /-- after `getRecvCount`, the two being equal -/
  | equal
deriving DecidableEq, Repr

/-- Where a thread stands in its handler. -/
inductive ClosePc
  | idle
  /-- `handleRead`, after `AddRecvCount` -/
  | counted
  /-- `handleRead`, after `getRecvCount` -/
  | loadedRecv (recv : Counter)
  /-- `handleShutdownPublicConn`, after the test of `AddTotalCount` against `-1` -/
  | tested (first : Bool) (count : ℕ)
  /-- in `shutdownPublicConn` -/
  | shut (pc : ShutPc)
deriving DecidableEq, Repr

/-- The two server threads that handle a proxy connection. -/
inductive ServerThread
  | worker
  | control
deriving DecidableEq, Repr

/-- What happens to a session. -/
inductive CloseEvent
  /-- `shutdownFromRemote` runs while the half is in its session `sid`, or after it -/
  | fromRemote (sid : ℕ)
  /-- `shutdownFromLocal` runs for the public connection of the session `sid` -/
  | fromLocal (sid : ℕ)
  /-- `resetConn` runs while the half is in its session `sid`, or after it -/
  | reset (sid : ℕ)
deriving DecidableEq, Repr

/-- A server half, its two threads, and what the client has sent. -/
structure Closing where
  half : ProxyConnect
  /-- the connection is in `proxy_connect_map_` -/
  proxyConnectMap : Bool
  pc : ServerThread → ClosePc
  /-- the raw bytes of the client that were not counted yet -/
  incoming : ℕ
  /-- the `ShutdownPeerConn` messages that were not handled yet, oldest first -/
  shutdowns : List ℕ
  /-- history: the number of sessions the client has started -/
  peerSid : ℕ
  /-- history: the number of sessions the half has started -/
  sid : ℕ
  /-- history: the sessions whose public connection has not seen the end of its stream -/
  opened : List ℕ
  /-- history: what happened so far, the newest first -/
  log : List CloseEvent

/-- The steps of the threads, and the client's start of a session. -/
inductive CloseAct
  /-- the client starts a session in which it sends `n` bytes and announces them -/
  | peerStart (n : ℕ)
  /-- worker: `bindPublicFdToProxyConn` -/
  | bind (fd : ℕ)
  /-- worker: `handleRead` up to `AddRecvCount` -/
  | addRecvCount (n : ℕ)
  /-- worker: `getRecvCount` in `handleRead` -/
  | getRecvCount
  /-- worker: `getTotalCount` in `handleRead`, and the comparison -/
  | getTotalCount
  /-- worker: `shutdownFromPublic` for the public connection of a session -/
  | shutdownFromPublic (sid : ℕ)
  /-- control: the lookup of `handleShutdownPublicConn`, and the test of `AddTotalCount` -/
  | testTotalCount
  /-- control: the update of `AddTotalCount` -/
  | addTotalCount
  /-- control: `handleFreeProxyConnReq` -/
  | freeProxyConn
  /-- `getTotalCount` in `shutdownPublicConn` -/
  | shutTotal (t : ServerThread)
  /-- `getRecvCount` in `shutdownPublicConn`, and the comparison -/
  | shutRecv (t : ServerThread)
  /-- `shutdownFromRemote` in `shutdownPublicConn` -/
  | shutdownFromRemote (t : ServerThread)
deriving DecidableEq, Repr

namespace Closing

/-- The event of a reset, if there was one. -/
def resetEvent (s : Closing) : List CloseEvent := if s.half.halfClose then [.reset s.sid] else []

/-- `freeProxyConn`, which keeps a connection that is started. -/
def freeProxyConn (s : Closing) : Closing :=
  if s.half.start then s else { s with proxyConnectMap := false }

/-- The end of `shutdownPublicConn`. -/
def closeRemote (s : Closing) : Closing :=
  let r := s.half.shutdownFromRemote
  let s' := { s with half := r.1, log := s.resetEvent ++ .fromRemote s.sid :: s.log }
  if r.2 then s'.freeProxyConn else s'

/-- `shutdownFromPublic` for the public connection of the session `k`. -/
def closeLocal (s : Closing) (k : ℕ) : Closing :=
  if s.proxyConnectMap = false then s
  else
    { s with
      half := s.half.shutdownFromLocal.1
      log := s.resetEvent ++ .fromLocal k :: s.log }

/-- One step. -/
def step (s : Closing) : CloseAct → Option Closing
  | .peerStart n =>
      if s.proxyConnectMap = false ∧ s.half.start = false ∧ s.peerSid = s.sid then
        some { s with
          peerSid := s.peerSid + 1
          incoming := s.incoming + n
          shutdowns := s.shutdowns ++ [n] }
      else none
  | .bind fd =>
      if s.pc .worker = .idle ∧ s.half.start = false ∧ s.peerSid = s.sid + 1 then
        some { s with
          half := s.half.run { fd := fd }
          proxyConnectMap := true
          sid := s.sid + 1
          opened := (s.sid + 1) :: s.opened }
      else none
  | .addRecvCount n =>
      if s.pc .worker = .idle ∧ s.half.start = true ∧ 0 < n ∧ n ≤ s.incoming then
        some { s with
          half := { s.half with recvCount := s.half.recvCount + Counter.ofNat n }
          incoming := s.incoming - n
          pc := update s.pc .worker .counted }
      else none
  | .getRecvCount =>
      if s.pc .worker = .counted then
        some { s with pc := update s.pc .worker (.loadedRecv s.half.recvCount) }
      else none
  | .getTotalCount =>
      match s.pc .worker with
      | .loadedRecv recv =>
          some { s with
            pc := update s.pc .worker (if recv = s.half.totalCount then .shut .enter else .idle) }
      | _ => none
  | .shutdownFromPublic k =>
      if s.pc .worker = .idle ∧ k ∈ s.opened then
        some (closeLocal { s with opened := s.opened.erase k } k)
      else none
  | .testTotalCount =>
      match s.pc .control, s.shutdowns with
      | .idle, n :: rest =>
          if s.proxyConnectMap = false then some { s with shutdowns := rest }
          else
            some { s with
              shutdowns := rest
              pc := update s.pc .control (.tested (s.half.totalCount = -1) n) }
      | _, _ => none
  | .addTotalCount =>
      match s.pc .control with
      | .tested first n =>
          some { s with
            half := { s.half with
              totalCount := if first then Counter.ofNat n
                else s.half.totalCount + Counter.ofNat n }
            pc := update s.pc .control (.shut .enter) }
      | _ => none
  | .freeProxyConn => if s.pc .control = .idle then some s.freeProxyConn else none
  | .shutTotal t =>
      if s.pc t = .shut .enter then
        some { s with pc := update s.pc t (.shut (.loadedTotal s.half.totalCount)) }
      else none
  | .shutRecv t =>
      match s.pc t with
      | .shut (.loadedTotal total) =>
          some { s with
            pc := update s.pc t (if s.half.recvCount = total then .shut .equal else .idle) }
      | _ => none
  | .shutdownFromRemote t =>
      if s.pc t = .shut .equal then some { s.closeRemote with pc := update s.pc t .idle } else none

/-- A connection that was accepted and has served no session. -/
def init : Closing where
  half := { fd := 1 }
  proxyConnectMap := false
  pc _ := .idle
  incoming := 0
  shutdowns := []
  peerSid := 0
  sid := 0
  opened := []
  log := []

end Closing

/-- The server half of a proxy connection at the grain of its counters. -/
def closingLts : Lts Closing CloseAct where
  init := Closing.init
  step := Closing.step

/-! ### Closing once -/

/-- No session is shut down twice by the remote side, and a session is reset only after the remote
side and its own public connection have shut it down.  The newest event comes first. -/
def OneClose : List CloseEvent → Prop
  | [] => True
  | .fromRemote k :: l => .fromRemote k ∉ l ∧ OneClose l
  | .fromLocal _ :: l => OneClose l
  | .reset k :: l => .fromRemote k ∈ l ∧ .fromLocal k ∈ l ∧ OneClose l

/-- The thread is about to compare the counters in `shutdownPublicConn`. -/
def ShutPc.comparing : ShutPc → Bool
  | .enter | .loadedTotal _ => true
  | .equal => false

/-- The thread is about to compare the counters. -/
def ClosePc.comparing : ClosePc → Bool
  | .counted | .loadedRecv _ => true
  | .shut pc => pc.comparing
  | .idle | .tested _ _ => false

/-- The two counters do not become equal while the other thread is between its own update and its
comparison. -/
def NoCross (s : Closing) : CloseAct → Prop
  | .addRecvCount n =>
      s.half.recvCount + Counter.ofNat n = s.half.totalCount → (s.pc .control).comparing = false
  | .addTotalCount =>
      ∀ first n, s.pc .control = .tested first n →
        (if first then Counter.ofNat n else s.half.totalCount + Counter.ofNat n) =
          s.half.recvCount → (s.pc .worker).comparing = false
  | _ => True

/-- The counters hold the number of bytes of every session, next to the value `-1`. -/
def SessionFits : CloseAct → Prop
  | .peerStart n => n < 2 ^ 32 - 1
  | _ => True

instance : (l : List CloseEvent) → Decidable (OneClose l)
  | [] => .isTrue trivial
  | .fromRemote _ :: l =>
      have : Decidable (OneClose l) := instDecidableOneClose l
      inferInstanceAs (Decidable (_ ∧ _))
  | .fromLocal _ :: l => instDecidableOneClose l
  | .reset _ :: l =>
      have : Decidable (OneClose l) := instDecidableOneClose l
      inferInstanceAs (Decidable (_ ∧ _ ∧ _))

instance (s : Closing) : (a : CloseAct) → Decidable (NoCross s a)
  | .addRecvCount _ => inferInstanceAs (Decidable (_ → _))
  | .addTotalCount =>
      match hpc : s.pc .control with
      | .tested first n =>
          decidable_of_iff
            ((if first then Counter.ofNat n else s.half.totalCount + Counter.ofNat n) =
              s.half.recvCount → (s.pc .worker).comparing = false)
            (by simp [NoCross, hpc])
      | .idle | .counted | .loadedRecv _ | .shut _ => .isTrue (by simp [NoCross, hpc])
  | .peerStart _ | .bind _ | .getRecvCount | .getTotalCount | .shutdownFromPublic _
  | .testTotalCount | .freeProxyConn | .shutTotal _ | .shutRecv _ | .shutdownFromRemote _ =>
      .isTrue trivial

instance : (a : CloseAct) → Decidable (SessionFits a)
  | .peerStart _ => inferInstanceAs (Decidable (_ < _))
  | .addRecvCount _ | .addTotalCount | .bind _ | .getRecvCount | .getTotalCount
  | .shutdownFromPublic _ | .testTotalCount | .freeProxyConn | .shutTotal _ | .shutRecv _
  | .shutdownFromRemote _ => .isTrue trivial

/-! ### The invariant -/

/-- How far a session has come. -/
inductive Stage
  /-- no session -/
  | between
  /-- the client has started it, the half has not -/
  | offered
  /-- the same, and the announcement of its bytes was discarded -/
  | offeredLost
  /-- the announcement is to come -/
  | pending
  /-- the announcement was discarded -/
  | lost
  /-- the control thread is inside `AddTotalCount` -/
  | tested
  /-- the control thread is about to compare -/
  | added
  /-- the control thread has found that bytes are missing, or that all were there -/
  | waiting
  /-- the control thread is about to shut the session down -/
  | closing
  /-- the remote side has shut the session down -/
  | closed
deriving DecidableEq, Repr

/-- The half serves the session. -/
def Stage.started : Stage → Bool
  | .between | .offered | .offeredLost => false
  | _ => true

/-- `total_count_` is the announced number. -/
def Stage.announced : Stage → Bool
  | .added | .waiting | .closing | .closed => true
  | _ => false

/-- The announcements on their way. -/
def Stage.shutdowns (n : ℕ) : Stage → List ℕ
  | .offered | .pending => [n]
  | _ => []

/-- The number of sessions the client is ahead. -/
def Stage.ahead : Stage → ℕ
  | .offered | .offeredLost => 1
  | _ => 0

/-- Where the control thread may stand. -/
def Stage.Control (total : Counter) (n : ℕ) : Stage → ClosePc → Prop
  | .tested, pc => pc = .tested (total = -1) n
  | .added, pc => pc = .shut .enter ∨ pc = .shut (.loadedTotal (Counter.ofNat n))
  | .closing, pc => pc = .shut .equal
  | _, pc => pc = .idle

/-- The thread is in `handleRead` and has not compared the counters yet. -/
def ClosePc.counting : ClosePc → Bool
  | .counted | .loadedRecv _ => true
  | _ => false

/-- The thread is in `shutdownPublicConn`. -/
def ClosePc.shutting : ClosePc → Bool
  | .shut _ => true
  | _ => false

/-- **The invariant**, for a session of `n` bytes of which `r` are counted, at the stage `st`; `fin`
tells whether its public connection has seen the end of its stream. -/
structure ClosingInv (s : Closing) (st : Stage) (n r : ℕ) (fin : Bool) : Prop where
  bound : n < 2 ^ 32 - 1
  incoming : s.incoming + r = n
  nothing : st = .between → n = 0
  uncounted : ¬ st.started → r = 0
  reached : st = .closing ∨ st = .closed → r = n
  start : s.half.start = st.started
  half_iff : s.half.halfClose = true ↔ fin = true ∨ st = .closed
  fin_imp : fin = true → st.started ∧ st ≠ .closed
  recv : s.half.recvCount = Counter.ofNat r
  total : st.announced → s.half.totalCount = Counter.ofNat n
  total_pre : ¬ st.announced → s.half.totalCount = -1 ∨ s.half.totalCount = 0
  map : st.started → s.proxyConnectMap = true
  unmapped : st = .offered ∨ st = .offeredLost → s.proxyConnectMap = false
  control : st.Control s.half.totalCount n (s.pc .control)
  counting : (s.pc .worker).counting = true → st.started = true ∧ 0 < r ∧ st ≠ .closing ∧
    st ≠ .closed ∧ (st = .added → r < n)
  loadedRecv : ∀ x, s.pc .worker = .loadedRecv x → x = Counter.ofNat r
  shutting : (s.pc .worker).shutting = true → st = .waiting ∧ r = n
  loadedTotal : ∀ x, s.pc .worker = .shut (.loadedTotal x) → x = Counter.ofNat n
  testing : ∀ b x, s.pc .worker ≠ .tested b x
  shutdowns : s.shutdowns = st.shutdowns n
  peerSid : s.peerSid = s.sid + st.ahead
  opened : s.opened = if st.started ∧ fin = false then [s.sid] else []
  future : ∀ k, s.sid < k → .fromRemote k ∉ s.log
  unshut : st.started → st ≠ .closed → .fromRemote s.sid ∉ s.log
  shut : st = .closed → .fromRemote s.sid ∈ s.log
  finished : fin = true → .fromLocal s.sid ∈ s.log
  orderly : OneClose s.log

theorem closingInv_init : ClosingInv Closing.init .between 0 0 false := by
  constructor <;> simp [Closing.init, Stage.started, Stage.announced, Stage.Control, ClosePc.counting,
    ClosePc.shutting, Stage.shutdowns, Stage.ahead, OneClose]

/-! ### One step -/

section Steps

variable {s s' : Closing} {st : Stage} {n r : ℕ} {fin : Bool}

attribute [local simp] Stage.started Stage.announced Stage.shutdowns Stage.ahead ClosePc.counting
  ClosePc.shutting

/-- A thread that has not compared the counters in `handleRead` is about to. -/
theorem ClosePc.comparing_of_counting {pc : ClosePc} (h : pc.counting = true) :
    pc.comparing = true := by
  cases pc with
  | counted => rfl
  | loadedRecv x => rfl
  | idle | tested b m | shut pc => exact absurd h (by simp)

/-- Before its next session the half has counted nothing. -/
theorem ClosingInv.of_not_start (h : ClosingInv s st n r fin) (hstart : s.half.start = false) :
    r = 0 ∧ fin = false ∧ (s.peerSid = s.sid ∧ st = .between ∨
      s.peerSid = s.sid + 1 ∧ (st = .offered ∨ st = .offeredLost)) := by
  have hst : st.started = false := h.start ▸ hstart
  have hns : ¬ st.started = true := by rw [hst]; decide
  refine ⟨h.uncounted hns, ?_, ?_⟩
  · by_contra hfin
    exact hns (h.fin_imp (by simpa using hfin)).1
  · have hp := h.peerSid
    cases st with
    | between => exact .inl ⟨hp, rfl⟩
    | offered => exact .inr ⟨hp, .inl rfl⟩
    | offeredLost => exact .inr ⟨hp, .inr rfl⟩
    | pending | lost | tested | added | waiting | closing | closed => exact absurd hst (by simp)

/-- While the control thread is about to shut the session down, the worker thread rests. -/
theorem ClosingInv.worker_idle (h : ClosingInv s .closing n r fin) : s.pc .worker = .idle := by
  cases hw : s.pc .worker with
  | idle => rfl
  | counted => exact absurd rfl (h.counting (by rw [hw]; rfl)).2.2.1
  | loadedRecv x => exact absurd rfl (h.counting (by rw [hw]; rfl)).2.2.1
  | tested b x => exact absurd hw (h.testing b x)
  | shut pc => exact absurd (h.shutting (by rw [hw]; rfl)).1 (by simp)

theorem ClosingInv.peerStart (h : ClosingInv s st n r fin) {m : ℕ} (hm : m < 2 ^ 32 - 1)
    (hmap : s.proxyConnectMap = false) (hstart : s.half.start = false) (hsid : s.peerSid = s.sid) :
    ClosingInv { s with
        peerSid := s.peerSid + 1
        incoming := s.incoming + m
        shutdowns := s.shutdowns ++ [m] } .offered m 0 false := by
  obtain ⟨rfl, rfl, ⟨-, rfl⟩ | ⟨hsid', -⟩⟩ := h.of_not_start hstart
  · have hn : n = 0 := h.nothing rfl
    have hin := h.incoming
    exact { h with
      bound := hm
      incoming := by dsimp only; omega
      nothing := by simp
      uncounted := fun _ => rfl
      reached := by simp
      half_iff := by simpa using h.half_iff
      fin_imp := by simp
      total := by simp
      unmapped := fun _ => hmap
      counting := fun hc => absurd (h.counting hc).1 (by simp)
      shutting := fun hc => absurd (h.shutting hc).1 (by simp)
      loadedTotal := fun x hx => absurd (h.shutting (by rw [hx]; rfl)).1 (by simp)
      shutdowns := by simp [h.shutdowns]
      peerSid := by simp [hsid]
      unshut := by simp
      shut := by simp }
  · omega

theorem ClosingInv.bind (h : ClosingInv s st n r fin) {fd : ℕ} (hw : s.pc .worker = .idle)
    (hstart : s.half.start = false) (hsid : s.peerSid = s.sid + 1) :
    ∃ st', ClosingInv { s with
        half := s.half.run { fd := fd }
        proxyConnectMap := true
        sid := s.sid + 1
        opened := (s.sid + 1) :: s.opened } st' n r false := by
  obtain ⟨rfl, rfl, ⟨hsid', -⟩ | ⟨-, hst⟩⟩ := h.of_not_start hstart
  · omega
  · have hopened : s.opened = [] := by
      rcases hst with rfl | rfl <;> simpa using h.opened
    have hhalf : s.half.halfClose = false := by
      rcases hst with rfl | rfl <;> simpa using h.half_iff
    have htotal : s.half.totalCount = -1 ∨ s.half.totalCount = 0 :=
      h.total_pre (by rcases hst with rfl | rfl <;> simp)
    have hcontrol : s.pc .control = .idle := by
      rcases hst with rfl | rfl <;> exact h.control
    -- the announcement is still to come, or was discarded while the half was not in the map
    have hnew : ∀ st', st' = .pending ∨ st' = .lost → st'.shutdowns n = st.shutdowns n →
        ClosingInv { s with
          half := s.half.run { fd := fd }
          proxyConnectMap := true
          sid := s.sid + 1
          opened := (s.sid + 1) :: s.opened } st' n 0 false := by
      intro st' hst' hshut
      exact { h with
        nothing := by rcases hst' with rfl | rfl <;> simp
        uncounted := fun _ => rfl
        reached := by rcases hst' with rfl | rfl <;> simp
        start := by rcases hst' with rfl | rfl <;> rfl
        half_iff := by rcases hst' with rfl | rfl <;> simp [hhalf]
        fin_imp := by simp
        total := by rcases hst' with rfl | rfl <;> simp
        total_pre := fun _ => htotal
        map := fun _ => rfl
        unmapped := by rcases hst' with rfl | rfl <;> simp
        control := by rcases hst' with rfl | rfl <;> exact hcontrol
        counting := by simp [hw]
        shutting := by simp [hw]
        shutdowns := h.shutdowns.trans hshut.symm
        peerSid := by rcases hst' with rfl | rfl <;> simp [hsid]
        opened := by rcases hst' with rfl | rfl <;> simp [hopened]
        future := fun k hk => h.future k (Nat.lt_of_succ_lt hk)
        unshut := fun _ _ => h.future _ (Nat.lt_succ_self _)
        shut := by rcases hst' with rfl | rfl <;> simp
        finished := by simp }
    rcases hst with rfl | rfl
    · exact ⟨.pending, hnew _ (.inl rfl) rfl⟩
    · exact ⟨.lost, hnew _ (.inr rfl) rfl⟩

theorem ClosingInv.addRecvCount (h : ClosingInv s st n r fin) {m : ℕ}
    (_hw : s.pc .worker = .idle) (hstart : s.half.start = true) (h0 : 0 < m) (hm : m ≤ s.incoming)
    (hcross : s.half.recvCount + Counter.ofNat m = s.half.totalCount →
      (s.pc .control).comparing = false) :
    ClosingInv { s with
        half := { s.half with recvCount := s.half.recvCount + Counter.ofNat m }
        incoming := s.incoming - m
        pc := update s.pc .worker .counted } st n (r + m) fin := by
  have hin := h.incoming
  have hst : st.started = true := h.start ▸ hstart
  have hopen : ¬ (st = .closing ∨ st = .closed) := fun hc => by
    have := h.reached hc
    omega
  have hrecv : s.half.recvCount + Counter.ofNat m = Counter.ofNat (r + m) := by
    rw [h.recv, Counter.ofNat_add]
  have hlt : st = .added → r + m < n := by
    rintro rfl
    refine Nat.lt_of_le_of_ne (by omega) fun he => ?_
    have hc := hcross (by rw [hrecv, h.total rfl, he])
    rcases h.control with hc' | hc' <;> simp [hc', ClosePc.comparing, ShutPc.comparing] at hc
  exact { h with
    incoming := by dsimp only; omega
    uncounted := fun hns => absurd hst hns
    reached := fun hc => absurd hc hopen
    recv := hrecv
    control := by simpa using h.control
    counting := fun _ => ⟨hst, Nat.add_pos_right r h0, fun hc => hopen (.inl hc),
      fun hc => hopen (.inr hc), hlt⟩
    loadedRecv := by simp
    shutting := by simp
    loadedTotal := by simp
    testing := by simp }

theorem ClosingInv.getRecvCount (h : ClosingInv s st n r fin) (hw : s.pc .worker = .counted) :
    ClosingInv { s with pc := update s.pc .worker (.loadedRecv s.half.recvCount) } st n r fin :=
  { h with
    control := by simpa using h.control
    counting := fun _ => h.counting (by rw [hw]; rfl)
    loadedRecv := by simp [h.recv]
    shutting := by simp
    loadedTotal := by simp
    testing := by simp }

theorem ClosingInv.getTotalCount (h : ClosingInv s st n r fin) {x : Counter}
    (hw : s.pc .worker = .loadedRecv x) :
    ClosingInv { s with
        pc := update s.pc .worker (if x = s.half.totalCount then .shut .enter else .idle) }
      st n r fin := by
  have hx := h.loadedRecv x hw
  have hc := h.counting (by rw [hw]; rfl)
  split
  · rename_i he
    have hlt : r < 2 ^ 32 - 1 := by
      have := h.incoming
      have := h.bound
      omega
    have ha : st.announced = true := by
      by_contra ha
      rcases h.total_pre ha with ht | ht
      · exact Counter.ofNat_ne_neg_one hlt (by rw [← hx, he, ht])
      · exact Counter.ofNat_ne_zero hc.2.1 (by omega) (by rw [← hx, he, ht])
    have hr : r = n := by
      have hn := h.bound
      rw [← Counter.ofNat_inj (by omega) (by omega), ← hx, he, h.total ha]
    obtain ⟨-, -, hclosing, hclosed, hadded⟩ := hc
    have hst : st = .waiting := by
      cases st with
      | waiting => rfl
      | added => exact absurd hr (Nat.ne_of_lt (hadded rfl))
      | closing => exact absurd rfl hclosing
      | closed => exact absurd rfl hclosed
      | between | offered | offeredLost | pending | lost | tested => exact absurd ha (by simp)
    exact { h with
      control := by simpa using h.control
      counting := by simp
      loadedRecv := by simp
      shutting := fun _ => ⟨hst, hr⟩
      loadedTotal := by simp
      testing := by simp }
  · exact { h with
      control := by simpa using h.control
      counting := by simp
      loadedRecv := by simp
      shutting := by simp
      loadedTotal := by simp
      testing := by simp }

theorem ClosingInv.testTotalCount (h : ClosingInv s st n r fin) {m : ℕ} {rest : List ℕ}
    (hs : s.shutdowns = m :: rest) :
    ∃ st', ClosingInv (if s.proxyConnectMap = false then { s with shutdowns := rest }
      else { s with
        shutdowns := rest
        pc := update s.pc .control (.tested (s.half.totalCount = -1) m) }) st' n r fin := by
  have hst : (st = .offered ∨ st = .pending) ∧ m = n ∧ rest = [] := by
    have hsh := hs.symm.trans h.shutdowns
    cases st <;> simp_all
  obtain ⟨rfl | rfl, rfl, rfl⟩ := hst
  · refine ⟨.offeredLost, ?_⟩
    rw [if_pos (h.unmapped (.inl rfl))]
    exact { h with
      nothing := by simp
      reached := by simp
      half_iff := by simpa using h.half_iff
      fin_imp := fun hf => absurd (h.fin_imp hf).1 (by simp)
      total := by simp
      unmapped := fun _ => h.unmapped (.inl rfl)
      counting := fun hcnt => absurd (h.counting hcnt).1 (by simp)
      shutting := fun hsht => absurd (h.shutting hsht).1 (by simp)
      shutdowns := rfl
      unshut := by simp
      shut := by simp }
  · refine ⟨.tested, ?_⟩
    rw [if_neg (by simp [h.map rfl])]
    exact { h with
      nothing := by simp
      reached := by simp
      half_iff := by simpa using h.half_iff
      fin_imp := fun _ => ⟨rfl, by simp⟩
      total := by simp
      unmapped := by simp
      control := by simp [Stage.Control]
      counting := fun hcnt => ⟨rfl, (h.counting hcnt).2.1, by simp, by simp, by simp⟩
      shutting := fun hsht => absurd (h.shutting hsht).1 (by simp)
      shutdowns := rfl
      unshut := fun _ _ => h.unshut rfl (by simp)
      shut := by simp }

theorem ClosingInv.addTotalCount (h : ClosingInv s st n r fin) {b : Bool} {m : ℕ}
    (hc : s.pc .control = .tested b m)
    (hcross : (if b then Counter.ofNat m else s.half.totalCount + Counter.ofNat m) =
      s.half.recvCount → (s.pc .worker).comparing = false) :
    ClosingInv { s with
        half := { s.half with
          totalCount := if b then Counter.ofNat m else s.half.totalCount + Counter.ofNat m }
        pc := update s.pc .control (.shut .enter) } .added n r fin := by
  have hst : st = .tested := by
    have hctl := h.control
    cases st <;> simp_all [Stage.Control]
  subst hst
  have hbm : b = decide (s.half.totalCount = -1) ∧ m = n := by
    have hctl : s.pc .control = .tested (s.half.totalCount = -1) n := h.control
    simpa [hc] using hctl
  obtain ⟨rfl, rfl⟩ := hbm
  have htotal : (if decide (s.half.totalCount = -1) then Counter.ofNat m
      else s.half.totalCount + Counter.ofNat m) = Counter.ofNat m := by
    rcases h.total_pre (by decide) with ht | ht <;> rw [ht] <;> simp
  rw [htotal] at hcross ⊢
  have hrn : r ≤ m := by
    have := h.incoming
    omega
  -- a worker thread that is still counting has not seen the last byte
  have hw : (s.pc .worker).counting = true → r < m := by
    intro hw
    refine Nat.lt_of_le_of_ne hrn fun he => ?_
    have hcmp := hcross (by rw [h.recv, he])
    rw [ClosePc.comparing_of_counting hw] at hcmp
    exact absurd hcmp (by decide)
  exact { h with
    nothing := by simp
    reached := by simp
    half_iff := by simpa using h.half_iff
    fin_imp := fun _ => ⟨rfl, by simp⟩
    total := fun _ => rfl
    total_pre := by simp
    unmapped := by simp
    control := by simp [Stage.Control]
    counting := fun hcnt => ⟨rfl, (h.counting hcnt).2.1, by simp, by simp, fun _ => hw hcnt⟩
    shutting := fun hsht => absurd (h.shutting hsht).1 (by simp)
    unshut := fun _ _ => h.unshut rfl (by simp)
    shut := by simp }

theorem ClosingInv.freeProxyConn (h : ClosingInv s st n r fin) :
    ClosingInv s.freeProxyConn st n r fin := by
  unfold Closing.freeProxyConn
  split
  · exact h
  · rename_i hstart
    exact { h with
      map := fun hst => absurd (h.start.trans hst) hstart
      unmapped := fun _ => rfl }

theorem ClosingInv.shutTotal (h : ClosingInv s st n r fin) {t : ServerThread}
    (hpc : s.pc t = .shut .enter) :
    ClosingInv { s with pc := update s.pc t (.shut (.loadedTotal s.half.totalCount)) }
      st n r fin := by
  cases t with
  | worker =>
      have hst := h.shutting (by rw [hpc]; rfl)
      exact { h with
        control := by simpa using h.control
        counting := by simp
        loadedRecv := by simp
        shutting := fun _ => hst
        loadedTotal := by simpa using h.total (by simp [hst.1])
        testing := by simp }
  | control =>
      have hst : st = .added := by
        have hctl := h.control
        cases st <;> simp_all [Stage.Control]
      subst hst
      exact { h with control := .inr (by simp [h.total rfl]) }

theorem ClosingInv.shutRecv (h : ClosingInv s st n r fin) {t : ServerThread} {x : Counter}
    (hpc : s.pc t = .shut (.loadedTotal x)) :
    ∃ st', ClosingInv { s with
        pc := update s.pc t (if s.half.recvCount = x then .shut .equal else .idle) } st' n r fin := by
  cases t with
  | worker =>
      obtain ⟨rfl, hr⟩ := h.shutting (by rw [hpc]; rfl)
      refine ⟨.waiting, ?_⟩
      rw [if_pos (by rw [h.recv, hr, h.loadedTotal x hpc])]
      exact { h with
        control := by simpa using h.control
        counting := by simp
        loadedRecv := by simp
        shutting := fun _ => ⟨rfl, hr⟩
        loadedTotal := by simp
        testing := by simp }
  | control =>
      have hst : st = .added ∧ x = Counter.ofNat n := by
        have hctl := h.control
        cases st <;> simp_all [Stage.Control]
      obtain ⟨rfl, rfl⟩ := hst
      have hn := h.bound
      have hi := h.incoming
      have hshut : ∀ {st'}, (s.pc .worker).shutting = true → st' := fun hsht =>
        absurd (h.shutting hsht).1 (by simp)
      rw [h.recv]
      by_cases he : r = n
      · refine ⟨.closing, ?_⟩
        rw [if_pos (by rw [he])]
        exact { h with
          nothing := by simp
          reached := fun _ => he
          half_iff := by simpa using h.half_iff
          fin_imp := fun _ => ⟨rfl, by simp⟩
          unmapped := by simp
          control := by simp [Stage.Control]
          counting := fun hcnt => absurd he (Nat.ne_of_lt ((h.counting hcnt).2.2.2.2 rfl))
          shutting := hshut
          unshut := fun _ _ => h.unshut rfl (by simp)
          shut := by simp }
      · refine ⟨.waiting, ?_⟩
        rw [if_neg (by rwa [Counter.ofNat_inj (by omega) (by omega)])]
        exact { h with
          nothing := by simp
          reached := by simp
          half_iff := by simpa using h.half_iff
          fin_imp := fun _ => ⟨rfl, by simp⟩
          unmapped := by simp
          control := by simp [Stage.Control]
          counting := fun hcnt => ⟨rfl, (h.counting hcnt).2.1, by simp, by simp, by simp⟩
          shutting := hshut
          unshut := fun _ _ => h.unshut rfl (by simp)
          shut := by simp }

/-- When a thread has found the counters equal, all bytes are there and the other thread rests. -/
theorem ClosingInv.of_equal (h : ClosingInv s st n r fin) {t : ServerThread}
    (hpc : s.pc t = .shut .equal) :
    (st = .waiting ∨ st = .closing) ∧ r = n ∧ ∀ t', t' ≠ t → s.pc t' = .idle := by
  cases t with
  | worker =>
      obtain ⟨rfl, hr⟩ := h.shutting (by rw [hpc]; rfl)
      refine ⟨.inl rfl, hr, fun t' ht => ?_⟩
      cases t' with
      | worker => exact absurd rfl ht
      | control => exact h.control
  | control =>
      have hst : st = .closing := by
        have hctl := h.control
        cases st <;> simp_all [Stage.Control]
      subst hst
      refine ⟨.inr rfl, h.reached (.inl rfl), fun t' ht => ?_⟩
      cases t' with
      | worker => exact h.worker_idle
      | control => exact absurd rfl ht

theorem ClosingInv.closeRemote (h : ClosingInv s st n r fin) {t : ServerThread}
    (hpc : s.pc t = .shut .equal) :
    ∃ st' n' r' fin', ClosingInv { s.closeRemote with pc := update s.pc t .idle } st' n' r' fin' := by
  obtain ⟨hst, rfl, hidle⟩ := h.of_equal hpc
  have hopen : st.started = true ∧ st ≠ .closed := by rcases hst with rfl | rfl <;> decide
  have hann : st.announced = true := by rcases hst with rfl | rfl <;> rfl
  have hshut : s.shutdowns = [] := by rcases hst with rfl | rfl <;> exact h.shutdowns
  have hpeer : s.peerSid = s.sid := by rcases hst with rfl | rfl <;> exact h.peerSid
  have hopened := h.opened
  have hunshut := h.unshut hopen.1 hopen.2
  have hin := h.incoming
  have hfin : s.half.halfClose = fin := by
    rw [Bool.eq_iff_iff, h.half_iff]
    simp [hopen.2]
  have hpcs : ∀ t', update s.pc t .idle t' = .idle := by
    intro t'
    by_cases ht : t' = t
    · rw [ht, Function.update_self]
    · rw [Function.update_of_ne ht, hidle t' ht]
  have hfuture : ∀ k, s.sid < k → .fromRemote k ∉ CloseEvent.fromRemote s.sid :: s.log := by
    intro k hk hmem
    rcases List.mem_cons.1 hmem with he | hmem
    · exact absurd (CloseEvent.fromRemote.inj he) (Nat.ne_of_gt hk)
    · exact h.future k hk hmem
  cases fin with
  | true =>
      have hlog : OneClose (.reset s.sid :: .fromRemote s.sid :: s.log) :=
        ⟨by simp, by simp [h.finished rfl], hunshut, h.orderly⟩
      refine ⟨.between, 0, 0, false, ?_⟩
      simp only [Closing.closeRemote, Closing.resetEvent, ProxyConnect.shutdownFromRemote, hfin,
        if_true, Closing.freeProxyConn, ProxyConnect.resetConn, Bool.false_eq_true, if_false]
      exact { h with
        bound := by decide
        incoming := by dsimp only; omega
        nothing := fun _ => rfl
        uncounted := fun _ => rfl
        reached := fun _ => rfl
        start := rfl
        half_iff := by simp
        fin_imp := by simp
        recv := rfl
        total := by simp
        total_pre := fun _ => .inr rfl
        map := by simp
        unmapped := fun _ => rfl
        control := hpcs .control
        counting := by simp [hpcs]
        loadedRecv := by simp [hpcs]
        shutting := by simp [hpcs]
        loadedTotal := by simp [hpcs]
        testing := by simp [hpcs]
        shutdowns := hshut
        peerSid := hpeer
        opened := by simpa using hopened
        future := by simpa using hfuture
        unshut := by simp
        shut := by simp
        finished := by simp
        orderly := hlog }
  | false =>
      have hlog : OneClose (.fromRemote s.sid :: s.log) := ⟨hunshut, h.orderly⟩
      refine ⟨.closed, r, r, false, ?_⟩
      simp only [Closing.closeRemote, Closing.resetEvent, ProxyConnect.shutdownFromRemote, hfin,
        Bool.false_eq_true, if_false, List.nil_append]
      exact { h with
        nothing := by simp
        uncounted := by simp
        reached := fun _ => rfl
        start := h.start.trans hopen.1
        half_iff := by simp
        fin_imp := by simp
        total := fun _ => h.total hann
        total_pre := by simp
        map := fun _ => h.map hopen.1
        unmapped := by simp
        control := hpcs .control
        counting := by simp [hpcs]
        loadedRecv := by simp [hpcs]
        shutting := by simp [hpcs]
        loadedTotal := by simp [hpcs]
        testing := by simp [hpcs]
        shutdowns := hshut
        peerSid := hpeer
        opened := by simpa using hopened.trans (if_pos ⟨hopen.1, rfl⟩)
        future := hfuture
        unshut := by simp
        shut := by simp
        finished := by simp
        orderly := hlog }

theorem ClosingInv.closeLocal (h : ClosingInv s st n r fin) {k : ℕ}
    (hw : s.pc .worker = .idle) (hk : k ∈ s.opened) :
    ∃ st' n' r' fin',
      ClosingInv (Closing.closeLocal { s with opened := s.opened.erase k } k) st' n' r' fin' := by
  have hopened := h.opened
  split at hopened
  · rename_i hc
    obtain ⟨hstarted, rfl⟩ := hc
    obtain rfl : k = s.sid := by simpa [hopened] using hk
    have herase : s.opened.erase s.sid = [] := by simp [hopened]
    have hfin : s.half.halfClose = decide (st = .closed) := by
      rw [Bool.eq_iff_iff, h.half_iff]
      simp
    simp only [Closing.closeLocal, h.map hstarted, herase, Bool.true_eq_false, if_false,
      Closing.resetEvent, ProxyConnect.shutdownFromLocal, hfin]
    by_cases hst : st = .closed
    · subst hst
      have hin := h.incoming
      have hrn : r = n := h.reached (.inr rfl)
      have hlog : OneClose (.reset s.sid :: .fromLocal s.sid :: s.log) :=
        ⟨by simp [h.shut rfl], by simp, h.orderly⟩
      refine ⟨.between, 0, 0, false, ?_⟩
      simp only [decide_true, if_true, ProxyConnect.resetConn]
      exact { h with
        bound := by decide
        incoming := by dsimp only; omega
        nothing := fun _ => rfl
        uncounted := fun _ => rfl
        reached := fun _ => rfl
        start := rfl
        half_iff := by simp
        fin_imp := by simp
        recv := rfl
        total := by simp
        total_pre := fun _ => .inr rfl
        map := by simp
        unmapped := by simp
        counting := by simp [hw]
        loadedRecv := by simp [hw]
        shutting := by simp [hw]
        loadedTotal := by simp [hw]
        testing := by simp [hw]
        opened := by simp
        future := by simpa using h.future
        unshut := by simp
        shut := by simp
        finished := by simp
        orderly := hlog }
    · have hlog : OneClose (.fromLocal s.sid :: s.log) := h.orderly
      refine ⟨st, n, r, true, ?_⟩
      simp only [hst, decide_false, Bool.false_eq_true, if_false, List.nil_append]
      exact { h with
        half_iff := by simp
        fin_imp := fun _ => ⟨hstarted, hst⟩
        map := fun _ => rfl
        unmapped := fun hun => absurd hstarted (by rcases hun with rfl | rfl <;> simp)
        opened := by simp
        future := by simpa using h.future
        unshut := by simpa using h.unshut
        shut := fun hcl => absurd hcl hst
        finished := by simp
        orderly := hlog }
  · rw [hopened] at hk
    exact absurd hk (by simp)

/-- **One step preserves the invariant.** -/
theorem ClosingInv.step (h : ClosingInv s st n r fin) {a : CloseAct} (hfit : SessionFits a)
    (hcross : NoCross s a) (hs : s.step a = some s') :
    ∃ st' n' r' fin', ClosingInv s' st' n' r' fin' := by
  cases a with
  | peerStart m =>
      simp only [Closing.step, Option.ite_none_right_eq_some, Option.some.injEq] at hs
      obtain ⟨⟨hmap, hstart, hsid⟩, rfl⟩ := hs
      exact ⟨_, _, _, _, h.peerStart hfit hmap hstart hsid⟩
  | bind fd =>
      simp only [Closing.step, Option.ite_none_right_eq_some, Option.some.injEq] at hs
      obtain ⟨⟨hw, hstart, hsid⟩, rfl⟩ := hs
      obtain ⟨st', h'⟩ := h.bind hw hstart hsid
      exact ⟨_, _, _, _, h'⟩
  | addRecvCount m =>
      simp only [Closing.step, Option.ite_none_right_eq_some, Option.some.injEq] at hs
      obtain ⟨⟨hw, hstart, h0, hm⟩, rfl⟩ := hs
      exact ⟨_, _, _, _, h.addRecvCount hw hstart h0 hm hcross⟩
  | getRecvCount =>
      simp only [Closing.step, Option.ite_none_right_eq_some, Option.some.injEq] at hs
      obtain ⟨hw, rfl⟩ := hs
      exact ⟨_, _, _, _, h.getRecvCount hw⟩
  | getTotalCount =>
      simp only [Closing.step] at hs
      split at hs
      · obtain rfl := Option.some.inj hs
        exact ⟨_, _, _, _, h.getTotalCount ‹_›⟩
      · exact absurd hs (by simp)
  | shutdownFromPublic k =>
      simp only [Closing.step, Option.ite_none_right_eq_some, Option.some.injEq] at hs
      obtain ⟨⟨hw, hk⟩, rfl⟩ := hs
      exact h.closeLocal hw hk
  | testTotalCount =>
      simp only [Closing.step] at hs
      split at hs
      · rename_i hsh
        rw [← apply_ite some] at hs
        obtain rfl := Option.some.inj hs
        obtain ⟨st', h'⟩ := h.testTotalCount hsh
        exact ⟨_, _, _, _, h'⟩
      · exact absurd hs (by simp)
  | addTotalCount =>
      simp only [Closing.step] at hs
      split at hs
      · rename_i hc
        obtain rfl := Option.some.inj hs
        exact ⟨_, _, _, _, h.addTotalCount hc (hcross _ _ hc)⟩
      · exact absurd hs (by simp)
  | freeProxyConn =>
      simp only [Closing.step, Option.ite_none_right_eq_some, Option.some.injEq] at hs
      obtain ⟨-, rfl⟩ := hs
      exact ⟨_, _, _, _, h.freeProxyConn⟩
  | shutTotal t =>
      simp only [Closing.step, Option.ite_none_right_eq_some, Option.some.injEq] at hs
      obtain ⟨hpc, rfl⟩ := hs
      exact ⟨_, _, _, _, h.shutTotal hpc⟩
  | shutRecv t =>
      simp only [Closing.step] at hs
      split at hs
      · obtain rfl := Option.some.inj hs
        obtain ⟨st', h'⟩ := h.shutRecv ‹_›
        exact ⟨_, _, _, _, h'⟩
      · exact absurd hs (by simp)
  | shutdownFromRemote t =>
      simp only [Closing.step, Option.ite_none_right_eq_some, Option.some.injEq] at hs
      obtain ⟨hpc, rfl⟩ := hs
      exact h.closeRemote hpc

end Steps

/-! ### Runs -/

theorem closingInv_of_reach {s : Closing}
    (hr : closingLts.Reach (fun s a => SessionFits a ∧ NoCross s a) s) :
    ∃ st n r fin, ClosingInv s st n r fin :=
  hr.invariant (I := fun s => ∃ st n r fin, ClosingInv s st n r fin) ⟨_, _, _, _, closingInv_init⟩
    fun _ _ _ _ ⟨_, _, _, _, h⟩ hg hs => h.step hg.1 hg.2 hs

/-- **A session is shut down once.**  In a run whose sessions fit the counters and in which no byte
is counted, and no total announced, that makes the counters equal while the other thread is about to
compare them, `shutdownFromRemote` runs at most once in each session, and a session is reset only
after the remote side and its public connection have shut it down. -/
theorem remote_once {as : List CloseAct} {s : Closing}
    (he : closingLts.exec closingLts.init as = some s)
    (hg : closingLts.AllSteps (fun s a => SessionFits a ∧ NoCross s a) closingLts.init as) :
    OneClose s.log := by
  obtain ⟨_, _, _, _, h⟩ := closingInv_of_reach (.of_allSteps .init he hg)
  exact h.orderly

/-- Two sessions, the first shut down by the worker thread and the second by the control thread. -/
def closeTwice : List CloseAct :=
  [.peerStart 2, .bind 7, .addRecvCount 1, .getRecvCount, .getTotalCount, .testTotalCount,
    .addTotalCount, .shutTotal .control, .shutRecv .control, .addRecvCount 1, .getRecvCount,
    .getTotalCount, .shutTotal .worker, .shutRecv .worker, .shutdownFromRemote .worker,
    .shutdownFromPublic 1, .freeProxyConn, .peerStart 0, .bind 8, .testTotalCount, .addTotalCount,
    .shutTotal .control, .shutRecv .control, .shutdownFromPublic 2, .shutdownFromRemote .control]

theorem remote_once_two_sessions :
    OneClose ((closingLts.exec closingLts.init closeTwice).get (by decide +kernel)).log :=
  @remote_once closeTwice _ (Option.some_get _).symm (by decide +kernel)

/-- The only byte of a session is counted while the control thread is about to compare: both
threads shut the session down, and it is reset while its public client is still connected. -/
theorem remote_twice :
    ¬ ∀ (as : List CloseAct) (s : Closing),
      closingLts.exec closingLts.init as = some s → OneClose s.log := by
  intro h
  have hlog := h [.peerStart 1, .bind 7, .testTotalCount, .addTotalCount, .addRecvCount 1,
    .getRecvCount, .getTotalCount, .shutTotal .worker, .shutRecv .worker,
    .shutdownFromRemote .worker, .shutTotal .control, .shutRecv .control,
    .shutdownFromRemote .control] _ (Option.some_get (by decide +kernel)).symm
  exact absurd hlog (by decide +kernel)

/-! ### What a crossing leads to -/

section Cross

variable {s s' : Closing} {st : Stage} {n r : ℕ} {fin : Bool}

/-- The thread compares values it can read again. -/
structure Closing.Fresh (s : Closing) (t : ServerThread) : Prop where
  comparing : (s.pc t).comparing = true
  counting : (s.pc t).counting = true → t = .worker
  loadedRecv : ∀ x, s.pc t = .loadedRecv x → x = s.half.recvCount
  loadedTotal : ∀ x, s.pc t = .shut (.loadedTotal x) → x = s.half.totalCount

/-- A thread that compares equal counters gets as far as `shutdownFromRemote`. -/
theorem Closing.Fresh.reaches_equal {t : ServerThread} (h : s.Fresh t)
    (he : s.half.recvCount = s.half.totalCount) :
    ∃ as, closingLts.exec s as = some { s with pc := update s.pc t (.shut .equal) } := by
  cases hpc : s.pc t with
  | idle => exact absurd h.comparing (by rw [hpc]; decide)
  | tested b m => exact absurd h.comparing (by simp [hpc, ClosePc.comparing])
  | counted =>
      obtain rfl := h.counting (by rw [hpc]; rfl)
      exact ⟨[.getRecvCount, .getTotalCount, .shutTotal .worker, .shutRecv .worker],
        by simp [Lts.exec_cons, closingLts, Closing.step, hpc, he]⟩
  | loadedRecv x =>
      obtain rfl := h.counting (by rw [hpc]; rfl)
      obtain rfl := h.loadedRecv x hpc
      exact ⟨[.getTotalCount, .shutTotal .worker, .shutRecv .worker],
        by simp [Lts.exec_cons, closingLts, Closing.step, hpc, he]⟩
  | shut pc =>
      cases pc with
      | enter =>
          exact ⟨[.shutTotal t, .shutRecv t],
            by simp [Lts.exec_cons, closingLts, Closing.step, hpc, he]⟩
      | loadedTotal x =>
          obtain rfl := h.loadedTotal x hpc
          exact ⟨[.shutRecv t], by simp [Lts.exec_cons, closingLts, Closing.step, hpc, he]⟩
      | equal => exact absurd h.comparing (by rw [hpc]; decide)

/-- An event that is older than a shutdown of the same session by the remote side. -/
theorem OneClose.not_mem {k : ℕ} {l' : List CloseEvent} : ∀ {l : List CloseEvent},
    OneClose (l ++ .fromRemote k :: l') → .fromRemote k ∉ l'
  | [], h => h.1
  | .fromRemote _ :: _, h => not_mem h.2
  | .fromLocal _ :: l, h => not_mem (l := l) h
  | .reset _ :: _, h => not_mem h.2.2

@[simp] theorem Closing.freeProxyConn_log (s : Closing) : s.freeProxyConn.log = s.log := by
  unfold freeProxyConn
  split <;> rfl

@[simp] theorem Closing.freeProxyConn_sid (s : Closing) : s.freeProxyConn.sid = s.sid := by
  unfold freeProxyConn
  split <;> rfl

@[simp] theorem Closing.closeRemote_log (s : Closing) :
    s.closeRemote.log = s.resetEvent ++ .fromRemote s.sid :: s.log := by
  simp only [closeRemote]
  split <;> simp

@[simp] theorem Closing.closeRemote_sid (s : Closing) : s.closeRemote.sid = s.sid := by
  simp only [closeRemote]
  split <;> simp

/-- Two threads that have both found the counters equal shut the session down twice. -/
theorem Closing.both_equal (hw : s.pc .worker = .shut .equal) (hc : s.pc .control = .shut .equal) :
    ∃ s', closingLts.exec s [.shutdownFromRemote .worker, .shutdownFromRemote .control] = some s' ∧
      ¬ OneClose s'.log := by
  let s₁ : Closing := { s.closeRemote with pc := update s.pc .worker .idle }
  refine ⟨{ s₁.closeRemote with pc := update s₁.pc .control .idle },
    by simp [Lts.exec_cons, closingLts, Closing.step, hw, hc, s₁], fun h => ?_⟩
  have hlog : s₁.closeRemote.log =
      s₁.resetEvent ++ .fromRemote s.sid :: (s.resetEvent ++ .fromRemote s.sid :: s.log) := by
    simp [s₁]
  rw [hlog] at h
  exact OneClose.not_mem h (by simp)

/-- After a crossing both threads are about to find the counters equal. -/
theorem ClosingInv.fresh_of_cross (h : ClosingInv s st n r fin) {a : CloseAct}
    (hc : ¬ NoCross s a) (hs : s.step a = some s') :
    (∀ t, s'.Fresh t) ∧ s'.half.recvCount = s'.half.totalCount := by
  cases a with
  | addRecvCount m =>
      simp only [NoCross, not_forall] at hc
      obtain ⟨he, hcmp⟩ := hc
      simp only [Closing.step, Option.ite_none_right_eq_some, Option.some.injEq] at hs
      obtain ⟨-, rfl⟩ := hs
      have hst : st = .added := by
        have hctl := h.control
        cases st <;> simp_all [Stage.Control, ClosePc.comparing, ShutPc.comparing]
      subst hst
      refine ⟨fun t => ?_, he⟩
      cases t with
      | worker =>
          exact { comparing := by simp [ClosePc.comparing]
                  counting := fun _ => rfl
                  loadedRecv := by simp
                  loadedTotal := by simp }
      | control =>
          have hctl : s.pc .control = .shut .enter ∨
              s.pc .control = .shut (.loadedTotal (Counter.ofNat n)) := h.control
          have htotal := h.total rfl
          exact { comparing := by simpa using hcmp
                  counting := by rcases hctl with hctl | hctl <;> simp [hctl, ClosePc.counting]
                  loadedRecv := by rcases hctl with hctl | hctl <;> simp [hctl]
                  loadedTotal := by rcases hctl with hctl | hctl <;> simp [hctl, htotal] }
  | addTotalCount =>
      simp only [NoCross, not_forall] at hc
      obtain ⟨b, m, hpc, he, hcmp⟩ := hc
      simp only [Closing.step, hpc, Option.some.injEq] at hs
      subst hs
      have hst : st = .tested := by
        have hctl := h.control
        cases st <;> simp_all [Stage.Control]
      subst hst
      refine ⟨fun t => ?_, he.symm⟩
      cases t with
      | worker =>
          -- a worker thread in `shutdownPublicConn` has a session that was announced before
          have hshut : ∀ pc, s.pc .worker ≠ .shut pc := fun pc hw =>
            absurd (h.shutting (by rw [hw]; rfl)).1 (by decide)
          exact { comparing := by simpa using hcmp
                  counting := fun _ => rfl
                  loadedRecv := fun x hx => (h.loadedRecv x (by simpa using hx)).trans h.recv.symm
                  loadedTotal := fun x hx => absurd (by simpa using hx) (hshut (.loadedTotal x)) }
      | control =>
          exact { comparing := by simp [ClosePc.comparing, ShutPc.comparing]
                  counting := by simp [ClosePc.counting]
                  loadedRecv := by simp
                  loadedTotal := by simp }
  | _ => exact absurd trivial hc

/-- **A crossing can end in a second shutdown.**  After a step out of a reachable state that makes
the counters equal while the other thread is about to compare them, the two threads alone can go on
to shut the session down twice. -/
theorem cross_closes_twice (h : ClosingInv s st n r fin) {a : CloseAct} (hc : ¬ NoCross s a)
    (hs : s.step a = some s') :
    ∃ as s'', closingLts.exec s' as = some s'' ∧ ¬ OneClose s''.log := by
  obtain ⟨hfresh, he⟩ := h.fresh_of_cross hc hs
  obtain ⟨as, hw⟩ := (hfresh .worker).reaches_equal he
  have hctl : Closing.Fresh { s' with pc := update s'.pc .worker (.shut .equal) } .control := by
    have hc := hfresh .control
    exact { comparing := by simpa using hc.comparing
            counting := by simpa using hc.counting
            loadedRecv := by simpa using hc.loadedRecv
            loadedTotal := by simpa using hc.loadedTotal }
  obtain ⟨bs, hb⟩ := hctl.reaches_equal he
  obtain ⟨s'', hs'', hlog⟩ := Closing.both_equal
    (s := { s' with pc := update (update s'.pc .worker (.shut .equal)) .control (.shut .equal) })
    (by simp) (by simp)
  exact ⟨as ++ (bs ++ [.shutdownFromRemote .worker, .shutdownFromRemote .control]), s'',
    by rw [Lts.exec_append, hw, Option.bind_some, Lts.exec_append, hb, Option.bind_some, hs''], hlog⟩

end Cross

end ProxySocket
