/-
**The relation between the program and the session protocol.**

`Rel` says, component by component, which state of both programs and of the four channels belongs
to a state of the protocol: what the flags and counters of a half show, what the two streams and
the two control channels carry, where the server tunnel keeps the connection.  `EventOk` says which
events the protocol permits in a state.

Main definitions:

* `Rel` — **the simulation relation**;
* `EventOk` — the events of a state of the protocol;
* `Matched` — what a step of the program owes: protocol steps that lead to a related state, and
  permitted events.

Main results:

* `Rel.srvComplete_iff`, `Rel.cliComplete_iff` — **below the wrap the comparison of two 32-bit
  counters decides completeness**;
* `Rel.shutdownPublicConn`, `Rel.shutdonwLocalConn` — the two functions that compare refine the
  comparisons of the protocol.
-/

import ProxySocket.Pair
import ProxySocket.Session

set_option relaxedAutoImplicit false
set_option autoImplicit false

namespace ProxySocket

/-- What `total_count_` shows in the session number `sid` before an announcement is applied. -/
def noTotal (sid : ℕ) : Counter := if sid ≤ 1 then -1 else 0

/-- The bytes of a request. -/
def reqLen : ℕ := 24

/-- A request is in the stream or in the client's pipe. -/
def Session.ReqPresent (t : Session) : Prop :=
  t.reqQueued = true ∨ t.swallowed = true ∧ t.overrun = false

/-- The message that announces the session number `sid`. -/
def Announces (sid : ℕ) (m : ProxyMsg) : Prop :=
  sid = 1 ∧ m = .proxyMetaSet ∨ 1 < sid ∧ ∃ fd, m = .proxyConnectRsp fd

/-- The bound on the bytes of a session and direction: below it a counter shows neither `-1` nor a
number twice. -/
def byteBound : ℕ := 2 ^ 32 - 1

theorem Counter.ofNat_ne_noTotal {n sid : ℕ} (h₀ : 0 < n) (h : n < 2 ^ 32 - 1) :
    Counter.ofNat n ≠ noTotal sid := by
  unfold noTotal
  split
  · exact Counter.ofNat_ne_neg_one h
  · exact Counter.ofNat_ne_zero h₀ (by omega)

theorem Counter.toNat_ofNat {n : ℕ} (h : n < byteBound) : (Counter.ofNat n).toNat = n :=
  Counter.toNat_ofNat_eq_iff.2 (by unfold byteBound at h; omega)

/-- Applied to a half that knows no total yet, an announcement becomes the total. -/
theorem addTotalCount_noTotal (sid : ℕ) (c : Counter) : addTotalCount (noTotal sid) c = c := by
  unfold addTotalCount noTotal
  split
  · simp
  · simp

/-- **The simulation relation.**  `fd` is the public descriptor the connection was created for. -/
structure Rel (fd : ℕ) (s : Pair) (t : Session) : Prop where
  srvSid : s.srvSid = t.srvSid
  cliSid : s.localFds.length = t.cliSid
  wroteDown : s.wroteDown = t.down.wrote
  wroteUp : s.wroteUp = t.up.wrote
  /-- the server's half -/
  srvStart : s.srv.start = true ↔ t.place = .running
  srvHalf : s.srv.halfClose = true ↔
    t.place = .running ∧ (t.down.closed = true ∨ t.up.done = true)
  srvRecv : t.place = .running → s.srv.recvCount = .ofNat t.up.recv
  srvRecv' : t.place ≠ .running → s.srv.recvCount = 0
  srvTotal : t.place = .running →
    s.srv.totalCount = if t.up.ann = .applied then .ofNat t.up.wrote else noTotal t.srvSid
  srvTotal' : t.place ≠ .running → s.srv.totalCount = noTotal (t.srvSid + 1)
  srvConn : t.place = .running → ∃ c, s.srv.conn = some c ∧ c.closed = t.down.closed ∧
    c.tranCount = .ofNat t.down.wrote
  srvConn' : t.place ≠ .running → ∀ c, s.srv.conn = some c → c.closed = true
  srvPipe' : t.place ≠ .running → s.srv.pipe = []
  /-- the server's tunnel -/
  map : s.proxyConnectMap = true ↔ t.place = .running ∨ t.place = .awaiting
  wait : s.waitProxyConnectMap = true ↔ t.place = .waiting
  free : s.freeProxyConnects = if t.place = .free then 1 else 0
  unhandle : s.unhandleFds = if t.srvSid = 0 then [fd] else []
  /-- the client's half -/
  cliStart : s.cli.start = true ↔ t.phase = .running
  cliHalf : s.cli.halfClose = true ↔
    t.phase = .running ∧ (t.up.closed = true ∨ t.cliSid = t.srvSid ∧ t.down.done = true)
  cliRecv : t.phase = .running → t.cliSid = t.srvSid →
    s.cli.recvCount = .ofNat (t.down.recv + if t.overrun then reqLen else 0)
  cliRecv' : t.phase ≠ .running ∨ t.cliSid ≠ t.srvSid → s.cli.recvCount = 0
  cliTotal : t.phase ≠ .idle → s.cli.totalCount =
    if t.cliSid = t.srvSid ∧ t.down.ann = .applied then .ofNat t.down.wrote else noTotal t.cliSid
  cliTotal' : t.phase = .idle → s.cli.totalCount = noTotal (t.cliSid + 1)
  cliConn : t.phase = .running → ∃ c, s.cli.conn = some c ∧ c.closed = t.up.closed ∧
    c.tranCount = .ofNat t.up.wrote
  cliConn' : t.phase ≠ .running → ∀ c, s.cli.conn = some c → c.closed = true
  cliConn2fd : t.phase = .running → s.localFds.getLast? = some s.cli.conn2fd
  cliConn2fd' : t.phase ≠ .running → s.cli.conn2fd = 0
  cliPipe' : t.phase ≠ .running → t.swallowed = false → s.cli.pipe = []
  /-- the client's tunnel, and the announced session -/
  cliMap : s.cliProxyConnectMap = true ↔ 0 < t.cliSid
  pending : t.phase = .announced → ∃ localFd, 0 < localFd ∧
    s.localFds.getLast? = some localFd ∧
    s.pending = some (if t.cliSid = 1 then .main else .worker, { fd := localFd })
  pending' : t.phase ≠ .announced → s.pending = none
  /-- the control channels -/
  toSrv : s.toSrv = (if t.freeOld then [.freeConnReq] else []) ++
    (if t.up.ann = .inFlight then [.shutdownPeerConn (.ofNat t.up.wrote)] else []) ++
    (if t.freeNew then [.freeConnReq] else [])
  toCli : s.toCli = (if t.cliSid = 0 then [.notifyClient] else []) ++
    (if t.down.ann = .inFlight then [.shutdownPeerConn (.ofNat t.down.wrote)] else [])
  /-- the stream towards the server -/
  upLine : t.cliSid = t.srvSid → ∃ bs, bs.length + t.up.recv = t.up.wrote ∧
    s.srv.pipe ++ s.up = raws t.cliSid bs
  upAhead : t.cliSid = t.srvSid + 1 → ∃ bs m, bs.length = t.up.wrote ∧
    s.up = .frame m :: raws t.cliSid bs ∧ Announces t.cliSid m
  /-- the stream towards the client -/
  downLine : ∃ bs req, bs.length + t.down.recv = t.down.wrote ∧
    s.cli.pipe ++ (s.down ++ s.srv.buf) = raws t.srvSid bs ++ req ∧
    (t.ReqPresent ∧ (∃ fd, req = [.frame (.proxyConnectReq fd)]) ∨ ¬ t.ReqPresent ∧ req = [])
  cliPipe : t.swallowed = false → ∃ bs, s.cli.pipe = raws t.srvSid bs
  swallowed : t.swallowed = true → s.down = [] ∧ s.srv.buf = []
  buf : s.srv.buf = [] ∨ t.reqQueued = true ∧ ∃ fd, s.srv.buf = [.frame (.proxyConnectReq fd)]

/-- Nothing but bytes of the session can reach the client's running half. -/
def Session.Clean (t : Session) : Prop :=
  t.swallowed = false ∧ (t.phase = .running → t.reqQueued = false)

/-- The client's counters tell the numbers of this state apart, also when the bytes of a request may
be counted. -/
def Session.Fits (t : Session) : Prop :=
  t.down.wrote < byteBound ∧ (t.Clean ∨ t.down.wrote < byteBound - reqLen)

theorem Session.Fits.of_clean {t t' : Session} (h : t.Fits) (hd : t'.down = t.down)
    (hc : t.Clean → t'.Clean) : t'.Fits := by
  unfold Fits
  rw [hd]
  exact ⟨h.1, h.2.imp_left hc⟩

/-- The events the protocol permits in the state `t`, where `fds` are the local descriptors of the
sessions announced so far. -/
def EventOk (t : Session) (fds : List ℕ) : Event → Prop
  | .cliRead start conn2fd (.raw sid _) => start = true ∧ fds[sid - 1]? = some conn2fd
  | .cliRead start _ (.frame (.proxyConnectReq _)) =>
      t.reqQueued = true ∧ (start = true → t.phase = .running)
  | .cliRead _ _ (.frame _) => False
  | .spliced .server sid c => ∃ b, c = .raw sid b
  | .spliced .client sid c => t.Clean → ∃ b, c = .raw sid b
  | .remoteShut .server _ _ => True
  | .remoteShut .client conn2fd sid => fds[sid - 1]? = some conn2fd
  | .reset .server pipe recv wrote => pipe = [] ∧ recv.toNat = wrote
  | .reset .client pipe recv wrote => t.Clean → pipe = [] ∧ recv.toNat = wrote

/-- What a step from `s` to `s'` owes, when `s` is related to `t`: steps of the protocol from `t` to
a state that is related to `s'`, and permitted events. -/
def Matched (early : Bool) (fd : ℕ) (s : Pair) (t : Session) (s' : Pair) : Prop :=
  (∃ t', Relation.ReflTransGen (Session.Step early) t t' ∧ Rel fd s' t') ∧
    ∃ evs, s'.log = s.log ++ evs ∧ ∀ e ∈ evs, EventOk t s'.localFds e

/-- One step of the protocol, and no event. -/
theorem Matched.step {early : Bool} {fd : ℕ} {s s' : Pair} {t t' : Session}
    (hs : Session.Step early t t') (hr : Rel fd s' t') (hl : s'.log = s.log) :
    Matched early fd s t s' :=
  ⟨⟨t', .single hs, hr⟩, [], by rw [hl, List.append_nil], by simp⟩

/-- No step of the protocol, and no event. -/
theorem Matched.stay {early : Bool} {fd : ℕ} {s s' : Pair} {t : Session} (hr : Rel fd s' t)
    (hl : s'.log = s.log) : Matched early fd s t s' :=
  ⟨⟨t, .refl, hr⟩, [], by rw [hl, List.append_nil], by simp⟩

/-! ### The first state -/

theorem rel_init (fd : ℕ) : Rel fd (Pair.init fd) {} := by
  constructor <;> simp [Pair.init, noTotal, Session.ReqPresent]

/-! ### Comparing counters -/

namespace Rel

variable {fd : ℕ} {s : Pair} {t : Session}

/-- The log is history. -/
theorem withLog (h : Rel fd s t) (l : List Event) : Rel fd { s with log := l } t := { h with }

/-- **The server's comparison.**  Once a byte has arrived or the announcement was applied, the two
counters of the running server half agree exactly when all announced bytes have arrived. -/
theorem srvComplete_iff (h : Rel fd s t) (hi : t.Inv) (hp : t.place = .running)
    (hb : t.up.wrote < byteBound) (hr : 0 < t.up.recv ∨ t.up.ann = .applied) :
    s.srv.recvCount = s.srv.totalCount ↔ t.SrvComplete := by
  have hle := hi.up.recv_le
  unfold byteBound at hb
  rw [h.srvRecv hp, h.srvTotal hp]
  unfold Session.SrvComplete
  split
  · rename_i ha
    rw [Counter.ofNat_inj (by omega) (by omega)]
    exact ⟨fun he => ⟨ha, he⟩, fun hc => hc.2⟩
  · rename_i ha
    have hpos : 0 < t.up.recv := hr.resolve_right ha
    exact ⟨fun he => absurd he (Counter.ofNat_ne_noTotal hpos (by omega)), fun hc => absurd hc.1 ha⟩

/-- **The client's comparison**, in an announced or running session. -/
theorem cliComplete_iff (h : Rel fd s t) (hi : t.Inv) (hp : t.phase = .running)
    (hs : t.cliSid = t.srvSid) (hb : t.Fits)
    (hr : 0 < t.down.recv ∨ t.down.ann = .applied ∨ t.overrun = true) :
    s.cli.totalCount = s.cli.recvCount ↔ t.CliComplete := by
  have hle := hi.down.recv_le
  have ho := hi.over_run
  have hlt := hb.1
  unfold byteBound at hlt
  rw [h.cliRecv hp hs, h.cliTotal (by simp [hp])]
  unfold Session.CliComplete
  cases hov : t.overrun with
  | false =>
      by_cases ha : t.down.ann = .applied
      · rw [if_pos ⟨hs, ha⟩, if_neg (by decide), Nat.add_zero,
          Counter.ofNat_inj (by omega) (by omega)]
        exact ⟨fun he => ⟨ha, he.symm, rfl⟩, fun hc => hc.2.1.symm⟩
      · rw [if_neg (fun hc => ha hc.2), if_neg (by decide), Nat.add_zero]
        have hpos : 0 < t.down.recv := hr.resolve_right (by simp [ha, hov])
        exact ⟨fun he => absurd he.symm (Counter.ofNat_ne_noTotal hpos (by omega)),
          fun hc => absurd hc.1 ha⟩
  | true =>
      -- behind the bytes of a request the counter is past every announced total
      obtain ⟨hsw, -, hrec, -⟩ := ho hov
      have hsum : t.down.wrote < byteBound - reqLen := hb.2.resolve_left fun hc => by
        rw [hc.1] at hsw
        exact absurd hsw (by decide)
      unfold byteBound at hsum
      refine ⟨fun he => ?_, fun hc => absurd hc.2.2 (by decide)⟩
      rw [if_pos rfl] at he
      unfold reqLen at he hsum
      split at he
      · rw [Counter.ofNat_inj (by omega) (by omega)] at he
        omega
      · exact absurd he.symm (Counter.ofNat_ne_noTotal (by omega) (by omega))

/-! ### The streams and the pipes -/

/-- Without a request queued, the output buffer of the server half is empty. -/
theorem buf_nil (h : Rel fd s t) (hq : t.reqQueued = false) : s.srv.buf = [] := by
  rcases h.buf with hb | ⟨hr, -⟩
  · exact hb
  · rw [hq] at hr
    exact absurd hr (by decide)

theorem not_reqPresent (hq : t.reqQueued = false) (hw : t.swallowed = false) :
    ¬ t.ReqPresent := by
  rintro (hr | ⟨hs, -⟩)
  · rw [hq] at hr
    exact absurd hr (by decide)
  · rw [hw] at hs
    exact absurd hs (by decide)

/-- Nothing of an older session is left in the stream towards the client once a new session is
announced. -/
theorem down_of_ahead (h : Rel fd s t) (hi : t.Inv) (hah : t.cliSid = t.srvSid + 1) :
    s.cli.pipe = [] ∧ s.down = [] ∧ s.srv.buf = [] := by
  obtain ⟨-, -, hq, hw, -, -, -, -, hdone⟩ := hi.ahead hah
  obtain ⟨bs, req, hlen, hline, hreq⟩ := h.downLine
  obtain rfl : req = [] := (hreq.resolve_left fun hc => not_reqPresent hq hw hc.1).2
  have hbs : bs = [] := by
    rcases Nat.eq_zero_or_pos t.srvSid with h0 | hpos
    · have hd := hi.freshDown h0
      rw [hd] at hlen
      exact List.eq_nil_of_length_eq_zero (by simp only at hlen; omega)
    · have hrec := (hi.down.done_imp (hdone hpos)).2
      exact List.eq_nil_of_length_eq_zero (by omega)
  rw [hbs] at hline
  simpa using hline

/-- Nothing reaches a server half that serves no session, unless a session is announced. -/
theorem up_nil (h : Rel fd s t) (hi : t.Inv) (hp : t.place ≠ .running) (hs : t.cliSid = t.srvSid) :
    s.up = [] := by
  obtain ⟨bs, hlen, hline⟩ := h.upLine hs
  have hbs : bs = [] := by
    rcases Nat.eq_zero_or_pos t.srvSid with h0 | hpos
    · have hu := hi.freshUp (by omega)
      rw [hu] at hlen
      exact List.eq_nil_of_length_eq_zero (by simp only at hlen; omega)
    · have hover : t.place = .awaiting ∨ t.place = .free ∨ t.place = .waiting := by
        cases hpl : t.place with
        | unclaimed => exact absurd (hi.unclaimed_iff.1 hpl) (by omega)
        | running => exact absurd hpl hp
        | awaiting => exact .inl rfl
        | free => exact .inr (.inl rfl)
        | waiting => exact .inr (.inr rfl)
      have hrec := (hi.up.done_imp ((hi.ended hover).2 hs)).2
      exact List.eq_nil_of_length_eq_zero (by omega)
  rw [hbs] at hline
  exact (List.append_eq_nil_iff.1 hline).2

/-- The pipe of a server half to which all bytes have come is empty. -/
theorem srvPipe_of_complete (h : Rel fd s t) (hs : t.cliSid = t.srvSid)
    (hrec : t.up.recv = t.up.wrote) : s.srv.pipe = [] := by
  obtain ⟨bs, hbs, hline⟩ := h.upLine hs
  obtain rfl : bs = [] := List.eq_nil_of_length_eq_zero (by omega)
  exact (List.append_eq_nil_iff.1 hline).1

/-- The pipe of a client half to which all bytes have come is empty, unless a request was taken for
bytes of the session. -/
theorem cliPipe_of_complete (h : Rel fd s t) (hw : t.swallowed = false)
    (hrec : t.down.recv = t.down.wrote) : s.cli.pipe = [] := by
  obtain ⟨ps, hps⟩ := h.cliPipe hw
  obtain ⟨bs, req, hlen, hline, hreq⟩ := h.downLine
  obtain rfl : bs = [] := List.eq_nil_of_length_eq_zero (by omega)
  rw [raws_nil, List.nil_append, hps] at hline
  rcases hreq with ⟨-, f, rfl⟩ | ⟨-, rfl⟩
  · cases ps with
    | nil => simp [hps]
    | cons b bs => exact absurd (List.cons.inj hline).1 (by simp)
  · exact hps ▸ (List.append_eq_nil_iff.1 hline).1

end Rel

end ProxySocket
