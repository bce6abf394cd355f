/-
**When a half takes its session for finished.**

After every splice `handleRead` compares the number of bytes it has forwarded in this session with
the announced total, and closes the connection of the session when they are equal.  Both are
counters that wrap, and before the announcement the second one shows `-1` on a new connection and
`0` on one that was reset: two numbers that a long session reaches as well.

Main definitions:

* `SessionRun`, `sessionCount` — a half that serves one session after the other, with the true
  numbers of bytes;
* `ClosesRight` — a call of `handleRead` closes only a session that is finished;
* `NoWrap` — the condition on the numbers.

Main results:

* `SessionRun.Inv` — the counters show the true numbers, modulo `2 ^ 32`;
* `handleRead_closes_right_iff` — **when sessions are closed only at their end**.
-/

import ProxySocket.Lts
import ProxySocket.ProxyConnect

set_option relaxedAutoImplicit false
set_option autoImplicit false

namespace ProxySocket

/-! ### The sessions of one half -/

/-- A `ProxyConnect` with the history of the session it serves. -/
structure SessionRun where
  half : ProxyConnect
  /-- the bytes spliced to the connection of the session -/
  forwarded : ℕ := 0
  /-- the number of bytes the other end has announced, once `AddTotalCount` was called -/
  announced : Option ℕ := none
  /-- the half was reset before -/
  recycled : Bool := false

/-- What happens to the half. -/
inductive SessionAct
  /-- `Run` with the connection of the next session -/
  | run (c : PeerConnect)
  /-- `handleRead`: the bytes the first splice moves, and the answer of the second one -/
  | splice (bytes : List UInt8) (o : SpliceOut)
  /-- the `ShutdownPeerConn` of the session, with the number of bytes it announces -/
  | shutdownPeerConn (tranCount : ℕ)
  /-- the connection of the session has reached the end of its stream -/
  | localEnd

namespace SessionRun

/-- `Tunnel::shutdownPublicConn` and `Tunnel::shutdonwLocalConn`, which make the test again. -/
def shutdownConn (p : ProxyConnect) : ProxyConnect :=
  if p.recvCount ≠ p.totalCount then p else p.shutdownFromRemote.1

/-- The history after a call that may have reset the half, which ends the session. -/
def settle (s : SessionRun) (p : ProxyConnect) : SessionRun :=
  if p.start then { s with half := p } else { half := p, recycled := true }

/-- One event.  A session announces its number of bytes once. -/
def step (s : SessionRun) : SessionAct → Option SessionRun
  | .run c =>
      if s.half.start then none else some { s with half := s.half.run c }
  | .splice bytes o =>
      if s.half.start = true ∧ s.half.RawAdmissible (raws 0 bytes) bytes.length o then
        let r := s.half.spliceRaw (raws 0 bytes) bytes.length o
        some ({ s with forwarded := s.forwarded + o.count }.settle
          (if r.reached then shutdownConn r.half else r.half))
      else none
  | .shutdownPeerConn tranCount =>
      if s.half.start = true ∧ s.announced = none then
        let p := { s.half with
          totalCount := addTotalCount s.half.totalCount (Counter.ofNat tranCount) }
        some ({ s with announced := some tranCount }.settle (shutdownConn p))
      else none
  | .localEnd =>
      if s.half.start then some (s.settle s.half.shutdownFromLocal.1) else none

end SessionRun

/-- The sessions of a new `ProxyConnect` on the socket `fd`. -/
def sessionCount (fd : ℕ) : Lts SessionRun SessionAct where
  init := { half := { fd := fd } }
  step := SessionRun.step

theorem sessionCount_step (fd : ℕ) (s : SessionRun) (a : SessionAct) :
    (sessionCount fd).step s a = s.step a := rfl

/-- `handleRead` calls `closeLocalPeerConnHandler_` only when the session was announced and the number
of bytes forwarded is the announced one. -/
def ClosesRight (s : SessionRun) : SessionAct → Prop
  | .splice bytes o =>
      (s.half.spliceRaw (raws 0 bytes) bytes.length o).reached = true →
        s.announced = some (s.forwarded + o.count)
  | _ => True

/-- The number that the total shows before the announcement, modulo `2 ^ 32`. -/
def absentTotal (recycled : Bool) : ℕ := if recycled then 0 else 2 ^ 32 - 1

/-- The number of bytes that a splice forwards does not look like a number it is not: modulo
`2 ^ 32` it is neither the one that stands for no announcement nor, unless it is equal to it, the
announced one. -/
def NoWrap (s : SessionRun) : SessionAct → Prop
  | .splice _ (.moved k) =>
      match s.announced with
      | none => (s.forwarded + k) % 2 ^ 32 ≠ absentTotal s.recycled
      | some tranCount =>
          (s.forwarded + k) % 2 ^ 32 = tranCount % 2 ^ 32 → s.forwarded + k = tranCount
  | _ => True

instance (s : SessionRun) : (a : SessionAct) → Decidable (NoWrap s a)
  | .run _ => .isTrue trivial
  | .splice _ .fail => .isTrue trivial
  | .splice _ (.moved k) =>
      match h : s.announced with
      | none => decidable_of_iff ((s.forwarded + k) % 2 ^ 32 ≠ absentTotal s.recycled)
          (by simp only [NoWrap, h])
      | some t => decidable_of_iff ((s.forwarded + k) % 2 ^ 32 = t % 2 ^ 32 → s.forwarded + k = t)
          (by simp only [NoWrap, h])
  | .shutdownPeerConn _ => .isTrue trivial
  | .localEnd => .isTrue trivial

/-! ### What the counters show -/

theorem Counter.ofNat_eq_iff {m n : ℕ} :
    Counter.ofNat m = Counter.ofNat n ↔ m % 2 ^ 32 = n % 2 ^ 32 := by
  rw [← BitVec.toNat_inj, BitVec.toNat_ofNat, BitVec.toNat_ofNat]

/-- `AddTotalCount` sets the total when there was none, in either of the two ways. -/
theorem addTotalCount_absentTotal (recycled : Bool) (c : Counter) :
    addTotalCount (Counter.ofNat (absentTotal recycled)) c = c := by
  cases recycled with
  | true => exact BitVec.zero_add c
  | false => rfl

/-- Bytes take one place each. -/
theorem cellsSize_of_bytes {l : List Cell} (h : ∀ c ∈ l, c.size = 1) :
    cellsSize l = l.length := by
  induction l with
  | nil => rfl
  | cons c l ih =>
      have hc : c.size = 1 := h c List.mem_cons_self
      have hl := ih fun d hd => h d (List.mem_cons_of_mem c hd)
      simp only [cellsSize, List.map_cons, List.sum_cons, List.length_cons] at hl ⊢
      omega

namespace SessionRun

/-- **The counters show the true numbers**, modulo `2 ^ 32`. -/
structure Inv (s : SessionRun) : Prop where
  recv : s.half.recvCount = Counter.ofNat s.forwarded
  total : s.half.totalCount = Counter.ofNat (s.announced.getD (absentTotal s.recycled))
  bytes : ∀ c ∈ s.half.pipe, c.size = 1

variable {s s' : SessionRun} {p : ProxyConnect}

/-- A reset starts from `0`, and any other call leaves the counters alone. -/
theorem Inv.settle {q : ProxyConnect} (h : Inv { s with half := p }) (hp : p.start = true)
    (hq : q = p ∨ q = { p with halfClose := true } ∨ q = p.resetConn) : Inv (s.settle q) := by
  rcases hq with rfl | rfl | rfl
  · rw [SessionRun.settle, if_pos hp]
    exact h
  · rw [SessionRun.settle, if_pos hp]
    exact ⟨h.recv, h.total, h.bytes⟩
  · exact ⟨rfl, rfl, h.bytes⟩

/-- What the test of the tunnel does to a half. -/
theorem shutdownConn_cases (p : ProxyConnect) :
    shutdownConn p = p ∨ shutdownConn p = { p with halfClose := true } ∨
      shutdownConn p = p.resetConn := by
  unfold shutdownConn
  by_cases hc : p.recvCount ≠ p.totalCount
  · rw [if_pos hc]
    exact .inl rfl
  · rw [if_neg hc]
    cases hh : p.halfClose with
    | true => exact .inr (.inr (by rw [ProxyConnect.shutdownFromRemote_of_halfClose hh]))
    | false => exact .inr (.inl (by rw [ProxyConnect.shutdownFromRemote_of_open hh]))

/-- What the second splice takes out of a pipe of bytes. -/
theorem Inv.out_size (h : s.Inv) {bytes : List UInt8} {k : ℕ}
    (hadm : s.half.RawAdmissible (raws 0 bytes) bytes.length (.moved k)) :
    cellsSize ((s.half.pipe ++ (raws 0 bytes).take bytes.length).take k) = k := by
  have hall : ∀ c ∈ (s.half.pipe ++ (raws 0 bytes).take bytes.length).take k, c.size = 1 := by
    intro c hc
    rcases List.mem_append.1 (List.mem_of_mem_take hc) with hc | hc
    · exact h.bytes c hc
    · obtain ⟨b, -, rfl⟩ := List.mem_map.1 (List.mem_of_mem_take hc)
      rfl
  have hle := (hadm.2.2.2 (by simp)).2.1
  simp only [SpliceOut.count] at hle
  rw [cellsSize_of_bytes hall, List.length_take, Nat.min_eq_left hle]

/-- The test of `handleRead`, in terms of the true numbers. -/
theorem Inv.reached_iff (h : s.Inv) {bytes : List UInt8} {k : ℕ}
    (hadm : s.half.RawAdmissible (raws 0 bytes) bytes.length (.moved k)) :
    (s.half.spliceRaw (raws 0 bytes) bytes.length (.moved k)).reached = true ↔
      (s.forwarded + k) % 2 ^ 32 = s.announced.getD (absentTotal s.recycled) % 2 ^ 32 := by
  simp only [ProxyConnect.spliceRaw, decide_eq_true_iff]
  rw [h.out_size hadm, h.recv, h.total, ← Counter.ofNat_add, Counter.ofNat_eq_iff]

/-- A splice counts the bytes it forwards. -/
theorem Inv.spliceRaw (h : s.Inv) {bytes : List UInt8} {o : SpliceOut}
    (hadm : s.half.RawAdmissible (raws 0 bytes) bytes.length o) :
    Inv { s with
      half := (s.half.spliceRaw (raws 0 bytes) bytes.length o).half
      forwarded := s.forwarded + o.count } := by
  have hpipe : ∀ c ∈ s.half.pipe ++ (raws 0 bytes).take bytes.length, c.size = 1 := by
    intro c hc
    rcases List.mem_append.1 hc with hc | hc
    · exact h.bytes c hc
    · obtain ⟨b, -, rfl⟩ := List.mem_map.1 (List.mem_of_mem_take hc)
      rfl
  cases o with
  | fail => exact ⟨h.recv, h.total, hpipe⟩
  | moved k =>
      refine ⟨?_, h.total, fun c hc => hpipe c (List.mem_of_mem_drop hc)⟩
      simp only [ProxyConnect.spliceRaw, h.out_size hadm, h.recv, SpliceOut.count]
      rw [Counter.ofNat_add]

/-- **One event keeps the invariant.** -/
theorem Inv.step (h : s.Inv) {a : SessionAct} (hs : s.step a = some s') : s'.Inv := by
  cases a with
  | run c =>
      simp only [SessionRun.step] at hs
      split_ifs at hs
      obtain rfl := Option.some.inj hs
      exact ⟨h.recv, h.total, h.bytes⟩
  | splice bytes o =>
      simp only [SessionRun.step, Option.ite_none_right_eq_some, Option.some.injEq] at hs
      obtain ⟨⟨hstart, hadm⟩, rfl⟩ := hs
      have hstart' : (s.half.spliceRaw (raws 0 bytes) bytes.length o).half.start = true := by
        cases o <;> exact hstart
      refine Inv.settle (s := { s with forwarded := s.forwarded + o.count })
        (h.spliceRaw hadm) hstart' ?_
      split
      · exact shutdownConn_cases _
      · exact .inl rfl
  | shutdownPeerConn tranCount =>
      simp only [SessionRun.step, Option.ite_none_right_eq_some, Option.some.injEq] at hs
      obtain ⟨⟨hstart, hnone⟩, rfl⟩ := hs
      refine Inv.settle (s := { s with announced := some tranCount })
        (p := { s.half with
          totalCount := addTotalCount s.half.totalCount (Counter.ofNat tranCount) })
        ⟨h.recv, ?_, h.bytes⟩ hstart (shutdownConn_cases _)
      simp only [Option.getD_some]
      rw [h.total, hnone, Option.getD_none, addTotalCount_absentTotal]
  | localEnd =>
      simp only [SessionRun.step, Option.ite_none_right_eq_some, Option.some.injEq] at hs
      obtain ⟨hstart, rfl⟩ := hs
      refine Inv.settle (p := s.half) ⟨h.recv, h.total, h.bytes⟩ hstart ?_
      cases hh : s.half.halfClose with
      | true => exact .inr (.inr (by rw [ProxyConnect.shutdownFromLocal_of_halfClose hh]))
      | false => exact .inr (.inl (by rw [ProxyConnect.shutdownFromLocal_of_open hh]))

theorem inv_init (fd : ℕ) : (sessionCount fd).init.Inv :=
  ⟨rfl, rfl, fun c hc => absurd hc (by simp [sessionCount])⟩

/-- One call of `handleRead` closes rightly exactly when its count does not look like another. -/
theorem Inv.closesRight_iff (h : s.Inv) {a : SessionAct} (hs : s.step a = some s') :
    ClosesRight s a ↔ NoWrap s a := by
  cases a with
  | run c => exact Iff.rfl
  | shutdownPeerConn tranCount => exact Iff.rfl
  | localEnd => exact Iff.rfl
  | splice bytes o =>
      simp only [SessionRun.step, Option.ite_none_right_eq_some, Option.some.injEq] at hs
      obtain ⟨⟨-, hadm⟩, -⟩ := hs
      cases o with
      | fail => simp [ClosesRight, NoWrap, ProxyConnect.spliceRaw]
      | moved k =>
          have hreach := h.reached_iff hadm
          simp only [ClosesRight, NoWrap, SpliceOut.count]
          rw [hreach]
          cases hann : s.announced with
          | none =>
              have hmod : absentTotal s.recycled % 2 ^ 32 = absentTotal s.recycled := by
                cases s.recycled <;> rfl
              simp only [Option.getD_none, hmod, reduceCtorEq, imp_false, ne_eq]
          | some t =>
              simp only [Option.getD_some, Option.some.injEq]
              exact imp_congr_right fun _ => eq_comm

end SessionRun

/-! ### When sessions are closed only at their end -/

/-- **When sessions are closed only at their end.**  In any sequence of sessions, cut into any
splices, `handleRead` closes only sessions that were announced and whose bytes have all been
forwarded, exactly when no splice forwards a number of bytes that looks like another one. -/
theorem handleRead_closes_right_iff (fd : ℕ) {as : List SessionAct} {s : SessionRun}
    (he : (sessionCount fd).exec (sessionCount fd).init as = some s) :
    (sessionCount fd).AllSteps ClosesRight (sessionCount fd).init as ↔
      (sessionCount fd).AllSteps NoWrap (sessionCount fd).init as := by
  refine Lts.allSteps_iff (g := fun _ _ => True) ?_ he (Lts.allSteps_true _ _)
  intro s a s' hr _ hs
  have hi : s.Inv := hr.invariant (SessionRun.inv_init fd) fun _ _ _ _ hi _ hs => hi.step hs
  exact hi.closesRight_iff hs

/-- A session of three bytes on a new connection, and one of a byte on the recycled one. -/
def sessionsFour : List SessionAct :=
  [.run { fd := 7 }, .splice [1, 2] (.moved 2), .localEnd, .shutdownPeerConn 3,
    .splice [3] (.moved 1), .run { fd := 8 }, .splice [4] (.moved 1), .shutdownPeerConn 1]

theorem handleRead_closes_right_four :
    (sessionCount 5).AllSteps ClosesRight (sessionCount 5).init sessionsFour := by
  have he := (Option.some_get (x := (sessionCount 5).exec (sessionCount 5).init sessionsFour)
    (by decide +kernel)).symm
  exact (handleRead_closes_right_iff 5 he).2 (by decide +kernel)

/-! ### A long session that is cut off -/

/-- A splice that moves as many bytes as one call can. -/
def fullSplice : SessionAct := .splice (List.replicate spliceLen 0) (.moved spliceLen)

/-- A first session of `n` bytes, all of them forwarded, without an announcement. -/
def SessionRun.unannounced (n : ℕ) : SessionRun where
  half := { ProxyConnect.run { fd := 5 } { fd := 7 } with recvCount := Counter.ofNat n }
  forwarded := n

theorem take_raws_length (sid : ℕ) (bytes : List UInt8) :
    (raws sid bytes).take bytes.length = raws sid bytes := by
  rw [take_raws, List.take_length]

theorem rawAdmissible_unannounced (n : ℕ) {bytes : List UInt8} (hpos : 0 < bytes.length)
    (hle : bytes.length ≤ spliceLen) :
    (SessionRun.unannounced n).half.RawAdmissible (raws 0 bytes) bytes.length
      (.moved bytes.length) := by
  have hpipe : (SessionRun.unannounced n).half.pipe = [] := rfl
  refine ⟨hpos, Nat.le_of_eq (length_raws 0 bytes).symm, ?_, fun _ => ⟨hpos, ?_, ?_⟩⟩
  · rw [take_raws_length, cellsSize_raws]
    exact hle
  · rw [hpipe, take_raws_length, List.nil_append]
    exact Nat.le_of_eq (length_raws 0 bytes).symm
  · have hall : (raws 0 bytes).take (SpliceOut.moved bytes.length).count = raws 0 bytes :=
      take_raws_length 0 bytes
    rw [hpipe, take_raws_length, List.nil_append]
    exact Nat.le_of_eq (congrArg cellsSize hall)

/-- The test of `handleRead` before the announcement of a first session. -/
theorem reached_unannounced (n : ℕ) (bytes : List UInt8) :
    ((SessionRun.unannounced n).half.spliceRaw (raws 0 bytes) bytes.length
      (.moved bytes.length)).reached = decide (Counter.ofNat (n + bytes.length) = -1) := by
  simp only [ProxyConnect.spliceRaw, take_raws_length, SessionRun.unannounced, ProxyConnect.run,
    List.nil_append, cellsSize_raws, Counter.ofNat_add]

/-- One more splice, before the counter shows `-1`. -/
theorem step_unannounced {n : ℕ} {bytes : List UInt8} (hpos : 0 < bytes.length)
    (hle : bytes.length ≤ spliceLen) (hn : n + bytes.length < 2 ^ 32 - 1) :
    (SessionRun.unannounced n).step (.splice bytes (.moved bytes.length)) =
      some (SessionRun.unannounced (n + bytes.length)) := by
  have hreach := reached_unannounced n bytes
  rw [decide_eq_false (Counter.ofNat_ne_neg_one hn)] at hreach
  have hdrop : (raws 0 bytes).drop bytes.length = [] :=
    List.drop_of_length_le (Nat.le_of_eq (length_raws 0 bytes))
  rw [SessionRun.step, if_pos ⟨rfl, rawAdmissible_unannounced n hpos hle⟩]
  simp only [hreach, Bool.false_eq_true, if_false]
  simp only [ProxyConnect.spliceRaw, take_raws_length, SessionRun.unannounced, ProxyConnect.run,
    List.nil_append, cellsSize_raws, SessionRun.settle, if_true, SpliceOut.count,
    Counter.ofNat_add, hdrop]

theorem exec_unannounced (m : ℕ) {n : ℕ} (hn : n + m * spliceLen < 2 ^ 32 - 1) :
    (sessionCount 5).exec (SessionRun.unannounced n) (List.replicate m fullSplice) =
      some (SessionRun.unannounced (n + m * spliceLen)) := by
  induction m generalizing n with
  | zero => simp
  | succ m ih =>
      have hlen : (List.replicate spliceLen (0 : UInt8)).length = spliceLen :=
        List.length_replicate
      have hsum : n + spliceLen + m * spliceLen = n + (m + 1) * spliceLen := by
        rw [Nat.succ_mul m spliceLen]
        omega
      have hlt : n + (List.replicate spliceLen (0 : UInt8)).length < 2 ^ 32 - 1 := by omega
      have hstep := step_unannounced (by rw [hlen]; decide) (Nat.le_of_eq hlen) hlt
      rw [hlen] at hstep
      rw [List.replicate_succ, Lts.exec_cons, sessionCount_step, fullSplice, hstep,
        Option.bind_some]
      exact hsum ▸ ih (by omega)

/-- The bytes of the last splice: one less than a call can move. -/
def lastBytes : List UInt8 := List.replicate 2047 0

/-- The first session of a connection, of `2 ^ 32 - 1` bytes in splices of `2048`. -/
def longSession : List SessionAct :=
  .run { fd := 7 } :: List.replicate 2097151 fullSplice

/-- **A session is cut off.**  The splice of its last bytes closes it although no announcement has
come. -/
theorem handleRead_closes_unannounced :
    ∃ s, (sessionCount 5).exec (sessionCount 5).init
        (longSession ++ [.splice lastBytes (.moved lastBytes.length)]) = some s ∧
      ¬ (sessionCount 5).AllSteps ClosesRight (sessionCount 5).init
        (longSession ++ [.splice lastBytes (.moved lastBytes.length)]) := by
  have hlong : (sessionCount 5).exec (sessionCount 5).init longSession =
      some (SessionRun.unannounced (2097151 * spliceLen)) := by
    refine (Lts.exec_cons_eq_some _).2 ⟨SessionRun.unannounced 0, rfl, ?_⟩
    rw [exec_unannounced 2097151 (by decide), Nat.zero_add]
  have hlen : lastBytes.length = 2047 := List.length_replicate
  have hpos : 0 < lastBytes.length := by rw [hlen]; decide
  have hadm := rawAdmissible_unannounced (2097151 * spliceLen) hpos (by rw [hlen]; decide)
  have hreach := reached_unannounced (2097151 * spliceLen) lastBytes
  rw [decide_eq_true (by rw [hlen]; rfl)] at hreach
  have hstep : ∃ s, (SessionRun.unannounced (2097151 * spliceLen)).step
      (.splice lastBytes (.moved lastBytes.length)) = some s := by
    rw [SessionRun.step, if_pos ⟨rfl, hadm⟩]
    exact ⟨_, rfl⟩
  obtain ⟨s, hstep⟩ := hstep
  refine ⟨s, ?_, ?_⟩
  · rw [Lts.exec_append, hlong, Option.bind_some, Lts.exec_cons, sessionCount_step, hstep]
    rfl
  · intro hall
    have hlast := hall.after hlong hreach
    exact absurd hlast (by simp [SessionRun.unannounced])

end ProxySocket
