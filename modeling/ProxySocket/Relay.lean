/-
**What a relaying connection has delivered when it announces its count.**

`PublicConnect::handleRead` and `ClientConnect::handleRead` are called over and over by the event
loop.  This module runs them from a new connection against every sequence of `splice(2)` answers,
with two history variables: the bytes read from the socket and the bytes written to the proxy
stream.

Nothing is ever reordered or invented: the bytes read are the bytes written followed by the content
of the pipe (`relay_conserves`).  But the second splice asks only for as many bytes as the first one
moved, and the branch that handles the end of the stream does not look at the pipe, so what stays in
the pipe once stays there for good (`relay_pipe_stays`).

Main definitions:

* `RelayEnd`, `relay` — the two ends and the system of repeated calls;
* `Whole` — the second splice moves all the first one moved.

Main results:

* `relay_conserves` — **conservation**: read is written followed by the pipe;
* `relay_lossless_iff` — **the announced count is the number of bytes read, all of them delivered,
  exactly when every second splice was whole** and the count did not wrap.
-/

import ProxySocket.Lts
import ProxySocket.TransConnect

set_option relaxedAutoImplicit false
set_option autoImplicit false

namespace ProxySocket

/-! ### Repeated calls of the read handler -/

/-- The two connections that relay bytes into a proxy connection. -/
inductive RelayEnd
  | publicSide
  | localSide
deriving DecidableEq, Repr

/-- The read handler of each end. -/
def RelayEnd.handleRead : RelayEnd → PeerConnect → SpliceIn → SpliceOut → ReadEffect
  | .publicSide => PublicConnect.handleRead
  | .localSide => ClientConnect.handleRead

theorem RelayEnd.handleRead_eq (e : RelayEnd) : e.handleRead = spliceThrough := by
  cases e <;> rfl

/-- A connection with its history. -/
structure RelayState where
  conn : PeerConnect
  /-- the bytes read from the socket in this session -/
  read : List UInt8
  /-- the bytes written to the proxy stream in this session -/
  written : List UInt8
  /-- the count announced in `ShutdownPeerConn` -/
  reported : Option Counter

/-- The state after a call with the effect `f` that was answered `i` by the first splice. -/
def RelayState.after (s : RelayState) (i : SpliceIn) (f : ReadEffect) : RelayState where
  conn := f.conn
  read := s.read ++ i.bytes
  written := s.written ++ f.written
  reported := f.shutdown.or s.reported

/-- The calls of the read handler on a new connection that owns the socket `fd`; a label is the
pair of answers the call gets. -/
def relay (e : RelayEnd) (fd : ℕ) : Lts RelayState (SpliceIn × SpliceOut) where
  init := { conn := { fd := fd }, read := [], written := [], reported := none }
  step s a :=
    if a.1.Admissible s.conn.closed ∧ a.2.Admissible a.1.bytes.length then
      some (s.after a.1 (e.handleRead s.conn a.1 a.2))
    else none

/-- The second splice moves all the bytes the first one has just put into the pipe. -/
def Whole (a : SpliceIn × SpliceOut) : Prop := a.2.count = a.1.bytes.length

instance : DecidablePred Whole := fun _ => inferInstanceAs (Decidable (_ = _))

variable {e : RelayEnd} {fd : ℕ} {s s' : RelayState} {a : SpliceIn × SpliceOut}

/-- What one call does to a connection and its history: the announcement, or the passage of bytes
through the pipe. -/
theorem relay_step (h : (relay e fd).step s a = some s') :
    a.2.count ≤ a.1.bytes.length ∧
    ((AtEnd s.conn a.1 ∧
        s' = { s with conn := { s.conn with closed := true }, reported := some s.conn.tranCount }) ∨
      (¬ AtEnd s.conn a.1 ∧
        s' = { conn := { s.conn with
                  pipe := (s.conn.pipe ++ a.1.bytes).drop a.2.count
                  tranCount := s.conn.tranCount + Counter.ofNat a.2.count }
               read := s.read ++ a.1.bytes
               written := s.written ++ (s.conn.pipe ++ a.1.bytes).take a.2.count
               reported := s.reported })) := by
  simp only [relay] at h
  split_ifs at h with hadm
  obtain rfl := Option.some.inj h
  refine ⟨hadm.2.1, ?_⟩
  rw [RelayEnd.handleRead_eq]
  by_cases hend : AtEnd s.conn a.1
  · refine Or.inl ⟨hend, ?_⟩
    rw [spliceThrough_of_atEnd a.2 hend]
    simp [RelayState.after, hend.1, SpliceIn.bytes]
  · refine Or.inr ⟨hend, ?_⟩
    rw [spliceThrough_of_not_atEnd hend hadm.2]
    simp [RelayState.after]

/-! ### Conservation -/

/-- The accounting of a session: nothing is lost between socket, pipe and proxy stream, and the
counter shows the bytes written. -/
structure RelayInv (s : RelayState) : Prop where
  read_eq : s.read = s.written ++ s.conn.pipe
  tran_eq : s.conn.tranCount = Counter.ofNat s.written.length
  closed : s.conn.closed = s.reported.isSome
  reported : ∀ n, s.reported = some n → n = Counter.ofNat s.written.length

theorem relayInv_init : RelayInv (relay e fd).init where
  read_eq := rfl
  tran_eq := rfl
  closed := rfl
  reported := by intro n h; cases h

theorem RelayInv.step (hs : RelayInv s) (h : (relay e fd).step s a = some s') :
    RelayInv s' := by
  have hadm : a.1.Admissible s.conn.closed := by
    simp only [relay] at h
    split_ifs at h with hadm
    exact hadm.1
  obtain ⟨hle, ⟨hend, rfl⟩ | ⟨hend, rfl⟩⟩ := relay_step h
  · refine ⟨hs.read_eq, hs.tran_eq, rfl, ?_⟩
    intro n hn
    exact (Option.some.inj hn) ▸ hs.tran_eq
  · have hlen : ((s.conn.pipe ++ a.1.bytes).take a.2.count).length = a.2.count := by
      rw [List.length_take, List.length_append]
      omega
    refine ⟨?_, ?_, hs.closed, ?_⟩
    · rw [List.append_assoc, List.take_append_drop, hs.read_eq, List.append_assoc]
    · simp only [List.length_append, hlen, hs.tran_eq, Counter.ofNat_add]
    · intro n hn
      -- once the count was announced the stream is at its end, so nothing more is written
      have hclosed : s.conn.closed = true := by rw [hs.closed, hn]; rfl
      have hnil : a.1.bytes = [] := hadm.2 hclosed
      have hzero : a.2.count = 0 := by rw [hnil] at hle; exact Nat.le_zero.1 hle
      rw [hzero, List.take_zero, List.append_nil]
      exact hs.reported n hn

/-- **Conservation.**  After every run the bytes read are the bytes written, in order, followed by
the content of the pipe. -/
theorem relay_conserves {calls : List (SpliceIn × SpliceOut)}
    (h : (relay e fd).exec (relay e fd).init calls = some s) : RelayInv s := by
  have hall : (relay e fd).AllSteps (fun _ _ => True) (relay e fd).init calls :=
    (Lts.allSteps_label_iff h).2 fun _ _ => trivial
  exact (Lts.Reach.of_allSteps .init h hall).invariant relayInv_init
    fun _ _ _ _ hs _ hst => hs.step hst

/-! ### The pipe never empties -/

/-- A call leaves the pipe empty exactly when it was empty before and the second splice was
whole. -/
theorem relay_pipe_eq_nil_iff (h : (relay e fd).step s a = some s') :
    s'.conn.pipe = [] ↔ s.conn.pipe = [] ∧ Whole a := by
  obtain ⟨hle, ⟨hend, rfl⟩ | ⟨hend, rfl⟩⟩ := relay_step h
  · have hw : Whole a := by
      have hnil : a.1.bytes = [] := by rw [hend.1]; rfl
      rw [hnil] at hle
      simp only [Whole, hnil]
      exact Nat.le_zero.1 hle
    simp [hw]
  · rw [List.drop_eq_nil_iff, List.length_append]
    constructor
    · intro hlen
      have hp : s.conn.pipe.length = 0 := by omega
      exact ⟨List.length_eq_zero_iff.1 hp, by simp only [Whole]; omega⟩
    · rintro ⟨hp, hw⟩
      simp only [Whole] at hw
      rw [hp, hw]
      simp

/-- **What stays in the pipe stays for good.** -/
theorem relay_pipe_stays (h : (relay e fd).step s a = some s') (hs : s'.conn.pipe = []) :
    s.conn.pipe = [] := ((relay_pipe_eq_nil_iff h).1 hs).1

/-- After a run the pipe is empty exactly when every second splice was whole. -/
theorem relay_pipe_empty_iff {calls : List (SpliceIn × SpliceOut)}
    (h : (relay e fd).exec (relay e fd).init calls = some s) :
    s.conn.pipe = [] ↔ ∀ a ∈ calls, Whole a := by
  rw [← Lts.allSteps_label_iff h]
  have hkeep : ∀ s a s', (relay e fd).Reach (fun _ a => True ∧ Whole a) s → s.conn.pipe = [] →
      True → (relay e fd).step s a = some s' → (s'.conn.pipe = [] ↔ Whole a) := by
    intro s a s' _ hs _ hst
    rw [relay_pipe_eq_nil_iff hst]
    exact and_iff_right hs
  exact Lts.trace_iff (I := fun s => s.conn.pipe = []) rfl hkeep
    (fun _ _ _ _ hst => relay_pipe_stays hst) h ((Lts.allSteps_label_iff h).2 fun _ _ => trivial)

/-! ### The announced count -/

/-- **When the announcement is the truth.**  In a session in which the end of the stream was
announced with the count `n`, every byte read was written to the proxy stream in order, the pipe
is empty and `n` is the number of bytes read, exactly when every second splice moved all the first
one had moved and the session has fewer than `2 ^ 32` bytes. -/
theorem relay_lossless_iff (e : RelayEnd) (fd : ℕ) {calls : List (SpliceIn × SpliceOut)}
    {s : RelayState} {n : Counter} (h : (relay e fd).exec (relay e fd).init calls = some s)
    (hn : s.reported = some n) :
    (s.written = s.read ∧ s.conn.pipe = [] ∧ n.toNat = s.read.length) ↔
      (∀ a ∈ calls, Whole a) ∧ s.read.length < 2 ^ 32 := by
  have hinv : RelayInv s := relay_conserves h
  have hcount : n = Counter.ofNat s.written.length := hinv.reported n hn
  rw [← relay_pipe_empty_iff h]
  constructor
  · rintro ⟨hw, hp, hlen⟩
    refine ⟨hp, ?_⟩
    rw [hcount, hw] at hlen
    exact Counter.toNat_ofNat_eq_iff.1 hlen
  · rintro ⟨hp, hlt⟩
    have hw : s.written = s.read := by rw [hinv.read_eq, hp, List.append_nil]
    refine ⟨hw, hp, ?_⟩
    rw [hcount, hw]
    exact Counter.toNat_ofNat_eq_iff.2 hlt

/-- The announcement after a session of three bytes with whole splices. -/
theorem relay_lossless_three :
    ∃ s, (relay .publicSide 5).exec (relay .publicSide 5).init
        [(.moved [1, 2, 3], .moved 3), (.moved [], .fail)] = some s ∧
      s.written = s.read ∧ s.conn.pipe = [] ∧ (3 : Counter).toNat = s.read.length :=
  ⟨_, rfl, (@relay_lossless_iff .publicSide 5
    [(.moved [1, 2, 3], .moved 3), (.moved [], .fail)] _ _ rfl rfl).2
      ⟨by decide, by decide⟩⟩

/-- Bytes that meet a full proxy socket are lost: `ClientConnect` reads ten bytes, the second splice
answers `EAGAIN`, the stream ends, and the announced count is `0`. -/
theorem relay_loses_under_back_pressure :
    ¬ ∀ (e : RelayEnd) (fd : ℕ) (calls : List (SpliceIn × SpliceOut)) (s : RelayState)
      (n : Counter), (relay e fd).exec (relay e fd).init calls = some s → s.reported = some n →
        s.written = s.read ∧ s.conn.pipe = [] ∧ n.toNat = s.read.length := by
  intro h
  have hlost := h .localSide 5
    [(.moved [1, 2, 3, 4, 5, 6, 7, 8, 9, 10], .fail), (.moved [], .fail)] _ 0 rfl rfl
  exact absurd hlost.2.1 (by decide)

end ProxySocket
