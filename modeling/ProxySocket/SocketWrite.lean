/-
**Sending a buffer to a socket.**

`WriteToSocket` calls `write(2)` until the buffer is empty or the kernel takes nothing.  The result
of `write(2)` goes into a `size_t`, so an error is the number `2 ^ 64 - 1`; the loop tests for `0`
only and adds that number to the read index, which is then reduced modulo the size of the ring.

Main definitions:

* `WriteResult`, `WriteLoop` — the answers of `write(2)`, and the loop between two calls;
* `WriteLoop.after` — the loop after a number of calls, for any sequence of answers;
* `WriteLoop.Sending` — a loop whose failed calls have left no trace but in the count;
* `bufferLts`, `Buffer.ActsAsFifo` — any sequence of operations on a buffer, with the events they
  show, and what the next operation does.

Main results:

* `WriteLoop.Sending.accept` — a call that takes bytes takes them off the front of the queue;
* `Buffer.Wf.writeToSocket_spec` — the whole queue is sent when every call takes bytes;
* `buffer_refines_fifo` — **a buffer is a queue of bytes**.
-/

import ProxySocket.Buffer
import ProxySocket.Lts

set_option relaxedAutoImplicit false
set_option autoImplicit false

namespace ProxySocket

/-! ### One call of `write(2)` -/

/-- The value of `errno` that makes the loop try again. -/
def eintr : ℕ := 4

/-- The answer of `write(2)`: the number of bytes taken, or `-1` with an `errno`. -/
inductive WriteResult
  | accepted (n : ℕ)
  | failed (errno : ℕ)
deriving DecidableEq, Repr

/-- The number of bytes the kernel took. -/
def WriteResult.count : WriteResult → ℕ
  | .accepted n => n
  | .failed _ => 0

/-- The length of the piece that `WriteToSocket` offers next. -/
def Buffer.curSendLen (b : Buffer) : ℤ :=
  if b.readIndex > b.writeIndex then int32 (b.dataSize - b.readIndex)
  else int32 (b.writeIndex - b.readIndex)

/-- The loop of `WriteToSocket` between two calls of `write(2)`. -/
structure WriteLoop where
  buf : Buffer
  totalSentNum : ℤ := 0
  errno : ℕ
  /-- the loop was left by its `break` -/
  broke : Bool := false
  /-- the bytes the kernel took, in order -/
  sent : List UInt8 := []

namespace WriteLoop

/-- `WriteToSocket` has returned. -/
def returned (s : WriteLoop) : Bool := s.broke || s.buf.getunused ≤ 0

/-- The last two statements of the loop, where `writeNum` is the result of `write(2)` as a
`size_t`. -/
def advance (s : WriteLoop) (writeNum : ℕ) : WriteLoop :=
  { s with
    buf := { s.buf with
      readIndex := int32 (sizeT (sizeT s.buf.readIndex + writeNum) % sizeT s.buf.dataSize : ℕ) }
    totalSentNum := int32 (sizeT (sizeT s.totalSentNum + writeNum)) }

/-- One round of the loop, with the answer of its `write(2)`. -/
def write (s : WriteLoop) (r : WriteResult) : WriteLoop :=
  if s.returned then s
  else
    match r with
    | .accepted 0 => if s.errno = eintr then s else { s with broke := true }
    | .accepted (n + 1) =>
        { s.advance (n + 1) with
          sent := s.sent ++
            (List.range (n + 1)).map fun i => s.buf.data (s.buf.readIndex.toNat + i) }
    | .failed e => { s.advance (sizeT (-1)) with errno := e }

/-- The loop after `k` calls. -/
def after (s : WriteLoop) (o : ℕ → WriteResult) : ℕ → WriteLoop
  | 0 => s
  | k + 1 => (s.after o k).write (o k)

/-- What `write(2)` can answer: it takes at most what it was offered. -/
def Admissible (s : WriteLoop) : WriteResult → Prop
  | .accepted n => (n : ℤ) ≤ s.buf.curSendLen
  | .failed _ => True

instance (s : WriteLoop) : (r : WriteResult) → Decidable (s.Admissible r)
  | .accepted _ => inferInstanceAs (Decidable (_ ≤ _))
  | .failed _ => .isTrue trivial

/-- `WriteToSocket` returns after `k` calls. -/
def Returns (s : WriteLoop) (o : ℕ → WriteResult) (k : ℕ) : Prop :=
  (s.after o k).returned = true ∧ ∀ i < k, (s.after o i).returned = false

instance (s : WriteLoop) (o : ℕ → WriteResult) (k : ℕ) : Decidable (s.Returns o k) :=
  inferInstanceAs (Decidable (_ ∧ _))

end WriteLoop

/-- The start of `WriteToSocket`. -/
def Buffer.writeToSocket (b : Buffer) (errno : ℕ) : WriteLoop := { buf := b, errno := errno }

namespace WriteLoop

variable {s : WriteLoop}

@[simp] theorem after_zero (s : WriteLoop) (o : ℕ → WriteResult) : s.after o 0 = s := rfl

theorem after_succ (s : WriteLoop) (o : ℕ → WriteResult) (k : ℕ) :
    s.after o (k + 1) = (s.after o k).write (o k) := rfl

/-- The first call of a loop, and the rest of them. -/
theorem after_succ' (s : WriteLoop) (o : ℕ → WriteResult) (k : ℕ) :
    s.after o (k + 1) = (s.write (o 0)).after (fun i => o (i + 1)) k := by
  induction k with
  | zero => rfl
  | succ k ih => rw [after_succ, ih, after_succ]

theorem write_of_returned (h : s.returned = true) (r : WriteResult) : s.write r = s := by
  unfold write
  rw [if_pos h]

theorem write_zero (h : s.returned = false) :
    s.write (.accepted 0) = if s.errno = eintr then s else { s with broke := true } := by
  unfold write
  rw [if_neg (by simp [h])]

theorem write_accepted (h : s.returned = false) {n : ℕ} (hn : 0 < n) :
    s.write (.accepted n) =
      { s.advance n with
        sent := s.sent ++ (List.range n).map fun i => s.buf.data (s.buf.start + i) } := by
  obtain ⟨n, rfl⟩ := Nat.exists_eq_succ_of_ne_zero hn.ne'
  unfold write
  rw [if_neg (by simp [h])]
  rfl

theorem write_failed (h : s.returned = false) (e : ℕ) :
    s.write (.failed e) = { s.advance (sizeT (-1)) with errno := e } := by
  unfold write
  rw [if_neg (by simp [h])]

theorem advance_maxCapacity (s : WriteLoop) (n : ℕ) :
    (s.advance n).buf.maxCapacity = s.buf.maxCapacity := rfl

theorem write_maxCapacity (s : WriteLoop) (r : WriteResult) :
    (s.write r).buf.maxCapacity = s.buf.maxCapacity := by
  cases hr : s.returned with
  | true => rw [write_of_returned hr]
  | false =>
      cases r with
      | accepted n =>
          rcases Nat.eq_zero_or_pos n with rfl | hn
          · rw [write_zero hr]
            split <;> rfl
          · rw [write_accepted hr hn, advance_maxCapacity]
      | failed e => rw [write_failed hr, advance_maxCapacity]

theorem after_maxCapacity (s : WriteLoop) (o : ℕ → WriteResult) (k : ℕ) :
    (s.after o k).buf.maxCapacity = s.buf.maxCapacity := by
  induction k with
  | zero => rfl
  | succ k ih => rw [after_succ, write_maxCapacity, ih]

/-- A loop that has returned makes no more calls. -/
theorem after_of_returned (h : s.returned = true) (o : ℕ → WriteResult) (k : ℕ) :
    s.after o k = s := by
  induction k with
  | zero => rfl
  | succ k ih => rw [after_succ, ih, write_of_returned h]

theorem after_of_le (s : WriteLoop) {o : ℕ → WriteResult} {j k : ℕ}
    (h : (s.after o j).returned = true) (hjk : j ≤ k) : s.after o k = s.after o j := by
  induction k, hjk using Nat.le_induction with
  | base => rfl
  | succ k _ ih => rw [after_succ, ih, write_of_returned h]

/-- A loop that returns at all returns after some number of calls for the first time. -/
theorem exists_returns {o : ℕ → WriteResult} {k : ℕ} (h : (s.after o k).returned = true) :
    ∃ j ≤ k, s.Returns o j := by
  classical
  have hex : ∃ k, (s.after o k).returned = true := ⟨k, h⟩
  refine ⟨Nat.find hex, Nat.find_min' hex h, Nat.find_spec hex, fun i hi => ?_⟩
  exact Bool.eq_false_iff.2 (Nat.find_min hex hi)

/-! ### What the calls do to the queue -/

/-- **A loop that has not failed**: `e` calls have failed and left no trace but in the count, the
kernel has taken the front of the queue `q`, and the rest is in the buffer. -/
structure Sending (q : List UInt8) (e : ℕ) (s : WriteLoop) : Prop where
  wf : s.buf.Wf
  conserved : s.sent ++ s.buf.queue = q
  total : s.totalSentNum = int32 (s.sent.length - e)

theorem sending_start {b : Buffer} (h : b.Wf) (errno : ℕ) :
    Sending b.queue 0 (b.writeToSocket errno) :=
  ⟨h, rfl, by simp [Buffer.writeToSocket, int32]⟩

end WriteLoop

namespace Buffer.Wf

variable {b : Buffer}

/-- The piece that is offered is the front of the queue, and lies in one piece. -/
theorem curSendLen_eq (h : b.Wf) :
    b.curSendLen = if b.readIndex ≤ b.writeIndex then (b.length : ℤ) else b.size - b.start := by
  have h₁ := h.length_cast
  have h₂ := h.size_cast
  have h₃ := h.start_cast
  rw [h.getunused_eq] at h₁
  obtain ⟨hpos, hle, hmax, hds, hr, hrl, hw, hwl⟩ := h
  unfold curSendLen
  by_cases hc : b.readIndex ≤ b.writeIndex
  · rw [if_pos hc] at h₁ ⊢
    rw [if_neg (not_lt.2 hc), int32_of_mem (by omega) (by omega), h₁]
  · rw [if_neg hc, if_pos (not_le.1 hc), int32_of_mem (by omega) (by omega), h₂, h₃]

theorem offered (h : b.Wf) {n : ℕ} (hn : (n : ℤ) ≤ b.curSendLen) :
    n ≤ b.length ∧ b.start + n ≤ b.size := by
  have h₁ := h.length_cast
  have h₂ := h.size_cast
  have h₃ := h.start_cast
  have h₄ := h.start_lt
  have h₅ := h.write_lt
  have h₆ := h.write_nonneg
  rw [h.getunused_eq] at h₁
  rw [h.curSendLen_eq] at hn
  split at hn
  · rename_i hc
    rw [if_pos hc] at h₁
    omega
  · rename_i hc
    rw [if_neg hc] at h₁
    omega

/-- Moving the read index over the first `n` bytes takes them off the queue. -/
theorem skip (h : b.Wf) {n : ℕ} (hn : n ≤ b.length) :
    Wf { b with readIndex := ((b.start + n) % b.size : ℕ) } ∧
      queue { b with readIndex := ((b.start + n) % b.size : ℕ) } = b.queue.drop n := by
  have hlt := h.length_lt
  obtain ⟨hwf, hq⟩ := h.move b.data (b.start + n) (by omega : b.length - n < b.size)
  rw [show b.start + n + (b.length - n) = b.start + b.length by omega, ← h.writeIndex_eq]
    at hwf hq
  exact ⟨hwf, by rw [hq, queue, Ring.drop_contents _ _ _ hn]⟩

theorem sizeT_readIndex (h : b.Wf) : sizeT b.readIndex = b.start := by
  have h₁ := h.start_lt
  have h₂ := h.size_le
  rw [← h.start_cast, sizeT_natCast (by omega)]

theorem sizeT_dataSize (h : b.Wf) : sizeT b.dataSize = b.size := by
  have h₂ := h.size_le
  rw [← h.size_cast, sizeT_natCast (by omega)]

/-- The new read index, when `write(2)` answered the number `n`. -/
theorem readIndex_advance (h : b.Wf) (n : ℕ) :
    int32 (sizeT (sizeT b.readIndex + n) % sizeT b.dataSize : ℕ) =
      (sizeT (b.start + n) % b.size : ℕ) := by
  have hlt := Nat.mod_lt (sizeT (b.start + n)) (Nat.zero_lt_of_lt h.length_lt)
  have hle := h.size_le
  rw [h.sizeT_readIndex, h.sizeT_dataSize]
  exact int32_of_mem (by omega) (by omega)

end Buffer.Wf

namespace WriteLoop

variable {s : WriteLoop} {q : List UInt8} {e : ℕ}

theorem Sending.returned_iff (h : Sending q e s) :
    s.returned = true ↔ s.broke = true ∨ s.buf.queue = [] := by
  have hlen := h.wf.length_cast
  rw [returned, Bool.or_eq_true, decide_eq_true_iff, ← List.length_eq_zero_iff,
    Buffer.length_queue]
  refine or_congr_right ?_
  omega

/-- Where the read index goes when the kernel takes bytes. -/
theorem Sending.advance_buf (h : Sending q e s) {n : ℕ} (hle : n ≤ s.buf.length) :
    s.advance n = { s with
      buf := { s.buf with readIndex := ((s.buf.start + n) % s.buf.size : ℕ) }
      totalSentNum := int32 (s.sent.length + n - e) } := by
  have hsz := h.wf.size_le
  have hlt := h.wf.length_lt
  have hsl := h.wf.start_lt
  have hidx := h.wf.readIndex_advance n
  rw [show sizeT ((s.buf.start : ℤ) + n) = s.buf.start + n from
    sizeT_natCast (n := s.buf.start + n) (by omega)] at hidx
  rw [advance, hidx, h.total, int32_sizeT_add, sub_add_eq_add_sub]

/-- **A call that takes bytes takes them off the front of the queue.** -/
theorem Sending.accept (h : Sending q e s) (hr : s.returned = false) {n : ℕ} (hn : 0 < n)
    (hadm : (n : ℤ) ≤ s.buf.curSendLen) :
    Sending q e (s.write (.accepted n)) ∧ (s.write (.accepted n)).broke = s.broke ∧
      (s.write (.accepted n)).errno = s.errno ∧
      (s.write (.accepted n)).sent.length = s.sent.length + n := by
  obtain ⟨hle, hpiece⟩ := h.wf.offered hadm
  obtain ⟨hwf, hq⟩ := h.wf.skip hle
  have hsent : ((List.range n).map fun i => s.buf.data (s.buf.start + i)) =
      s.buf.queue.take n := by
    rw [Buffer.queue, Ring.take_contents _ _ _ hle, Ring.contents_of_le _ hpiece]
  have hlen : (s.sent ++ s.buf.queue.take n).length = s.sent.length + n := by
    rw [List.length_append, List.length_take, Buffer.length_queue, Nat.min_eq_left hle]
  rw [write_accepted hr hn, hsent, h.advance_buf hle]
  refine ⟨⟨hwf, ?_, ?_⟩, rfl, rfl, hlen⟩
  · simp only [hq]
    rw [List.append_assoc, List.take_append_drop, h.conserved]
  · simp only [hlen]
    rw [Nat.cast_add]

/-- Where the rest of the queue lies after such a call. -/
theorem Sending.accept_buf (h : Sending q e s) (hr : s.returned = false) {n : ℕ} (hn : 0 < n)
    (hadm : (n : ℤ) ≤ s.buf.curSendLen) :
    (s.write (.accepted n)).buf.size = s.buf.size ∧
      (s.write (.accepted n)).buf.start = (s.buf.start + n) % s.buf.size ∧
      (s.write (.accepted n)).buf.queue.length = s.buf.queue.length - n := by
  obtain ⟨hle, -⟩ := h.wf.offered hadm
  obtain ⟨-, hq⟩ := h.wf.skip hle
  rw [write_accepted hr hn, h.advance_buf hle]
  refine ⟨rfl, Int.toNat_natCast _, ?_⟩
  rw [hq, List.length_drop]

/-- The kernel takes between one byte and what it was offered. -/
def Takes (s : WriteLoop) (r : WriteResult) : Prop :=
  ∃ n, r = .accepted n ∧ 0 < n ∧ (n : ℤ) ≤ s.buf.curSendLen

/-- Calls that all take bytes never leave the loop by its `break`, and each of them takes one byte
at least. -/
theorem Sending.after_takes (h : Sending q e s) (hb : s.broke = false) {o : ℕ → WriteResult}
    {k : ℕ} (ho : ∀ i < k, (s.after o i).returned = false → (s.after o i).Takes (o i)) :
    Sending q e (s.after o k) ∧ (s.after o k).broke = false ∧
      ((s.after o k).returned = false → s.sent.length + k ≤ (s.after o k).sent.length) := by
  induction k with
  | zero => exact ⟨h, hb, fun _ => le_rfl⟩
  | succ k ih =>
      obtain ⟨hk, hbk, hlen⟩ := ih fun i hi => ho i (Nat.lt_succ_of_lt hi)
      rw [after_succ]
      cases hr : (s.after o k).returned with
      | true =>
          rw [write_of_returned hr]
          exact ⟨hk, hbk, fun hr' => by rw [hr] at hr'; exact absurd hr' (by decide)⟩
      | false =>
          obtain ⟨n, hn, hpos, hle⟩ := ho k (Nat.lt_succ_self k) hr
          obtain ⟨h', hb', -, hl⟩ := hk.accept hr hpos hle
          rw [hn]
          refine ⟨h', hb'.trans hbk, fun _ => ?_⟩
          have := hlen hr
          omega

/-- Without a `break` the loop returns when the queue is empty. -/
theorem Sending.queue_eq_nil (h : Sending q e s) (hb : s.broke = false)
    (hr : s.returned = true) : s.buf.queue = [] := by
  rcases h.returned_iff.1 hr with hbroke | hq
  · rw [hb] at hbroke
    exact absurd hbroke (by decide)
  · exact hq

/-- A loop whose calls all take bytes returns. -/
theorem Sending.exists_returned (h : Sending q e s) (hb : s.broke = false) {o : ℕ → WriteResult}
    (ho : ∀ k, (s.after o k).returned = false → (s.after o k).Takes (o k)) :
    ∃ k, (s.after o k).returned = true := by
  refine ⟨q.length + 1, ?_⟩
  obtain ⟨hk, -, hlen⟩ := h.after_takes (k := q.length + 1) hb fun i _ => ho i
  by_contra hr
  have hle := congrArg List.length hk.conserved
  rw [List.length_append] at hle
  have := hlen (by simpa using hr)
  omega

/-- The number that `WriteToSocket` returns, when no call failed. -/
theorem Sending.total_eq (h : Sending q 0 s) (hq : q.length < 2 ^ 31) :
    sizeT s.totalSentNum = s.sent.length := by
  have hlen := congrArg List.length h.conserved
  rw [List.length_append] at hlen
  rw [h.total, int32_of_mem (by omega) (by omega), Nat.cast_zero, sub_zero]
  exact sizeT_natCast (by omega)

end WriteLoop

namespace Buffer.Wf

variable {b : Buffer}

theorem length_queue_lt (h : b.Wf) : b.queue.length < 2 ^ 31 := by
  have h₁ := h.length_lt
  have h₂ := h.size_le
  rw [Buffer.length_queue]
  omega

/-- **Sending** hands over the whole queue, in order, when every call takes bytes. -/
theorem writeToSocket_spec (h : b.Wf) (errno : ℕ) {o : ℕ → WriteResult}
    (ho : ∀ k, ((b.writeToSocket errno).after o k).returned = false →
      ((b.writeToSocket errno).after o k).Takes (o k)) :
    ∃ k, (b.writeToSocket errno).Returns o k ∧
      ((b.writeToSocket errno).after o k).buf.Wf ∧
      ((b.writeToSocket errno).after o k).buf.queue = [] ∧
      ((b.writeToSocket errno).after o k).sent = b.queue ∧
      sizeT ((b.writeToSocket errno).after o k).totalSentNum = b.queue.length := by
  have hstart := WriteLoop.sending_start h errno
  obtain ⟨k, hk⟩ := hstart.exists_returned rfl ho
  obtain ⟨j, -, hret⟩ := WriteLoop.exists_returns hk
  obtain ⟨hs, hb, -⟩ := hstart.after_takes (k := j) rfl fun i _ => ho i
  have hq := hs.queue_eq_nil hb hret.1
  have hsent : ((b.writeToSocket errno).after o j).sent = b.queue := by
    have hc := hs.conserved
    rwa [hq, List.append_nil] at hc
  refine ⟨j, hret, hs.wf, hq, hsent, ?_⟩
  rw [hs.total_eq h.length_queue_lt, hsent]

/-- The calls that an execution made, when each of them took bytes. -/
theorem writeToSocket_returned (h : b.Wf) {errno : ℕ} {o : ℕ → WriteResult} {k : ℕ}
    (hret : (b.writeToSocket errno).Returns o k)
    (hadm : ∀ i < k, ((b.writeToSocket errno).after o i).Admissible (o i))
    (ho : ∀ i < k, 0 < (o i).count) :
    ((b.writeToSocket errno).after o k).buf.Wf ∧
      ((b.writeToSocket errno).after o k).buf.maxCapacity = b.maxCapacity ∧
      ((b.writeToSocket errno).after o k).buf.queue = [] ∧
      ((b.writeToSocket errno).after o k).sent = b.queue := by
  have htakes : ∀ i < k, ((b.writeToSocket errno).after o i).returned = false →
      ((b.writeToSocket errno).after o i).Takes (o i) := by
    intro i hi _
    have hpos := ho i hi
    have hle := hadm i hi
    cases hoi : o i with
    | accepted n =>
        rw [hoi] at hpos hle
        exact ⟨n, rfl, hpos, hle⟩
    | failed e =>
        rw [hoi] at hpos
        exact absurd hpos (Nat.lt_irrefl 0)
  obtain ⟨hk, hb, -⟩ := (WriteLoop.sending_start h errno).after_takes rfl htakes
  have hq := hk.queue_eq_nil hb hret.1
  have hc := hk.conserved
  rw [hq, List.append_nil] at hc
  exact ⟨hk.wf, WriteLoop.after_maxCapacity _ _ _, hq, hc⟩

end Buffer.Wf

/-! ### Any sequence of operations -/

/-- A buffer with the events its operations have shown. -/
structure BufferRun where
  buf : Buffer
  log : List (FifoEvent UInt8) := []

/-- The operations, with what the heap and the kernel contribute. -/
inductive BufferAct
  | write (heap : ℕ → UInt8) (data : List UInt8) (n : ℤ)
  | read (n : ℤ)
  /-- `WriteToSocket`, which makes `k` calls of `write(2)` -/
  | writeToSocket (errno : ℕ) (o : ℕ → WriteResult) (k : ℕ)

namespace BufferRun

/-- One operation.  The event is what the caller learns from the result. -/
def step (s : BufferRun) : BufferAct → Option BufferRun
  | .write heap data n =>
      if n ≤ data.length then
        (s.buf.writeToBuffer heap data n).map fun r =>
          { buf := r.2
            log := s.log ++ [if (r.1 : ℤ) = n then .pushed (data.take n.toNat)
              else .refused (data.take n.toNat)] }
      else none
  | .read n =>
      let r := s.buf.read n
      some { buf := r.2.2
             log := s.log ++ [if r.1 = sizeT (-1) then .short n.toNat else .popped r.2.1] }
  | .writeToSocket errno o k =>
      let start := s.buf.writeToSocket errno
      if start.Returns o k ∧ ∀ i < k, (start.after o i).Admissible (o i) then
        some { buf := (start.after o k).buf
               log := s.log ++ [.drained (start.after o k).sent] }
      else none

end BufferRun

/-- The runs of a buffer that was constructed with the two capacities. -/
def bufferLts (capacity maxCapacity : ℤ) (heap : ℕ → UInt8) : Lts BufferRun BufferAct where
  init := { buf := Buffer.new capacity maxCapacity heap }
  step := BufferRun.step

/-- The indices do not overflow in a write, and every `write(2)` takes bytes. -/
def BufferAct.Ok (maxCapacity : ℤ) : BufferAct → Prop
  | .write _ _ n => maxCapacity + n < 2 ^ 31
  | .read _ => True
  | .writeToSocket _ o k => ∀ i < k, 0 < (o i).count

instance (m : ℤ) : (a : BufferAct) → Decidable (a.Ok m)
  | .write _ _ _ => inferInstanceAs (Decidable (_ < _))
  | .read _ => .isTrue trivial
  | .writeToSocket _ _ _ => inferInstanceAs (Decidable (∀ _ < _, _))

/-- What always holds of the fields of a buffer. -/
structure Buffer.InRange (b : Buffer) : Prop where
  readIndex : 0 ≤ b.readIndex ∧ b.readIndex < b.dataSize
  writeIndex : 0 ≤ b.writeIndex ∧ b.writeIndex < b.dataSize
  dataSize : b.dataSize = b.capacity + 1
  getunused : b.getunused = b.queue.length
  capacity : (b.queue.length : ℤ) ≤ b.capacity ∧ b.capacity ≤ b.maxCapacity

/-- **The operations of a buffer are those of a queue**: whatever the heap and the kernel do. -/
structure Buffer.ActsAsFifo (b : Buffer) : Prop where
  write : ∀ (heap : ℕ → UInt8) (data : List UInt8) (n : ℤ), 0 < n → n ≤ data.length →
    b.maxCapacity + n < 2 ^ 31 →
    (∃ b', b.writeToBuffer heap data n = some (n.toNat, b') ∧
      b'.queue = b.queue ++ data.take n.toNat) ∨ b.writeToBuffer heap data n = some (0, b)
  read : ∀ n : ℤ, 0 < n → n ≤ b.getunused →
    ∃ b', b.read n = (n.toNat, b.queue.take n.toNat, b') ∧ b'.queue = b.queue.drop n.toNat
  readShort : ∀ n : ℤ, 0 < n → b.getunused < n → b.read n = (sizeT (-1), [], b)
  send : ∀ (errno : ℕ) (o : ℕ → WriteResult),
    (∀ k, ((b.writeToSocket errno).after o k).returned = false →
      ((b.writeToSocket errno).after o k).Takes (o k)) →
    ∃ k, (b.writeToSocket errno).Returns o k ∧
      ((b.writeToSocket errno).after o k).buf.queue = [] ∧
      ((b.writeToSocket errno).after o k).sent = b.queue ∧
      sizeT ((b.writeToSocket errno).after o k).totalSentNum = b.queue.length

namespace Buffer.Wf

variable {b : Buffer}

theorem inRange (h : b.Wf) : b.InRange := by
  have hlen := h.length_cast
  have hle := h.getunused_le
  refine ⟨⟨h.read_nonneg, h.read_lt⟩, ⟨h.write_nonneg, h.write_lt⟩, h.dataSize_eq, ?_, ?_,
    h.capacity_le⟩
  · rw [Buffer.length_queue, hlen]
  · rw [Buffer.length_queue, hlen]
    exact hle

theorem actsAsFifo (h : b.Wf) : b.ActsAsFifo where
  write heap data n hn hdata hmax := by
    rcases h.writeToBuffer_spec heap hn hdata hmax with ⟨b', hb', -, -, hq⟩ | hb
    · exact .inl ⟨b', hb', hq⟩
    · exact .inr hb
  read n hn hle := by
    obtain ⟨b', hb', -, -, hq⟩ := h.read_spec hn hle
    exact ⟨b', hb', hq⟩
  readShort n hn hlt := Buffer.read_short hn hlt
  send errno o ho := by
    obtain ⟨k, hret, -, hq, hsent, htotal⟩ := h.writeToSocket_spec errno ho
    exact ⟨k, hret, hq, hsent, htotal⟩

end Buffer.Wf

/-- The invariant of a run: the buffer is well formed and holds what the queue of the events
holds. -/
structure BufferInv (maxCapacity : ℤ) (s : BufferRun) : Prop where
  wf : s.buf.Wf
  max : s.buf.maxCapacity = maxCapacity
  fifo : Fifo.Run [] s.log s.buf.queue

namespace BufferInv

variable {m : ℤ} {s s' : BufferRun}

theorem write (h : BufferInv m s) {heap : ℕ → UInt8} {data : List UInt8} {n : ℤ}
    (hn : m + n < 2 ^ 31) (hs : s.step (.write heap data n) = some s') : BufferInv m s' := by
  simp only [BufferRun.step, Option.ite_none_right_eq_some, Option.map_eq_some_iff] at hs
  obtain ⟨hdata, ⟨ret, b'⟩, hb, rfl⟩ := hs
  rcases lt_or_ge 0 n with hpos | hneg
  · rcases h.wf.writeToBuffer_spec heap hpos hdata (by rwa [h.max]) with
      ⟨b₁, hb₁, hwf, hmax, hq⟩ | hb₁
    · obtain ⟨rfl, rfl⟩ := Prod.mk.inj (Option.some.inj (hb.symm.trans hb₁))
      refine ⟨hwf, hmax.trans h.max, h.fifo.snoc ?_⟩
      rw [if_pos (by omega), hq]
      exact .pushed _ _
    · obtain ⟨rfl, rfl⟩ := Prod.mk.inj (Option.some.inj (hb.symm.trans hb₁))
      refine ⟨h.wf, h.max, h.fifo.snoc ?_⟩
      rw [if_neg (by omega)]
      exact .refused _ _
  · rw [Buffer.writeToBuffer, if_pos hneg] at hb
    obtain ⟨rfl, rfl⟩ := Prod.mk.inj (Option.some.inj hb)
    refine ⟨h.wf, h.max, h.fifo.snoc ?_⟩
    rw [Int.toNat_of_nonpos hneg, List.take_zero]
    split
    · simpa using Fifo.pushed s.buf.queue []
    · exact .refused _ _

theorem read (h : BufferInv m s) {n : ℤ} (hs : s.step (.read n) = some s') : BufferInv m s' := by
  obtain rfl := Option.some.inj hs
  rcases lt_or_ge 0 n with hpos | hneg
  · rcases lt_or_ge s.buf.getunused n with hlt | hle
    · rw [Buffer.read_short hpos hlt]
      refine ⟨h.wf, h.max, h.fifo.snoc ?_⟩
      rw [if_pos rfl]
      have hlen := h.wf.length_cast
      exact .short _ _ (by rw [Buffer.length_queue]; omega)
    · obtain ⟨b', hb', hwf, hmax, hq⟩ := h.wf.read_spec hpos hle
      rw [hb']
      refine ⟨hwf, hmax.trans h.max, h.fifo.snoc ?_⟩
      have hlen := h.wf.length_cast
      have hlt := h.wf.length_queue_lt
      rw [Buffer.length_queue] at hlt
      have hne : n.toNat ≠ sizeT (-1) := by
        have : (sizeT (-1) : ℤ) = 2 ^ 64 - 1 := by rw [sizeT_cast]; rfl
        omega
      rw [if_neg hne, hq]
      have := Fifo.popped (s.buf.queue.drop n.toNat) (s.buf.queue.take n.toNat)
      rwa [List.take_append_drop] at this
  · rw [Buffer.read, if_pos hneg]
    refine ⟨h.wf, h.max, h.fifo.snoc ?_⟩
    have hne : (0 : ℕ) ≠ sizeT (-1) := by decide
    rw [if_neg hne]
    exact Fifo.popped s.buf.queue []

theorem writeToSocket (h : BufferInv m s) {errno : ℕ} {o : ℕ → WriteResult} {k : ℕ}
    (ho : ∀ i < k, 0 < (o i).count) (hs : s.step (.writeToSocket errno o k) = some s') :
    BufferInv m s' := by
  simp only [BufferRun.step, Option.ite_none_right_eq_some, Option.some.injEq] at hs
  obtain ⟨⟨hret, hadm⟩, rfl⟩ := hs
  obtain ⟨hwf, hmax, hq, hsent⟩ := h.wf.writeToSocket_returned hret hadm ho
  refine ⟨hwf, hmax.trans h.max, h.fifo.snoc ?_⟩
  rw [hq, hsent]
  exact .drained _

/-- **One operation keeps the invariant.** -/
theorem step (h : BufferInv m s) {a : BufferAct} (ha : a.Ok m) (hs : s.step a = some s') :
    BufferInv m s' := by
  cases a with
  | write heap data n => exact h.write ha hs
  | read n => exact h.read hs
  | writeToSocket errno o k => exact h.writeToSocket ha hs

end BufferInv

theorem bufferInv_init {c m : ℤ} (heap : ℕ → UInt8) (hc : 1 ≤ c) (hm : 2 * max c m < 2 ^ 31) :
    BufferInv (max c m) (bufferLts c m heap).init := by
  refine ⟨Buffer.wf_new heap hc hm, ?_, .nil _⟩
  show (if m > c then m else c) = max c m
  rcases lt_or_ge c m with h | h
  · rw [if_pos h, max_eq_right h.le]
  · rw [if_neg (not_lt.2 h), max_eq_left h]

/-- **A buffer is a queue of bytes.**  After any sequence of operations the indices are in range,
the content is that of the queue of all the events so far, and the next operation does what the
operation of a queue does. -/
theorem buffer_refines_fifo {c m : ℤ} {heap : ℕ → UInt8} (hc : 1 ≤ c)
    (hm : 2 * max c m < 2 ^ 31) {as : List BufferAct} {s : BufferRun}
    (he : (bufferLts c m heap).exec (bufferLts c m heap).init as = some s)
    (ha : ∀ a ∈ as, a.Ok (max c m)) :
    s.buf.InRange ∧ s.buf.ActsAsFifo ∧ Fifo.Run [] s.log s.buf.queue := by
  have hr : (bufferLts c m heap).Reach (fun _ a => a.Ok (max c m)) s :=
    .of_allSteps .init he ((Lts.allSteps_label_iff he).2 ha)
  have hi : BufferInv (max c m) s :=
    hr.invariant (bufferInv_init heap hc hm) fun _ _ _ _ hi ha hs => hi.step ha hs
  exact ⟨hi.wf.inRange, hi.wf.actsAsFifo, hi.fifo⟩

/-- Two bytes are written, one is read, and the other one is sent. -/
def bufferThree : List BufferAct :=
  [.write (fun _ => 0) [1, 2] 2, .read 1, .writeToSocket 0 (fun _ => .accepted 1) 1]

theorem buffer_refines_fifo_three :
    ∃ s, (bufferLts 1 4 fun _ => 0).exec (bufferLts 1 4 fun _ => 0).init bufferThree = some s ∧
      s.buf.InRange ∧ s.buf.ActsAsFifo ∧ Fifo.Run [] s.log s.buf.queue := by
  have he := (Option.some_get (x := (bufferLts 1 4 fun _ => 0).exec
    (bufferLts 1 4 fun _ => 0).init bufferThree) (by decide +kernel)).symm
  exact ⟨_, he, buffer_refines_fifo (by decide) (by decide) he (by decide +kernel)⟩

end ProxySocket
