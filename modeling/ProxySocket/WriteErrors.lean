/-
**What an error of `write(2)` does to a buffer.**

After an error the read index of the buffer moves back by one cell, or from the first cell to the
one with the number `2 ^ 64 - 1`, modulo the size of the ring.  The loop goes on with the bytes it
finds there.

Main definitions:

* `Faithful` — a call removes the bytes that the kernel took, and returns their number;
* `CleanWrites` — the sequences of answers that end the call without a harmful error.

Main results:

* `Buffer.Wf.failed_index_iff` — the one cell in which an error does no harm;
* `WriteLoop.Sending.failed`, `WriteLoop.Sending.failed_not_conserved` — the two kinds of error;
* `writeToSocket_faithful_iff` — **which sequences of answers a call survives**.
-/

import ProxySocket.SocketWrite

set_option relaxedAutoImplicit false
set_option autoImplicit false

namespace ProxySocket

/-! ### Clean sequences of answers -/

/-- **What a call is for**: it returns the number of bytes the kernel took, and at any time the
bytes in the buffer are those that the kernel has not taken. -/
def Faithful (b : Buffer) (errno : ℕ) (o : ℕ → WriteResult) : Prop :=
  (∃ k, (b.writeToSocket errno).Returns o k ∧
    sizeT ((b.writeToSocket errno).after o k).totalSentNum =
      ((b.writeToSocket errno).after o k).sent.length) ∧
  ∀ k, ((b.writeToSocket errno).after o k).sent ++
    ((b.writeToSocket errno).after o k).buf.queue = b.queue

/-- The answers of a call that ends and meets no harmful error, when the read index is `pos`, `left`
bytes are in the buffer and `fails` calls have failed.  An error leaves the read index alone only at
the cell `0` of a ring whose size divides `2 ^ 64 - 1`, and spoils the result unless their number is
a multiple of `2 ^ 32`. -/
def CleanWrites (size : ℕ) : (pos left errno fails : ℕ) → List WriteResult → Prop
  | _, left, _, fails, [] => left = 0 ∧ fails % 2 ^ 32 = 0
  | pos, left, errno, fails, .accepted 0 :: rs =>
      left ≠ 0 ∧ if errno = eintr then CleanWrites size pos left errno fails rs
        else rs = [] ∧ fails % 2 ^ 32 = 0
  | pos, left, errno, fails, .accepted (n + 1) :: rs =>
      left ≠ 0 ∧ CleanWrites size ((pos + (n + 1)) % size) (left - (n + 1)) errno fails rs
  | pos, left, _, fails, .failed e :: rs =>
      left ≠ 0 ∧ (pos = 0 ∧ size ∣ 2 ^ 64 - 1) ∧ CleanWrites size pos left e (fails + 1) rs

instance decidableCleanWrites (size : ℕ) : (pos left errno fails : ℕ) → (rs : List WriteResult) →
    Decidable (CleanWrites size pos left errno fails rs)
  | _, _, _, _, [] => inferInstanceAs (Decidable (_ ∧ _))
  | pos, left, errno, fails, .accepted 0 :: rs =>
      have := decidableCleanWrites size pos left errno fails rs
      inferInstanceAs (Decidable (left ≠ 0 ∧ if errno = eintr
        then CleanWrites size pos left errno fails rs else rs = [] ∧ fails % 2 ^ 32 = 0))
  | pos, left, errno, fails, .accepted (n + 1) :: rs =>
      have := decidableCleanWrites size ((pos + (n + 1)) % size) (left - (n + 1)) errno fails rs
      inferInstanceAs (Decidable (_ ∧ _))
  | pos, left, _, fails, .failed e :: rs =>
      have := decidableCleanWrites size pos left e (fails + 1) rs
      inferInstanceAs (Decidable (_ ∧ _ ∧ _))

/-! ### The read index after an error -/

namespace Buffer.Wf

variable {b : Buffer}

/-- Any read index inside the ring. -/
theorem setReadIndex (h : b.Wf) {r : ℕ} (hr : r < b.size) : Wf { b with readIndex := r } := by
  have hsc := h.size_cast
  refine ⟨h.capacity_pos, h.capacity_le, h.max_lt, h.dataSize_eq, ?_, ?_, h.write_nonneg,
    h.write_lt⟩
  all_goals
    simp only
    omega

/-- The length of the queue tells the read index. -/
theorem readIndex_unique (h : b.Wf) {r : ℕ} (hr : r < b.size)
    (hlen : length { b with readIndex := r } = b.length) : r = b.start := by
  have h' := h.setReadIndex hr
  have hw := h.writeIndex_eq
  have hw' := h'.writeIndex_eq
  have hsl := h.start_lt
  have hll := h.length_lt
  rw [hlen] at hw'
  simp only [hw] at hw'
  have hmod : (b.start + b.length) % b.size = (r + b.length) % b.size := by
    exact_mod_cast hw'
  rcases Nat.lt_or_ge r b.start with hlt | hge
  · exact absurd hmod.symm (Ring.mod_ne_mod (by omega) (by omega))
  · rcases Nat.lt_or_ge b.start r with hlt | hle
    · exact absurd hmod (Ring.mod_ne_mod (by omega) (by omega))
    · omega

/-- An error moves the read index back by one cell, modulo `2 ^ 64` and then modulo the size. -/
theorem failed_index_iff (h : b.Wf) :
    sizeT (b.start + sizeT (-1)) % b.size = b.start ↔ b.start = 0 ∧ b.size ∣ 2 ^ 64 - 1 := by
  have hsl := h.start_lt
  have hsz := h.size_le
  have hneg : sizeT (-1) = 2 ^ 64 - 1 := by decide
  rw [hneg, Nat.dvd_iff_mod_eq_zero]
  rcases Nat.eq_zero_or_pos b.start with h₀ | hpos
  · rw [h₀, show sizeT ((0 : ℕ) + (2 ^ 64 - 1 : ℕ)) = 2 ^ 64 - 1 by decide]
    omega
  · have hidx : sizeT (b.start + (2 ^ 64 - 1 : ℕ)) = b.start - 1 := by
      have := sizeT_cast (b.start + (2 ^ 64 - 1 : ℕ))
      omega
    rw [hidx, Nat.mod_eq_of_lt (by omega)]
    omega

end Buffer.Wf

/-! ### Faithful calls -/

namespace WriteLoop

variable {s : WriteLoop} {q : List UInt8} {e : ℕ}

/-- The number that `WriteToSocket` returns, after `e` failed calls. -/
theorem Sending.total_eq_iff (h : Sending q e s) (hq : q.length < 2 ^ 31) :
    sizeT s.totalSentNum = s.sent.length ↔ e % 2 ^ 32 = 0 := by
  have hlen := congrArg List.length h.conserved
  rw [List.length_append] at hlen
  have hcast := sizeT_cast s.totalSentNum
  have hmod := int32_emod (s.sent.length - e)
  have hmem := int32_mem (s.sent.length - e)
  rw [h.total] at hcast ⊢
  omega

/-- An error moves the read index, and nothing else that counts. -/
theorem Sending.failed_eq (h : Sending q e s) (hr : s.returned = false) (errno : ℕ) :
    s.write (.failed errno) = { s with
      buf := { s.buf with readIndex := (sizeT (s.buf.start + sizeT (-1)) % s.buf.size : ℕ) }
      totalSentNum := int32 (s.sent.length - (e + 1 : ℕ))
      errno := errno } := by
  have htotal : int32 (sizeT (sizeT s.totalSentNum + sizeT (-1))) =
      int32 (s.sent.length - (e + 1 : ℕ)) := by
    have hneg : (sizeT (-1) : ℤ) = 2 ^ 64 - 1 := by rw [sizeT_cast]; rfl
    rw [h.total, int32_sizeT_add, int32_eq_iff, hneg]
    omega
  rw [write_failed hr, advance, h.wf.readIndex_advance, htotal]

/-- **A harmless error** changes nothing but the number of failed calls. -/
theorem Sending.failed (h : Sending q e s) (hr : s.returned = false) (errno : ℕ)
    (hp : s.buf.start = 0 ∧ s.buf.size ∣ 2 ^ 64 - 1) :
    Sending q (e + 1) (s.write (.failed errno)) ∧
      (s.write (.failed errno)).buf = s.buf ∧ (s.write (.failed errno)).broke = s.broke ∧
      (s.write (.failed errno)).errno = errno := by
  rw [h.failed_eq hr, h.wf.failed_index_iff.2 hp, h.wf.start_cast]
  exact ⟨⟨h.wf, h.conserved, rfl⟩, rfl, rfl, rfl⟩

/-- **Any other error** leaves other bytes in the buffer. -/
theorem Sending.failed_not_conserved (h : Sending q e s) (hr : s.returned = false) (errno : ℕ)
    (hp : ¬ (s.buf.start = 0 ∧ s.buf.size ∣ 2 ^ 64 - 1)) :
    (s.write (.failed errno)).sent ++ (s.write (.failed errno)).buf.queue ≠ q := by
  intro hc
  rw [h.failed_eq hr, ← h.conserved] at hc
  have hlen := congrArg List.length (List.append_cancel_left hc)
  rw [Buffer.length_queue, Buffer.length_queue] at hlen
  have hpos := Nat.zero_lt_of_lt h.wf.length_lt
  exact hp (h.wf.failed_index_iff.1 (h.wf.readIndex_unique (Nat.mod_lt _ hpos) hlen))

/-- The loop returns after `k` calls with the number of bytes sent, and up to then the bytes in the
buffer were always those the kernel had not taken. -/
def FaithfulUntil (s : WriteLoop) (q : List UInt8) (o : ℕ → WriteResult) (k : ℕ) : Prop :=
  (s.Returns o k ∧ sizeT (s.after o k).totalSentNum = (s.after o k).sent.length) ∧
    ∀ i < k + 1, (s.after o i).sent ++ (s.after o i).buf.queue = q

/-- The first call of a faithful loop, and the rest of them. -/
theorem faithfulUntil_succ (hr : s.returned = false) (hc : s.sent ++ s.buf.queue = q)
    (o : ℕ → WriteResult) (k : ℕ) :
    s.FaithfulUntil q o (k + 1) ↔
      (s.write (o 0)).FaithfulUntil q (fun i => o (i + 1)) k := by
  unfold FaithfulUntil Returns
  rw [after_succ', Nat.forall_lt_succ_left, Nat.forall_lt_succ_left]
  simp only [after_zero, hr, hc, true_and, after_succ']

/-- A loop that was left by its `break` makes no more calls. -/
theorem Sending.faithfulUntil_broke (h : Sending q e s) (hq : q.length < 2 ^ 31)
    (o : ℕ → WriteResult) (k : ℕ) :
    ({ s with broke := true } : WriteLoop).FaithfulUntil q o k ↔
      (List.range k).map o = [] ∧ e % 2 ^ 32 = 0 := by
  have hret : ({ s with broke := true } : WriteLoop).returned = true := rfl
  unfold FaithfulUntil Returns
  simp only [after_of_returned hret, hret, h.total_eq_iff hq, h.conserved, true_and,
    List.map_eq_nil_iff, List.range_eq_nil, implies_true, and_true]
  refine and_congr_left fun _ => ⟨fun hi => ?_, fun hk i hi => ?_⟩
  · by_contra hk
    exact absurd (hi 0 (Nat.pos_of_ne_zero hk)) (by decide)
  · omega

/-- **The loop from any of its states**, by induction on the number of calls: the rest of the calls
is faithful exactly when the rest of the answers is clean. -/
theorem Sending.faithfulUntil_iff (h : Sending q e s) (hb : s.broke = false)
    (hq : q.length < 2 ^ 31) {o : ℕ → WriteResult}
    (ho : ∀ k, (s.after o k).returned = false → (s.after o k).Admissible (o k)) (k : ℕ) :
    s.FaithfulUntil q o k ↔ CleanWrites s.buf.size s.buf.start s.buf.queue.length s.errno e
      ((List.range k).map o) := by
  induction k generalizing s o e with
  | zero =>
      have hret : s.returned = true ↔ s.buf.queue.length = 0 := by
        rw [h.returned_iff, hb, List.length_eq_zero_iff]
        simp
      simp only [FaithfulUntil, Returns, after_zero, List.range_zero, List.map_nil, CleanWrites,
        h.total_eq_iff hq, hret]
      constructor
      · rintro ⟨⟨⟨hl, -⟩, he⟩, -⟩
        exact ⟨hl, he⟩
      · rintro ⟨hl, he⟩
        refine ⟨⟨⟨hl, fun i hi => absurd hi (Nat.not_lt_zero i)⟩, he⟩, fun i hi => ?_⟩
        obtain rfl := Nat.lt_one_iff.1 hi
        exact h.conserved
  | succ k ih =>
      rw [List.range_succ_eq_map, List.map_cons, List.map_map]
      have hleft : s.returned = false ↔ s.buf.queue.length ≠ 0 := by
        rw [← Bool.not_eq_true, h.returned_iff, hb, Ne, List.length_eq_zero_iff]
        simp
      cases hr : s.returned with
      | true =>
          have hl : ¬ s.buf.queue.length ≠ 0 := by
            rw [← hleft, hr]
            decide
          refine iff_of_false (fun hf => ?_) fun hc => hl ?_
          · have := hf.1.1.2 0 (Nat.succ_pos k)
            rw [after_zero, hr] at this
            exact absurd this (by decide)
          · cases hok : o 0 with
            | accepted n =>
                rw [hok] at hc
                cases n with
                | zero => exact hc.1
                | succ n => exact hc.1
            | failed errno =>
                rw [hok] at hc
                exact hc.1
      | false =>
          have hl := hleft.1 hr
          have ho' : ∀ k, ((s.write (o 0)).after (fun i => o (i + 1)) k).returned = false →
              ((s.write (o 0)).after (fun i => o (i + 1)) k).Admissible (o (k + 1)) := by
            intro k hk
            rw [← after_succ'] at hk ⊢
            exact ho (k + 1) hk
          rw [faithfulUntil_succ hr h.conserved]
          have hadm := ho 0 hr
          rw [after_zero] at hadm
          cases hok : o 0 with
          | accepted n =>
              rw [hok] at ho' hadm
              cases n with
              | zero =>
                  rw [CleanWrites, and_iff_right hl]
                  by_cases he : s.errno = eintr
                  · rw [write_zero hr, if_pos he] at ho' ⊢
                    rw [if_pos he]
                    exact ih h hb ho'
                  · -- the loop is left, so this is its last call
                    rw [write_zero hr, if_neg he, if_neg he]
                    exact h.faithfulUntil_broke hq _ k
              | succ n =>
                  obtain ⟨h', hb', he', hlen⟩ := h.accept hr (Nat.succ_pos n) hadm
                  obtain ⟨hsize, hstart, hleft'⟩ := h.accept_buf hr (Nat.succ_pos n) hadm
                  rw [CleanWrites, and_iff_right hl, ih h' (hb'.trans hb) ho', hsize, hstart, he',
                    hleft']
                  rfl
          | failed errno =>
              rw [hok] at ho'
              rw [CleanWrites, and_iff_right hl]
              by_cases hp : s.buf.start = 0 ∧ s.buf.size ∣ 2 ^ 64 - 1
              · obtain ⟨h', hbuf, hb', he'⟩ := h.failed hr errno hp
                rw [and_iff_right hp, ih h' (hb'.trans hb) ho', hbuf, he']
                rfl
              · refine iff_of_false (fun hf => ?_) fun hc => hp hc.1
                exact h.failed_not_conserved hr errno hp (hf.2 0 (Nat.succ_pos k))

end WriteLoop

theorem faithful_iff_exists {b : Buffer} {errno : ℕ} {o : ℕ → WriteResult} :
    Faithful b errno o ↔ ∃ k, (b.writeToSocket errno).FaithfulUntil b.queue o k := by
  constructor
  · rintro ⟨⟨k, hk⟩, hall⟩
    exact ⟨k, hk, fun i _ => hall i⟩
  · rintro ⟨k, hk, hall⟩
    refine ⟨⟨k, hk⟩, fun i => ?_⟩
    -- nothing happens after the loop has returned
    rcases Nat.lt_or_ge i (k + 1) with hi | hi
    · exact hall i hi
    · rw [(b.writeToSocket errno).after_of_le hk.1.1 (by omega)]
      exact hall k (Nat.lt_succ_self k)

/-- **Which sequences of answers a call of `WriteToSocket` survives.**  The call returns, removes
from the front of the buffer just the bytes that the kernel took, and returns their number, exactly
when the answers up to its end are clean. -/
theorem writeToSocket_faithful_iff {b : Buffer} (hb : b.Wf) {errno : ℕ} {o : ℕ → WriteResult}
    (ho : ∀ k, ((b.writeToSocket errno).after o k).returned = false →
      ((b.writeToSocket errno).after o k).Admissible (o k)) :
    Faithful b errno o ↔
      ∃ k, CleanWrites b.size b.start b.queue.length errno 0 ((List.range k).map o) := by
  rw [faithful_iff_exists]
  exact exists_congr fun k =>
    (WriteLoop.sending_start hb errno).faithfulUntil_iff rfl hb.length_queue_lt ho k

/-- The output buffer of a connection with two bytes in it. -/
def twoBytes : Buffer :=
  { Buffer.new 1024 40960 (fun _ => 0) with writeIndex := 2 }

theorem twoBytes_wf : twoBytes.Wf := by constructor <;> decide

/-- A first call that takes one byte, and a second one that takes the other. -/
theorem writeToSocket_faithful_two : Faithful twoBytes 0 fun _ => .accepted 1 := by
  refine (writeToSocket_faithful_iff twoBytes_wf fun k hk => ?_).2 ⟨2, by decide⟩
  rcases k with _ | _ | k
  · decide +kernel
  · decide +kernel
  · rw [WriteLoop.after_of_le _ (by decide +kernel) (Nat.le_add_left 2 k)] at hk
    exact absurd hk (by decide +kernel)

/-- The kernel has no room (`EAGAIN`) when two bytes are to be sent: the read index moves from the
first cell to the cell `2 ^ 64 - 1` modulo `1025`, and the bytes from there on are in the buffer. -/
theorem writeToSocket_again_not_faithful :
    ¬ ∀ (b : Buffer) (errno : ℕ) (o : ℕ → WriteResult), b.Wf →
      (∀ k, ((b.writeToSocket errno).after o k).returned = false →
        ((b.writeToSocket errno).after o k).Admissible (o k)) → Faithful b errno o := by
  intro h
  have hf := (h twoBytes 0 (fun _ => .failed 11) twoBytes_wf fun _ _ => trivial).2 1
  exact absurd (congrArg List.length hf) (by decide +kernel)

end ProxySocket
