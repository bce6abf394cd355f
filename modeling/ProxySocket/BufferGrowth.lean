/-
**The capacities of an output buffer.**

`MustInsert` refuses `n` more bytes when the *capacity* and `n` exceed the maximum, not when the
bytes in the buffer and `n` do.  Whether a buffer that is not full can refuse a frame depends on the
capacities it can grow to: from 1024 in steps of a quarter, or, when the first frame asks for more
than twice that, from the sum of both.

Main definitions:

* `quarterMore`, `Chained` — one round of the growth loop, and what it reaches from an interval;
* `FrameCapacity` — the capacities of the output buffers of the connections;
* `FrameAct` — the frames that are written into such a buffer.

Main results:

* `FrameCapacity.room` — a capacity below the maximum is below it by more than a frame;
* `frameCapacity_mustInsert` — growing leads from one such capacity to another;
* `frame_accepted_iff` — **a frame is refused only when the bytes do not fit**.
-/

import Mathlib.Data.Int.ConditionallyCompleteOrder
import Mathlib.Order.Iterate
import ProxySocket.WriteErrors

set_option relaxedAutoImplicit false
set_option autoImplicit false

namespace ProxySocket

/-! ### A growth that is applied again and again -/

section Iterate

variable {α : Type*} [LinearOrder α] {f : α → α}

/-- What `f` reaches from the interval between `lo` and `hi` in some number of rounds. -/
def Chained (f : α → α) (lo hi c : α) : Prop := ∃ k : ℕ, f^[k] lo ≤ c ∧ c ≤ f^[k] hi

theorem Chained.apply (hf : Monotone f) {lo hi c : α} (h : Chained f lo hi c) :
    Chained f lo hi (f c) := by
  obtain ⟨k, hlo, hhi⟩ := h
  refine ⟨k + 1, ?_, ?_⟩
  · rw [Function.iterate_succ_apply']
    exact hf hlo
  · rw [Function.iterate_succ_apply']
    exact hf hhi

theorem Chained.lo_le (hf : Monotone f) {lo hi c : α} (hlo : lo ≤ f lo) (h : Chained f lo hi c) :
    lo ≤ c := by
  obtain ⟨k, hk, -⟩ := h
  exact (hf.monotone_iterate_of_le_map hlo (Nat.zero_le k)).trans hk

/-- **The gap below a bound.**  If the interval lies below `a` after `k` rounds and above `b` after
one more, then nothing that is reached lies between `a` and `b`. -/
theorem Chained.le_or_lt (hf : Monotone f) {lo hi a b c : α} (hlo : lo ≤ f lo) (hhi : hi ≤ f hi)
    {k : ℕ} (hk : f^[k] hi ≤ a) (hk' : b < f^[k + 1] lo) (h : Chained f lo hi c) :
    c ≤ a ∨ b < c := by
  obtain ⟨j, hj, hj'⟩ := h
  rcases Nat.lt_or_ge k j with hlt | hge
  · right
    calc b < f^[k + 1] lo := hk'
      _ ≤ f^[j] lo := hf.monotone_iterate_of_le_map hlo hlt
      _ ≤ c := hj
  · left
    calc c ≤ f^[j] hi := hj'
      _ ≤ f^[k] hi := hf.monotone_iterate_of_le_map hhi hge
      _ ≤ a := hk

end Iterate

/-! ### The capacities -/

/-- One round of the loop of `MustInsert`. -/
def quarterMore (c : ℤ) : ℤ := c + c / 4

theorem quarterMore_monotone : Monotone quarterMore := by
  intro a b hab
  simp only [quarterMore]
  omega

/-- The largest frame that `MakeMsg` and `makeProxyMsg` build. -/
def maxFrame : ℤ := 1032

/-- The second argument of `Buffer(1024, 40960)`. -/
def sendBufMax : ℤ := 40960

/-- **The capacities of an output buffer**: the maximum, or what the growth loop reaches from the
first capacity, or from its sum with a frame that is longer. -/
inductive FrameCapacity : ℤ → Prop
  | max : FrameCapacity sendBufMax
  | first {c : ℤ} : Chained quarterMore 1024 1024 c → FrameCapacity c
  | sum {c : ℤ} : Chained quarterMore 2049 2056 c → FrameCapacity c

namespace FrameCapacity

variable {c : ℤ}

theorem ge (h : FrameCapacity c) : 1024 ≤ c := by
  cases h with
  | max => decide
  | first h => exact h.lo_le quarterMore_monotone (by decide)
  | sum h =>
      have := h.lo_le quarterMore_monotone (by decide)
      omega

/-- Behind the first capacity no frame is longer than the buffer. -/
theorem eq_or_ge (h : FrameCapacity c) : c = 1024 ∨ maxFrame ≤ c := by
  cases h with
  | max => exact .inr (by decide)
  | first h =>
      rcases h.le_or_lt quarterMore_monotone (a := 1024) (b := maxFrame) (k := 0) (by decide)
        (by decide) (by decide) (by decide) with hle | hlt
      · exact .inl (le_antisymm hle (h.lo_le quarterMore_monotone (by decide)))
      · exact .inr hlt.le
  | sum h =>
      have := h.lo_le quarterMore_monotone (by decide)
      exact .inr (by simp only [maxFrame]; omega)

/-- **A capacity below the maximum is below it by more than a frame.** -/
theorem room (h : FrameCapacity c) (hle : c ≤ sendBufMax) :
    c = sendBufMax ∨ c + maxFrame ≤ sendBufMax := by
  cases h with
  | max => exact .inl rfl
  | first h =>
      -- sixteen rounds lead from 1024 to 36362, and one more to 45452
      rcases h.le_or_lt quarterMore_monotone (a := sendBufMax - maxFrame) (b := sendBufMax) (k := 16)
        (by decide) (by decide) (by decide) (by decide) with hc | hc
      · exact .inr (by omega)
      · exact absurd hle (not_le.2 hc)
  | sum h =>
      -- thirteen rounds lead from 2056 to 37382, and fourteen from 2049 to 46562
      rcases h.le_or_lt quarterMore_monotone (a := sendBufMax - maxFrame) (b := sendBufMax) (k := 13)
        (by decide) (by decide) (by decide) (by decide) with hc | hc
      · exact .inr (by omega)
      · exact absurd hle (not_le.2 hc)

/-- One more round of the growth loop. -/
theorem quarterMore (h : FrameCapacity c) (hle : ProxySocket.quarterMore c ≤ sendBufMax) :
    FrameCapacity (ProxySocket.quarterMore c) := by
  cases h with
  | max => exact absurd hle (by decide)
  | first h => exact .first (h.apply quarterMore_monotone)
  | sum h => exact .sum (h.apply quarterMore_monotone)

/-- All the rounds of the growth loop. -/
theorem enlarge {need c' : ℤ} (h : FrameCapacity c)
    (hc : Buffer.enlarge c need sendBufMax = some c') : FrameCapacity c' := by
  induction c using Buffer.enlarge.induct need sendBufMax with
  | case1 c hlt hok hgt =>
      rw [Buffer.enlarge, if_pos hlt, dif_pos hok, if_pos hgt] at hc
      exact Option.some.inj hc ▸ .max
  | case2 c hlt hok hgt ih =>
      rw [Buffer.enlarge, if_pos hlt, dif_pos hok, if_neg hgt] at hc
      exact ih (h.quarterMore (not_lt.1 hgt)) hc
  | case3 c hlt hok =>
      rw [Buffer.enlarge, if_pos hlt, dif_neg hok] at hc
      exact absurd hc (by simp)
  | case4 c hlt =>
      rw [Buffer.enlarge, if_neg hlt] at hc
      exact Option.some.inj hc ▸ h

end FrameCapacity

/-! ### The operations -/

namespace Buffer

variable {b : Buffer}

theorem resize_capacity (b : Buffer) (heap : ℕ → UInt8) (c : ℤ) :
    (b.resize heap c).capacity = b.capacity ∨ (b.resize heap c).capacity = c := by
  unfold resize
  split
  · exact .inl rfl
  · split
    · exact .inl rfl
    · exact .inr rfl

/-- **Growing** leads from one capacity of an output buffer to another. -/
theorem frameCapacity_mustInsert {b' : Buffer} {heap : ℕ → UInt8} {n : ℤ} (h : b.Wf)
    (hmax : b.maxCapacity = sendBufMax) (hc : FrameCapacity b.capacity) (hn : 1 ≤ n)
    (hn' : n ≤ maxFrame) (hb : b.mustInsert heap n = some (.ok b')) :
    FrameCapacity b'.capacity := by
  have hge := hc.ge
  have hle := h.capacity_le
  simp only [hmax, sendBufMax] at hle
  simp only [maxFrame] at hn'
  unfold mustInsert at hb
  by_cases hfree : b.getFreeSize ≥ n
  · rw [if_pos hfree] at hb
    exact Except.ok.inj (Option.some.inj hb) ▸ hc
  rw [if_neg hfree, int32_of_mem (x := b.capacity + n) (by omega) (by omega),
    int32_of_mem (x := b.capacity * 2) (by omega) (by omega)] at hb
  by_cases hneed : b.capacity + n > b.maxCapacity
  · rw [if_pos hneed] at hb
    exact absurd hb (by simp)
  have hborder : ¬b.capacity < doubleBorderLine := not_lt.2 hge
  simp only [if_neg hneed, if_neg hborder, Option.map_eq_some_iff] at hb
  obtain ⟨c, hnew, hb'⟩ := hb
  have hcap : FrameCapacity c := by
    split at hnew
    · -- only the first capacity is shorter than a frame
      obtain rfl := Option.some.inj hnew
      rcases hc.eq_or_ge with heq | hlong
      · exact .sum ⟨0, by simp only [Function.iterate_zero, id_eq]; omega,
          by simp only [Function.iterate_zero, id_eq]; omega⟩
      · simp only [maxFrame] at hlong
        omega
    · rw [hmax] at hnew
      exact hc.enlarge hnew
  obtain rfl := Except.ok.inj hb'
  rcases b.resize_capacity heap c with hr | hr
  · rw [hr]
    exact hc
  · rw [hr]
    exact hcap

/-- Writing leads from one capacity of an output buffer to another. -/
theorem frameCapacity_writeToBuffer {heap : ℕ → UInt8} {data : List UInt8} {n : ℤ} {r : ℕ × Buffer}
    (h : b.Wf) (hmax : b.maxCapacity = sendBufMax) (hc : FrameCapacity b.capacity) (hn : 1 ≤ n)
    (hn' : n ≤ maxFrame) (hb : b.writeToBuffer heap data n = some r) :
    FrameCapacity r.2.capacity := by
  rw [writeToBuffer, if_neg (by omega), Option.map_eq_some_iff] at hb
  obtain ⟨res, hres, rfl⟩ := hb
  cases res with
  | error e => exact hc
  | ok b' =>
      have hcap := frameCapacity_mustInsert h hmax hc hn hn' hres
      exact hcap

/-- `WriteToBuffer` takes all the `n` bytes. -/
def Accepts (b : Buffer) (heap : ℕ → UInt8) (data : List UInt8) (n : ℤ) : Prop :=
  ∃ b', b.writeToBuffer heap data n = some (n.toNat, b')

/-- A frame is accepted exactly when it fits into the maximum, whatever the capacity is now. -/
theorem Wf.accepts_iff (h : b.Wf) (hmax : b.maxCapacity = sendBufMax)
    (hc : FrameCapacity b.capacity) {heap : ℕ → UInt8} {data : List UInt8} {n : ℤ} (hn : 1 ≤ n)
    (hn' : n ≤ maxFrame) : b.Accepts heap data n ↔ b.getunused + n ≤ sendBufMax := by
  have hle := h.capacity_le
  have hfits : b.maxCapacity + n < 2 ^ 31 := by
    simp only [hmax, sendBufMax, maxFrame] at hn' ⊢
    omega
  rw [Accepts, writeToBuffer, if_neg (by omega)]
  rcases h.mustInsert_spec heap (by omega) hfits with
    ⟨b', hb', hwf, hq, hfree, hmax'⟩ | ⟨hb', hfree, hneed⟩
  · have hlen := congrArg List.length hq
    rw [length_queue, length_queue] at hlen
    rw [hwf.getFreeSize_eq, ← hwf.length_cast, hlen, h.length_cast] at hfree
    have hle' := hwf.capacity_le
    have hret : sizeT n = n.toNat := by
      simp only [maxFrame] at hn'
      unfold sizeT
      omega
    rw [hb']
    refine iff_of_true ⟨_, by rw [Option.map_some, hret]⟩ ?_
    rw [hmax', hmax] at hle'
    omega
  · rw [hb']
    refine iff_of_false ?_ ?_
    · rintro ⟨b', hb'⟩
      have hzero := congrArg Prod.fst (Option.some.inj hb')
      simp only at hzero
      omega
    · rw [hmax] at hle hneed
      rw [h.getFreeSize_eq] at hfree
      rcases hc.room hle with hfull | hroom
      · omega
      · omega

/-- Reading changes the read index only. -/
theorem read_capacity (b : Buffer) (n : ℤ) : (b.read n).2.2.capacity = b.capacity := by
  unfold read
  split
  · rfl
  · split
    · rfl
    · rfl

end Buffer

namespace WriteLoop

theorem advance_capacity (s : WriteLoop) (n : ℕ) :
    (s.advance n).buf.capacity = s.buf.capacity := rfl

/-- Whatever `write(2)` answers, the buffer stays well formed and keeps its capacity. -/
theorem write_wf {s : WriteLoop} (h : s.buf.Wf) (r : WriteResult) :
    (s.write r).buf.Wf ∧ (s.write r).buf.capacity = s.buf.capacity := by
  have hadvance : ∀ n, (s.advance n).buf.Wf := by
    intro n
    have hset := h.setReadIndex (Nat.mod_lt (sizeT (s.buf.start + n))
      (Nat.zero_lt_of_lt h.length_lt))
    rw [← h.readIndex_advance] at hset
    exact hset
  cases hr : s.returned with
  | true =>
      rw [write_of_returned hr]
      exact ⟨h, rfl⟩
  | false =>
      cases r with
      | accepted n =>
          rcases Nat.eq_zero_or_pos n with rfl | hn
          · rw [write_zero hr]
            split
            · exact ⟨h, rfl⟩
            · exact ⟨h, rfl⟩
          · rw [write_accepted hr hn]
            exact ⟨hadvance n, s.advance_capacity n⟩
      | failed e =>
          rw [write_failed hr]
          -- the number itself is not to be evaluated
          generalize sizeT (-1) = n
          exact ⟨hadvance n, s.advance_capacity n⟩

theorem after_wf {s : WriteLoop} (h : s.buf.Wf) (o : ℕ → WriteResult) (k : ℕ) :
    (s.after o k).buf.Wf ∧ (s.after o k).buf.capacity = s.buf.capacity := by
  induction k with
  | zero => exact ⟨h, rfl⟩
  | succ k ih =>
      obtain ⟨hwf, hcap⟩ := ih
      obtain ⟨hwf', hcap'⟩ := write_wf hwf (o k)
      exact ⟨hwf', hcap'.trans hcap⟩

end WriteLoop

/-! ### Any history of frames and flushes -/

/-- The frames that are written.  Nothing is asked of the flushes. -/
def FrameAct : BufferAct → Prop
  | .write _ _ n => 1 ≤ n ∧ n ≤ maxFrame
  | _ => True

instance instDecidableFrameAct : (a : BufferAct) → Decidable (FrameAct a)
  | .write _ _ _ => inferInstanceAs (Decidable (_ ∧ _))
  | .read _ => .isTrue trivial
  | .writeToSocket _ _ _ => .isTrue trivial

/-- The invariant of an output buffer. -/
structure OutBuf (b : Buffer) : Prop where
  wf : b.Wf
  max : b.maxCapacity = sendBufMax
  capacity : FrameCapacity b.capacity

theorem outBuf_new (heap : ℕ → UInt8) : OutBuf (Buffer.new 1024 40960 heap) where
  wf := Buffer.wf_new heap (by decide) (by decide)
  max := rfl
  capacity := .first ⟨0, le_rfl, le_rfl⟩

/-- **One operation keeps the invariant.** -/
theorem OutBuf.step {s s' : BufferRun} {a : BufferAct} (h : OutBuf s.buf) (ha : FrameAct a)
    (hs : s.step a = some s') : OutBuf s'.buf := by
  cases a with
  | write heap data n =>
      simp only [BufferRun.step, Option.ite_none_right_eq_some, Option.map_eq_some_iff] at hs
      obtain ⟨hdata, r, hb, rfl⟩ := hs
      obtain ⟨hn, hn'⟩ := ha
      have hcap := Buffer.frameCapacity_writeToBuffer h.wf h.max h.capacity hn hn' hb
      have hfits : s.buf.maxCapacity + n < 2 ^ 31 := by
        simp only [h.max, sendBufMax, maxFrame] at hn' ⊢
        omega
      rcases h.wf.writeToBuffer_spec heap (by omega) hdata hfits with
        ⟨b', hb', hwf, hmax, -⟩ | hb'
      · obtain rfl := Option.some.inj (hb.symm.trans hb')
        exact ⟨hwf, hmax.trans h.max, hcap⟩
      · obtain rfl := Option.some.inj (hb.symm.trans hb')
        exact h
  | read n =>
      obtain rfl := Option.some.inj hs
      have hcap := s.buf.read_capacity n
      rcases lt_or_ge 0 n with hpos | hneg
      · rcases lt_or_ge s.buf.getunused n with hlt | hle
        · rw [Buffer.read_short hpos hlt]
          exact h
        · obtain ⟨b', hb', hwf, hmax, -⟩ := h.wf.read_spec hpos hle
          rw [hb'] at hcap ⊢
          exact ⟨hwf, hmax.trans h.max, hcap ▸ h.capacity⟩
      · rw [Buffer.read, if_pos hneg]
        exact h
  | writeToSocket errno o k =>
      simp only [BufferRun.step, Option.ite_none_right_eq_some, Option.some.injEq] at hs
      obtain ⟨-, rfl⟩ := hs
      obtain ⟨hwf, hcap⟩ := WriteLoop.after_wf (s := s.buf.writeToSocket errno) h.wf o k
      exact ⟨hwf, (WriteLoop.after_maxCapacity _ _ _).trans h.max, hcap ▸ h.capacity⟩

/-- **A frame is refused only when the bytes do not fit.**  After any history of frames and
flushes, whatever the answers of `write(2)` were. -/
theorem frame_accepted_iff {heap heap' : ℕ → UInt8} {as : List BufferAct} {s : BufferRun}
    (he : (bufferLts 1024 40960 heap).exec (bufferLts 1024 40960 heap).init as = some s)
    (ha : ∀ a ∈ as, FrameAct a) {data : List UInt8} {n : ℤ} (hn : 1 ≤ n) (hn' : n ≤ 1032) :
    s.buf.Accepts heap' data n ↔ s.buf.getunused + n ≤ 40960 := by
  have hr : (bufferLts 1024 40960 heap).Reach (fun _ a => FrameAct a) s :=
    .of_allSteps .init he ((Lts.allSteps_label_iff he).2 ha)
  have hinv : OutBuf s.buf := hr.invariant (I := fun s => OutBuf s.buf) (outBuf_new heap)
    fun _ _ _ _ hi ha hstep => hi.step ha hstep
  exact hinv.wf.accepts_iff hinv.max hinv.capacity hn hn'

/-- A frame is written and partly sent before the next one. -/
def frameTwice : List BufferAct :=
  [.write (fun _ => 0) [1, 2] 2, .writeToSocket 0 (fun k => .accepted (1 - k)) 2]

theorem frame_accepted_iff_twice :
    ∃ s, (bufferLts 1024 40960 fun _ => 0).exec (bufferLts 1024 40960 fun _ => 0).init frameTwice =
        some s ∧ s.buf.Accepts (fun _ => 0) [3, 4, 5] 3 := by
  have he := (Option.some_get (x := (bufferLts 1024 40960 fun _ => 0).exec
    (bufferLts 1024 40960 fun _ => 0).init frameTwice) (by decide +kernel)).symm
  exact ⟨_, he, (frame_accepted_iff he (by decide) (by decide) (by decide)).2 (by decide +kernel)⟩

end ProxySocket
