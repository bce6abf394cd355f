/-
**The output buffer of a connection.**

A `Buffer` is a ring of `data_size_` cells that grows up to a maximal capacity; one cell more than
the capacity is allocated, so that equal indices mean an empty ring.  All the arithmetic is that of
32-bit `int`s, and the sizes returned to the caller are `size_t`s.

Main definitions:

* `int32`, `sizeT` — the conversions of the machine's integer types;
* `Buffer` and its operations `read` and `writeToBuffer` (with `mustInsert` and `resize`);
* `Buffer.Wf`, `Buffer.queue` — the representation invariant, and the bytes in the buffer.

Main results:

* `Buffer.Wf.move` — every place of the queue in the ring is a buffer with that queue;
* `Buffer.Wf.mustInsert_spec` — what the growth of a buffer does, and when it gives up;
* `Buffer.Wf.writeToBuffer_spec`, `Buffer.Wf.read_spec` — **the operations on the queue**.
-/

import Mathlib.Data.Int.Basic
import Mathlib.Tactic.Linarith
import ProxySocket.Ring

set_option relaxedAutoImplicit false
set_option autoImplicit false

namespace ProxySocket

/-! ### Machine integers -/

/-- The value of type `int` that stands for `x`. -/
def int32 (x : ℤ) : ℤ := (Int32.ofInt x).toInt

/-- The value of type `size_t` that stands for `x`. -/
def sizeT (x : ℤ) : ℕ := (x % 2 ^ 64).toNat

theorem int32_eq_bmod (x : ℤ) : int32 x = x.bmod (2 ^ 32) := Int32.toInt_ofInt

theorem int32_of_mem {x : ℤ} (h₀ : -2 ^ 31 ≤ x) (h : x < 2 ^ 31) : int32 x = x := by
  simp only [int32_eq_bmod, Int.bmod]
  split <;> omega

theorem int32_eq_iff {x y : ℤ} : int32 x = int32 y ↔ x % 2 ^ 32 = y % 2 ^ 32 := by
  simp only [int32_eq_bmod, Int.bmod]
  constructor <;> intro h
  · split at h <;> split at h <;> omega
  · split <;> split <;> omega

theorem int32_emod (x : ℤ) : int32 x % 2 ^ 32 = x % 2 ^ 32 := by
  simp only [int32_eq_bmod, Int.bmod]
  split <;> omega

theorem int32_mem (x : ℤ) : -2 ^ 31 ≤ int32 x ∧ int32 x < 2 ^ 31 := by
  simp only [int32_eq_bmod, Int.bmod]
  split <;> omega

theorem sizeT_cast (x : ℤ) : (sizeT x : ℤ) = x % 2 ^ 64 :=
  Int.toNat_of_nonneg (Int.emod_nonneg _ (by decide))

/-- An `int` that a `size_t` is added to. -/
theorem int32_sizeT_add (x : ℤ) (n : ℕ) :
    int32 (sizeT (sizeT (int32 x) + n)) = int32 (x + n) := by
  have h := int32_emod x
  rw [int32_eq_iff, sizeT_cast, sizeT_cast]
  omega

theorem sizeT_natCast {n : ℕ} (h : n < 2 ^ 64) : sizeT n = n := by
  unfold sizeT
  omega

/-! ### The buffer -/

/-- The constant `DOUBLE_BORDER_LINE`: smaller buffers grow to twice their capacity. -/
def doubleBorderLine : ℤ := 1024

/-- A `Buffer`.  The bytes that `data_` points to are given by their index. -/
structure Buffer where
  capacity : ℤ
  maxCapacity : ℤ
  dataSize : ℤ
  data : ℕ → UInt8
  readIndex : ℤ := 0
  writeIndex : ℤ := 0

namespace Buffer

/-- The constructor.  The bytes are what `malloc` found on the heap. -/
def new (capacity maxCapacity : ℤ) (heap : ℕ → UInt8) : Buffer where
  capacity := capacity
  maxCapacity := if maxCapacity > capacity then maxCapacity else capacity
  dataSize := int32 (capacity + 1)
  data := heap

/-- `Buffer::getunused`: the number of bytes in the buffer. -/
def getunused (b : Buffer) : ℤ :=
  if b.writeIndex ≥ b.readIndex then int32 (b.writeIndex - b.readIndex)
  else int32 (int32 (b.dataSize - b.readIndex) + b.writeIndex)

/-- `Buffer::GetFreeSize`. -/
def getFreeSize (b : Buffer) : ℤ := int32 (b.capacity - b.getunused)

/-- The `cur_index` of the loops: `i` cells behind the index `origin`. -/
def curIndex (b : Buffer) (origin : ℤ) (i : ℕ) : ℤ := (int32 (origin + i)).tmod b.dataSize

/-- The index behind the last `cur_index` of a loop of `n` rounds. -/
def nextIndex (b : Buffer) (origin : ℤ) (n : ℕ) : ℤ :=
  (int32 (b.curIndex origin (n - 1) + 1)).tmod b.dataSize

/-- The second half of `resize`: the bytes move to the front of a new block, whose other bytes are
what `malloc` found on the heap. -/
def relocate (b : Buffer) (heap : ℕ → UInt8) (capacity : ℤ) : Buffer :=
  { b with
    data := fun i =>
      if (i : ℤ) < b.getunused then b.data (b.curIndex b.readIndex i).toNat else heap i
    dataSize := int32 (capacity + 1)
    capacity := capacity
    readIndex := 0
    writeIndex := b.getunused }

/-- `Buffer::resize`. -/
def resize (b : Buffer) (heap : ℕ → UInt8) (capacity : ℤ) : Buffer :=
  if b.getunused > capacity then b
  else if capacity = b.capacity then b
  else b.relocate heap capacity

/-- The loop of `MustInsert`: a quarter more until the need is met or the maximum is passed.  It has
no result where the C++ loop never ends (`newcap / 4` is `0`, or negative) or overflows. -/
def enlarge (newcap need maxCapacity : ℤ) : Option ℤ :=
  if newcap < need then
    if _h : 4 ≤ newcap ∧ newcap + newcap / 4 < 2 ^ 31 then
      if newcap + newcap / 4 > maxCapacity then some maxCapacity
      else enlarge (newcap + newcap / 4) need maxCapacity
    else none
  else some newcap
termination_by (need - newcap).toNat
decreasing_by omega

/-- `Buffer::MustInsert`: room for `insertLen` more bytes, or the exception it throws. -/
def mustInsert (b : Buffer) (heap : ℕ → UInt8) (insertLen : ℤ) : Option (Except String Buffer) :=
  if b.getFreeSize ≥ insertLen then some (.ok b)
  else
    let minCapNeed := int32 (b.capacity + insertLen)
    if minCapNeed > b.maxCapacity then some (.error "out of capacity")
    else
      let doublecap := int32 (b.capacity * 2)
      let newcap :=
        if minCapNeed > doublecap then some minCapNeed
        else if b.capacity < doubleBorderLine then
          some (if doublecap ≤ b.maxCapacity then doublecap else b.maxCapacity)
        else enlarge b.capacity minCapNeed b.maxCapacity
      newcap.map fun c => .ok (b.resize heap c)

/-- The loop of `WriteToBuffer`, from its `i`-th round on. -/
def storeFrom (b : Buffer) (origin : ℤ) : ℕ → List UInt8 → (ℕ → UInt8) → ℕ → UInt8
  | _, [], mem => mem
  | i, x :: xs, mem =>
      b.storeFrom origin (i + 1) xs (Function.update mem (b.curIndex origin i).toNat x)

/-- `Buffer::WriteToBuffer`: the number of bytes written, and the buffer. -/
def writeToBuffer (b : Buffer) (heap : ℕ → UInt8) (data : List UInt8) (expectLen : ℤ) :
    Option (ℕ × Buffer) :=
  if expectLen ≤ 0 then some (0, b)
  else
    (b.mustInsert heap expectLen).map fun
      | .error _ => (0, b)
      | .ok b =>
          (sizeT expectLen,
            { b with
              data := b.storeFrom b.writeIndex 0 (data.take expectLen.toNat) b.data
              writeIndex := b.nextIndex b.writeIndex expectLen.toNat })

/-- `Buffer::read`: the size returned, the bytes copied to the caller, and the buffer. -/
def read (b : Buffer) (expectLen : ℤ) : ℕ × List UInt8 × Buffer :=
  if expectLen ≤ 0 then (0, [], b)
  else if expectLen > b.getunused then (sizeT (-1), [], b)
  else
    (sizeT expectLen,
      (List.range expectLen.toNat).map fun i => b.data (b.curIndex b.readIndex i).toNat,
      { b with readIndex := b.nextIndex b.readIndex expectLen.toNat })

/-! ### The representation -/

/-- **The representation invariant.** -/
structure Wf (b : Buffer) : Prop where
  capacity_pos : 1 ≤ b.capacity
  capacity_le : b.capacity ≤ b.maxCapacity
  max_lt : 2 * b.maxCapacity < 2 ^ 31
  dataSize_eq : b.dataSize = b.capacity + 1
  read_nonneg : 0 ≤ b.readIndex
  read_lt : b.readIndex < b.dataSize
  write_nonneg : 0 ≤ b.writeIndex
  write_lt : b.writeIndex < b.dataSize

/-- The number of cells. -/
def size (b : Buffer) : ℕ := b.dataSize.toNat

/-- The cell of the oldest byte. -/
def start (b : Buffer) : ℕ := b.readIndex.toNat

/-- The number of bytes in the buffer. -/
def length (b : Buffer) : ℕ := b.getunused.toNat

/-- **The bytes in the buffer**, oldest first. -/
def queue (b : Buffer) : List UInt8 := Ring.contents b.data b.size b.start b.length

@[simp] theorem length_queue (b : Buffer) : b.queue.length = b.length :=
  Ring.length_contents _ _ _ _

theorem wf_new {capacity maxCapacity : ℤ} (heap : ℕ → UInt8) (hc : 1 ≤ capacity)
    (hm : 2 * max capacity maxCapacity < 2 ^ 31) : (new capacity maxCapacity heap).Wf := by
  have hmax : (if maxCapacity > capacity then maxCapacity else capacity) =
      max capacity maxCapacity := by
    rcases lt_or_ge capacity maxCapacity with h | h
    · rw [if_pos h, max_eq_right h.le]
    · rw [if_neg (not_lt.2 h), max_eq_left h]
  have hle : capacity ≤ max capacity maxCapacity := le_max_left _ _
  have hds : int32 (capacity + 1) = capacity + 1 := int32_of_mem (by omega) (by omega)
  refine ⟨hc, ?_, ?_, hds, le_rfl, ?_, le_rfl, ?_⟩
  · simpa only [new, hmax] using hle
  · simpa only [new, hmax] using hm
  · simp only [new, hds]
    omega
  · simp only [new, hds]
    omega

theorem queue_new (capacity maxCapacity : ℤ) (heap : ℕ → UInt8) :
    (new capacity maxCapacity heap).queue = [] := rfl

namespace Wf

variable {b : Buffer}

/-- The number of bytes, without the conversions. -/
theorem getunused_eq (h : b.Wf) :
    b.getunused = if b.readIndex ≤ b.writeIndex then b.writeIndex - b.readIndex
      else b.dataSize - b.readIndex + b.writeIndex := by
  obtain ⟨h₁, h₂, h₃, h₄, h₅, h₆, h₇, h₈⟩ := h
  unfold getunused
  by_cases hle : b.readIndex ≤ b.writeIndex
  · rw [if_pos hle, if_pos hle, int32_of_mem (by omega) (by omega)]
  · rw [if_neg hle, if_neg hle, int32_of_mem (x := b.dataSize - b.readIndex) (by omega) (by omega),
      int32_of_mem (by omega) (by omega)]

theorem getunused_nonneg (h : b.Wf) : 0 ≤ b.getunused := by
  rw [h.getunused_eq]
  obtain ⟨h₁, h₂, h₃, h₄, h₅, h₆, h₇, h₈⟩ := h
  split <;> omega

theorem getunused_le (h : b.Wf) : b.getunused ≤ b.capacity := by
  rw [h.getunused_eq]
  obtain ⟨h₁, h₂, h₃, h₄, h₅, h₆, h₇, h₈⟩ := h
  split <;> omega

theorem length_cast (h : b.Wf) : (b.length : ℤ) = b.getunused :=
  Int.toNat_of_nonneg h.getunused_nonneg

theorem size_cast (h : b.Wf) : (b.size : ℤ) = b.dataSize :=
  Int.toNat_of_nonneg (h.read_nonneg.trans h.read_lt.le)

theorem start_cast (h : b.Wf) : (b.start : ℤ) = b.readIndex := Int.toNat_of_nonneg h.read_nonneg

theorem length_lt (h : b.Wf) : b.length < b.size := by
  have h₁ := h.length_cast
  have h₂ := h.size_cast
  have h₃ := h.getunused_le
  have h₄ := h.dataSize_eq
  omega

theorem start_lt (h : b.Wf) : b.start < b.size := by
  have h₁ := h.start_cast
  have h₂ := h.size_cast
  have h₃ := h.read_lt
  omega

theorem size_le (h : b.Wf) : b.size ≤ 2 ^ 30 := by
  have h₁ := h.size_cast
  have h₂ := h.dataSize_eq
  have h₃ := h.capacity_le
  have h₄ := h.max_lt
  omega

/-- The write index is the first cell behind the queue. -/
theorem writeIndex_eq (h : b.Wf) : b.writeIndex = ((b.start + b.length) % b.size : ℕ) := by
  have hlen := h.length_cast
  rw [h.getunused_eq] at hlen
  have hsize := h.size_cast
  have hstart := h.start_cast
  have hlt := h.write_lt
  have hnonneg := h.write_nonneg
  split at hlen
  · rw [Nat.mod_eq_of_lt (by omega)]
    omega
  · rw [show b.start + b.length = b.size + b.writeIndex.toNat by omega, Nat.add_mod_left,
      Nat.mod_eq_of_lt (by omega)]
    omega

theorem getFreeSize_eq (h : b.Wf) : b.getFreeSize = b.capacity - b.getunused := by
  have h₁ := h.getunused_nonneg
  have h₂ := h.getunused_le
  have h₃ := h.capacity_le
  have h₄ := h.max_lt
  exact int32_of_mem (by omega) (by omega)

/-- The index of a loop, as a cell of the ring. -/
theorem curIndex_eq (h : b.Wf) (n i : ℕ) (hn : n + i < 2 ^ 31) :
    b.curIndex n i = ((n + i) % b.size : ℕ) := by
  unfold curIndex
  rw [int32_of_mem (by omega) (by omega), ← h.size_cast]
  exact (Int.ofNat_tmod (n + i) b.size).symm

theorem nextIndex_eq (h : b.Wf) (n i : ℕ) (hn : n + i < 2 ^ 31) (hi : 0 < i) :
    b.nextIndex n i = ((n + i) % b.size : ℕ) := by
  unfold nextIndex
  have hlt := Nat.mod_lt (n + (i - 1)) (Nat.zero_lt_of_lt h.length_lt)
  have hle := h.size_le
  rw [h.curIndex_eq n (i - 1) (by omega), int32_of_mem (by omega) (by omega), ← h.size_cast]
  have hmod : (n + i) % b.size = ((n + (i - 1)) % b.size + 1) % b.size := by
    rw [Nat.mod_add_mod]
    congr 1
    omega
  rw [hmod]
  exact (Int.ofNat_tmod _ b.size).symm

/-- The number of bytes is the distance between the indices, counted round the ring. -/
theorem length_eq (h : b.Wf) {s l : ℕ} (hr : b.readIndex = (s % b.size : ℕ))
    (hw : b.writeIndex = ((s + l) % b.size : ℕ)) (hl : l < b.size) : b.length = l := by
  have hlen := h.length_cast
  have hsize := h.size_cast
  have hs := Nat.mod_lt s (Nat.zero_lt_of_lt hl)
  rw [← Nat.mod_add_mod] at hw
  rw [h.getunused_eq] at hlen
  -- the queue goes round at most once
  rcases Nat.lt_or_ge (s % b.size + l) b.size with hlt | hge
  · rw [Nat.mod_eq_of_lt hlt] at hw
    rw [if_pos (by omega)] at hlen
    omega
  · rw [Nat.mod_eq_sub_mod hge, Nat.mod_eq_of_lt (by omega)] at hw
    rw [if_neg (by omega)] at hlen
    omega

/-- **Every place of the queue in the ring** gives a buffer: `l` bytes from the cell `s` on. -/
theorem move (h : b.Wf) (data : ℕ → UInt8) (s : ℕ) {l : ℕ} (hl : l < b.size) :
    Wf { b with
        data := data
        readIndex := (s % b.size : ℕ)
        writeIndex := ((s + l) % b.size : ℕ) } ∧
      queue { b with
        data := data
        readIndex := (s % b.size : ℕ)
        writeIndex := ((s + l) % b.size : ℕ) } = Ring.contents data b.size s l := by
  have hpos : 0 < b.size := Nat.zero_lt_of_lt hl
  have hr := Nat.mod_lt s hpos
  have hw := Nat.mod_lt (s + l) hpos
  have hsc := h.size_cast
  have hwf : Wf { b with
      data := data
      readIndex := (s % b.size : ℕ)
      writeIndex := ((s + l) % b.size : ℕ) } := by
    refine ⟨h.capacity_pos, h.capacity_le, h.max_lt, h.dataSize_eq, ?_, ?_, ?_, ?_⟩
    all_goals
      simp only
      omega
  refine ⟨hwf, ?_⟩
  rw [queue, hwf.length_eq rfl rfl hl]
  exact Ring.contents_mod data b.size s l

/-! ### Growing -/

theorem enlarge_spec {newcap need maxCapacity : ℤ} (h₄ : 4 ≤ newcap) (hle : newcap ≤ maxCapacity)
    (hneed : need ≤ maxCapacity) (hmax : 2 * maxCapacity < 2 ^ 31) :
    ∃ c, enlarge newcap need maxCapacity = some c ∧ need ≤ c ∧ newcap ≤ c ∧ c ≤ maxCapacity := by
  induction newcap using enlarge.induct need maxCapacity with
  | case1 newcap hlt hok hgt =>
      rw [enlarge, if_pos hlt, dif_pos hok, if_pos hgt]
      exact ⟨_, rfl, hneed, hle, le_rfl⟩
  | case2 newcap hlt hok hgt ih =>
      obtain ⟨c, hc, h₁, h₂, h₃⟩ := ih (by omega) (by omega)
      rw [enlarge, if_pos hlt, dif_pos hok, if_neg hgt]
      exact ⟨c, hc, h₁, by omega, h₃⟩
  | case3 newcap hlt hok => exact absurd ⟨h₄, by omega⟩ hok
  | case4 newcap hlt =>
      rw [enlarge, if_neg hlt]
      exact ⟨_, rfl, by omega, le_rfl, hle⟩

/-- A larger block holds the same queue. -/
theorem relocate_spec (h : b.Wf) (heap : ℕ → UInt8) {c : ℤ} (hc : b.capacity < c)
    (hmax : c ≤ b.maxCapacity) :
    (b.relocate heap c).Wf ∧ (b.relocate heap c).queue = b.queue := by
  have hun := h.getunused_nonneg
  have hle := h.getunused_le
  have hpos := h.capacity_pos
  have hlt := h.max_lt
  have hds : int32 (c + 1) = c + 1 := int32_of_mem (by omega) (by omega)
  have hwf : (b.relocate heap c).Wf := by
    refine ⟨?_, hmax, hlt, hds, le_rfl, ?_, hun, ?_⟩
    · exact hpos.trans hc.le
    · simp only [relocate, hds]
      omega
    · simp only [relocate, hds]
      omega
  have hlen : (b.relocate heap c).length = b.length := by
    have h₁ := hwf.length_cast
    rw [hwf.getunused_eq] at h₁
    simp only [relocate, if_pos hun, sub_zero] at h₁ ⊢
    have h₂ := h.length_cast
    omega
  refine ⟨hwf, List.ext_getElem (by rw [length_queue, length_queue, hlen]) fun i hi₁ hi₂ => ?_⟩
  rw [length_queue] at hi₁ hi₂
  have hsl := h.start_lt
  have hll := h.length_lt
  have hsz := h.size_le
  have hil : (i : ℤ) < b.getunused := by
    rw [← h.length_cast]
    exact_mod_cast hi₂
  simp only [queue, Ring.contents, List.getElem_map, List.getElem_range]
  rw [show (b.relocate heap c).start = 0 from rfl, Nat.zero_add,
    Nat.mod_eq_of_lt (hi₁.trans hwf.length_lt), relocate]
  simp only
  rw [if_pos hil, ← h.start_cast, h.curIndex_eq _ _ (by omega), Int.toNat_natCast]

/-- **What `MustInsert` does**: it makes room and keeps the queue, or it throws because the capacity
and the need exceed the maximum. -/
theorem mustInsert_spec (h : b.Wf) (heap : ℕ → UInt8) {n : ℤ} (hn : 0 < n)
    (hmax : b.maxCapacity + n < 2 ^ 31) :
    (∃ b', b.mustInsert heap n = some (.ok b') ∧ b'.Wf ∧ b'.queue = b.queue ∧
        n ≤ b'.getFreeSize ∧ b'.maxCapacity = b.maxCapacity) ∨
      (b.mustInsert heap n = some (.error "out of capacity") ∧
        b.getFreeSize < n ∧ b.maxCapacity < b.capacity + n) := by
  have hle := h.capacity_le
  have hlt := h.max_lt
  have hpos := h.capacity_pos
  unfold mustInsert
  by_cases hfree : b.getFreeSize ≥ n
  · rw [if_pos hfree]
    exact .inl ⟨b, rfl, h, rfl, hfree, rfl⟩
  rw [if_neg hfree, int32_of_mem (x := b.capacity + n) (by omega) (by omega),
    int32_of_mem (x := b.capacity * 2) (by omega) (by omega)]
  by_cases hneed : b.capacity + n > b.maxCapacity
  · rw [if_pos hneed]
    exact .inr ⟨rfl, not_le.1 hfree, hneed⟩
  simp only [if_neg hneed]
  -- each of the three growth rules meets the need within the maximum
  obtain ⟨c, hc, hge, hcle⟩ : ∃ c,
      (if b.capacity + n > b.capacity * 2 then some (b.capacity + n)
        else if b.capacity < doubleBorderLine then
          some (if b.capacity * 2 ≤ b.maxCapacity then b.capacity * 2 else b.maxCapacity)
        else enlarge b.capacity (b.capacity + n) b.maxCapacity) = some c ∧
      b.capacity + n ≤ c ∧ c ≤ b.maxCapacity := by
    split
    · exact ⟨_, rfl, le_rfl, not_lt.1 hneed⟩
    · split
      · refine ⟨_, rfl, ?_⟩
        split <;> omega
      · rename_i hborder
        simp only [doubleBorderLine] at hborder
        have hfour : 4 ≤ b.capacity := by omega
        obtain ⟨c, hc, hge, -, hcle⟩ := enlarge_spec hfour hle (not_lt.1 hneed) hlt
        exact ⟨c, hc, hge, hcle⟩
  rw [hc]
  have hun := h.getunused_le
  have hrel : b.resize heap c = b.relocate heap c := by
    rw [resize, if_neg (by omega), if_neg (by omega)]
  obtain ⟨hwf, hq⟩ := h.relocate_spec heap (by omega : b.capacity < c) hcle
  refine .inl ⟨b.relocate heap c, by rw [← hrel]; rfl, hwf, hq, ?_, rfl⟩
  have hlen := congrArg List.length hq
  rw [length_queue, length_queue] at hlen
  rw [hwf.getFreeSize_eq, ← hwf.length_cast, hlen, h.length_cast]
  simp only [relocate]
  omega

/-! ### Writing and reading -/

/-- The loop of `WriteToBuffer` writes a list into the ring. -/
theorem storeFrom_eq (h : b.Wf) (n i : ℕ) (xs : List UInt8) (mem : ℕ → UInt8)
    (hn : n + i + xs.length ≤ 2 ^ 31) :
    b.storeFrom n i xs mem = Ring.store mem b.size (n + i) xs := by
  induction xs generalizing i mem with
  | nil => rfl
  | cons x xs ih =>
      rw [List.length_cons] at hn
      rw [storeFrom, Ring.store, ih _ _ (by omega), h.curIndex_eq _ _ (by omega),
        Int.toNat_natCast, Nat.add_assoc]

/-- **Writing** appends all the bytes, or refuses them and changes nothing. -/
theorem writeToBuffer_spec (h : b.Wf) (heap : ℕ → UInt8) {data : List UInt8} {n : ℤ}
    (hn : 0 < n) (hdata : n ≤ data.length) (hmax : b.maxCapacity + n < 2 ^ 31) :
    (∃ b', b.writeToBuffer heap data n = some (n.toNat, b') ∧ b'.Wf ∧
        b'.maxCapacity = b.maxCapacity ∧ b'.queue = b.queue ++ data.take n.toNat) ∨
      b.writeToBuffer heap data n = some (0, b) := by
  unfold writeToBuffer
  rw [if_neg (by omega)]
  rcases h.mustInsert_spec heap hn hmax with ⟨b', hb', hwf, hq, hfree, hmax'⟩ | ⟨hb', -, -⟩
  · left
    rw [hb']
    have hcap := h.capacity_le
    have hpos := h.capacity_pos
    have hret : sizeT n = n.toNat := by
      unfold sizeT
      omega
    have htake : (data.take n.toNat).length = n.toNat := by
      rw [List.length_take]
      omega
    have hlt := hwf.length_lt
    have hsl := hwf.start_lt
    have hsz := hwf.size_le
    have hds := hwf.dataSize_eq
    have hsc := hwf.size_cast
    rw [hwf.getFreeSize_eq, ← hwf.length_cast] at hfree
    have hwmod : (b'.start + b'.length) % b'.size < b'.size := Nat.mod_lt _ (by omega)
    obtain ⟨hwf', hq'⟩ := hwf.move
      (Ring.store b'.data b'.size (b'.start + b'.length) (data.take n.toNat)) b'.start
      (by omega : b'.length + n.toNat < b'.size)
    rw [Nat.mod_eq_of_lt hsl, hwf.start_cast] at hwf' hq'
    refine ⟨_, by rw [Option.map_some, hret], ?_⟩
    have hnext := hwf.nextIndex_eq ((b'.start + b'.length) % b'.size) n.toNat (by omega) (by omega)
    have hstore := hwf.storeFrom_eq ((b'.start + b'.length) % b'.size) 0 (data.take n.toNat)
      b'.data (by omega)
    rw [Nat.add_zero, Ring.store_mod] at hstore
    rw [hwf.writeIndex_eq, hnext, hstore, Nat.mod_add_mod, Nat.add_assoc]
    refine ⟨hwf', hmax', ?_⟩
    have happ := Ring.contents_store b'.data b'.size b'.start b'.length (data.take n.toNat)
      (by omega)
    rw [htake] at happ
    rw [hq', happ, ← hq, queue]
  · right
    rw [hb']
    rfl

/-- **Reading** takes the oldest bytes, when there are enough. -/
theorem read_spec (h : b.Wf) {n : ℤ} (hn : 0 < n) (hle : n ≤ b.getunused) :
    ∃ b', b.read n = (n.toNat, b.queue.take n.toNat, b') ∧ b'.Wf ∧
      b'.maxCapacity = b.maxCapacity ∧ b'.queue = b.queue.drop n.toNat := by
  have hlen := h.length_cast
  have hlt := h.length_lt
  have hsl := h.start_lt
  have hsz := h.size_le
  have hret : sizeT n = n.toNat := by
    unfold sizeT
    omega
  obtain ⟨hwf', hq'⟩ := h.move b.data (b.start + n.toNat)
    (by omega : b.length - n.toNat < b.size)
  rw [show b.start + n.toNat + (b.length - n.toNat) = b.start + b.length by omega,
    ← h.writeIndex_eq] at hwf' hq'
  have hcopy : ((List.range n.toNat).map fun i => b.data (b.curIndex b.readIndex i).toNat) =
      b.queue.take n.toNat := by
    rw [queue, Ring.take_contents _ _ _ (by omega)]
    refine List.map_congr_left fun i hi => ?_
    rw [List.mem_range] at hi
    rw [← h.start_cast, h.curIndex_eq _ _ (by omega), Int.toNat_natCast]
  unfold read
  rw [if_neg (by omega), if_neg (by omega), hret, hcopy, ← h.start_cast,
    h.nextIndex_eq _ _ (by omega) (by omega)]
  refine ⟨_, rfl, hwf', rfl, ?_⟩
  rw [hq', queue, Ring.drop_contents _ _ _ (by omega)]

end Wf

/-- Reading more than there is changes nothing. -/
theorem read_short {b : Buffer} {n : ℤ} (hn : 0 < n) (hlt : b.getunused < n) :
    b.read n = (sizeT (-1), [], b) := by
  rw [read, if_neg (by omega), if_pos (by omega)]

end Buffer

end ProxySocket
