/-
**Strings in fixed-size fields.**

A struct is a block of bytes.  `strcpy` writes the bytes of a string and a terminator to an offset of the
block, over whatever fields are there, and knows no bound; a string is read from an offset up to the first
terminator.

Main definitions:

* `writeAt`, `readAt` — bytes at an offset of a block;
* `strcpy`, `cstr` — a string is written to an offset, and read from one.

Main results:

* `readAt_writeAt`, `readAt_writeAt_of_disjoint` — what was written is read, and nothing else changes;
* `cstr_of_readAt` — **a string followed by its terminator is read as it is**;
* `cstr_spec` — what is read ends before the block does.
-/

import Mathlib.Data.List.Basic
import Mathlib.Data.List.TakeWhile

set_option relaxedAutoImplicit false
set_option autoImplicit false

namespace ProxySocket

/-- A string: its bytes, without a terminator. -/
abbrev Str := List UInt8

/-! ### Bytes at an offset -/

/-- The block with the bytes `bs` at the offset. -/
def writeAt (mem : List UInt8) (off : ℕ) (bs : List UInt8) : List UInt8 :=
  mem.take off ++ bs ++ mem.drop (off + bs.length)

/-- `n` bytes from the offset. -/
def readAt (mem : List UInt8) (off n : ℕ) : List UInt8 := (mem.drop off).take n

section Offsets

variable {mem bs : List UInt8} {off : ℕ}

theorem length_writeAt (h : off + bs.length ≤ mem.length) :
    (writeAt mem off bs).length = mem.length := by
  simp only [writeAt, List.length_append, List.length_take, List.length_drop]
  omega

theorem length_readAt {n : ℕ} (h : off + n ≤ mem.length) : (readAt mem off n).length = n := by
  simp only [readAt, List.length_take, List.length_drop]
  omega

/-- What was written is read. -/
theorem readAt_writeAt (bs : List UInt8) (h : off ≤ mem.length) :
    readAt (writeAt mem off bs) off bs.length = bs := by
  have hlen : (mem.take off).length = off := by
    rw [List.length_take, Nat.min_eq_left h]
  rw [readAt, writeAt, List.append_assoc, List.drop_append, hlen, Nat.sub_self, List.drop_zero,
    List.drop_of_length_le (Nat.le_of_eq hlen), List.nil_append, List.take_left]

theorem getElem?_writeAt_of_disjoint {i : ℕ} (h : off ≤ mem.length)
    (hi : i < off ∨ off + bs.length ≤ i) : (writeAt mem off bs)[i]? = mem[i]? := by
  rw [writeAt, List.append_assoc]
  rcases hi with hi | hi
  · rw [List.getElem?_append_left (by rw [List.length_take]; omega), List.getElem?_take_of_lt hi]
  · have hlen : (mem.take off).length = off := by
      rw [List.length_take, Nat.min_eq_left h]
    rw [List.getElem?_append_right (by omega), hlen, List.getElem?_append_right (by omega),
      List.getElem?_drop]
    congr 1
    omega

/-- Nothing else changes. -/
theorem readAt_writeAt_of_disjoint {off' n : ℕ} (h : off ≤ mem.length)
    (hd : off' + n ≤ off ∨ off + bs.length ≤ off') :
    readAt (writeAt mem off bs) off' n = readAt mem off' n := by
  refine List.ext_getElem? fun i => ?_
  simp only [readAt, List.getElem?_take, List.getElem?_drop]
  split
  · exact getElem?_writeAt_of_disjoint h (by omega)
  · rfl

end Offsets

/-! ### Strings -/

/-- `strcpy` to an offset of the block: nothing when the string and its terminator do not fit into the
rest of the block. -/
def strcpy (mem : List UInt8) (off : ℕ) (s : Str) : Option (List UInt8) :=
  if off + s.length + 1 ≤ mem.length then some (writeAt mem off (s ++ [0])) else none

/-- The string at an offset: nothing when the rest of the block holds no terminator. -/
def cstr (mem : List UInt8) (off : ℕ) : Option Str :=
  if 0 ∈ mem.drop off then some ((mem.drop off).takeWhile (· ≠ 0)) else none

section Strings

variable {mem : List UInt8} {off : ℕ} {s : Str}

/-- **A string followed by its terminator is read as it is.** -/
theorem cstr_of_readAt (hs : 0 ∉ s) (h : readAt mem off (s.length + 1) = s ++ [0]) :
    cstr mem off = some s := by
  have hsplit : mem.drop off = s ++ 0 :: (mem.drop off).drop (s.length + 1) := by
    rw [← List.take_append_drop (s.length + 1) (mem.drop off), List.drop_append]
    rw [readAt] at h
    rw [h]
    simp
  have hall : ∀ b ∈ s, decide (b ≠ 0) = true := fun b hb =>
    decide_eq_true fun h0 => hs (h0 ▸ hb)
  rw [cstr, hsplit, if_pos (by simp), List.takeWhile_append_of_pos hall]
  simp

/-- A string that is read has no terminator in it, and one behind it. -/
theorem cstr_spec (h : cstr mem off = some s) : 0 ∉ s ∧ s.length < (mem.drop off).length := by
  obtain ⟨hmem, h⟩ := Option.ite_none_right_eq_some.1 h
  obtain rfl := Option.some.inj h
  have hno : 0 ∉ (mem.drop off).takeWhile (· ≠ 0) := fun h0 => by
    simpa using List.mem_takeWhile_imp h0
  refine ⟨hno, lt_of_le_of_ne (List.takeWhile_prefix _).length_le fun hlen => hno ?_⟩
  rw [(List.takeWhile_prefix _).eq_of_length hlen]
  exact hmem

theorem cstr_of_drop {tail : List UInt8} (hs : 0 ∉ s) (h : mem.drop off = s ++ 0 :: tail) :
    cstr mem off = some s := by
  refine cstr_of_readAt hs ?_
  rw [readAt, h, List.take_append, List.take_of_length_le (by omega)]
  simp

/-- A string is read exactly where its bytes and a terminator stand. -/
theorem cstr_eq_some_iff :
    cstr mem off = some s ↔ 0 ∉ s ∧ ∃ tail, mem.drop off = s ++ 0 :: tail := by
  constructor
  · intro h
    obtain ⟨hmem, -⟩ := Option.ite_none_right_eq_some.1 h
    obtain ⟨s', tail, hsplit, hs'⟩ := List.eq_append_cons_of_mem hmem
    obtain rfl : s = s' := Option.some.inj (h.symm.trans (cstr_of_drop hs' hsplit))
    exact ⟨hs', tail, hsplit⟩
  · rintro ⟨hs, tail, h⟩
    exact cstr_of_drop hs h

/-- A terminator that is written behind a string leaves the string. -/
theorem cstr_set_zero {i : ℕ} (h : cstr mem off = some s) (hi : off + s.length ≤ i) :
    cstr (mem.set i 0) off = some s := by
  obtain ⟨hs, tail, h⟩ := cstr_eq_some_iff.1 h
  rw [cstr_eq_some_iff, List.drop_set, if_neg (by omega), h, List.set_append, if_neg (by omega)]
  refine ⟨hs, ?_⟩
  cases i - off - s.length with
  | zero => exact ⟨tail, rfl⟩
  | succ k => exact ⟨tail.set k 0, rfl⟩

theorem isSome_cstr : (cstr mem off).isSome ↔ 0 ∈ mem.drop off := by
  unfold cstr
  split <;> simp_all

theorem strcpy_eq_some (h : off + s.length + 1 ≤ mem.length) :
    strcpy mem off s = some (writeAt mem off (s ++ [0])) := if_pos h

end Strings

end ProxySocket
