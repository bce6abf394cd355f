/-
**Circular storage, and the queue it holds.**

A ring of `size` cells holds a queue: `len` elements from the cell `start` on, going round at the
end.  Nothing in this module depends on what the elements are or on how many cells there are.

The queue is specified by what a user sees of it: `Fifo` relates the content before and after an
operation to the event the operation shows.

Main definitions:

* `Ring.contents`, `Ring.store` — the queue in a ring, and writing a list at a cell;
* `FifoEvent`, `Fifo`, `Fifo.Run` — the events of a queue, and its runs.

Main results:

* `Ring.contents_add` — a queue is its front followed by the rest, read from the next cell on;
* `Ring.contents_store` — **writing behind the queue appends to it**, as long as it fits.
-/

import Mathlib.Data.List.Basic
import Mathlib.Logic.Function.Basic
import Mathlib.Tactic.Common

set_option relaxedAutoImplicit false
set_option autoImplicit false

namespace ProxySocket

/-! ### Rings -/

namespace Ring

variable {α : Type*}

/-- The `len` elements of a ring of `size` cells from the cell `start` on. -/
def contents (mem : ℕ → α) (size start len : ℕ) : List α :=
  (List.range len).map fun i => mem ((start + i) % size)

@[simp] theorem length_contents (mem : ℕ → α) (size start len : ℕ) :
    (contents mem size start len).length = len := by simp [contents]

@[simp] theorem contents_zero (mem : ℕ → α) (size start : ℕ) :
    contents mem size start 0 = [] := rfl

@[simp] theorem contents_mod (mem : ℕ → α) (size start len : ℕ) :
    contents mem size (start % size) len = contents mem size start len := by
  simp [contents, Nat.mod_add_mod]

/-- The front of a queue, and the rest of it from the next cell on. -/
theorem contents_add (mem : ℕ → α) (size start m n : ℕ) :
    contents mem size start (m + n) =
      contents mem size start m ++ contents mem size (start + m) n := by
  simp only [contents, List.range_add, List.map_append, List.map_map, Function.comp_def,
    Nat.add_assoc]

theorem take_contents (mem : ℕ → α) (size start : ℕ) {m len : ℕ} (h : m ≤ len) :
    (contents mem size start len).take m = contents mem size start m := by
  obtain ⟨n, rfl⟩ := Nat.exists_eq_add_of_le h
  rw [contents_add, List.take_left' (length_contents _ _ _ _)]

theorem drop_contents (mem : ℕ → α) (size start : ℕ) {m len : ℕ} (h : m ≤ len) :
    (contents mem size start len).drop m = contents mem size (start + m) (len - m) := by
  obtain ⟨n, rfl⟩ := Nat.exists_eq_add_of_le h
  rw [contents_add, List.drop_left' (length_contents _ _ _ _), Nat.add_sub_cancel_left]

/-- A queue that does not reach the last cell lies in one piece. -/
theorem contents_of_le (mem : ℕ → α) {size start len : ℕ} (h : start + len ≤ size) :
    contents mem size start len = (List.range len).map fun i => mem (start + i) := by
  refine List.map_congr_left fun i hi => ?_
  rw [List.mem_range] at hi
  rw [Nat.mod_eq_of_lt (by omega)]

theorem contents_congr {mem mem' : ℕ → α} {size start len : ℕ}
    (h : ∀ i < len, mem ((start + i) % size) = mem' ((start + i) % size)) :
    contents mem size start len = contents mem' size start len :=
  List.map_congr_left fun i hi => h i (List.mem_range.1 hi)

/-- Writing a list into a ring, from the cell `start` on. -/
def store (mem : ℕ → α) (size start : ℕ) : List α → ℕ → α
  | [] => mem
  | x :: xs => store (Function.update mem (start % size) x) size (start + 1) xs

theorem store_mod (mem : ℕ → α) (size start : ℕ) (xs : List α) :
    store mem size (start % size) xs = store mem size start xs := by
  induction xs generalizing mem start with
  | nil => rfl
  | cons x xs ih =>
      rw [store, store, Nat.mod_mod, ← ih _ (start % size + 1), Nat.mod_add_mod, ih]

/-- Two cells less than one round apart are different. -/
theorem mod_ne_mod {size a b : ℕ} (hab : a < b) (hb : b < a + size) : a % size ≠ b % size := by
  intro h
  have hdvd : size ∣ b - a := Nat.dvd_of_mod_eq_zero (Nat.sub_mod_eq_zero_of_mod_eq h.symm)
  exact absurd (Nat.le_of_dvd (by omega) hdvd) (by omega)

/-- Writing leaves alone the cells it does not reach. -/
theorem store_of_ne (mem : ℕ → α) (size : ℕ) (xs : List α) (start j : ℕ)
    (h : ∀ i < xs.length, (start + i) % size ≠ j) : store mem size start xs j = mem j := by
  induction xs generalizing mem start with
  | nil => rfl
  | cons x xs ih =>
      rw [store, ih]
      · exact Function.update_of_ne (h 0 (by simp)).symm _ _
      · intro i hi
        rw [Nat.add_assoc, Nat.add_comm 1 i]
        exact h (i + 1) (by simpa using hi)

/-- What was written is read back, as long as the writing does not go round. -/
theorem contents_store_self (mem : ℕ → α) (size start : ℕ) (xs : List α)
    (h : xs.length ≤ size) : contents (store mem size start xs) size start xs.length = xs := by
  induction xs generalizing mem start with
  | nil => rfl
  | cons x xs ih =>
      rw [List.length_cons] at h
      have hhead : store (Function.update mem (start % size) x) size (start + 1) xs
          (start % size) = x := by
        rw [store_of_ne]
        · exact Function.update_self _ _ _
        · intro i hi
          exact (mod_ne_mod (by omega) (by omega)).symm
      rw [store, List.length_cons, Nat.add_comm xs.length 1, contents_add, ih _ _ (by omega)]
      simp [contents, hhead]

/-- **Writing behind the queue appends to it**, as long as the ring has room. -/
theorem contents_store (mem : ℕ → α) (size start len : ℕ) (xs : List α)
    (h : len + xs.length ≤ size) :
    contents (store mem size (start + len) xs) size start (len + xs.length) =
      contents mem size start len ++ xs := by
  rw [contents_add, contents_store_self _ _ _ _ (by omega)]
  congr 1
  refine contents_congr fun i hi => store_of_ne _ _ _ _ _ fun j hj => ?_
  exact (mod_ne_mod (by omega) (by omega)).symm

end Ring

/-! ### Queues -/

/-- What a user sees of one operation on a queue. -/
inductive FifoEvent (α : Type*)
  /-- the elements were put into the queue -/
  | pushed (xs : List α)
  /-- the elements were refused -/
  | refused (xs : List α)
  /-- these elements were asked for and taken out -/
  | popped (xs : List α)
  /-- more elements were asked for than there are -/
  | short (n : ℕ)
  /-- these elements were taken out because they were all there are -/
  | drained (xs : List α)
deriving Repr

/-- **A queue**: elements are appended at the back and taken out at the front. -/
inductive Fifo {α : Type*} : List α → FifoEvent α → List α → Prop
  | pushed (q xs : List α) : Fifo q (.pushed xs) (q ++ xs)
  | refused (q xs : List α) : Fifo q (.refused xs) q
  | popped (q xs : List α) : Fifo (xs ++ q) (.popped xs) q
  | short (q : List α) (n : ℕ) (h : q.length < n) : Fifo q (.short n) q
  | drained (q : List α) : Fifo q (.drained q) []

/-- A run of a queue, with the events it shows. -/
inductive Fifo.Run {α : Type*} : List α → List (FifoEvent α) → List α → Prop
  | nil (q : List α) : Run q [] q
  | snoc {q q' q'' : List α} {es : List (FifoEvent α)} {e : FifoEvent α} (h : Run q es q')
      (hs : Fifo q' e q'') : Run q (es ++ [e]) q''

end ProxySocket
