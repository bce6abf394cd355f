/-
**Shared pointers.**

An object that is owned through shared pointers has a count.  A copy of a pointer raises the count, and the
end of a pointer lowers it; when it gets to 0 the object is destroyed, and the pointers that are its members
end with it.  So an object can keep itself, through others that it keeps: not all that exists can be reached
from outside.

Nothing in this module mentions a particular program.

Main definitions:

* `RefHeap` — which objects exist, and their counts;
* `RefHeap.acquire`, `RefHeap.make`, `RefHeap.drop` — a pointer is copied, an object is made, pointers end;
* `RefHeap.Counted` — the counts are right;
* `Supported` — a set of objects each of which has a pointer from outside or from the set.

Main results:

* `RefHeap.Counted.acquire`, `RefHeap.Counted.make`, `RefHeap.Counted.store` — the counts stay right;
* `RefHeap.Counted.release`, `RefHeap.Counted.supported` — **what ends with some pointers**: all but the
  greatest supported set of the objects.
-/

import Mathlib.Algebra.BigOperators.Group.Finset.Basic
import Mathlib.Algebra.Order.BigOperators.Group.Finset
import Mathlib.Tactic.Common

set_option relaxedAutoImplicit false
set_option autoImplicit false

open Function (update)

variable {ι : Type*} [DecidableEq ι]

/-! ### Objects and pointers -/

/-- The objects that exist, and their counts. -/
structure RefHeap (ι : Type*) where
  live : Finset ι := ∅
  uses : ι → ℕ := fun _ => 0

/-- How many pointers there are to `x`, when `refs y` are the members of an object `y` and `roots` the
pointers outside of all objects. -/
def pointers (refs : ι → List ι) (roots : List ι) (live : Finset ι) (x : ι) : ℕ :=
  roots.count x + ∑ y ∈ live, (refs y).count x

/-- Each element of the set has a pointer from outside or from the set. -/
def Supported (refs : ι → List ι) (roots : List ι) (S : Set ι) : Prop :=
  ∀ x ∈ S, x ∈ roots ∨ ∃ y ∈ S, x ∈ refs y

omit [DecidableEq ι] in
theorem Supported.mono {refs : ι → List ι} {roots roots' : List ι} {S : Set ι}
    (hS : Supported refs roots S) (hr : roots ⊆ roots') : Supported refs roots' S :=
  fun x hx => (hS x hx).imp_left fun hmem => hr hmem

namespace RefHeap

/-- A pointer is copied. -/
def acquire (h : RefHeap ι) (x : ι) : RefHeap ι :=
  { h with uses := update h.uses x (h.uses x + 1) }

/-- A new object, which takes over the pointers that are its members, and the pointer to it. -/
def make (h : RefHeap ι) (x : ι) : RefHeap ι where
  live := insert x h.live
  uses := update h.uses x 1

/-- The pointers of a list end, one after the other, and those of each object that is destroyed before the
next one. -/
def release (refs : ι → List ι) : ℕ → List ι → RefHeap ι → RefHeap ι
  | 0, _, h => h
  | _ + 1, [], h => h
  | n + 1, x :: xs, h =>
      if h.uses x = 1 then
        release refs n (refs x ++ xs) { live := h.live.erase x, uses := update h.uses x 0 }
      else release refs n xs { h with uses := update h.uses x (h.uses x - 1) }

/-- The pointers `xs` end.  No more than all pointers can. -/
def drop (refs : ι → List ι) (xs : List ι) (h : RefHeap ι) : RefHeap ι :=
  release refs (xs.length + ∑ y ∈ h.live, (refs y).length) xs h

@[simp] theorem drop_nil (refs : ι → List ι) (h : RefHeap ι) : h.drop refs [] = h := by
  rw [drop]
  cases [].length + ∑ y ∈ h.live, (refs y).length <;> rfl

/-- The counts are right, and the objects with a count exist. -/
structure Counted (refs : ι → List ι) (roots : List ι) (h : RefHeap ι) : Prop where
  uses : ∀ x, h.uses x = pointers refs roots h.live x
  live : ∀ x, x ∈ h.live ↔ 0 < h.uses x

/-! ### The counts stay right -/

namespace Counted

variable {refs refs' : ι → List ι} {roots roots' xs : List ι} {h : RefHeap ι} {x y : ι}

theorem init (refs : ι → List ι) : Counted refs [] {} where
  uses _ := by simp [pointers]
  live _ := by simp

/-- Only the number of the pointers counts. -/
theorem of_pointers (hc : Counted refs roots h)
    (hp : ∀ x, pointers refs' roots' h.live x = pointers refs roots h.live x) :
    Counted refs' roots' h where
  uses x := (hc.uses x).trans (hp x).symm
  live := hc.live

theorem perm (hc : Counted refs roots h) (hp : roots'.Perm roots) : Counted refs roots' h :=
  hc.of_pointers fun x => by rw [pointers, pointers, hp.count_eq]

/-- The members of what does not exist do not count. -/
theorem congr (hc : Counted refs roots h) (hr : ∀ y ∈ h.live, refs' y = refs y) :
    Counted refs' roots h := by
  refine hc.of_pointers fun x => ?_
  rw [pointers, pointers]
  congr 1
  exact Finset.sum_congr rfl fun y hy => by rw [hr y hy]

/-- What has a pointer exists. -/
theorem mem_of_root (hc : Counted refs roots h) (hx : x ∈ roots) : x ∈ h.live := by
  rw [hc.live, hc.uses]
  exact Nat.add_pos_left (List.count_pos_iff.2 hx) _

/-- What is a member of something that exists does so too. -/
theorem mem_of_member (hc : Counted refs roots h) (hy : y ∈ h.live) (hx : x ∈ refs y) : x ∈ h.live := by
  rw [hc.live, hc.uses]
  refine Nat.add_pos_right _ (Nat.lt_of_lt_of_le (List.count_pos_iff.2 hx) ?_)
  exact Finset.single_le_sum (f := fun y => (refs y).count x) (fun _ _ => Nat.zero_le _) hy

/-- **A pointer is copied.** -/
theorem acquire (hc : Counted refs roots h) (hx : x ∈ h.live) :
    Counted refs (x :: roots) (h.acquire x) where
  uses z := by
    have huses := hc.uses z
    rw [pointers] at huses ⊢
    simp only [RefHeap.acquire, List.count_cons, beq_iff_eq]
    rcases eq_or_ne x z with rfl | hz
    · rw [Function.update_self, if_pos rfl]
      omega
    · rw [Function.update_of_ne hz.symm, if_neg hz]
      omega
  live z := by
    rcases eq_or_ne z x with rfl | hz
    · simp only [RefHeap.acquire, Function.update_self, hx, Nat.succ_pos]
    · simp only [RefHeap.acquire, Function.update_of_ne hz, hc.live]

/-- **An object is made** of pointers that were outside. -/
theorem make (hc : Counted refs (refs x ++ roots) h) (hx : x ∉ h.live) :
    Counted refs (x :: roots) (h.make x) where
  uses z := by
    have huses := hc.uses z
    rw [pointers, List.count_append] at huses
    rw [pointers, RefHeap.make, Finset.sum_insert hx, List.count_cons]
    rcases eq_or_ne z x with rfl | hz
    · have hzero : h.uses z = 0 := Nat.eq_zero_of_not_pos fun hpos => hx ((hc.live z).2 hpos)
      simp only [Function.update_self, beq_self_eq_true, if_true]
      omega
    · simp only [Function.update_of_ne hz, beq_iff_eq, if_neg hz.symm]
      omega
  live z := by
    rw [RefHeap.make, Finset.mem_insert]
    rcases eq_or_ne z x with rfl | hz
    · simp only [Function.update_self, true_or, Nat.one_pos]
    · simp only [Function.update_of_ne hz, hz, false_or, hc.live]

/-- **A pointer gets into an object** that exists. -/
theorem store (hc : Counted refs (x :: roots) h) (hy : y ∈ h.live)
    (hself : (refs' y).Perm (x :: refs y)) (hother : ∀ z, z ≠ y → refs' z = refs z) :
    Counted refs' roots h := by
  refine hc.of_pointers fun z => ?_
  have hrest : ∑ w ∈ h.live.erase y, (refs' w).count z = ∑ w ∈ h.live.erase y, (refs w).count z :=
    Finset.sum_congr rfl fun w hw => by rw [hother w (Finset.ne_of_mem_erase hw)]
  rw [pointers, pointers, ← Finset.add_sum_erase _ _ hy, ← Finset.add_sum_erase _ _ hy, hrest,
    hself.count_eq, List.count_cons, List.count_cons]
  omega

/-! ### What ends with some pointers -/

/-- The last pointer to `x` ends. -/
theorem destroy (hc : Counted refs (x :: (xs ++ roots)) h) (hone : h.uses x = 1) :
    Counted refs (refs x ++ xs ++ roots) { live := h.live.erase x, uses := update h.uses x 0 } where
  uses z := by
    have hx : x ∈ h.live := (hc.live x).2 (by omega)
    have huses := hc.uses z
    rw [pointers, List.count_cons, List.count_append, ← Finset.add_sum_erase _ _ hx] at huses
    rw [pointers, List.count_append, List.count_append]
    dsimp only
    rcases eq_or_ne z x with rfl | hz
    · rw [beq_self_eq_true, if_pos rfl] at huses
      rw [Function.update_self]
      omega
    · rw [if_neg (by simpa using hz.symm)] at huses
      rw [Function.update_of_ne hz]
      omega
  live z := by
    rw [Finset.mem_erase]
    rcases eq_or_ne z x with rfl | hz
    · simp only [Function.update_self, ne_eq, not_true_eq_false, false_and, Nat.lt_irrefl]
    · simp only [Function.update_of_ne hz, ne_eq, hz, not_false_eq_true, true_and, hc.live]

/-- A pointer to `x` ends, and another one is left. -/
theorem decrease (hc : Counted refs (x :: roots) h) (hmore : h.uses x ≠ 1) :
    Counted refs roots { h with uses := update h.uses x (h.uses x - 1) } where
  uses z := by
    have huses := hc.uses z
    rw [pointers, List.count_cons] at huses
    rw [pointers]
    dsimp only
    rcases eq_or_ne z x with rfl | hz
    · rw [beq_self_eq_true, if_pos rfl] at huses
      rw [Function.update_self]
      omega
    · rw [if_neg (by simpa using hz.symm)] at huses
      rw [Function.update_of_ne hz]
      omega
  live z := by
    have hpos : 0 < h.uses x := (hc.live x).1 (hc.mem_of_root List.mem_cons_self)
    rcases eq_or_ne z x with rfl | hz
    · simp only [Function.update_self, hc.live]
      omega
    · simp only [Function.update_of_ne hz, hc.live]

/-- An element of a supported set has two pointers when one of them is about to end. -/
theorem two_le_uses (hc : Counted refs (x :: (xs ++ roots)) h) {S : Set ι} (hS : ∀ z ∈ S, z ∈ h.live)
    (hsup : Supported refs roots S) (hx : x ∈ S) : 2 ≤ h.uses x := by
  have huses := hc.uses x
  rw [pointers, List.count_cons_self, List.count_append] at huses
  rcases hsup x hx with hroot | ⟨y, hy, hmem⟩
  · have hpos := List.count_pos_iff.2 hroot
    omega
  · have hpos := List.count_pos_iff.2 hmem
    have hle := Finset.single_le_sum (f := fun y => (refs y).count x) (fun _ _ => Nat.zero_le _) (hS y hy)
    omega

/-- **What ends with some pointers**: the counts are right at the end, and every supported set of objects
is there still. -/
theorem release {n : ℕ} (hc : Counted refs (xs ++ roots) h)
    (hn : xs.length + ∑ y ∈ h.live, (refs y).length ≤ n) :
    Counted refs roots (h.release refs n xs) ∧ (h.release refs n xs).live ⊆ h.live ∧
      ∀ S : Set ι, (∀ z ∈ S, z ∈ h.live) → Supported refs roots S →
        ∀ z ∈ S, z ∈ (h.release refs n xs).live := by
  induction n generalizing xs h with
  | zero =>
      obtain rfl : xs = [] := List.eq_nil_of_length_eq_zero (by omega)
      exact ⟨hc, Finset.Subset.refl _, fun S hS _ => hS⟩
  | succ n ih =>
      cases xs with
      | nil => exact ⟨hc, Finset.Subset.refl _, fun S hS _ => hS⟩
      | cons x xs =>
          rw [List.length_cons] at hn
          rw [RefHeap.release]
          by_cases hone : h.uses x = 1
          · rw [if_pos hone]
            have hx : x ∈ h.live := (hc.live x).2 (by omega)
            rw [← Finset.add_sum_erase _ _ hx] at hn
            obtain ⟨hcounted, hsub, hkept⟩ := ih (hc.destroy hone) (by
              rw [List.length_append]
              dsimp only
              omega)
            refine ⟨hcounted, hsub.trans (Finset.erase_subset _ _), fun S hS hsup => ?_⟩
            refine hkept S (fun z hz => Finset.mem_erase.2 ⟨?_, hS z hz⟩) hsup
            rintro rfl
            have htwo := hc.two_le_uses hS hsup hz
            omega
          · rw [if_neg hone]
            exact ih (hc.decrease hone) (by dsimp only; omega)

/-- The objects that exist are supported when all pointers are counted. -/
theorem supported (hc : Counted refs roots h) : Supported refs roots {x | x ∈ h.live} := by
  intro x hx
  by_contra hno
  rw [not_or] at hno
  have hpos := (hc.live x).1 hx
  rw [hc.uses, pointers, List.count_eq_zero.2 hno.1, Finset.sum_eq_zero] at hpos
  · exact Nat.lt_irrefl 0 hpos
  · exact fun y hy => List.count_eq_zero.2 fun hmem => hno.2 ⟨y, hy, hmem⟩

/-- The counts are right when some pointers have ended. -/
theorem drop (hc : Counted refs (xs ++ roots) h) : Counted refs roots (h.drop refs xs) :=
  (hc.release le_rfl).1

/-- What is supported without the pointers that end is there still. -/
theorem mem_drop (hc : Counted refs (xs ++ roots) h) {S : Set ι} (hS : ∀ z ∈ S, z ∈ h.live)
    (hsup : Supported refs roots S) (hx : x ∈ S) : x ∈ (h.drop refs xs).live :=
  (hc.release le_rfl).2.2 S hS hsup x hx

theorem of_mem_drop (hc : Counted refs (xs ++ roots) h) (hx : x ∈ (h.drop refs xs).live) : x ∈ h.live :=
  (hc.release le_rfl).2.1 hx

end Counted

end RefHeap
