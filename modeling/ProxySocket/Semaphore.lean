/-
**The semaphore of the threads.**

`ThreadSemaphore` keeps two numbers: `_wait` is the number of calls of `wakeup` less that of `wait`,
and `_wakeup` counts the calls of `wakeup` that a waiting thread has not used yet.  A thread waits at
a condition variable, where it may wake up for no reason, and where another thread may use the
`wakeup` that woke it.

Main definitions:

* `SemSys`, `semaphoreLts` — a semaphore with the threads at its condition variable;
* `CountsWakeups` — what a counting semaphore owes to its callers;
* `SemFits` — the condition that the two numbers are `int`s.

Main results:

* `SemInv.step` — how the numbers are related to the threads, step by step;
* `semaphore_counts` — **the semaphore counts**, as long as its numbers do not overflow;
* `semaphore_overflows` — more waits return than there were wakeups when they do.
-/

import Mathlib.Data.Finset.Card
import ProxySocket.Buffer
import ProxySocket.ThreadStop

set_option relaxedAutoImplicit false
set_option autoImplicit false

namespace ProxySocket

/-! ### The operations on `int`s -/

-- with these, and the condition `SemFits`, the bound of `int` comes in
namespace ThreadSemaphore

/-- `--_wait`. -/
def decWait (m : ThreadSemaphore) : ThreadSemaphore := { m with waitNum := int32 (m.waitNum - 1) }

/-- `++_wait`. -/
def incWait (m : ThreadSemaphore) : ThreadSemaphore := { m with waitNum := int32 (m.waitNum + 1) }

/-- `--_wakeup`. -/
def decWakeup (m : ThreadSemaphore) : ThreadSemaphore :=
  { m with wakeupNum := int32 (m.wakeupNum - 1) }

/-- `++_wakeup`. -/
def incWakeup (m : ThreadSemaphore) : ThreadSemaphore :=
  { m with wakeupNum := int32 (m.wakeupNum + 1) }

end ThreadSemaphore

/-! ### The threads -/

/-- A semaphore, with the threads that are inside `wait` and have not returned. -/
structure SemSys where
  sem : ThreadSemaphore := {}
  /-- the threads that wait for the condition variable -/
  sleeping : Finset ℕ := ∅
  /-- the threads that were woken and have to lock the mutex for their next test -/
  woken : Finset ℕ := ∅
  /-- the number of calls of `wait` that have returned -/
  returned : ℕ := 0
  /-- the number of calls of `wakeup` -/
  wakeups : ℕ := 0
deriving DecidableEq

/-- The sections under the mutex, and the wake-ups without a reason. -/
inductive SemAct
  /-- `wait`, up to its return or to the condition variable -/
  | wait (t : ℕ)
  /-- a thread that was woken tests `_wakeup` again -/
  | retest (t : ℕ)
  | spurious (t : ℕ)
  /-- `wakeup`, with the thread that `notify_one` chooses -/
  | wakeup (target : Option ℕ)
deriving DecidableEq, Repr

namespace SemSys

/-- The threads whose `wait` is blocked. -/
def blocked (s : SemSys) : Finset ℕ := s.sleeping ∪ s.woken

/-- The test of `_cv.wait`, and what follows it. -/
def test (s : SemSys) (t : ℕ) : SemSys :=
  if s.sem.wakeupNum > 0 then { s with sem := s.sem.decWakeup, returned := s.returned + 1 }
  else { s with sleeping := insert t s.sleeping }

/-- `_cv.notify_one()`: any of the threads that wait, if there is one. -/
def notifyOne (s : SemSys) : Option ℕ → Option SemSys
  | none => if s.sleeping = ∅ then some s else none
  | some t =>
      if t ∈ s.sleeping then
        some { s with sleeping := s.sleeping.erase t, woken := insert t s.woken }
      else none

/-- One section. -/
def step (s : SemSys) : SemAct → Option SemSys
  | .wait t =>
      if t ∈ s.blocked then none
      else
        let s : SemSys := { s with sem := s.sem.decWait }
        if s.sem.waitNum < 0 then some (s.test t) else some { s with returned := s.returned + 1 }
  | .retest t =>
      if t ∈ s.woken then some (test { s with woken := s.woken.erase t } t) else none
  | .spurious t =>
      if t ∈ s.sleeping then
        some { s with sleeping := s.sleeping.erase t, woken := insert t s.woken }
      else none
  | .wakeup target =>
      let s : SemSys := { s with sem := s.sem.incWait, wakeups := s.wakeups + 1 }
      if s.sem.waitNum ≤ 0 then notifyOne { s with sem := s.sem.incWakeup } target
      else if target = none then some s
      else none

end SemSys

/-- Any number of threads at a new semaphore. -/
def semaphoreLts : Lts SemSys SemAct where
  init := {}
  step := SemSys.step

/-- **A counting semaphore**: no more calls of `wait` return than there were calls of `wakeup`, and
none of these is lost while a thread waits. -/
structure CountsWakeups (s : SemSys) : Prop where
  returned_le : s.returned ≤ s.wakeups
  none_lost : s.blocked.Nonempty → s.sem.wakeupNum = 0 → s.returned = s.wakeups
  woken : s.blocked.Nonempty → 0 < s.sem.wakeupNum → s.woken.Nonempty

/-- The numbers stay in the range of `int`. -/
def SemFits (s : SemSys) : SemAct → Prop
  | .wait _ => -2 ^ 31 ≤ s.sem.waitNum - 1
  | .wakeup _ =>
      s.sem.waitNum + 1 < 2 ^ 31 ∧ (s.sem.waitNum + 1 ≤ 0 → s.sem.wakeupNum + 1 < 2 ^ 31)
  | _ => True

instance instDecidableSemFits (s : SemSys) : (a : SemAct) → Decidable (SemFits s a)
  | .wait _ => inferInstanceAs (Decidable (_ ≤ _))
  | .wakeup _ => inferInstanceAs (Decidable (_ ∧ (_ → _)))
  | .retest _ => .isTrue trivial
  | .spurious _ => .isTrue trivial

/-! ### The invariant -/

/-- The invariant.  Of the calls of `wait` that began, `returned` have returned and the others are
blocked, so `_wait` is the difference to the calls of `wakeup`; and `_wakeup` is the number of
blocked threads that may return. -/
structure SemInv (s : SemSys) : Prop where
  apart : Disjoint s.sleeping s.woken
  waitNum_eq : s.sem.waitNum = s.wakeups - s.returned - (s.sleeping.card + s.woken.card)
  wakeupNum_eq : (s.sleeping.card + s.woken.card : ℤ) - s.sem.wakeupNum = max 0 (-s.sem.waitNum)
  wakeupNum_nonneg : 0 ≤ s.sem.wakeupNum
  wakeupNum_le : s.sleeping.Nonempty → s.sem.wakeupNum ≤ s.woken.card
  waitNum_fits : -2 ^ 31 ≤ s.sem.waitNum ∧ s.sem.waitNum < 2 ^ 31
  wakeupNum_fits : s.sem.wakeupNum < 2 ^ 31

namespace SemInv

variable {s s' : SemSys}

theorem init : SemInv semaphoreLts.init where
  apart := Finset.disjoint_empty_left _
  waitNum_eq := rfl
  wakeupNum_eq := rfl
  wakeupNum_nonneg := le_rfl
  wakeupNum_le h := absurd h Finset.not_nonempty_empty
  waitNum_fits := by decide
  wakeupNum_fits := by decide

theorem card_blocked (h : SemInv s) : s.blocked.card = s.sleeping.card + s.woken.card :=
  Finset.card_union_of_disjoint h.apart

/-- **What the invariant says to the callers.** -/
theorem counts (h : SemInv s) : CountsWakeups s where
  returned_le := by
    have h₁ := h.waitNum_eq
    have h₂ := h.wakeupNum_eq
    have h₃ := h.wakeupNum_nonneg
    omega
  none_lost := by
    intro hb hz
    have hpos : 0 < s.blocked.card := hb.card_pos
    rw [h.card_blocked] at hpos
    have h₁ := h.waitNum_eq
    have h₂ := h.wakeupNum_eq
    omega
  woken := by
    intro hb hw
    rcases s.sleeping.eq_empty_or_nonempty with hs | hs
    · rwa [SemSys.blocked, hs, Finset.empty_union] at hb
    · have hle := h.wakeupNum_le hs
      exact Finset.card_pos.1 (by omega)

/-- A thread leaves the condition variable, or stays there, after its test: its `wait` is counted
already, and it is not among the threads of `s`. -/
theorem test {t : ℕ} (h : Disjoint s.sleeping s.woken) (ht : t ∉ s.blocked)
    (hwait : s.sem.waitNum = s.wakeups - s.returned - (s.sleeping.card + s.woken.card + 1))
    (hwakeup : (s.sleeping.card + s.woken.card + 1 : ℤ) - s.sem.wakeupNum =
      max 0 (-s.sem.waitNum))
    (hnonneg : 0 ≤ s.sem.wakeupNum)
    (hle : s.sleeping.Nonempty → s.sem.wakeupNum ≤ s.woken.card + 1)
    (hfits : -2 ^ 31 ≤ s.sem.waitNum ∧ s.sem.waitNum < 2 ^ 31)
    (hfits' : s.sem.wakeupNum < 2 ^ 31) : SemInv (s.test t) := by
  rw [SemSys.blocked, Finset.mem_union, not_or] at ht
  unfold SemSys.test
  by_cases hpos : s.sem.wakeupNum > 0
  · -- the thread returns
    have hdec : int32 (s.sem.wakeupNum - 1) = s.sem.wakeupNum - 1 :=
      int32_of_mem (by omega) (by omega)
    rw [if_pos hpos]
    refine ⟨h, ?_, ?_, ?_, ?_, hfits, ?_⟩
    · show s.sem.waitNum = s.wakeups - (s.returned + 1 : ℕ) - (s.sleeping.card + s.woken.card)
      omega
    · show (s.sleeping.card + s.woken.card : ℤ) - int32 (s.sem.wakeupNum - 1) =
        max 0 (-s.sem.waitNum)
      omega
    · show 0 ≤ int32 (s.sem.wakeupNum - 1)
      omega
    · show s.sleeping.Nonempty → int32 (s.sem.wakeupNum - 1) ≤ s.woken.card
      intro hs
      have := hle hs
      omega
    · show int32 (s.sem.wakeupNum - 1) < 2 ^ 31
      omega
  · -- the thread sleeps
    have hcard : (insert t s.sleeping).card = s.sleeping.card + 1 :=
      Finset.card_insert_of_notMem ht.1
    rw [if_neg hpos]
    refine ⟨Finset.disjoint_insert_left.2 ⟨ht.2, h⟩, ?_, ?_, hnonneg, ?_, hfits, hfits'⟩
    · show s.sem.waitNum =
        s.wakeups - s.returned - ((insert t s.sleeping).card + s.woken.card)
      omega
    · show ((insert t s.sleeping).card + s.woken.card : ℤ) - s.sem.wakeupNum =
        max 0 (-s.sem.waitNum)
      omega
    · show (insert t s.sleeping).Nonempty → s.sem.wakeupNum ≤ s.woken.card
      omega

theorem wait (h : SemInv s) {t : ℕ} (hfits : SemFits s (.wait t))
    (hs : s.step (.wait t) = some s') : SemInv s' := by
  rw [SemSys.step, Option.ite_none_left_eq_some] at hs
  obtain ⟨ht, hs⟩ := hs
  have h₁ := h.waitNum_eq
  have h₂ := h.wakeupNum_eq
  have h₃ := h.wakeupNum_nonneg
  have h₄ := h.waitNum_fits
  have hdec : int32 (s.sem.waitNum - 1) = s.sem.waitNum - 1 :=
    int32_of_mem hfits (by omega)
  have hsem : s.sem.decWait = { s.sem with waitNum := s.sem.waitNum - 1 } := by
    rw [ThreadSemaphore.decWait, hdec]
  simp only [hsem] at hs
  have hfits' : -2 ^ 31 ≤ s.sem.waitNum - 1 := hfits
  by_cases hneg : s.sem.waitNum - 1 < 0
  · rw [if_pos hneg, Option.some.injEq] at hs
    rw [← hs]
    refine test h.apart ht ?_ ?_ h₃ ?_ ⟨hfits', ?_⟩ h.wakeupNum_fits
    · show s.sem.waitNum - 1 = s.wakeups - s.returned - (s.sleeping.card + s.woken.card + 1)
      omega
    · show (s.sleeping.card + s.woken.card + 1 : ℤ) - s.sem.wakeupNum =
        max 0 (-(s.sem.waitNum - 1))
      omega
    · intro hne
      have : s.sem.wakeupNum ≤ s.woken.card := h.wakeupNum_le hne
      show s.sem.wakeupNum ≤ s.woken.card + 1
      omega
    · show s.sem.waitNum - 1 < 2 ^ 31
      omega
  · rw [if_neg hneg, Option.some.injEq] at hs
    rw [← hs]
    refine ⟨h.apart, ?_, ?_, h₃, h.wakeupNum_le, ⟨hfits', ?_⟩, h.wakeupNum_fits⟩
    · show s.sem.waitNum - 1 =
        s.wakeups - (s.returned + 1 : ℕ) - (s.sleeping.card + s.woken.card)
      omega
    · show (s.sleeping.card + s.woken.card : ℤ) - s.sem.wakeupNum = max 0 (-(s.sem.waitNum - 1))
      omega
    · show s.sem.waitNum - 1 < 2 ^ 31
      omega

theorem retest (h : SemInv s) {t : ℕ} (hs : s.step (.retest t) = some s') : SemInv s' := by
  rw [SemSys.step, Option.ite_none_right_eq_some, Option.some.injEq] at hs
  obtain ⟨ht, rfl⟩ := hs
  have h₁ := h.waitNum_eq
  have h₂ := h.wakeupNum_eq
  have hcard : (s.woken.erase t).card + 1 = s.woken.card := Finset.card_erase_add_one ht
  have hnot : t ∉ s.sleeping := fun hts => Finset.disjoint_left.1 h.apart hts ht
  refine test (h.apart.mono_right (Finset.erase_subset t _)) ?_ ?_ ?_ h.wakeupNum_nonneg ?_
    h.waitNum_fits h.wakeupNum_fits
  · rw [SemSys.blocked, Finset.mem_union, not_or]
    exact ⟨hnot, Finset.notMem_erase t _⟩
  · show s.sem.waitNum =
      s.wakeups - s.returned - (s.sleeping.card + (s.woken.erase t).card + 1)
    omega
  · show (s.sleeping.card + (s.woken.erase t).card + 1 : ℤ) - s.sem.wakeupNum =
      max 0 (-s.sem.waitNum)
    omega
  · intro hne
    have : s.sem.wakeupNum ≤ s.woken.card := h.wakeupNum_le hne
    show s.sem.wakeupNum ≤ (s.woken.erase t).card + 1
    omega

/-- A sleeping thread is woken, and that may be for a new `wakeup`. -/
theorem wake {t : ℕ} (ht : t ∈ s.sleeping) (h : Disjoint s.sleeping s.woken)
    (h₁ : s.sem.waitNum = s.wakeups - s.returned - (s.sleeping.card + s.woken.card))
    (h₂ : (s.sleeping.card + s.woken.card : ℤ) - s.sem.wakeupNum = max 0 (-s.sem.waitNum))
    (h₃ : 0 ≤ s.sem.wakeupNum) (hle : s.sem.wakeupNum ≤ s.woken.card + 1)
    (hfits : -2 ^ 31 ≤ s.sem.waitNum ∧ s.sem.waitNum < 2 ^ 31)
    (hfits' : s.sem.wakeupNum < 2 ^ 31) :
    SemInv { s with sleeping := s.sleeping.erase t, woken := insert t s.woken } := by
  have hcard : (s.sleeping.erase t).card + 1 = s.sleeping.card := Finset.card_erase_add_one ht
  have hcard' : (insert t s.woken).card = s.woken.card + 1 :=
    Finset.card_insert_of_notMem (Finset.disjoint_left.1 h ht)
  refine ⟨?_, ?_, ?_, h₃, ?_, hfits, hfits'⟩
  · exact Finset.disjoint_insert_right.2
      ⟨Finset.notMem_erase t _, h.mono_left (Finset.erase_subset t _)⟩
  · show s.sem.waitNum =
      s.wakeups - s.returned - ((s.sleeping.erase t).card + (insert t s.woken).card)
    omega
  · show ((s.sleeping.erase t).card + (insert t s.woken).card : ℤ) - s.sem.wakeupNum =
      max 0 (-s.sem.waitNum)
    omega
  · show (s.sleeping.erase t).Nonempty → s.sem.wakeupNum ≤ (insert t s.woken).card
    intro _
    omega

theorem spurious (h : SemInv s) {t : ℕ} (hs : s.step (.spurious t) = some s') : SemInv s' := by
  rw [SemSys.step, Option.ite_none_right_eq_some, Option.some.injEq] at hs
  obtain ⟨ht, rfl⟩ := hs
  have hle := h.wakeupNum_le ⟨t, ht⟩
  exact wake ht h.apart h.waitNum_eq h.wakeupNum_eq h.wakeupNum_nonneg (by omega) h.waitNum_fits
    h.wakeupNum_fits

theorem wakeup (h : SemInv s) {target : Option ℕ} (hfits : SemFits s (.wakeup target))
    (hs : s.step (.wakeup target) = some s') : SemInv s' := by
  have h₁ := h.waitNum_eq
  have h₂ := h.wakeupNum_eq
  have h₃ := h.wakeupNum_nonneg
  obtain ⟨hmin, -⟩ := h.waitNum_fits
  obtain ⟨hfits, hfits'⟩ := hfits
  have hinc : int32 (s.sem.waitNum + 1) = s.sem.waitNum + 1 :=
    int32_of_mem (by omega) hfits
  have hsem : s.sem.incWait = { s.sem with waitNum := s.sem.waitNum + 1 } := by
    rw [ThreadSemaphore.incWait, hinc]
  simp only [SemSys.step, hsem] at hs
  by_cases hneg : s.sem.waitNum + 1 ≤ 0
  · -- there are threads that wait, and one more of them may return
    have hinc' : int32 (s.sem.wakeupNum + 1) = s.sem.wakeupNum + 1 :=
      int32_of_mem (by omega) (hfits' hneg)
    have hsem' : ThreadSemaphore.incWakeup { s.sem with waitNum := s.sem.waitNum + 1 } =
        ⟨s.sem.waitNum + 1, s.sem.wakeupNum + 1⟩ := by
      simp only [ThreadSemaphore.incWakeup, hinc']
    have hmax : (s.sleeping.card + s.woken.card : ℤ) - (s.sem.wakeupNum + 1) =
        max 0 (-(s.sem.waitNum + 1)) := by omega
    rw [if_pos hneg, hsem'] at hs
    cases target with
    | none =>
        rw [SemSys.notifyOne, Option.ite_none_right_eq_some, Option.some.injEq] at hs
        obtain ⟨hempty, rfl⟩ := hs
        refine ⟨h.apart, ?_, hmax, ?_, ?_, ⟨?_, hfits⟩, hfits' hneg⟩
        · show s.sem.waitNum + 1 =
            (s.wakeups + 1 : ℕ) - s.returned - (s.sleeping.card + s.woken.card)
          omega
        · show 0 ≤ s.sem.wakeupNum + 1
          omega
        · intro hne
          exact absurd hempty hne.ne_empty
        · show -2 ^ 31 ≤ s.sem.waitNum + 1
          omega
    | some t =>
        rw [SemSys.notifyOne, Option.ite_none_right_eq_some, Option.some.injEq] at hs
        obtain ⟨ht, rfl⟩ := hs
        have hle := h.wakeupNum_le ⟨t, ht⟩
        refine wake (s := ⟨⟨s.sem.waitNum + 1, s.sem.wakeupNum + 1⟩, s.sleeping, s.woken,
          s.returned, s.wakeups + 1⟩) ht h.apart ?_ hmax ?_ ?_ ⟨?_, hfits⟩ (hfits' hneg)
        · show s.sem.waitNum + 1 =
            (s.wakeups + 1 : ℕ) - s.returned - (s.sleeping.card + s.woken.card)
          omega
        · show 0 ≤ s.sem.wakeupNum + 1
          omega
        · show s.sem.wakeupNum + 1 ≤ s.woken.card + 1
          omega
        · show -2 ^ 31 ≤ s.sem.waitNum + 1
          omega
  · rw [if_neg hneg, Option.ite_none_right_eq_some, Option.some.injEq] at hs
    obtain ⟨-, rfl⟩ := hs
    refine ⟨h.apart, ?_, ?_, h₃, h.wakeupNum_le, ⟨?_, hfits⟩, h.wakeupNum_fits⟩
    · show s.sem.waitNum + 1 =
        (s.wakeups + 1 : ℕ) - s.returned - (s.sleeping.card + s.woken.card)
      omega
    · show (s.sleeping.card + s.woken.card : ℤ) - s.sem.wakeupNum = max 0 (-(s.sem.waitNum + 1))
      omega
    · show -2 ^ 31 ≤ s.sem.waitNum + 1
      omega

/-- **One section keeps the invariant.** -/
theorem step (h : SemInv s) {a : SemAct} (hfits : SemFits s a) (hs : s.step a = some s') :
    SemInv s' := by
  cases a with
  | wait t => exact h.wait hfits hs
  | retest t => exact h.retest hs
  | spurious t => exact h.spurious hs
  | wakeup target => exact h.wakeup hfits hs

end SemInv

/-- **The semaphore counts**, in every interleaving in which its numbers stay `int`s. -/
theorem semaphore_counts {as : List SemAct} {s : SemSys}
    (he : semaphoreLts.exec semaphoreLts.init as = some s)
    (hfits : semaphoreLts.AllSteps SemFits semaphoreLts.init as) : CountsWakeups s := by
  have hr : semaphoreLts.Reach SemFits s := .of_allSteps .init he hfits
  have hinv : SemInv s := hr.invariant .init fun _ _ _ _ hi hg hstep => hi.step hg hstep
  exact hinv.counts

/-- Two threads wait, one is woken, and a third one overtakes it. -/
def overtaken : List SemAct := [.wait 0, .wait 1, .wakeup (some 0), .wait 2, .retest 0]

theorem semaphore_counts_overtaken :
    ∃ s, semaphoreLts.exec semaphoreLts.init overtaken = some s ∧
      s.sleeping = {0, 1} ∧ CountsWakeups s := by
  have he := (Option.some_get (x := semaphoreLts.exec semaphoreLts.init overtaken)
    (by decide)).symm
  exact ⟨_, he, by decide, semaphore_counts he (by decide)⟩

/-! ### Beyond the range -/

/-- As many calls of `wakeup` as `_wait` can count, one more, and the calls of `wait` that then
return. -/
def overflowing : List SemAct :=
  List.replicate (2 ^ 31 - 1) (.wakeup none) ++ (.wakeup none :: .wait 0 ::
    (List.replicate (2 ^ 31 - 1) (.wait 0) ++ [.wait 0]))

/-- The calls of `wakeup` that nobody waits for. -/
theorem exec_unused : semaphoreLts.exec semaphoreLts.init
    (List.replicate (2 ^ 31 - 1) (.wakeup none)) =
      some { sem := ⟨2 ^ 31 - 1, 0⟩, wakeups := 2 ^ 31 - 1 } := by
  have h := Lts.exec_replicate semaphoreLts (a := .wakeup none) (n := 2 ^ 31 - 1)
    (f := fun k => { sem := ⟨k, 0⟩, wakeups := k }) ?_
  · have hcast : ((2 ^ 31 - 1 : ℕ) : ℤ) = 2 ^ 31 - 1 := by omega
    simp only [hcast] at h
    exact h
  intro k hk
  have hinc : int32 ((k : ℤ) + 1) = k + 1 := int32_of_mem (by omega) (by omega)
  simp only [semaphoreLts, SemSys.step, ThreadSemaphore.incWait, hinc]
  rw [if_neg (by omega), if_pos trivial]
  rfl

/-- The calls of `wait` that return at once. -/
theorem exec_returning : semaphoreLts.exec
    { sem := ⟨2 ^ 31 - 1, 1⟩, wakeups := 2 ^ 31, returned := 1 }
    (List.replicate (2 ^ 31 - 1) (.wait 0)) =
      some { sem := ⟨0, 1⟩, wakeups := 2 ^ 31, returned := 2 ^ 31 } := by
  have h := Lts.exec_replicate semaphoreLts (a := .wait 0) (n := 2 ^ 31 - 1)
    (f := fun k => { sem := ⟨2 ^ 31 - 1 - k, 1⟩, wakeups := 2 ^ 31, returned := 1 + k }) ?_
  · have hcast : (2 ^ 31 - 1 : ℤ) - ((2 ^ 31 - 1 : ℕ) : ℤ) = 0 := by omega
    have hret : 1 + (2 ^ 31 - 1) = 2 ^ 31 := by omega
    simp only [hcast, hret, Nat.cast_zero, sub_zero, Nat.add_zero] at h
    exact h
  intro k hk
  have hdec : int32 ((2 ^ 31 - 1 - k : ℤ) - 1) = 2 ^ 31 - 1 - (k + 1 : ℕ) := by
    rw [int32_of_mem (by omega) (by omega)]
    omega
  simp only [semaphoreLts, SemSys.step, ThreadSemaphore.decWait, hdec]
  rw [if_neg (by simp [SemSys.blocked]), if_neg (by omega)]
  rfl

/-- **When `_wait` overflows**, `wakeup` takes itself for one that a thread waits for, and one call
of `wait` returns that it was not made for. -/
theorem semaphore_overflows :
    ∃ s, semaphoreLts.exec semaphoreLts.init overflowing = some s ∧ s.wakeups < s.returned := by
  refine ⟨{ sem := ⟨-1, 0⟩, wakeups := 2 ^ 31, returned := 2 ^ 31 + 1 }, ?_, by decide⟩
  have hwrap : semaphoreLts.step { sem := ⟨2 ^ 31 - 1, 0⟩, wakeups := 2 ^ 31 - 1 }
      (.wakeup none) = some { sem := ⟨-2 ^ 31, 1⟩, wakeups := 2 ^ 31 } := by decide
  have hback : semaphoreLts.step { sem := ⟨-2 ^ 31, 1⟩, wakeups := 2 ^ 31 } (.wait 0) =
      some { sem := ⟨2 ^ 31 - 1, 1⟩, wakeups := 2 ^ 31, returned := 1 } := by decide
  have hlast : semaphoreLts.step { sem := ⟨0, 1⟩, wakeups := 2 ^ 31, returned := 2 ^ 31 }
      (.wait 0) = some { sem := ⟨-1, 0⟩, wakeups := 2 ^ 31, returned := 2 ^ 31 + 1 } := by decide
  rw [overflowing, Lts.exec_append, exec_unused, Option.bind_some, Lts.exec_cons, hwrap,
    Option.bind_some, Lts.exec_cons, hback, Option.bind_some, Lts.exec_append, exec_returning,
    Option.bind_some, Lts.exec_cons, hlast]
  rfl

end ProxySocket
