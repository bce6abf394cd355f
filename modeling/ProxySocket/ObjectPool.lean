/-
**The object pool.**

An `ObjectPool` hands out pointers whose deleter puts the object back: when the last pointer to an
object is dropped, the deleter wraps it in a new pointer with the same deleter and appends that to
the free list.  A flag decides whether the deleter recycles or deletes.  The three counters are
`int`s, and `initnum` is a `size_t`.  The constructor sets the counters only if both step sizes are
not 0.

Main definitions:

* `ObjectPool` with `alloc`, `recycle` and `dealloc` — the sections under the mutex;
* `PoolMemory`, `ObjectPool.construct` — the constructor on the memory that the members get;
* `CountsAtStart` — a constructed pool has counted its objects;
* `PoolSys`, `objectPoolLts` — a pool and the pointers of its users, with releases in progress;
* `PoolSound`, `AllocFits` — what should hold of the pool and its users, and the condition for it;
* `PoolRecycling`, `DeallocKeeps` — the same for the histories with calls of `Dealloc`.

Main results:

* `ObjectPool.alloc_cons`, `ObjectPool.alloc_nil` — an object from the list, or a new one;
* `ObjectPool.deaddobj_stays`, `ObjectPool.deaddobj_not_stays` — the tests before the shrink;
* `PoolInv.step`, `RecyclingInv.step` — what a step of the users keeps;
* `objectPool_sound_iff` — **nobody is handed an object that is in use**;
* `objectPool_recycles_iff` — **the shrink is what breaks the pool**.
-/

import Mathlib.Data.Finset.Card
import ProxySocket.Buffer
import ProxySocket.Lts

set_option relaxedAutoImplicit false
set_option autoImplicit false

namespace ProxySocket

/-! ### The pool -/

/-- What ends the orderly execution of a call. -/
inductive PoolFault
  /-- an operation of a signed type overflows -/
  | overflow
  /-- `front` or `pop_back` of an empty list -/
  | emptyList
  /-- a thread locks the mutex that it has locked -/
  | selfLock
deriving DecidableEq, Repr

/-- The values of type `int`. -/
def FitsInt (x : ℤ) : Prop := -2 ^ 31 ≤ x ∧ x < 2 ^ 31

instance instDecidableFitsInt (x : ℤ) : Decidable (FitsInt x) := inferInstanceAs (Decidable (_ ∧ _))

/-- The values of type `time_t`. -/
def FitsTime (x : ℤ) : Prop := -2 ^ 63 ≤ x ∧ x < 2 ^ 63

instance instDecidableFitsTime (x : ℤ) : Decidable (FitsTime x) :=
  inferInstanceAs (Decidable (_ ∧ _))

/-- An operation on `int`s. -/
def intOp (x : ℤ) : Except PoolFault ℤ := if FitsInt x then .ok x else .error .overflow

/-- An operation on `time_t`s. -/
def timeOp (x : ℤ) : Except PoolFault ℤ := if FitsTime x then .ok x else .error .overflow

/-- The constant `recycletime`. -/
def recycleTime : ℤ := 10000

/-- An `ObjectPool`.  The pointers in the list are given by their objects. -/
structure ObjectPool where
  freeList : List ℕ
  initNum : ℤ
  curNum : ℤ
  useNum : ℤ := 0
  increaseStep : ℤ
  deconstruct : Bool := false
  curtime : ℤ := 0
  /-- the object that the next `new T()` makes -/
  next : ℕ
deriving DecidableEq, Repr

/-- What the memory of a pool happens to hold in the members that only `init` sets. -/
structure PoolMemory where
  initNum : BitVec 32
  curNum : BitVec 32
  useNum : BitVec 32
  increaseStep : BitVec 32
  curtime : BitVec 64
deriving DecidableEq, Repr

namespace ObjectPool

/-- A loop of `n` rounds that pushes new objects to the front. -/
def pushNew : ℕ → ℕ → List ℕ → List ℕ
  | 0, _, l => l
  | n + 1, next, l => pushNew n (next + 1) (next :: l)

/-- `ObjectPool::init`: the pool that it sets up, unless it returns `false` and leaves the members as
they were. -/
def init (initnum increase reduce : ℕ) : Option ObjectPool :=
  if initnum < 0 ∨ increase ≤ 0 ∨ reduce ≤ 0 then none
  else
    some {
      freeList := pushNew (int32 initnum).toNat 0 []
      initNum := int32 initnum
      curNum := int32 initnum
      increaseStep := int32 increase
      next := (int32 initnum).toNat }

/-- The constructor.  A pool whose `init` has returned `false` keeps what its memory held. -/
def construct (mem : PoolMemory) (initnum increase reduce : ℕ) : ObjectPool :=
  (init initnum increase reduce).getD {
    freeList := []
    initNum := mem.initNum.toInt
    curNum := mem.curNum.toInt
    useNum := mem.useNum.toInt
    increaseStep := mem.increaseStep.toInt
    curtime := mem.curtime.toInt
    next := 0 }

/-- `ObjectPool::addnewobj`. -/
def addnewobj (p : ObjectPool) : Except PoolFault ObjectPool := do
  let curNum ← intOp (p.curNum + p.increaseStep)
  return { p with
    freeList := pushNew p.increaseStep.toNat p.next p.freeList
    next := p.next + p.increaseStep.toNat
    curNum := curNum }

/-- The end of `ObjectPool::alloc`: the first object of the list. -/
def takeFront (p : ObjectPool) : Except PoolFault (ℕ × ObjectPool) := do
  let useNum ← intOp (p.useNum + 1)
  match p.freeList with
  | [] => throw .emptyList
  | o :: rest => return (o, { p with freeList := rest, useNum := useNum })

/-- `ObjectPool::alloc`: the object it returns, and the pool. -/
def alloc (p : ObjectPool) : Except PoolFault (ℕ × ObjectPool) :=
  match p.freeList with
  | _ :: _ => p.takeFront
  | [] => p.addnewobj >>= takeFront

/-- The section of the deleter that recycles an object. -/
def recycle (p : ObjectPool) (o : ℕ) : Except PoolFault ObjectPool := do
  let useNum ← intOp (p.useNum - 1)
  return { p with useNum := useNum, freeList := p.freeList ++ [o] }

/-- `ObjectPool::checkexpire`. -/
def checkexpire (p : ObjectPool) (time : ℤ) : Except PoolFault (Bool × ObjectPool) := do
  let curtime ← timeOp (p.curtime + time)
  return (decide (recycleTime ≤ curtime), { p with curtime := curtime })

/-- The loop of `deaddobj`.  A pointer that is the last one to its object runs the deleter, which
locks the mutex; `refs` are the pointers of the users. -/
def popBack (refs : List ℕ) : ℕ → List ℕ → Except PoolFault (List ℕ)
  | 0, l => return l
  | n + 1, l =>
      match l.getLast? with
      | none => throw .emptyList
      | some o => if o ∈ refs ∨ o ∈ l.dropLast then popBack refs n l.dropLast else throw .selfLock

/-- `ObjectPool::deaddobj`, behind its tests. -/
def shrink (p : ObjectPool) (refs : List ℕ) : Except PoolFault ObjectPool := do
  let l ← popBack refs p.increaseStep.toNat p.freeList
  return { p with freeList := l, curtime := 0, deconstruct := true }

/-- `ObjectPool::deaddobj`. -/
def deaddobj (p : ObjectPool) (refs : List ℕ) (time : ℤ) : Except PoolFault ObjectPool := do
  let unused ← intOp (p.curNum - p.useNum)
  let twice ← intOp (p.increaseStep * 2)
  if unused ≤ twice then return p
  let grown ← intOp (p.curNum - p.initNum)
  if grown ≤ p.increaseStep then return p
  let (expired, p) ← p.checkexpire time
  if !expired then return p
  p.shrink refs

/-- `ObjectPool::Dealloc`, with what the clock shows. -/
def dealloc (p : ObjectPool) (refs : List ℕ) (obj : Option ℕ) (time : ℤ) :
    Except PoolFault ObjectPool :=
  match obj with
  | none => return p
  | some o => do
      let useNum ← intOp (p.useNum - 1)
      deaddobj { p with freeList := p.freeList ++ [o], useNum := useNum } refs time

end ObjectPool

/-! ### The pool and its users -/

/-- A pool, the pointers of its users, and the objects whose last pointer is dropped and whose
deleter waits for the mutex. -/
structure PoolSys where
  pool : ObjectPool
  refs : List ℕ := []
  releasing : List ℕ := []
  fault : Option PoolFault := none
deriving DecidableEq, Repr

/-- The moves of the threads. -/
inductive ObjectPoolAct
  | alloc
  /-- a pointer is copied -/
  | copy (o : ℕ)
  /-- a pointer is dropped; if it was the last one, the deleter tests `Deconstruct` -/
  | drop (o : ℕ)
  /-- the deleter's section under the mutex -/
  | recycle (o : ℕ)
  | dealloc (o : Option ℕ) (time : ℤ)
deriving DecidableEq, Repr

namespace PoolSys

/-- The objects that users hold.  Who is about to release an object holds it until that is done. -/
def held (s : PoolSys) : Finset ℕ := (s.refs ++ s.releasing).toFinset

/-- No pointer to the object is left when one of its users drops one. -/
def LastRef (s : PoolSys) (o : ℕ) : Prop := o ∉ s.refs.erase o ∧ o ∉ s.pool.freeList

instance instDecidableLastRef (s : PoolSys) (o : ℕ) : Decidable (s.LastRef o) :=
  inferInstanceAs (Decidable (_ ∧ _))

/-- The state after a section that may fail. -/
def after {α : Type} (s : PoolSys) (f : α → PoolSys) : Except PoolFault α → PoolSys
  | .ok x => f x
  | .error e => { s with fault := some e }

/-- One move.  Nothing is said about what happens after a failure. -/
def step (s : PoolSys) (a : ObjectPoolAct) : Option PoolSys :=
  if s.fault ≠ none then none
  else
    match a with
    | .alloc =>
        some (s.after (fun r => { s with refs := r.1 :: s.refs, pool := r.2 }) s.pool.alloc)
    | .copy o => if o ∈ s.refs then some { s with refs := o :: s.refs } else none
    | .drop o =>
        if o ∈ s.refs then
          if s.LastRef o ∧ s.pool.deconstruct = false then
            some { s with refs := s.refs.erase o, releasing := o :: s.releasing }
          else some { s with refs := s.refs.erase o }
        else none
    | .recycle o =>
        if o ∈ s.releasing then
          some (s.after (fun p => { s with releasing := s.releasing.erase o, pool := p })
            (s.pool.recycle o))
        else none
    | .dealloc o time =>
        if ∀ x ∈ o, x ∈ s.refs then
          some (s.after (fun p => { s with pool := p }) (s.pool.dealloc s.refs o time))
        else none

end PoolSys

/-- The histories of a pool and its users. -/
def objectPoolLts (p : ObjectPool) : Lts PoolSys ObjectPoolAct where
  init := { pool := p }
  step := PoolSys.step

/-! ### What should hold of them -/

/-- **The objects of the pool are where they should be**: each one in the list once or with the
users, and the counters count them. -/
structure PoolSound (s : PoolSys) : Prop where
  fault : s.fault = none
  nodup : s.pool.freeList.Nodup
  apart : ∀ o ∈ s.pool.freeList, o ∉ s.held
  used : s.pool.useNum = s.held.card
  unused : (s.pool.freeList.length : ℤ) = s.pool.curNum - s.pool.useNum

/-- A step leads to such a state, and `alloc` returns an object that nobody holds. -/
def PoolStepSound (s : PoolSys) (a : ObjectPoolAct) : Prop :=
  ∀ s', s.step a = some s' → PoolSound s' ∧ (a = .alloc → ∃ o, o ∉ s.held ∧ s'.refs = o :: s.refs)

/-- An `alloc` that has to make new objects makes some, and they can be counted. -/
def AllocFits (s : PoolSys) : ObjectPoolAct → Prop
  | .alloc => s.pool.freeList = [] →
      0 < s.pool.increaseStep ∧ s.pool.curNum + s.pool.increaseStep < 2 ^ 31
  | _ => True

/-- The moves without `Dealloc`. -/
def ObjectPoolAct.NoDealloc : ObjectPoolAct → Prop
  | .dealloc _ _ => False
  | _ => True

instance instDecidableNoDealloc : (a : ObjectPoolAct) → Decidable a.NoDealloc
  | .dealloc _ _ => .isFalse id
  | .alloc => .isTrue trivial
  | .copy _ => .isTrue trivial
  | .drop _ => .isTrue trivial
  | .recycle _ => .isTrue trivial

/-- **The pool recycles**, and the length of its list is what the counters say. -/
structure PoolRecycling (s : PoolSys) : Prop where
  fault : s.fault = none
  unused : (s.pool.freeList.length : ℤ) = s.pool.curNum - s.pool.useNum
  mode : s.pool.deconstruct = false

/-- What a release does while the pool recycles. -/
def Recycles (s s' : PoolSys) : ObjectPoolAct → Prop
  | .drop o => s.LastRef o → s'.releasing = o :: s.releasing
  | .recycle o =>
      s'.pool.freeList = s.pool.freeList ++ [o] ∧ s'.pool.useNum = s.pool.useNum - 1
  | _ => True

/-- A step leads to such a state, and a release recycles the object. -/
def PoolStepRecycles (s : PoolSys) (a : ObjectPoolAct) : Prop :=
  ∀ s', s.step a = some s' → PoolRecycling s' ∧ Recycles s s' a

/-- `deaddobj` stops at one of its tests, and what it computes until then does not overflow. -/
def ObjectPool.Stays (p : ObjectPool) (time : ℤ) : Prop :=
  FitsInt (p.curNum - p.useNum) ∧ FitsInt (p.increaseStep * 2) ∧
    (p.curNum - p.useNum ≤ p.increaseStep * 2 ∨
      FitsInt (p.curNum - p.initNum) ∧
        (p.curNum - p.initNum ≤ p.increaseStep ∨
          FitsTime (p.curtime + time) ∧ p.curtime + time < recycleTime))

/-- The counters of a new pool count its objects: `init` has set it up with an `initnum` that is a
non-negative `int`, or it has returned `false` and the memory held the same number twice. -/
def CountsAtStart (mem : PoolMemory) (initnum increase reduce : ℕ) : Prop :=
  if 0 < increase ∧ 0 < reduce then 0 ≤ int32 initnum else mem.curNum = mem.useNum

/-- No step overflows, and no `Dealloc` triggers the shrink. -/
def DeallocKeeps (s : PoolSys) : ObjectPoolAct → Prop
  | .recycle _ => FitsInt (s.pool.useNum - 1)
  | .dealloc (some _) time => FitsInt (s.pool.useNum - 1) ∧
      { s.pool with useNum := s.pool.useNum - 1 }.Stays time
  | a => AllocFits s a

instance instDecidableAllocFits (s : PoolSys) : DecidablePred (AllocFits s)
  | .alloc => inferInstanceAs (Decidable (_ → _))
  | .copy _ | .drop _ | .recycle _ | .dealloc _ _ => .isTrue trivial

instance instDecidableStays (p : ObjectPool) (time : ℤ) : Decidable (p.Stays time) :=
  inferInstanceAs (Decidable (_ ∧ _ ∧ (_ ∨ _ ∧ (_ ∨ _ ∧ _))))

instance instDecidableDeallocKeeps (s : PoolSys) : DecidablePred (DeallocKeeps s)
  | .recycle _ => inferInstanceAs (Decidable (FitsInt _))
  | .dealloc (some _) _ => inferInstanceAs (Decidable (_ ∧ _))
  | .dealloc none _ | .copy _ | .drop _ => .isTrue trivial
  | .alloc => instDecidableAllocFits s .alloc

/-! ### The sections under the mutex -/

theorem intOp_of_fits {x : ℤ} (h : FitsInt x) : intOp x = .ok x := if_pos h

theorem intOp_of_not_fits {x : ℤ} (h : ¬FitsInt x) : intOp x = .error .overflow := if_neg h

theorem intOp_bind {α : Type} {x : ℤ} (h : FitsInt x) (f : ℤ → Except PoolFault α) :
    (intOp x >>= f) = f x := by
  rw [intOp_of_fits h]
  rfl

namespace ObjectPool

variable {p p' : ObjectPool}

theorem pushNew_eq (n next : ℕ) (l : List ℕ) :
    pushNew n next l = (List.range' next n).reverse ++ l := by
  induction n generalizing next l with
  | zero => rfl
  | succ n ih => rw [pushNew, ih, List.range'_succ, List.reverse_cons, List.append_assoc]; rfl

/-- The last object that was made is the first one of the list. -/
theorem pushNew_succ (n next : ℕ) (l : List ℕ) :
    pushNew (n + 1) next l = (next + n) :: pushNew n next l := by
  rw [pushNew_eq, pushNew_eq, List.range'_1_concat, List.reverse_append]
  rfl

theorem length_pushNew (n next : ℕ) (l : List ℕ) :
    (pushNew n next l).length = n + l.length := by
  rw [pushNew_eq, List.length_append, List.length_reverse, List.length_range']

theorem mem_pushNew_nil {n next o : ℕ} : o ∈ pushNew n next [] ↔ next ≤ o ∧ o < next + n := by
  rw [pushNew_eq, List.append_nil, List.mem_reverse, List.mem_range'_1]

theorem nodup_pushNew_nil (n next : ℕ) : (pushNew n next []).Nodup := by
  rw [pushNew_eq, List.append_nil, List.nodup_reverse]
  exact List.nodup_range'

/-- `init` succeeds exactly when both steps are positive. -/
theorem init_isSome_iff {n increase reduce : ℕ} :
    (init n increase reduce).isSome ↔ 0 < increase ∧ 0 < reduce := by
  unfold init
  split
  · simp only [Option.isSome_none, Bool.false_eq_true, false_iff]
    omega
  · simp only [Option.isSome_some, true_iff]
    omega

theorem construct_of_init {n increase reduce : ℕ} (mem : PoolMemory)
    (h : init n increase reduce = some p) : construct mem n increase reduce = p := by
  rw [construct, h, Option.getD_some]

theorem init_eq {n increase reduce : ℕ} (h : init n increase reduce = some p) :
    p.freeList = pushNew (int32 n).toNat 0 [] ∧ p.initNum = int32 n ∧ p.curNum = int32 n ∧
      p.useNum = 0 ∧ p.deconstruct = false ∧ p.next = (int32 n).toNat := by
  rw [init, Option.ite_none_left_eq_some] at h
  obtain ⟨-, h⟩ := h
  obtain rfl := Option.some.inj h
  exact ⟨rfl, rfl, rfl, rfl, rfl, rfl⟩

/-- Without a call, the counters are right when `initnum` is a non-negative `int`. -/
theorem int32_nonneg {n increase reduce : ℕ} (h : init n increase reduce = some p)
    (hlen : (p.freeList.length : ℤ) = p.curNum - p.useNum) : 0 ≤ int32 n := by
  obtain ⟨-, -, hcur, huse, -, -⟩ := init_eq h
  omega

/-- **An object from the list.** -/
theorem alloc_cons {o : ℕ} {rest : List ℕ} (hl : p.freeList = o :: rest)
    (hu : FitsInt (p.useNum + 1)) :
    p.alloc = .ok (o, { p with freeList := rest, useNum := p.useNum + 1 }) := by
  simp only [alloc, hl, takeFront, intOp_of_fits hu]
  rfl

/-- **A new object**, and the others that are made with it. -/
theorem alloc_nil (hl : p.freeList = []) (hs : 0 < p.increaseStep)
    (hc : FitsInt (p.curNum + p.increaseStep)) (hu : FitsInt (p.useNum + 1)) :
    p.alloc = .ok (p.next + (p.increaseStep.toNat - 1), { p with
      freeList := pushNew (p.increaseStep.toNat - 1) p.next []
      next := p.next + p.increaseStep.toNat
      curNum := p.curNum + p.increaseStep
      useNum := p.useNum + 1 }) := by
  obtain ⟨n, hn⟩ : ∃ n, p.increaseStep.toNat = n + 1 := ⟨p.increaseStep.toNat - 1, by omega⟩
  have hpush : pushNew p.increaseStep.toNat p.next p.freeList =
      (p.next + n) :: pushNew n p.next [] := by rw [hn, hl, pushNew_succ]
  have hadd : p.addnewobj = .ok { p with
      freeList := pushNew p.increaseStep.toNat p.next p.freeList
      next := p.next + p.increaseStep.toNat
      curNum := p.curNum + p.increaseStep } := by
    rw [addnewobj, intOp_of_fits hc]
    rfl
  have halloc : p.alloc = p.addnewobj >>= takeFront := by
    rw [alloc, hl]
  rw [halloc, hadd, hn, Nat.add_sub_cancel]
  rw [hn] at hpush
  show takeFront _ = _
  simp only [takeFront, intOp_of_fits hu, hpush]
  rfl

/-- **When no object can be made.** -/
theorem alloc_fails (hl : p.freeList = [])
    (h : ¬(0 < p.increaseStep ∧ FitsInt (p.curNum + p.increaseStep))) :
    ∃ e, p.alloc = .error e := by
  have halloc : p.alloc = p.addnewobj >>= takeFront := by
    rw [alloc, hl]
  rw [halloc, addnewobj]
  by_cases hc : FitsInt (p.curNum + p.increaseStep)
  · -- nothing is pushed
    have hn : p.increaseStep.toNat = 0 := by
      by_contra hne
      exact h ⟨by omega, hc⟩
    rw [intOp_of_fits hc, hn, hl]
    by_cases hu : FitsInt (p.useNum + 1)
    · refine ⟨.emptyList, ?_⟩
      show takeFront _ = _
      simp only [takeFront, intOp_of_fits hu, pushNew]
      rfl
    · refine ⟨.overflow, ?_⟩
      show takeFront _ = _
      simp only [takeFront, intOp_of_not_fits hu]
      rfl
  · rw [intOp_of_not_fits hc]
    exact ⟨_, rfl⟩

theorem recycle_eq (o : ℕ) (hu : FitsInt (p.useNum - 1)) :
    p.recycle o = .ok { p with useNum := p.useNum - 1, freeList := p.freeList ++ [o] } := by
  rw [recycle, intOp_of_fits hu]
  rfl

theorem recycle_fails (o : ℕ) (hu : ¬FitsInt (p.useNum - 1)) :
    p.recycle o = .error .overflow := by
  rw [recycle, intOp_of_not_fits hu]
  rfl

theorem deaddobj_bind {refs : List ℕ} {time : ℤ} (hun : FitsInt (p.curNum - p.useNum))
    (htw : FitsInt (p.increaseStep * 2)) : p.deaddobj refs time =
      if p.curNum - p.useNum ≤ p.increaseStep * 2 then .ok p
      else intOp (p.curNum - p.initNum) >>= fun grown =>
        if grown ≤ p.increaseStep then .ok p
        else p.checkexpire time >>= fun r => if !r.1 then .ok r.2 else r.2.shrink refs := by
  rw [deaddobj, intOp_of_fits hun, intOp_of_fits htw]
  rfl

theorem checkexpire_bind {α : Type} {time : ℤ} (h : FitsTime (p.curtime + time))
    (f : Bool × ObjectPool → Except PoolFault α) : p.checkexpire time >>= f =
      f (decide (recycleTime ≤ p.curtime + time), { p with curtime := p.curtime + time }) := by
  rw [checkexpire, timeOp, if_pos h]
  rfl

/-- **The tests of `deaddobj`**: it stops at one of them, and changes the time at most. -/
theorem deaddobj_stays (refs : List ℕ) {time : ℤ} (h : p.Stays time) :
    ∃ c, p.deaddobj refs time = .ok { p with curtime := c } := by
  obtain ⟨hun, htw, h⟩ := h
  rw [deaddobj_bind hun htw]
  rcases h with hfew | ⟨hgr, h⟩
  · exact ⟨p.curtime, if_pos hfew⟩
  by_cases hfew : p.curNum - p.useNum ≤ p.increaseStep * 2
  · exact ⟨p.curtime, if_pos hfew⟩
  rw [if_neg hfew, intOp_bind hgr]
  rcases h with hsmall | ⟨hti, hlt⟩
  · exact ⟨p.curtime, if_pos hsmall⟩
  by_cases hsmall : p.curNum - p.initNum ≤ p.increaseStep
  · exact ⟨p.curtime, if_pos hsmall⟩
  refine ⟨p.curtime + time, (if_neg hsmall).trans ?_⟩
  rw [checkexpire_bind hti, decide_eq_false (not_le.2 hlt)]
  rfl

/-- Otherwise it fails, or the pool stops recycling. -/
theorem deaddobj_not_stays (refs : List ℕ) {time : ℤ} (h : ¬p.Stays time) :
    (∃ e, p.deaddobj refs time = .error e) ∨
      ∃ p', p.deaddobj refs time = .ok p' ∧ p'.deconstruct = true := by
  by_cases hun : FitsInt (p.curNum - p.useNum)
  swap
  · left
    rw [deaddobj, intOp_of_not_fits hun]
    exact ⟨_, rfl⟩
  by_cases htw : FitsInt (p.increaseStep * 2)
  swap
  · left
    rw [deaddobj, intOp_of_fits hun, intOp_of_not_fits htw]
    exact ⟨_, rfl⟩
  rw [deaddobj_bind hun htw, if_neg fun hfew => h ⟨hun, htw, .inl hfew⟩]
  by_cases hgr : FitsInt (p.curNum - p.initNum)
  swap
  · left
    rw [intOp_of_not_fits hgr]
    exact ⟨_, rfl⟩
  rw [intOp_bind hgr, if_neg fun hsmall => h ⟨hun, htw, .inr ⟨hgr, .inl hsmall⟩⟩]
  by_cases hti : FitsTime (p.curtime + time)
  swap
  · left
    rw [checkexpire, timeOp, if_neg hti]
    exact ⟨_, rfl⟩
  have hle : recycleTime ≤ p.curtime + time :=
    not_lt.1 fun hlt => h ⟨hun, htw, .inr ⟨hgr, .inr ⟨hti, hlt⟩⟩⟩
  rw [checkexpire_bind hti, decide_eq_true hle, if_neg (by simp), shrink]
  cases hl : popBack refs p.increaseStep.toNat p.freeList with
  | error e => exact .inl ⟨e, rfl⟩
  | ok l => exact .inr ⟨_, rfl, rfl⟩

theorem dealloc_some (refs : List ℕ) (o : ℕ) (time : ℤ) (hu : FitsInt (p.useNum - 1)) :
    p.dealloc refs (some o) time =
      { p with freeList := p.freeList ++ [o], useNum := p.useNum - 1 }.deaddobj refs time := by
  rw [dealloc, intOp_of_fits hu]
  rfl

end ObjectPool

/-! ### One step -/

namespace PoolSys

variable {s s' : PoolSys}

theorem mem_held {o : ℕ} : o ∈ s.held ↔ o ∈ s.refs ∨ o ∈ s.releasing := by
  rw [held, List.mem_toFinset, List.mem_append]

/-- The users hold what they held when the same objects are in the two lists. -/
theorem held_congr (h : ∀ o, (o ∈ s'.refs ∨ o ∈ s'.releasing) ↔ (o ∈ s.refs ∨ o ∈ s.releasing)) :
    s'.held = s.held := by
  ext o
  rw [mem_held, mem_held]
  exact h o

end PoolSys

/-! ### The histories without `Dealloc` -/

/-- The invariant of the histories without `Dealloc`. -/
structure PoolInv (s : PoolSys) : Prop extends PoolSound s where
  releasing_nodup : s.releasing.Nodup
  releasing_apart : ∀ o ∈ s.releasing, o ∉ s.refs
  free_below : ∀ o ∈ s.pool.freeList, o < s.pool.next
  held_below : ∀ o ∈ s.held, o < s.pool.next
  curNum_lt : s.pool.curNum < 2 ^ 31
  mode : s.pool.deconstruct = false

namespace PoolInv

variable {s s' : PoolSys}

theorem init {n increase reduce : ℕ} {p : ObjectPool}
    (hp : ObjectPool.init n increase reduce = some p) (hn : 0 ≤ int32 n) :
    PoolInv (objectPoolLts p).init := by
  obtain ⟨hfree, -, hcur, huse, hmode, hnext⟩ := ObjectPool.init_eq hp
  refine ⟨⟨rfl, ?_, ?_, huse, ?_⟩, .nil, ?_, ?_, ?_, ?_, hmode⟩
  · show p.freeList.Nodup
    rw [hfree]
    exact ObjectPool.nodup_pushNew_nil _ _
  · intro o _ ho
    exact absurd ho (by simp [PoolSys.held, objectPoolLts])
  · show (p.freeList.length : ℤ) = p.curNum - p.useNum
    rw [hfree, hcur, huse, ObjectPool.length_pushNew]
    simp only [List.length_nil]
    omega
  · intro o ho
    exact absurd ho (by simp [objectPoolLts])
  · show ∀ o ∈ p.freeList, o < p.next
    rw [hfree, hnext]
    intro o ho
    have := ObjectPool.mem_pushNew_nil.1 ho
    omega
  · intro o ho
    exact absurd ho (by simp [PoolSys.held, objectPoolLts])
  · show p.curNum < 2 ^ 31
    rw [hcur]
    exact (int32_mem n).2

theorem useNum_nonneg (h : PoolInv s) : 0 ≤ s.pool.useNum := by
  rw [h.used]
  exact Int.natCast_nonneg _

theorem useNum_le (h : PoolInv s) : s.pool.useNum + s.pool.freeList.length = s.pool.curNum := by
  have := h.unused
  omega

/-- **An object is handed out.**  It is none of those that are held or in the rest of the list. -/
theorem handOut (h : PoolInv s) {o : ℕ} {rest : List ℕ} {next : ℕ} {curNum : ℤ}
    (ho : o ∉ s.held) (hrest : (o :: rest).Nodup) (hapart : ∀ x ∈ rest, x ∉ s.held)
    (hle : s.pool.next ≤ next) (hlt : ∀ x ∈ o :: rest, x < next)
    (hlen : (rest.length : ℤ) = curNum - (s.pool.useNum + 1)) (hcur : curNum < 2 ^ 31) :
    PoolInv { s with
      refs := o :: s.refs
      pool := { s.pool with
        freeList := rest, next := next, curNum := curNum, useNum := s.pool.useNum + 1 } } := by
  have hheld : PoolSys.held { s with
      refs := o :: s.refs
      pool := { s.pool with
        freeList := rest, next := next, curNum := curNum, useNum := s.pool.useNum + 1 } } =
      insert o s.held := by
    ext x
    rw [Finset.mem_insert, PoolSys.mem_held, PoolSys.mem_held, List.mem_cons, or_assoc]
  rw [List.nodup_cons] at hrest
  refine ⟨⟨h.fault, hrest.2, ?_, ?_, hlen⟩, h.releasing_nodup, ?_, ?_, ?_, hcur, h.mode⟩
  · intro x hx
    rw [hheld, Finset.mem_insert, not_or]
    exact ⟨fun hxo => hrest.1 (hxo ▸ hx), hapart x hx⟩
  · rw [hheld, Finset.card_insert_of_notMem ho, Nat.cast_add, Nat.cast_one, ← h.used]
  · intro x hx
    rw [List.mem_cons, not_or]
    exact ⟨fun hxo => ho (hxo ▸ PoolSys.mem_held.2 (.inr hx)), h.releasing_apart x hx⟩
  · exact fun x hx => hlt x (List.mem_cons_of_mem o hx)
  · intro x hx
    rw [hheld, Finset.mem_insert] at hx
    rcases hx with rfl | hx
    · exact hlt x List.mem_cons_self
    · exact (h.held_below x hx).trans_le hle

/-- **`alloc`** hands out an object that nobody holds. -/
theorem alloc (h : PoolInv s) (hq : AllocFits s .alloc) :
    ∃ o p, s.pool.alloc = .ok (o, p) ∧ o ∉ s.held ∧
      PoolInv { s with refs := o :: s.refs, pool := p } := by
  have huse := h.useNum_nonneg
  have hcur := h.useNum_le
  have hlt := h.curNum_lt
  cases hl : s.pool.freeList with
  | nil =>
      obtain ⟨hstep, hfits⟩ := hq hl
      rw [hl, List.length_nil] at hcur
      refine ⟨_, _, ObjectPool.alloc_nil hl hstep ⟨by omega, hfits⟩ ⟨by omega, by omega⟩, ?_, ?_⟩
      · intro ho
        have := h.held_below _ ho
        omega
      · refine h.handOut ?_ ?_ ?_ (Nat.le_add_right _ _) ?_ ?_ hfits
        · intro ho
          have := h.held_below _ ho
          omega
        · rw [List.nodup_cons]
          refine ⟨fun ho => ?_, ObjectPool.nodup_pushNew_nil _ _⟩
          have := ObjectPool.mem_pushNew_nil.1 ho
          omega
        · intro x hx hheld
          have hx' := ObjectPool.mem_pushNew_nil.1 hx
          have := h.held_below x hheld
          omega
        · intro x hx
          rcases List.mem_cons.1 hx with rfl | hx
          · omega
          · have := ObjectPool.mem_pushNew_nil.1 hx
            omega
        · rw [ObjectPool.length_pushNew, List.length_nil]
          omega
  | cons o rest =>
      have hmem : o ∈ s.pool.freeList := by rw [hl]; exact List.mem_cons_self
      have hnodup := h.nodup
      rw [hl] at hnodup
      rw [hl, List.length_cons] at hcur
      refine ⟨o, _, ObjectPool.alloc_cons hl ⟨by omega, by omega⟩, h.apart o hmem, ?_⟩
      refine h.handOut (h.apart o hmem) hnodup ?_ le_rfl ?_ (by omega) hlt
      · intro x hx
        exact h.apart x (by rw [hl]; exact List.mem_cons_of_mem o hx)
      · intro x hx
        exact h.free_below x (by rw [hl]; exact hx)

/-- The pointers change, but not the objects that are held. -/
theorem sameHeld (h : PoolInv s) {refs releasing : List ℕ}
    (hiff : ∀ o, (o ∈ refs ∨ o ∈ releasing) ↔ (o ∈ s.refs ∨ o ∈ s.releasing))
    (hnodup : releasing.Nodup) (hapart : ∀ o ∈ releasing, o ∉ refs) :
    PoolInv { s with refs := refs, releasing := releasing } := by
  have hheld : PoolSys.held { s with refs := refs, releasing := releasing } = s.held :=
    PoolSys.held_congr hiff
  refine ⟨⟨h.fault, h.nodup, ?_, ?_, h.unused⟩, hnodup, hapart, h.free_below, ?_, h.curNum_lt,
    h.mode⟩
  · rw [hheld]
    exact h.apart
  · rw [hheld]
    exact h.used
  · rw [hheld]
    exact h.held_below

theorem copy (h : PoolInv s) {o : ℕ} (ho : o ∈ s.refs) :
    PoolInv { s with refs := o :: s.refs } := by
  refine h.sameHeld ?_ h.releasing_nodup ?_
  · intro x
    rw [List.mem_cons]
    constructor
    · rintro ((rfl | hx) | hx)
      · exact .inl ho
      · exact .inl hx
      · exact .inr hx
    · rintro (hx | hx)
      · exact .inl (.inr hx)
      · exact .inr hx
  · intro x hx hx'
    rcases List.mem_cons.1 hx' with rfl | hx'
    · exact h.releasing_apart x hx ho
    · exact h.releasing_apart x hx hx'

/-- The last pointer is dropped. -/
theorem dropLast (h : PoolInv s) {o : ℕ} (ho : o ∈ s.refs) (hlast : s.LastRef o) :
    PoolInv { s with refs := s.refs.erase o, releasing := o :: s.releasing } := by
  refine h.sameHeld ?_ ?_ ?_
  · intro x
    rw [List.mem_cons]
    constructor
    · rintro (hx | rfl | hx)
      · exact .inl (List.mem_of_mem_erase hx)
      · exact .inl ho
      · exact .inr hx
    · rintro (hx | hx)
      · by_cases hxo : x = o
        · exact .inr (.inl hxo)
        · exact .inl ((List.mem_erase_of_ne hxo).2 hx)
      · exact .inr (.inr hx)
  · exact List.nodup_cons.2 ⟨fun hx => h.releasing_apart o hx ho, h.releasing_nodup⟩
  · intro x hx
    rcases List.mem_cons.1 hx with rfl | hx
    · exact hlast.1
    · exact fun hx' => h.releasing_apart x hx (List.mem_of_mem_erase hx')

/-- Another pointer to the object is left. -/
theorem drop (h : PoolInv s) {o : ℕ} (ho : o ∈ s.refs) (hlast : ¬s.LastRef o) :
    PoolInv { s with refs := s.refs.erase o } := by
  have hleft : o ∈ s.refs.erase o := by
    by_contra hne
    exact hlast ⟨hne, fun hfree => h.apart o hfree (PoolSys.mem_held.2 (.inl ho))⟩
  refine h.sameHeld ?_ h.releasing_nodup ?_
  · intro x
    refine or_congr_left ⟨List.mem_of_mem_erase, fun hx => ?_⟩
    by_cases hxo : x = o
    · rw [hxo]
      exact hleft
    · exact (List.mem_erase_of_ne hxo).2 hx
  · exact fun x hx hx' => h.releasing_apart x hx (List.mem_of_mem_erase hx')

/-- **The deleter** puts the object back. -/
theorem recycle (h : PoolInv s) {o : ℕ} (ho : o ∈ s.releasing) :
    ∃ p, s.pool.recycle o = .ok p ∧
      PoolInv { s with releasing := s.releasing.erase o, pool := p } := by
  have hheld : o ∈ s.held := PoolSys.mem_held.2 (.inr ho)
  have hpos : 0 < s.held.card := Finset.card_pos.2 ⟨o, hheld⟩
  have hused := h.used
  have hcur := h.useNum_le
  have hlt := h.curNum_lt
  have herase : PoolSys.held { s with
      releasing := s.releasing.erase o
      pool := { s.pool with
        useNum := s.pool.useNum - 1, freeList := s.pool.freeList ++ [o] } } = s.held.erase o := by
    ext x
    rw [Finset.mem_erase, PoolSys.mem_held, PoolSys.mem_held, h.releasing_nodup.mem_erase_iff]
    constructor
    · rintro (hx | ⟨hne, hx⟩)
      · exact ⟨fun hxo => h.releasing_apart o ho (hxo ▸ hx), .inl hx⟩
      · exact ⟨hne, .inr hx⟩
    · rintro ⟨hne, hx | hx⟩
      · exact .inl hx
      · exact .inr ⟨hne, hx⟩
  refine ⟨_, ObjectPool.recycle_eq o ⟨by omega, by omega⟩, ⟨h.fault, ?_, ?_, ?_, ?_⟩,
    h.releasing_nodup.erase o, ?_, ?_, ?_, hlt, h.mode⟩
  · rw [List.nodup_append]
    refine ⟨h.nodup, List.nodup_singleton o, fun x hx y hy hxy => ?_⟩
    rw [List.mem_singleton] at hy
    exact h.apart x hx (hxy ▸ hy ▸ hheld)
  · intro x hx
    rw [herase, Finset.mem_erase]
    rintro ⟨hne, hx'⟩
    rcases List.mem_append.1 hx with hx | hx
    · exact h.apart x hx hx'
    · exact hne (List.mem_singleton.1 hx)
  · rw [herase, Finset.card_erase_of_mem hheld]
    show s.pool.useNum - 1 = ((s.held.card - 1 : ℕ) : ℤ)
    omega
  · show ((s.pool.freeList ++ [o]).length : ℤ) = s.pool.curNum - (s.pool.useNum - 1)
    rw [List.length_append, List.length_singleton]
    omega
  · exact fun x hx => h.releasing_apart x (List.mem_of_mem_erase hx)
  · intro x hx
    rcases List.mem_append.1 hx with hx | hx
    · exact h.free_below x hx
    · rw [List.mem_singleton.1 hx]
      exact h.held_below o hheld
  · intro x hx
    rw [herase] at hx
    exact h.held_below x (Finset.mem_of_mem_erase hx)

/-- **One step keeps the invariant.** -/
theorem step (h : PoolInv s) {a : ObjectPoolAct} (ha : a.NoDealloc) (hq : AllocFits s a)
    (hs : s.step a = some s') :
    PoolInv s' ∧ (a = .alloc → ∃ o, o ∉ s.held ∧ s'.refs = o :: s.refs) := by
  rw [PoolSys.step.eq_def, if_neg (not_not.2 h.fault)] at hs
  cases a with
  | alloc =>
      obtain ⟨o, p, hp, ho, hinv⟩ := h.alloc hq
      simp only [hp, PoolSys.after, Option.some.injEq] at hs
      subst hs
      exact ⟨hinv, fun _ => ⟨o, ho, rfl⟩⟩
  | copy o =>
      simp only [Option.ite_none_right_eq_some, Option.some.injEq] at hs
      obtain ⟨ho, rfl⟩ := hs
      exact ⟨h.copy ho, fun hne => ObjectPoolAct.noConfusion hne⟩
  | drop o =>
      simp only [Option.ite_none_right_eq_some] at hs
      obtain ⟨ho, hs⟩ := hs
      refine ⟨?_, fun hne => ObjectPoolAct.noConfusion hne⟩
      by_cases hlast : s.LastRef o
      · rw [if_pos ⟨hlast, h.mode⟩] at hs
        exact Option.some.inj hs ▸ h.dropLast ho hlast
      · rw [if_neg fun hl => hlast hl.1] at hs
        exact Option.some.inj hs ▸ h.drop ho hlast
  | recycle o =>
      simp only [Option.ite_none_right_eq_some, Option.some.injEq] at hs
      obtain ⟨ho, hs⟩ := hs
      obtain ⟨p, hp, hinv⟩ := h.recycle ho
      simp only [hp, PoolSys.after] at hs
      exact ⟨hs ▸ hinv, fun hne => ObjectPoolAct.noConfusion hne⟩
  | dealloc o time => exact absurd ha id

/-- A step that makes no object, although one is wanted, fails. -/
theorem step_fails (h : PoolInv s) {a : ObjectPoolAct} (hq : ¬AllocFits s a) (hs : s.step a = some s') :
    s'.fault ≠ none := by
  rw [PoolSys.step.eq_def, if_neg (not_not.2 h.fault)] at hs
  cases a with
  | alloc =>
      have huse := h.useNum_nonneg
      have hcur := h.useNum_le
      simp only [AllocFits, Classical.not_imp] at hq
      obtain ⟨hl, hq⟩ := hq
      obtain ⟨e, he⟩ := ObjectPool.alloc_fails hl fun hfits => hq ⟨hfits.1, hfits.2.2⟩
      simp only [he, PoolSys.after, Option.some.injEq] at hs
      subst hs
      exact Option.some_ne_none e
  | copy o => exact absurd trivial hq
  | drop o => exact absurd trivial hq
  | recycle o => exact absurd trivial hq
  | dealloc o time => exact absurd trivial hq

end PoolInv

/-- **Nobody is handed an object that is in use**, and the counters count, in exactly those histories
of `alloc` and of releases in which the counters are `int`s: `initnum` is a non-negative `int`, an
`alloc` that finds the list empty makes one object at least, and the new number is an `int`. -/
theorem objectPool_sound_iff {n : ℕ} {p : ObjectPool}
    (hp : ObjectPool.init n (n / 10) (n / 10) = some p) {as : List ObjectPoolAct} {s : PoolSys}
    (he : (objectPoolLts p).exec (objectPoolLts p).init as = some s)
    (ha : ∀ a ∈ as, a.NoDealloc) :
    (PoolSound (objectPoolLts p).init ∧
        (objectPoolLts p).AllSteps PoolStepSound (objectPoolLts p).init as) ↔
      0 ≤ int32 n ∧ (objectPoolLts p).AllSteps AllocFits (objectPoolLts p).init as := by
  by_cases hn : 0 ≤ int32 n
  swap
  · exact iff_of_false (fun h => hn (ObjectPool.int32_nonneg hp h.1.unused)) fun h => hn h.1
  have hsound := PoolInv.init hp hn
  rw [and_iff_right hsound.toPoolSound, and_iff_right hn]
  refine Lts.allSteps_iff (g := fun _ a => a.NoDealloc) ?_ he ((Lts.allSteps_label_iff he).2 ha)
  intro s a s' hr hna hs
  have hinv : PoolInv s := hr.invariant hsound
    fun _ _ _ _ hi hg hstep => (hi.step hg.1 hg.2 hstep).1
  constructor
  · intro hstep
    by_contra hq
    exact hinv.step_fails hq hs (hstep s' hs).1.fault
  · intro hq t ht
    obtain ⟨hi, halloc⟩ := hinv.step hna hq ht
    exact ⟨hi.toPoolSound, halloc⟩

/-- A user takes an object, copies the pointer, and drops both. -/
def poolFive : List ObjectPoolAct := [.alloc, .copy 9, .drop 9, .drop 9, .recycle 9]

theorem objectPool_sound_five :
    ∃ p s, ObjectPool.init 10 1 1 = some p ∧
      (objectPoolLts p).exec (objectPoolLts p).init poolFive = some s ∧
      (objectPoolLts p).AllSteps PoolStepSound (objectPoolLts p).init poolFive := by
  have hp := (Option.some_get (x := ObjectPool.init 10 1 1) (by decide)).symm
  have he := (Option.some_get (x := (objectPoolLts ((ObjectPool.init 10 1 1).get (by decide))).exec
    (objectPoolLts ((ObjectPool.init 10 1 1).get (by decide))).init poolFive) (by decide)).symm
  exact ⟨_, _, hp, he,
    ((objectPool_sound_iff (n := 10) hp he (by decide)).2 ⟨by decide, by decide⟩).2⟩

/-- A `size_t` that is no `int`: the pool is made without any objects, and counts a negative number
of them. -/
theorem objectPool_narrow :
    ∃ p, ObjectPool.init (2 ^ 31) (2 ^ 31 / 10) (2 ^ 31 / 10) = some p ∧
      ¬PoolSound (objectPoolLts p).init := by
  refine ⟨_, rfl, fun h => ?_⟩
  exact absurd h.unused (by decide)

/-! ### The histories with `Dealloc` -/

/-- The invariant of the histories with `Dealloc`.  Users may hold what is in the list, and the
number of the objects in use may be too small. -/
structure RecyclingInv (s : PoolSys) : Prop extends PoolRecycling s where
  curNum_fits : FitsInt s.pool.curNum
  useNum_fits : FitsInt s.pool.useNum

namespace RecyclingInv

variable {s s' : PoolSys}

theorem init {n increase reduce : ℕ} {p : ObjectPool}
    (hp : ObjectPool.init n increase reduce = some p) (hn : 0 ≤ int32 n) :
    RecyclingInv (objectPoolLts p).init := by
  have hinv := PoolInv.init hp hn
  have huse := hinv.useNum_nonneg
  have hcur := hinv.useNum_le
  have hlt := hinv.curNum_lt
  exact ⟨⟨hinv.fault, hinv.unused, hinv.mode⟩, ⟨by omega, hlt⟩, ⟨by omega, by omega⟩⟩

/-- The list and the counters change together. -/
theorem update (h : RecyclingInv s) {refs releasing l : List ℕ} {curNum useNum curtime : ℤ}
    {next : ℕ} (hlen : (l.length : ℤ) = curNum - useNum) (hc : FitsInt curNum)
    (hu : FitsInt useNum) :
    RecyclingInv { s with
      refs := refs
      releasing := releasing
      pool := { s.pool with
        freeList := l, curNum := curNum, useNum := useNum, curtime := curtime, next := next } } :=
  ⟨⟨h.fault, hlen, h.mode⟩, hc, hu⟩

theorem alloc (h : RecyclingInv s) (hq : AllocFits s .alloc) :
    ∃ o p, s.pool.alloc = .ok (o, p) ∧
      RecyclingInv { s with refs := o :: s.refs, pool := p } := by
  have hlen := h.unused
  obtain ⟨hc₀, hc⟩ := h.curNum_fits
  obtain ⟨hu₀, hu⟩ := h.useNum_fits
  cases hl : s.pool.freeList with
  | nil =>
      obtain ⟨hstep, hfits⟩ := hq hl
      rw [hl, List.length_nil] at hlen
      have hc' : FitsInt (s.pool.curNum + s.pool.increaseStep) := ⟨by omega, hfits⟩
      have hu' : FitsInt (s.pool.useNum + 1) := ⟨by omega, by omega⟩
      refine ⟨_, _, ObjectPool.alloc_nil hl hstep hc' hu', h.update ?_ hc' hu'⟩
      rw [ObjectPool.length_pushNew, List.length_nil]
      omega
  | cons o rest =>
      rw [hl, List.length_cons] at hlen
      have hu' : FitsInt (s.pool.useNum + 1) := ⟨by omega, by omega⟩
      refine ⟨o, _, ObjectPool.alloc_cons hl hu', h.update ?_ h.curNum_fits hu'⟩
      omega

/-- **`Dealloc`** appends the object and counts it, unless the list is shrunk. -/
theorem dealloc (h : RecyclingInv s) {o : Option ℕ} {time : ℤ}
    (hq : DeallocKeeps s (.dealloc o time)) :
    ∃ p, s.pool.dealloc s.refs o time = .ok p ∧ RecyclingInv { s with pool := p } := by
  cases o with
  | none => exact ⟨s.pool, rfl, h⟩
  | some o =>
      obtain ⟨hu, hstays⟩ := hq
      have hlen := h.unused
      rw [ObjectPool.dealloc_some s.refs o time hu]
      -- the tests do not look at the list
      obtain ⟨c, hc⟩ := ObjectPool.deaddobj_stays s.refs
        (p := { s.pool with
          freeList := s.pool.freeList ++ [o], useNum := s.pool.useNum - 1 }) hstays
      refine ⟨_, hc, h.update ?_ h.curNum_fits hu⟩
      show ((s.pool.freeList ++ [o]).length : ℤ) = s.pool.curNum - (s.pool.useNum - 1)
      rw [List.length_append, List.length_singleton]
      omega

/-- **One step keeps the invariant**, and a release recycles the object. -/
theorem step (h : RecyclingInv s) {a : ObjectPoolAct} (hq : DeallocKeeps s a)
    (hs : s.step a = some s') : RecyclingInv s' ∧ Recycles s s' a := by
  rw [PoolSys.step.eq_def, if_neg (not_not.2 h.fault)] at hs
  cases a with
  | alloc =>
      obtain ⟨o, p, hp, hinv⟩ := h.alloc hq
      simp only [hp, PoolSys.after, Option.some.injEq] at hs
      exact ⟨hs ▸ hinv, trivial⟩
  | copy o =>
      simp only [Option.ite_none_right_eq_some, Option.some.injEq] at hs
      obtain ⟨-, rfl⟩ := hs
      exact ⟨h.update h.unused h.curNum_fits h.useNum_fits, trivial⟩
  | drop o =>
      simp only [Option.ite_none_right_eq_some] at hs
      obtain ⟨-, hs⟩ := hs
      have hkeep : ∀ refs releasing,
          RecyclingInv { s with refs := refs, releasing := releasing } :=
        fun refs releasing => h.update h.unused h.curNum_fits h.useNum_fits
      by_cases hlast : s.LastRef o
      · rw [if_pos ⟨hlast, h.mode⟩] at hs
        obtain rfl := Option.some.inj hs
        exact ⟨hkeep _ _, fun _ => rfl⟩
      · rw [if_neg fun hl => hlast hl.1] at hs
        obtain rfl := Option.some.inj hs
        exact ⟨hkeep _ _, fun hl => absurd hl hlast⟩
  | recycle o =>
      simp only [Option.ite_none_right_eq_some, Option.some.injEq] at hs
      obtain ⟨-, hs⟩ := hs
      have hlen := h.unused
      rw [ObjectPool.recycle_eq o hq] at hs
      simp only [PoolSys.after] at hs
      subst hs
      refine ⟨h.update ?_ h.curNum_fits hq, rfl, rfl⟩
      rw [List.length_append, List.length_singleton]
      omega
  | dealloc o time =>
      simp only [Option.ite_none_right_eq_some, Option.some.injEq] at hs
      obtain ⟨-, hs⟩ := hs
      obtain ⟨p, hp, hinv⟩ := h.dealloc hq
      simp only [hp, PoolSys.after] at hs
      exact ⟨hs ▸ hinv, trivial⟩

/-- A step that overflows or shrinks the list fails, or ends the recycling. -/
theorem step_spoils (h : RecyclingInv s) {a : ObjectPoolAct} (hq : ¬DeallocKeeps s a)
    (hs : s.step a = some s') : ¬PoolRecycling s' := by
  have hfailed : ∀ {α : Type} {f : α → PoolSys} {r : Except PoolFault α} {e : PoolFault},
      r = .error e → s.after f r = s' → ¬PoolRecycling s' := by
    intro α f r e hr ht hrec
    rw [hr, PoolSys.after] at ht
    rw [← ht] at hrec
    exact Option.some_ne_none e hrec.fault
  rw [PoolSys.step.eq_def, if_neg (not_not.2 h.fault)] at hs
  cases a with
  | alloc =>
      simp only [DeallocKeeps, AllocFits, Classical.not_imp] at hq
      obtain ⟨hl, hq⟩ := hq
      obtain ⟨e, he⟩ := ObjectPool.alloc_fails hl fun hfits => hq ⟨hfits.1, hfits.2.2⟩
      exact hfailed he (Option.some.inj hs)
  | copy o => exact absurd trivial hq
  | drop o => exact absurd trivial hq
  | recycle o =>
      simp only [Option.ite_none_right_eq_some, Option.some.injEq] at hs
      exact hfailed (ObjectPool.recycle_fails o hq) hs.2
  | dealloc o time =>
      simp only [Option.ite_none_right_eq_some, Option.some.injEq] at hs
      obtain ⟨-, hs⟩ := hs
      cases o with
      | none => exact absurd trivial hq
      | some o =>
          by_cases hu : FitsInt (s.pool.useNum - 1)
          swap
          · refine hfailed (e := .overflow) ?_ hs
            rw [ObjectPool.dealloc, intOp_of_not_fits hu]
            rfl
          rw [ObjectPool.dealloc_some s.refs o time hu] at hs
          rcases ObjectPool.deaddobj_not_stays s.refs
            (p := { s.pool with
              freeList := s.pool.freeList ++ [o], useNum := s.pool.useNum - 1 })
            fun hstays => hq ⟨hu, hstays⟩ with ⟨e, he⟩ | ⟨p, hp, hmode⟩
          · exact hfailed he hs
          · intro hrec
            rw [hp, PoolSys.after] at hs
            rw [← hs] at hrec
            exact absurd (hmode.symm.trans hrec.mode) (by decide)

end RecyclingInv

/-! ### The pools that recycle -/

section Start

variable {mem : PoolMemory} {n increase reduce : ℕ}

/-- The default steps are positive from ten objects on. -/
theorem countsAtStart_default (hn : 10 ≤ n) :
    CountsAtStart mem n (n / 10) (n / 10) ↔ 0 ≤ int32 n := by
  rw [CountsAtStart, if_pos ⟨by omega, by omega⟩]

/-- A new pool recycles exactly when its counters are right. -/
theorem poolRecycling_construct_iff :
    PoolRecycling (objectPoolLts (.construct mem n increase reduce)).init ↔
      CountsAtStart mem n increase reduce := by
  cases hp : ObjectPool.init n increase reduce with
  | some p =>
      have hsteps : 0 < increase ∧ 0 < reduce :=
        ObjectPool.init_isSome_iff.1 (by rw [hp, Option.isSome_some])
      rw [CountsAtStart, if_pos hsteps, ObjectPool.construct_of_init mem hp]
      exact ⟨fun h => ObjectPool.int32_nonneg hp h.unused,
        fun hn => (RecyclingInv.init hp hn).toPoolRecycling⟩
  | none =>
      have hsteps : ¬(0 < increase ∧ 0 < reduce) := by
        rw [← ObjectPool.init_isSome_iff (n := n), hp, Option.isSome_none]
        exact Bool.false_ne_true
      rw [CountsAtStart, if_neg hsteps, ObjectPool.construct, hp, Option.getD_none]
      -- the list is empty
      constructor
      · intro h
        have hzero : (0 : ℤ) = mem.curNum.toInt - mem.useNum.toInt := h.unused
        exact BitVec.eq_of_toInt_eq (by omega)
      · intro h
        exact ⟨rfl, by simp [objectPoolLts, h], rfl⟩

/-- The members of a new pool are `int`s, whoever has set them. -/
theorem RecyclingInv.construct (h : CountsAtStart mem n increase reduce) :
    RecyclingInv (objectPoolLts (.construct mem n increase reduce)).init := by
  have hrec := poolRecycling_construct_iff.2 h
  cases hp : ObjectPool.init n increase reduce with
  | some p =>
      rw [ObjectPool.construct_of_init mem hp] at hrec ⊢
      exact RecyclingInv.init hp (ObjectPool.int32_nonneg hp hrec.unused)
  | none =>
      rw [ObjectPool.construct, hp, Option.getD_none] at hrec ⊢
      exact ⟨hrec, ⟨BitVec.le_toInt _, BitVec.toInt_lt⟩, ⟨BitVec.le_toInt _, BitVec.toInt_lt⟩⟩

end Start

/-- **The shrink is what breaks the pool.**  For all sizes and steps, in exactly those histories in
which the counters are right at the start, no operation overflows and no `Dealloc` triggers the shrink,
the length of the list stays the difference of the counters, no call locks the mutex twice, and every
release of a last pointer recycles the object. -/
theorem objectPool_recycles_iff (mem : PoolMemory) (n increase reduce : ℕ) {as : List ObjectPoolAct}
    {s : PoolSys}
    (he : (objectPoolLts (.construct mem n increase reduce)).exec
      (objectPoolLts (.construct mem n increase reduce)).init as = some s) :
    (PoolRecycling (objectPoolLts (.construct mem n increase reduce)).init ∧
        (objectPoolLts (.construct mem n increase reduce)).AllSteps PoolStepRecycles
          (objectPoolLts (.construct mem n increase reduce)).init as) ↔
      CountsAtStart mem n increase reduce ∧
        (objectPoolLts (.construct mem n increase reduce)).AllSteps DeallocKeeps
          (objectPoolLts (.construct mem n increase reduce)).init as := by
  rw [poolRecycling_construct_iff]
  refine and_congr_right fun hstart => ?_
  have hrec := RecyclingInv.construct hstart
  refine Lts.allSteps_iff (g := fun _ _ => True) ?_ he (Lts.allSteps_true _ _)
  intro s a s' hr _ hs
  have hinv : RecyclingInv s := hr.invariant hrec
    fun _ _ _ _ hi hg hstep => (hi.step hg.2 hstep).1
  constructor
  · intro hstep
    by_contra hq
    exact hinv.step_spoils hq hs (hstep s' hs).1
  · intro hq t ht
    obtain ⟨hi, hrel⟩ := hinv.step hq ht
    exact ⟨hi.toPoolRecycling, hrel⟩

/-- An object is taken, given back by `Dealloc`, and its pointer is dropped. -/
def poolGiveBack : List ObjectPoolAct := [.alloc, .dealloc (some 9) 10000, .drop 9]

/-- A pool of ten with the default steps, in memory that is zero. -/
def tenObjectsLts : Lts PoolSys ObjectPoolAct :=
  objectPoolLts (.construct ⟨0, 0, 0, 0, 0⟩ 10 (10 / 10) (10 / 10))

theorem objectPool_recycles_giveBack :
    ∃ s, tenObjectsLts.exec tenObjectsLts.init poolGiveBack = some s ∧
      tenObjectsLts.AllSteps PoolStepRecycles tenObjectsLts.init poolGiveBack := by
  have he := (Option.some_get (x := tenObjectsLts.exec tenObjectsLts.init poolGiveBack)
    (by decide)).symm
  have hstart : CountsAtStart ⟨0, 0, 0, 0, 0⟩ 10 (10 / 10) (10 / 10) :=
    (countsAtStart_default le_rfl).2 (by decide)
  exact ⟨_, he, ((objectPool_recycles_iff ⟨0, 0, 0, 0, 0⟩ 10 (10 / 10) (10 / 10) he).2
    ⟨hstart, by decide⟩).2⟩

/-- Twelve objects of a pool of ten are in use, two of them are released, and one more is given
back. -/
def poolShrinks : List ObjectPoolAct :=
  List.replicate 12 .alloc ++
    [.drop 0, .recycle 0, .drop 1, .recycle 1, .dealloc (some 2) 10000]

/-- The same with a pool of twenty, whose step is two. -/
def poolLocks : List ObjectPoolAct :=
  List.replicate 23 .alloc ++
    [.drop 0, .recycle 0, .drop 1, .recycle 1, .drop 2, .recycle 2, .dealloc (some 3) 10000]

/-- **The shrink.**  With a step of one, the list gets shorter than the counters say, and what is
dropped from now on is deleted.  With a step of two, the second object that is taken from the list
has no other user, and its deleter waits for the mutex that `Dealloc` holds. -/
theorem objectPool_shrinks :
    (∃ p s, ObjectPool.init 10 1 1 = some p ∧
      (objectPoolLts p).exec (objectPoolLts p).init poolShrinks = some s ∧
      s.fault = none ∧ s.pool.freeList.length = 2 ∧ s.pool.curNum - s.pool.useNum = 3 ∧
      s.pool.deconstruct = true ∧ ¬PoolRecycling s) ∧
    ∃ p s, ObjectPool.init 20 2 2 = some p ∧
      (objectPoolLts p).exec (objectPoolLts p).init poolLocks = some s ∧
      s.fault = some .selfLock ∧ ¬PoolRecycling s := by
  refine ⟨⟨_, _, rfl, rfl, rfl, rfl, rfl, rfl, fun h => ?_⟩, ⟨_, _, rfl, rfl, rfl, fun h => ?_⟩⟩
  · exact absurd h.mode (by decide)
  · exact absurd h.fault (by decide)

end ProxySocket
