/-
**Live connections in a batch.**

A step of the server destroys a connection when it takes its last owner away, and what is left of a
batch is handled after the step.  So every handler of a batch belongs to a live connection exactly as
long as no step takes the last owner away from a connection whose channel comes later in a batch.

Main definitions:

* `LoopServer.InvokesAlive`, `LoopServer.LeavesAlive` — the handler that is called, and those that are
  left, belong to live connections;
* `LoopServer.KeepsPending` — the step takes no last owner away from what is left of a batch.

Main results:

* `LoopServer.useCount_step` — what a step does to the references to a connection;
* `LoopServer.alive_step_iff` — **which connections a step destroys**;
* `loop_handlers_alive_iff` — **when every handler of a batch belongs to a live connection**.
-/

import ProxySocket.Lts
import ProxySocket.ReadyBatch
import Mathlib.Data.Fintype.Basic

set_option relaxedAutoImplicit false
set_option autoImplicit false

namespace ProxySocket

open Function (update)

variable {ι κ π ρ : Type} [DecidableEq ι] [DecidableEq κ] [DecidableEq π] [DecidableEq ρ]
variable [Inhabited ι]

namespace LoopServer

/-! ### What a step destroys -/

section Steps

variable {s s' : LoopServer ι κ π ρ} {a : LoopAct ι κ π ρ}

/-- The connection whose handler the step calls. -/
def called (s : LoopServer ι κ π ρ) : LoopAct ι κ π ρ → Option (LoopConn κ π)
  | .invoke l _ =>
      match (s.batch l).head? with
      | some (.handler x _) => some x
      | _ => none
  | _ => none

/-- The connection whose handler the step calls is alive. -/
def InvokesAlive (s : LoopServer ι κ π ρ) (a : LoopAct ι κ π ρ) : Prop :=
  ∀ x, s.called a = some x → s.Alive x

instance (s : LoopServer ι κ π ρ) : DecidablePred s.InvokesAlive :=
  fun _ => Lts.decidableForallSome _ _

/-- What is left of the batches when a loop takes the next entry of its own. -/
def left (s : LoopServer ι κ π ρ) : LoopAct ι κ π ρ → ρ → List (LoopTodo κ π)
  | .invoke l _ => update s.batch l (s.batch l).tail
  | _ => s.batch

/-- The steps of a loop that goes on with its batch. -/
theorem step_invoke {l : ρ} {ans : LoopAnswer ι π} (h : s.step (.invoke l ans) = some s') :
    (∃ x r rest, s.batch l = .channel x r :: rest ∧
      s' = ({ s with batch := update s.batch l rest } : LoopServer ι κ π ρ).handleEvents l x r) ∨
    ∃ x hd rest, s.batch l = .handler x hd :: rest ∧
      ({ s with batch := update s.batch l rest } : LoopServer ι κ π ρ).handler ans x hd =
        some s' := by
  simp only [step] at h
  split at h
  · exact absurd h (by simp)
  · rename_i x r rest hb
    exact .inl ⟨x, r, rest, hb, (Option.some.inj h).symm⟩
  · rename_i x hd rest hb
    exact .inr ⟨x, hd, rest, hb, h⟩

/-- **What a step does to the references to a connection.** -/
theorem useCount_step (h : s.step a = some s') (q : κ) :
    s'.owners.useCount q + s.lost q a = s.owners.useCount q + s.gained q a := by
  cases a with
  | wait l ready =>
      simp only [step] at h
      split at h
      · obtain rfl := Option.some.inj h
        rfl
      · exact absurd h (by simp)
  | invoke l ans =>
      rcases step_invoke h with ⟨x, r, rest, hb, rfl⟩ | ⟨x, hd, rest, hb, h⟩
      · simp only [lost, gained, hb, List.head?_cons]
        cases x <;> rfl
      · simp only [lost, gained, hb, List.head?_cons]
        cases x with
        | proxy p =>
            cases hd with
            | read => exact useCount_proxyHandleRead h q
            | write =>
                obtain rfl := Option.some.inj h
                rfl
            | every =>
                obtain rfl := Option.some.inj h
                exact useCount_proxyEveryHandle _ p q
        | pub c =>
            cases hd with
            | read =>
                obtain ⟨-, -, ho⟩ := publicHandleRead_frame h
                rw [ho]
            | write =>
                obtain rfl := Option.some.inj h
                rfl
            | every =>
                obtain rfl := Option.some.inj h
                rfl
  | newProxyConn p l fd b₁ b₂ =>
      simp only [step] at h
      split at h
      · exact absurd h (by simp)
      · obtain rfl := Option.some.inj h
        exact s.owners.useCount_newProxy p q
  | newTunnel =>
      obtain rfl := Option.some.inj h
      exact s.owners.useCount_newTunnel q
  | newPublicConn t =>
      simp only [step, newPublicConnHandler] at h
      split at h
      · rename_i hl
        obtain rfl := Option.some.inj h
        simp [lost, gained, hl]
      · exact absurd h (by simp)
      · rename_i p hl
        obtain rfl := Option.some.inj h
        have hcount := s.owners.useCount_popFree_addWait t (s.proxy p).proxyId p q
        simp only [lost, gained]
        rw [hcount, hl]
        -- the connection that is gained is the one that stood last
        by_cases hq : q = p
        · subst hq
          simp
        · simp [hq, Ne.symm hq]
  | handleShutdownPublicConn t i n =>
      simp only [step] at h
      split at h
      · obtain rfl := Option.some.inj h
        rfl
      · obtain rfl := Option.some.inj h
        exact useCount_shutdownPublicConn _ t _ q
  | handleFreeProxyConnReq t i =>
      obtain rfl := Option.some.inj h
      exact useCount_freeProxyConn s t i q

/-- **What a step does to `conn_`** of a connection that has an owner. -/
theorem conn_step (h : s.step a = some s') {q : κ} (hq : q ∈ s.owners.refs)
    (hr : (s.rebound a).map Prod.fst ≠ some q) : (s'.proxy q).conn = (s.proxy q).conn := by
  cases a with
  | wait l ready =>
      simp only [step] at h
      split at h
      · obtain rfl := Option.some.inj h
        rfl
      · exact absurd h (by simp)
  | invoke l ans =>
      rcases step_invoke h with ⟨x, r, rest, hb, rfl⟩ | ⟨x, hd, rest, hb, h⟩
      · cases x with
        | proxy p => exact conn_setProxy (by rfl) q
        | pub c => rfl
      · cases x with
        | proxy p =>
            cases hd with
            | read =>
                refine (conn_proxyHandleRead h).2.1 q ?_
                by_cases hqp : q = p
                · subst hqp
                  refine .inr (Option.eq_none_iff_forall_not_mem.2 fun c hc => hr ?_)
                  have hc' : s.readConn q ans = some c := hc
                  simp only [rebound, hb, List.head?_cons, hc', Option.map_some]
                · exact .inl hqp
            | write =>
                obtain rfl := Option.some.inj h
                rfl
            | every =>
                obtain rfl := Option.some.inj h
                rw [(proxyEveryHandle_frame _ p).1]
        | pub c =>
            cases hd with
            | read => exact (publicHandleRead_frame h).1 q
            | write =>
                obtain rfl := Option.some.inj h
                rfl
            | every =>
                obtain rfl := Option.some.inj h
                rfl
  | newProxyConn p l fd b₁ b₂ =>
      simp only [step] at h
      split at h
      · exact absurd h (by simp)
      · rename_i hp
        obtain rfl := Option.some.inj h
        have hqp : q ≠ p := fun hqp => hp (hqp ▸ hq)
        simp only [Function.update_of_ne hqp]
  | newTunnel =>
      obtain rfl := Option.some.inj h
      rfl
  | newPublicConn t =>
      simp only [step, newPublicConnHandler] at h
      split at h
      · obtain rfl := Option.some.inj h
        rfl
      · exact absurd h (by simp)
      · obtain rfl := Option.some.inj h
        rfl
  | handleShutdownPublicConn t i n =>
      simp only [step] at h
      split at h
      · obtain rfl := Option.some.inj h
        rfl
      · rename_i p hp
        obtain rfl := Option.some.inj h
        exact ((shutdownPublicConn_frame _ t p).1 q).trans (conn_setProxy (by rfl) q)
  | handleFreeProxyConnReq t i =>
      obtain rfl := Option.some.inj h
      rw [(freeProxyConn_proxy s t i).1]

/-- A connection gets a `PublicConnect` that is new. -/
theorem conn_rebound (h : s.step a = some s') {p : κ} {c : π} (hr : s.rebound a = some (p, c)) :
    (s'.proxy p).conn = some c ∧ ¬ s.Alive (.pub c) := by
  cases a with
  | invoke l ans =>
      rcases step_invoke h with ⟨x, r, rest, hb, rfl⟩ | ⟨x, hd, rest, hb, h⟩
      · simp [rebound, hb] at hr
      · cases x with
        | pub c => simp [rebound, hb] at hr
        | proxy p' =>
            cases hd with
            | write => simp [rebound, hb] at hr
            | every => simp [rebound, hb] at hr
            | read =>
                simp only [rebound, hb, List.head?_cons, Option.map_eq_some_iff,
                  Prod.mk.injEq] at hr
                obtain ⟨c', hc', rfl, rfl⟩ := hr
                exact (conn_proxyHandleRead h).2.2 c' hc'
  | wait _ _ | newProxyConn _ _ _ _ _ | newTunnel | newPublicConn _
  | handleShutdownPublicConn _ _ _ | handleFreeProxyConnReq _ _ => simp [rebound] at hr

/-- Who gets a reference has one already, or is new. -/
theorem gained_pos (hcall : s.InvokesAlive a) (h : s.step a = some s') {q : κ}
    (hq : 0 < s.gained q a) : q ∈ s.owners.refs ∨ (s'.proxy q).conn = none := by
  cases a with
  | invoke l ans =>
      rcases step_invoke h with ⟨x, r, rest, hb, rfl⟩ | ⟨x, hd, rest, hb, h⟩
      · simp [gained, hb] at hq
      · cases x with
        | pub c => simp [gained, hb] at hq
        | proxy p =>
            cases hd with
            | write => simp [gained, hb] at hq
            | every => simp [gained, hb] at hq
            | read =>
                -- the connection that calls the handler is the one that gains
                have hp : p ∈ s.owners.refs := hcall (.proxy p) (by simp [called, hb])
                have hqp : q = p := by
                  simp only [gained, hb, List.head?_cons] at hq
                  unfold readGained at hq
                  split at hq
                  · split at hq
                    · rename_i hc
                      exact hc.2
                    · omega
                  · split at hq
                    · split at hq
                      · rename_i hc
                        exact hc.2.2
                      · omega
                    · omega
                  · omega
                exact .inl (hqp ▸ hp)
  | newProxyConn p l fd b₁ b₂ =>
      simp only [gained] at hq
      split at hq
      · rename_i hqp
        subst hqp
        simp only [step] at h
        split at h
        · exact absurd h (by simp)
        · obtain rfl := Option.some.inj h
          exact .inr (by simp)
      · omega
  | newPublicConn t =>
      simp only [gained] at hq
      split at hq
      · rename_i hl
        have hlost := s.owners.useCount_popFree t q
        rw [if_pos hl.1] at hlost
        exact .inl ((s.owners.mem_refs_iff q).2 (by omega))
      · omega
  | wait _ _ | newTunnel | handleShutdownPublicConn _ _ _ | handleFreeProxyConnReq _ _ =>
      simp [gained] at hq

/-- **Which connections a step destroys**: those that it takes the last owner away from. -/
theorem alive_step_iff (hcall : s.InvokesAlive a) (h : s.step a = some s') {x : LoopConn κ π}
    (hx : s.Alive x) : s'.Alive x ↔ ¬ s.Released a x := by
  have hrefs : ∀ q, q ∈ s'.owners.refs ↔ ¬ s.owners.useCount q + s.gained q a ≤ s.lost q a := by
    intro q
    have hcount := useCount_step h q
    rw [Owners.mem_refs_iff]
    omega
  cases x with
  | proxy q => exact hrefs q
  | pub c =>
      constructor
      · rintro ⟨q, hq, hc⟩ hrel
        have hcount := useCount_step h q
        have hpos := (s'.owners.mem_refs_iff q).1 hq
        -- the owner had an owner before
        have hold : q ∈ s.owners.refs := by
          by_contra hn
          have hzero : ¬ 0 < s.owners.useCount q := fun hp => hn ((s.owners.mem_refs_iff q).2 hp)
          rcases gained_pos hcall h (q := q) (by omega) with hr | hnone
          · exact hn hr
          · rw [hnone] at hc
            cases hc
        -- a new `PublicConnect` is not one that was alive
        have hnot : (s.rebound a).map Prod.fst ≠ some q := by
          intro hr
          obtain ⟨⟨p, c'⟩, hpc, rfl⟩ := Option.map_eq_some_iff.1 hr
          obtain ⟨hc', hdead⟩ := conn_rebound h hpc
          obtain rfl : c' = c := Option.some.inj (hc'.symm.trans hc)
          exact hdead hx
        rw [conn_step h hold hnot] at hc
        rcases hrel q hold hc with hr | hr
        · exact hnot hr
        · exact (hrefs q).1 hq hr
      · intro hrel
        simp only [Released, not_forall, not_or] at hrel
        obtain ⟨q, hq, hc, hnot, hkeep⟩ := hrel
        exact ⟨q, (hrefs q).2 hkeep, (conn_step h hq hnot).trans hc⟩

/-! ### What is left of the batches -/

/-- Every handler that is left in a batch belongs to a live connection. -/
def Safe (s : LoopServer ι κ π ρ) : Prop := ∀ l, ∀ todo ∈ s.batch l, s.Alive todo.conn

/-- Every handler that is left in a batch after the step belongs to a live connection. -/
def LeavesAlive (s : LoopServer ι κ π ρ) (a : LoopAct ι κ π ρ) : Prop :=
  ∀ s', s.step a = some s' → s'.Safe

/-- The step takes the last owner away from no connection whose channel is left in a batch. -/
def KeepsPending (s : LoopServer ι κ π ρ) (a : LoopAct ι κ π ρ) : Prop :=
  ∀ l, ∀ todo ∈ s.left a l, ¬ s.Released a todo.conn

instance [Fintype ρ] (s : LoopServer ι κ π ρ) (a : LoopAct ι κ π ρ) :
    Decidable (s.KeepsPending a) :=
  inferInstanceAs (Decidable (∀ l, ∀ todo ∈ s.left a l, ¬ s.Released a todo.conn))

omit [DecidableEq π] [DecidableEq ρ] [Inhabited ι] in
/-- A step that neither drops references nor binds a connection destroys nothing. -/
theorem not_released_of_quiet {x : LoopConn κ π} (hx : s.Alive x) (hlost : ∀ q, s.lost q a = 0)
    (hreb : s.rebound a = none) : ¬ s.Released a x := by
  have hkeep : ∀ q ∈ s.owners.refs, ¬ s.owners.useCount q + s.gained q a ≤ s.lost q a := by
    intro q hq hle
    have hpos := (s.owners.mem_refs_iff q).1 hq
    have hzero := hlost q
    omega
  cases x with
  | proxy q => exact hkeep q hx
  | pub c =>
      obtain ⟨q, hq, hc⟩ := hx
      intro hrel
      rcases hrel q hq hc with hr | hr
      · rw [hreb] at hr
        cases hr
      · exact hkeep q hq hr

omit [DecidableEq ι] [DecidableEq κ] [DecidableEq π] [DecidableEq ρ] [Inhabited ι] in
theorem Safe.invokesAlive (hs : s.Safe) (a : LoopAct ι κ π ρ) : s.InvokesAlive a := by
  intro x hx
  cases a with
  | invoke l ans =>
      cases hb : s.batch l with
      | nil => simp [called, hb] at hx
      | cons todo rest =>
          cases todo with
          | channel y r => simp [called, hb] at hx
          | handler y hd =>
              simp only [called, hb, List.head?_cons, Option.some.injEq] at hx
              subst hx
              exact hs l (.handler y hd) (hb ▸ List.mem_cons_self)
  | wait _ _ | newProxyConn _ _ _ _ _ | newTunnel | newPublicConn _
  | handleShutdownPublicConn _ _ _ | handleFreeProxyConnReq _ _ => simp [called] at hx

omit [DecidableEq κ] [DecidableEq π] in
theorem mem_handlers {x : LoopConn κ π} {closed : Bool} {r : Revents} {todo : LoopTodo κ π}
    (h : todo ∈ handlers x closed r) : todo.conn = x := by
  unfold handlers at h
  simp only [List.mem_append, List.mem_singleton] at h
  rcases h with (h | h) | rfl
  · split at h
    · obtain rfl := List.mem_singleton.1 h
      rfl
    · cases h
  · cases x with
    | proxy p =>
        simp only [] at h
        split at h
        · obtain rfl := List.mem_singleton.1 h
          rfl
        · cases h
    | pub c => cases h
  · rfl

omit [DecidableEq ι] [DecidableEq π] [Inhabited ι] in
/-- The handlers of a channel stand before what is left of the batch. -/
theorem handleEvents_batch (s : LoopServer ι κ π ρ) (l : ρ) (x : LoopConn κ π) (r : Revents) :
    ∃ closed, (s.handleEvents l x r).batch =
      update s.batch l (handlers x closed r ++ s.batch l) := by
  cases x with
  | proxy p => exact ⟨_, rfl⟩
  | pub c => exact ⟨_, rfl⟩

/-- **What is in the batches after a step**: what was left of them, and in front of that the handlers
of the channel that comes next, or the channels that `epoll_wait` reports. -/
theorem batch_cases (hs : s.Safe) (h : s.step a = some s') :
    s'.batch = s.left a ∨
      ∃ l new, s'.batch = update (s.left a) l (new ++ s.left a l) ∧
        (∀ todo ∈ new, s.Alive todo.conn) ∧ (∀ q, s.lost q a = 0) ∧ s.rebound a = none := by
  cases a with
  | wait l ready =>
      simp only [step] at h
      split at h
      · rename_i hready
        obtain rfl := Option.some.inj h
        refine .inr ⟨l, ready.map fun e => .channel e.1 e.2, ?_, ?_, fun _ => rfl, rfl⟩
        · simp only [left, hready.1, List.append_nil]
        · intro todo htodo
          obtain ⟨e, he, rfl⟩ := List.mem_map.1 htodo
          exact (hready.2.2 e he).1
      · exact absurd h (by simp)
  | invoke l ans =>
      rcases step_invoke h with ⟨x, r, rest, hb, rfl⟩ | ⟨x, hd, rest, hb, h⟩
      · -- the channel that comes next was in the batch
        have hx : s.Alive x := hs l (.channel x r) (hb ▸ List.mem_cons_self)
        have hquiet : (∀ q, s.lost q (.invoke l ans) = 0) ∧ s.rebound (.invoke l ans) = none := by
          simp [lost, rebound, hb]
        obtain ⟨closed, hbatch⟩ := handleEvents_batch { s with batch := update s.batch l rest } l x r
        refine .inr ⟨l, handlers x closed r, ?_, fun todo htodo => ?_, hquiet⟩
        · rw [hbatch]
          simp only [left, hb, List.tail_cons, Function.update_self, Function.update_idem]
        · rw [mem_handlers htodo]
          exact hx
      · refine .inl ?_
        simp only [left, hb, List.tail_cons]
        cases x with
        | proxy p =>
            cases hd with
            | read => exact (conn_proxyHandleRead h).1
            | write =>
                obtain rfl := Option.some.inj h
                rfl
            | every =>
                obtain rfl := Option.some.inj h
                exact (proxyEveryHandle_frame _ p).2
        | pub c =>
            cases hd with
            | read => exact (publicHandleRead_frame h).2.1
            | write =>
                obtain rfl := Option.some.inj h
                rfl
            | every =>
                obtain rfl := Option.some.inj h
                rfl
  | newProxyConn p l fd b₁ b₂ =>
      simp only [step] at h
      split at h
      · exact absurd h (by simp)
      · obtain rfl := Option.some.inj h
        exact .inl rfl
  | newTunnel =>
      obtain rfl := Option.some.inj h
      exact .inl rfl
  | newPublicConn t =>
      simp only [step, newPublicConnHandler] at h
      split at h
      · obtain rfl := Option.some.inj h
        exact .inl rfl
      · exact absurd h (by simp)
      · obtain rfl := Option.some.inj h
        exact .inl rfl
  | handleShutdownPublicConn t i n =>
      simp only [step] at h
      split at h
      · obtain rfl := Option.some.inj h
        exact .inl rfl
      · obtain rfl := Option.some.inj h
        exact .inl (shutdownPublicConn_frame _ t _).2
  | handleFreeProxyConnReq t i =>
      obtain rfl := Option.some.inj h
      exact .inl (freeProxyConn_proxy s t i).2

omit [DecidableEq ι] [DecidableEq κ] [DecidableEq π] [Inhabited ι] in
/-- What is left of a batch was in it before. -/
theorem Safe.left (hs : s.Safe) {l : ρ} {todo : LoopTodo κ π} (ht : todo ∈ s.left a l) :
    s.Alive todo.conn := by
  cases a with
  | invoke l' ans =>
      simp only [LoopServer.left] at ht
      by_cases hl : l = l'
      · subst hl
        rw [Function.update_self] at ht
        exact hs l todo (List.mem_of_mem_tail ht)
      · rw [Function.update_of_ne hl] at ht
        exact hs l todo ht
  | wait _ _ | newProxyConn _ _ _ _ _ | newTunnel | newPublicConn _
  | handleShutdownPublicConn _ _ _ | handleFreeProxyConnReq _ _ => exact hs l todo ht

/-- **A step leaves the batches in order exactly when it takes no last owner away.** -/
theorem Safe.step_iff (hs : s.Safe) (h : s.step a = some s') : s'.Safe ↔ s.KeepsPending a := by
  have hcall := hs.invokesAlive a
  rcases batch_cases hs h with hb | ⟨l₀, new, hb, hnew, hlost, hreb⟩
  · constructor
    · intro hs' l todo ht
      exact (alive_step_iff hcall h (hs.left ht)).1 (hs' l todo (by rw [hb]; exact ht))
    · intro hkeep l todo ht
      rw [hb] at ht
      exact (alive_step_iff hcall h (hs.left ht)).2 (hkeep l todo ht)
  · -- nothing is destroyed
    have hquiet : ∀ {x}, s.Alive x → ¬ s.Released a x := fun hx =>
      not_released_of_quiet hx hlost hreb
    refine iff_of_true ?_ fun l todo ht => hquiet (hs.left ht)
    intro l todo ht
    have hx : s.Alive todo.conn := by
      rw [hb] at ht
      by_cases hl : l = l₀
      · subst hl
        rw [Function.update_self] at ht
        rcases List.mem_append.1 ht with ht | ht
        · exact hnew todo ht
        · exact hs.left ht
      · rw [Function.update_of_ne hl] at ht
        exact hs.left ht
    exact (alive_step_iff hcall h hx).2 (hquiet hx)

end Steps

end LoopServer

/-- The server from its start. -/
def loopLts (ι κ π ρ : Type) [DecidableEq ι] [DecidableEq κ] [DecidableEq π] [DecidableEq ρ]
    [Inhabited ι] : Lts (LoopServer ι κ π ρ) (LoopAct ι κ π ρ) where
  init := LoopServer.init
  step := LoopServer.step

/-- **When every handler of a batch belongs to a live connection.**  In a run of the server every
handler that a worker loop calls, and every handler that is left in a batch, belongs to a connection
that has not been destroyed, exactly when no step takes the last owner away from a connection whose
channel is left in a batch. -/
theorem loop_handlers_alive_iff {as : List (LoopAct ι κ π ρ)} {s : LoopServer ι κ π ρ}
    (he : (loopLts ι κ π ρ).exec (loopLts ι κ π ρ).init as = some s) :
    (loopLts ι κ π ρ).AllSteps (fun s a => s.InvokesAlive a ∧ s.LeavesAlive a)
        (loopLts ι κ π ρ).init as ↔
      (loopLts ι κ π ρ).AllSteps LoopServer.KeepsPending (loopLts ι κ π ρ).init as := by
  have hinit : (loopLts ι κ π ρ).init.Safe := fun l todo ht => absurd ht List.not_mem_nil
  refine Lts.allSteps_iff (g := fun _ _ => True) ?_ he (Lts.allSteps_true _ _)
  intro s a s' hr _ hst
  have hs : s.Safe := hr.invariant hinit fun _ _ _ _ hs hg hst => (hs.step_iff hst).2 hg.2
  constructor
  · intro hP
    exact (hs.step_iff hst).1 (hP.2 s' hst)
  · intro hQ
    refine ⟨hs.invokesAlive a, fun t ht => ?_⟩
    obtain rfl : t = s' := Option.some.inj (ht.symm.trans hst)
    exact (hs.step_iff hst).2 hQ

section Examples

/-- A tunnel, a proxy connection on the only worker loop, and its first session. -/
def firstSession : List (LoopAct ℕ ℕ ℕ Unit) :=
  [.newTunnel, .newProxyConn 0 () 9 false false, .wait () [(.proxy 0, { input := true })],
    .invoke () .fail, .invoke () (.proxyMetaSet (some 0) 7 0 5), .invoke () .fail]

/-- The client closes the proxy connection, and the public client has sent something. -/
def closeBatch (first second : LoopConn ℕ ℕ) : LoopAct ℕ ℕ ℕ Unit :=
  .wait () [(first, { rdhup := true, input := true }), (second, { rdhup := true, input := true })]

theorem loop_handlers_alive_public_first :
    (loopLts ℕ ℕ ℕ Unit).AllSteps (fun s a => s.InvokesAlive a ∧ s.LeavesAlive a)
      (loopLts ℕ ℕ ℕ Unit).init
      (firstSession ++ closeBatch (.pub 0) (.proxy 0) ::
        [.invoke () .fail, .invoke () (.moved 3), .invoke () .fail, .invoke () .fail,
          .invoke () .eof, .invoke () .fail]) := by
  obtain ⟨s, hs⟩ := Option.isSome_iff_exists.1 (show ((loopLts ℕ ℕ ℕ Unit).exec
    (loopLts ℕ ℕ ℕ Unit).init (firstSession ++ closeBatch (.pub 0) (.proxy 0) ::
      [.invoke () .fail, .invoke () (.moved 3), .invoke () .fail, .invoke () .fail,
        .invoke () .eof, .invoke () .fail])).isSome = true by decide +kernel)
  exact (loop_handlers_alive_iff hs).2 (by decide +kernel)

/-- The close of the proxy connection comes first, and the read handler of the public client is called
on a connection that has been destroyed with it. -/
theorem loop_handlers_alive_proxy_first :
    ((loopLts ℕ ℕ ℕ Unit).exec (loopLts ℕ ℕ ℕ Unit).init
      (firstSession ++ closeBatch (.proxy 0) (.pub 0) ::
        [.invoke () .fail, .invoke () .eof, .invoke () .fail, .invoke () .fail,
          .invoke () (.moved 3)])).isSome = true ∧
      ¬ (loopLts ℕ ℕ ℕ Unit).AllSteps LoopServer.InvokesAlive (loopLts ℕ ℕ ℕ Unit).init
        (firstSession ++ closeBatch (.proxy 0) (.pub 0) ::
          [.invoke () .fail, .invoke () .eof, .invoke () .fail, .invoke () .fail,
            .invoke () (.moved 3)]) := by
  decide +kernel

end Examples

end ProxySocket
