/-
**The containers of a server tunnel.**

A `Tunnel` of the server keeps the public descriptors that wait for a connection, the connections
that wait for a public client, and two maps of connections keyed by the proxy id.  This module is
about the containers alone; a connection is an element of an arbitrary type, which also serves as its
proxy id.

`handlePeerProxyConnClose` calls `std::remove` on the vector of free connections and does not erase
what it leaves behind, so the vector keeps its length: the other connections move to the front, and
the places at the end hold what the algorithm leaves there, the closed connection where it stood
there before and an empty pointer where a connection was moved away.

Main definitions:

* `Tunnel` — the containers;
* `Tunnel.getAndPopUndealPublicFd`, `Tunnel.popFreeProxyConn`, `Tunnel.freeProxyConn`,
  `Tunnel.handlePeerProxyConnClose` — their operations;
* `Tunnel.Live` — a connection is referred to by one of them.

Main results:

* `count_stdRemove_of_ne` — `std::remove` keeps every other connection;
* `count_stdRemove_self` — **a connection that is in the vector once survives `std::remove` exactly
  when it stands last**;
* `Tunnel.Holds.handlePeerProxyConnClose` — **where a closed connection is afterwards**.
-/

import Mathlib.Data.List.Basic
import Mathlib.Data.List.Nodup
import Mathlib.Logic.Function.Basic

set_option relaxedAutoImplicit false
set_option autoImplicit false

namespace ProxySocket

open Function (update)

variable {κ : Type} [DecidableEq κ]

/-! ### The containers -/

/-- The containers of a server tunnel. -/
structure Tunnel (κ : Type) where
  /-- `unhandle_fds_` -/
  unhandleFds : List ℕ := []
  /-- `free_proxy_connects_`, with the empty pointers that `std::remove` leaves -/
  freeProxyConnects : List (Option κ) := []
  /-- `wait_proxy_connect_map_` -/
  waitProxyConnectMap : κ → Bool := fun _ => false
  /-- `proxy_connect_map_` -/
  proxyConnectMap : κ → Bool := fun _ => false

/-- `std::remove(v.begin(), v.end(), x)` on a vector of shared pointers, without a call of
`erase`. -/
def stdRemove (l : List (Option κ)) (p : κ) : List (Option κ) :=
  let kept := l.filter fun x => x ≠ some p
  kept ++ (l.drop kept.length).map fun x => if x = some p then x else none

namespace Tunnel

/-- `getAndPopUndealPublicFd`.  On an empty vector `back` is undefined. -/
def getAndPopUndealPublicFd (t : Tunnel κ) : Option (ℕ × Tunnel κ) :=
  t.unhandleFds.getLast?.map fun fd => (fd, { t with unhandleFds := t.unhandleFds.dropLast })

/-- `popFreeProxyConn`: nothing when the vector is empty, else the last pointer. -/
def popFreeProxyConn (t : Tunnel κ) : Option (Option κ × Tunnel κ) :=
  t.freeProxyConnects.getLast?.map fun x =>
    (x, { t with freeProxyConnects := t.freeProxyConnects.dropLast })

/-- `freeProxyConn`, for a connection with this `start_`. -/
def freeProxyConn (t : Tunnel κ) (start : Bool) (p : κ) : Tunnel κ :=
  if t.proxyConnectMap p = false then t
  else if start then t
  else
    { t with
      proxyConnectMap := update t.proxyConnectMap p false
      freeProxyConnects := t.freeProxyConnects ++ [some p] }

/-- `handlePeerProxyConnClose`. -/
def handlePeerProxyConnClose (t : Tunnel κ) (p : κ) : Tunnel κ :=
  { t with
    proxyConnectMap := update t.proxyConnectMap p false
    freeProxyConnects := stdRemove t.freeProxyConnects p }

/-- A container of the tunnel refers to the connection. -/
def Live (t : Tunnel κ) (p : κ) : Prop :=
  t.proxyConnectMap p = true ∨ t.waitProxyConnectMap p = true ∨ some p ∈ t.freeProxyConnects

instance (t : Tunnel κ) (p : κ) : Decidable (t.Live p) := inferInstanceAs (Decidable (_ ∨ _ ∨ _))

/-! ### What the operations do -/

section Operations

variable {t tun : Tunnel κ}

omit [DecidableEq κ] in
theorem getAndPopUndealPublicFd_eq_some {fd : ℕ} (h : t.getAndPopUndealPublicFd = some (fd, tun)) :
    ∃ rest, t.unhandleFds = rest ++ [fd] ∧ tun = { t with unhandleFds := rest } := by
  simp only [getAndPopUndealPublicFd, Option.map_eq_some_iff, Prod.mk.injEq] at h
  obtain ⟨x, hx, rfl, rfl⟩ := h
  exact ⟨_, (List.dropLast_append_getLast? _ hx).symm, rfl⟩

omit [DecidableEq κ] in
theorem getAndPopUndealPublicFd_isSome :
    t.getAndPopUndealPublicFd.isSome ↔ 0 < t.unhandleFds.length := by
  simp [getAndPopUndealPublicFd, List.length_pos_iff]

omit [DecidableEq κ] in
theorem popFreeProxyConn_eq_some {x : Option κ} (h : t.popFreeProxyConn = some (x, tun)) :
    ∃ rest, t.freeProxyConnects = rest ++ [x] ∧ tun = { t with freeProxyConnects := rest } := by
  simp only [popFreeProxyConn, Option.map_eq_some_iff, Prod.mk.injEq] at h
  obtain ⟨y, hy, rfl, rfl⟩ := h
  exact ⟨_, (List.dropLast_append_getLast? _ hy).symm, rfl⟩

@[simp] theorem freeProxyConn_unhandleFds (start : Bool) (p : κ) :
    (t.freeProxyConn start p).unhandleFds = t.unhandleFds := by
  unfold freeProxyConn
  split
  · rfl
  · split <;> rfl

@[simp] theorem handlePeerProxyConnClose_unhandleFds (p : κ) :
    (t.handlePeerProxyConnClose p).unhandleFds = t.unhandleFds := rfl

end Operations

end Tunnel

/-! ### What `std::remove` leaves -/

theorem length_stdRemove (l : List (Option κ)) (p : κ) : (stdRemove l p).length = l.length := by
  have := List.length_filter_le (fun x => decide (x ≠ some p)) l
  simp only [stdRemove, List.length_append, List.length_map, List.length_drop]
  omega

/-- The other connections stay, as often as they were there. -/
theorem count_stdRemove_of_ne {p q : κ} (h : q ≠ p) (l : List (Option κ)) :
    (stdRemove l p).count (some q) = l.count (some q) := by
  have htail : ((l.drop (l.filter fun x => x ≠ some p).length).map
      fun x => if x = some p then x else none).count (some q) = 0 := by
    rw [List.count_eq_zero]
    intro hm
    obtain ⟨x, -, hx⟩ := List.mem_map.1 hm
    split at hx <;> simp_all
  rw [stdRemove, List.count_append, htail, Nat.add_zero, List.count_filter (by simpa using h)]

/-- A connection that is not in the vector does not come into it. -/
theorem count_stdRemove_of_not_mem {p : κ} {l : List (Option κ)} (h : l.count (some p) = 0) :
    (stdRemove l p).count (some p) = 0 := by
  have hp := List.count_eq_zero.1 h
  have hkept : (l.filter fun x => x ≠ some p) = l := List.filter_eq_self.2 fun x hx => by
    simpa using fun hxp : x = some p => hp (hxp ▸ hx)
  rw [stdRemove, hkept]
  simpa using h

/-- **A connection that is in the vector once survives exactly when it stands last.** -/
theorem count_stdRemove_self {p : κ} {l : List (Option κ)} (h : l.count (some p) = 1) :
    (stdRemove l p).count (some p) = if l.getLast? = some (some p) then 1 else 0 := by
  obtain ⟨as, bs, rfl, has⟩ :=
    List.eq_append_cons_of_mem (List.count_pos_iff.1 (by omega : 0 < l.count (some p)))
  have hbs : some p ∉ bs := by
    rw [List.count_append, List.count_eq_zero.2 has, List.count_cons_self] at h
    exact List.count_eq_zero.1 (by omega)
  have hkeep : ∀ {m : List (Option κ)}, some p ∉ m → (m.filter fun x => x ≠ some p) = m :=
    fun hm => List.filter_eq_self.2 fun x hx => by
      simpa using fun hxp : x = some p => hm (hxp ▸ hx)
  have hkept : ((as ++ some p :: bs).filter fun x => x ≠ some p) = as ++ bs := by
    rw [List.filter_append, hkeep has, List.filter_cons_of_neg (by simp), hkeep hbs]
  have hdrop : (as ++ some p :: bs).drop (as ++ bs).length = (some p :: bs).drop bs.length := by
    rw [List.length_append, List.drop_append, List.drop_of_length_le (by omega)]
    simp
  rw [stdRemove, hkept, hdrop]
  rcases List.eq_nil_or_concat bs with rfl | ⟨cs, x, rfl⟩
  · simp [List.count_append, List.count_eq_zero.2 has]
  · have hx : x ≠ some p := fun hx => hbs (by simp [hx])
    have hcs : some p ∉ cs := fun hc => hbs (by simp [hc])
    have hlast : (some p :: (cs ++ [x])).drop (cs ++ [x]).length = [x] := by
      rw [← List.cons_append, List.length_append, List.drop_append]
      simp
    rw [List.concat_eq_append, hlast]
    simp [List.count_append, List.count_eq_zero.2 has, List.count_eq_zero.2 hcs, hx,
      List.getLast?_append, List.getLast?_cons]

/-! ### Where a connection is in the containers -/

/-- Which container refers to a connection. -/
inductive Slot
  | none
  | map
  | wait
  | free
deriving DecidableEq, Repr

/-- The connection is in the container named by the slot, in no other, and once. -/
@[grind cases]
structure Tunnel.Holds (t : Tunnel κ) (p : κ) (slot : Slot) : Prop where
  map : t.proxyConnectMap p = decide (slot = .map)
  wait : t.waitProxyConnectMap p = decide (slot = .wait)
  free : t.freeProxyConnects.count (some p) = if slot = .free then 1 else 0

namespace Tunnel.Holds

variable {t : Tunnel κ} {p q : κ} {slot : Slot}

attribute [local grind =] Function.update_apply List.count_append List.count_cons List.count_nil

theorem live_iff (h : t.Holds p slot) : t.Live p ↔ slot ≠ .none := by
  have hf : some p ∈ t.freeProxyConnects ↔ slot = .free := by
    rw [← List.count_pos_iff, h.free]
    split <;> simp_all
  rw [Live, h.map, h.wait, hf]
  cases slot <;> simp

/-- `popFreeProxyConn` and the entry in the waiting map. -/
theorem popWait (h : t.Holds q slot) {rest : List (Option κ)}
    (hf : t.freeProxyConnects = rest ++ [some p]) :
    Holds { t with
      freeProxyConnects := rest
      waitProxyConnectMap := update t.waitProxyConnectMap p true } q
      (if q = p then .wait else slot) := by
  have hc := h.free
  rw [hf, List.count_append] at hc
  split
  · rename_i he
    subst he
    have hs : slot = .free := by
      by_contra hs
      simp [hs] at hc
    subst hs
    constructor <;> grind
  · constructor <;> grind

/-- The entry of `bindPublicFdToProxyConn`, out of the waiting map or for a new connection. -/
theorem bind (h : t.Holds q slot) (hp : q = p → slot = .none ∨ slot = .wait) :
    Holds { t with
      waitProxyConnectMap := update t.waitProxyConnectMap p false
      proxyConnectMap := update t.proxyConnectMap p true } q (if q = p then .map else slot) := by
  split <;> constructor <;> grind

theorem bindNew (h : t.Holds q slot) (hp : q = p → slot = .none) :
    Holds { t with proxyConnectMap := update t.proxyConnectMap p true } q
      (if q = p then .map else slot) := by
  split <;> constructor <;> grind

theorem freeProxyConn (h : t.Holds q slot) (start : Bool) :
    (t.freeProxyConn start p).Holds q
      (if q = p ∧ slot = .map ∧ start = false then .free else slot) := by
  unfold Tunnel.freeProxyConn
  split
  · split <;> constructor <;> grind
  · split
    · split <;> constructor <;> grind
    · split <;> constructor <;> grind

/-- **Where a closed connection is afterwards.** -/
theorem handlePeerProxyConnClose (h : t.Holds q slot) :
    (t.handlePeerProxyConnClose p).Holds q
      (if q = p ∧ (slot = .map ∨ (slot = .free ∧ t.freeProxyConnects.getLast? ≠ some (some p)))
        then .none else slot) := by
  by_cases he : q = p
  · subst he
    have hcount : (stdRemove t.freeProxyConnects q).count (some q) =
        if slot = .free ∧ t.freeProxyConnects.getLast? = some (some q) then 1 else 0 := by
      have hf := h.free
      by_cases hs : slot = .free
      · rw [if_pos hs] at hf
        rw [count_stdRemove_self hf]
        simp [hs]
      · rw [if_neg hs] at hf
        rw [count_stdRemove_of_not_mem hf]
        simp [hs]
    have hm := h.map
    have hw := h.wait
    refine ⟨?_, ?_, ?_⟩
    · simp only [Tunnel.handlePeerProxyConnClose, Function.update_self]
      split <;> grind
    · simp only [Tunnel.handlePeerProxyConnClose, hw]
      split <;> grind
    · simp only [Tunnel.handlePeerProxyConnClose, hcount]
      split <;> grind
  · rw [if_neg (fun hx => he hx.1)]
    refine ⟨?_, h.wait, ?_⟩
    · simp only [Tunnel.handlePeerProxyConnClose, Function.update_of_ne he]
      exact h.map
    · simp only [Tunnel.handlePeerProxyConnClose, count_stdRemove_of_ne he]
      exact h.free

end Tunnel.Holds

end ProxySocket
