/-
**How many references the server has to a proxy connection.**

The server refers to its proxy connections in `unclaimed_proxy_map_` and, for each tunnel, in
`proxy_connect_map_`, `wait_proxy_connect_map_` and `free_proxy_connects_`.  All of them hold shared
pointers: a connection lives as long as the number of references to it, its `use_count`, is not 0.

The two maps of a tunnel are keyed by the proxy id, which a client chooses and the server does not
check.  `threadsafe_unordered_map::add` calls `emplace`, so a connection whose id is in the map already
does not come into it.

Main definitions:

* `OwnerTunnel`, `Owners` — the containers of one tunnel and of the server;
* `Owners.useCount` — the number of references to a connection;
* `Owners.addProxy`, `Owners.eraseProxy`, `Owners.addWait`, `Owners.eraseWait`, `Owners.pushFree`,
  `Owners.popFree`, `Owners.removeFree`, `Owners.claimed` — what the handlers do to the containers.

Main results:

* `Owners.useCount_modify` — a change of one tunnel changes the count by what that tunnel gains;
* `Owners.useCount_addProxy` and the lemmas after it — **what each operation gains and loses**.
-/

import ProxySocket.Tunnel
import Mathlib.Algebra.Ring.Nat
import Mathlib.Data.List.AList
import Mathlib.Data.List.ReduceOption

set_option relaxedAutoImplicit false
set_option autoImplicit false

namespace ProxySocket

variable {ι κ : Type} [DecidableEq ι] [DecidableEq κ]

/-- What is in a list that has got one more element. -/
theorem getElem?_concat_iff {α : Type*} {l : List α} {a b : α} {n : ℕ} :
    (l ++ [a])[n]? = some b ↔ l[n]? = some b ∨ n = l.length ∧ b = a := by
  rcases Nat.lt_trichotomy n l.length with hlt | rfl | hgt
  · rw [List.getElem?_append_left hlt]
    exact (or_iff_left fun h => Nat.ne_of_lt hlt h.1).symm
  · rw [List.getElem?_concat_length, List.getElem?_eq_none le_rfl, Option.some.injEq]
    simp [eq_comm]
  · have hlen : (l ++ [a]).length ≤ n := by
      rw [List.length_append, List.length_singleton]
      exact hgt
    rw [List.getElem?_eq_none hlen, List.getElem?_eq_none (Nat.le_of_lt hgt)]
    have hnone : ¬ (none : Option α) = some b := (Option.some_ne_none b).symm
    exact iff_of_false hnone fun h => h.elim hnone fun h => Nat.ne_of_gt hgt h.1

/-! ### Maps of connections -/

/-- A `threadsafe_unordered_map` from proxy ids to connections. -/
abbrev ConnMap (ι κ : Type) := AList fun _ : ι => κ

namespace ConnMap

/-- The connections in the map. -/
def conns (m : ConnMap ι κ) : List κ := m.entries.map Sigma.snd

/-- `add`, a call of `emplace`: an entry with the key stays. -/
def add (m : ConnMap ι κ) (i : ι) (p : κ) : ConnMap ι κ :=
  if AList.lookup i m = none then AList.insert i p m else m

omit [DecidableEq κ] in
/-- What `add` changes: a new key comes into the map. -/
theorem lookup_add (m : ConnMap ι κ) (i j : ι) (p : κ) :
    AList.lookup j (m.add i p) =
      if j = i ∧ AList.lookup i m = none then some p else AList.lookup j m := by
  unfold add
  by_cases hi : AList.lookup i m = none
  · rw [if_pos hi]
    by_cases hj : j = i
    · rw [hj, AList.lookup_insert, if_pos ⟨rfl, hi⟩]
    · rw [AList.lookup_insert_ne hj, if_neg (fun h => hj h.1)]
  · rw [if_neg hi, if_neg (fun h => hi h.2)]

omit [DecidableEq κ] in
theorem conns_erase (m : ConnMap ι κ) (i : ι) :
    conns (AList.erase i m) = (m.entries.kerase i).map Sigma.snd := rfl

omit [DecidableEq κ] in
theorem mem_conns_iff {m : ConnMap ι κ} {p : κ} : p ∈ m.conns ↔ ∃ i, AList.lookup i m = some p := by
  rw [conns, List.mem_map]
  constructor
  · rintro ⟨⟨i, p⟩, hmem, rfl⟩
    exact ⟨i, AList.mem_lookup_iff.2 hmem⟩
  · rintro ⟨i, hlook⟩
    exact ⟨⟨i, p⟩, AList.mem_lookup_iff.1 hlook, rfl⟩

omit [DecidableEq κ] in
theorem conns_insert {m : ConnMap ι κ} {i : ι} (hi : AList.lookup i m = none) (p : κ) :
    conns (AList.insert i p m) = p :: m.conns := by
  rw [conns, AList.entries_insert_of_notMem (AList.lookup_eq_none.1 hi), List.map_cons, conns]

/-- `emplace` adds a reference when the key is new. -/
theorem count_add (m : ConnMap ι κ) (i : ι) (p q : κ) :
    (add m i p).conns.count q =
      m.conns.count q + if AList.lookup i m = none ∧ q = p then 1 else 0 := by
  unfold add
  by_cases hi : AList.lookup i m = none
  · rw [if_pos hi, conns_insert hi, List.count_cons]
    by_cases hq : q = p
    · rw [if_pos (beq_iff_eq.2 hq.symm), if_pos ⟨hi, hq⟩]
    · rw [if_neg (fun h => hq (beq_iff_eq.1 h).symm), if_neg (fun h => hq h.2)]
  · rw [if_neg hi, if_neg (fun h => hi h.1), Nat.add_zero]

/-- `erase` drops the reference of the entry with the key. -/
theorem count_erase (m : ConnMap ι κ) (i : ι) (q : κ) :
    (conns (AList.erase i m)).count q + (if AList.lookup i m = some q then 1 else 0) =
      m.conns.count q := by
  cases hi : AList.lookup i m with
  | none =>
      have hkeys : i ∉ m.entries.keys := fun h => AList.lookup_eq_none.1 hi h
      rw [conns_erase, List.kerase_of_notMem_keys hkeys]
      simp [conns]
  | some p =>
      have hkeys : i ∈ m.entries.keys := AList.mem_keys.1 (AList.lookup_isSome.1 (by rw [hi]; rfl))
      obtain ⟨b, l₁, l₂, -, hl, herase⟩ := List.exists_of_kerase hkeys
      -- the entry that is taken out is the one that `lookup` finds
      have hb : b = p := by
        have hmem : (⟨i, b⟩ : Sigma fun _ : ι => κ) ∈ m.entries := by rw [hl]; simp
        have hlook : AList.lookup i m = some b := AList.mem_lookup_iff.2 hmem
        exact Option.some.inj (hlook.symm.trans hi)
      subst hb
      have hold : m.conns = l₁.map Sigma.snd ++ b :: l₂.map Sigma.snd := by
        rw [conns, hl, List.map_append, List.map_cons]
      have hnew : conns (AList.erase i m) = l₁.map Sigma.snd ++ l₂.map Sigma.snd := by
        rw [conns_erase, herase, List.map_append]
      rw [hold, hnew, List.count_append, List.count_append, List.count_cons]
      simp only [Option.some.injEq, beq_iff_eq]
      omega

theorem perm_erase {m : ConnMap ι κ} {i : ι} {p : κ} (hi : AList.lookup i m = some p) :
    m.conns.Perm (p :: conns (AList.erase i m)) := by
  refine List.perm_iff_count.2 fun q => ?_
  have hcount := count_erase m i q
  rw [hi] at hcount
  simp only [Option.some.injEq] at hcount
  simp only [List.count_cons, beq_iff_eq]
  omega

end ConnMap

/-! ### The containers of a tunnel -/

/-- The containers of a server tunnel that refer to connections. -/
structure OwnerTunnel (ι κ : Type) where
  /-- `proxy_connect_map_` -/
  proxyConnectMap : ConnMap ι κ := ∅
  /-- `wait_proxy_connect_map_` -/
  waitProxyConnectMap : ConnMap ι κ := ∅
  /-- `free_proxy_connects_`, with the empty pointers that `std::remove` leaves -/
  freeProxyConnects : List (Option κ) := []

/-- The connections the containers refer to, once for each reference. -/
def OwnerTunnel.refs (t : OwnerTunnel ι κ) : List κ :=
  t.proxyConnectMap.conns ++ t.waitProxyConnectMap.conns ++ t.freeProxyConnects.reduceOption

/-- The number of references to a connection in the containers. -/
def OwnerTunnel.useCount (t : OwnerTunnel ι κ) (q : κ) : ℕ :=
  t.proxyConnectMap.conns.count q + t.waitProxyConnectMap.conns.count q +
    t.freeProxyConnects.count (some q)

omit [DecidableEq ι] in
theorem OwnerTunnel.count_refs (t : OwnerTunnel ι κ) (q : κ) : t.refs.count q = t.useCount q := by
  have hfree : ∀ l : List (Option κ), l.reduceOption.count q = l.count (some q) := by
    intro l
    induction l with
    | nil => rfl
    | cons x l ih =>
        cases x with
        | none => rw [List.reduceOption_cons_of_none, ih, List.count_cons_of_ne (by simp)]
        | some p =>
            rw [List.reduceOption_cons_of_some, List.count_cons, List.count_cons, ih]
            simp
  rw [refs, List.count_append, List.count_append, hfree, useCount]

/-- The references to a connection that other connections are moved onto when `std::remove` takes it
out of the vector. -/
def overwritten (l : List (Option κ)) (p : κ) : ℕ :=
  (l.take (l.filter fun x => x ≠ some p).length).count (some p)

/-- `std::remove` drops the references that it moves other connections onto. -/
theorem count_stdRemove (l : List (Option κ)) (p q : κ) :
    (stdRemove l p).count (some q) + (if q = p then overwritten l p else 0) =
      l.count (some q) := by
  by_cases hq : q = p
  · subst hq
    have hkept : (l.filter fun x => x ≠ some q).count (some q) = 0 :=
      List.count_eq_zero.2 fun h => by simpa using (List.mem_filter.1 h).2
    have hrest : ∀ m : List (Option κ),
        (m.map fun x => if x = some q then x else none).count (some q) = m.count (some q) := by
      intro m
      induction m with
      | nil => rfl
      | cons x m ih =>
          rw [List.map_cons, List.count_cons, List.count_cons, ih]
          by_cases hx : x = some q
          · rw [if_pos hx]
          · rw [if_neg hx]
            simp [hx]
    have hsplit := congrArg (List.count (some q))
      (List.take_append_drop (l.filter fun x => x ≠ some q).length l)
    rw [List.count_append] at hsplit
    rw [if_pos rfl, stdRemove, List.count_append, hkept, hrest, overwritten]
    omega
  · rw [if_neg hq, Nat.add_zero, count_stdRemove_of_ne hq]

/-! ### The containers of the server -/

/-- The containers of the server that refer to connections. -/
structure Owners (ι κ : Type) where
  /-- `unclaimed_proxy_map_` -/
  unclaimed : List κ := []
  tunnels : List (OwnerTunnel ι κ) := []

namespace Owners

variable (o : Owners ι κ) (t : ℕ) (i : ι) (p q : κ)

/-- The connections the server refers to, once for each reference. -/
def refs : List κ := o.unclaimed ++ o.tunnels.flatMap OwnerTunnel.refs

/-- The `use_count` of a connection. -/
def useCount : ℕ := o.refs.count q

/-- A change of one tunnel. -/
def modify (f : OwnerTunnel ι κ → OwnerTunnel ι κ) : Owners ι κ :=
  { o with tunnels := o.tunnels.modify t f }

/-- The connection that the `proxy_connect_map_` of the tunnel has for the id. -/
def proxyConn : Option κ := (o.tunnels[t]?).bind fun T => AList.lookup i T.proxyConnectMap

/-- The connection that the `wait_proxy_connect_map_` of the tunnel has for the id. -/
def waitConn : Option κ := (o.tunnels[t]?).bind fun T => AList.lookup i T.waitProxyConnectMap

/-- The last pointer of `free_proxy_connects_`. -/
def lastFree : Option (Option κ) := (o.tunnels[t]?).bind fun T => T.freeProxyConnects.getLast?

/-- The tunnel exists, and its `proxy_connect_map_` does not have the id. -/
def proxyRoom : Bool := (o.tunnels[t]?).any fun T => AList.lookup i T.proxyConnectMap = none

/-- The tunnel exists, and its `wait_proxy_connect_map_` does not have the id. -/
def waitRoom : Bool := (o.tunnels[t]?).any fun T => AList.lookup i T.waitProxyConnectMap = none

/-- The number of references that `std::remove` drops. -/
def removed : ℕ := (o.tunnels[t]?).elim 0 fun T => overwritten T.freeProxyConnects p

/-- `proxy_connect_map_.add`. -/
def addProxy : Owners ι κ :=
  o.modify t fun T => { T with proxyConnectMap := T.proxyConnectMap.add i p }

/-- `proxy_connect_map_.erase`. -/
def eraseProxy : Owners ι κ :=
  o.modify t fun T => { T with proxyConnectMap := T.proxyConnectMap.erase i }

/-- `wait_proxy_connect_map_.add`. -/
def addWait : Owners ι κ :=
  o.modify t fun T => { T with waitProxyConnectMap := T.waitProxyConnectMap.add i p }

/-- `wait_proxy_connect_map_.erase`. -/
def eraseWait : Owners ι κ :=
  o.modify t fun T => { T with waitProxyConnectMap := T.waitProxyConnectMap.erase i }

/-- `free_proxy_connects_.emplace_back`. -/
def pushFree : Owners ι κ :=
  o.modify t fun T => { T with freeProxyConnects := T.freeProxyConnects ++ [some p] }

/-- `free_proxy_connects_.pop_back`. -/
def popFree : Owners ι κ :=
  o.modify t fun T => { T with freeProxyConnects := T.freeProxyConnects.dropLast }

/-- `std::remove` on `free_proxy_connects_`. -/
def removeFree : Owners ι κ :=
  o.modify t fun T => { T with freeProxyConnects := stdRemove T.freeProxyConnects p }

/-- A new connection comes into `unclaimed_proxy_map_`. -/
def newProxy : Owners ι κ := { o with unclaimed := p :: o.unclaimed }

/-- A connection that is claimed leaves `unclaimed_proxy_map_`. -/
def claimed : Owners ι κ := { o with unclaimed := o.unclaimed.erase p }

/-- The server gets a tunnel. -/
def newTunnel : Owners ι κ := { o with tunnels := o.tunnels ++ [{}] }

/-! ### What the operations gain and lose -/

omit [DecidableEq ι] in
theorem mem_refs_iff : q ∈ o.refs ↔ 0 < o.useCount q := List.count_pos_iff.symm

omit [DecidableEq ι] in
theorem useCount_eq :
    o.useCount q = o.unclaimed.count q + (o.tunnels.map fun T => T.useCount q).sum := by
  have hsum : ∀ l : List (OwnerTunnel ι κ),
      (l.flatMap OwnerTunnel.refs).count q = (l.map fun T => T.useCount q).sum := by
    intro l
    induction l with
    | nil => rfl
    | cons T l ih =>
        rw [List.flatMap_cons, List.count_append, ih, OwnerTunnel.count_refs, List.map_cons,
          List.sum_cons]
  rw [useCount, refs, List.count_append, hsum]

omit [DecidableEq ι] in
/-- **A change of one tunnel** changes the count by what that tunnel gains and loses. -/
theorem useCount_modify (f : OwnerTunnel ι κ → OwnerTunnel ι κ) :
    (o.modify t f).useCount q + (o.tunnels[t]?).elim 0 (fun T => T.useCount q) =
      o.useCount q + (o.tunnels[t]?).elim 0 fun T => (f T).useCount q := by
  have hsum : ∀ (l : List (OwnerTunnel ι κ)) (t : ℕ),
      ((l.modify t f).map fun T => T.useCount q).sum + (l[t]?).elim 0 (fun T => T.useCount q) =
        (l.map fun T => T.useCount q).sum + (l[t]?).elim 0 fun T => (f T).useCount q := by
    intro l
    induction l with
    | nil => intro t; simp
    | cons T l ih =>
        intro t
        cases t with
        | zero =>
            simp only [List.modify_zero_cons, List.map_cons, List.sum_cons, List.getElem?_cons_zero,
              Option.elim_some]
            omega
        | succ t =>
            have h := ih t
            simp only [List.modify_succ_cons, List.map_cons, List.sum_cons,
              List.getElem?_cons_succ]
            omega
  have h := hsum o.tunnels t
  rw [useCount_eq, useCount_eq]
  simp only [modify]
  omega

omit [DecidableEq ι] in
/-- The same for a tunnel that is known. -/
theorem useCount_modify_of_eq {T : OwnerTunnel ι κ} (hT : o.tunnels[t]? = some T)
    (f : OwnerTunnel ι κ → OwnerTunnel ι κ) :
    (o.modify t f).useCount q + T.useCount q = o.useCount q + (f T).useCount q := by
  have h := useCount_modify o t q f
  rwa [hT] at h

omit [DecidableEq ι] in
/-- A tunnel that does not exist does not change. -/
theorem useCount_modify_of_none (hT : o.tunnels[t]? = none)
    (f : OwnerTunnel ι κ → OwnerTunnel ι κ) : (o.modify t f).useCount q = o.useCount q := by
  have h := useCount_modify o t q f
  rwa [hT, Option.elim_none, Nat.add_zero, Option.elim_none, Nat.add_zero] at h

theorem useCount_addProxy :
    (o.addProxy t i p).useCount q =
      o.useCount q + if o.proxyRoom t i = true ∧ q = p then 1 else 0 := by
  cases hT : o.tunnels[t]? with
  | none => simp [addProxy, useCount_modify_of_none o t q hT, proxyRoom, hT]
  | some T =>
      have h := useCount_modify_of_eq o t q hT fun T =>
        { T with proxyConnectMap := T.proxyConnectMap.add i p }
      have hadd := ConnMap.count_add T.proxyConnectMap i p q
      simp only [OwnerTunnel.useCount, hadd] at h
      simp only [addProxy, proxyRoom, hT, Option.any_some, decide_eq_true_eq]
      omega

theorem useCount_addWait :
    (o.addWait t i p).useCount q =
      o.useCount q + if o.waitRoom t i = true ∧ q = p then 1 else 0 := by
  cases hT : o.tunnels[t]? with
  | none => simp [addWait, useCount_modify_of_none o t q hT, waitRoom, hT]
  | some T =>
      have h := useCount_modify_of_eq o t q hT fun T =>
        { T with waitProxyConnectMap := T.waitProxyConnectMap.add i p }
      have hadd := ConnMap.count_add T.waitProxyConnectMap i p q
      simp only [OwnerTunnel.useCount, hadd] at h
      simp only [addWait, waitRoom, hT, Option.any_some, decide_eq_true_eq]
      omega

theorem useCount_eraseProxy :
    (o.eraseProxy t i).useCount q + (if o.proxyConn t i = some q then 1 else 0) =
      o.useCount q := by
  cases hT : o.tunnels[t]? with
  | none => simp [eraseProxy, useCount_modify_of_none o t q hT, proxyConn, hT]
  | some T =>
      have h := useCount_modify_of_eq o t q hT fun T =>
        { T with proxyConnectMap := T.proxyConnectMap.erase i }
      have herase := ConnMap.count_erase T.proxyConnectMap i q
      simp only [OwnerTunnel.useCount] at h
      simp only [eraseProxy, proxyConn, hT, Option.bind_some]
      omega

theorem useCount_eraseWait :
    (o.eraseWait t i).useCount q + (if o.waitConn t i = some q then 1 else 0) =
      o.useCount q := by
  cases hT : o.tunnels[t]? with
  | none => simp [eraseWait, useCount_modify_of_none o t q hT, waitConn, hT]
  | some T =>
      have h := useCount_modify_of_eq o t q hT fun T =>
        { T with waitProxyConnectMap := T.waitProxyConnectMap.erase i }
      have herase := ConnMap.count_erase T.waitProxyConnectMap i q
      simp only [OwnerTunnel.useCount] at h
      simp only [eraseWait, waitConn, hT, Option.bind_some]
      omega

omit [DecidableEq ι] in
theorem useCount_pushFree {T : OwnerTunnel ι κ} (hT : o.tunnels[t]? = some T) :
    (o.pushFree t p).useCount q = o.useCount q + if q = p then 1 else 0 := by
  have h := useCount_modify_of_eq o t q hT fun T =>
    { T with freeProxyConnects := T.freeProxyConnects ++ [some p] }
  have hpush : (T.freeProxyConnects ++ [some p]).count (some q) =
      T.freeProxyConnects.count (some q) + if q = p then 1 else 0 := by
    rw [List.count_append, List.count_singleton]
    by_cases hq : q = p
    · simp [hq]
    · simp [hq, Ne.symm hq]
  simp only [OwnerTunnel.useCount, hpush] at h
  simp only [pushFree]
  omega

omit [DecidableEq ι] in
theorem useCount_popFree :
    (o.popFree t).useCount q + (if o.lastFree t = some (some q) then 1 else 0) =
      o.useCount q := by
  cases hT : o.tunnels[t]? with
  | none => simp [popFree, useCount_modify_of_none o t q hT, lastFree, hT]
  | some T =>
      have h := useCount_modify_of_eq o t q hT fun T =>
        { T with freeProxyConnects := T.freeProxyConnects.dropLast }
      have hpop : T.freeProxyConnects.dropLast.count (some q) +
          (if T.freeProxyConnects.getLast? = some (some q) then 1 else 0) =
            T.freeProxyConnects.count (some q) := by
        rcases List.eq_nil_or_concat T.freeProxyConnects with hl | ⟨l, x, hl⟩
        · simp [hl]
        · rw [hl, List.concat_eq_append, List.dropLast_concat, List.count_append,
            List.count_singleton]
          simp
      simp only [OwnerTunnel.useCount] at h
      simp only [popFree, lastFree, hT, Option.bind_some]
      omega

omit [DecidableEq ι] in
theorem useCount_removeFree :
    (o.removeFree t p).useCount q + (if q = p then o.removed t p else 0) = o.useCount q := by
  cases hT : o.tunnels[t]? with
  | none => simp [removeFree, useCount_modify_of_none o t q hT, removed, hT]
  | some T =>
      have h := useCount_modify_of_eq o t q hT fun T =>
        { T with freeProxyConnects := stdRemove T.freeProxyConnects p }
      have hrem := count_stdRemove T.freeProxyConnects p q
      simp only [OwnerTunnel.useCount] at h
      simp only [removeFree, removed, hT, Option.elim_some]
      omega

omit [DecidableEq ι] in
theorem useCount_newProxy :
    (o.newProxy p).useCount q = o.useCount q + if q = p then 1 else 0 := by
  simp only [useCount, refs, newProxy, List.cons_append, List.count_cons, beq_iff_eq]
  by_cases hq : q = p
  · simp [hq]
  · simp [hq, Ne.symm hq]

omit [DecidableEq ι] in
theorem useCount_claimed :
    (o.claimed p).useCount q + (if q = p ∧ p ∈ o.unclaimed then 1 else 0) = o.useCount q := by
  have hcount : (o.unclaimed.erase p).count q + (if q = p ∧ p ∈ o.unclaimed then 1 else 0) =
      o.unclaimed.count q := by
    by_cases hq : q = p
    · subst hq
      by_cases hmem : q ∈ o.unclaimed
      · have hpos := List.count_pos_iff.2 hmem
        rw [List.count_erase_self, if_pos ⟨rfl, hmem⟩]
        omega
      · rw [List.erase_of_not_mem hmem, if_neg (fun h => hmem h.2), Nat.add_zero]
    · rw [List.count_erase_of_ne hq, if_neg (fun h => hq h.1), Nat.add_zero]
  simp only [useCount, refs, claimed, List.count_append]
  omega

omit [DecidableEq ι] in
theorem useCount_newTunnel : (o.newTunnel).useCount q = o.useCount q := by
  rw [useCount_eq, useCount_eq]
  simp [newTunnel, OwnerTunnel.useCount, ConnMap.conns]

/-! ### Two operations in a row -/

omit [DecidableEq ι] [DecidableEq κ] in
theorem getElem?_modify (f : OwnerTunnel ι κ → OwnerTunnel ι κ) :
    (o.modify t f).tunnels[t]? = (o.tunnels[t]?).map f := List.getElem?_modify_eq f t o.tunnels

/-- A connection that is bound comes into the map and leaves the one it waits in. -/
theorem useCount_addProxy_eraseWait :
    ((o.addProxy t i p).eraseWait t i).useCount q +
        (if o.waitConn t i = some q then 1 else 0) =
      o.useCount q + if o.proxyRoom t i = true ∧ q = p then 1 else 0 := by
  have hwait : (o.addProxy t i p).waitConn t i = o.waitConn t i := by
    rw [waitConn, addProxy, getElem?_modify, Option.bind_map]
    rfl
  have herase := useCount_eraseWait (o.addProxy t i p) t i q
  rw [hwait, useCount_addProxy] at herase
  exact herase

/-- A connection that is claimed comes into the map and leaves the unclaimed ones. -/
theorem useCount_addProxy_claimed :
    ((o.addProxy t i p).claimed p).useCount q + (if q = p ∧ p ∈ o.unclaimed then 1 else 0) =
      o.useCount q + if o.proxyRoom t i = true ∧ q = p then 1 else 0 := by
  have hclaim := useCount_claimed (o.addProxy t i p) p q
  rw [useCount_addProxy] at hclaim
  exact hclaim

/-- A connection that closes leaves the map and the vector. -/
theorem useCount_eraseProxy_removeFree :
    ((o.eraseProxy t i).removeFree t p).useCount q +
        ((if o.proxyConn t i = some q then 1 else 0) + if q = p then o.removed t p else 0) =
      o.useCount q := by
  have hrem : (o.eraseProxy t i).removed t p = o.removed t p := by
    rw [removed, eraseProxy, getElem?_modify, Option.elim_map]
    rfl
  have h₁ := useCount_removeFree (o.eraseProxy t i) t p q
  have h₂ := useCount_eraseProxy o t i q
  rw [hrem] at h₁
  omega

/-- A connection that is freed goes from the map to the vector. -/
theorem useCount_eraseProxy_pushFree (h : o.proxyConn t i = some p) :
    ((o.eraseProxy t i).pushFree t p).useCount q = o.useCount q := by
  obtain ⟨T, hT, -⟩ := Option.bind_eq_some_iff.1 h
  have hT' : (o.eraseProxy t i).tunnels[t]? =
      some { T with proxyConnectMap := T.proxyConnectMap.erase i } := by
    rw [eraseProxy, getElem?_modify, hT]
    rfl
  have h₁ := useCount_pushFree (o.eraseProxy t i) t p q hT'
  have h₂ := useCount_eraseProxy o t i q
  simp only [h, Option.some.injEq, eq_comm (a := p)] at h₂
  omega

/-- A connection that comes into the map of those that wait, when the last place of the vector is
given up. -/
theorem useCount_popFree_addWait :
    ((o.popFree t).addWait t i p).useCount q +
        (if o.lastFree t = some (some q) then 1 else 0) =
      o.useCount q + if o.waitRoom t i = true ∧ q = p then 1 else 0 := by
  have hroom : (o.popFree t).waitRoom t i = o.waitRoom t i := by
    rw [waitRoom, popFree, getElem?_modify, Option.any_map]
    rfl
  have h₁ := useCount_addWait (o.popFree t) t i p q
  have h₂ := useCount_popFree o t q
  rw [hroom] at h₁
  omega

end Owners

end ProxySocket
