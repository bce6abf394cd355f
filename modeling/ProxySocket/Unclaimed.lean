/-
**Proxy connections before they are claimed.**

`newProxyConnHandler` puts each proxy connection into one of the four `unclaimed_proxy_map_`s, which its
descriptor selects, with the descriptor as the key.  `claimProxyConn` gives a connection to its tunnel and
then erases the descriptor from the map.  In between, and in other threads, connections are accepted,
claimed and destroyed, and the kernel gives a descriptor that was closed to the next one.

Main definitions:

* `getUnclaimedProxyMapByFd` — the map of a descriptor;
* `Unclaimed`, `unclaimedLts` — the maps, with the threads that claim connections.

Main results:

* `UnclaimedInv.accept`, `UnclaimedInv.erase` — a new connection always gets into its map, and a claim
  takes out no other one;
* `unclaimed_exact` — **the maps hold the connections that nobody has claimed**, which keep their
  descriptors, and the list of the containers stands for the four maps.
-/

import Mathlib.Algebra.BigOperators.Fin
import ProxySocket.Lts
import ProxySocket.UseCount

set_option relaxedAutoImplicit false
set_option autoImplicit false

namespace ProxySocket

open Function (update)

/-! ### The maps -/

/-- `UnclaimedProxyMapLen`. -/
def unclaimedProxyMapLen : ℕ := 4

/-- `getUnclaimedProxyMapByFd`. -/
def getUnclaimedProxyMapByFd (fd : ℕ) : Fin unclaimedProxyMapLen :=
  ⟨fd % unclaimedProxyMapLen, Nat.mod_lt fd (by decide)⟩

/-- The proxy connections of the server.  The connection `c` is the one that was accepted after `c`
others. -/
structure Unclaimed where
  /-- `unclaimed_proxy_map_` -/
  maps : Fin unclaimedProxyMapLen → ConnMap ℕ ℕ := fun _ => ∅
  /-- the descriptors of the connections -/
  fds : List ℕ := []
  /-- the connection that has this descriptor now -/
  opened : ℕ → Option ℕ := fun _ => none
  /-- a tunnel refers to the connection -/
  held : ℕ → Bool := fun _ => false
  /-- `claimProxyConn` has found the tunnel, and has not erased the connection from its map -/
  claiming : ℕ → Bool := fun _ => false
  /-- history: the connections that were erased from their map -/
  claimed : ℕ → Bool := fun _ => false
  /-- history: the containers, with a list in place of the maps -/
  owners : Owners ℕ ℕ := {}

/-- What happens to the connections. -/
inductive UnclaimedAct
  /-- `newProxyConnHandler` gets a descriptor that is not in use -/
  | accept (fd : ℕ)
  /-- `claimProxyConn`, which returns if the control or the tunnel is not there, up to the claim -/
  | claim (c : ℕ) (found : Bool)
  /-- the rest of `claimProxyConn` -/
  | eraseUnclaimed (c : ℕ)
  /-- the tunnel lets go of a connection -/
  | drop (c : ℕ)
  /-- a connection to which nothing refers is destroyed -/
  | destroy (c : ℕ)
deriving DecidableEq, Repr

namespace Unclaimed

/-- `newProxyConnHandler`. -/
def accept (s : Unclaimed) (fd : ℕ) : Unclaimed :=
  { s with
    maps := update s.maps (getUnclaimedProxyMapByFd fd)
      ((s.maps (getUnclaimedProxyMapByFd fd)).add fd s.fds.length)
    fds := s.fds ++ [fd]
    opened := update s.opened fd (some s.fds.length)
    owners := s.owners.newProxy s.fds.length }

/-- The end of `claimProxyConn`, for a connection with the descriptor `fd`. -/
def eraseUnclaimed (s : Unclaimed) (c fd : ℕ) : Unclaimed :=
  { s with
    maps := update s.maps (getUnclaimedProxyMapByFd fd)
      ((s.maps (getUnclaimedProxyMapByFd fd)).erase fd)
    claiming := update s.claiming c false
    claimed := update s.claimed c true
    owners := s.owners.claimed c }

/-- One step. -/
def step (s : Unclaimed) : UnclaimedAct → Option Unclaimed
  | .accept fd => if 0 < fd ∧ s.opened fd = none then some (s.accept fd) else none
  | .claim c found =>
      match s.fds[c]? with
      | none => none
      | some fd =>
          if s.opened fd = some c ∧ s.claiming c = false then
            some (if found then
              { s with held := update s.held c true, claiming := update s.claiming c true }
            else s)
          else none
  | .eraseUnclaimed c =>
      match s.fds[c]? with
      | none => none
      | some fd => if s.claiming c = true then some (s.eraseUnclaimed c fd) else none
  | .drop c => some { s with held := update s.held c false }
  | .destroy c =>
      match s.fds[c]? with
      | none => none
      | some fd =>
          if s.opened fd = some c ∧ s.held c = false ∧ s.claiming c = false ∧
              ∀ i, c ∉ (s.maps i).conns then
            some { s with opened := update s.opened fd none }
          else none

end Unclaimed

/-- A server that has not accepted a proxy connection. -/
def unclaimedLts : Lts Unclaimed UnclaimedAct where
  init := {}
  step := Unclaimed.step

/-! ### The invariant -/

/-- **The invariant**: an entry of the maps is a connection that has not been claimed, and such a connection
keeps its descriptor. -/
structure UnclaimedInv (s : Unclaimed) : Prop where
  maps_iff : ∀ i fd c, AList.lookup fd (s.maps i) = some c ↔
    getUnclaimedProxyMapByFd fd = i ∧ s.fds[c]? = some fd ∧ s.claimed c = false
  kept : ∀ c fd, s.fds[c]? = some fd → s.claimed c = false ∨ s.claiming c = true →
    s.opened fd = some c
  old : ∀ fd c, s.opened fd = some c → s.fds[c]? = some fd
  fresh : ∀ c, s.fds.length ≤ c → s.claimed c = false ∧ s.claiming c = false
  tunnels : s.owners.tunnels = []
  count : ∀ c, ∑ i, (s.maps i).conns.count c = s.owners.unclaimed.count c

namespace UnclaimedInv

variable {s s' : Unclaimed} {c fd : ℕ}

theorem init : UnclaimedInv unclaimedLts.init where
  maps_iff i fd c := by simp [unclaimedLts]
  kept c fd h := by simp [unclaimedLts] at h
  old fd c h := by simp [unclaimedLts] at h
  fresh c _ := ⟨rfl, rfl⟩
  tunnels := rfl
  count c := by simp [unclaimedLts, ConnMap.conns]

/-- A change of one map changes the number of references by what that map gains and loses. -/
theorem sum_update (maps : Fin unclaimedProxyMapLen → ConnMap ℕ ℕ) (i : Fin unclaimedProxyMapLen)
    (m : ConnMap ℕ ℕ) (c : ℕ) :
    ∑ j, (update maps i m j).conns.count c + (maps i).conns.count c =
      ∑ j, (maps j).conns.count c + m.conns.count c := by
  rw [← Finset.add_sum_erase _ _ (Finset.mem_univ i),
    ← Finset.add_sum_erase Finset.univ (fun j => (maps j).conns.count c) (Finset.mem_univ i),
    Function.update_self]
  have hrest : ∑ j ∈ Finset.univ.erase i, (update maps i m j).conns.count c =
      ∑ j ∈ Finset.univ.erase i, (maps j).conns.count c := by
    refine Finset.sum_congr rfl fun j hj => ?_
    rw [Function.update_of_ne (Finset.ne_of_mem_erase hj)]
  omega

/-- The descriptor of a connection that is accepted is not a key. -/
theorem lookup_eq_none (h : UnclaimedInv s) (hfree : s.opened fd = none) (i) :
    AList.lookup fd (s.maps i) = none := by
  by_contra hne
  obtain ⟨c, hc⟩ := Option.ne_none_iff_exists'.1 hne
  obtain ⟨-, hfd, hclaimed⟩ := (h.maps_iff i fd c).1 hc
  rw [h.kept c fd hfd (.inl hclaimed)] at hfree
  cases hfree

/-- **A connection is accepted**, and gets into its map. -/
theorem accept (h : UnclaimedInv s) (hfree : s.opened fd = none) : UnclaimedInv (s.accept fd) where
  maps_iff i fd' c := by
    have hnone := h.lookup_eq_none hfree
    simp only [Unclaimed.accept, getElem?_concat_iff]
    rcases eq_or_ne i (getUnclaimedProxyMapByFd fd) with rfl | hi
    · rw [Function.update_self, ConnMap.lookup_add]
      rcases eq_or_ne fd' fd with rfl | hfd
      · rw [if_pos ⟨rfl, hnone _⟩, Option.some.injEq]
        constructor
        · rintro rfl
          exact ⟨rfl, .inr ⟨rfl, rfl⟩, (h.fresh _ le_rfl).1⟩
        · rintro ⟨-, hc | ⟨rfl, -⟩, hclaimed⟩
          · have hlook := (h.maps_iff _ fd' c).2 ⟨rfl, hc, hclaimed⟩
            rw [hnone] at hlook
            cases hlook
          · rfl
      · rw [if_neg fun hk => hfd hk.1, h.maps_iff, or_iff_left fun hk => hfd hk.2]
    · rw [Function.update_of_ne hi, h.maps_iff]
      constructor
      · rintro ⟨hidx, hc, hclaimed⟩
        exact ⟨hidx, .inl hc, hclaimed⟩
      · rintro ⟨hidx, hc | ⟨-, rfl⟩, hclaimed⟩
        · exact ⟨hidx, hc, hclaimed⟩
        · exact absurd hidx.symm hi
  kept c fd' hc hor := by
    simp only [Unclaimed.accept, getElem?_concat_iff] at hc ⊢
    rcases hc with hc | ⟨rfl, rfl⟩
    · have hopen := h.kept c fd' hc hor
      have hne : fd' ≠ fd := by
        rintro rfl
        rw [hopen] at hfree
        cases hfree
      rwa [Function.update_of_ne hne]
    · rw [Function.update_self]
  old fd' c hopen := by
    simp only [Unclaimed.accept, getElem?_concat_iff] at hopen ⊢
    rcases eq_or_ne fd' fd with rfl | hfd
    · rw [Function.update_self, Option.some.injEq] at hopen
      exact .inr ⟨hopen.symm, rfl⟩
    · rw [Function.update_of_ne hfd] at hopen
      exact .inl (h.old fd' c hopen)
  fresh c hc := by
    rw [Unclaimed.accept, List.length_append, List.length_singleton] at hc
    exact h.fresh c (Nat.le_of_succ_le hc)
  tunnels := h.tunnels
  count c := by
    have hsum := sum_update s.maps (getUnclaimedProxyMapByFd fd)
      ((s.maps (getUnclaimedProxyMapByFd fd)).add fd s.fds.length) c
    have hadd := ConnMap.count_add (s.maps (getUnclaimedProxyMapByFd fd)) fd s.fds.length c
    have hcount := h.count c
    simp only [h.lookup_eq_none hfree, true_and] at hadd
    simp only [Unclaimed.accept, Owners.newProxy, List.count_cons, beq_iff_eq]
    simp only [eq_comm (a := s.fds.length)]
    omega

/-- **A connection that is claimed leaves its map**, and no other one does. -/
theorem erase (h : UnclaimedInv s) (hc : s.fds[c]? = some fd) (hclaiming : s.claiming c = true) :
    UnclaimedInv (s.eraseUnclaimed c fd) where
  maps_iff i fd' c' := by
    simp only [Unclaimed.eraseUnclaimed]
    have hopen := h.kept c fd hc (.inr hclaiming)
    -- a connection that has the descriptor and is not claimed is this one
    have hsame : s.fds[c']? = some fd → s.claimed c' = false → c' = c := by
      intro hc' hclaimed
      have hopen' := h.kept c' fd hc' (.inl hclaimed)
      rw [hopen] at hopen'
      exact (Option.some.inj hopen').symm
    have hrest : fd' ≠ fd → (s.fds[c']? = some fd' ∧ update s.claimed c true c' = false ↔
        s.fds[c']? = some fd' ∧ s.claimed c' = false) := by
      intro hfd
      refine and_congr_right fun hc' => ?_
      have hne : c' ≠ c := by
        rintro rfl
        rw [hc] at hc'
        exact hfd (Option.some.inj hc').symm
      rw [Function.update_of_ne hne]
    have hnot : ¬ (s.fds[c']? = some fd ∧ update s.claimed c true c' = false) := by
      rintro ⟨hc', hclaimed⟩
      rcases eq_or_ne c' c with rfl | hne
      · rw [Function.update_self] at hclaimed
        cases hclaimed
      · rw [Function.update_of_ne hne] at hclaimed
        exact hne (hsame hc' hclaimed)
    rcases eq_or_ne fd' fd with rfl | hfd
    · refine iff_of_false ?_ fun hk => hnot hk.2
      rcases eq_or_ne i (getUnclaimedProxyMapByFd fd') with rfl | hi
      · rw [Function.update_self, AList.lookup_erase]
        exact (Option.some_ne_none c').symm
      · rw [Function.update_of_ne hi, h.maps_iff]
        exact fun hk => hi hk.1.symm
    · rw [hrest hfd, ← h.maps_iff]
      rcases eq_or_ne i (getUnclaimedProxyMapByFd fd) with rfl | hi
      · rw [Function.update_self, AList.lookup_erase_ne hfd]
      · rw [Function.update_of_ne hi]
  kept c' fd' hc' hor := by
    simp only [Unclaimed.eraseUnclaimed] at hc' hor ⊢
    rcases eq_or_ne c' c with rfl | hne
    · rw [Function.update_self, Function.update_self] at hor
      rcases hor with hor | hor <;> cases hor
    · rw [Function.update_of_ne hne, Function.update_of_ne hne] at hor
      exact h.kept c' fd' hc' hor
  old := h.old
  fresh c' hc' := by
    change s.fds.length ≤ c' at hc'
    have hne : c' ≠ c := by
      rintro rfl
      rw [List.getElem?_eq_none hc'] at hc
      cases hc
    simp only [Unclaimed.eraseUnclaimed, Function.update_of_ne hne]
    exact h.fresh c' hc'
  tunnels := h.tunnels
  count c' := by
    have hsum := sum_update s.maps (getUnclaimedProxyMapByFd fd)
      ((s.maps (getUnclaimedProxyMapByFd fd)).erase fd) c'
    have herase := ConnMap.count_erase (s.maps (getUnclaimedProxyMapByFd fd)) fd c'
    have hcount := h.count c'
    have hlook := h.maps_iff (getUnclaimedProxyMapByFd fd) fd c'
    simp only [Unclaimed.eraseUnclaimed, Owners.claimed, List.count_erase, beq_iff_eq]
    rcases eq_or_ne c c' with rfl | hne
    · rw [if_pos rfl]
      cases hclaimed : s.claimed c with
      | false =>
          rw [if_pos (hlook.2 ⟨rfl, hc, hclaimed⟩)] at herase
          omega
      | true =>
          -- it was claimed before
          have hzero : ∑ i, (s.maps i).conns.count c = 0 := by
            refine Finset.sum_eq_zero fun i _ => List.count_eq_zero.2 fun hmem => ?_
            obtain ⟨fd', hfd'⟩ := ConnMap.mem_conns_iff.1 hmem
            have hfalse := ((h.maps_iff i fd' c).1 hfd').2.2
            rw [hclaimed] at hfalse
            cases hfalse
          have hnot : ¬ AList.lookup fd (s.maps (getUnclaimedProxyMapByFd fd)) = some c := by
            rw [hlook, hclaimed]
            exact fun hk => Bool.false_ne_true hk.2.2.symm
          rw [if_neg hnot] at herase
          omega
    · have hnot : ¬ AList.lookup fd (s.maps (getUnclaimedProxyMapByFd fd)) = some c' := by
        rw [hlook]
        rintro ⟨-, hc', hclaimed⟩
        have hopen := h.kept c' fd hc' (.inl hclaimed)
        rw [h.kept c fd hc (.inr hclaiming)] at hopen
        exact hne (Option.some.inj hopen)
      rw [if_neg hnot] at herase
      rw [if_neg hne]
      omega

/-- **One step.** -/
theorem step (h : UnclaimedInv s) {a : UnclaimedAct} (hs : s.step a = some s') : UnclaimedInv s' := by
  cases a with
  | accept fd =>
      obtain ⟨⟨-, hfree⟩, hs⟩ := Option.ite_none_right_eq_some.1 hs
      obtain rfl := Option.some.inj hs
      exact h.accept hfree
  | claim c found =>
      simp only [Unclaimed.step] at hs
      split at hs
      · cases hs
      · next fd hfd =>
        obtain ⟨⟨hopen, -⟩, hs⟩ := Option.ite_none_right_eq_some.1 hs
        obtain rfl := Option.some.inj hs
        split
        · refine { h with kept := fun c' fd' hc' hor => ?_, fresh := fun c' hc' => ?_ }
          · rcases eq_or_ne c' c with rfl | hne
            · rw [hfd] at hc'
              rwa [← Option.some.inj hc']
            · simp only [Function.update_of_ne hne] at hor
              exact h.kept c' fd' hc' hor
          · have hne : c' ≠ c := by
              rintro rfl
              rw [List.getElem?_eq_none hc'] at hfd
              cases hfd
            simp only [Function.update_of_ne hne]
            exact h.fresh c' hc'
        · exact h
  | eraseUnclaimed c =>
      simp only [Unclaimed.step] at hs
      split at hs
      · cases hs
      · next fd hfd =>
        obtain ⟨hclaiming, hs⟩ := Option.ite_none_right_eq_some.1 hs
        obtain rfl := Option.some.inj hs
        exact h.erase hfd hclaiming
  | drop c =>
      obtain rfl := Option.some.inj hs
      exact { h with }
  | destroy c =>
      simp only [Unclaimed.step] at hs
      split at hs
      · cases hs
      · next fd hfd =>
        obtain ⟨⟨hopen, -, hclaiming, hnone⟩, hs⟩ := Option.ite_none_right_eq_some.1 hs
        obtain rfl := Option.some.inj hs
        refine { h with kept := fun c' fd' hc' hor => ?_, old := fun fd' c' hopen' => ?_ }
        · have hopen' := h.kept c' fd' hc' hor
          have hne : fd' ≠ fd := by
            rintro rfl
            rw [hopen] at hopen'
            obtain rfl := Option.some.inj hopen'
            rcases hor with hclaimed | hclaiming'
            · -- a map refers to a connection that was not claimed
              have hlook := (h.maps_iff (getUnclaimedProxyMapByFd fd') fd' c).2 ⟨rfl, hc', hclaimed⟩
              exact hnone _ (ConnMap.mem_conns_iff.2 ⟨fd', hlook⟩)
            · rw [hclaiming] at hclaiming'
              cases hclaiming'
          simpa only [Function.update_of_ne hne] using hopen'
        · rcases eq_or_ne fd' fd with rfl | hne
          · simp only [Function.update_self, reduceCtorEq] at hopen'
          · simp only [Function.update_of_ne hne] at hopen'
            exact h.old fd' c' hopen'

end UnclaimedInv

/-- **What the maps hold.**  In any order of accepting, claiming and destroying proxy connections, with
whatever descriptors the kernel gives: the entry of a descriptor in a map is the connection that was
accepted with it and has not been erased after a claim, in the map that belongs to the descriptor; such a
connection has its descriptor still; and the four maps hold together what the list of the containers
does. -/
theorem unclaimed_exact {s : Unclaimed} (hs : unclaimedLts.Reach (fun _ _ => True) s) :
    (∀ i fd c, AList.lookup fd (s.maps i) = some c ↔
      getUnclaimedProxyMapByFd fd = i ∧ s.fds[c]? = some fd ∧ s.claimed c = false) ∧
    (∀ i fd c, AList.lookup fd (s.maps i) = some c → s.opened fd = some c) ∧
    ∀ c, ∑ i, (s.maps i).conns.count c = s.owners.useCount c := by
  have h : UnclaimedInv s :=
    hs.invariant UnclaimedInv.init fun _ _ _ _ hi _ hst => hi.step hst
  refine ⟨h.maps_iff, fun i fd c hlook => ?_, fun c => ?_⟩
  · obtain ⟨-, hfd, hclaimed⟩ := (h.maps_iff i fd c).1 hlook
    exact h.kept c fd hfd (.inl hclaimed)
  · rw [Owners.useCount_eq, h.tunnels, List.map_nil, List.sum_nil, Nat.add_zero]
    exact h.count c

/-- Three connections: the first one is claimed and destroyed, and the third one gets its descriptor; the
second one names a tunnel that does not exist. -/
def threeProxies : List UnclaimedAct :=
  [.accept 7, .accept 11, .claim 1 false, .claim 0 true, .eraseUnclaimed 0, .drop 0, .destroy 0, .accept 7]

theorem unclaimed_exact_three :
    ∃ s, unclaimedLts.exec unclaimedLts.init threeProxies = some s ∧ s.opened 7 = some 2 ∧
      AList.lookup 7 (s.maps (getUnclaimedProxyMapByFd 7)) = some 2 ∧
      AList.lookup 11 (s.maps (getUnclaimedProxyMapByFd 11)) = some 1 := by
  have he := (Option.some_get (x := unclaimedLts.exec unclaimedLts.init threeProxies)
    (by decide +kernel)).symm
  have hs := Lts.Reach.of_allSteps (g := fun _ _ => True) .init he (Lts.allSteps_true _ threeProxies)
  refine ⟨_, he, by decide +kernel, ?_, ?_⟩
  · exact ((unclaimed_exact hs).1 _ 7 2).2 ⟨rfl, by decide +kernel, by decide +kernel⟩
  · exact ((unclaimed_exact hs).1 _ 11 1).2 ⟨rfl, by decide +kernel, by decide +kernel⟩

end ProxySocket
