/-
**Which server a client is given to.**

`EasyServer` gives a new client to the `ThreadServer` with the fewest clients.  The loop that looks
for it keeps the least number so far in an `int`, which starts at 1025, and compares it with the
`size_t` that `getTotalClient` returns.

Main definitions:

* `ThreadServer.getTotalClient`, `EasyServer.scan` — the number of clients, and the loop;
* `EasyServer`, `easyServerLts` — the servers, with clients that join and leave;
* `SelectsLeast`, `HasRoom` — what a join should do, and the condition for it;
* `Balanced` — the numbers of clients differ by one at most.

Main results:

* `EasyServer.scan_spec` — the loop finds the first server with the least number below its start;
* `EasyServer.balanced_join` — a join keeps the balance;
* `least_clients_iff` — **the server with the fewest clients is found when one has fewer than 1025**.
-/

import ProxySocket.Buffer
import ProxySocket.Lts
import ProxySocket.ServerPass

set_option relaxedAutoImplicit false
set_option autoImplicit false

namespace ProxySocket

/-! ### The servers -/

/-- `getTotalClient`. -/
def ThreadServer.getTotalClient (s : ThreadServer) : ℕ :=
  sizeT (s.clients.entries.length + s.clientsBuf.length)

/-- The `ThreadServer`s of an `EasyServer`. -/
structure EasyServer where
  servers : List ThreadServer
  /-- `addClient` was called for the null pointer -/
  crashed : Bool := false

/-- Clients come and go. -/
inductive EasyAct
  /-- `addclient2pThreadServer` -/
  | join (client : ThreadClientPtr)
  /-- a server takes the clients of `ClientsBuf` into `Clients` -/
  | merge (i : ℕ)
  /-- a server erases a client -/
  | leave (i : ℕ) (fd : ℤ)

namespace EasyServer

/-- The initial value of `MaxClient`. -/
def maxClient : ℕ := 1025

/-- The loop of `addclient2pThreadServer`, from the `i`-th server on. -/
def scan : ℕ → Option ℕ → ℤ → List ThreadServer → Option ℕ
  | _, temp, _, [] => temp
  | i, temp, maxClient, it :: rest =>
      if it.getTotalClient < sizeT maxClient then
        scan (i + 1) (some i) (int32 it.getTotalClient) rest
      else scan (i + 1) temp maxClient rest

/-- The server that the loop selects. -/
def select (s : EasyServer) : Option ℕ := scan 0 none maxClient s.servers

/-- A change of one server. -/
def change (s : EasyServer) (i : ℕ) (f : ThreadServer → ThreadServer) : Option EasyServer :=
  s.servers[i]?.map fun it => { s with servers := s.servers.set i (f it) }

/-- One join, or what happens to a server between them. -/
def step (s : EasyServer) (a : EasyAct) : Option EasyServer :=
  if s.crashed then none
  else
    match a with
    | .join client =>
        match s.select with
        | none => some { s with crashed := true }
        | some i => s.change i fun it => it.addClient client
    | .merge i => s.change i ThreadServer.merge
    | .leave i fd => s.change i fun it => { it with clients := it.clients.erase fd }

end EasyServer

/-- The runs of an `EasyServer` with these servers. -/
def easyServerLts (servers : List ThreadServer) : Lts EasyServer EasyAct where
  init := { servers := servers }
  step := EasyServer.step

/-- A join selects a server, and none has fewer clients. -/
def SelectsLeast (s : EasyServer) : EasyAct → Prop
  | .join _ => ∃ i t, s.select = some i ∧ s.servers[i]? = some t ∧
      ∀ u ∈ s.servers, t.getTotalClient ≤ u.getTotalClient
  | _ => True

/-- At a join some server has fewer clients than `MaxClient` starts with. -/
def HasRoom (s : EasyServer) : EasyAct → Prop
  | .join _ => ∃ t ∈ s.servers, t.getTotalClient < 1025
  | _ => True

instance (s : EasyServer) : DecidablePred (HasRoom s)
  | .join _ => inferInstanceAs (Decidable (∃ t ∈ s.servers, t.getTotalClient < 1025))
  | .merge _ | .leave _ _ => .isTrue trivial

/-- **The numbers of clients differ by one at most.** -/
def Balanced (s : EasyServer) : Prop :=
  ∀ t ∈ s.servers, ∀ u ∈ s.servers, t.getTotalClient ≤ u.getTotalClient + 1

/-- A label of a join. -/
def EasyAct.IsJoin : EasyAct → Prop
  | .join _ => True
  | _ => False

/-! ### The loop -/

namespace EasyServer

/-- **The loop** finds the least number below its start, or leaves `temp` as it is. -/
theorem scan_spec (l : List ThreadServer) (i : ℕ) (temp : Option ℕ) {m : ℕ} (hm : m ≤ maxClient) :
    (∃ j t, l[j]? = some t ∧ scan i temp m l = some (i + j) ∧ t.getTotalClient < m ∧
        ∀ u ∈ l, t.getTotalClient ≤ u.getTotalClient) ∨
      scan i temp m l = temp ∧ ∀ u ∈ l, m ≤ u.getTotalClient := by
  have hsize : sizeT m = m := sizeT_natCast (by simp only [maxClient] at hm; omega)
  induction l generalizing i temp m with
  | nil => exact .inr ⟨rfl, fun u hu => absurd hu (by simp)⟩
  | cons it rest ih =>
      by_cases hlt : it.getTotalClient < m
      · have hint : int32 it.getTotalClient = it.getTotalClient := by
          simp only [maxClient] at hm
          exact int32_of_mem (by omega) (by omega)
        have hle : it.getTotalClient ≤ maxClient := hlt.le.trans hm
        rw [scan, hsize, if_pos hlt, hint]
        left
        rcases ih (i + 1) (some i) hle (sizeT_natCast (by simp only [maxClient] at hle; omega)) with
          ⟨j, t, hj, hscan, ht, hleast⟩ | ⟨hscan, hleast⟩
        · refine ⟨j + 1, t, hj, by rw [hscan, Nat.add_assoc, Nat.add_comm 1], ht.trans hlt, ?_⟩
          exact List.forall_mem_cons.2 ⟨ht.le, hleast⟩
        · exact ⟨0, it, rfl, hscan, hlt, List.forall_mem_cons.2 ⟨le_rfl, hleast⟩⟩
      · rw [scan, hsize, if_neg hlt]
        rcases ih (i + 1) temp hm hsize with ⟨j, t, hj, hscan, ht, hleast⟩ | ⟨hscan, hleast⟩
        · left
          refine ⟨j + 1, t, hj, by rw [hscan, Nat.add_assoc, Nat.add_comm 1], ht, ?_⟩
          exact List.forall_mem_cons.2 ⟨ht.le.trans (not_lt.1 hlt), hleast⟩
        · exact .inr ⟨hscan, List.forall_mem_cons.2 ⟨not_lt.1 hlt, hleast⟩⟩

/-- A join does what it should exactly when some server has room. -/
theorem selectsLeast_iff (s : EasyServer) (a : EasyAct) : SelectsLeast s a ↔ HasRoom s a := by
  cases a with
  | join client =>
      simp only [SelectsLeast, HasRoom]
      rcases scan_spec s.servers 0 none (m := maxClient) le_rfl with
        ⟨j, t, hj, hscan, hlt, hleast⟩ | ⟨hscan, hall⟩
      · rw [Nat.zero_add] at hscan
        exact iff_of_true ⟨j, t, hscan, hj, hleast⟩ ⟨t, List.mem_of_getElem? hj, hlt⟩
      · refine iff_of_false ?_ ?_
        · rintro ⟨i, t, hsel, -⟩
          exact absurd (hscan.symm.trans hsel) (by simp)
        · rintro ⟨t, ht, hlt⟩
          exact absurd hlt (not_lt.2 (hall t ht))
  | merge i => exact Iff.rfl
  | leave i fd => exact Iff.rfl

/-- **A join keeps the balance.** -/
theorem balanced_join {s s' : EasyServer} {client : ThreadClientPtr} (h : Balanced s)
    (hroom : HasRoom s (.join client)) (hs : s.step (.join client) = some s') : Balanced s' := by
  obtain ⟨t₀, ht₀, hlt₀⟩ := hroom
  obtain ⟨i, t, hsel, hi, hleast⟩ := (s.selectsLeast_iff (.join client)).2 ⟨t₀, ht₀, hlt₀⟩
  rw [step, Option.ite_none_left_eq_some] at hs
  obtain ⟨-, hs⟩ := hs
  simp only [hsel, change, hi, Option.map_some, Option.some.injEq] at hs
  subst hs
  have htmem : t ∈ s.servers := List.mem_of_getElem? hi
  have hnew : (t.addClient client).getTotalClient = t.getTotalClient + 1 := by
    have hlt : t.getTotalClient < 1025 := (hleast t₀ ht₀).trans_lt hlt₀
    simp only [ThreadServer.getTotalClient, ThreadServer.addClient, List.length_append,
      List.length_singleton] at hlt ⊢
    unfold sizeT at hlt ⊢
    omega
  intro u hu v hv
  rcases List.mem_or_eq_of_mem_set hu with hu | rfl
  · rcases List.mem_or_eq_of_mem_set hv with hv | rfl
    · exact h u hu v hv
    · have := h u hu t htmem
      omega
  · rcases List.mem_or_eq_of_mem_set hv with hv | rfl
    · have := hleast v hv
      omega
    · omega

end EasyServer

/-- **The server with the fewest clients is found**, at every join of a run, exactly when at every
join some server has fewer than 1025 clients; and then the clients are balanced if the run has nothing but
joins, and the servers had no clients before it. -/
theorem least_clients_iff {servers : List ThreadServer} {as : List EasyAct} {s : EasyServer}
    (he : (easyServerLts servers).exec (easyServerLts servers).init as = some s) :
    ((easyServerLts servers).AllSteps SelectsLeast (easyServerLts servers).init as ∧
        ((∀ t ∈ servers, t.getTotalClient = 0) → (∀ a ∈ as, a.IsJoin) → Balanced s)) ↔
      (easyServerLts servers).AllSteps HasRoom (easyServerLts servers).init as := by
  constructor
  · rintro ⟨hall, -⟩
    exact hall.mono fun s a => (s.selectsLeast_iff a).1
  intro hroom
  refine ⟨hroom.mono fun s a => (s.selectsLeast_iff a).2, fun hzero hjoin => ?_⟩
  have hr : (easyServerLts servers).Reach (fun s a => HasRoom s a ∧ a.IsJoin) s :=
    .of_allSteps .init he (hroom.and ((Lts.allSteps_label_iff he).2 hjoin))
  refine hr.invariant ?_ ?_
  · intro t ht u hu
    rw [hzero t ht, hzero u hu]
    exact Nat.zero_le _
  · intro s a s' _ hb hg hstep
    cases a with
    | join client => exact EasyServer.balanced_join hb hg.1 hstep
    | merge i => exact absurd hg.2 id
    | leave i fd => exact absurd hg.2 id

/-- A client with a descriptor. -/
def someClient (fd : ℕ) : ThreadClientPtr where
  id := fd
  client := { socket := fd, recvBuf := ⟨16, fun _ => 0, 0, 0⟩, sendBuf := ⟨16, fun _ => 0, 0, 0⟩ }

/-- Three clients join two servers. -/
def joinThree : List EasyAct := [.join (someClient 5), .join (someClient 6), .join (someClient 7)]

theorem least_clients_three :
    ∃ s, (easyServerLts [{ lasttime := 0 }, { lasttime := 0 }]).exec
        (easyServerLts [{ lasttime := 0 }, { lasttime := 0 }]).init joinThree = some s ∧
      (easyServerLts [{ lasttime := 0 }, { lasttime := 0 }]).AllSteps SelectsLeast
        (easyServerLts [{ lasttime := 0 }, { lasttime := 0 }]).init joinThree ∧ Balanced s := by
  have hjoin : ∀ a ∈ joinThree, a.IsJoin := by
    simp only [joinThree, List.forall_mem_cons, EasyAct.IsJoin, List.not_mem_nil, false_imp_iff,
      implies_true, and_self]
  have he : (easyServerLts [{ lasttime := 0 }, { lasttime := 0 }]).exec
      (easyServerLts [{ lasttime := 0 }, { lasttime := 0 }]).init joinThree = some _ := rfl
  obtain ⟨hleast, hbalanced⟩ := (least_clients_iff he).2 (by decide)
  exact ⟨_, he, hleast, hbalanced (by decide) hjoin⟩

/-- A server whose thread is busy, with 1025 clients that have joined. -/
def fullServer : ThreadServer where
  clientsBuf := (List.range 1025).map someClient
  lasttime := 0

/-- **The null pointer.**  The only server is not found, because it has 1025 clients. -/
theorem least_clients_full :
    ¬SelectsLeast (easyServerLts [fullServer]).init (.join (someClient 1025)) := by
  intro h
  obtain ⟨t, ht, hlt⟩ := (EasyServer.selectsLeast_iff _ _).1 h
  have ht' : t = fullServer := List.mem_singleton.1 ht
  have htotal : fullServer.getTotalClient = 1025 := by
    simp only [ThreadServer.getTotalClient, fullServer, OrderedMap.empty, List.length_nil,
      List.length_map, List.length_range]
    decide
  rw [ht', htotal] at hlt
  exact Nat.lt_irrefl _ hlt

end ProxySocket
