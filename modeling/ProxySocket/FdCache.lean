/-
**The fd set that is kept from one round to the next.**

`ThreadServer::Run` builds the set of the descriptors of its clients, and the greatest of them, only
when `clientchange` is set; in the other rounds it copies the set it built last.  A client gets its
descriptor when it is taken from the pool, and its place in the map when the server merges it.

Main definitions:

* `fdSet`, `buildFds` — `FD_SET`, and the loop that builds the set;
* `RunServer`, `runServerLts` — the server between two statements of `Run`, with the thread that
  accepts connections;
* `RunServer.Coherent` — the copy is that of the clients now in the map.

Main results:

* `buildFds_spec` — the loop collects the descriptors and finds the greatest;
* `RunInv.step` — the copy is right whenever `clientchange` is not set;
* `fd_cache_coherent` — **`select` is called with the descriptors of the clients**.
-/

import Mathlib.Data.Finset.Lattice.Lemmas
import Mathlib.Data.Int.Order.Basic
import Mathlib.Order.Bounds.Defs
import ProxySocket.Lts
import ProxySocket.OrderedMap

set_option relaxedAutoImplicit false
set_option autoImplicit false

namespace ProxySocket

/-! ### The set -/

/-- The descriptors that have a bit in an `fd_set`. -/
def InFdSize (fd : ℤ) : Prop := 0 ≤ fd ∧ fd < 1024

instance instDecidableInFdSize (fd : ℤ) : Decidable (InFdSize fd) :=
  inferInstanceAs (Decidable (_ ∧ _))

/-- `FD_SET`, which writes outside of the set for any other descriptor. -/
def fdSet (fd : ℤ) (set : Finset ℤ) : Option (Finset ℤ) :=
  if InFdSize fd then some (insert fd set) else none

/-- The loop that builds the set, with `maxSock`.  The descriptors are those of the objects. -/
def buildFds (socket : ℕ → ℤ) : List (ℤ × ℕ) → Finset ℤ → ℤ → Option (Finset ℤ × ℤ)
  | [], set, maxSock => some (set, maxSock)
  | it :: rest, set, maxSock =>
      (fdSet (socket it.2) set).bind fun set =>
        buildFds socket rest set (if socket it.2 > maxSock then socket it.2 else maxSock)

/-- The descriptors of the clients in a list of entries. -/
def socketsOf (socket : ℕ → ℤ) (l : List (ℤ × ℕ)) : Finset ℤ :=
  (l.map fun it => socket it.2).toFinset

/-- **The loop** adds the descriptors to the set, and finds the greatest of them and of the number
it starts with. -/
theorem buildFds_spec {socket : ℕ → ℤ} {l : List (ℤ × ℕ)} (h : ∀ it ∈ l, InFdSize (socket it.2))
    (set : Finset ℤ) (maxSock : ℤ) :
    ∃ m, buildFds socket l set maxSock = some (set ∪ socketsOf socket l, m) ∧ maxSock ≤ m ∧
      (∀ fd ∈ socketsOf socket l, fd ≤ m) ∧ (m = maxSock ∨ m ∈ socketsOf socket l) := by
  induction l generalizing set maxSock with
  | nil =>
      refine ⟨maxSock, ?_, le_rfl, fun fd hfd => absurd hfd (by simp [socketsOf]), .inl rfl⟩
      simp [buildFds, socketsOf]
  | cons it rest ih =>
      obtain ⟨hit, hrest⟩ := List.forall_mem_cons.1 h
      have hcons : socketsOf socket (it :: rest) =
          insert (socket it.2) (socketsOf socket rest) := by
        simp only [socketsOf, List.map_cons, List.toFinset_cons]
      obtain ⟨m, hm, hle, hall, hmem⟩ := ih hrest (insert (socket it.2) set)
        (if socket it.2 > maxSock then socket it.2 else maxSock)
      have hmax : maxSock ≤ m ∧ socket it.2 ≤ m := by
        split at hle
        · exact ⟨by omega, hle⟩
        · exact ⟨hle, by omega⟩
      refine ⟨m, ?_, hmax.1, ?_, ?_⟩
      · rw [buildFds, fdSet, if_pos hit, Option.bind_some, hm, hcons, Finset.insert_union,
          Finset.union_insert]
      · rw [hcons]
        intro fd hfd
        rcases Finset.mem_insert.1 hfd with rfl | hfd
        · exact hmax.2
        · exact hall fd hfd
      · rw [hcons, Finset.mem_insert]
        rcases hmem with hmem | hmem
        · split at hmem
          · exact .inr (.inl hmem)
          · exact .inl hmem
        · exact .inr (.inr hmem)

/-! ### The server -/

/-- Where the thread is in the loop of `Run`. -/
inductive RunPhase
  /-- at the test of `ClientsBuf` -/
  | merge
  /-- at the test of `Clients` -/
  | check
  | select
  /-- at `ReadData` -/
  | read
  /-- at `WiriteData` -/
  | write
  /-- at `checkTime` -/
  | time
  /-- behind the loop, at `ClearAllCLient` -/
  | ended
  | cleared
deriving DecidableEq, Repr

/-- The function that erases clients in a phase, and the phase behind it. -/
def RunPhase.afterServe : RunPhase → Option RunPhase
  | .read => some .write
  | .write => some .time
  | .time => some .merge
  | _ => none

/-- A `ThreadServer`.  The clients are objects that are given by a number, and each has its
`socket`. -/
structure RunServer where
  clients : OrderedMap ℤ ℕ := .empty
  clientsBuf : List ℕ := []
  clientchange : Bool := true
  fdReadBack : Finset ℤ
  maxSock : ℤ
  /-- the local variable of `Run` -/
  fdRead : Finset ℤ
  socket : ℕ → ℤ
  phase : RunPhase := .merge

/-- The statements of `Run`, and what other threads do. -/
inductive RunStep
  /-- `SetSocket`, for an object from the pool -/
  | setSocket (o : ℕ) (fd : ℤ)
  /-- `addClient` -/
  | addClient (o : ℕ)
  /-- the clients of `ClientsBuf` get into `Clients` -/
  | merge
  /-- the round ends if there are no clients, and else the set is built or copied -/
  | prepare
  /-- `select`, and whether it succeeds -/
  | select (ok : Bool)
  /-- `ReadData`, `WiriteData` or `checkTime`, with the clients whose check fails -/
  | serve (fails : ℤ → Bool)
  /-- the loop ends because `IsRun` is false -/
  | leave
  /-- `ClearAllCLient` -/
  | clearAll
  /-- `Start` -/
  | restart

namespace RunServer

/-- The descriptors of the clients that are now in `Clients`. -/
def sockets (s : RunServer) : Finset ℤ := socketsOf s.socket s.clients.entries

/-- The object is a client of this server. -/
def HasClient (s : RunServer) (o : ℕ) : Prop :=
  o ∈ s.clients.entries.map Prod.snd ∨ o ∈ s.clientsBuf

instance instDecidableHasClient (s : RunServer) (o : ℕ) : Decidable (s.HasClient o) :=
  inferInstanceAs (Decidable (_ ∨ _))

/-- The two assignments to the set, and that to `maxSock`. -/
def prepareSelect (s : RunServer) : Option RunServer :=
  match s.clients.entries with
  | [] => some { s with phase := .merge }
  | it :: _ =>
      if s.clientchange then
        (buildFds s.socket s.clients.entries ∅ (s.socket it.2)).map fun r =>
          { s with
            clientchange := false, fdRead := r.1, fdReadBack := r.1, maxSock := r.2
            phase := .select }
      else some { s with fdRead := s.fdReadBack, phase := .select }

/-- The clients whose check fails are erased. -/
def eraseFailing (s : RunServer) (fails : ℤ → Bool) : RunServer :=
  { s with
    clients := s.clients.filterMap fun fd o => if fails fd then none else some o
    clientchange := s.clientchange || s.clients.keys.any fails }

/-- One step.  A client that the pool hands out belongs to no server, and its descriptor is one that
`accept` returned. -/
def step (s : RunServer) : RunStep → Option RunServer
  | .setSocket o fd =>
      if ¬s.HasClient o ∧ InFdSize fd then
        some { s with socket := Function.update s.socket o fd }
      else none
  | .addClient o =>
      if InFdSize (s.socket o) then some { s with clientsBuf := s.clientsBuf ++ [o] } else none
  | .merge =>
      if s.phase = .merge then
        if s.clientsBuf.isEmpty then some { s with phase := .check }
        else
          some { s with
            clients := s.clientsBuf.foldl (fun m o => m.insert (s.socket o) o) s.clients
            clientsBuf := []
            clientchange := true
            phase := .check }
      else none
  | .prepare => if s.phase = .check then s.prepareSelect else none
  | .select ok =>
      if s.phase = .select then some { s with phase := if ok then .read else .ended } else none
  | .serve fails => s.phase.afterServe.map fun phase => { s.eraseFailing fails with phase := phase }
  | .leave => if s.phase = .merge then some { s with phase := .ended } else none
  | .clearAll =>
      if s.phase = .ended then
        some { s with clients := .empty, clientsBuf := [], phase := .cleared }
      else none
  | .restart => if s.phase = .cleared then some { s with phase := .merge } else none

/-- **The set and the number are those of the clients.** -/
def Coherent (s : RunServer) (set : Finset ℤ) : Prop :=
  set = s.sockets ∧ IsGreatest (s.sockets : Set ℤ) s.maxSock

end RunServer

/-- The runs of a server, from what its memory held before. -/
def runServerLts (fdReadBack fdRead : Finset ℤ) (maxSock : ℤ) (socket : ℕ → ℤ) :
    Lts RunServer RunStep where
  init := { fdReadBack := fdReadBack, fdRead := fdRead, maxSock := maxSock, socket := socket }
  step := RunServer.step

/-! ### The invariant -/

/-- **The invariant.**  The descriptors have a bit in the set, the copy is right unless
`clientchange` is set or there are no clients, and so is the set that goes to `select`. -/
structure RunInv (s : RunServer) : Prop where
  inFdSize : ∀ o, s.HasClient o → InFdSize (s.socket o)
  cached : s.clientchange = false → s.clients.entries = [] ∨ s.Coherent s.fdReadBack
  selecting : s.phase = .select → s.Coherent s.fdRead

theorem socketsOf_congr {socket socket' : ℕ → ℤ} {l : List (ℤ × ℕ)}
    (h : ∀ it ∈ l, socket' it.2 = socket it.2) : socketsOf socket' l = socketsOf socket l := by
  unfold socketsOf
  rw [List.map_congr_left h]

namespace RunServer

variable {s : RunServer}

theorem mem_eraseFailing {fails : ℤ → Bool} {a : ℤ × ℕ}
    (h : a ∈ (s.eraseFailing fails).clients.entries) : a ∈ s.clients.entries := by
  obtain ⟨b, hb, hba⟩ := List.mem_filterMap.1 h
  obtain ⟨o, ho, rfl⟩ := Option.map_eq_some_iff.1 hba
  rw [Option.ite_none_left_eq_some, Option.some.injEq] at ho
  rw [← ho.2]
  exact hb

/-- A pass in which no check fails leaves the map as it is. -/
theorem eraseFailing_entries {fails : ℤ → Bool} (h : s.clients.keys.any fails = false) :
    (s.eraseFailing fails).clients.entries = s.clients.entries := by
  have hkeep : ∀ a ∈ s.clients.entries,
      ((if fails a.1 then none else some a.2).map (Prod.mk a.1)) = some a := by
    intro a ha
    have hnot : ¬fails a.1 = true := by
      intro hf
      have := List.any_eq_true.2 ⟨a.1, List.mem_map_of_mem ha, hf⟩
      rw [OrderedMap.keys, this] at h
      exact absurd h (by decide)
    rw [if_neg hnot]
    rfl
  show s.clients.entries.filterMap _ = _
  rw [List.filterMap_congr hkeep, List.filterMap_some]

end RunServer

namespace RunInv

variable {s s' : RunServer}

theorem init (fdReadBack fdRead : Finset ℤ) (maxSock : ℤ) (socket : ℕ → ℤ) :
    RunInv (runServerLts fdReadBack fdRead maxSock socket).init where
  inFdSize o h := absurd h (by simp [RunServer.HasClient, runServerLts, OrderedMap.empty])
  cached h := absurd h (by simp [runServerLts])
  selecting h := absurd h (by simp [runServerLts])

/-- The map, the copy and the flag are as before, and so are the descriptors of the clients. -/
theorem keep (h : RunInv s) (hc : s'.clients = s.clients) (hflag : s'.clientchange = s.clientchange)
    (hback : s'.fdReadBack = s.fdReadBack) (hmax : s'.maxSock = s.maxSock)
    (hsock : s'.sockets = s.sockets) (hin : ∀ o, s'.HasClient o → InFdSize (s'.socket o))
    (hsel : s'.phase = .select → s.phase = .select ∧ s'.fdRead = s.fdRead) : RunInv s' where
  inFdSize := hin
  cached hf := by
    rw [hc, hback, RunServer.Coherent, hsock, hmax]
    exact h.cached (hflag ▸ hf)
  selecting hp := by
    obtain ⟨hp, hread⟩ := hsel hp
    rw [hread, RunServer.Coherent, hsock, hmax]
    exact h.selecting hp

theorem setSocket (h : RunInv s) {o : ℕ} (fd : ℤ) (ho : ¬s.HasClient o) :
    RunInv { s with socket := Function.update s.socket o fd } := by
  -- no client of this server has another descriptor than before
  have hother : ∀ o', s.HasClient o' → Function.update s.socket o fd o' = s.socket o' := by
    intro o' ho'
    exact Function.update_of_ne (fun heq : o' = o => ho (heq ▸ ho')) _ _
  refine h.keep rfl rfl rfl rfl ?_ ?_ fun hp => ⟨hp, rfl⟩
  · refine socketsOf_congr fun it hit => ?_
    exact hother _ (.inl (List.mem_map_of_mem hit))
  · intro o' ho'
    show InFdSize (Function.update s.socket o fd o')
    rw [hother o' ho']
    exact h.inFdSize o' ho'

theorem addClient (h : RunInv s) {o : ℕ} (hfd : InFdSize (s.socket o)) :
    RunInv { s with clientsBuf := s.clientsBuf ++ [o] } := by
  refine h.keep rfl rfl rfl rfl rfl ?_ fun hp => ⟨hp, rfl⟩
  rintro o' (ho' | ho')
  · exact h.inFdSize o' (.inl ho')
  · rcases List.mem_append.1 ho' with ho' | ho'
    · exact h.inFdSize o' (.inr ho')
    · rw [List.mem_singleton.1 ho']
      exact hfd

theorem merge (h : RunInv s) (hs : s.step .merge = some s') : RunInv s' := by
  simp only [RunServer.step, Option.ite_none_right_eq_some] at hs
  obtain ⟨-, hs⟩ := hs
  split at hs
  · rw [← Option.some.inj hs]
    exact h.keep rfl rfl rfl rfl rfl h.inFdSize fun hp => absurd hp (by simp)
  · rw [← Option.some.inj hs]
    refine ⟨?_, fun hf => absurd hf (by simp), fun hp => absurd hp (by simp)⟩
    rintro o (ho | ho)
    · obtain ⟨a, ha, rfl⟩ := List.mem_map.1 ho
      rcases OrderedMap.mem_foldl_insert ha with ha | ha
      · exact h.inFdSize _ (.inl (List.mem_map_of_mem ha))
      · exact h.inFdSize _ (.inr ha)
    · exact absurd ho (by simp)

/-- **Before `select`** the set is built or copied, and either way it is that of the clients. -/
theorem prepareSelect (h : RunInv s) : ∃ s', s.prepareSelect = some s' ∧ RunInv s' := by
  unfold RunServer.prepareSelect
  cases hl : s.clients.entries with
  | nil => exact ⟨_, rfl, h.keep rfl rfl rfl rfl rfl h.inFdSize fun hp => absurd hp (by simp)⟩
  | cons it rest =>
      cases hflag : s.clientchange with
      | true =>
          have hin : ∀ a ∈ it :: rest, InFdSize (s.socket a.2) := by
            intro a ha
            exact h.inFdSize _ (.inl (List.mem_map_of_mem (hl ▸ ha)))
          obtain ⟨m, hm, -, hall, hmem⟩ := buildFds_spec hin ∅ (s.socket it.2)
          have hfirst : s.socket it.2 ∈ socketsOf s.socket (it :: rest) := by
            rw [socketsOf, List.mem_toFinset]
            exact List.mem_map_of_mem List.mem_cons_self
          have hcoherent : socketsOf s.socket (it :: rest) = s.sockets ∧
              IsGreatest (s.sockets : Set ℤ) m := by
            rw [RunServer.sockets, hl]
            refine ⟨rfl, ?_, fun fd hfd => hall fd hfd⟩
            rcases hmem with rfl | hmem
            · exact hfirst
            · exact hmem
          show ∃ s', (if true = true then _ else _) = some s' ∧ _
          rw [if_pos rfl, hm, Finset.empty_union]
          exact ⟨_, rfl, h.inFdSize, fun _ => .inr hcoherent, fun _ => hcoherent⟩
      | false =>
          have hcoherent : s.Coherent s.fdReadBack := by
            rcases h.cached hflag with hnil | hc
            · rw [hl] at hnil
              exact absurd hnil (by simp)
            · exact hc
          show ∃ s', (if false = true then _ else _) = some s' ∧ _
          rw [if_neg (by decide)]
          exact ⟨_, rfl, h.inFdSize, fun _ => .inr hcoherent, fun _ => hcoherent⟩

/-- Erasing clients sets the flag. -/
theorem serve (h : RunInv s) {fails : ℤ → Bool} {phase : RunPhase} (hp : phase ≠ .select) :
    RunInv { s.eraseFailing fails with phase := phase } := by
  have hin : ∀ o, (s.eraseFailing fails).HasClient o → InFdSize (s.socket o) := by
    rintro o (ho | ho)
    · obtain ⟨a, ha, rfl⟩ := List.mem_map.1 ho
      exact h.inFdSize _ (.inl (List.mem_map_of_mem (RunServer.mem_eraseFailing ha)))
    · exact h.inFdSize _ (.inr ho)
  refine ⟨hin, fun hf => ?_, fun hph => absurd hph hp⟩
  obtain ⟨hflag, hnone⟩ := Bool.or_eq_false_iff.1 hf
  have hentries := RunServer.eraseFailing_entries hnone
  rcases h.cached hflag with hnil | hc
  · exact .inl (hentries.trans hnil)
  · refine .inr ?_
    show s.fdReadBack = socketsOf s.socket (s.eraseFailing fails).clients.entries ∧
      IsGreatest (socketsOf s.socket (s.eraseFailing fails).clients.entries : Set ℤ) s.maxSock
    rw [hentries]
    exact hc

/-- **One step keeps the invariant.** -/
theorem step (h : RunInv s) {a : RunStep} (hs : s.step a = some s') : RunInv s' := by
  cases a with
  | setSocket o fd =>
      simp only [RunServer.step, Option.ite_none_right_eq_some, Option.some.injEq] at hs
      obtain ⟨⟨ho, -⟩, rfl⟩ := hs
      exact h.setSocket fd ho
  | addClient o =>
      simp only [RunServer.step, Option.ite_none_right_eq_some, Option.some.injEq] at hs
      obtain ⟨hfd, rfl⟩ := hs
      exact h.addClient hfd
  | merge => exact h.merge hs
  | prepare =>
      simp only [RunServer.step, Option.ite_none_right_eq_some] at hs
      obtain ⟨t, ht, hinv⟩ := h.prepareSelect
      obtain rfl := Option.some.inj (ht.symm.trans hs.2)
      exact hinv
  | select ok =>
      simp only [RunServer.step, Option.ite_none_right_eq_some, Option.some.injEq] at hs
      obtain ⟨-, rfl⟩ := hs
      refine h.keep rfl rfl rfl rfl rfl h.inFdSize fun hp => ?_
      cases ok with
      | true => exact absurd hp (by simp)
      | false => exact absurd hp (by simp)
  | serve fails =>
      obtain ⟨phase, hphase, rfl⟩ := Option.map_eq_some_iff.1 hs
      refine h.serve ?_
      rintro rfl
      cases hp : s.phase with
      | _ => rw [hp] at hphase; exact absurd hphase (by simp [RunPhase.afterServe])
  | leave =>
      simp only [RunServer.step, Option.ite_none_right_eq_some, Option.some.injEq] at hs
      obtain ⟨-, rfl⟩ := hs
      exact h.keep rfl rfl rfl rfl rfl h.inFdSize fun hp => absurd hp (by simp)
  | clearAll =>
      simp only [RunServer.step, Option.ite_none_right_eq_some, Option.some.injEq] at hs
      obtain ⟨-, rfl⟩ := hs
      refine ⟨?_, fun _ => .inl rfl, fun hp => absurd hp (by simp)⟩
      rintro o (ho | ho)
      · exact absurd ho (by simp [OrderedMap.empty])
      · exact absurd ho (by simp)
  | restart =>
      simp only [RunServer.step, Option.ite_none_right_eq_some, Option.some.injEq] at hs
      obtain ⟨-, rfl⟩ := hs
      exact h.keep rfl rfl rfl rfl rfl h.inFdSize fun hp => absurd hp (by simp)

end RunInv

/-- **`select` is called with the descriptors of the clients** that are now in the map, and with the
greatest of them; and the loop that builds the set never leaves it. -/
theorem fd_cache_coherent {fdReadBack fdRead : Finset ℤ} {maxSock : ℤ} {socket : ℕ → ℤ}
    {as : List RunStep} {s : RunServer}
    (he : (runServerLts fdReadBack fdRead maxSock socket).exec
      (runServerLts fdReadBack fdRead maxSock socket).init as = some s) :
    (s.phase = .select → s.Coherent s.fdRead) ∧
      (s.phase = .check → ∃ s', s.step .prepare = some s') := by
  have hr : (runServerLts fdReadBack fdRead maxSock socket).Reach (fun _ _ => True) s :=
    .of_allSteps .init he (Lts.allSteps_true _ _)
  have hinv : RunInv s := hr.invariant (.init fdReadBack fdRead maxSock socket)
    fun _ _ _ _ hi _ hstep => hi.step hstep
  refine ⟨hinv.selecting, fun hp => ?_⟩
  obtain ⟨s', hs, -⟩ := hinv.prepareSelect
  exact ⟨s', (if_pos hp).trans hs⟩

/-- Two clients are served, one of them is erased, and its object is used again. -/
def servedTwice : List RunStep :=
  [.setSocket 0 5, .addClient 0, .setSocket 1 6, .addClient 1, .merge, .prepare, .select true,
    .serve fun fd => decide (fd = 6), .serve fun _ => false, .setSocket 1 7, .addClient 1,
    .serve fun _ => false, .merge, .prepare]

theorem fd_cache_coherent_twice :
    ∃ s, (runServerLts ∅ ∅ 0 fun _ => -1).exec (runServerLts ∅ ∅ 0 fun _ => -1).init servedTwice =
        some s ∧ s.phase = .select ∧ s.fdRead = {5, 7} ∧ s.maxSock = 7 ∧ s.Coherent s.fdRead := by
  have he := (Option.some_get (x := (runServerLts ∅ ∅ 0 fun _ => -1).exec
    (runServerLts ∅ ∅ 0 fun _ => -1).init servedTwice) (by decide +kernel)).symm
  exact ⟨_, he, by decide +kernel, by decide +kernel, by decide +kernel,
    (fd_cache_coherent he).1 (by decide +kernel)⟩

end ProxySocket
