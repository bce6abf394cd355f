/-
**The three loops over the clients.**

`ReadData`, `WiriteData` and `checkTime` go through the map `Clients`, test the clients and erase the
ones that fail.  Each of them sets its iterator to what `erase` returns and then takes a step back,
which there is none of from the first position.

Main definitions:

* `ThreadClientPtr`, `ThreadServer` — the server, with its clients by descriptor;
* `ThreadServer.pass` — the loop that the three functions share, with what is seen of it;
* `ThreadServer.readData`, `ThreadServer.wiriteData`, `ThreadServer.checkTime` — the functions;
* `PassMeets` — the loop ends, tests every client of the set once, in order, and erases those that fail;
* `ThreadServer.firstFails` — the first of several clients fails.

Main results:

* `pass_meets_iff` — what the loop does, for any test;
* `passes_meet_iff` — **the three loops do what they should exactly when it is not the first of several
  clients that fails**, as far as the calls of `RecvData` return.
-/

import ProxySocket.OrderedMap
import ProxySocket.ThreadClient
import Mathlib.Data.Int.Order.Basic

set_option relaxedAutoImplicit false
set_option autoImplicit false

namespace ProxySocket

/-! ### The server -/

/-- A pointer to a client.  The number tells the pointers that were handed to `addClient` apart. -/
structure ThreadClientPtr where
  id : ℕ
  client : ThreadClient

/-- A `ThreadServer`. -/
structure ThreadServer where
  clients : OrderedMap ℤ ThreadClientPtr := .empty
  clientsBuf : List ThreadClientPtr := []
  lasttime : ℤ
  clientchange : Bool := true

/-- What is seen of a loop over the clients. -/
inductive PassEvent
  /-- a call of `RecvData`, `SendDataReal` or `checkexpire` -/
  | tested (fd : ℤ)
  | onNetLeave (id : ℕ)
  | close (fd : ℤ)
  | erase (fd : ℤ)
deriving DecidableEq, Repr

/-- The descriptor of a client that was tested. -/
def PassEvent.testedFd? : PassEvent → Option ℤ
  | .tested fd => some fd
  | _ => none

/-- The client that `OnNetLeave` was called for. -/
def PassEvent.leftId? : PassEvent → Option ℕ
  | .onNetLeave id => some id
  | _ => none

/-- The descriptor of a client that was erased. -/
def PassEvent.erasedFd? : PassEvent → Option ℤ
  | .erase fd => some fd
  | _ => none

namespace ThreadServer

/-- The body of the loop, for the client `p` with the key `fd`.  The test says whether the client
fails. -/
def visitClient (isSet : ℤ → Bool) (closes : Bool)
    (test : ℤ → ThreadClient → Option (Bool × ThreadClient)) (fd : ℤ) (p : ThreadClientPtr) :
    Option (Visit ThreadClientPtr PassEvent) :=
  if isSet p.client.socket then
    (test fd p.client).map fun r =>
      { value := { p with client := r.2 }
        erased := r.1
        events := .tested fd ::
          if r.1 then .onNetLeave p.id :: ((if closes then [.close fd] else []) ++ [.erase fd])
          else [] }
  else some { value := p, erased := false, events := [] }

/-- The loop of the three functions, in at most `fuel` rounds. -/
def pass (s : ThreadServer) (isSet : ℤ → Bool) (closes : Bool)
    (test : ℤ → ThreadClient → Option (Bool × ThreadClient)) (fuel : ℕ) :
    Option (List PassEvent × LoopEnd ThreadServer) :=
  (s.clients.eraseWhile (visitClient isSet closes test) fuel).map fun r =>
    (r.1, r.2.map fun clients =>
      { s with
        clients := clients
        clientchange := s.clientchange || r.1.any fun ev => ev.erasedFd?.isSome })

/-- The test of `ReadData`: a call of `RecvData` returns `-1`. -/
def readTest (onNetMsg : MsgHandler) (e : Endian) (rounds : ℕ) (answer : ℤ → RecvAnswer) (fd : ℤ)
    (c : ThreadClient) : Option (Bool × ThreadClient) :=
  (recvData onNetMsg e rounds c (answer fd)).map fun r => (decide (-1 = r.ret), r.client)

/-- The test of `WiriteData`: a call of `SendDataReal` returns `-1`. -/
def writeTest (answer : ℤ → SendAnswer) (fd : ℤ) (c : ThreadClient) : Bool × ThreadClient :=
  let r := c.sendDataReal (answer fd)
  (decide (-1 = r.1), r.2.2)

/-- The test of `checkTime`. -/
def expireTest (passby : ℤ) (_ : ℤ) (c : ThreadClient) : Bool × ThreadClient := c.checkexpire passby

/-- `ReadData`, with the answers of `recv(2)` for the clients. -/
def readData (s : ThreadServer) (onNetMsg : MsgHandler) (e : Endian) (rounds : ℕ) (fdRead : ℤ → Bool)
    (answer : ℤ → RecvAnswer) (fuel : ℕ) : Option (List PassEvent × LoopEnd ThreadServer) :=
  s.pass fdRead true (readTest onNetMsg e rounds answer) fuel

/-- `WiriteData`, with the answers of `send(2)` for the clients. -/
def wiriteData (s : ThreadServer) (fdWrite : ℤ → Bool) (answer : ℤ → SendAnswer) (fuel : ℕ) :
    Option (List PassEvent × LoopEnd ThreadServer) :=
  s.pass fdWrite false (fun fd c => some (writeTest answer fd c)) fuel

/-- `checkTime`, with the reading of the clock. -/
def checkTime (s : ThreadServer) (curtime : ℤ) (fuel : ℕ) :
    Option (List PassEvent × LoopEnd ThreadServer) :=
  let passby := curtime - s.lasttime
  pass { s with lasttime := curtime } (fun _ => true) true
    (fun fd c => some (expireTest passby fd c)) fuel

/-- `addClient`. -/
def addClient (s : ThreadServer) (p : ThreadClientPtr) : ThreadServer :=
  { s with clientsBuf := s.clientsBuf ++ [p] }

/-- The beginning of a round of `Run`: the clients of `ClientsBuf` get into `Clients`. -/
def merge (s : ThreadServer) : ThreadServer :=
  if s.clientsBuf.isEmpty then s
  else
    { s with
      clients := s.clientsBuf.foldl (fun m p => m.insert p.client.socket p) s.clients
      clientsBuf := []
      clientchange := true }

theorem merge_clients (s : ThreadServer) : s.merge.clients =
    s.clientsBuf.foldl (fun m p => m.insert p.client.socket p) s.clients := by
  unfold merge
  split
  · rename_i h
    rw [List.isEmpty_iff.1 h, List.foldl_nil]
  · rfl

theorem merge_clientsBuf (s : ThreadServer) : s.merge.clientsBuf = [] := by
  unfold merge
  split
  · rename_i h
    exact List.isEmpty_iff.1 h
  · rfl

theorem merge_lasttime (s : ThreadServer) : s.merge.lasttime = s.lasttime := by
  unfold merge
  split <;> rfl

/-- The body of a loop alone, for the client with the key `fd`. -/
def roundAt (s : ThreadServer) (closes : Bool)
    (test : ℤ → ThreadClient → Option (Bool × ThreadClient)) (fd : ℤ) :
    Option (List PassEvent × ThreadServer) :=
  (s.clients.get? fd).bind fun p => (visitClient (fun _ => true) closes test fd p).map fun v =>
    (v.events,
      { s with
        clients := if v.erased then s.clients.erase fd else s.clients.modify fd fun _ => v.value
        clientchange := s.clientchange || v.erased })

/-- A round is possible for a client of the map whose test returns. -/
theorem roundAt_eq_some {s : ThreadServer} {closes : Bool}
    {test : ℤ → ThreadClient → Option (Bool × ThreadClient)} {fd : ℤ}
    {r : List PassEvent × ThreadServer} (h : s.roundAt closes test fd = some r) :
    ∃ p v, s.clients.get? fd = some p ∧ test fd p.client = some v ∧
      r = (.tested fd :: (if v.1 then
          .onNetLeave p.id :: ((if closes then [.close fd] else []) ++ [.erase fd]) else []),
        { s with
          clients := if v.1 then s.clients.erase fd
            else s.clients.modify fd fun _ => { p with client := v.2 }
          clientchange := s.clientchange || v.1 }) := by
  obtain ⟨p, hp, h⟩ := Option.bind_eq_some_iff.1 h
  obtain ⟨w, hw, rfl⟩ := Option.map_eq_some_iff.1 h
  rw [visitClient, if_pos rfl] at hw
  obtain ⟨v, hv, rfl⟩ := Option.map_eq_some_iff.1 hw
  exact ⟨p, v, hp, hv, rfl⟩

end ThreadServer

/-! ### What the loops should do -/

/-- The map `Clients`. -/
abbrev Clients := OrderedMap ℤ ThreadClientPtr

section Meets

variable (m : Clients) (isSet : ℤ → Bool) (fails : ℤ → ThreadClient → Bool)

/-- The client is in the set and fails. -/
def failsAt (a : ℤ × ThreadClientPtr) : Bool := isSet a.2.client.socket && fails a.1 a.2.client

/-- The first client, which is not the only one, is in the set and fails. -/
def firstFails : Bool :=
  match m.entries with
  | a :: _ :: _ => failsAt isSet fails a
  | _ => false

/-- Every client of the set was tested once, in the order of the keys; exactly the ones that fail were
erased, with one `OnNetLeave` each. -/
structure PassResult (es : List PassEvent) (m' : Clients) : Prop where
  tested : es.filterMap PassEvent.testedFd? =
    (m.entries.filter fun a => isSet a.2.client.socket).map Prod.fst
  left : es.filterMap PassEvent.leftId? =
    (m.entries.filter (failsAt isSet fails)).map fun a => a.2.id
  erased : es.filterMap PassEvent.erasedFd? =
    (m.entries.filter (failsAt isSet fails)).map Prod.fst
  rest : m'.entries.map (fun a => (a.1, a.2.id)) =
    (m.entries.filter fun a => !failsAt isSet fails a).map fun a => (a.1, a.2.id)

/-- The loop comes to an end, without a step back from the first position, and does what it should. -/
def PassMeets (loop : ℕ → Option (List PassEvent × LoopEnd ThreadServer)) : Prop :=
  ∃ fuel es s', loop fuel = some (es, .finished s') ∧ PassResult m isSet fails es s'.clients

end Meets

/-! ### One loop -/

/-- What is collected in the rounds for some entries is what each of these gives, in order. -/
theorem filterMap_flatMap_eq {α β ε : Type*} {l : List α} {events : α → List ε} {f : ε → Option β}
    {p : α → Bool} {g : α → β}
    (h : ∀ a ∈ l, (events a).filterMap f = if p a then [g a] else []) :
    (l.flatMap events).filterMap f = (l.filter p).map g := by
  induction l with
  | nil => rfl
  | cons a l ih =>
      have ha := h a List.mem_cons_self
      have hl := ih fun b hb => h b (List.mem_cons_of_mem _ hb)
      rw [List.flatMap_cons, List.filterMap_append, ha, hl, List.filter_cons]
      split <;> simp

/-- What is left of some entries is what is left of each, in order. -/
theorem map_filterMap_eq {α β γ : Type*} {l : List α} {kept : α → Option β} {g : β → γ} {g' : α → γ}
    {p : α → Bool} (h : ∀ a ∈ l, (kept a).map g = if p a then some (g' a) else none) :
    (l.filterMap kept).map g = (l.filter p).map g' := by
  rw [List.map_filterMap]
  induction l with
  | nil => rfl
  | cons a l ih =>
      have ha := h a List.mem_cons_self
      have hl := ih fun b hb => h b (List.mem_cons_of_mem _ hb)
      rw [List.filterMap_cons, ha, hl, List.filter_cons]
      cases p a <;> rfl

section Pass

variable {isSet : ℤ → Bool} {closes : Bool} {fails : ℤ → ThreadClient → Bool}
  {test : ℤ → ThreadClient → Option (Bool × ThreadClient)} {m : Clients} {a : ℤ × ThreadClientPtr}

open ThreadServer OrderedMap

variable (isSet closes fails test) in
/-- What the loop does for a client: nothing when it is not in the set. -/
theorem visitEntry_visitClient (hret : isSet a.2.client.socket = true → (test a.1 a.2.client).isSome)
    (hf : ∀ r, test a.1 a.2.client = some r → r.1 = fails a.1 a.2.client) :
    ∃ c, visitEntry (visitClient isSet closes test) a = some
      { value := (a.1, { a.2 with client := c })
        erased := failsAt isSet fails a
        events := if isSet a.2.client.socket then
            .tested a.1 :: if fails a.1 a.2.client then
              .onNetLeave a.2.id :: ((if closes then [.close a.1] else []) ++ [.erase a.1]) else []
          else [] } := by
  unfold visitEntry visitClient failsAt
  cases hset : isSet a.2.client.socket with
  | false => exact ⟨a.2.client, by simp⟩
  | true =>
      obtain ⟨r, hr⟩ := Option.isSome_iff_exists.1 (hret hset)
      exact ⟨r.2, by simp [hr, hf r hr]⟩

variable (isSet closes fails test) in
/-- The events of the loop for a client. -/
theorem eventsAt_visitClient
    (hret : isSet a.2.client.socket = true → (test a.1 a.2.client).isSome)
    (hf : ∀ r, test a.1 a.2.client = some r → r.1 = fails a.1 a.2.client) :
    eventsAt (visitEntry (visitClient isSet closes test)) a =
      if isSet a.2.client.socket then
        .tested a.1 :: if fails a.1 a.2.client then
          .onNetLeave a.2.id :: ((if closes then [.close a.1] else []) ++ [.erase a.1]) else []
      else [] := by
  obtain ⟨c, hc⟩ := visitEntry_visitClient isSet closes fails test hret hf
  exact eventsAt_eq hc

theorem isSome_visitClient : (visitClient isSet closes test a.1 a.2).isSome ↔
    (isSet a.2.client.socket = true → (test a.1 a.2.client).isSome) := by
  unfold visitClient
  split
  · rename_i hset
    simp [hset]
  · rename_i hset
    simp [hset]

variable (isSet closes fails test) in
/-- The loop erases the first of several clients when this one fails. -/
theorem firstErased_eq
    (hret : ∀ a ∈ m.entries, isSet a.2.client.socket = true → (test a.1 a.2.client).isSome)
    (hf : ∀ a ∈ m.entries, ∀ r, test a.1 a.2.client = some r → r.1 = fails a.1 a.2.client) :
    firstErased (visitEntry (visitClient isSet closes test)) m.entries =
      firstFails m isSet fails := by
  unfold firstFails
  match h : m.entries with
  | [] => rfl
  | [a] => rfl
  | a :: b :: l =>
      have ha : a ∈ m.entries := by
        rw [h]
        exact List.mem_cons_self
      obtain ⟨c, hc⟩ := visitEntry_visitClient isSet closes fails test (hret a ha) (hf a ha)
      rw [firstErased, hc, Option.any_some]

/-- The rounds for all clients do what they should. -/
theorem passResult_of_rounds
    (hret : ∀ a ∈ m.entries, isSet a.2.client.socket = true → (test a.1 a.2.client).isSome)
    (hf : ∀ a ∈ m.entries, ∀ r, test a.1 a.2.client = some r → r.1 = fails a.1 a.2.client) :
    PassResult m isSet fails
      (m.entries.flatMap (eventsAt (visitEntry (visitClient isSet closes test))))
      (m.filterMap (kept (visitClient isSet closes test))) := by
  have hevents := fun a ha => eventsAt_visitClient isSet closes fails test (hret a ha) (hf a ha)
  refine ⟨filterMap_flatMap_eq fun a ha => ?_, filterMap_flatMap_eq fun a ha => ?_,
    filterMap_flatMap_eq fun a ha => ?_, ?_⟩
  · rw [hevents a ha]
    cases isSet a.2.client.socket <;> cases fails a.1 a.2.client <;> cases closes <;> rfl
  · rw [hevents a ha, failsAt]
    cases isSet a.2.client.socket <;> cases fails a.1 a.2.client <;> cases closes <;> rfl
  · rw [hevents a ha, failsAt]
    cases isSet a.2.client.socket <;> cases fails a.1 a.2.client <;> cases closes <;> rfl
  · rw [entries_filterMap_kept]
    refine map_filterMap_eq fun a ha => ?_
    obtain ⟨c, hc⟩ := visitEntry_visitClient isSet closes fails test (hret a ha) (hf a ha)
    rw [keptAt_eq hc]
    cases failsAt isSet fails a <;> rfl

variable (isSet closes fails test) in
/-- **How the loop ends**, when all tests return. -/
theorem pass_eq {s : ThreadServer} {fuel : ℕ}
    (hret : ∀ a ∈ s.clients.entries, isSet a.2.client.socket = true → (test a.1 a.2.client).isSome)
    (hf : ∀ a ∈ s.clients.entries, ∀ r, test a.1 a.2.client = some r → r.1 = fails a.1 a.2.client)
    (hfuel : s.clients.entries.length < fuel) :
    s.pass isSet closes test fuel =
      let es := (reached (visitEntry (visitClient isSet closes test)) s.clients.entries).flatMap
        (eventsAt (visitEntry (visitClient isSet closes test)))
      some (es, if firstFails s.clients isSet fails then .beforeBegin else .finished
        { s with
          clients := s.clients.filterMap (kept (visitClient isSet closes test))
          clientchange := s.clientchange || es.any fun ev => ev.erasedFd?.isSome }) := by
  rw [ThreadServer.pass, eraseWhile_eq (fun a ha => isSome_visitClient.2 (hret a ha)) hfuel,
    firstErased_eq isSet closes fails test hret hf, Option.map_some]
  cases firstFails s.clients isSet fails <;> rfl

/-- The entries that the loop comes to. -/
theorem reached_eq {m : Clients}
    (hret : ∀ a ∈ m.entries, isSet a.2.client.socket = true → (test a.1 a.2.client).isSome)
    (hf : ∀ a ∈ m.entries, ∀ r, test a.1 a.2.client = some r → r.1 = fails a.1 a.2.client) :
    reached (visitEntry (visitClient isSet closes test)) m.entries =
      if firstFails m isSet fails then m.entries.take 1 else m.entries := by
  rw [reached, firstErased_eq isSet closes fails test hret hf]

variable (isSet closes fails test) in
/-- **What the loop does.**  It does what it should exactly when all tests return and it is not the
first of several clients that fails. -/
theorem pass_meets_iff {s : ThreadServer}
    (hf : ∀ a ∈ s.clients.entries, ∀ r, test a.1 a.2.client = some r → r.1 = fails a.1 a.2.client) :
    PassMeets s.clients isSet fails (s.pass isSet closes test) ↔
      (∀ a ∈ s.clients.entries, isSet a.2.client.socket = true → (test a.1 a.2.client).isSome) ∧
        firstFails s.clients isSet fails = false := by
  constructor
  · rintro ⟨fuel, es, s', hloop, -⟩
    obtain ⟨⟨es', r⟩, hr, heq⟩ := Option.map_eq_some_iff.1 hloop
    obtain ⟨rfl, hend⟩ := Prod.mk.inj heq
    cases r with
    | finished m' =>
        obtain ⟨hvisit, hfirst, -, -⟩ := eraseWhile_finished hr
        have hret := fun a ha => isSome_visitClient.1 (hvisit a ha)
        exact ⟨hret, by rw [← firstErased_eq isSet closes fails test hret hf, hfirst]⟩
    | _ => exact nomatch hend
  · rintro ⟨hret, hfirst⟩
    have hloop := pass_eq isSet closes fails test hret hf (Nat.lt_succ_self _)
    rw [hfirst, reached, firstErased_eq isSet closes fails test hret hf, hfirst] at hloop
    exact ⟨_, _, _, hloop, passResult_of_rounds hret hf⟩

/-- A test that always returns. -/
theorem pass_meets_iff_of_total {s : ThreadServer} (test : ℤ → ThreadClient → Bool × ThreadClient) :
    PassMeets s.clients isSet (fun fd c => (test fd c).1)
        (s.pass isSet closes fun fd c => some (test fd c)) ↔
      firstFails s.clients isSet (fun fd c => (test fd c).1) = false := by
  rw [pass_meets_iff isSet closes _ _ fun a _ r hr => by rw [← Option.some.inj hr]]
  exact and_iff_right fun _ _ _ => rfl

end Pass

/-! ### The calls of `RecvData` -/

section Rounds

variable {h : MsgHandler} {e : Endian} {c : ThreadClient}

/-- More rounds change nothing. -/
theorem drain_mono {n : ℕ} {d : List (List UInt8) × ThreadClient}
    (hd : ThreadClient.drain h e n c = some d) : ThreadClient.drain h e (n + 1) c = some d := by
  induction n generalizing c d with
  | zero => exact absurd hd (Option.some_ne_none d).symm
  | succ n ih =>
      cases hne : c.recvBuf.empty e with
      | true => rwa [ThreadClient.drain_of_empty h hne] at hd ⊢
      | false =>
          by_cases hlen : c.recvBuf.headerLen e < 0
          · rw [ThreadClient.drain, if_neg (by rw [hne]; decide), if_pos hlen] at hd
            exact absurd hd (Option.some_ne_none d).symm
          · rw [ThreadClient.drain_of_not_empty h hne (Int.not_lt.1 hlen)] at hd ⊢
            obtain ⟨d', hd', rfl⟩ := Option.map_eq_some_iff.1 hd
            rw [ih hd', Option.map_some]

theorem isSome_recvData_mono {n n' : ℕ} (hle : n ≤ n') {a : RecvAnswer}
    (hs : (ThreadServer.recvData h e n c a).isSome) :
    (ThreadServer.recvData h e n' c a).isSome := by
  induction hle with
  | refl => exact hs
  | @step m _ ih =>
      by_cases ha : (c.recvBuf.read4socket a).1 ≤ 0
      · rw [ThreadServer.recvData, ThreadClient.receive_of_nonpos ha, Option.isSome_some]
      · rw [ThreadServer.recvData, ThreadClient.receive_of_pos ha, Option.isSome_map] at ih ⊢
        obtain ⟨d, hd⟩ := Option.isSome_iff_exists.1 ih
        rw [drain_mono hd, Option.isSome_some]

/-- `RecvData` returns `-1` when nothing was received, and `0` otherwise. -/
theorem ret_recvData {n : ℕ} {a : RecvAnswer} {r : Received}
    (hr : ThreadServer.recvData h e n c a = some r) :
    decide (-1 = r.ret) = decide ((c.recvBuf.read4socket a).1 ≤ 0) := by
  by_cases ha : (c.recvBuf.read4socket a).1 ≤ 0
  · rw [ThreadServer.recvData, ThreadClient.receive_of_nonpos ha] at hr
    rw [← Option.some.inj hr, decide_eq_true ha]
    rfl
  · rw [ThreadServer.recvData, ThreadClient.receive_of_pos ha] at hr
    obtain ⟨d, -, rfl⟩ := Option.map_eq_some_iff.1 hr
    rw [decide_eq_false ha]
    rfl

/-- Calls that return one by one return within a common number of rounds. -/
theorem exists_common_rounds {α : Type*} {P : ℕ → α → Prop}
    (hmono : ∀ a n n', n ≤ n' → P n a → P n' a) {l : List α} (hl : ∀ a ∈ l, ∃ n, P n a) :
    ∃ n, ∀ a ∈ l, P n a := by
  induction l with
  | nil => exact ⟨0, fun a ha => absurd ha List.not_mem_nil⟩
  | cons b l ih =>
      obtain ⟨n₁, h₁⟩ := hl b List.mem_cons_self
      obtain ⟨n₂, h₂⟩ := ih fun a ha => hl a (List.mem_cons_of_mem _ ha)
      refine ⟨max n₁ n₂, fun a ha => ?_⟩
      rcases List.mem_cons.1 ha with rfl | ha
      · exact hmono _ _ _ (Nat.le_max_left _ _) h₁
      · exact hmono _ _ _ (Nat.le_max_right _ _) (h₂ a ha)

end Rounds

/-! ### The three loops -/

/-- `RecvData` returns `-1`: the stream has ended, there is an error, or no room in the buffer. -/
def readFails (answer : ℤ → RecvAnswer) (fd : ℤ) (c : ThreadClient) : Bool :=
  (c.recvBuf.read4socket (answer fd)).1 ≤ 0

/-- `SendDataReal` returns `-1`. -/
def writeFails (answer : ℤ → SendAnswer) (fd : ℤ) (c : ThreadClient) : Bool :=
  -1 = (c.sendDataReal (answer fd)).1

/-- `checkexpire` is true. -/
def checkFails (passby : ℤ) (_ : ℤ) (c : ThreadClient) : Bool := (c.checkexpire passby).1

/-- **What the three loops do.**  `WiriteData` and `checkTime` come to an end, test every client once and
erase the ones that fail exactly when it is not the first of several clients that fails; and so does
`ReadData`, if its calls of `RecvData` return. -/
theorem passes_meet_iff (s : ThreadServer) (onNetMsg : MsgHandler) (e : Endian)
    (fdRead fdWrite : ℤ → Bool) (received : ℤ → RecvAnswer) (accepted : ℤ → SendAnswer)
    (curtime : ℤ) :
    ((∃ rounds, PassMeets s.clients fdRead (readFails received)
        (s.readData onNetMsg e rounds fdRead received)) ↔
      (∀ a ∈ s.clients.entries, fdRead a.2.client.socket = true →
        ∃ rounds, (ThreadServer.recvData onNetMsg e rounds a.2.client (received a.1)).isSome) ∧
      firstFails s.clients fdRead (readFails received) = false) ∧
    (PassMeets s.clients fdWrite (writeFails accepted) (s.wiriteData fdWrite accepted) ↔
      firstFails s.clients fdWrite (writeFails accepted) = false) ∧
    (PassMeets s.clients (fun _ => true) (checkFails (curtime - s.lasttime)) (s.checkTime curtime) ↔
      firstFails s.clients (fun _ => true) (checkFails (curtime - s.lasttime)) = false) := by
  refine ⟨?_, ?_, ?_⟩
  · have hread := fun rounds => pass_meets_iff (s := s) fdRead true (readFails received)
      (ThreadServer.readTest onNetMsg e rounds received)
      (fun a _ r hr => by
        obtain ⟨r', hr', rfl⟩ := Option.map_eq_some_iff.1 hr
        exact ret_recvData hr')
    simp only [ThreadServer.readTest, Option.isSome_map] at hread
    constructor
    · rintro ⟨rounds, hmeets⟩
      obtain ⟨hret, hfirst⟩ := (hread rounds).1 hmeets
      exact ⟨fun a ha hset => ⟨rounds, hret a ha hset⟩, hfirst⟩
    · rintro ⟨hret, hfirst⟩
      -- the calls return one by one, and so in a common number of rounds
      have hmono : ∀ (a : ℤ × ThreadClientPtr) (n n' : ℕ), n ≤ n' →
          (fdRead a.2.client.socket = true →
            (ThreadServer.recvData onNetMsg e n a.2.client (received a.1)).isSome) →
          fdRead a.2.client.socket = true →
            (ThreadServer.recvData onNetMsg e n' a.2.client (received a.1)).isSome :=
        fun a n n' hle hn hset => isSome_recvData_mono hle (hn hset)
      obtain ⟨rounds, hrounds⟩ := exists_common_rounds hmono (l := s.clients.entries) fun a ha => by
        by_cases hset : fdRead a.2.client.socket = true
        · obtain ⟨n, hn⟩ := hret a ha hset
          exact ⟨n, fun _ => hn⟩
        · exact ⟨0, fun h => absurd h hset⟩
      exact ⟨rounds, (hread rounds).2 ⟨hrounds, hfirst⟩⟩
  · exact pass_meets_iff_of_total (ThreadServer.writeTest accepted)
  · exact pass_meets_iff_of_total (s := { s with lasttime := curtime })
      (ThreadServer.expireTest (curtime - s.lasttime))

/-- Two clients, and the first one has been idle for too long. -/
def firstIdle : ThreadServer where
  clients :=
    { entries := [(4, ⟨0, { ThreadClient.new (fun _ => 0) with socket := 4 }⟩),
        (5, ⟨1, { ThreadClient.new (fun _ => 0) with socket := 5 }⟩)]
      sorted := by simp }
  lasttime := 0

/-- The first of two clients expires: the loop steps back from the first position. -/
theorem passes_not_meet :
    ¬ ∀ (s : ThreadServer) (onNetMsg : MsgHandler) (e : Endian) (fdRead fdWrite : ℤ → Bool)
      (received : ℤ → RecvAnswer) (accepted : ℤ → SendAnswer) (curtime : ℤ),
      (∃ rounds, PassMeets s.clients fdRead (readFails received)
        (s.readData onNetMsg e rounds fdRead received)) ∧
      PassMeets s.clients fdWrite (writeFails accepted) (s.wiriteData fdWrite accepted) ∧
      PassMeets s.clients (fun _ => true) (checkFails (curtime - s.lasttime))
        (s.checkTime curtime) := by
  intro h
  obtain ⟨-, -, hcheck⟩ := h firstIdle (fun _ => []) .little (fun _ => false) (fun _ => false)
    (fun _ => .failed) (fun _ => .failed) 50000
  have hfirst := (pass_meets_iff_of_total (s := { firstIdle with lasttime := 50000 })
    (ThreadServer.expireTest 50000)).1 hcheck
  exact absurd hfirst (by decide +kernel)

end ProxySocket
