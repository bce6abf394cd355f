/-
**Clients that are used again.**

The server takes its client objects from a pool.  When the last pointer to one is dropped, the
deleter puts the object back as it is, and `SetSocket` is all that happens to it before it serves the
next connection.  What the two buffers and the expiry time hold then is what the removal of the last
connection left there.

Main definitions:

* `ThreadServer.serve`, `ThreadServer.serveAll` — what the server does with one client, and all that
  is seen of it until it is removed;
* `ThreadClient.Same` — clients that differ in nothing the server looks at;
* `PoolRun`, `poolLts` — the pool and the connections that are served;
* `CleanRemoval` — the condition on the state a client is removed in.

Main results:

* `serveAll_congr` — **the same clients are seen to do the same**;
* `cleanRemoval_iff` — what a removal leaves in the object;
* `recycled_client_fresh_iff` — **when recycled clients are like new ones**.
-/

import ProxySocket.Lts
import ProxySocket.ThreadClient
import Mathlib.Logic.Function.Basic

set_option relaxedAutoImplicit false
set_option autoImplicit false

namespace ProxySocket

open Function (update)

/-! ### Serving one client -/

/-- What happens to a client in a round of `ThreadServer::Run`. -/
inductive ServeEvent
  /-- `ReadData`, with the answer of `recv(2)` -/
  | readable (a : RecvAnswer)
  /-- `WiriteData`, with the answer of `send(2)` -/
  | writable (a : SendAnswer)
  /-- `checkTime`, with the time since the last one -/
  | check (passby : ℤ)
deriving DecidableEq, Repr

/-- What the server does for an event. -/
structure Served where
  client : ThreadClient
  /-- the messages handed over -/
  msgs : List (List UInt8)
  /-- the bytes the kernel took -/
  sent : List UInt8
  /-- the client is erased from `Clients` -/
  removed : Bool

/-- The bodies of the loops of `ReadData`, `WiriteData` and `checkTime`, for one client. -/
def ThreadServer.serve (onNetMsg : MsgHandler) (e : Endian) (fuel : ℕ) (c : ThreadClient) :
    ServeEvent → Option Served
  | .readable a =>
      (ThreadServer.recvData onNetMsg e fuel c a).map fun r =>
        ⟨r.client, r.msgs, [], decide (r.ret = -1)⟩
  | .writable a =>
      let r := c.sendDataReal a
      some ⟨r.2.2, [], r.2.1, decide (r.1 = -1)⟩
  | .check passby =>
      let r := c.checkexpire passby
      some ⟨r.2, [], [], r.1⟩

/-- What is seen of a client: the messages, the bytes that are sent, and whether it is removed. -/
abbrev Seen := List (List UInt8) × List UInt8 × Bool

/-- All that is seen of a client while these events happen, until it is removed. -/
def ThreadServer.serveAll (onNetMsg : MsgHandler) (e : Endian) (fuel : ℕ) :
    ThreadClient → List ServeEvent → Option (List Seen)
  | _, [] => some []
  | c, ev :: evs =>
      (ThreadServer.serve onNetMsg e fuel c ev).bind fun r =>
        if r.removed then some [(r.msgs, r.sent, r.removed)]
        else (serveAll onNetMsg e fuel r.client evs).map fun l => (r.msgs, r.sent, r.removed) :: l

/-! ### Clients that are the same -/

/-- The buffers hold the same bytes and have the same size. -/
structure ThreadBuffer.Same (b b' : ThreadBuffer) : Prop where
  content : b.content = b'.content
  size : b.size = b'.size

/-- The clients differ in nothing that the server looks at: neither in what lies behind the bytes in
use, nor in `_full` and `_senddeadtime`. -/
structure ThreadClient.Same (c c' : ThreadClient) : Prop where
  socket : c.socket = c'.socket
  recvBuf : c.recvBuf.Same c'.recvBuf
  sendBuf : c.sendBuf.Same c'.sendBuf
  deadtime : c.deadtime = c'.deadtime

namespace ThreadBuffer.Same

variable {b b' : ThreadBuffer}

theorem symm (h : b.Same b') : b'.Same b := ⟨h.content.symm, h.size.symm⟩

theorem last (h : b.Same b') : b.last = b'.last := by
  rw [← length_content, h.content, length_content]

theorem empty (h : b.Same b') (e : Endian) : b.empty e = b'.empty e := by
  rw [empty_eq, empty_eq, h.content]

theorem headerLen (h : b.Same b') {e : Endian} (hne : b.empty e = false) :
    b.headerLen e = b'.headerLen e := by
  have hle : dataHeaderSize ≤ b.last := by
    by_contra hlt
    rw [ThreadBuffer.empty, if_neg hlt] at hne
    exact absurd hne (by decide)
  rw [headerLen_eq e hle, headerLen_eq e (h.last ▸ hle), h.content]

theorem push (h : b.Same b') (data : List UInt8) : (b.push data).2.Same (b'.push data).2 := by
  obtain ⟨h₁, -, h₂⟩ := content_push (b := b) data
  obtain ⟨h₁', -, h₂'⟩ := content_push (b := b') data
  exact ⟨by rw [h₁, h₁', h.content, h.size], by rw [h₂, h₂', h.size]⟩

theorem pop (h : b.Same b') (len : ℕ) : (b.pop len).Same (b'.pop len) :=
  ⟨by rw [content_pop, content_pop, h.content], h.size⟩

theorem write2socket (h : b.Same b') (socket : ℤ) (a : SendAnswer) :
    (b.write2socket socket a).1 = (b'.write2socket socket a).1 ∧
      (b.write2socket socket a).2.1 = (b'.write2socket socket a).2.1 ∧
      (b.write2socket socket a).2.2.Same (b'.write2socket socket a).2.2 := by
  unfold ThreadBuffer.write2socket
  rw [h.last]
  split
  · cases a with
    | accepted n => exact ⟨rfl, by rw [h.content], rfl, h.size⟩
    | failed => exact ⟨rfl, rfl, rfl, h.size⟩
  · exact ⟨rfl, rfl, h⟩

theorem read4socket (h : b.Same b') (a : RecvAnswer) :
    (b.read4socket a).1 = (b'.read4socket a).1 ∧ (b.read4socket a).2.Same (b'.read4socket a).2 := by
  by_cases hroom : b.last < b.size
  · have hroom' : b'.last < b'.size := by rwa [← h.last, ← h.size]
    cases a with
    | failed =>
        rw [read4socket_failed hroom, read4socket_failed hroom']
        exact ⟨rfl, h⟩
    | bytes bs =>
        by_cases hbs : bs = []
        · rw [read4socket_nil _ fun _ => by rw [hbs], read4socket_nil _ fun _ => by rw [hbs]]
          exact ⟨rfl, h⟩
        · obtain ⟨h₁, h₂, h₃⟩ := content_read4socket hroom hbs
          obtain ⟨h₁', h₂', h₃'⟩ := content_read4socket hroom' hbs
          exact ⟨by rw [h₁, h₁'], by rw [h₂, h₂', h.content], by rw [h₃, h₃', h.size]⟩
  · have hroom' : ¬ b'.last < b'.size := by rwa [← h.last, ← h.size]
    rw [read4socket_nil _ fun hr => absurd hr hroom, read4socket_nil _ fun hr => absurd hr hroom']
    exact ⟨rfl, h⟩

end ThreadBuffer.Same

namespace ThreadClient.Same

variable {h : MsgHandler} {e : Endian} {fuel : ℕ} {c c' : ThreadClient}

theorem symm (hs : c.Same c') : c'.Same c :=
  ⟨hs.socket.symm, hs.recvBuf.symm, hs.sendBuf.symm, hs.deadtime.symm⟩

theorem calls (hs : c.Same c') (as : List ClientCall) :
    (as.foldl ThreadClient.call c).Same (as.foldl ThreadClient.call c') := by
  induction as generalizing c c' with
  | nil => exact hs
  | cons a as ih =>
      refine ih ?_
      cases a with
      | resettime => exact ⟨hs.socket, hs.recvBuf, hs.sendBuf, rfl⟩
      | sendData header => exact ⟨hs.socket, hs.recvBuf, hs.sendBuf.push header, hs.deadtime⟩

theorem front (hs : c.Same c') (hne : c.recvBuf.empty e = false) : c.front e = c'.front e := by
  rw [ThreadClient.front, ThreadClient.front, hs.recvBuf.content, hs.recvBuf.headerLen hne]

theorem popFront (hs : c.Same c') : (c.popFront e).Same (c'.popFront e) := by
  by_cases hne : c.recvBuf.empty e = false
  · have hne' : c'.recvBuf.empty e = false := by rwa [← hs.recvBuf.empty e]
    rw [ThreadClient.popFront, ThreadClient.popFront, if_pos hne, if_pos hne',
      hs.recvBuf.headerLen hne]
    exact ⟨hs.socket, hs.recvBuf.pop _, hs.sendBuf, hs.deadtime⟩
  · have hne' : ¬ c'.recvBuf.empty e = false := by rwa [← hs.recvBuf.empty e]
    rw [ThreadClient.popFront, ThreadClient.popFront, if_neg hne, if_neg hne']
    exact hs

theorem sendDataReal (hs : c.Same c') (a : SendAnswer) :
    (c.sendDataReal a).1 = (c'.sendDataReal a).1 ∧
      (c.sendDataReal a).2.1 = (c'.sendDataReal a).2.1 ∧
      (c.sendDataReal a).2.2.Same (c'.sendDataReal a).2.2 := by
  obtain ⟨h₁, h₂, h₃⟩ := hs.sendBuf.write2socket c.socket a
  have hsock := hs.socket
  -- the two calls name the same descriptor
  rw [show c'.sendDataReal a = ((c'.sendBuf.write2socket c.socket a).1,
    (c'.sendBuf.write2socket c.socket a).2.1,
    { c' with sendBuf := (c'.sendBuf.write2socket c.socket a).2.2, senddeadtime := 0 }) by
      rw [hsock]; rfl]
  exact ⟨h₁, h₂, hs.socket, hs.recvBuf, h₃, hs.deadtime⟩

/-- The loop hands over the same messages. -/
theorem drain (hs : c.Same c') {r : List (List UInt8) × ThreadClient}
    (hr : ThreadClient.drain h e fuel c = some r) :
    ∃ r', ThreadClient.drain h e fuel c' = some r' ∧ r.1 = r'.1 ∧ r.2.Same r'.2 := by
  induction fuel generalizing c c' r with
  | zero => exact absurd hr (by simp [ThreadClient.drain])
  | succ fuel ih =>
      cases hne : c.recvBuf.empty e with
      | true =>
          rw [ThreadClient.drain_of_empty h hne] at hr
          obtain rfl := Option.some.inj hr
          exact ⟨_, ThreadClient.drain_of_empty h (hs.recvBuf.empty e ▸ hne) fuel, rfl, hs⟩
      | false =>
          have hne' : c'.recvBuf.empty e = false := hs.recvBuf.empty e ▸ hne
          have hhead := hs.recvBuf.headerLen hne
          by_cases hlen : 0 ≤ c.recvBuf.headerLen e
          · rw [ThreadClient.drain_of_not_empty h hne hlen] at hr
            obtain ⟨d, hd, rfl⟩ := Option.map_eq_some_iff.1 hr
            rw [hs.front hne] at hd
            obtain ⟨d', hd', h₁, h₂⟩ := ih ((hs.calls (h (c'.front e))).popFront (e := e)) hd
            refine ⟨(c'.front e :: d'.1, d'.2), ?_, ?_, h₂⟩
            · rw [ThreadClient.drain_of_not_empty h hne' (hhead ▸ hlen), hd']
              rfl
            · simp only [hs.front hne, h₁]
          · rw [ThreadClient.drain, if_neg (by rw [hne]; decide), if_pos (by omega)] at hr
            exact absurd hr (by simp)

/-- **The same clients do the same for an event**, and stay the same. -/
theorem serve (hs : c.Same c') {ev : ServeEvent} {r : Served}
    (hr : ThreadServer.serve h e fuel c ev = some r) :
    ∃ r', ThreadServer.serve h e fuel c' ev = some r' ∧ r.msgs = r'.msgs ∧ r.sent = r'.sent ∧
      r.removed = r'.removed ∧ r.client.Same r'.client := by
  cases ev with
  | readable a =>
      obtain ⟨d, hd, rfl⟩ := Option.map_eq_some_iff.1 hr
      obtain ⟨hret, hbuf⟩ := hs.recvBuf.read4socket a
      have hs₁ : Same { c with recvBuf := (c.recvBuf.read4socket a).2 }
          { c' with recvBuf := (c'.recvBuf.read4socket a).2 } :=
        ⟨hs.socket, hbuf, hs.sendBuf, hs.deadtime⟩
      rw [ThreadServer.recvData] at hd
      by_cases hle : (c.recvBuf.read4socket a).1 ≤ 0
      · rw [ThreadClient.receive_of_nonpos hle] at hd
        obtain rfl := Option.some.inj hd
        refine ⟨⟨c', [], [], true⟩, ?_, rfl, rfl, rfl, hs⟩
        rw [ThreadServer.serve, ThreadServer.recvData,
          ThreadClient.receive_of_nonpos (hret ▸ hle)]
        rfl
      · rw [ThreadClient.receive_of_pos hle] at hd
        obtain ⟨q, hq, rfl⟩ := Option.map_eq_some_iff.1 hd
        obtain ⟨q', hq', h₁, h₂⟩ := hs₁.drain hq
        refine ⟨⟨q'.2, q'.1, [], false⟩, ?_, h₁, rfl, rfl, h₂⟩
        rw [ThreadServer.serve, ThreadServer.recvData, ThreadClient.receive_of_pos (hret ▸ hle),
          hq']
        rfl
  | writable a =>
      obtain rfl := Option.some.inj hr
      obtain ⟨h₁, h₂, h₃⟩ := hs.sendDataReal a
      exact ⟨_, rfl, rfl, h₂, decide_eq_decide.2 (by rw [h₁]), h₃⟩
  | check passby =>
      obtain rfl := Option.some.inj hr
      refine ⟨_, rfl, rfl, rfl, ?_, hs.socket, hs.recvBuf, hs.sendBuf, ?_⟩ <;>
        simp only [ThreadClient.checkexpire, hs.deadtime]

end ThreadClient.Same

/-- **The same clients are seen to do the same**, whatever happens to them. -/
theorem serveAll_congr (h : MsgHandler) (e : Endian) (fuel : ℕ) (evs : List ServeEvent) :
    ∀ {c c' : ThreadClient}, c.Same c' →
      ThreadServer.serveAll h e fuel c evs = ThreadServer.serveAll h e fuel c' evs := by
  induction evs with
  | nil => exact fun _ => rfl
  | cons ev evs ih =>
      intro c c' hs
      rw [ThreadServer.serveAll, ThreadServer.serveAll]
      cases hr : ThreadServer.serve h e fuel c ev with
      | none =>
          cases hr' : ThreadServer.serve h e fuel c' ev with
          | none => rfl
          | some r' =>
              obtain ⟨r, hr₁, -⟩ := hs.symm.serve hr'
              rw [hr] at hr₁
              exact absurd hr₁ (by simp)
      | some r =>
          obtain ⟨r', hr', h₁, h₂, h₃, h₄⟩ := hs.serve hr
          rw [hr', Option.bind_some, Option.bind_some, h₁, h₂, h₃, ih h₄]

/-! ### The sizes of the buffers -/

/-- Both buffers have the size the constructor gave them. -/
structure ThreadClient.Sized (c : ThreadClient) : Prop where
  recvBuf : c.recvBuf.size = maxBufSize
  sendBuf : c.sendBuf.size = maxBufSize

namespace ThreadClient.Sized

variable {h : MsgHandler} {e : Endian} {fuel : ℕ} {c : ThreadClient}

theorem new (heap : ℕ → UInt8) : (ThreadClient.new heap).Sized := ⟨rfl, rfl⟩

theorem setSocket (hc : c.Sized) (fd : ℤ) : (c.setSocket fd).Sized := ⟨hc.recvBuf, hc.sendBuf⟩

theorem calls (hc : c.Sized) (as : List ClientCall) :
    (as.foldl ThreadClient.call c).Sized := by
  induction as generalizing c with
  | nil => exact hc
  | cons a as ih =>
      refine ih ?_
      cases a with
      | resettime => exact ⟨hc.recvBuf, hc.sendBuf⟩
      | sendData header =>
          exact ⟨hc.recvBuf, (ThreadBuffer.content_push header).2.2.trans hc.sendBuf⟩

theorem popFront (hc : c.Sized) : (c.popFront e).Sized := by
  refine ⟨(size_popFront c e).trans hc.recvBuf, ?_⟩
  unfold ThreadClient.popFront
  split
  · exact hc.sendBuf
  · exact hc.sendBuf

theorem read4socket (hc : c.Sized) (a : RecvAnswer) :
    Sized { c with recvBuf := (c.recvBuf.read4socket a).2 } := by
  refine ⟨?_, hc.sendBuf⟩
  by_cases hle : (c.recvBuf.read4socket a).1 ≤ 0
  · exact (congrArg ThreadBuffer.size (ThreadBuffer.read4socket_of_nonpos hle)).trans hc.recvBuf
  · -- something was received, so there was room for it
    have hroom : c.recvBuf.last < c.recvBuf.size := by
      by_contra hn
      rw [ThreadBuffer.read4socket_nil a fun h => absurd h hn] at hle
      exact hle (Int.le_refl 0)
    cases a with
    | failed =>
        rw [ThreadBuffer.read4socket_failed hroom] at hle
        exact absurd (show (-1 : ℤ) ≤ 0 by decide) hle
    | bytes bs =>
        by_cases hbs : bs = []
        · rw [ThreadBuffer.read4socket_nil _ fun _ => by rw [hbs]] at hle
          exact hle.elim (Int.le_refl 0)
        · exact (ThreadBuffer.content_read4socket hroom hbs).2.2.trans hc.recvBuf

theorem drain (hc : c.Sized) {r : List (List UInt8) × ThreadClient}
    (hr : ThreadClient.drain h e fuel c = some r) : r.2.Sized := by
  induction fuel generalizing c r with
  | zero => exact absurd hr (by simp [ThreadClient.drain])
  | succ fuel ih =>
      rw [ThreadClient.drain] at hr
      split at hr
      · obtain rfl := Option.some.inj hr
        exact hc
      · split at hr
        · exact absurd hr (by simp)
        · obtain ⟨d, hd, rfl⟩ := Option.map_eq_some_iff.1 hr
          have hd' : d.2.Sized := ih (hc.calls _).popFront hd
          exact hd'

/-- Serving a client leaves its buffers their sizes. -/
theorem serve (hc : c.Sized) {ev : ServeEvent} {r : Served}
    (hr : ThreadServer.serve h e fuel c ev = some r) : r.client.Sized := by
  cases ev with
  | readable a =>
      obtain ⟨d, hd, rfl⟩ := Option.map_eq_some_iff.1 hr
      rw [ThreadServer.recvData] at hd
      by_cases hle : (c.recvBuf.read4socket a).1 ≤ 0
      · rw [ThreadClient.receive_of_nonpos hle] at hd
        obtain rfl := Option.some.inj hd
        exact hc
      · rw [ThreadClient.receive_of_pos hle] at hd
        obtain ⟨q, hq, rfl⟩ := Option.map_eq_some_iff.1 hd
        exact (hc.read4socket a).drain hq
  | writable a =>
      obtain rfl := Option.some.inj hr
      refine ⟨hc.recvBuf, ?_⟩
      have hsize : (c.sendBuf.write2socket c.socket a).2.2.size = c.sendBuf.size := by
        unfold ThreadBuffer.write2socket
        split
        · cases a <;> rfl
        · rfl
      exact hsize.trans hc.sendBuf
  | check passby =>
      obtain rfl := Option.some.inj hr
      exact ⟨hc.recvBuf, hc.sendBuf⟩

end ThreadClient.Sized

/-! ### What a removal leaves behind -/

/-- `RecvBuf` and `SendBuf` are empty and `_deadtime` is 0. -/
def ThreadClient.Empty (c : ThreadClient) : Prop :=
  c.recvBuf.last = 0 ∧ c.sendBuf.last = 0 ∧ c.deadtime = 0

instance (c : ThreadClient) : Decidable c.Empty := inferInstanceAs (Decidable (_ ∧ _ ∧ _))

/-- The client is in order when this event removes it.  A failed `recv(2)` leaves everything as it
is, a failed `send(2)` empties `SendBuf`, and an expired client has a `_deadtime` to expire. -/
def CleanRemoval (c : ThreadClient) : ServeEvent → Prop
  | .readable _ => c.recvBuf.last = 0 ∧ c.sendBuf.last = 0 ∧ c.deadtime = 0
  | .writable _ => c.recvBuf.last = 0 ∧ c.deadtime = 0
  | .check _ => False

instance (c : ThreadClient) : DecidablePred (CleanRemoval c)
  | .readable _ => inferInstanceAs (Decidable (_ ∧ _ ∧ _))
  | .writable _ => inferInstanceAs (Decidable (_ ∧ _))
  | .check _ => inferInstanceAs (Decidable False)

theorem ThreadClient.empty_new (heap : ℕ → UInt8) : (ThreadClient.new heap).Empty :=
  ⟨rfl, rfl, rfl⟩

/-- **What a removal leaves in the object.** -/
theorem cleanRemoval_iff {h : MsgHandler} {e : Endian} {fuel : ℕ} {c : ThreadClient}
    {ev : ServeEvent} {r : Served} (hr : ThreadServer.serve h e fuel c ev = some r)
    (hrem : r.removed = true) : r.client.Empty ↔ CleanRemoval c ev := by
  cases ev with
  | readable a =>
      obtain ⟨d, hd, rfl⟩ := Option.map_eq_some_iff.1 hr
      rw [ThreadServer.recvData] at hd
      by_cases hle : (c.recvBuf.read4socket a).1 ≤ 0
      · rw [ThreadClient.receive_of_nonpos hle] at hd
        obtain rfl := Option.some.inj hd
        exact Iff.rfl
      · -- the client stays when something was received
        rw [ThreadClient.receive_of_pos hle] at hd
        obtain ⟨q, -, rfl⟩ := Option.map_eq_some_iff.1 hd
        exact absurd (show decide ((0 : ℤ) = -1) = true from hrem) (by decide)
  | writable a =>
      obtain rfl := Option.some.inj hr
      have hret : (c.sendBuf.write2socket c.socket a).1 = -1 := of_decide_eq_true hrem
      have hlast : (c.sendBuf.write2socket c.socket a).2.2.last = 0 := by
        unfold ThreadBuffer.write2socket at hret ⊢
        split
        · cases a <;> rfl
        · rename_i hn
          rw [if_neg hn] at hret
          exact absurd (show (0 : ℤ) = -1 from hret) (by decide)
      constructor
      · rintro ⟨h₁, -, h₃⟩
        exact ⟨h₁, h₃⟩
      · rintro ⟨h₁, h₃⟩
        exact ⟨h₁, hlast, h₃⟩
  | check passby =>
      obtain rfl := Option.some.inj hr
      have hexp : c.deadtime + passby ≥ expireTime := of_decide_eq_true hrem
      constructor
      · rintro ⟨-, -, h₃⟩
        rw [show c.deadtime + passby = 0 from h₃] at hexp
        exact absurd hexp (by decide)
      · exact False.elim

/-- **An empty object with a new descriptor is the same as a new object with it.** -/
theorem ThreadClient.Empty.same {c : ThreadClient} (hc : c.Empty) (hs : c.Sized) (fd : ℤ)
    (heap : ℕ → UInt8) : (c.setSocket fd).Same ((ThreadClient.new heap).setSocket fd) := by
  obtain ⟨h₁, h₂, h₃⟩ := hc
  have hnil : ∀ {b : ThreadBuffer}, b.last = 0 → b.content = [] := fun h => by
    rw [ThreadBuffer.content, h, List.range_zero, List.map_nil]
  exact ⟨rfl, ⟨hnil h₁, hs.recvBuf⟩, ⟨hnil h₂, hs.sendBuf⟩, h₃⟩

/-! ### The pool -/

/-- A `ThreadClient` in the free list.  The flag is history: the object was never in use, or it was
in order when it was removed. -/
structure Pooled where
  client : ThreadClient
  clean : Bool

/-- `EasyServer::ClientPool` with the connections that are served. -/
structure PoolRun where
  /-- `_free_list` -/
  free : List Pooled
  /-- the entry of `ClientsBuf` or `Clients` for a descriptor -/
  live : ℤ → Option ThreadClient

/-- `max_obj_nmber`. -/
def maxObjNmber : ℕ := 10

/-- A move of the server. -/
inductive PoolAct
  /-- `Accept` got this descriptor; the bytes are what `new` finds when the free list is empty -/
  | accept (fd : ℤ) (heap : ℕ → UInt8)
  /-- something happens to a client -/
  | serve (fd : ℤ) (ev : ServeEvent)

namespace PoolRun

/-- `ObjectPool::addnewobj`, which makes `max_obj_nmber / 10` objects. -/
def addnewobj (s : PoolRun) (heap : ℕ → UInt8) : PoolRun :=
  { s with free := List.replicate (maxObjNmber / 10) ⟨.new heap, true⟩ ++ s.free }

/-- `ObjectPool::alloc`. -/
def alloc (s : PoolRun) (heap : ℕ → UInt8) : Option (Pooled × PoolRun) :=
  let s' := if s.free = [] then s.addnewobj heap else s
  match s'.free with
  | [] => none
  | p :: free => some (p, { s' with free := free })

/-- The pool's deleter: the object goes back into the list as it is. -/
def objDeleter (s : PoolRun) (p : Pooled) : PoolRun := { s with free := s.free ++ [p] }

instance (l : List Pooled) : Decidable (l = []) :=
  match l with
  | [] => .isTrue rfl
  | _ :: _ => .isFalse (List.cons_ne_nil _ _)

/-- A move.  The kernel hands out a descriptor that is not in use; a client that is erased has no
other owner, so its object is returned at once. -/
def step (h : MsgHandler) (e : Endian) (fuel : ℕ) (s : PoolRun) : PoolAct → Option PoolRun
  | .accept fd heap =>
      if s.live fd = none then
        (s.alloc heap).map fun r =>
          { r.2 with live := update r.2.live fd (some (r.1.client.setSocket fd)) }
      else none
  | .serve fd ev => do
      let c ← s.live fd
      let r ← ThreadServer.serve h e fuel c ev
      if r.removed then
        some (({ s with live := update s.live fd none } : PoolRun).objDeleter
          ⟨r.client, decide (CleanRemoval c ev)⟩)
      else some { s with live := update s.live fd (some r.client) }

end PoolRun

/-- The server from its start, when the pool holds `max_obj_nmber` new objects. -/
def poolLts (h : MsgHandler) (e : Endian) (fuel : ℕ) (heaps : Fin maxObjNmber → ℕ → UInt8) :
    Lts PoolRun PoolAct where
  init := ⟨List.ofFn fun i => ⟨.new (heaps i), true⟩, fun _ => none⟩
  step := PoolRun.step h e fuel

/-- What the pool keeps: the buffers have their sizes, and the history tells which objects of the
free list are in order. -/
structure PoolRun.Inv (s : PoolRun) : Prop where
  sized : ∀ p ∈ s.free, p.client.Sized
  clean : ∀ p ∈ s.free, (p.clean = true ↔ p.client.Empty)
  live : ∀ fd c, s.live fd = some c → c.Sized

namespace PoolRun

variable {h : MsgHandler} {e : Endian} {fuel : ℕ} {heaps : Fin maxObjNmber → ℕ → UInt8}
variable {s s' : PoolRun}

/-- **What `alloc` takes**: the front of the list, or a new object. -/
theorem alloc_cases {heap : ℕ → UInt8} {r : Pooled × PoolRun} (hr : s.alloc heap = some r) :
    (∃ free, s.free = r.1 :: free ∧ r.2 = { s with free := free }) ∨
      (s.free = [] ∧ r.1 = ⟨.new heap, true⟩ ∧ r.2 = s) := by
  obtain ⟨free, live⟩ := s
  cases free with
  | nil =>
      obtain rfl := Option.some.inj hr
      exact .inr ⟨rfl, rfl, rfl⟩
  | cons p free =>
      obtain rfl := Option.some.inj hr
      exact .inl ⟨free, rfl, rfl⟩

theorem Inv.live_update (hi : s.Inv) {c₀ : ThreadClient} (hc₀ : c₀.Sized) (fd fd' : ℤ)
    (c : ThreadClient) (hc : update s.live fd (some c₀) fd' = some c) : c.Sized := by
  by_cases hfd : fd' = fd
  · subst hfd
    rw [Function.update_self] at hc
    exact Option.some.inj hc ▸ hc₀
  · rw [Function.update_of_ne hfd] at hc
    exact hi.live fd' c hc

/-- **One move keeps the invariant.** -/
theorem Inv.step {a : PoolAct} (hi : s.Inv) (hst : PoolRun.step h e fuel s a = some s') :
    s'.Inv := by
  cases a with
  | accept fd heap =>
      rw [PoolRun.step] at hst
      split at hst
      · obtain ⟨r, hr, rfl⟩ := Option.map_eq_some_iff.1 hst
        rcases alloc_cases hr with ⟨free, hfree, hr₂⟩ | ⟨hfree, hr₁, hr₂⟩
        · have hmem : ∀ p ∈ free, p ∈ s.free := fun p hp => hfree ▸ List.mem_cons_of_mem _ hp
          have hfront : r.1 ∈ s.free := hfree ▸ List.mem_cons_self
          rw [hr₂]
          exact ⟨fun p hp => hi.sized p (hmem p hp), fun p hp => hi.clean p (hmem p hp),
            hi.live_update ((hi.sized _ hfront).setSocket fd) fd⟩
        · rw [hr₂, hr₁]
          exact ⟨hi.sized, hi.clean, hi.live_update ((ThreadClient.Sized.new heap).setSocket fd) fd⟩
      · exact absurd hst (by simp)
  | serve fd ev =>
      obtain ⟨c, hc, hst⟩ := Option.bind_eq_some_iff.1 hst
      obtain ⟨r, hr, hst⟩ := Option.bind_eq_some_iff.1 hst
      have hsz : r.client.Sized := (hi.live fd c hc).serve hr
      split at hst
      · -- the object goes to the end of the list
        rename_i hrem
        obtain rfl := Option.some.inj hst
        refine ⟨?_, ?_, ?_⟩
        · intro p hp
          rcases List.mem_append.1 hp with hp | hp
          · exact hi.sized p hp
          · obtain rfl := List.mem_singleton.1 hp
            exact hsz
        · intro p hp
          rcases List.mem_append.1 hp with hp | hp
          · exact hi.clean p hp
          · obtain rfl := List.mem_singleton.1 hp
            exact decide_eq_true_iff.trans (cleanRemoval_iff hr hrem).symm
        · intro fd' c' hc'
          by_cases hfd : fd' = fd
          · subst hfd
            exact absurd hc' (by simp [objDeleter])
          · exact hi.live fd' c' (by simpa [objDeleter, Function.update_of_ne hfd] using hc')
      · obtain rfl := Option.some.inj hst
        exact ⟨hi.sized, hi.clean, hi.live_update hsz fd⟩

/-- The invariant holds in every state of the server. -/
theorem Inv.reach {g : PoolRun → PoolAct → Prop} (hs : (poolLts h e fuel heaps).Reach g s) :
    s.Inv := by
  refine hs.invariant ?_ fun _ _ _ _ hi _ hst => hi.step hst
  refine ⟨?_, ?_, fun _ _ hc => absurd hc (by simp [poolLts])⟩
  · intro p hp
    obtain ⟨i, rfl⟩ := List.mem_ofFn.1 hp
    exact .new (heaps i)
  · intro p hp
    obtain ⟨i, rfl⟩ := List.mem_ofFn.1 hp
    exact iff_of_true rfl (ThreadClient.empty_new (heaps i))

end PoolRun

/-! ### Recycled clients -/

/-- The object that `Accept` takes has empty buffers and a `_deadtime` of 0. -/
def AcceptsEmpty (s : PoolRun) : PoolAct → Prop
  | .accept fd heap => ∀ r, s.alloc heap = some r → (r.1.client.setSocket fd).Empty
  | .serve _ _ => True

instance (s : PoolRun) : DecidablePred (AcceptsEmpty s)
  | .accept _ _ => Lts.decidableForallSome _ _
  | .serve _ _ => .isTrue trivial

/-- All that is seen of the object that `Accept` takes is what would be seen of a new one: the
messages, the bytes that are sent, and when it is removed. -/
def AcceptsLikeNew (h : MsgHandler) (e : Endian) (s : PoolRun) : PoolAct → Prop
  | .accept fd heap => ∀ r, s.alloc heap = some r → ∀ fuel evs heap',
      ThreadServer.serveAll h e fuel (r.1.client.setSocket fd) evs =
        ThreadServer.serveAll h e fuel ((ThreadClient.new heap').setSocket fd) evs
  | .serve _ _ => True

/-- The object that `Accept` finds in the free list was never in use, or was in order when it was
removed. -/
def TakesClean (s : PoolRun) : PoolAct → Prop
  | .accept _ _ => ∀ p, s.free.head? = some p → p.clean = true
  | .serve _ _ => True

instance (s : PoolRun) : DecidablePred (TakesClean s)
  | .accept _ _ => Lts.decidableForallSome _ _
  | .serve _ _ => .isTrue trivial

theorem PoolRun.Inv.acceptsFresh_iff {h : MsgHandler} {e : Endian} {s : PoolRun} (hi : s.Inv)
    (a : PoolAct) : AcceptsEmpty s a ∧ AcceptsLikeNew h e s a ↔ TakesClean s a := by
  cases a with
  | serve fd ev => exact iff_of_true ⟨trivial, trivial⟩ trivial
  | accept fd heap =>
      constructor
      · rintro ⟨hempty, -⟩ p hp
        obtain ⟨free, hfree⟩ : ∃ free, s.free = p :: free := List.head?_eq_some_iff.1 hp
        have hr : s.alloc heap = some (p, { s with free := free }) := by
          rw [PoolRun.alloc, if_neg (by rw [hfree]; exact List.cons_ne_nil _ _), hfree]
        exact (hi.clean p (hfree ▸ List.mem_cons_self)).2 (hempty _ hr)
      · intro hclean
        have hobj : ∀ r, s.alloc heap = some r → r.1.client.Empty ∧ r.1.client.Sized := by
          intro r hr
          rcases PoolRun.alloc_cases hr with ⟨free, hfree, -⟩ | ⟨-, hr₁, -⟩
          · have hmem : r.1 ∈ s.free := hfree ▸ List.mem_cons_self
            have hc : r.1.clean = true := hclean r.1 (by rw [hfree, List.head?_cons])
            exact ⟨(hi.clean _ hmem).1 hc, hi.sized _ hmem⟩
          · rw [hr₁]
            exact ⟨ThreadClient.empty_new heap, .new heap⟩
        refine ⟨fun r hr => (hobj r hr).1, fun r hr fuel evs heap' => ?_⟩
        obtain ⟨hempty, hsz⟩ := hobj r hr
        exact serveAll_congr h e fuel evs (hempty.same hsz fd heap')

/-- **When recycled clients are like new ones.**  In a run of the server every object that `Accept`
takes has empty buffers and a `_deadtime` of 0, and is seen to do what a new one would, exactly when
each of them was never in use or was in order when it was removed. -/
theorem recycled_client_fresh_iff (h : MsgHandler) (e : Endian) (fuel : ℕ)
    (heaps : Fin maxObjNmber → ℕ → UInt8) {as : List PoolAct} {s : PoolRun}
    (he : (poolLts h e fuel heaps).exec (poolLts h e fuel heaps).init as = some s) :
    (poolLts h e fuel heaps).AllSteps (fun s a => AcceptsEmpty s a ∧ AcceptsLikeNew h e s a)
        (poolLts h e fuel heaps).init as ↔
      (poolLts h e fuel heaps).AllSteps TakesClean (poolLts h e fuel heaps).init as :=
  Lts.allSteps_iff (fun _ a _ hs _ _ => (PoolRun.Inv.reach hs).acceptsFresh_iff a) he
    (Lts.allSteps_true _ _)

section Examples

/-- A server whose application does nothing. -/
abbrev quietPool : Lts PoolRun PoolAct := poolLts (fun _ => []) .little 9 fun _ _ => 0

/-- Connections for the objects of the pool that come before the one at its end. -/
def acceptNine : List PoolAct := (List.range 9).map fun i => .accept (i + 6) fun _ => 0

/-- The first client closes before it sends anything, and its object is the eleventh that is
taken. -/
def cleanCycle : List PoolAct :=
  .accept 5 (fun _ => 0) :: .serve 5 (.readable (.bytes [])) :: acceptNine ++
    [.accept 5 fun _ => 0]

/-- The first client closes when it has sent one byte of a header. -/
def dirtyCycle : List PoolAct :=
  .accept 5 (fun _ => 0) :: .serve 5 (.readable (.bytes [4])) ::
    .serve 5 (.readable (.bytes [])) :: acceptNine

theorem recycled_client_fresh_closed :
    quietPool.AllSteps (fun s a => AcceptsEmpty s a ∧ AcceptsLikeNew (fun _ => []) .little s a)
      quietPool.init cleanCycle := by
  obtain ⟨s, hs⟩ := Option.isSome_iff_exists.1
    (show (quietPool.exec quietPool.init cleanCycle).isSome = true by decide +kernel)
  exact (recycled_client_fresh_iff _ _ _ _ hs).2 (by decide +kernel)

/-- The eleventh client gets the byte of the first one in front of its own, and its message does not
arrive. -/
theorem recycled_client_dirty :
    (quietPool.exec quietPool.init (dirtyCycle ++ [.accept 5 fun _ => 0])).isSome = true ∧
      ¬ quietPool.AllSteps AcceptsEmpty quietPool.init (dirtyCycle ++ [.accept 5 fun _ => 0]) ∧
      ¬ quietPool.AllSteps (AcceptsLikeNew (fun _ => []) .little) quietPool.init
        (dirtyCycle ++ [.accept 5 fun _ => 0]) := by
  refine ⟨by decide +kernel, by decide +kernel, fun hall => ?_⟩
  obtain ⟨s, hs⟩ := Option.isSome_iff_exists.1
    (show (quietPool.exec quietPool.init dirtyCycle).isSome = true by decide +kernel)
  -- the message of four bytes: the object at the front of the list does not hand it over
  have hdiff : ∀ s, quietPool.exec quietPool.init dirtyCycle = some s →
      (s.alloc fun _ => 0).isSome = true ∧ ∀ r, s.alloc (fun _ => 0) = some r →
        ThreadServer.serveAll (fun _ => []) .little 9 (r.1.client.setSocket 5)
            [.readable (.bytes [4, 0, 1, 0])] ≠
          ThreadServer.serveAll (fun _ => []) .little 9
            ((ThreadClient.new fun _ => 0).setSocket 5) [.readable (.bytes [4, 0, 1, 0])] := by
    decide +kernel
  obtain ⟨hsome, hne⟩ := hdiff s hs
  obtain ⟨r, hr⟩ := Option.isSome_iff_exists.1 hsome
  exact hne r hr (hall.after hs r hr 9 _ _)

end Examples

end ProxySocket
