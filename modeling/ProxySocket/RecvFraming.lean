/-
**Cutting a stream into messages.**

The peer sends one message after the other, and `recv(2)` cuts what it sent in any way.  The receive
loop hands over a message as soon as all of it is there, so that what stays in the buffer is the
beginning of one message; it is shorter than the longest message, and there is always room for the
next `recv(2)`.

Main definitions:

* `IsMsg` — a message whose header tells its true length;
* `Receiver`, `recvLts` — the two receive functions, called over and over.

Main results:

* `exists_whole_prefix` — what has arrived is a number of whole messages and the beginning of one;
* `drain_msgs` — the loop hands over the whole messages and keeps the rest;
* `recv_framing` — **the messages are handed over once, in order and unchanged, as they arrive**.
-/

import ProxySocket.Lts
import ProxySocket.ThreadClient

set_option relaxedAutoImplicit false
set_option autoImplicit false

namespace ProxySocket

/-! ### Messages in a stream -/

/-- A message whose header tells its true length. -/
def IsMsg (e : Endian) (m : List UInt8) : Prop :=
  dataHeaderSize ≤ m.length ∧ m.length ≤ 32767 ∧ short e (m.take 2) = m.length

instance (e : Endian) (m : List UInt8) : Decidable (IsMsg e m) := inferInstanceAs (Decidable (_ ∧ _))

/-- **What has arrived** of a list of pieces: a number of whole ones, and the beginning of the next
one, of which something is missing. -/
theorem exists_whole_prefix {α : Type*} {ms : List (List α)} (hne : ∀ m ∈ ms, m ≠ [])
    {l : List α} (h : l <+: ms.flatten) :
    ∃ (j : ℕ) (rest : List α), l = (ms.take j).flatten ++ rest ∧ j ≤ ms.length ∧
      (∀ m, ms[j]? = some m → rest <+: m ∧ rest.length < m.length) ∧
      (ms[j]? = none → rest = []) := by
  induction ms generalizing l with
  | nil =>
      obtain rfl := List.prefix_nil.1 h
      exact ⟨0, [], rfl, le_rfl, fun m hm => absurd hm (by simp), fun _ => rfl⟩
  | cons m ms ih =>
      rw [List.flatten_cons] at h
      rcases Nat.lt_or_ge l.length m.length with hlt | hge
      · -- the first piece is not complete
        have hp : l <+: m := List.prefix_of_prefix_length_le h (List.prefix_append _ _) (Nat.le_of_lt hlt)
        refine ⟨0, l, rfl, Nat.zero_le _, fun m' hm' => ?_, fun hm' => absurd hm' (by simp)⟩
        obtain rfl : m = m' := by simpa using hm'
        exact ⟨hp, hlt⟩
      · have hp : m <+: l := List.prefix_of_prefix_length_le (List.prefix_append _ _) h hge
        obtain ⟨l', rfl⟩ := hp
        obtain ⟨j, rest, hl, hj, h₁, h₂⟩ :=
          ih (fun x hx => hne x (List.mem_cons_of_mem m hx)) ((List.prefix_append_right_inj m).1 h)
        refine ⟨j + 1, rest, ?_, Nat.succ_le_succ hj, fun x hx => h₁ x (by simpa using hx),
          fun hx => h₂ (by simpa using hx)⟩
        rw [List.take_succ_cons, List.flatten_cons, List.append_assoc, ← hl]

/-- Pieces of a minimal length take a minimal place. -/
theorem length_mul_le_flatten {α : Type*} {n : ℕ} {ms : List (List α)}
    (h : ∀ m ∈ ms, n ≤ m.length) : ms.length * n ≤ ms.flatten.length := by
  induction ms with
  | nil => simp
  | cons m ms ih =>
      have hm := h m List.mem_cons_self
      have hms := ih fun x hx => h x (List.mem_cons_of_mem m hx)
      rw [List.flatten_cons, List.length_append, List.length_cons, Nat.succ_mul]
      omega

namespace IsMsg

variable {e : Endian} {m : List UInt8} {b : ThreadBuffer}

/-- The beginning of a message is not taken for a whole one. -/
theorem empty_of_front (hm : IsMsg e m) (hp : b.content <+: m) (hlt : b.content.length < m.length) :
    b.empty e = true := by
  rw [ThreadBuffer.empty_eq]
  split
  · rename_i h4
    have hd : dataHeaderSize = 4 := rfl
    have htake : b.content.take 2 = m.take 2 := by
      obtain ⟨x, rfl⟩ := hp
      rw [List.take_append_of_le_length (by omega)]
    rw [htake, hm.2.2]
    exact decide_eq_true (by exact_mod_cast hlt)
  · rfl

/-- A whole message at the front is found, with its length. -/
theorem front_of_append (hm : IsMsg e m) {x : List UInt8} (hb : b.content = m ++ x) :
    b.empty e = false ∧ b.headerLen e = m.length := by
  have hd : dataHeaderSize = 4 := rfl
  have h4 := hm.1
  have hlen : b.content.length = m.length + x.length := by rw [hb, List.length_append]
  have htake : b.content.take 2 = m.take 2 := by
    rw [hb, List.take_append_of_le_length (by omega)]
  constructor
  · rw [ThreadBuffer.empty_eq, if_pos (by omega), htake, hm.2.2]
    exact decide_eq_false (by omega)
  · rw [ThreadBuffer.headerLen_eq e (by rw [← ThreadBuffer.length_content]; omega), htake, hm.2.2]

end IsMsg

/-! ### The loop -/

section Drain

variable {h : MsgHandler} {e : Endian} {c : ThreadClient}

/-- **The loop hands over the whole messages** at the front of the buffer and keeps the rest. -/
theorem drain_msgs {ms : List (List UInt8)} (hms : ∀ m ∈ ms, IsMsg e m) {rest : List UInt8}
    (hc : c.recvBuf.content = ms.flatten ++ rest)
    (hrest : ∀ b : ThreadBuffer, b.content = rest → b.empty e = true) {fuel : ℕ}
    (hfuel : ms.length < fuel) :
    ∃ c', ThreadClient.drain h e fuel c = some (ms, c') ∧ c'.recvBuf.content = rest ∧
      c'.recvBuf.size = c.recvBuf.size := by
  induction ms generalizing c fuel with
  | nil =>
      obtain ⟨fuel, rfl⟩ := Nat.exists_eq_succ_of_ne_zero (Nat.ne_of_gt hfuel)
      exact ⟨c, ThreadClient.drain_of_empty h (hrest _ hc) fuel, hc, rfl⟩
  | cons m ms ih =>
      obtain ⟨fuel, rfl⟩ := Nat.exists_eq_succ_of_ne_zero (Nat.ne_of_gt (Nat.zero_lt_of_lt hfuel))
      rw [List.flatten_cons, List.append_assoc] at hc
      obtain ⟨hne, hlen⟩ := (hms m List.mem_cons_self).front_of_append hc
      have hfront : c.front e = m := by
        rw [ThreadClient.front, hlen, Int.toNat_natCast, hc, List.take_left]
      -- the application does not touch the buffer, so the message is still at its front
      have hbuf := ThreadClient.foldl_call_recvBuf (h m) c
      have hpop : (((h m).foldl ThreadClient.call c).popFront e).recvBuf.content =
          ms.flatten ++ rest := by
        rw [ThreadClient.content_popFront (by rw [hbuf]; exact hne), hbuf, hlen,
          Int.toNat_natCast, hc, List.drop_left]
      obtain ⟨c', hd, hc', hsize⟩ := ih (fun x hx => hms x (List.mem_cons_of_mem m hx)) hpop
        (Nat.lt_of_succ_lt_succ hfuel)
      refine ⟨c', ?_, hc', ?_⟩
      · rw [ThreadClient.drain_of_not_empty h hne (by omega), hfront, hd]
        rfl
      · rw [hsize, ThreadClient.size_popFront, hbuf]

end Drain

/-! ### The receive functions -/

/-- The two ends that receive. -/
inductive Receiver
  | threadServer (onNetMsg : MsgHandler)
  | easyClient

/-- The receive function of each end. -/
def Receiver.recvData : Receiver → Endian → ℕ → ThreadClient → RecvAnswer → Option Received
  | .threadServer onNetMsg => ThreadServer.recvData onNetMsg
  | .easyClient => EasyClient.recvData

/-- What the end does with a message. -/
def Receiver.handler : Receiver → MsgHandler
  | .threadServer onNetMsg => onNetMsg
  | .easyClient => fun _ => []

theorem Receiver.recvData_eq (r : Receiver) : r.recvData = receive r.handler := by
  cases r <;> rfl

/-- An end with its history. -/
structure RecvRun where
  client : ThreadClient
  /-- the bytes that `recv(2)` has returned -/
  received : List UInt8 := []
  /-- the messages handed over -/
  dispatched : List (List UInt8) := []
  /-- `RecvData` has returned `-1`, and the connection was closed -/
  closed : Bool := false

/-- The calls of `RecvData` of an open connection; a label is what `recv(2)` returns, if it is called:
at least a byte, and at most as many as there is room for. -/
def recvLts (r : Receiver) (e : Endian) (fuel : ℕ) (heap : ℕ → UInt8) (socket : ℤ) :
    Lts RecvRun (List UInt8) where
  init := { client := (ThreadClient.new heap).setSocket socket }
  step s bs :=
    if s.closed = false ∧ bs ≠ [] ∧ (s.client.recvBuf.last < s.client.recvBuf.size →
        bs.length ≤ s.client.recvBuf.size - s.client.recvBuf.last) then
      (r.recvData e fuel s.client (.bytes bs)).map fun d =>
        { client := d.client
          received := s.received ++ bs
          dispatched := s.dispatched ++ d.msgs
          closed := decide (d.ret = -1) }
    else none

/-- Enough rounds for all the messages that fit the buffer. -/
def recvRounds : ℕ := maxBufSize / dataHeaderSize

/-- **What a receiver has done** with a stream of messages: it has handed over the whole ones among
those that arrived, keeps the beginning of the next one, and is connected. -/
structure Framed (msgs : List (List UInt8)) (s : RecvRun) : Prop where
  dispatched : ∃ k, s.dispatched = msgs.take k ∧
    (∀ m, msgs[k]? = some m → s.client.recvBuf.content <+: m ∧ s.client.recvBuf.last < m.length) ∧
    (msgs[k]? = none → s.client.recvBuf.last = 0)
  kept : s.dispatched.flatten ++ s.client.recvBuf.content = s.received
  room : s.client.recvBuf.last < s.client.recvBuf.size
  size : s.client.recvBuf.size = maxBufSize
  connected : s.closed = false

section Framing

variable {r : Receiver} {e : Endian} {fuel : ℕ} {msgs : List (List UInt8)} {s : RecvRun}

/-- **One call of `RecvData`**, with any next piece of the stream. -/
theorem Framed.recv (hs : Framed msgs s) (hm : ∀ m ∈ msgs, IsMsg e m) (hfuel : recvRounds < fuel)
    {bs : List UInt8} (hne : bs ≠ [])
    (hroom : bs.length ≤ s.client.recvBuf.size - s.client.recvBuf.last)
    (hp : s.received ++ bs <+: msgs.flatten) :
    ∃ d, r.recvData e fuel s.client (.bytes bs) = some d ∧
      Framed msgs { client := d.client
                    received := s.received ++ bs
                    dispatched := s.dispatched ++ d.msgs
                    closed := decide (d.ret = -1) } := by
  have hd4 : dataHeaderSize = 4 := rfl
  obtain ⟨k, hk, -, -⟩ := hs.dispatched
  obtain ⟨hret, hcont, hsize⟩ := ThreadBuffer.content_read4socket hs.room hne
  -- what the buffer holds now is the beginning of the messages that were not handed over
  have hpre : s.client.recvBuf.content ++ bs <+: (msgs.drop k).flatten := by
    rw [← hs.kept, List.append_assoc, hk] at hp
    conv at hp => rhs; rw [← List.take_append_drop k msgs, List.flatten_append]
    exact (List.prefix_append_right_inj _).1 hp
  have hmk : ∀ m ∈ msgs.drop k, IsMsg e m := fun m h => hm m (List.mem_of_mem_drop h)
  obtain ⟨j, rest, hl, hj, h₁, h₂⟩ := exists_whole_prefix (fun m h hnil => by
    have h4 := (hmk m h).1
    rw [hnil, hd4] at h4
    exact absurd h4 (by decide)) hpre
  have hmj : ∀ m ∈ (msgs.drop k).take j, IsMsg e m := fun m h => hmk m (List.mem_of_mem_take h)
  have hrest : ∀ b : ThreadBuffer, b.content = rest → b.empty e = true := by
    intro b hb
    cases hn : (msgs.drop k)[j]? with
    | some m =>
        obtain ⟨hpm, hlt⟩ := h₁ m hn
        exact (hmk m (List.mem_of_getElem? hn)).empty_of_front (hb ▸ hpm) (hb ▸ hlt)
    | none =>
        rw [ThreadBuffer.empty_eq, hb, h₂ hn, if_neg (by decide)]
  -- every message takes four bytes at least
  have hcount : ((msgs.drop k).take j).length * 4 ≤ ((msgs.drop k).take j).flatten.length :=
    length_mul_le_flatten fun m h => (hmj m h).1
  have hfit : ((msgs.drop k).take j).flatten.length ≤ maxBufSize := by
    have hlen := congrArg List.length hl
    rw [List.length_append, List.length_append, ThreadBuffer.length_content] at hlen
    have hroom' := hs.room
    rw [hs.size] at hroom hroom'
    omega
  have hrounds : ((msgs.drop k).take j).length < fuel := by
    have hr : recvRounds = 20480 := rfl
    have hb : maxBufSize = 81920 := rfl
    omega
  obtain ⟨c', hdrain, hc', hsz⟩ := drain_msgs (h := r.handler)
    (c := { s.client with recvBuf := (s.client.recvBuf.read4socket (.bytes bs)).2 }) hmj
    (hcont.trans hl) hrest hrounds
  have hpos : 0 < bs.length := List.length_pos_iff.2 hne
  refine ⟨⟨0, (msgs.drop k).take j, c'⟩, ?_, ?_⟩
  · rw [Receiver.recvData_eq, receive, if_neg (by rw [hret]; omega), hdrain]
    rfl
  · have hlast : c'.recvBuf.last = rest.length := by rw [← hc', ThreadBuffer.length_content]
    have hsz' : c'.recvBuf.size = maxBufSize := by rw [hsz, hsize, hs.size]
    refine ⟨⟨k + j, ?_, ?_, ?_⟩, ?_, ?_, hsz', rfl⟩
    · simp only [hk]
      rw [List.take_add]
    · intro m hm'
      obtain ⟨hpm, hlt⟩ := h₁ m (by rw [List.getElem?_drop]; exact hm')
      exact ⟨by simpa only [hc'] using hpm, by simpa only [hlast] using hlt⟩
    · intro hn
      simp only [hlast]
      rw [h₂ (by rw [List.getElem?_drop]; exact hn)]
      rfl
    · simp only [List.flatten_append, hc']
      rw [List.append_assoc, ← hl, ← List.append_assoc, hs.kept]
    · simp only [hlast, hsz']
      cases hn : (msgs.drop k)[j]? with
      | some m =>
          have hb : maxBufSize = 81920 := rfl
          have hle := (hmk m (List.mem_of_getElem? hn)).2.1
          have hlt := (h₁ m hn).2
          omega
      | none =>
          rw [h₂ hn]
          decide

theorem framed_init (heap : ℕ → UInt8) (socket : ℤ) (hm : ∀ m ∈ msgs, IsMsg e m) :
    Framed msgs (recvLts r e fuel heap socket).init := by
  have hpos : 0 < maxBufSize := by decide
  refine ⟨⟨0, rfl, fun m hm' => ⟨List.nil_prefix, ?_⟩, fun _ => rfl⟩, rfl, hpos, rfl, rfl⟩
  have h4 := (hm m (List.mem_of_getElem? hm')).1
  exact Nat.lt_of_lt_of_le (show 0 < dataHeaderSize by decide) h4

/-- A whole run of calls. -/
theorem Framed.exec {heap : ℕ → UInt8} {socket : ℤ} (hm : ∀ m ∈ msgs, IsMsg e m)
    (hfuel : recvRounds < fuel) {chunks : List (List UInt8)} : ∀ {s s' : RecvRun}, Framed msgs s →
      s.received ++ chunks.flatten <+: msgs.flatten →
      (recvLts r e fuel heap socket).exec s chunks = some s' →
      Framed msgs s' ∧ s'.received = s.received ++ chunks.flatten := by
  induction chunks with
  | nil =>
      intro s s' h _ he
      obtain rfl := Option.some.inj he
      exact ⟨h, by simp⟩
  | cons bs chunks ih =>
      intro s s' h hp he
      rw [List.flatten_cons, ← List.append_assoc] at hp ⊢
      obtain ⟨s₁, hs₁, he⟩ := (Lts.exec_cons_eq_some _).1 he
      simp only [recvLts, Option.ite_none_right_eq_some, Option.map_eq_some_iff] at hs₁
      obtain ⟨⟨-, hne, hroom⟩, d, hd, rfl⟩ := hs₁
      obtain ⟨d', hd', hf⟩ := h.recv (r := r) hm hfuel hne (hroom h.room)
        ((List.prefix_append _ _).trans hp)
      obtain rfl := Option.some.inj (hd.symm.trans hd')
      exact ih hf hp he

/-- **The messages arrive.**  However `recv(2)` cuts the concatenation of any messages, after every
call each whole message that has arrived was handed over once, in order and unchanged, the buffer
keeps the beginning of the next one and has room for more, and the connection was not closed; and the
next call, with any next piece of the stream, returns. -/
theorem recv_framing (r : Receiver) (e : Endian) (heap : ℕ → UInt8) (socket : ℤ)
    (hfuel : recvRounds < fuel) (hm : ∀ m ∈ msgs, IsMsg e m) {chunks : List (List UInt8)}
    (hp : chunks.flatten <+: msgs.flatten)
    (he : (recvLts r e fuel heap socket).exec (recvLts r e fuel heap socket).init chunks =
      some s) :
    Framed msgs s ∧ s.received = chunks.flatten ∧
      ∀ bs, bs ≠ [] → bs.length ≤ s.client.recvBuf.size - s.client.recvBuf.last →
        chunks.flatten ++ bs <+: msgs.flatten →
          ∃ s', (recvLts r e fuel heap socket).step s bs = some s' := by
  have h₀ : Framed msgs (recvLts r e fuel heap socket).init := framed_init heap socket hm
  obtain ⟨hf, hrec⟩ := h₀.exec hm hfuel hp he
  have hrec' : s.received = chunks.flatten := hrec
  refine ⟨hf, hrec', fun bs hne hroom hpb => ?_⟩
  obtain ⟨d, hd, -⟩ := hf.recv (r := r) hm hfuel hne hroom (by rw [hrec']; exact hpb)
  refine Option.isSome_iff_exists.1 ?_
  simp only [recvLts]
  rw [if_pos ⟨hf.connected, hne, fun _ => hroom⟩, hd]
  rfl

end Framing

/-- A message of four bytes and one of five. -/
def twoMsgs : List (List UInt8) := [[4, 0, 1, 2], [5, 0, 9, 9, 7]]

theorem recv_framing_two :
    ∃ s, (recvLts (.threadServer fun _ => [.resettime]) .little 20481 (fun _ => 0) 7).exec
        (recvLts (.threadServer fun _ => [.resettime]) .little 20481 (fun _ => 0) 7).init
        [[4], [0, 1, 2, 5, 0], [9, 9]] = some s ∧
      Framed twoMsgs s ∧ s.dispatched = [[4, 0, 1, 2]] := by
  have he := (Option.some_get (x := (recvLts (.threadServer fun _ => [.resettime]) .little 20481
    (fun _ => 0) 7).exec (recvLts (.threadServer fun _ => [.resettime]) .little 20481
    (fun _ => 0) 7).init [[4], [0, 1, 2, 5, 0], [9, 9]]) (by decide +kernel)).symm
  have hm : ∀ m ∈ twoMsgs, IsMsg .little m := by decide
  exact ⟨_, he, (recv_framing _ .little _ 7 (by decide) hm (by decide) he).1, by decide +kernel⟩

end ProxySocket
