/-
**The dispatch loop on any bytes.**

The receive functions trust the length in the header of a message: it is a signed 16-bit number of
the peer's choice, and `pop_front` takes that many bytes off the front of the buffer.  Here the peer
sends any bytes at all, and `recv(2)` cuts them in any way.

Main definitions:

* `PopCall`, `ThreadClient.popCalls` — the calls of `pop` that the loop makes;
* `LoopSafe`, `RecvSafe` — the loop ends, and every call and every step stays within the buffer;
* `CutStep`, `PositiveHeaders` — a stream that is cut at the lengths in its headers, and the streams
  in which none of these is zero or negative;
* `recvDataLts` — the two receive functions, called over and over.

Main results:

* `loopSafe_iff` — the loop is safe on the bytes it finds exactly when their headers are positive;
* `dispatch_safe_iff` — **all calls are safe exactly when the headers of the stream are positive**.
-/

import ProxySocket.RecvFraming

set_option relaxedAutoImplicit false
set_option autoImplicit false

namespace ProxySocket

/-! ### The calls of `pop` -/

/-- A call of `pop`: its argument, `_last` before it, and `_size`. -/
structure PopCall where
  len : ℤ
  last : ℤ
  size : ℤ
deriving DecidableEq, Repr

/-- The call takes at least a byte and only bytes that are there, and `_last` stays in range. -/
structure PopCall.InBounds (p : PopCall) : Prop where
  pos : 0 < p.len
  le_last : p.len ≤ p.last
  nonneg : 0 ≤ p.last - p.len
  le_size : p.last - p.len ≤ p.size

/-- The calls of `pop` in the first `fuel` rounds of the loop.  After one with a negative length,
which copies from before the buffer, the model stops. -/
def ThreadClient.popCalls (h : MsgHandler) (e : Endian) : ℕ → ThreadClient → List PopCall
  | 0, _ => []
  | fuel + 1, c =>
      if c.recvBuf.empty e then []
      else
        let c' := (h (c.front e)).foldl call c
        ⟨c'.recvBuf.headerLen e, c'.recvBuf.last, c'.recvBuf.size⟩ ::
          if c'.recvBuf.headerLen e < 0 then [] else popCalls h e fuel (c'.popFront e)

/-- The loop comes to an end, and all its calls of `pop` are in bounds. -/
def LoopSafe (h : MsgHandler) (e : Endian) (c : ThreadClient) : Prop :=
  (∃ fuel d, ThreadClient.drain h e fuel c = some d) ∧
    ∀ fuel, ∀ p ∈ c.popCalls h e fuel, p.InBounds

/-- A call of `RecvData` keeps `_last` in range when it receives, and its loop is safe. -/
def RecvSafe (h : MsgHandler) (e : Endian) (c : ThreadClient) (a : RecvAnswer) : Prop :=
  let r := c.recvBuf.read4socket a
  0 ≤ (r.2.last : ℤ) ∧ (r.2.last : ℤ) ≤ r.2.size ∧
    (0 < r.1 → LoopSafe h e { c with recvBuf := r.2 })

/-! ### Cutting a stream -/

/-- The length in the header at the front. -/
def frontLen (e : Endian) (s : List UInt8) : ℤ := short e (s.take 2)

/-- The message at the front is there and has a positive length, and is cut off. -/
structure CutStep (e : Endian) (s t : List UInt8) : Prop where
  header : dataHeaderSize ≤ s.length
  pos : 0 < frontLen e s
  whole : frontLen e s ≤ s.length
  rest : t = s.drop (frontLen e s).toNat

/-- However many messages are cut off the front of the stream, a header that comes to stand there has
a positive length. -/
def PositiveHeaders (e : Endian) (s : List UInt8) : Prop :=
  ∀ t, Relation.ReflTransGen (CutStep e) s t → dataHeaderSize ≤ t.length → 0 < frontLen e t

-- the value of a header is never computed in what follows
attribute [local irreducible] short

section Cut

variable {e : Endian} {s t : List UInt8}

theorem frontLen_append (h : dataHeaderSize ≤ s.length) (x : List UInt8) :
    frontLen e (s ++ x) = frontLen e s := by
  have hd : dataHeaderSize = 4 := rfl
  rw [frontLen, frontLen, List.take_append_of_le_length (by omega)]

/-- What is cut off is cut off, whatever comes behind it. -/
theorem CutStep.append (h : CutStep e s t) (x : List UInt8) : CutStep e (s ++ x) (t ++ x) := by
  obtain ⟨h₁, h₂, h₃, rfl⟩ := h
  have hf : frontLen e (s ++ x) = frontLen e s := frontLen_append h₁ x
  refine ⟨?_, ?_, ?_, ?_⟩
  · rw [List.length_append]
    omega
  · rwa [hf]
  · rw [hf, List.length_append]
    omega
  · rw [hf, List.drop_append_of_le_length (by omega)]

theorem cut_append (h : Relation.ReflTransGen (CutStep e) s t) (x : List UInt8) :
    Relation.ReflTransGen (CutStep e) (s ++ x) (t ++ x) :=
  h.lift (· ++ x) fun _ _ hs => hs.append x

/-- Cutting only takes bytes away. -/
theorem length_le_of_cut (h : Relation.ReflTransGen (CutStep e) s t) : t.length ≤ s.length := by
  induction h with
  | refl => exact Nat.le_refl _
  | tail _ hstep ih =>
      rw [hstep.rest, List.length_drop]
      omega

theorem cutStep_rightUnique (e : Endian) : Relator.RightUnique (CutStep e) := by
  rintro s t t' ⟨-, -, -, rfl⟩ ⟨-, -, -, rfl⟩
  rfl

/-- A stream that is too short for a header. -/
theorem positiveHeaders_of_length_lt (h : s.length < dataHeaderSize) : PositiveHeaders e s := by
  intro t ht h4
  rcases Relation.ReflTransGen.cases_head ht with rfl | ⟨u, ⟨hu, -⟩, -⟩
  · exact absurd h4 (Nat.not_le_of_lt h)
  · exact absurd hu (Nat.not_le_of_lt h)

/-- The headers of a stream are those of its beginning, and more. -/
theorem PositiveHeaders.of_append {x : List UInt8} (h : PositiveHeaders e (s ++ x)) :
    PositiveHeaders e s := by
  intro t ht h4
  rw [← frontLen_append h4 x]
  exact h _ (cut_append ht x) (by rw [List.length_append]; omega)

/-- Cutting off messages with positive lengths leaves the headers that are still to come. -/
theorem positiveHeaders_cut_iff (h : Relation.ReflTransGen (CutStep e) s t) :
    PositiveHeaders e s ↔ PositiveHeaders e t := by
  constructor
  · exact fun hs u hu h4 => hs u (h.trans hu) h4
  · intro ht u hu h4
    -- what is cut off on the way has a positive length
    rcases hu.total_of_right_unique (cutStep_rightUnique e) h with hut | htu
    · rcases Relation.ReflTransGen.cases_head hut with rfl | ⟨v, hstep, -⟩
      · exact ht _ .refl h4
      · exact hstep.pos
    · exact ht u htu h4

end Cut

/-! ### The loop -/

section Loop

variable {h : MsgHandler} {e : Endian} {c : ThreadClient}

/-- The header that the loop looks at. -/
theorem ThreadBuffer.headerLen_content {b : ThreadBuffer} (h4 : dataHeaderSize ≤ b.content.length) :
    b.headerLen e = frontLen e b.content :=
  headerLen_eq e (by rwa [length_content] at h4)

/-- The loop goes on while a header is there and its length is. -/
theorem ThreadBuffer.empty_eq_false_iff {b : ThreadBuffer} : b.empty e = false ↔
    dataHeaderSize ≤ b.content.length ∧ frontLen e b.content ≤ b.content.length := by
  rw [empty_eq, frontLen]
  split
  · rename_i h4
    simp only [decide_eq_false_iff_not, Int.not_lt, h4, true_and]
  · rename_i h4
    simp only [Bool.true_eq_false, h4, false_and]

/-- A round of the loop with a positive length cuts a message off. -/
theorem cutStep_round (hne : c.recvBuf.empty e = false) (hpos : 0 < frontLen e c.recvBuf.content) :
    CutStep e c.recvBuf.content (((h (c.front e)).foldl ThreadClient.call c).popFront e).recvBuf.content ∧
      (((h (c.front e)).foldl ThreadClient.call c).popFront e).recvBuf.size = c.recvBuf.size := by
  obtain ⟨h4, hle⟩ := ThreadBuffer.empty_eq_false_iff.1 hne
  have hbuf := ThreadClient.foldl_call_recvBuf (h (c.front e)) c
  refine ⟨⟨h4, hpos, hle, ?_⟩, ?_⟩
  · rw [ThreadClient.content_popFront (by rw [hbuf]; exact hne), hbuf,
      ThreadBuffer.headerLen_content h4]
  · rw [ThreadClient.size_popFront, hbuf]

/-- **The loop comes to an end** when the headers are positive: every round takes a byte at least. -/
theorem drain_of_positive {fuel : ℕ} (hp : PositiveHeaders e c.recvBuf.content)
    (hfuel : c.recvBuf.content.length < fuel) :
    ∃ d, ThreadClient.drain h e fuel c = some d ∧
      Relation.ReflTransGen (CutStep e) c.recvBuf.content d.2.recvBuf.content ∧
      d.2.recvBuf.size = c.recvBuf.size := by
  induction fuel generalizing c with
  | zero => exact absurd hfuel (Nat.not_lt_zero _)
  | succ fuel ih =>
      cases hne : c.recvBuf.empty e with
      | true => exact ⟨_, ThreadClient.drain_of_empty h hne fuel, .refl, rfl⟩
      | false =>
          obtain ⟨h4, -⟩ := ThreadBuffer.empty_eq_false_iff.1 hne
          have hpos := hp _ .refl h4
          obtain ⟨hcut, hsize⟩ := cutStep_round (h := h) hne hpos
          have hlen : (((h (c.front e)).foldl ThreadClient.call c).popFront e).recvBuf.content.length <
              fuel := by
            have hd : dataHeaderSize = 4 := rfl
            rw [hcut.rest, List.length_drop]
            omega
          obtain ⟨d, hd, hdcut, hdsize⟩ :=
            ih ((positiveHeaders_cut_iff (.single hcut)).1 hp) hlen
          refine ⟨(c.front e :: d.1, d.2), ?_, .head hcut hdcut, hdsize.trans hsize⟩
          rw [ThreadClient.drain_of_not_empty h hne
            (by rw [ThreadBuffer.headerLen_content h4]; omega), hd]
          rfl

/-- With positive headers every call of `pop` is in bounds. -/
theorem popCalls_inBounds (fuel : ℕ) (hp : PositiveHeaders e c.recvBuf.content)
    (hle : c.recvBuf.last ≤ c.recvBuf.size) : ∀ p ∈ c.popCalls h e fuel, p.InBounds := by
  induction fuel generalizing c with
  | zero => exact fun p hmem => absurd hmem (by simp [ThreadClient.popCalls])
  | succ fuel ih =>
      intro p hmem
      cases hne : c.recvBuf.empty e with
      | true =>
          rw [ThreadClient.popCalls, if_pos hne] at hmem
          exact absurd hmem (by simp)
      | false =>
          obtain ⟨h4, hlen⟩ := ThreadBuffer.empty_eq_false_iff.1 hne
          have hpos := hp _ .refl h4
          have hbuf := ThreadClient.foldl_call_recvBuf (h (c.front e)) c
          obtain ⟨hcut, hsize⟩ := cutStep_round (h := h) hne hpos
          have hhead := ThreadBuffer.headerLen_content (e := e) h4
          rw [ThreadClient.popCalls, if_neg (by simp [hne])] at hmem
          simp only [hbuf, hhead] at hmem
          rw [if_neg (by omega)] at hmem
          rcases List.mem_cons.1 hmem with rfl | hmem
          · rw [ThreadBuffer.length_content] at hlen
            exact ⟨hpos, hlen, by dsimp only; omega, by dsimp only; omega⟩
          · refine ih ((positiveHeaders_cut_iff (.single hcut)).1 hp) ?_ p hmem
            rw [hsize, ← ThreadBuffer.length_content, hcut.rest, List.length_drop,
              ThreadBuffer.length_content]
            omega

/-- The loop comes to the first header with a length of zero or less. -/
theorem exists_popCall_of_cut {t : List UInt8} {s : List UInt8}
    (hcut : Relation.ReflTransGen (CutStep e) s t) (h4 : dataHeaderSize ≤ t.length)
    (hneg : frontLen e t ≤ 0) : ∀ {c : ThreadClient}, c.recvBuf.content = s →
      ∃ fuel, ∃ p ∈ c.popCalls h e fuel, p.len ≤ 0 := by
  induction hcut using Relation.ReflTransGen.head_induction_on with
  | refl =>
      rintro c rfl
      have hne : c.recvBuf.empty e = false := ThreadBuffer.empty_eq_false_iff.2 ⟨h4, by omega⟩
      have hbuf := ThreadClient.foldl_call_recvBuf (h (c.front e)) c
      refine ⟨1, ⟨frontLen e c.recvBuf.content, c.recvBuf.last, c.recvBuf.size⟩, ?_, hneg⟩
      rw [ThreadClient.popCalls, if_neg (by simp [hne])]
      simp only [hbuf, ThreadBuffer.headerLen_content h4]
      exact List.mem_cons_self
  | head hstep _ ih =>
      rintro c rfl
      have hne : c.recvBuf.empty e = false :=
        ThreadBuffer.empty_eq_false_iff.2 ⟨hstep.header, hstep.whole⟩
      have hbuf := ThreadClient.foldl_call_recvBuf (h (c.front e)) c
      obtain ⟨hcut, -⟩ := cutStep_round (h := h) hne hstep.pos
      obtain ⟨fuel, p, hmem, hlen⟩ := ih (cutStep_rightUnique e hcut hstep)
      refine ⟨fuel + 1, p, ?_, hlen⟩
      have hpos := hstep.pos
      rw [ThreadClient.popCalls, if_neg (by simp [hne])]
      simp only [hbuf, ThreadBuffer.headerLen_content hstep.header]
      rw [if_neg (by omega)]
      exact List.mem_cons_of_mem _ hmem

/-- **The loop is safe exactly when the headers are positive.** -/
theorem loopSafe_iff (hle : c.recvBuf.last ≤ c.recvBuf.size) :
    LoopSafe h e c ↔ PositiveHeaders e c.recvBuf.content := by
  constructor
  · rintro ⟨-, hpop⟩ t ht h4
    by_contra hneg
    obtain ⟨fuel, p, hmem, hlen⟩ := exists_popCall_of_cut (h := h) ht h4 (Int.not_lt.1 hneg) rfl
    exact absurd (hpop fuel p hmem).pos (Int.not_lt.2 hlen)
  · intro hp
    obtain ⟨d, hd, -⟩ := drain_of_positive (h := h) hp (Nat.lt_succ_self _)
    exact ⟨⟨_, d, hd⟩, fun fuel => popCalls_inBounds fuel hp hle⟩

end Loop

/-! ### The calls of `RecvData` -/

/-- The bytes that an answer of `recv(2)` brings. -/
def RecvAnswer.got : RecvAnswer → List UInt8
  | .bytes bs => bs
  | .failed => []

/-- Enough rounds for any bytes that fit the buffer. -/
def dispatchRounds : ℕ := maxBufSize + 1

/-- The calls of `RecvData`; a label is the answer of `recv(2)`. -/
def recvDataLts (r : Receiver) (e : Endian) (heap : ℕ → UInt8) (socket : ℤ) :
    Lts RecvRun RecvAnswer where
  init := { client := (ThreadClient.new heap).setSocket socket }
  step s a :=
    (r.recvData e dispatchRounds s.client a).map fun d =>
      { client := d.client
        received := s.received ++ a.got
        dispatched := s.dispatched ++ d.msgs
        closed := decide (d.ret = -1) }

/-- The connection is open, and `recv(2)` returns no more than it was asked for. -/
def Callable (s : RecvRun) (a : RecvAnswer) : Prop :=
  s.closed = false ∧ a.got.length ≤ s.client.recvBuf.size - s.client.recvBuf.last

instance (s : RecvRun) (a : RecvAnswer) : Decidable (Callable s a) :=
  inferInstanceAs (Decidable (_ ∧ _))

/-- What holds between two calls: the buffer keeps what is left of the stream, and all headers so far
were positive. -/
structure Between (e : Endian) (s : RecvRun) : Prop where
  cut : Relation.ReflTransGen (CutStep e) s.received s.client.recvBuf.content
  positive : PositiveHeaders e s.received
  le : s.client.recvBuf.last ≤ s.client.recvBuf.size
  size : s.client.recvBuf.size = maxBufSize

section Calls

variable {r : Receiver} {e : Endian} {s : RecvRun} {heap : ℕ → UInt8} {socket : ℤ}

/-- A call that receives nothing is safe, and the connection is closed. -/
theorem recvData_of_nothing (hs : Between e s) {a : RecvAnswer} (ha : a.got = []) :
    RecvSafe r.handler e s.client a ∧
      r.recvData e dispatchRounds s.client a = some ⟨-1, [], s.client⟩ := by
  have hread : (s.client.recvBuf.read4socket a).1 ≤ 0 := by
    by_cases hroom : s.client.recvBuf.last < s.client.recvBuf.size
    · cases a with
      | failed =>
          rw [ThreadBuffer.read4socket_failed hroom]
          exact (by decide : (-1 : ℤ) ≤ 0)
      | bytes bs =>
          obtain rfl : bs = [] := ha
          exact Int.le_of_eq (congrArg Prod.fst (ThreadBuffer.read4socket_nil _ fun _ => rfl))
    · exact Int.le_of_eq
        (congrArg Prod.fst (ThreadBuffer.read4socket_nil _ fun h => absurd h hroom))
  refine ⟨⟨Int.natCast_nonneg _, ?_, fun h => absurd hread (Int.not_le.2 h)⟩, ?_⟩
  · rw [ThreadBuffer.read4socket_of_nonpos hread]
    exact_mod_cast hs.le
  · rw [Receiver.recvData_eq, ThreadClient.receive_of_nonpos hread]

/-- A call that receives bytes is safe exactly when the headers that have arrived are positive. -/
theorem recvSafe_iff (hs : Between e s) {bs : List UInt8} (hne : bs ≠ [])
    (hroom : bs.length ≤ s.client.recvBuf.size - s.client.recvBuf.last) :
    RecvSafe r.handler e s.client (.bytes bs) ↔ PositiveHeaders e (s.received ++ bs) := by
  have hpos := List.length_pos_iff.2 hne
  obtain ⟨hret, hcont, hsize⟩ := ThreadBuffer.content_read4socket (b := s.client.recvBuf)
    (by omega) hne
  have hlast : (s.client.recvBuf.read4socket (.bytes bs)).2.last ≤
      (s.client.recvBuf.read4socket (.bytes bs)).2.size := by
    rw [← ThreadBuffer.length_content, hcont, hsize, List.length_append,
      ThreadBuffer.length_content]
    have := hs.le
    omega
  rw [positiveHeaders_cut_iff (cut_append hs.cut bs), ← hcont]
  have hloop := loopSafe_iff (h := r.handler) (e := e)
    (c := { s.client with recvBuf := (s.client.recvBuf.read4socket (.bytes bs)).2 }) hlast
  constructor
  · exact fun hsafe => hloop.1 (hsafe.2.2 (by rw [hret]; exact_mod_cast hpos))
  · exact fun hp => ⟨Int.natCast_nonneg _, by exact_mod_cast hlast, fun _ => hloop.2 hp⟩

/-- With positive headers the call returns, and keeps what is left of the stream. -/
theorem Between.recv (hs : Between e s) {bs : List UInt8} (hne : bs ≠ [])
    (hroom : bs.length ≤ s.client.recvBuf.size - s.client.recvBuf.last)
    (hp : PositiveHeaders e (s.received ++ bs)) :
    ∃ s', (recvDataLts r e heap socket).step s (.bytes bs) = some s' ∧ Between e s' ∧
      s'.received = s.received ++ bs := by
  have hpos := List.length_pos_iff.2 hne
  obtain ⟨hret, hcont, hsize⟩ := ThreadBuffer.content_read4socket (b := s.client.recvBuf)
    (by omega) hne
  have hcut := cut_append hs.cut bs
  have hp' := (positiveHeaders_cut_iff hcut).1 hp
  have hlen : (s.client.recvBuf.content ++ bs).length < dispatchRounds := by
    have hd : dispatchRounds = maxBufSize + 1 := rfl
    have := hs.le
    have := hs.size
    rw [List.length_append, ThreadBuffer.length_content]
    omega
  rw [← hcont] at hp' hlen hcut
  obtain ⟨d, hd, hdcut, hdsize⟩ := drain_of_positive (h := r.handler)
    (c := { s.client with recvBuf := (s.client.recvBuf.read4socket (.bytes bs)).2 }) hp' hlen
  let s' : RecvRun :=
    { client := d.2
      received := s.received ++ bs
      dispatched := s.dispatched ++ d.1
      closed := false }
  refine ⟨s', ?_, ⟨hcut.trans hdcut, hp, ?_, ?_⟩, rfl⟩
  · simp only [recvDataLts]
    rw [Receiver.recvData_eq, ThreadClient.receive_of_pos (by rw [hret]; omega), hd]
    rfl
  · have hle := length_le_of_cut hdcut
    rw [hcont, List.length_append, ThreadBuffer.length_content, ThreadBuffer.length_content] at hle
    have hlast := hs.le
    change d.2.recvBuf.last ≤ d.2.recvBuf.size
    dsimp only at hdsize
    omega
  · exact hdsize.trans (hsize.trans hs.size)

/-- **The calls from any state between two of them.** -/
theorem Between.allSteps_iff {as : List RecvAnswer} : ∀ {s : RecvRun}, Between e s →
    (recvDataLts r e heap socket).AllSteps Callable s as →
      ((recvDataLts r e heap socket).AllSteps (fun s a => RecvSafe r.handler e s.client a) s as ↔
        PositiveHeaders e (s.received ++ as.flatMap RecvAnswer.got)) := by
  induction as with
  | nil =>
      intro s hs _
      rw [List.flatMap_nil, List.append_nil]
      exact ⟨fun _ => hs.positive, fun _ => trivial⟩
  | cons a as ih =>
      rintro s hs ⟨⟨-, hroom⟩, hrest⟩
      rw [List.flatMap_cons, ← List.append_assoc]
      by_cases hgot : a.got = []
      · -- the connection is closed, and there is no other call
        obtain ⟨hsafe, hret⟩ := recvData_of_nothing (r := r) hs hgot
        have hstep : (recvDataLts r e heap socket).step s a = some
            { client := s.client
              received := s.received ++ a.got
              dispatched := s.dispatched ++ []
              closed := true } := by
          simp only [recvDataLts, hret]
          rfl
        have hlast : as = [] := by
          cases as with
          | nil => rfl
          | cons b as => exact absurd (hrest _ hstep).1.1 (by simp)
        rw [hlast, List.flatMap_nil, hgot, List.append_nil, List.append_nil]
        exact ⟨fun _ => hs.positive, fun _ => ⟨hsafe, fun _ _ => trivial⟩⟩
      · obtain ⟨bs, rfl⟩ : ∃ bs, a = .bytes bs := by
          cases a with
          | bytes bs => exact ⟨bs, rfl⟩
          | failed => exact absurd rfl hgot
        change bs ≠ [] at hgot
        change bs.length ≤ _ at hroom
        change _ ↔ PositiveHeaders e (s.received ++ bs ++ _)
        have hsafe := recvSafe_iff (r := r) hs hgot hroom
        constructor
        · intro hall
          obtain ⟨s', hstep, hs', hrec⟩ := hs.recv hgot hroom (hsafe.1 hall.1)
          rw [← hrec]
          exact (ih hs' (hrest s' hstep)).1 (hall.2 s' hstep)
        · intro hp
          have hp' := hp.of_append
          refine ⟨hsafe.2 hp', fun s' hstep => ?_⟩
          obtain ⟨s₁, hstep₁, hs', hrec⟩ := hs.recv hgot hroom hp'
          obtain rfl := Option.some.inj (hstep.symm.trans hstep₁)
          exact (ih hs' (hrest s' hstep)).2 (by rwa [hrec])

end Calls

/-- **When the dispatch loop is safe.**  However `recv(2)` cuts the bytes of the peer, all calls of
`RecvData` of a connection come to an end with every `pop` and every step in bounds exactly when no
header that comes to the front of the stream has a length of zero or less. -/
theorem dispatch_safe_iff (r : Receiver) (e : Endian) (heap : ℕ → UInt8) (socket : ℤ)
    {as : List RecvAnswer}
    (hcalls : (recvDataLts r e heap socket).AllSteps Callable (recvDataLts r e heap socket).init as) :
    (recvDataLts r e heap socket).AllSteps (fun s a => RecvSafe r.handler e s.client a)
        (recvDataLts r e heap socket).init as ↔
      PositiveHeaders e (as.flatMap RecvAnswer.got) := by
  have hs : Between e (recvDataLts r e heap socket).init :=
    ⟨.refl, positiveHeaders_of_length_lt (Nat.zero_lt_succ 3), Nat.zero_le _, rfl⟩
  exact hs.allSteps_iff hcalls

/-- A message of four bytes, a header with the length two, and a beginning. -/
def shortHeaders : List RecvAnswer := [.bytes [4, 0], .bytes [1, 2, 2, 0, 7], .bytes [0, 9], .failed]

theorem dispatch_safe_short_headers :
    (recvDataLts (.threadServer fun _ => [.resettime]) .little (fun _ => 0) 7).AllSteps
        (fun s a => RecvSafe (fun _ => [.resettime]) .little s.client a)
        (recvDataLts (.threadServer fun _ => [.resettime]) .little (fun _ => 0) 7).init
        shortHeaders := by
  refine (dispatch_safe_iff (.threadServer fun _ => [.resettime]) .little (fun _ => 0) 7
    (by decide +kernel)).2 ?_
  -- the bytes behind the two messages are no header
  have hfirst : CutStep .little [4, 0, 1, 2, 2, 0, 7, 0, 9] [2, 0, 7, 0, 9] :=
    ⟨by decide, by decide +kernel, by decide +kernel, by decide +kernel⟩
  have hsecond : CutStep .little [2, 0, 7, 0, 9] [7, 0, 9] :=
    ⟨by decide, by decide +kernel, by decide +kernel, by decide +kernel⟩
  exact (positiveHeaders_cut_iff (.head hfirst (.single hsecond))).2
    (positiveHeaders_of_length_lt (by decide))

/-- Four zero bytes are a header with the length zero. -/
theorem dispatch_not_safe :
    ¬ ∀ (r : Receiver) (e : Endian) (heap : ℕ → UInt8) (socket : ℤ) (as : List RecvAnswer),
      (recvDataLts r e heap socket).AllSteps Callable (recvDataLts r e heap socket).init as →
        (recvDataLts r e heap socket).AllSteps (fun s a => RecvSafe r.handler e s.client a)
          (recvDataLts r e heap socket).init as := by
  intro h
  obtain ⟨⟨-, -, hloop⟩, -⟩ :=
    h .easyClient .little (fun _ => 0) 7 [.bytes [0, 0, 0, 0]]
      ⟨by decide +kernel, fun _ _ => trivial⟩
  have hpop := (hloop (by decide +kernel)).2 1 ⟨0, 4, maxBufSize⟩ (by decide +kernel)
  exact absurd hpop.pos (by decide)

end ProxySocket
