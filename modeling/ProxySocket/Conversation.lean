/-
**A client of the send and receive server and what it hears.**

An `EasyClient` puts messages into its `SendBuf`, and a `ThreadServer` cuts what arrives into messages
again and hands them to `Server::OnNetMsg`.  That answers a login and an expire with a message of eight
bytes, which `SendBuf` takes, or refuses when it is full, and the client cuts what comes back into
messages for `Message`.  Both directions go through the same two kinds of buffers, and `send(2)` and
`recv(2)` move any number of bytes between them.  `checkTime` removes a client that was idle for too long,
with what its buffers hold, whatever state the connection is in.

A call of a function of a client is one step.  The thread of the server runs on, the application does not
call `Close` of its client, and `recv(2)` fails only after the other end has closed.

Main definitions:

* `Cmd`, `Server.onNetMsg`, `replies` — the commands, and what `OnNetMsg` does for a message;
* `Talk`, `Talk.step`, `talkLts` — a client, its connection and the server;
* `WholeTalk` — messages tell their true length, and `send(2)` takes the whole buffer;
* `RoomForReplies` — `SendBuf` takes all the answers to the messages of one `recv(2)`;
* `Talk.Expires`, `Talk.NothingLost` — `checkTime` removes the client, and nothing is lost with it.

Main results:

* `Line.recv` — one direction of the connection, and one call of `recv(2)`;
* `TalkInv.step` — **one step keeps the invariant of both directions**;
* `talk_in_order` — **messages and answers arrive in order, each at most once, and nothing but `checkTime`
  ends the conversation**;
* `talk_complete_iff` — **the client hears exactly the answers to all its messages exactly when there
  was room for them and nothing was lost with a removal**.
-/

import ProxySocket.Conveyor
import ProxySocket.RecvFraming
import ProxySocket.SendBuffer

set_option relaxedAutoImplicit false
set_option autoImplicit false

namespace ProxySocket

/-! ### The messages -/

/-- `CMD`. -/
inductive Cmd
  | login
  | logout
  | loginResult
  | logoutResult
  | newUserJoin
  | expire
  | error
deriving DecidableEq, Repr

/-- The value of an enumerator. -/
def Cmd.code : Cmd → ℕ
  | .login => 0
  | .logout => 1
  | .loginResult => 2
  | .logoutResult => 3
  | .newUserJoin => 4
  | .expire => 5
  | .error => 6

/-- A message of eight bytes: a header and an `int`. -/
def intMsg (e : Endian) (cmd : Cmd) (value : ℕ) : List UInt8 :=
  e.encode 2 8 ++ e.encode 2 cmd.code ++ e.encode 4 value

/-- A new `ClientLoginResult`. -/
def clientLoginResult (e : Endian) : List UInt8 := intMsg e .loginResult 0

/-- A new `Expire`. -/
def expireMsg (e : Endian) : List UInt8 := intMsg e .expire 1

/-- `header->cmd`. -/
def headerCmd (e : Endian) (header : List UInt8) : ℤ := short e ((header.drop 2).take 2)

/-- `Server::OnNetMsg`. -/
def Server.onNetMsg (e : Endian) : MsgHandler := fun header =>
  if headerCmd e header = Cmd.login.code then [.resettime, .sendData (clientLoginResult e)]
  else if headerCmd e header = Cmd.logout.code then []
  else if headerCmd e header = Cmd.expire.code then [.resettime, .sendData (expireMsg e)]
  else []

/-- The message that a call gives to `SendData`. -/
def ClientCall.header? : ClientCall → Option (List UInt8)
  | .resettime => none
  | .sendData header => some header

/-- What a handler gives to `SendData` for a message. -/
def MsgHandler.headers (h : MsgHandler) (m : List UInt8) : List (List UInt8) :=
  (h m).filterMap ClientCall.header?

/-- The answers of the server to a message. -/
def replies (e : Endian) : List UInt8 → List (List UInt8) := MsgHandler.headers (Server.onNetMsg e)

/-- Messages for one buffer, one after the other, and those that it takes. -/
def ThreadBuffer.pushAll (b : ThreadBuffer) : List (List UInt8) → ThreadBuffer × List (List UInt8)
  | [] => (b, [])
  | m :: ms =>
      let r := b.push m
      let q := pushAll r.2 ms
      (q.1, if r.1 then m :: q.2 else q.2)

/-! ### The connection -/

/-- A client and a server with what is on its way between them. -/
structure Talk where
  /-- `client` of the `EasyClient` -/
  cli : ThreadClient
  /-- the `ThreadClient` of the server -/
  srv : ThreadClient
  up : List UInt8 := []
  down : List UInt8 := []
  /-- history: the messages the client's `SendData` took, and those that `OnNetMsg` got -/
  asked : List (List UInt8) := []
  served : List (List UInt8) := []
  /-- history: the answers that `SendBuf` took, and those that `Message` got -/
  answered : List (List UInt8) := []
  heard : List (List UInt8) := []
  /-- the client has closed its end -/
  closed : Bool := false
  /-- the server has erased the client from `Clients` -/
  removed : Bool := false

/-- A step of one of the ends, with what the kernel answers. -/
inductive TalkAct
  /-- `EasyClient::SendData` -/
  | ask (header : List UInt8)
  /-- `EasyClient::WriteData` -/
  | cliSend (a : SendAnswer)
  /-- `ThreadServer::RecvData`, with so many bytes from `recv(2)` -/
  | srvRecv (n : ℕ)
  /-- `WiriteData` for the client -/
  | srvSend (a : SendAnswer)
  /-- `EasyClient::RecvData`, with so many bytes from `recv(2)` -/
  | cliRecv (n : ℕ)
  /-- `checkTime`, so long after the one before -/
  | checkTime (passby : ℤ)
  /-- `RecvData` after the other end has closed: `recv(2)` finds the end, or fails -/
  | cliEnd (a : RecvAnswer)
  | srvEnd (a : RecvAnswer)
deriving DecidableEq, Repr

/-- The client takes the step. -/
def TalkAct.byClient : TalkAct → Bool
  | .ask _ | .cliSend _ | .cliRecv _ | .cliEnd _ => true
  | .srvRecv _ | .srvSend _ | .checkTime _ | .srvEnd _ => false

/-- `recv(2)` returns at least a byte of those that are there, and no more than there is room for. -/
def Arrives (c : ThreadClient) (wire : List UInt8) (n : ℕ) : Prop :=
  0 < n ∧ n ≤ wire.length ∧ (c.recvBuf.last < c.recvBuf.size → n ≤ c.recvBuf.size - c.recvBuf.last)

instance (c : ThreadClient) (wire : List UInt8) (n : ℕ) : Decidable (Arrives c wire n) :=
  inferInstanceAs (Decidable (_ ∧ _))

/-- `recv(2)` fails, or finds the end behind all bytes. -/
def EndAnswer (wire : List UInt8) (a : RecvAnswer) : Prop := a = .failed ∨ a = .bytes [] ∧ wire = []

instance (wire : List UInt8) (a : RecvAnswer) : Decidable (EndAnswer wire a) :=
  inferInstanceAs (Decidable (_ ∨ _))

namespace Talk

/-- A step of an end that has not closed the connection. -/
def stepOpen (e : Endian) (fuel : ℕ) (s : Talk) : TalkAct → Option Talk
  | .ask header =>
      (s.cli.sendData e header).map fun r : ℤ × ThreadClient =>
        { s with cli := r.2, asked := s.asked ++ if r.1 ≠ 0 then [header] else [] }
  | .cliSend a =>
      if s.cli.Sends → a.Fits s.cli then
        let r := s.cli.sendDataReal a
        some { s with cli := r.2.2, up := s.up ++ r.2.1, closed := decide (-1 = r.1) }
      else none
  | .srvRecv n =>
      if Arrives s.srv s.up n then
        (ThreadServer.recvData (Server.onNetMsg e) e fuel s.srv (.bytes (s.up.take n))).map fun d =>
          { s with
            srv := d.client
            up := s.up.drop n
            served := s.served ++ d.msgs
            answered := s.answered ++ (s.srv.sendBuf.pushAll (d.msgs.flatMap (replies e))).2
            removed := decide (-1 = d.ret) }
      else none
  | .srvSend a =>
      if s.srv.Sends → a.Fits s.srv then
        let r := s.srv.sendDataReal a
        some { s with srv := r.2.2, down := s.down ++ r.2.1, removed := decide (-1 = r.1) }
      else none
  | .cliRecv n =>
      if Arrives s.cli s.down n then
        (EasyClient.recvData e fuel s.cli (.bytes (s.down.take n))).map fun d =>
          { s with
            cli := d.client
            down := s.down.drop n
            heard := s.heard ++ d.msgs
            closed := decide (-1 = d.ret) }
      else none
  | .checkTime passby =>
      let r := s.srv.checkexpire passby
      some { s with srv := r.2, removed := r.1 }
  | .cliEnd a =>
      if s.removed = true ∧ EndAnswer s.down a then
        (EasyClient.recvData e fuel s.cli a).map fun d =>
          { s with cli := d.client, heard := s.heard ++ d.msgs, closed := decide (-1 = d.ret) }
      else none
  | .srvEnd a =>
      if s.closed = true ∧ EndAnswer s.up a then
        (ThreadServer.recvData (Server.onNetMsg e) e fuel s.srv a).map fun d =>
          { s with srv := d.client, served := s.served ++ d.msgs, removed := decide (-1 = d.ret) }
      else none

/-- A step. -/
def step (e : Endian) (fuel : ℕ) (s : Talk) (a : TalkAct) : Option Talk :=
  if (if a.byClient then s.closed else s.removed) then none else s.stepOpen e fuel a

/-- `checkTime` finds that the client was idle for too long. -/
def Expires (s : Talk) : TalkAct → Prop
  | .checkTime passby => expireTime ≤ s.srv.deadtime + passby
  | _ => False

instance (s : Talk) : DecidablePred s.Expires
  | .checkTime _ => inferInstanceAs (Decidable (_ ≤ _))
  | .ask _ | .cliSend _ | .cliRecv _ | .cliEnd _ | .srvRecv _ | .srvSend _ | .srvEnd _ => .isFalse id

end Talk

/-- A new connection. -/
def talkLts (e : Endian) (fuel : ℕ) (cliHeap srvHeap : ℕ → UInt8) (cliFd srvFd : ℤ) :
    Lts Talk TalkAct where
  init :=
    { cli := (ThreadClient.new cliHeap).setSocket cliFd
      srv := (ThreadClient.new srvHeap).setSocket srvFd }
  step := Talk.step e fuel

/-- The client sends messages that tell their true length, and `send(2)` takes all it is given, as long as
the server has not removed the client. -/
def WholeTalk (e : Endian) (s : Talk) : TalkAct → Prop
  | .ask header => IsMsg e header
  | .cliSend a => s.removed = false → s.cli.Sends → a = .accepted s.cli.sendBuf.last
  | .srvSend a => s.srv.Sends → a = .accepted s.srv.sendBuf.last
  | .srvRecv _ | .cliRecv _ | .checkTime _ | .cliEnd _ | .srvEnd _ => True

instance (e : Endian) (s : Talk) : DecidablePred (WholeTalk e s)
  | .ask _ => inferInstanceAs (Decidable (IsMsg _ _))
  | .cliSend _ => inferInstanceAs (Decidable (_ → _ → _))
  | .srvSend _ => inferInstanceAs (Decidable (_ → _))
  | .srvRecv _ | .cliRecv _ | .checkTime _ | .cliEnd _ | .srvEnd _ => .isTrue trivial

/-- `SendBuf` of the server has room for the answers to all the messages of a call of `RecvData`. -/
def RoomForReplies (e : Endian) (fuel : ℕ) (s : Talk) : TalkAct → Prop
  | .srvRecv n =>
      ∀ d, ThreadServer.recvData (Server.onNetMsg e) e fuel s.srv (.bytes (s.up.take n)) = some d →
        s.srv.sendBuf.last + (d.msgs.flatMap (replies e)).flatten.length ≤ s.srv.sendBuf.size
  | _ => True

instance (e : Endian) (fuel : ℕ) (s : Talk) : DecidablePred (RoomForReplies e fuel s)
  | .srvRecv _ => Lts.decidableForallSome _ _
  | .ask _ | .cliSend _ | .srvSend _ | .cliRecv _ | .checkTime _ | .cliEnd _ | .srvEnd _ => .isTrue trivial

/-- Nothing is on its way, and nothing waits to be sent. -/
structure Talk.Still (s : Talk) : Prop where
  cli : s.cli.sendBuf.content = []
  up : s.up = []
  srv : s.srv.sendBuf.content = []
  down : s.down = []

/-- When `checkTime` removed the client, its answers were sent and arrive, and the messages that were not
served have no answer. -/
structure Talk.NothingLost (e : Endian) (s : Talk) : Prop where
  srv : s.srv.sendBuf.content = []
  down : s.down = []
  unserved : ∀ m ∈ s.asked.drop s.served.length, replies e m = []

/-! ### The answers -/

theorem isMsg_intMsg (e : Endian) (cmd : Cmd) (value : ℕ) : IsMsg e (intMsg e cmd value) := by
  have hlen : (intMsg e cmd value).length = 8 := by
    simp only [intMsg, List.length_append, Endian.length_encode]
  have htake : (intMsg e cmd value).take 2 = e.encode 2 8 := by
    rw [intMsg, List.append_assoc, List.take_left' (Endian.length_encode e 2 8)]
  refine ⟨?_, ?_, ?_⟩
  · rw [hlen]
    decide
  · rw [hlen]
    decide
  · rw [hlen, htake]
    cases e <;> decide

/-- What the server answers is a message. -/
theorem isMsg_of_mem_replies {e : Endian} {m r : List UInt8} (h : r ∈ replies e m) : IsMsg e r := by
  unfold replies MsgHandler.headers Server.onNetMsg at h
  split at h
  · rw [List.mem_singleton.1 h]
    exact isMsg_intMsg e .loginResult 0
  · split at h
    · cases h
    · split at h
      · rw [List.mem_singleton.1 h]
        exact isMsg_intMsg e .expire 1
      · cases h

namespace ThreadBuffer

variable {b : ThreadBuffer}

/-- The messages that are taken come behind the bytes in use. -/
theorem content_pushAll (b : ThreadBuffer) (ms : List (List UInt8)) :
    (b.pushAll ms).1.content = b.content ++ (b.pushAll ms).2.flatten ∧
      (b.pushAll ms).1.size = b.size := by
  induction ms generalizing b with
  | nil => exact ⟨(List.append_nil _).symm, rfl⟩
  | cons m ms ih =>
      obtain ⟨hcont, hret, hsize⟩ := b.content_push m
      obtain ⟨ih, ihsize⟩ := ih (b.push m).2
      simp only [pushAll]
      refine ⟨?_, ihsize.trans hsize⟩
      rw [ih, hcont, hret]
      by_cases hroom : b.content.length + m.length ≤ b.size
      · rw [if_pos hroom, decide_eq_true hroom, if_pos rfl, List.flatten_cons, List.append_assoc]
      · rw [if_neg hroom, decide_eq_false hroom, if_neg Bool.false_ne_true]

theorem pushAll_append (b : ThreadBuffer) (ms ms' : List (List UInt8)) :
    (b.pushAll (ms ++ ms')).1 = ((b.pushAll ms).1.pushAll ms').1 := by
  induction ms generalizing b with
  | nil => rfl
  | cons m ms ih => exact ih (b.push m).2

theorem sublist_pushAll (b : ThreadBuffer) (ms : List (List UInt8)) : (b.pushAll ms).2.Sublist ms := by
  induction ms generalizing b with
  | nil => exact .slnil
  | cons m ms ih =>
      simp only [pushAll]
      split
      · exact (ih _).cons_cons m
      · exact (ih _).cons m

/-- A buffer that is not too full stays so. -/
theorem last_pushAll_le (hb : b.last ≤ b.size) (ms : List (List UInt8)) :
    (b.pushAll ms).1.last ≤ b.size := by
  induction ms generalizing b with
  | nil => exact hb
  | cons m ms ih =>
      obtain ⟨hcont, -, hsize⟩ := b.content_push m
      have hlast : (b.push m).2.last ≤ (b.push m).2.size := by
        rw [hsize, ← length_content, hcont]
        split
        · rwa [List.length_append]
        · rwa [length_content]
      exact hsize ▸ ih hlast

/-- **All messages are taken** exactly when there is room for all of them. -/
theorem pushAll_eq_iff (hb : b.last ≤ b.size) (ms : List (List UInt8)) :
    (b.pushAll ms).2 = ms ↔ b.last + ms.flatten.length ≤ b.size := by
  constructor
  · intro hall
    have hle := last_pushAll_le hb ms
    rwa [← length_content, (content_pushAll b ms).1, hall, List.length_append, length_content] at hle
  · intro hroom
    induction ms generalizing b with
    | nil => rfl
    | cons m ms ih =>
        rw [List.flatten_cons, List.length_append] at hroom
        obtain ⟨hcont, hret, hsize⟩ := b.content_push m
        have hm : b.content.length + m.length ≤ b.size := by
          rw [length_content]
          omega
        have hlast : (b.push m).2.last = b.last + m.length := by
          rw [← length_content, hcont, if_pos hm, List.length_append, length_content]
        simp only [pushAll]
        rw [hret, decide_eq_true hm, if_pos rfl, ih]
        · rw [hlast, hsize]
          omega
        · rw [hlast, hsize]
          omega

end ThreadBuffer

/-- What a handler does to `SendBuf`. -/
theorem sendBuf_foldl_call (as : List ClientCall) (c : ThreadClient) :
    (as.foldl ThreadClient.call c).sendBuf =
      (c.sendBuf.pushAll (as.filterMap ClientCall.header?)).1 := by
  induction as generalizing c with
  | nil => rfl
  | cons a as ih =>
      rw [List.foldl_cons, ih]
      cases a <;> rfl

theorem sendBuf_popFront (c : ThreadClient) (e : Endian) : (c.popFront e).sendBuf = c.sendBuf := by
  unfold ThreadClient.popFront
  split <;> rfl

/-- What the loop of `RecvData` does to `SendBuf`. -/
theorem sendBuf_drain {h : MsgHandler} {e : Endian} {fuel : ℕ} {c c' : ThreadClient}
    {ms : List (List UInt8)} (hd : ThreadClient.drain h e fuel c = some (ms, c')) :
    c'.sendBuf = (c.sendBuf.pushAll (ms.flatMap h.headers)).1 := by
  induction fuel generalizing c ms with
  | zero => cases hd
  | succ fuel ih =>
      rw [ThreadClient.drain] at hd
      split at hd
      · cases hd
        rfl
      · split at hd
        · cases hd
        · obtain ⟨r, hr, heq⟩ := Option.map_eq_some_iff.1 hd
          cases heq
          rw [ih hr, sendBuf_popFront, sendBuf_foldl_call, List.flatMap_cons,
            ThreadBuffer.pushAll_append]
          rfl

/-- What a call of `RecvData` does to `SendBuf`. -/
theorem sendBuf_recvData {r : Receiver} {e : Endian} {fuel : ℕ} {c : ThreadClient} {a : RecvAnswer}
    {d : Received} (hd : r.recvData e fuel c a = some d) :
    d.client.sendBuf = (c.sendBuf.pushAll (d.msgs.flatMap r.handler.headers)).1 := by
  rw [Receiver.recvData_eq, receive] at hd
  split at hd
  · cases hd
    rfl
  · obtain ⟨⟨ms, c'⟩, hq, rfl⟩ := Option.map_eq_some_iff.1 hd
    have hbuf := sendBuf_drain hq
    exact hbuf

theorem handler_threadServer (h : MsgHandler) : (Receiver.threadServer h).handler = h := rfl

/-! ### One direction -/

/-- **One direction of the connection**: what the receiver has handed over, what it holds, what is on its
way and what the sender holds are the messages the sender took. -/
structure Line (e : Endian) (snd rcv : ThreadClient) (wire : List UInt8)
    (msgs handed : List (List UInt8)) : Prop where
  whole : ∀ m ∈ msgs, IsMsg e m
  stages : [handed.flatten, rcv.recvBuf.content, wire, snd.sendBuf.content].flatten = msgs.flatten
  framed : Framed msgs
    { client := rcv, received := handed.flatten ++ rcv.recvBuf.content, dispatched := handed }

/-- A receiver is as far as it was when more messages follow. -/
theorem Framed.append {ms ms' : List (List UInt8)} {s : RecvRun} (h : Framed ms s)
    (hne : ∀ m ∈ ms', m ≠ []) : Framed (ms ++ ms') s where
  kept := h.kept
  room := h.room
  size := h.size
  connected := h.connected
  dispatched := by
    obtain ⟨k, hk, hsome, hnone⟩ := h.dispatched
    rcases Nat.lt_or_ge k ms.length with hlt | hge
    · refine ⟨k, by rw [hk, List.take_append_of_le_length (Nat.le_of_lt hlt)], ?_, ?_⟩
      · rw [List.getElem?_append_left hlt]
        exact hsome
      · intro hn
        rw [List.getElem?_eq_none_iff, List.length_append] at hn
        omega
    · -- all earlier messages were handed over, and nothing is left of them
      have hlast := hnone (List.getElem?_eq_none hge)
      refine ⟨ms.length, by rw [hk, List.take_of_length_le hge, List.take_left], ?_, ?_⟩
      · intro m hm
        have hempty : s.client.recvBuf.content = [] := by
          rw [← List.length_eq_zero_iff, ThreadBuffer.length_content, hlast]
        rw [hempty, hlast]
        rw [List.getElem?_append_right (Nat.le_refl _)] at hm
        exact ⟨List.nil_prefix, List.length_pos_iff.2 (hne m (List.mem_of_getElem? hm))⟩
      · exact fun _ => hlast

namespace Line

variable {e : Endian} {snd snd' rcv rcv' : ThreadClient} {wire : List UInt8}
  {msgs handed : List (List UInt8)} (h : Line e snd rcv wire msgs handed)

theorem init (e : Endian) (heap heap' : ℕ → UInt8) (fd fd' : ℤ) :
    Line e ((ThreadClient.new heap).setSocket fd) ((ThreadClient.new heap').setSocket fd') [] [] [] where
  whole := fun _ hm => absurd hm List.not_mem_nil
  stages := rfl
  framed := by
    have hframed : Framed [] (recvLts .easyClient e 0 heap' fd').init :=
      framed_init heap' fd' fun _ hm => absurd hm List.not_mem_nil
    exact hframed

include h

/-- One direction depends on one buffer of each end. -/
theorem congr (hs : snd'.sendBuf = snd.sendBuf) (hr : rcv'.recvBuf = rcv.recvBuf) :
    Line e snd' rcv' wire msgs handed where
  whole := h.whole
  stages := by rw [hs, hr]; exact h.stages
  framed :=
    { dispatched := by
        obtain ⟨k, hk⟩ := h.framed.dispatched
        exact ⟨k, by rw [hr]; exact hk⟩
      kept := rfl
      room := by rw [hr]; exact h.framed.room
      size := by rw [hr]; exact h.framed.size
      connected := rfl }

/-- The sender takes messages. -/
theorem put {ms : List (List UInt8)} (hms : ∀ m ∈ ms, IsMsg e m)
    (hs : snd'.sendBuf.content = snd.sendBuf.content ++ ms.flatten) :
    Line e snd' rcv wire (msgs ++ ms) handed where
  whole := fun m hm => (List.mem_append.1 hm).elim (h.whole m) (hms m)
  stages := by
    have hfeed := Conveyor.flatten_feed ms.flatten
      [handed.flatten, rcv.recvBuf.content, wire, snd.sendBuf.content]
    rw [h.stages, ← List.flatten_append] at hfeed
    rw [hs]
    exact hfeed
  framed := h.framed.append fun m hm hnil => by
    have h4 := (hms m hm).1
    rw [hnil] at h4
    exact absurd h4 (by decide)

/-- `send(2)` takes all the sender has. -/
theorem send (hs : snd'.sendBuf.content = []) :
    Line e snd' rcv (wire ++ snd.sendBuf.content) msgs handed where
  whole := h.whole
  stages := by
    have hmove := ((Conveyor.Moves.take wire snd.sendBuf.content [] snd.sendBuf.content.length).later
      rcv.recvBuf.content).later handed.flatten
    have hflat := hmove.flatten_eq
    rw [List.take_length, List.drop_length, h.stages] at hflat
    rw [hs]
    exact hflat
  framed := h.framed

/-- **One call of `recv(2)`**: the receiver hands over what is whole now, and stays connected. -/
theorem recv {fuel n : ℕ} (hfuel : recvRounds < fuel) (hn : Arrives rcv wire n) (r : Receiver) :
    ∃ d, r.recvData e fuel rcv (.bytes (wire.take n)) = some d ∧ decide (-1 = d.ret) = false ∧
      Line e snd d.client (wire.drop n) msgs (handed ++ d.msgs) := by
  obtain ⟨hpos, hle, hroom⟩ := hn
  have htake : (wire.take n).length = n := by rw [List.length_take, Nat.min_eq_left hle]
  have hne : wire.take n ≠ [] := by
    rw [← List.length_pos_iff, htake]
    exact hpos
  have hp : handed.flatten ++ rcv.recvBuf.content ++ wire.take n <+: msgs.flatten := by
    rw [← h.stages]
    refine ⟨wire.drop n ++ snd.sendBuf.content, ?_⟩
    simp only [List.flatten_cons, List.flatten_nil, List.append_nil, List.append_assoc]
    rw [← List.append_assoc (wire.take n), List.take_append_drop]
  obtain ⟨d, hd, hf⟩ := h.framed.recv (r := r) h.whole hfuel hne
    (by rw [htake]; exact hroom h.framed.room) hp
  have hopen : decide (d.ret = -1) = false := hf.connected
  have hkept := hf.kept
  refine ⟨d, hd, ?_, h.whole, ?_, ?_⟩
  · rw [← hopen]
    exact decide_eq_decide.2 eq_comm
  · have hstages := h.stages
    simp only [List.flatten_cons, List.flatten_nil, List.append_nil] at hstages ⊢
    rw [← List.append_assoc, hkept, List.append_assoc, List.append_assoc,
      ← List.append_assoc (wire.take n), List.take_append_drop]
    exact hstages
  · exact
      { dispatched := hf.dispatched
        kept := rfl
        room := hf.room
        size := hf.size
        connected := rfl }

/-- What was handed over is the beginning of what was sent. -/
theorem handed_prefix : handed <+: msgs := by
  obtain ⟨k, hk, -⟩ := h.framed.dispatched
  have hk' : handed = msgs.take k := hk
  rw [hk']
  exact List.take_prefix k msgs

/-- **Everything was handed over** once nothing is on its way. -/
theorem handed_eq (hwire : wire = []) (hs : snd.sendBuf.content = []) : handed = msgs := by
  obtain ⟨k, hk, hsome, -⟩ := h.framed.dispatched
  have hstages := h.stages
  simp only [hwire, hs, List.flatten_cons, List.flatten_nil, List.append_nil] at hstages
  rcases Nat.lt_or_ge k msgs.length with hlt | hge
  · -- a beginning of the next message is not the rest of the messages
    exfalso
    obtain ⟨-, hshort⟩ := hsome msgs[k] (List.getElem?_eq_getElem hlt)
    have hrest : (msgs.take k).flatten ++ (msgs.drop k).flatten = msgs.flatten := by
      rw [← List.flatten_append, List.take_append_drop]
    have hk' : handed = msgs.take k := hk
    rw [← hstages, hk'] at hrest
    have hlen := congrArg List.length (List.append_cancel_left hrest)
    rw [List.drop_eq_getElem_cons hlt, List.flatten_cons, List.length_append,
      ThreadBuffer.length_content] at hlen
    have hshort' : rcv.recvBuf.last < msgs[k].length := hshort
    omega
  · exact hk.trans (List.take_of_length_le hge)

end Line

/-! ### Both directions -/

/-- **The invariant of a connection.** -/
structure TalkInv (e : Endian) (s : Talk) : Prop where
  up : s.removed = false → Line e s.cli s.srv s.up s.asked s.served
  inOrder : s.served <+: s.asked
  down : Line e s.srv s.cli s.down s.answered s.heard
  answers : s.answered.Sublist (s.served.flatMap (replies e))
  fits : s.srv.sendBuf.last ≤ s.srv.sendBuf.size
  opened : s.closed = true → s.removed = true

/-- Calls of `SendData` with a message that tells its true length. -/
theorem sendData_of_isMsg {e : Endian} {header : List UInt8} (hm : IsMsg e header) (c : ThreadClient) :
    c.sendData e header = some (if (c.sendBuf.push header).1 then (header.length : ℤ) else 0,
      { c with sendBuf := (c.sendBuf.push header).2 }) := by
  unfold ThreadClient.sendData
  rw [hm.2.2, if_pos ⟨Int.natCast_nonneg _, Int.le_refl _⟩, Int.toNat_natCast, List.take_length]

/-- `RecvData` of the client at the end. -/
theorem easyClient_recvData_end {e : Endian} {fuel : ℕ} {c : ThreadClient} {wire : List UInt8}
    {a : RecvAnswer} (ha : EndAnswer wire a) : EasyClient.recvData e fuel c a = some ⟨-1, [], c⟩ := by
  unfold EasyClient.recvData receive ThreadBuffer.read4socket
  rcases ha with rfl | ⟨rfl, -⟩
  · split <;> simp
  · split <;> simp

/-- A call of `SendDataReal` that takes everything, or has nothing to do. -/
theorem sendDataReal_whole {c : ThreadClient} {a : SendAnswer}
    (ha : c.Sends → a = .accepted c.sendBuf.last) :
    decide (-1 = (c.sendDataReal a).1) = false ∧ (c.sendDataReal a).2.2.recvBuf = c.recvBuf ∧
      (((c.sendDataReal a).2.2.sendBuf.content = [] ∧
          (c.sendDataReal a).2.2.sendBuf.size = c.sendBuf.size ∧
          (c.sendDataReal a).2.1 = c.sendBuf.content) ∨
        ((c.sendDataReal a).2.2.sendBuf = c.sendBuf ∧ (c.sendDataReal a).2.1 = [])) := by
  by_cases hc : c.Sends
  · obtain rfl := ha hc
    simp only [ThreadClient.sendDataReal, ThreadBuffer.write2socket_of_sends _ hc]
    refine ⟨decide_eq_false (by omega), trivial, .inl ⟨rfl, trivial, ?_⟩⟩
    rw [← ThreadBuffer.length_content, List.take_length]
  · simp only [ThreadClient.sendDataReal, ThreadBuffer.write2socket_of_not_sends a hc]
    exact ⟨rfl, trivial, .inr ⟨trivial, trivial⟩⟩

namespace TalkInv

variable {e : Endian} {fuel : ℕ} {s s' : Talk}

theorem init (cliHeap srvHeap : ℕ → UInt8) (cliFd srvFd : ℤ) :
    TalkInv e (talkLts e fuel cliHeap srvHeap cliFd srvFd).init where
  up _ := Line.init e cliHeap srvHeap cliFd srvFd
  inOrder := List.prefix_rfl
  down := Line.init e srvHeap cliHeap srvFd cliFd
  answers := .slnil
  fits := Nat.zero_le _
  opened h := absurd h Bool.false_ne_true

variable (h : TalkInv e s)

include h

theorem ask {header : List UInt8} (hm : IsMsg e header)
    (hs : s.stepOpen e fuel (.ask header) = some s') : TalkInv e s' := by
  simp only [Talk.stepOpen, sendData_of_isMsg hm, Option.map_some, Option.some.injEq] at hs
  subst hs
  obtain ⟨hcont, hret, -⟩ := s.cli.sendBuf.content_push header
  refine ⟨fun hr => ?_, h.inOrder.trans (List.prefix_append _ _), h.down.congr rfl rfl, h.answers,
    h.fits, h.opened⟩
  by_cases hroom : s.cli.sendBuf.content.length + header.length ≤ s.cli.sendBuf.size
  · rw [decide_eq_true hroom] at hret
    rw [if_pos hroom] at hcont
    have hpos : (header.length : ℤ) ≠ 0 := by
      have h4 : 4 ≤ header.length := hm.1
      omega
    simp only [hret, if_true, if_pos hpos]
    refine (h.up hr).put (fun m hmem => ?_) ?_
    · rw [List.mem_singleton.1 hmem]
      exact hm
    · rw [List.flatten_singleton]
      exact hcont
  · rw [decide_eq_false hroom] at hret
    rw [if_neg hroom] at hcont
    simp only [hret, Bool.false_eq_true, if_false, ne_eq, not_true_eq_false]
    exact (h.up hr).put (fun m hmem => absurd hmem List.not_mem_nil) (by rw [hcont]; simp)

theorem cliSend {a : SendAnswer}
    (ha : s.removed = false → s.cli.Sends → a = .accepted s.cli.sendBuf.last)
    (hs : s.stepOpen e fuel (.cliSend a) = some s') : TalkInv e s' := by
  simp only [Talk.stepOpen, Option.ite_none_right_eq_some, Option.some.injEq] at hs
  obtain ⟨-, rfl⟩ := hs
  by_cases hr : s.removed = true
  · -- nobody reads what is sent now
    exact ⟨fun hf => absurd (hf.symm.trans hr) Bool.false_ne_true, h.inOrder, h.down.congr rfl rfl,
      h.answers, h.fits, fun _ => hr⟩
  · obtain ⟨hopen, hrecv, hsend⟩ := sendDataReal_whole (ha (Bool.eq_false_iff.2 hr))
    refine ⟨fun hr => ?_, h.inOrder, h.down.congr rfl hrecv, h.answers, h.fits,
      fun hc => absurd (hopen.symm.trans hc) Bool.false_ne_true⟩
    dsimp only
    rcases hsend with ⟨hempty, -, hsent⟩ | ⟨hbuf, hsent⟩
    · rw [hsent]
      exact (h.up hr).send hempty
    · rw [hsent, List.append_nil]
      exact (h.up hr).congr hbuf rfl

theorem srvSend (hr : s.removed = false) {a : SendAnswer}
    (ha : s.srv.Sends → a = .accepted s.srv.sendBuf.last)
    (hs : s.stepOpen e fuel (.srvSend a) = some s') : TalkInv e s' := by
  simp only [Talk.stepOpen, Option.ite_none_right_eq_some, Option.some.injEq] at hs
  obtain ⟨-, rfl⟩ := hs
  have hopened : s.closed = true → False := fun hc => Bool.false_ne_true (hr.symm.trans (h.opened hc))
  obtain ⟨-, hrecv, ⟨hempty, -, hsent⟩ | ⟨hbuf, hsent⟩⟩ := sendDataReal_whole ha
  · refine ⟨fun _ => (h.up hr).congr rfl hrecv, h.inOrder, ?_, h.answers, ?_, fun hc => (hopened hc).elim⟩
    · dsimp only
      rw [hsent]
      exact h.down.send hempty
    · dsimp only
      rw [← ThreadBuffer.length_content, hempty]
      exact Nat.zero_le _
  · refine ⟨fun _ => (h.up hr).congr rfl hrecv, h.inOrder, ?_, h.answers, ?_, fun hc => (hopened hc).elim⟩
    · dsimp only
      rw [hsent, List.append_nil]
      exact h.down.congr hbuf rfl
    · dsimp only
      rw [hbuf]
      exact h.fits

/-- The messages that are whole now are served, and answered as far as there is room. -/
theorem srvRecv (hr : s.removed = false) (hfuel : recvRounds < fuel) {n : ℕ}
    (hs : s.stepOpen e fuel (.srvRecv n) = some s') : TalkInv e s' := by
  simp only [Talk.stepOpen, Option.ite_none_right_eq_some] at hs
  obtain ⟨hn, hs⟩ := hs
  obtain ⟨d, hd, -, hline⟩ := (h.up hr).recv hfuel hn (.threadServer (Server.onNetMsg e))
  have hd' : ThreadServer.recvData (Server.onNetMsg e) e fuel s.srv (.bytes (s.up.take n)) = some d := hd
  rw [hd', Option.map_some, Option.some.injEq] at hs
  subst hs
  have hbuf := sendBuf_recvData hd
  rw [handler_threadServer, ← replies] at hbuf
  obtain ⟨hcont, hsize⟩ := s.srv.sendBuf.content_pushAll (d.msgs.flatMap (replies e))
  have hsub := s.srv.sendBuf.sublist_pushAll (d.msgs.flatMap (replies e))
  refine ⟨fun _ => hline, hline.handed_prefix, ?_, ?_, ?_,
    fun hc => absurd (hr.symm.trans (h.opened hc)) Bool.false_ne_true⟩
  · refine h.down.put (fun m hm => ?_) (by rw [hbuf]; exact hcont)
    obtain ⟨q, -, hq⟩ := List.mem_flatMap.1 (hsub.subset hm)
    exact isMsg_of_mem_replies hq
  · dsimp only
    rw [List.flatMap_append]
    exact h.answers.append hsub
  · dsimp only
    rw [hbuf, hsize]
    exact ThreadBuffer.last_pushAll_le h.fits _

theorem cliRecv (hfuel : recvRounds < fuel) {n : ℕ}
    (hs : s.stepOpen e fuel (.cliRecv n) = some s') : TalkInv e s' := by
  simp only [Talk.stepOpen, Option.ite_none_right_eq_some] at hs
  obtain ⟨hn, hs⟩ := hs
  obtain ⟨d, hd, hopen, hline⟩ := h.down.recv hfuel hn .easyClient
  have hd' : EasyClient.recvData e fuel s.cli (.bytes (s.down.take n)) = some d := hd
  rw [hd', Option.map_some, Option.some.injEq] at hs
  subst hs
  -- `Message` puts nothing into `SendBuf`
  have hbuf : d.client.sendBuf = s.cli.sendBuf := by
    have hnone : d.msgs.flatMap Receiver.easyClient.handler.headers = [] :=
      List.flatMap_eq_nil_iff.2 fun _ _ => rfl
    rw [sendBuf_recvData hd, hnone]
    rfl
  exact ⟨fun hr => (h.up hr).congr hbuf rfl, h.inOrder, hline, h.answers, h.fits,
    fun hc => absurd (hopen.symm.trans hc) Bool.false_ne_true⟩

/-- `checkTime` touches no buffer. -/
theorem checkTime (hr : s.removed = false) {passby : ℤ}
    (hs : s.stepOpen e fuel (.checkTime passby) = some s') : TalkInv e s' := by
  obtain rfl := Option.some.inj hs
  exact ⟨fun _ => (h.up hr).congr rfl rfl, h.inOrder, h.down.congr rfl rfl, h.answers, h.fits,
    fun hc => absurd (hr.symm.trans (h.opened hc)) Bool.false_ne_true⟩

/-- The client finds the end. -/
theorem cliEnd {a : RecvAnswer} (hs : s.stepOpen e fuel (.cliEnd a) = some s') : TalkInv e s' := by
  simp only [Talk.stepOpen, Option.ite_none_right_eq_some] at hs
  obtain ⟨⟨hr, ha⟩, hs⟩ := hs
  rw [easyClient_recvData_end ha, Option.map_some, Option.some.injEq] at hs
  subst hs
  refine ⟨fun hf => absurd (hr.symm.trans hf) Bool.false_ne_true.symm, h.inOrder, ?_, h.answers, h.fits,
    fun _ => hr⟩
  dsimp only
  rw [List.append_nil]
  exact h.down

/-- **One step keeps the invariant of both directions.** -/
theorem step (hfuel : recvRounds < fuel) {a : TalkAct} (hw : WholeTalk e s a)
    (hs : s.step e fuel a = some s') : TalkInv e s' := by
  obtain ⟨hguard, hs⟩ := Option.ite_none_left_eq_some.1 hs
  cases a with
  | ask header => exact h.ask hw hs
  | cliSend a => exact h.cliSend hw hs
  | srvRecv n => exact h.srvRecv (Bool.eq_false_iff.2 hguard) hfuel hs
  | srvSend a => exact h.srvSend (Bool.eq_false_iff.2 hguard) hw hs
  | cliRecv n => exact h.cliRecv hfuel hs
  | checkTime passby => exact h.checkTime (Bool.eq_false_iff.2 hguard) hs
  | cliEnd a => exact h.cliEnd hs
  | srvEnd a =>
      -- the client does not close first
      obtain ⟨⟨hc, -⟩, -⟩ := Option.ite_none_right_eq_some.1 hs
      exact absurd (h.opened hc) hguard

omit h in
/-- The invariant holds in every run. -/
theorem of_reach (hfuel : recvRounds < fuel) {cliHeap srvHeap : ℕ → UInt8} {cliFd srvFd : ℤ}
    (hs : (talkLts e fuel cliHeap srvHeap cliFd srvFd).Reach (WholeTalk e) s) : TalkInv e s := by
  induction hs with
  | init => exact init cliHeap srvHeap cliFd srvFd
  | step _ hw hstep ih => exact ih.step hfuel hw hstep

end TalkInv

section Removal

variable {e : Endian} {fuel : ℕ} {s s' : Talk} {a : TalkAct}

/-- The client does not remove itself. -/
theorem removed_of_byClient (ha : a.byClient = true) (hs : s.stepOpen e fuel a = some s') :
    s'.removed = s.removed := by
  cases a with
  | ask header =>
      simp only [Talk.stepOpen, Option.map_eq_some_iff] at hs
      obtain ⟨r, -, rfl⟩ := hs
      rfl
  | cliSend a =>
      simp only [Talk.stepOpen, Option.ite_none_right_eq_some, Option.some.injEq] at hs
      obtain ⟨-, rfl⟩ := hs
      rfl
  | cliRecv n =>
      simp only [Talk.stepOpen, Option.ite_none_right_eq_some, Option.map_eq_some_iff] at hs
      obtain ⟨-, d, -, rfl⟩ := hs
      rfl
  | cliEnd a =>
      simp only [Talk.stepOpen, Option.ite_none_right_eq_some, Option.map_eq_some_iff] at hs
      obtain ⟨-, d, -, rfl⟩ := hs
      rfl
  | srvRecv n => cases ha
  | srvSend a => cases ha
  | checkTime passby => cases ha
  | srvEnd a => cases ha

/-- A client that was removed stays so. -/
theorem removed_kept (hs : s.step e fuel a = some s') (hr : s'.removed = false) : s.removed = false := by
  obtain ⟨hguard, hs⟩ := Option.ite_none_left_eq_some.1 hs
  by_cases ha : a.byClient = true
  · exact (removed_of_byClient ha hs).symm.trans hr
  · rw [if_neg ha] at hguard
    exact Bool.eq_false_iff.2 hguard

/-- **Only `checkTime` removes the client.** -/
theorem removed_step_iff (hfuel : recvRounds < fuel) (h : TalkInv e s) (hr : s.removed = false)
    (hw : WholeTalk e s a) (hs : s.step e fuel a = some s') : s'.removed = false ↔ ¬ s.Expires a := by
  obtain ⟨-, hs⟩ := Option.ite_none_left_eq_some.1 hs
  have hclient : a.byClient = true → s'.removed = false := fun ha =>
    (removed_of_byClient ha hs).trans hr
  cases a with
  | ask header => exact iff_of_true (hclient rfl) id
  | cliSend a => exact iff_of_true (hclient rfl) id
  | cliRecv n => exact iff_of_true (hclient rfl) id
  | cliEnd a => exact iff_of_true (hclient rfl) id
  | srvRecv n =>
      simp only [Talk.stepOpen, Option.ite_none_right_eq_some] at hs
      obtain ⟨hn, hs⟩ := hs
      obtain ⟨d, hd, hopen, -⟩ := (h.up hr).recv hfuel hn (.threadServer (Server.onNetMsg e))
      have hd' : ThreadServer.recvData (Server.onNetMsg e) e fuel s.srv (.bytes (s.up.take n)) = some d :=
        hd
      rw [hd', Option.map_some, Option.some.injEq] at hs
      subst hs
      exact iff_of_true hopen id
  | srvSend a =>
      simp only [Talk.stepOpen, Option.ite_none_right_eq_some, Option.some.injEq] at hs
      obtain ⟨-, rfl⟩ := hs
      exact iff_of_true (sendDataReal_whole hw).1 id
  | checkTime passby =>
      obtain rfl := Option.some.inj hs
      exact decide_eq_false_iff_not
  | srvEnd a =>
      obtain ⟨⟨hc, -⟩, -⟩ := Option.ite_none_right_eq_some.1 hs
      exact absurd (hr.symm.trans (h.opened hc)) Bool.false_ne_true

/-- A byte that is on its way to the server can be received, unless the server removed the client. -/
theorem srvRecv_ready (hfuel : recvRounds < fuel) (h : TalkInv e s) (hr : s.removed = false)
    (hup : s.up ≠ []) : ∃ s', s.step e fuel (.srvRecv 1) = some s' := by
  have hn : Arrives s.srv s.up 1 := ⟨Nat.zero_lt_one, List.length_pos_iff.2 hup,
    fun hroom => Nat.sub_pos_of_lt hroom⟩
  obtain ⟨d, hd, -⟩ := (h.up hr).recv hfuel hn (.threadServer (Server.onNetMsg e))
  have hd' : ThreadServer.recvData (Server.onNetMsg e) e fuel s.srv (.bytes (s.up.take 1)) = some d := hd
  have hopen : s.step e fuel (.srvRecv 1) = s.stepOpen e fuel (.srvRecv 1) :=
    if_neg (Bool.eq_false_iff.1 hr)
  rw [hopen, Talk.stepOpen, if_pos hn, hd']
  exact ⟨_, rfl⟩

/-- A byte that is on its way to the client can be received, unless the client closed. -/
theorem cliRecv_ready (hfuel : recvRounds < fuel) (h : TalkInv e s) (hc : s.closed = false)
    (hdown : s.down ≠ []) : ∃ s', s.step e fuel (.cliRecv 1) = some s' := by
  have hn : Arrives s.cli s.down 1 := ⟨Nat.zero_lt_one, List.length_pos_iff.2 hdown,
    fun hroom => Nat.sub_pos_of_lt hroom⟩
  obtain ⟨d, hd, -⟩ := h.down.recv hfuel hn .easyClient
  have hd' : EasyClient.recvData e fuel s.cli (.bytes (s.down.take 1)) = some d := hd
  have hopen : s.step e fuel (.cliRecv 1) = s.stepOpen e fuel (.cliRecv 1) :=
    if_neg (Bool.eq_false_iff.1 hc)
  rw [hopen, Talk.stepOpen, if_pos hn, hd']
  exact ⟨_, rfl⟩

end Removal

/-- Every message that was served has its answer in `SendBuf`, or it was sent. -/
def Talk.Answered (e : Endian) (s : Talk) : Prop := s.answered = s.served.flatMap (replies e)

section Answered

variable {e : Endian} {fuel : ℕ} {s s' : Talk} {a : TalkAct}

/-- What a step serves and answers, in a conversation that the client does not end. -/
theorem answers_of_step (h : TalkInv e s) (hs : s.step e fuel a = some s') :
    (∃ n d, a = .srvRecv n ∧
      ThreadServer.recvData (Server.onNetMsg e) e fuel s.srv (.bytes (s.up.take n)) = some d ∧
      s'.served = s.served ++ d.msgs ∧
      s'.answered = s.answered ++ (s.srv.sendBuf.pushAll (d.msgs.flatMap (replies e))).2) ∨
    ((∀ n, a ≠ .srvRecv n) ∧ s'.served = s.served ∧ s'.answered = s.answered) := by
  obtain ⟨hguard, hs⟩ := Option.ite_none_left_eq_some.1 hs
  cases a with
  | ask header =>
      simp only [Talk.stepOpen, Option.map_eq_some_iff] at hs
      obtain ⟨r, -, rfl⟩ := hs
      exact .inr ⟨fun n hn => (by cases hn), rfl, rfl⟩
  | cliSend a =>
      simp only [Talk.stepOpen, Option.ite_none_right_eq_some, Option.some.injEq] at hs
      obtain ⟨-, rfl⟩ := hs
      exact .inr ⟨fun n hn => (by cases hn), rfl, rfl⟩
  | srvRecv n =>
      simp only [Talk.stepOpen, Option.ite_none_right_eq_some, Option.map_eq_some_iff] at hs
      obtain ⟨-, d, hd, rfl⟩ := hs
      exact .inl ⟨n, d, rfl, hd, rfl, rfl⟩
  | srvSend a =>
      simp only [Talk.stepOpen, Option.ite_none_right_eq_some, Option.some.injEq] at hs
      obtain ⟨-, rfl⟩ := hs
      exact .inr ⟨fun n hn => (by cases hn), rfl, rfl⟩
  | cliRecv n =>
      simp only [Talk.stepOpen, Option.ite_none_right_eq_some, Option.map_eq_some_iff] at hs
      obtain ⟨-, d, -, rfl⟩ := hs
      exact .inr ⟨fun n hn => (by cases hn), rfl, rfl⟩
  | checkTime passby =>
      obtain rfl := Option.some.inj hs
      exact .inr ⟨fun n hn => (by cases hn), rfl, rfl⟩
  | cliEnd a =>
      simp only [Talk.stepOpen, Option.ite_none_right_eq_some, Option.map_eq_some_iff] at hs
      obtain ⟨-, d, -, rfl⟩ := hs
      exact .inr ⟨fun n hn => (by cases hn), rfl, rfl⟩
  | srvEnd a =>
      obtain ⟨⟨hc, -⟩, -⟩ := Option.ite_none_right_eq_some.1 hs
      exact absurd (h.opened hc) hguard

/-- **A step answers what it serves** exactly when there is room for the answers. -/
theorem answered_step_iff (h : TalkInv e s) (hall : s.Answered e) (hs : s.step e fuel a = some s') :
    s'.Answered e ↔ RoomForReplies e fuel s a := by
  unfold Talk.Answered at hall ⊢
  rcases answers_of_step h hs with ⟨n, d, rfl, hd, hserved, hanswered⟩ | ⟨hno, hserved, hanswered⟩
  · rw [hserved, hanswered, hall, List.flatMap_append, List.append_right_inj,
      ThreadBuffer.pushAll_eq_iff h.fits]
    constructor
    · intro hroom d' hd'
      obtain rfl := Option.some.inj (hd.symm.trans hd')
      exact hroom
    · exact fun hroom => hroom d hd
  · rw [hserved, hanswered]
    refine iff_of_true hall ?_
    cases a with
    | srvRecv n => exact absurd rfl (hno n)
    | ask header => trivial
    | cliSend a => trivial
    | srvSend a => trivial
    | cliRecv n => trivial
    | checkTime passby => trivial
    | cliEnd a => trivial
    | srvEnd a => trivial

/-- An answer that was refused stays away. -/
theorem answered_of_step (h : TalkInv e s) (hs : s.step e fuel a = some s') (hall : s'.Answered e) :
    s.Answered e := by
  unfold Talk.Answered at hall ⊢
  rcases answers_of_step h hs with ⟨n, d, -, -, hserved, hanswered⟩ | ⟨-, hserved, hanswered⟩
  · rw [hserved, hanswered, List.flatMap_append] at hall
    have hle := (s.srv.sendBuf.sublist_pushAll (d.msgs.flatMap (replies e))).length_le
    have hlen := congrArg List.length hall
    rw [List.length_append, List.length_append] at hlen
    have hle' := h.answers.length_le
    exact h.answers.eq_of_length (by omega)
  · rwa [hserved, hanswered] at hall

/-- The answers to what was asked are those to what was served and those to the rest. -/
theorem replies_asked (h : TalkInv e s) : s.asked.flatMap (replies e) =
    s.served.flatMap (replies e) ++ (s.asked.drop s.served.length).flatMap (replies e) := by
  obtain ⟨rest, hrest⟩ := h.inOrder
  rw [← hrest, List.flatMap_append, List.drop_left]

/-- **A client that was removed has heard everything** exactly when all was answered, and nothing was lost. -/
theorem heard_iff_of_removed (h : TalkInv e s) :
    s.heard = s.asked.flatMap (replies e) ↔ s.Answered e ∧ s.NothingLost e := by
  have hsplit := replies_asked h
  constructor
  · intro hall
    -- no answer is missing between those that were heard and those to all that was asked
    have hheard := h.down.handed_prefix.length_le
    have hanswers := h.answers.length_le
    have hlen := congrArg List.length (hall.trans hsplit)
    rw [List.length_append] at hlen
    have hrest : ((s.asked.drop s.served.length).flatMap (replies e)) = [] :=
      List.length_eq_zero_iff.1 (by omega)
    have heq : s.heard = s.answered := h.down.handed_prefix.eq_of_length (by omega)
    have hstages := h.down.stages
    rw [heq, List.flatten_cons] at hstages
    have hnil := List.append_eq_nil_iff.1 (List.append_right_eq_self.1 hstages)
    simp only [List.flatten_cons, List.flatten_nil, List.append_nil, List.append_eq_nil_iff] at hnil
    exact ⟨h.answers.eq_of_length (by omega), hnil.2.2, hnil.2.1, List.flatMap_eq_nil_iff.1 hrest⟩
  · rintro ⟨hall, hlost⟩
    rw [h.down.handed_eq hlost.down hlost.srv, hsplit, List.flatMap_eq_nil_iff.2 hlost.unserved,
      List.append_nil]
    exact hall

/-- **A client that is there has heard everything** exactly when all was answered, once nothing is on its
way. -/
theorem heard_iff_of_still (h : TalkInv e s) (hr : s.removed = false) (hstill : s.Still) :
    s.heard = s.asked.flatMap (replies e) ↔ s.Answered e := by
  rw [h.down.handed_eq hstill.down hstill.srv, ← (h.up hr).handed_eq hstill.up hstill.cli, Talk.Answered]

end Answered

/-- A login and an expire, which arrive in three pieces. -/
def twoQuestions : List TalkAct :=
  [.ask (intMsg .little .login 7), .ask (intMsg .little .expire 0), .cliSend (.accepted 16), .srvRecv 3,
    .srvRecv 6, .srvSend (.accepted 8), .cliRecv 8, .srvRecv 7, .srvSend (.accepted 8), .cliRecv 5,
    .cliRecv 3]

/-- The connection of the two questions. -/
def twoQuestionsLts : Lts Talk TalkAct := talkLts .little 20481 (fun _ => 0) (fun _ => 0) 3 4

/-- Two questions, of which the server answers the first before it removes the client. -/
def oneAnswer : List TalkAct :=
  [.ask (intMsg .little .login 7), .cliSend (.accepted 8), .srvRecv 8, .srvSend (.accepted 8), .cliRecv 8,
    .ask (intMsg .little .expire 0), .cliSend (.accepted 8), .checkTime 50000, .cliEnd .failed]

end ProxySocket
