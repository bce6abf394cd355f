/-
**What a client has sent of the messages it took.**

`SendData` puts a message behind the others in `SendBuf`, or refuses it, and `SendDataReal` hands all
of `SendBuf` to `send(2)`.  Whatever `send(2)` answers, the buffer is empty afterwards.

Main definitions:

* `ThreadClient.sendData` — `SendData`, with the number it returns;
* `SendRun`, `sendLts` — the calls on one client, the messages it took and the bytes that were sent;
* `Conserved` — what was taken is what was sent, followed by what is in the buffer;
* `WholeSend` — a call of `send(2)` takes the whole buffer.

Main results:

* `send_conserved_iff` — **nothing is lost exactly when every `send(2)` took everything**.
-/

import ProxySocket.Lts
import ProxySocket.ThreadClient

set_option relaxedAutoImplicit false
set_option autoImplicit false

namespace ProxySocket

/-! ### The calls -/

/-- `ThreadClient::SendData`, of the message that begins at `header`, and what it returns.  The memory
at `header` has the bytes that the length in the header speaks of. -/
def ThreadClient.sendData (e : Endian) (c : ThreadClient) (header : List UInt8) :
    Option (ℤ × ThreadClient) :=
  let len := short e (header.take 2)
  if 0 ≤ len ∧ len ≤ header.length then
    let r := c.sendBuf.push (header.take len.toNat)
    some (if r.1 then len else 0, { c with sendBuf := r.2 })
  else none

/-- A call on the sending side, with the answer of `send(2)`. -/
inductive SendCall
  | sendData (header : List UInt8)
  | sendDataReal (a : SendAnswer)
deriving DecidableEq, Repr

/-- A client with its history. -/
structure SendRun where
  client : ThreadClient
  /-- the messages for which `SendData` returned a number other than zero, one after the other -/
  taken : List UInt8 := []
  /-- the bytes that `send(2)` has accepted -/
  sent : List UInt8 := []

/-- `write2socket` gets as far as `send(2)`. -/
def ThreadClient.Sends (c : ThreadClient) : Prop := c.sendBuf.last > 0 ∧ c.socket > 0

instance (c : ThreadClient) : Decidable c.Sends := inferInstanceAs (Decidable (_ ∧ _))

/-- `send(2)` takes no more than it was given. -/
def SendAnswer.Fits (c : ThreadClient) : SendAnswer → Prop
  | .accepted n => n ≤ c.sendBuf.last
  | .failed => True

instance (c : ThreadClient) : DecidablePred (SendAnswer.Fits c)
  | .accepted _ => inferInstanceAs (Decidable (_ ≤ _))
  | .failed => .isTrue trivial

/-- One call. -/
def SendRun.step (e : Endian) (s : SendRun) : SendCall → Option SendRun
  | .sendData header =>
      (s.client.sendData e header).map fun r : ℤ × ThreadClient =>
        { s with
          client := r.2
          taken := s.taken ++ (if r.1 ≠ 0 then header.take r.1.toNat else []) }
  | .sendDataReal a =>
      if s.client.Sends → a.Fits s.client then
        let r := s.client.sendDataReal a
        some { s with client := r.2.2, sent := s.sent ++ r.2.1 }
      else none

/-- The calls on a new client. -/
def sendLts (e : Endian) (heap : ℕ → UInt8) (socket : ℤ) : Lts SendRun SendCall where
  init := { client := (ThreadClient.new heap).setSocket socket }
  step := SendRun.step e

/-- What was taken is what was sent, followed by what is still in `SendBuf`. -/
def Conserved (s : SendRun) : Prop := s.taken = s.sent ++ s.client.sendBuf.content

/-- When `send(2)` is called, it takes the whole buffer. -/
def WholeSend (s : SendRun) : SendCall → Prop
  | .sendData _ => True
  | .sendDataReal a => s.client.Sends → a = .accepted s.client.sendBuf.last

instance (s : SendRun) : DecidablePred (WholeSend s)
  | .sendData _ => .isTrue trivial
  | .sendDataReal _ => inferInstanceAs (Decidable (_ → _))

/-! ### One call -/

theorem ThreadBuffer.write2socket_of_sends {b : ThreadBuffer} {socket : ℤ} (a : SendAnswer)
    (hc : b.last > 0 ∧ socket > 0) :
    b.write2socket socket a = match a with
      | .accepted n => ((n : ℤ), b.content.take n, { b with last := 0, full := 0 })
      | .failed => (-1, [], { b with last := 0, full := 0 }) :=
  if_pos hc

theorem ThreadBuffer.write2socket_of_not_sends {b : ThreadBuffer} {socket : ℤ} (a : SendAnswer)
    (hc : ¬ (b.last > 0 ∧ socket > 0)) : b.write2socket socket a = (0, [], b) :=
  if_neg hc

-- the value of a header is never computed in what follows
attribute [local irreducible] short

/-- `SendData` pushes as many bytes as the length in the header says. -/
theorem ThreadClient.sendData_eq_some {e : Endian} {c : ThreadClient} {header : List UInt8}
    {r : ℤ × ThreadClient} (hr : c.sendData e header = some r) :
    ∃ len : ℤ, r = (if (c.sendBuf.push (header.take len.toNat)).1 then len else 0,
      { c with sendBuf := (c.sendBuf.push (header.take len.toNat)).2 }) := by
  unfold sendData at hr
  generalize short e (header.take 2) = len at hr
  dsimp only at hr
  split at hr
  · exact ⟨len, (Option.some.inj hr).symm⟩
  · exact nomatch hr

section Steps

variable {e : Endian} {s s' : SendRun}

/-- A message is taken whole, or not at all. -/
theorem step_sendData {header : List UInt8} (hs : s.step e (.sendData header) = some s') :
    ∃ m, s'.taken = s.taken ++ m ∧ s'.sent = s.sent ∧
      s'.client.sendBuf.content = s.client.sendBuf.content ++ m := by
  rw [SendRun.step] at hs
  obtain ⟨r, hr, rfl⟩ := Option.map_eq_some_iff.1 hs
  obtain ⟨len, rfl⟩ := ThreadClient.sendData_eq_some hr
  obtain ⟨hcont, hret, -⟩ := s.client.sendBuf.content_push (header.take len.toNat)
  by_cases hroom : s.client.sendBuf.content.length + (header.take len.toNat).length ≤
      s.client.sendBuf.size
  · rw [if_pos hroom] at hcont
    rw [decide_eq_true hroom] at hret
    refine ⟨header.take len.toNat, ?_, rfl, hcont⟩
    simp only [hret, if_true]
    split
    · rfl
    · -- a message without bytes
      rename_i hz
      rw [not_not.1 hz]
      rfl
  · rw [if_neg hroom] at hcont
    rw [decide_eq_false hroom] at hret
    refine ⟨[], ?_, rfl, hcont.trans (List.append_nil _).symm⟩
    simp [hret]

/-- When `send(2)` is called, the buffer is empty afterwards, and only what it took was sent. -/
theorem step_sendDataReal {a : SendAnswer} (hc : s.client.Sends)
    (hs : s.step e (.sendDataReal a) = some s') :
    s'.taken = s.taken ∧ s'.client.sendBuf.content = [] ∧
      (∃ n ≤ s.client.sendBuf.last, s'.sent = s.sent ++ s.client.sendBuf.content.take n ∧
        (n = s.client.sendBuf.last ↔ a = .accepted s.client.sendBuf.last)) := by
  simp only [SendRun.step, Option.ite_none_right_eq_some, Option.some.injEq] at hs
  obtain ⟨hfit, rfl⟩ := hs
  simp only [ThreadClient.sendDataReal, ThreadBuffer.write2socket_of_sends a hc]
  cases a with
  | accepted n => exact ⟨trivial, rfl, n, hfit hc, rfl, by simp⟩
  | failed => exact ⟨trivial, rfl, 0, Nat.zero_le _, by simp, by simp [Nat.ne_of_lt hc.1]⟩

/-- When `send(2)` is not called, nothing changes. -/
theorem step_sendDataReal_idle {a : SendAnswer} (hc : ¬ s.client.Sends)
    (hs : s.step e (.sendDataReal a) = some s') :
    s'.taken = s.taken ∧ s'.sent = s.sent ∧
      s'.client.sendBuf.content = s.client.sendBuf.content := by
  simp only [SendRun.step, Option.ite_none_right_eq_some, Option.some.injEq] at hs
  obtain ⟨-, rfl⟩ := hs
  simp only [ThreadClient.sendDataReal, ThreadBuffer.write2socket_of_not_sends a hc, List.append_nil]
  exact ⟨trivial, trivial, trivial⟩

/-- No more was sent and kept than was taken. -/
theorem length_le_taken (hle : s.sent.length + s.client.sendBuf.content.length ≤ s.taken.length)
    {a : SendCall} (hs : s.step e a = some s') :
    s'.sent.length + s'.client.sendBuf.content.length ≤ s'.taken.length := by
  cases a with
  | sendData header =>
      obtain ⟨m, h₁, h₂, h₃⟩ := step_sendData hs
      rw [h₁, h₂, h₃, List.length_append, List.length_append]
      omega
  | sendDataReal a =>
      by_cases hc : s.client.Sends
      · obtain ⟨h₁, h₂, n, hn, h₃, -⟩ := step_sendDataReal hc hs
        rw [h₁, h₂, h₃, List.length_append, List.length_take, List.length_nil]
        omega
      · obtain ⟨h₁, h₂, h₃⟩ := step_sendDataReal_idle hc hs
        rwa [h₁, h₂, h₃]

/-- **One call** keeps what was taken exactly when it sends everything or nothing. -/
theorem conserved_step_iff (hcons : Conserved s) {a : SendCall} (hs : s.step e a = some s') :
    Conserved s' ↔ WholeSend s a := by
  rw [Conserved] at hcons ⊢
  cases a with
  | sendData header =>
      obtain ⟨m, h₁, h₂, h₃⟩ := step_sendData hs
      rw [h₁, h₂, h₃, hcons, List.append_assoc]
      exact ⟨fun _ => trivial, fun _ => rfl⟩
  | sendDataReal a =>
      by_cases hc : s.client.Sends
      · obtain ⟨h₁, h₂, n, hn, h₃, hwhole⟩ := step_sendDataReal hc hs
        rw [h₁, h₂, h₃, hcons, List.append_nil, List.append_right_inj]
        constructor
        · intro htake _
          have hlen := congrArg List.length htake
          rw [List.length_take, ThreadBuffer.length_content] at hlen
          exact hwhole.1 (by omega)
        · intro hw
          rw [hwhole.2 (hw hc), ← ThreadBuffer.length_content, List.take_length]
      · obtain ⟨h₁, h₂, h₃⟩ := step_sendDataReal_idle hc hs
        rw [h₁, h₂, h₃]
        exact ⟨fun _ h => absurd h hc, fun _ => hcons⟩

/-- What is lost stays lost. -/
theorem conserved_of_step (hle : s.sent.length + s.client.sendBuf.content.length ≤ s.taken.length)
    {a : SendCall} (hs : s.step e a = some s') (hcons : Conserved s') : Conserved s := by
  rw [Conserved] at hcons ⊢
  cases a with
  | sendData header =>
      obtain ⟨m, h₁, h₂, h₃⟩ := step_sendData hs
      rw [h₁, h₂, h₃, ← List.append_assoc] at hcons
      exact List.append_cancel_right hcons
  | sendDataReal a =>
      by_cases hc : s.client.Sends
      · obtain ⟨h₁, h₂, n, hn, h₃, -⟩ := step_sendDataReal hc hs
        rw [h₁, h₂, h₃, List.append_nil] at hcons
        -- nothing was lost, so the whole buffer was sent
        have hall : s.client.sendBuf.content.take n = s.client.sendBuf.content := by
          refine List.take_of_length_le ?_
          have hlen := congrArg List.length hcons
          rw [List.length_append, List.length_take] at hlen
          omega
        rw [hcons, hall]
      · obtain ⟨h₁, h₂, h₃⟩ := step_sendDataReal_idle hc hs
        rwa [h₁, h₂, h₃] at hcons

end Steps

/-! ### Runs -/

/-- **When nothing is lost on the sending side.**  After any calls on a client, the messages it took
are the bytes that were sent and those in its buffer, in this order, exactly when every `send(2)`
took all it was given. -/
theorem send_conserved_iff (e : Endian) (heap : ℕ → UInt8) (socket : ℤ) {as : List SendCall}
    {s : SendRun} (he : (sendLts e heap socket).exec (sendLts e heap socket).init as = some s) :
    Conserved s ↔ (sendLts e heap socket).AllSteps WholeSend (sendLts e heap socket).init as := by
  refine Lts.trace_iff (g := fun _ _ => True) (I := Conserved)
    (rfl : Conserved (sendLts e heap socket).init)
    (fun s a s' _ hI _ hs => conserved_step_iff hI hs) (fun s a s' hr hs hI => ?_) he
    (Lts.allSteps_true _ _)
  have hle : s.sent.length + s.client.sendBuf.content.length ≤ s.taken.length :=
    hr.invariant (I := fun s => s.sent.length + s.client.sendBuf.content.length ≤ s.taken.length)
      (Nat.le_refl _) fun _ _ _ _ hle _ hs => length_le_taken hle hs
  exact conserved_of_step hle hs hI

/-- Two messages that are sent, and one that waits. -/
def threeMsgs : List SendCall :=
  [.sendData [4, 0, 1, 2], .sendData [5, 0, 9, 9, 7], .sendDataReal (.accepted 9),
    .sendData [6, 0, 0, 0, 3, 3], .sendData [0, 0]]

theorem send_conserved_three :
    Conserved (((sendLts .little (fun _ => 0) 7).exec (sendLts .little (fun _ => 0) 7).init
      threeMsgs).get (by decide +kernel)) :=
  (@send_conserved_iff .little (fun _ => 0) 7 threeMsgs _ (Option.some_get _).symm).2
    (by decide +kernel)

/-- A `send(2)` that takes one byte of four. -/
theorem send_not_conserved :
    ¬ ∀ (e : Endian) (heap : ℕ → UInt8) (socket : ℤ) (as : List SendCall) (s : SendRun),
      (sendLts e heap socket).exec (sendLts e heap socket).init as = some s → Conserved s := by
  intro h
  have hcons := h .little (fun _ => 0) 7 [.sendData [4, 0, 1, 2], .sendDataReal (.accepted 1)] _
    (Option.some_get (by decide +kernel)).symm
  exact absurd (congrArg List.length hcons) (by decide +kernel)

end ProxySocket
