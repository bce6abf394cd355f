/-
**The program of one proxy connection refines the session protocol.**

`Rel.step` assembles the lemmas about the handlers: every step that meets the conditions is matched
by steps of the protocol.  By forward simulation every state the program reaches is related to a
state the protocol reaches, and everything an observer has seen is permitted there.

Main definitions:

* `Follows` — the conditions under which the program follows the protocol.

Main results:

* `Rel.step` — **one step of the program is matched**;
* `refines` — **every reachable state of the program refines a reachable state of the protocol**.
-/

import ProxySocket.PairServer
import ProxySocket.PairClient

set_option relaxedAutoImplicit false
set_option autoImplicit false

namespace ProxySocket

/-- The bytes a session may carry in one direction.  Where a request may be taken for bytes, its
bytes are counted on top. -/
def sessionBound (early : Bool) : ℕ := if early then byteBound - reqLen else byteBound

/-- **The conditions under which the program follows the protocol.**  With `early = false` the
handlers are whole and no connection is reused early. -/
def Follows (early : Bool) (s : Pair) (a : Act) : Prop :=
  RunsInTime s a ∧ Bounded (sessionBound early) s a ∧
    (early = false → HandlerAtomic s a ∧ NoEarlyReuse s a)

theorem HandlerAtomic.runsInTime {s : Pair} {a : Act} (h : HandlerAtomic s a) : RunsInTime s a := by
  cases a with
  | cliRead n o localFd => exact fun ⟨c, hc⟩ => absurd (h (by simp [hc])) (by simp)
  | cliCtl localFd => exact fun ⟨⟨c, hc⟩, _⟩ => absurd (h (by simp [hc])) (by simp)
  | _ => trivial

namespace Rel

variable {early : Bool} {fd : ℕ} {s s' : Pair} {t : Session}

/-- **One step of the program is matched by the protocol.** -/
theorem step (h : Rel fd s t) (hi : t.Inv) (hup : t.up.wrote < byteBound) (hdown : t.Fits) {a : Act}
    (hrun : RunsInTime s a) (hg : early = false → HandlerAtomic s a ∧ NoEarlyReuse s a)
    (hs : s.step a = some s') : Matched early fd s t s' := by
  cases a with
  | newPublicConn publicFd =>
      refine h.newPublicConnHandler hi (fun he => ⟨?_, (hg he).2⟩) hs
      cases hp : s.pending with
      | none => rfl
      | some p => exact absurd ((hg he).1 (by simp [hp])) (by simp)
  | srvWrite => exact h.srvHandleWrite hs
  | srvRead n o =>
      by_cases hp : t.place = .running
      · by_cases ha : s.srv.RawAdmissible s.up n o
        · exact h.srvHandleRead_raw hi hp hup ha hs
        · have hs' : s.srvHandleRead n o = some s' := hs
          unfold Pair.srvHandleRead at hs'
          rw [if_pos (h.srvStart.2 hp), if_neg ha] at hs'
          exact absurd hs' (by simp)
      · exact h.srvHandleRead_frame hi hp hs
  | publicRead i o => exact h.publicRead hi hup hs
  | srvCtl => exact h.srvCtlRead hi hup hs
  | cliCtl localFd => exact h.cliCtlRead hi hdown hrun hs
  | cliRead n o localFd => exact h.cliHandleRead hi hdown hrun hs
  | localRead i o => exact h.localRead hi hdown hs
  | cliRun => exact h.cliRun hi hs

end Rel

/-! ### Runs -/

/-- Without early requests nothing but bytes of the session reaches the client's running half. -/
theorem Session.Settled.clean {t : Session} (h : t.Settled) (hi : t.Inv) : t.Clean := by
  refine ⟨h.swallowed, fun hp => ?_⟩
  rw [← Bool.not_eq_true]
  intro hq
  have hpl := (hi.req hq).1
  rcases hi.sids with hs | hah
  · have := h.waiting hpl hs
    rw [hp] at this
    exact absurd this (by decide)
  · rw [(hi.ahead hah).2.2.1] at hq
    exact absurd hq (by decide)

theorem sessionBound_le (early : Bool) : sessionBound early ≤ byteBound := by
  cases early <;> decide

/-- Within the bound of a session the client's counters tell the numbers apart. -/
theorem fits_of_reach {early : Bool} {t : Session}
    (h : Relation.ReflTransGen (Session.Step early) {} t)
    (hb : t.down.wrote < sessionBound early) : t.Fits := by
  refine ⟨Nat.lt_of_lt_of_le hb (sessionBound_le early), ?_⟩
  cases early with
  | false => exact .inl ((Session.settled_of_reach h).clean (Session.inv_of_reach h))
  | true => exact .inr hb

/-- What a run has logged so far was permitted when it happened. -/
def LogOk (early : Bool) (s : Pair) : Prop :=
  ∀ e ∈ s.log, ∃ t fds, Relation.ReflTransGen (Session.Step early) {} t ∧ EventOk t fds e

/-- The bound on the bytes holds now. -/
def InBound (early : Bool) (s : Pair) : Prop :=
  s.wroteUp < sessionBound early ∧ s.wroteDown < sessionBound early

/-- **One step under the conditions**, from related states. -/
theorem matched_of_follows {early : Bool} {fd : ℕ} {s s' : Pair} {t : Session} {a : Act}
    (ht : Relation.ReflTransGen (Session.Step early) {} t) (h : Rel fd s t) (hb : InBound early s)
    (hrun : RunsInTime s a) (hg : early = false → HandlerAtomic s a ∧ NoEarlyReuse s a)
    (hs : s.step a = some s') : Matched early fd s t s' := by
  have hle := sessionBound_le early
  have hup : t.up.wrote < byteBound := by
    rw [← h.wroteUp]
    exact Nat.lt_of_lt_of_le hb.1 hle
  exact h.step (Session.inv_of_reach ht) hup (fits_of_reach ht (h.wroteDown ▸ hb.2)) hrun hg hs

/-- **Every reachable state of the program refines a reachable state of the protocol**, and all its
events were permitted. -/
theorem refines {early : Bool} {fd : ℕ} {s : Pair} (h : (pairLts fd).Reach (Follows early) s) :
    ∃ t, Relation.ReflTransGen (Session.Step early) {} t ∧
      (Rel fd s t ∧ InBound early s ∧ LogOk early s) := by
  refine h.simulate (R := fun s t => Rel fd s t ∧ InBound early s ∧ LogOk early s) ?_ ?_
  · refine ⟨rel_init fd, ?_, by simp [LogOk, pairLts, Pair.init]⟩
    have hpos : 0 < sessionBound early := by cases early <;> decide
    exact ⟨hpos, hpos⟩
  · rintro s a s' t ht ⟨hr, hb, hl⟩ ⟨hrun, hbound, hg⟩ hs
    obtain ⟨⟨t', ht', hr'⟩, evs, hlog, hev⟩ := matched_of_follows ht hr hb hrun hg hs
    refine ⟨t', ht', hr', hbound s' hs, fun e he => ?_⟩
    rw [hlog] at he
    rcases List.mem_append.1 he with he | he
    · exact hl e he
    · exact ⟨t, s'.localFds, ht, hev e he⟩

end ProxySocket
