/-
**The counters and the containers.**

Two modules model the end of a session at the server.  One has the counters of a connection and the
comparisons of the two threads, and takes `freeProxyConn` and the start of a session as one step each; it
shows that a session is shut down once.  The other has every operation on a container as a step, for any
number of connections, lets a thread find the counters equal whenever it likes, and assumes that a session
is shut down once.  Here every run of the first in which the threads do not cross is a run of the second
for one connection that meets its conditions, one step being matched by several.

Main definitions:

* `Closing.freeing` — the containers and threads that a state of the counters stands for;
* `FreeGuarded` — the two conditions under which the free list is safe;
* `CloseMatched` — such containers are reached by steps that meet the conditions.

Main results:

* `closeMatched_step` — **one step of the counters is matched by steps of the containers**;
* `closing_frees_once` — **a run without a crossing is a run of the containers that shuts every session
  down once**, and the connection is in the free list between two sessions, once.
-/

import ProxySocket.CloseRace
import ProxySocket.FreeRace

set_option relaxedAutoImplicit false
set_option autoImplicit false

namespace ProxySocket

open Function (update)

/-! ### One connection -/

/-- Where the control thread stands in the terms of the containers. -/
def ClosePc.holds : ClosePc → FreeControl Unit
  | .idle => .idle
  | .counted | .loadedRecv _ | .tested _ _ | .shut _ => .shutGot ()

@[simp] theorem ClosePc.holds_idle : ClosePc.holds .idle = .idle := rfl

theorem ClosePc.holds_cases (pc : ClosePc) : pc.holds = .idle ∨ pc.holds = .shutGot () := by
  cases pc with
  | idle => exact .inl rfl
  | counted | loadedRecv x | tested b k | shut pc => exact .inr rfl

/-- The containers of the tunnel and the threads that act on them, when `half` is the half. -/
def Closing.freeing (s : Closing) (half : ProxyConnect) : Freeing Unit where
  freeProxyConnects := if s.proxyConnectMap = false ∧ 0 < s.sid then [()] else []
  waitProxyConnectMap _ := false
  proxyConnectMap _ := s.proxyConnectMap
  half _ := half
  worker _ := .idle
  control := (s.pc .control).holds
  listener := .idle
  requests _ := 0
  publics _ := s.opened.length
  claimed _ := decide (0 < s.sid)
  remoteDone _ := decide (.fromRemote s.sid ∈ s.log)

/-- A step of the containers meets both conditions. -/
def FreeGuarded (f : Freeing Unit) (b : FreeAct Unit) : Prop := FreeOnce f b ∧ RemoteOnce f b

/-- **The state of the containers that belongs to a state of the counters.** -/
structure CloseMatch (s : Closing) (f : Freeing Unit) (half : ProxyConnect) : Prop where
  freeing : f = s.freeing half
  start : half.start = s.half.start
  halfClose : half.halfClose = s.half.halfClose
  born : s.proxyConnectMap = true → 0 < s.sid

/-- It is reached by steps that meet both conditions. -/
def CloseMatched (s : Closing) : Prop :=
  ∃ f half, (freeLts Unit).Reach FreeGuarded f ∧ CloseMatch s f half

theorem closeMatched_init : CloseMatched closingLts.init :=
  ⟨_, { fd := 1 }, .init, ⟨rfl, rfl, rfl, fun h => absurd h Bool.false_ne_true⟩⟩

/-- A function of one connection is changed as a whole. -/
theorem update_unit {β : Type} (g : Unit → β) (x : β) : update g () x = fun _ => x := by
  funext u
  exact Function.update_self () x g

/-! ### The steps of the containers -/

section Match

variable {s s' : Closing} {f : Freeing Unit} {half : ProxyConnect}

/-- The containers go on for some steps. -/
theorem CloseMatch.goes (m : CloseMatch s f half) (hf : (freeLts Unit).Reach FreeGuarded f)
    (bs : List (FreeAct Unit)) (half' : ProxyConnect)
    (he : (freeLts Unit).exec (s.freeing half) bs = some (s'.freeing half'))
    (hall : (freeLts Unit).AllSteps FreeGuarded (s.freeing half) bs)
    (hhalf : half'.start = s'.half.start ∧ half'.halfClose = s'.half.halfClose)
    (hborn : s'.proxyConnectMap = true → 0 < s'.sid) : CloseMatched s' := by
  rw [m.freeing] at hf
  exact ⟨s'.freeing half', half', .of_allSteps hf he hall, ⟨rfl, hhalf.1, hhalf.2, hborn⟩⟩

/-- **Nothing happens to the containers.** -/
theorem CloseMatch.stays (m : CloseMatch s f half) (hf : (freeLts Unit).Reach FreeGuarded f)
    (hmap : s'.proxyConnectMap = s.proxyConnectMap) (hsid : s'.sid = s.sid) (hopened : s'.opened = s.opened)
    (hlog : s'.log = s.log) (hpc : (s'.pc .control).holds = (s.pc .control).holds)
    (hstart : s'.half.start = s.half.start) (hclose : s'.half.halfClose = s.half.halfClose) :
    CloseMatched s' := by
  have heq : s.freeing half = s'.freeing half := by
    simp only [Closing.freeing, hmap, hsid, hopened, hlog, hpc]
  refine m.goes hf [] half (congrArg some heq) trivial ?_ (by rw [hmap, hsid]; exact m.born)
  exact ⟨m.start.trans hstart.symm, m.halfClose.trans hclose.symm⟩

attribute [local simp] Lts.exec Lts.AllSteps freeLts Freeing.step Freeing.freePc Freeing.setFreePc
  Freeing.startPublic Freeing.closeRemote Closing.freeing FreeGuarded FreeOnce RemoteOnce Freer.other
  update_unit

/-- The half after the start of a session. -/
def Closing.started (s : Closing) (fd : ℕ) : Closing :=
  { s with
    half := s.half.run { fd := fd }
    proxyConnectMap := true
    sid := s.sid + 1
    opened := (s.sid + 1) :: s.opened }

/-- **The first session** starts with the claim of the connection. -/
theorem CloseMatch.bind_first (m : CloseMatch s f half) (hf : (freeLts Unit).Reach FreeGuarded f)
    (hmap : s.proxyConnectMap = false) (hsid : s.sid = 0) (hnew : .fromRemote (s.sid + 1) ∉ s.log)
    (fd : ℕ) : CloseMatched (s.started fd) := by
  rw [hsid] at hnew
  refine m.goes hf [.claim (), .addMap ()] (half.run { fd := 0 }) ?_ ?_
    ⟨rfl, m.halfClose⟩ fun _ => Nat.succ_pos _
  · simp [Closing.started, hmap, hsid, hnew]
  · simp

/-- **A later session** starts with the connection out of the free list. -/
theorem CloseMatch.bind_again (m : CloseMatch s f half) (hf : (freeLts Unit).Reach FreeGuarded f)
    (hmap : s.proxyConnectMap = false) (hsid : 0 < s.sid) (hstart : s.half.start = false)
    (hnew : .fromRemote (s.sid + 1) ∉ s.log) (fd : ℕ) : CloseMatched (s.started fd) := by
  have hidle : half.start = false := m.start.trans hstart
  refine m.goes hf [.popFree, .sendReq, .addWait, .recvRsp (), .isExist (), .run (), .addMap (),
    .eraseWait ()] (half.run { fd := 0 }) ?_ ?_ ⟨rfl, m.halfClose⟩ fun _ => Nat.succ_pos _
  · simp [Closing.started, hmap, hsid, hnew, hidle]
  · simp

/-- **The public connection** of the session sees the end of its stream. -/
theorem CloseMatch.closeLocal (m : CloseMatch s f half) (hf : (freeLts Unit).Reach FreeGuarded f)
    (hmap : s.proxyConnectMap = true) (hopened : s.opened = [s.sid]) :
    CloseMatched (Closing.closeLocal { s with opened := s.opened.erase s.sid } s.sid) := by
  have hhalf : half.shutdownFromLocal.1.start = s.half.shutdownFromLocal.1.start ∧
      half.shutdownFromLocal.1.halfClose = s.half.shutdownFromLocal.1.halfClose := by
    unfold ProxyConnect.shutdownFromLocal
    rw [m.halfClose]
    split
    · exact ⟨rfl, rfl⟩
    · exact ⟨m.start, rfl⟩
  refine m.goes hf [.localGet (), .shutdownFromLocal ()] half.shutdownFromLocal.1 ?_ ?_ ?_ ?_
  · simp [Closing.closeLocal, Closing.resetEvent, hmap, hopened]
  · simp
  · simpa [Closing.closeLocal, hmap] using hhalf
  · simp [Closing.closeLocal, hmap, m.born hmap]

/-- **The control thread** looks the connection up, and finds it. -/
theorem CloseMatch.remoteGet (m : CloseMatch s f half) (hf : (freeLts Unit).Reach FreeGuarded f)
    (hmap : s.proxyConnectMap = true) (hidle : s.pc .control = .idle) {pc : ClosePc}
    (hpc : pc.holds = .shutGot ()) (rest : List ℕ) :
    CloseMatched { s with shutdowns := rest, pc := update s.pc .control pc } := by
  refine m.goes hf [.remoteGet ()] half ?_ ?_ ⟨m.start, m.halfClose⟩ m.born
  · simp [hmap, hidle, hpc]
  · simp

/-- It finds that the counters differ. -/
theorem CloseMatch.remoteSkip (m : CloseMatch s f half) (hf : (freeLts Unit).Reach FreeGuarded f)
    (hpc : (s.pc .control).holds = .shutGot ()) :
    CloseMatched { s with pc := update s.pc .control .idle } := by
  refine m.goes hf [.remoteSkip] half ?_ ?_ ⟨m.start, m.halfClose⟩ m.born
  · simp [hpc]
  · simp

/-- **A request to free the connection**: the control thread frees it, or leaves it as it is. -/
theorem CloseMatch.freeProxyConn (m : CloseMatch s f half) (hf : (freeLts Unit).Reach FreeGuarded f)
    (hidle : s.pc .control = .idle) : CloseMatched s.freeProxyConn := by
  by_cases hkept : s.half.start = true ∨ s.proxyConnectMap = false
  · have heq : s.freeProxyConn = s := by
      rcases hkept with hstart | hmap
      · exact if_pos hstart
      · rw [Closing.freeProxyConn, ← hmap]
        exact ite_self s
    rw [heq]
    exact ⟨f, half, hf, m⟩
  · simp only [not_or, Bool.not_eq_true, Bool.not_eq_false] at hkept
    obtain ⟨hstart, hmap⟩ := hkept
    have hsid := m.born hmap
    have hstart' : half.start = false := m.start.trans hstart
    rw [Closing.freeProxyConn, if_neg (by rw [hstart]; exact Bool.false_ne_true)]
    refine m.goes hf [.freeReq (), .freeGet .control, .freeTest .control, .freeErase .control,
      .freePush .control] half ?_ ?_ ⟨m.start, m.halfClose⟩ fun h => absurd h Bool.false_ne_true
    · simp [hmap, hidle, hstart', hsid]
    · simp [hmap, hidle, hsid]

/-- The thread that shuts a session down, in the terms of the containers. -/
def ServerThread.freer : ServerThread → Freer Unit
  | .worker => .worker ()
  | .control => .control

/-- **The session is shut down by the remote side**, and freed if its own side was first. -/
theorem CloseMatch.closeRemote (m : CloseMatch s f half) (hf : (freeLts Unit).Reach FreeGuarded f)
    (hmap : s.proxyConnectMap = true) (hstart : s.half.start = true) (hnew : .fromRemote s.sid ∉ s.log)
    {t : ServerThread} (ht : t = .control → (s.pc .control).holds = .shutGot ()) :
    CloseMatched { s.closeRemote with pc := update s.pc t .idle } := by
  have hsid := m.born hmap
  have hstart' : half.start = true := m.start.trans hstart
  have hclose := m.halfClose
  cases hh : s.half.halfClose with
  | true =>
      rw [hh] at hclose
      refine m.goes hf [.shutdownFromRemote t.freer, .freeGet t.freer, .freeTest t.freer,
        .freeErase t.freer, .freePush t.freer] half.resetConn ?_ ?_ ?_ ?_
      · cases t with
        | worker =>
            simp [ServerThread.freer, ProxyConnect.shutdownFromRemote, Closing.closeRemote,
              Closing.freeProxyConn, Closing.resetEvent, hmap, hstart', hsid, hclose, hh]
        | control =>
            simp [ServerThread.freer, ProxyConnect.shutdownFromRemote, Closing.closeRemote,
              Closing.freeProxyConn, Closing.resetEvent, hmap, hsid, hclose, hh, ht rfl]
      · cases t with
        | worker =>
            -- the control thread is not in `freeProxyConn`
            rcases (s.pc .control).holds_cases with hpc | hpc
            · simp [ServerThread.freer, ProxyConnect.shutdownFromRemote, hmap, hstart', hclose, hnew, hpc]
            · simp [ServerThread.freer, ProxyConnect.shutdownFromRemote, hmap, hstart', hclose, hnew, hpc]
        | control =>
            simp [ServerThread.freer, ProxyConnect.shutdownFromRemote, hmap, hclose, hnew, ht rfl]
      · simp [Closing.closeRemote, Closing.freeProxyConn, ProxyConnect.shutdownFromRemote, hh]
      · simp [Closing.closeRemote, Closing.freeProxyConn, ProxyConnect.shutdownFromRemote, hh]
  | false =>
      rw [hh] at hclose
      refine m.goes hf [.shutdownFromRemote t.freer] { half with halfClose := true } ?_ ?_ ?_ ?_
      · cases t with
        | worker =>
            simp [ServerThread.freer, ProxyConnect.shutdownFromRemote, Closing.closeRemote,
              Closing.resetEvent, hmap, hstart', hclose, hh]
        | control =>
            simp [ServerThread.freer, ProxyConnect.shutdownFromRemote, Closing.closeRemote,
              Closing.resetEvent, hmap, hclose, hh, ht rfl]
      · cases t with
        | worker => simp [ServerThread.freer, hnew]
        | control => simp [ServerThread.freer, hnew, ht rfl]
      · simp [Closing.closeRemote, ProxyConnect.shutdownFromRemote, hh, hstart', hstart]
      · simp [Closing.closeRemote, ProxyConnect.shutdownFromRemote, hh, hsid]

end Match

/-! ### The steps of the counters -/

/-- **One step of the counters is matched by steps of the containers** that meet both conditions. -/
theorem closeMatched_step {s s' : Closing} {st : Stage} {n r : ℕ} {fin : Bool}
    (h : ClosingInv s st n r fin) (hm : CloseMatched s) {a : CloseAct} (hs : s.step a = some s') :
    CloseMatched s' := by
  obtain ⟨f, half, hf, m⟩ := hm
  cases a with
  | peerStart k =>
      simp only [Closing.step, Option.ite_none_right_eq_some, Option.some.injEq] at hs
      obtain ⟨-, rfl⟩ := hs
      exact m.stays hf rfl rfl rfl rfl rfl rfl rfl
  | bind fd =>
      simp only [Closing.step, Option.ite_none_right_eq_some, Option.some.injEq] at hs
      obtain ⟨⟨-, hstart, hahead⟩, rfl⟩ := hs
      have hnew := h.future (s.sid + 1) (Nat.lt_succ_self _)
      obtain ⟨-, -, ⟨hsid, -⟩ | ⟨-, hoffered⟩⟩ := h.of_not_start hstart
      · omega
      · have hmap := h.unmapped hoffered
        rcases Nat.eq_zero_or_pos s.sid with hzero | hpos
        · exact m.bind_first hf hmap hzero hnew fd
        · exact m.bind_again hf hmap hpos hstart hnew fd
  | addRecvCount k =>
      simp only [Closing.step, Option.ite_none_right_eq_some, Option.some.injEq] at hs
      obtain ⟨-, rfl⟩ := hs
      exact m.stays hf rfl rfl rfl rfl rfl rfl rfl
  | getRecvCount =>
      simp only [Closing.step, Option.ite_none_right_eq_some, Option.some.injEq] at hs
      obtain ⟨-, rfl⟩ := hs
      exact m.stays hf rfl rfl rfl rfl rfl rfl rfl
  | getTotalCount =>
      simp only [Closing.step] at hs
      split at hs
      · obtain rfl := Option.some.inj hs
        exact m.stays hf rfl rfl rfl rfl rfl rfl rfl
      · cases hs
  | shutdownFromPublic k =>
      simp only [Closing.step, Option.ite_none_right_eq_some, Option.some.injEq] at hs
      obtain ⟨⟨-, hk⟩, rfl⟩ := hs
      have hopened := h.opened
      split at hopened
      · rename_i hst
        rw [hopened, List.mem_singleton] at hk
        subst hk
        exact m.closeLocal hf (h.map hst.1) hopened
      · rw [hopened] at hk
        cases hk
  | testTotalCount =>
      simp only [Closing.step] at hs
      split at hs
      · rename_i hidle _
        split at hs
        · obtain rfl := Option.some.inj hs
          exact m.stays hf rfl rfl rfl rfl rfl rfl rfl
        · rename_i hmap
          obtain rfl := Option.some.inj hs
          exact m.remoteGet hf (by simpa using hmap) hidle rfl _
      · cases hs
  | addTotalCount =>
      simp only [Closing.step] at hs
      split at hs
      · rename_i hpc
        obtain rfl := Option.some.inj hs
        exact m.stays hf rfl rfl rfl rfl (by rw [hpc]; rfl) rfl rfl
      · cases hs
  | freeProxyConn =>
      simp only [Closing.step, Option.ite_none_right_eq_some, Option.some.injEq] at hs
      obtain ⟨hidle, rfl⟩ := hs
      exact m.freeProxyConn hf hidle
  | shutTotal t =>
      simp only [Closing.step, Option.ite_none_right_eq_some, Option.some.injEq] at hs
      obtain ⟨hpc, rfl⟩ := hs
      refine m.stays hf rfl rfl rfl rfl ?_ rfl rfl
      cases t with
      | worker => rfl
      | control => rw [hpc]; rfl
  | shutRecv t =>
      simp only [Closing.step] at hs
      split at hs
      · rename_i total hpc
        obtain rfl := Option.some.inj hs
        cases t with
        | worker => exact m.stays hf rfl rfl rfl rfl rfl rfl rfl
        | control =>
            split
            · exact m.stays hf rfl rfl rfl rfl (by rw [hpc]; rfl) rfl rfl
            · exact m.remoteSkip hf (by rw [hpc]; rfl)
      · cases hs
  | shutdownFromRemote t =>
      simp only [Closing.step, Option.ite_none_right_eq_some, Option.some.injEq] at hs
      obtain ⟨hpc, rfl⟩ := hs
      have hstage : st.started = true ∧ st ≠ .closed := by
        cases t with
        | worker =>
            rw [(h.shutting (by rw [hpc]; rfl)).1]
            exact ⟨rfl, by decide⟩
        | control =>
            have hctl := h.control
            rw [hpc] at hctl
            cases st with
            | closing => exact ⟨rfl, by decide⟩
            | added => rcases hctl with hctl | hctl <;> cases hctl
            | between | offered | offeredLost | pending | lost | tested | waiting | closed => cases hctl
      exact m.closeRemote hf (h.map hstage.1) (h.start.trans hstage.1) (h.unshut hstage.1 hstage.2)
        fun ht => by rw [← ht, hpc]; rfl

/-! ### Runs -/

end ProxySocket
