/-
**How long the controls and the tunnels of the server live.**

The server owns its objects through shared pointers.  `control_map_` has one to each control, a control has
one to its `CtlConnect` and, in `tunnel_map_`, to each of its tunnels; a tunnel has one to its control; and
`fd_channel_` of a loop has one to each channel that was added to it.  The handlers of the channels, on the
other hand, are bound to plain pointers: to the `CtlConnect`, and to the tunnel.

`~Connect` takes the channel out of the `epoll`, but leaves it in `fd_channel_`.  `~Tunnel` does neither.  The
descriptor of a channel is closed by `~Channel`.  The descriptors are below `MAXFD`, and `epoll_ctl(2)` adds
each of them.

Main definitions:

* `ServerObj` — the objects;
* `Lifetime`, `lifetimeLts` — the containers with the counts, the main thread, the thread that listens for
  public connections, and the calls of `claimProxyConn`;
* `Lifetime.Kept` — what the containers keep.

Main results:

* `LifetimeInv.kept_supported`, `LifetimeInv.kept_of_control_mem` — what the containers keep is the greatest
  supported set;
* `LifetimeInv.step` — the counts are right, in every run;
* `lifetimes` — **who lives**: a control with a tunnel forever, any other one as long as it is listed or
  claimed; and no descriptor is ever closed.
-/

import ProxySocket.Lts
import ProxySocket.CString
import ProxySocket.RefCount
import ProxySocket.UseCount

set_option relaxedAutoImplicit false
set_option autoImplicit false

namespace ProxySocket

open Function (update)

/-! ### The objects and the containers -/

/-- The objects that belong to a control. -/
inductive ServerObj
  | control (j : ℕ)
  | ctlConnect (j : ℕ)
  /-- `channel_` of the `CtlConnect` -/
  | ctlChannel (j : ℕ)
  | tunnel (t : ℕ)
  /-- `acceptor_` of the tunnel -/
  | acceptor (t : ℕ)
deriving DecidableEq, Repr

/-- The loops that have channels of them. -/
inductive PollLoop
  | main
  /-- the loop of `publicListenThread_` -/
  | publicListen
deriving DecidableEq, Repr

/-- The loop that a channel is added to. -/
def ServerObj.loop : ServerObj → Option PollLoop
  | .ctlChannel _ => some .main
  | .acceptor _ => some .publicListen
  | .control _ | .ctlConnect _ | .tunnel _ => none

/-- The server with its controls and tunnels. -/
structure Lifetime where
  heap : RefHeap ServerObj := {}
  /-- the ids of the controls, and the descriptors of their connections -/
  controls : List (Str × ℕ) := []
  controlMap : ConnMap Str ℕ := ∅
  /-- `ctl_` of the tunnels, and the descriptors that they listen at, if they do -/
  tunnels : List (ℕ × Option ℕ) := []
  tunnelMap : ℕ → ConnMap Str ℕ := fun _ => ∅
  fdChannel : ConnMap (PollLoop × ℕ) ServerObj := ∅
  /-- `ready_channels` of the main thread, and those that it has not come to -/
  ready : List ℕ := []
  todo : List ℕ := []
  /-- `ctl` and `tun` of the calls of `claimProxyConn` -/
  claims : List (ℕ × Option ℕ) := []
  /-- a handler was called for an object that was destroyed -/
  fault : Bool := false

/-- What happens. -/
inductive LifeAct
  /-- `newCtlConnHandler` gets a descriptor, with an id that `control_map_` does not have -/
  | newCtlConn (ctlId : Str) (fd : ℕ)
  /-- `ready_channels = poller_->WaitChannels()` in the main thread -/
  | waitChannels (js : List ℕ)
  /-- `HandleEvents` of the next channel, with a `NewTunnelReq` that it reads, and whether it calls
  `handleCtlConnClose` -/
  | handleEvents (req : Option (Str × Option ℕ)) (close : Bool)
  /-- `newPublicConnHandler` of a tunnel -/
  | newPublicConn (t : ℕ)
  /-- `claimProxyConn`: `SP_Control ctl = control_map_[ctl_id]` -/
  | claim (ctlId : Str)
  /-- `claimProxyConn`: `SP_Tunnel tun = (ctl->tunnel_map_).get(tun_id)`, or the `return` before it -/
  | claimTunnel (k : ℕ) (tunId : Str)
  /-- `claimProxyConn` returns -/
  | claimEnd (k : ℕ)
deriving DecidableEq

/-- The shared pointers of one call of `claimProxyConn`. -/
def claimRoots (c : ℕ × Option ℕ) : List ServerObj := c.2.toList.map .tunnel ++ [.control c.1]

namespace Lifetime

variable (s : Lifetime)

/-- The shared pointers that are members of an object. -/
def refs : ServerObj → List ServerObj
  | .control j => .ctlConnect j :: (s.tunnelMap j).conns.map .tunnel
  | .ctlConnect j => [.ctlChannel j]
  | .tunnel t => s.tunnels[t]?.elim [] fun c => [.acceptor t, .control c.1]
  | .ctlChannel _ | .acceptor _ => []

/-- The other shared pointers. -/
def roots : List ServerObj :=
  s.controlMap.conns.map .control ++ (s.fdChannel.conns ++ (s.ready.map .ctlChannel ++
    s.claims.flatMap claimRoots))

/-- The descriptor of a channel. -/
def fd? : ServerObj → Option ℕ
  | .ctlChannel j => s.controls[j]?.map Prod.snd
  | .acceptor t => s.tunnels[t]?.bind Prod.snd
  | .control _ | .ctlConnect _ | .tunnel _ => none

/-- The descriptor has not been closed. -/
def Opened (fd : ℕ) : Prop := ∃ x ∈ s.heap.live, s.fd? x = some fd

instance (fd : ℕ) : Decidable (s.Opened fd) := inferInstanceAs (Decidable (∃ x ∈ s.heap.live, _))

/-- `PollAdd`: `fd_channel_[fd] = channel`, for a descriptor below `MAXFD` that `epoll_ctl(2)` adds. -/
def pollAdd (l : PollLoop) (fd : ℕ) (x : ServerObj) : Lifetime :=
  { s with
    heap := (s.heap.acquire x).drop s.refs (AList.lookup (l, fd) s.fdChannel).toList
    fdChannel := AList.insert (l, fd) x s.fdChannel }

/-- The constructor of `Control`, and `control_map_.emplace(ctl_id, ctl)`. -/
def newCtlConn (ctlId : Str) (fd : ℕ) : Lifetime :=
  let j := s.controls.length
  { s with
    heap := ((s.heap.make (.ctlChannel j)).make (.ctlConnect j)).make (.control j)
    controls := s.controls ++ [(ctlId, fd)]
    controlMap := s.controlMap.add ctlId j }.pollAdd .main fd (.ctlChannel j)

/-- The constructor of `Tunnel`, up to `AddChannel(acceptor_)`, which fails without a descriptor. -/
def newTunnel (j : ℕ) (listen : Option ℕ) : Lifetime :=
  let t := s.tunnels.length
  let s : Lifetime := { s with
    heap := ((s.heap.acquire (.control j)).make (.acceptor t)).make (.tunnel t)
    tunnels := s.tunnels ++ [(j, listen)] }
  listen.elim s fun fd => s.pollAdd .publicListen fd (.acceptor t)

/-- `addtoTunnel` with the last tunnel, and the end of the pointer to it. -/
def addtoTunnel (j : ℕ) (tunId : Str) (t : ℕ) : Lifetime :=
  if AList.lookup tunId (s.tunnelMap j) = none then
    { s with tunnelMap := update s.tunnelMap j ((s.tunnelMap j).add tunId t) }
  else { s with heap := s.heap.drop s.refs [.tunnel t] }

/-- `Control::handleNewTunnelReq`. -/
def handleNewTunnelReq (j : ℕ) (tunId : Str) (listen : Option ℕ) : Lifetime :=
  (s.newTunnel j listen).addtoTunnel j tunId s.tunnels.length

/-- The control that `handleCtlConnClose` of the control `j` erases: the one that has the id. -/
def listedAs (j : ℕ) : Option ℕ := s.controls[j]?.bind fun c => AList.lookup c.1 s.controlMap

/-- `CtlConnect::HandlerEvery` calls `handleCtlConnClose`, with a pointer to the `CtlConnect`. -/
def handleCtlConnClose (j : ℕ) : Lifetime :=
  { s with
    heap := (s.heap.acquire (.ctlConnect j)).drop s.refs
      ((s.listedAs j).toList.map .control ++ [.ctlConnect j])
    controlMap := s.controls[j]?.elim s.controlMap fun c => AList.erase c.1 s.controlMap }

/-- `ready_channels.clear()`, and the next ones. -/
def waitChannels (js : List ℕ) : Lifetime :=
  { s with
    heap := (js.map ServerObj.ctlChannel).foldl RefHeap.acquire
      (s.heap.drop s.refs (s.ready.map .ctlChannel))
    ready := js
    todo := js }

/-- A step of a server that runs.  The `epoll` of the main thread has the connections that were not
destroyed. -/
def stepLive : LifeAct → Option Lifetime
  | .newCtlConn ctlId fd =>
      if AList.lookup ctlId s.controlMap = none ∧ ¬ s.Opened fd then some (s.newCtlConn ctlId fd) else none
  | .waitChannels js =>
      if s.todo = [] ∧ js.Nodup ∧ ∀ j ∈ js, .ctlConnect j ∈ s.heap.live then some (s.waitChannels js)
      else none
  | .handleEvents req close =>
      match s.todo with
      | [] => none
      | j :: rest =>
          if ∀ c ∈ req, ∀ fd ∈ c.2, ¬ s.Opened fd then
            if .ctlConnect j ∈ s.heap.live then
              let s := { s with todo := rest }
              let s := req.elim s fun c => s.handleNewTunnelReq j c.1 c.2
              some (if close = true then s.handleCtlConnClose j else s)
            else some { s with fault := true }
          else none
  | .newPublicConn t =>
      -- the socket is in the `epoll` as long as it is open
      if (s.fd? (.acceptor t)).isSome = true ∧ .acceptor t ∈ s.heap.live then
        some (if .tunnel t ∈ s.heap.live then s else { s with fault := true })
      else none
  | .claim ctlId =>
      (AList.lookup ctlId s.controlMap).map fun j =>
        { s with heap := s.heap.acquire (.control j), claims := s.claims ++ [(j, none)] }
  | .claimTunnel k tunId =>
      match s.claims[k]? with
      | some (j, none) =>
          match AList.lookup tunId (s.tunnelMap j) with
          | some t =>
              some { s with heap := s.heap.acquire (.tunnel t), claims := s.claims.set k (j, some t) }
          | none =>
              some { s with
                heap := s.heap.drop s.refs (claimRoots (j, none))
                claims := s.claims.eraseIdx k }
      | _ => none
  | .claimEnd k =>
      match s.claims[k]? with
      | some (j, some t) =>
          some { s with
            heap := s.heap.drop s.refs (claimRoots (j, some t))
            claims := s.claims.eraseIdx k }
      | _ => none

/-- One step, unless a handler was called for an object that was destroyed. -/
def step (a : LifeAct) : Option Lifetime := if s.fault = false then s.stepLive a else none

/-! ### What the containers keep -/

/-- `control_map_` has the control. -/
def Listed (j : ℕ) : Prop := ∃ ctlId, AList.lookup ctlId s.controlMap = some j

/-- `tunnel_map_` of the control has a tunnel. -/
def HasTunnel (j : ℕ) : Prop := ∃ tunId t, AList.lookup tunId (s.tunnelMap j) = some t

/-- A call of `claimProxyConn` has the control. -/
def Claimed (j : ℕ) : Prop := ∃ c ∈ s.claims, c.1 = j

/-- The `tunnel_map_` of a control has the tunnel. -/
def Mapped (t : ℕ) : Prop := ∃ j tunId, AList.lookup tunId (s.tunnelMap j) = some t

/-- What the containers keep. -/
def Kept : ServerObj → Prop
  | .control j | .ctlConnect j => s.Listed j ∨ s.HasTunnel j ∨ s.Claimed j
  | .ctlChannel j => j < s.controls.length
  | .tunnel t => s.Mapped t
  | .acceptor t => s.Mapped t ∨ (s.fd? (.acceptor t)).isSome = true

end Lifetime

/-- A server without clients. -/
def lifetimeLts : Lts Lifetime LifeAct where
  init := {}
  step := Lifetime.step

/-! ### The invariant -/

namespace Lifetime

/-- The object has been made. -/
def Created (s : Lifetime) : ServerObj → Prop
  | .control j | .ctlConnect j | .ctlChannel j => j < s.controls.length
  | .tunnel t | .acceptor t => t < s.tunnels.length

theorem Created.mono {s s' : Lifetime} {x : ServerObj} (h : s.Created x)
    (hcontrols : s.controls.length ≤ s'.controls.length) (htunnels : s.tunnels.length ≤ s'.tunnels.length) :
    s'.Created x := by
  cases x with
  | control j => exact Nat.lt_of_lt_of_le h hcontrols
  | ctlConnect j => exact Nat.lt_of_lt_of_le h hcontrols
  | ctlChannel j => exact Nat.lt_of_lt_of_le h hcontrols
  | tunnel t => exact Nat.lt_of_lt_of_le h htunnels
  | acceptor t => exact Nat.lt_of_lt_of_le h htunnels

end Lifetime

/-- **The invariant**, while the pointers `xs` are in local variables of the thread that makes a step. -/
structure LifetimeInv (xs : List ServerObj) (s : Lifetime) : Prop where
  counted : s.heap.Counted s.refs (xs ++ s.roots)
  kept : ∀ x, s.Kept x → x ∈ s.heap.live
  created : ∀ x ∈ s.heap.live, s.Created x
  listed : ∀ ctlId j, AList.lookup ctlId s.controlMap = some j → j < s.controls.length
  mapped : ∀ j tunId (t : ℕ), AList.lookup tunId (s.tunnelMap j) = some t →
    ∃ l, s.tunnels[t]? = some (j, l)
  tunnels : ∀ (t j : ℕ) l, s.tunnels[t]? = some (j, l) → j < s.controls.length
  channels : ∀ l fd x, AList.lookup (l, fd) s.fdChannel = some x ↔ s.fd? x = some fd ∧ x.loop = some l
  claims : ∀ c ∈ s.claims, c.1 < s.controls.length ∧
    ∀ t, c.2 = some t → ∃ tunId, AList.lookup tunId (s.tunnelMap c.1) = some t
  ready : ∀ j ∈ s.ready, j < s.controls.length

namespace LifetimeInv

variable {s s' : Lifetime} {xs ys : List ServerObj} {x : ServerObj} {j t : ℕ}

theorem init : LifetimeInv [] lifetimeLts.init where
  counted := RefHeap.Counted.init _
  kept x hx := by
    cases x with
    | control j =>
        simp [lifetimeLts, Lifetime.Kept, Lifetime.Listed, Lifetime.HasTunnel, Lifetime.Claimed] at hx
    | ctlConnect j =>
        simp [lifetimeLts, Lifetime.Kept, Lifetime.Listed, Lifetime.HasTunnel, Lifetime.Claimed] at hx
    | ctlChannel j => exact absurd hx (Nat.not_lt_zero j)
    | tunnel t => simp [lifetimeLts, Lifetime.Kept, Lifetime.Mapped] at hx
    | acceptor t => simp [lifetimeLts, Lifetime.Kept, Lifetime.Mapped, Lifetime.fd?] at hx
  created x hx := absurd hx (Finset.notMem_empty x)
  listed ctlId j h := by simp [lifetimeLts] at h
  mapped j tunId t h := by simp [lifetimeLts] at h
  tunnels t j l h := by simp [lifetimeLts] at h
  channels l fd x := by cases x <;> simp [lifetimeLts, Lifetime.fd?]
  claims c hc := by simp [lifetimeLts] at hc
  ready j hj := by simp [lifetimeLts] at hj

/-! ### Who is kept -/

theorem perm (h : LifetimeInv xs s) (hp : ys.Perm xs) : LifetimeInv ys s :=
  { h with counted := h.counted.perm (hp.append_right _) }

theorem mem_refs_tunnel {l : Option ℕ} (ht : s.tunnels[t]? = some (j, l)) :
    s.refs (.tunnel t) = [.acceptor t, .control j] := by
  rw [Lifetime.refs, ht, Option.elim_some]

theorem control_mem_roots (hj : s.Listed j ∨ s.Claimed j) : .control j ∈ s.roots := by
  simp only [Lifetime.roots, List.mem_append, List.mem_flatMap]
  rcases hj with ⟨ctlId, hlook⟩ | ⟨c, hc, rfl⟩
  · exact .inl (List.mem_map_of_mem (ConnMap.mem_conns_iff.2 ⟨ctlId, hlook⟩))
  · exact .inr (.inr (.inr ⟨c, hc, List.mem_append_right _ (List.mem_singleton_self _)⟩))

theorem channel_mem_roots (h : LifetimeInv xs s) {fd : ℕ} {l : PollLoop} (hfd : s.fd? x = some fd)
    (hl : x.loop = some l) : x ∈ s.roots := by
  simp only [Lifetime.roots, List.mem_append]
  exact .inr (.inl (ConnMap.mem_conns_iff.2 ⟨(l, fd), (h.channels l fd x).2 ⟨hfd, hl⟩⟩))

/-- **What the containers keep is supported.** -/
theorem kept_supported (h : LifetimeInv xs s) : Supported s.refs s.roots {x | s.Kept x} := by
  intro x hx
  cases x with
  | control j =>
      obtain hj | ⟨tunId, t, hlook⟩ | hj : s.Listed j ∨ s.HasTunnel j ∨ s.Claimed j := hx
      · exact .inl (control_mem_roots (.inl hj))
      · obtain ⟨l, ht⟩ := h.mapped j tunId t hlook
        refine .inr ⟨.tunnel t, ⟨j, tunId, hlook⟩, ?_⟩
        rw [mem_refs_tunnel ht]
        exact List.mem_cons_of_mem _ (List.mem_singleton_self _)
      · exact .inl (control_mem_roots (.inr hj))
  | ctlConnect j => exact .inr ⟨.control j, hx, List.mem_cons_self⟩
  | ctlChannel j =>
      have hj : j < s.controls.length := hx
      have hfd : s.fd? (.ctlChannel j) = some s.controls[j].2 := by
        rw [Lifetime.fd?, List.getElem?_eq_getElem hj, Option.map_some]
      exact .inl (h.channel_mem_roots hfd (l := .main) rfl)
  | tunnel t =>
      obtain ⟨j, tunId, hlook⟩ : s.Mapped t := hx
      refine .inr ⟨.control j, .inr (.inl ⟨tunId, t, hlook⟩), List.mem_cons_of_mem _ ?_⟩
      exact List.mem_map_of_mem (ConnMap.mem_conns_iff.2 ⟨tunId, hlook⟩)
  | acceptor t =>
      obtain ⟨j, tunId, hlook⟩ | hfd : s.Mapped t ∨ (s.fd? (.acceptor t)).isSome = true := hx
      · obtain ⟨l, ht⟩ := h.mapped j tunId t hlook
        refine .inr ⟨.tunnel t, ⟨j, tunId, hlook⟩, ?_⟩
        rw [mem_refs_tunnel ht]
        exact List.mem_cons_self
      · obtain ⟨fd, hfd⟩ := Option.isSome_iff_exists.1 hfd
        exact .inl (h.channel_mem_roots hfd (l := .publicListen) rfl)

/-- A tunnel that exists is in a map. -/
theorem mapped_of_mem (h : LifetimeInv [] s) (ht : .tunnel t ∈ s.heap.live) : s.Mapped t := by
  rcases h.counted.supported _ ht with hroot | ⟨y, -, hmem⟩
  · simp only [List.nil_append, Lifetime.roots, List.mem_append, List.mem_map, reduceCtorEq, and_false,
      exists_false, List.mem_flatMap, false_or] at hroot
    rcases hroot with hchan | ⟨c, hc, hmem⟩
    · obtain ⟨⟨l, fd⟩, hlook⟩ := ConnMap.mem_conns_iff.1 hchan
      have hfd := ((h.channels l fd _).1 hlook).2
      cases hfd
    · simp only [claimRoots, List.mem_append, List.mem_map, Option.mem_toList,
        ServerObj.tunnel.injEq, exists_eq_right, List.mem_singleton, reduceCtorEq, or_false] at hmem
      obtain ⟨tunId, hlook⟩ := (h.claims c hc).2 t hmem
      exact ⟨c.1, tunId, hlook⟩
  · cases y with
    | control j =>
        simp only [Lifetime.refs, List.mem_cons, reduceCtorEq, List.mem_map, ServerObj.tunnel.injEq,
          exists_eq_right, false_or] at hmem
        obtain ⟨tunId, hlook⟩ := ConnMap.mem_conns_iff.1 hmem
        exact ⟨j, tunId, hlook⟩
    | tunnel t' => cases ht' : s.tunnels[t']? <;> simp [Lifetime.refs, ht'] at hmem
    | ctlConnect j => simp [Lifetime.refs] at hmem
    | ctlChannel j => simp [Lifetime.refs] at hmem
    | acceptor t => simp [Lifetime.refs] at hmem

/-- A control that exists is listed or claimed, or has a tunnel. -/
theorem kept_of_control_mem (h : LifetimeInv [] s) (hj : .control j ∈ s.heap.live) :
    s.Listed j ∨ s.HasTunnel j ∨ s.Claimed j := by
  rcases h.counted.supported _ hj with hroot | ⟨y, hy, hmem⟩
  · simp only [List.nil_append, Lifetime.roots, List.mem_append, List.mem_map, ServerObj.control.injEq,
      exists_eq_right, reduceCtorEq, and_false, exists_false, List.mem_flatMap, false_or] at hroot
    rcases hroot with hlist | hchan | ⟨c, hc, hmem⟩
    · exact .inl (ConnMap.mem_conns_iff.1 hlist)
    · obtain ⟨⟨l, fd⟩, hlook⟩ := ConnMap.mem_conns_iff.1 hchan
      have hfd := ((h.channels l fd _).1 hlook).2
      cases hfd
    · simp only [claimRoots, List.mem_append, List.mem_map, reduceCtorEq, and_false, exists_false,
        List.mem_singleton, ServerObj.control.injEq, false_or] at hmem
      exact .inr (.inr ⟨c, hc, hmem.symm⟩)
  · cases y with
    | tunnel t =>
        obtain ⟨k, tunId, hlook⟩ := h.mapped_of_mem hy
        obtain ⟨l, ht⟩ := h.mapped k tunId t hlook
        rw [mem_refs_tunnel ht] at hmem
        simp only [List.mem_cons, reduceCtorEq, ServerObj.control.injEq, List.not_mem_nil, or_false,
          false_or] at hmem
        rw [hmem]
        exact .inr (.inl ⟨tunId, t, hlook⟩)
    | control k => simp [Lifetime.refs] at hmem
    | ctlConnect k => simp [Lifetime.refs] at hmem
    | ctlChannel k => simp [Lifetime.refs] at hmem
    | acceptor t => simp [Lifetime.refs] at hmem

/-! ### Local pointers -/

/-- **Local pointers end.** -/
theorem drop (h : LifetimeInv (ys ++ xs) s) :
    LifetimeInv xs { s with heap := s.heap.drop s.refs ys } := by
  have hcounted : s.heap.Counted s.refs (ys ++ (xs ++ s.roots)) := by
    rw [← List.append_assoc]
    exact h.counted
  have hsup : Supported s.refs (xs ++ s.roots) {x | s.Kept x} :=
    h.kept_supported.mono fun _ hx => List.mem_append_right _ hx
  exact { h with
    counted := hcounted.drop
    kept := fun x hx => hcounted.mem_drop h.kept hsup hx
    created := fun x hx => h.created x (hcounted.of_mem_drop hx) }

/-- A pointer is copied into a local variable. -/
theorem acquire (h : LifetimeInv xs s) (hx : x ∈ s.heap.live) :
    LifetimeInv (x :: xs) { s with heap := s.heap.acquire x } :=
  { h with counted := h.counted.acquire hx }

theorem acquireAll (h : LifetimeInv xs s) (hys : ∀ y ∈ ys, y ∈ s.heap.live) :
    LifetimeInv (ys ++ xs) { s with heap := ys.foldl RefHeap.acquire s.heap } := by
  induction ys generalizing s xs with
  | nil => exact h
  | cons y ys ih =>
      have hall := ih (h.acquire (hys y List.mem_cons_self)) fun z hz => hys z (List.mem_cons_of_mem _ hz)
      exact hall.perm List.perm_middle.symm

/-- A local pointer points to something that exists. -/
theorem mem_of_local (h : LifetimeInv xs s) (hx : x ∈ xs) : x ∈ s.heap.live :=
  h.counted.mem_of_root (List.mem_append_left _ hx)

/-- The slot of a descriptor that is not in use is empty. -/
theorem lookup_channel_eq_none (h : LifetimeInv xs s) {fd : ℕ} (hfree : ¬ s.Opened fd) (l : PollLoop) :
    AList.lookup (l, fd) s.fdChannel = none := by
  by_contra hne
  obtain ⟨x, hx⟩ := Option.ne_none_iff_exists'.1 hne
  obtain ⟨hfd, hl⟩ := (h.channels l fd x).1 hx
  have hmem := h.channel_mem_roots hfd hl
  exact hfree ⟨x, h.counted.mem_of_root (List.mem_append_right _ hmem), hfd⟩

/-- A slot that is empty is filled. -/
theorem pollAdd_eq {l : PollLoop} {fd : ℕ}
    (hnone : AList.lookup (l, fd) s.fdChannel = none) :
    s.pollAdd l fd x = { s with
      heap := s.heap.acquire x
      fdChannel := AList.insert (l, fd) x s.fdChannel } := by
  rw [Lifetime.pollAdd, hnone, Option.toList_none, RefHeap.drop_nil]

/-! ### New objects -/

/-- A channel that is new gets into its slot. -/
theorem channels_insert (h : LifetimeInv xs s) {l₀ : PollLoop} {fd : ℕ} {y : ServerObj}
    (hnone : AList.lookup (l₀, fd) s.fdChannel = none) (hy : y.loop = some l₀)
    (hfd : ∀ x fd', s'.fd? x = some fd' ↔ s.fd? x = some fd' ∨ x = y ∧ fd' = fd)
    (l : PollLoop) (fd' : ℕ) (x : ServerObj) :
    AList.lookup (l, fd') (AList.insert (l₀, fd) y s.fdChannel) = some x ↔
      s'.fd? x = some fd' ∧ x.loop = some l := by
  rw [hfd]
  by_cases hk : (l, fd') = (l₀, fd)
  · obtain ⟨rfl, rfl⟩ := Prod.mk.injEq .. ▸ hk
    rw [AList.lookup_insert, Option.some.injEq]
    constructor
    · rintro rfl
      exact ⟨.inr ⟨rfl, rfl⟩, hy⟩
    · rintro ⟨hold | ⟨rfl, -⟩, hl⟩
      · rw [(h.channels l fd' x).2 ⟨hold, hl⟩] at hnone
        cases hnone
      · rfl
  · rw [AList.lookup_insert_ne hk, h.channels]
    refine and_congr_left fun hl => (or_iff_left ?_).symm
    rintro ⟨rfl, rfl⟩
    rw [hy] at hl
    exact hk (by rw [Option.some.inj hl])

theorem not_mem_of_not_created (h : LifetimeInv xs s) (hx : ¬ s.Created x) : x ∉ s.heap.live :=
  fun hmem => hx (h.created x hmem)

/-- The descriptor of a new control is that of its channel. -/
theorem fd?_concat_controls (s : Lifetime) (c : Str × ℕ) (x : ServerObj) (fd : ℕ) :
    ({ s with controls := s.controls ++ [c] } : Lifetime).fd? x = some fd ↔
      s.fd? x = some fd ∨ x = .ctlChannel s.controls.length ∧ fd = c.2 := by
  cases x with
  | ctlChannel k =>
      simp only [Lifetime.fd?, Option.map_eq_some_iff, getElem?_concat_iff, ServerObj.ctlChannel.injEq]
      constructor
      · rintro ⟨c, hc | ⟨rfl, rfl⟩, rfl⟩
        · exact .inl ⟨c, hc, rfl⟩
        · exact .inr ⟨rfl, rfl⟩
      · rintro (⟨c, hc, rfl⟩ | ⟨rfl, rfl⟩)
        · exact ⟨c, .inl hc, rfl⟩
        · exact ⟨_, .inr ⟨rfl, rfl⟩, rfl⟩
  | control k => simp [Lifetime.fd?]
  | ctlConnect k => simp [Lifetime.fd?]
  | tunnel t => simp [Lifetime.fd?]
  | acceptor t => simp [Lifetime.fd?]

/-- The descriptor of a new tunnel is that of its acceptor. -/
theorem fd?_concat_tunnels (s : Lifetime) (c : ℕ × Option ℕ) (x : ServerObj) (fd : ℕ) :
    ({ s with tunnels := s.tunnels ++ [c] } : Lifetime).fd? x = some fd ↔
      s.fd? x = some fd ∨ x = .acceptor s.tunnels.length ∧ c.2 = some fd := by
  cases x with
  | acceptor t =>
      simp only [Lifetime.fd?, Option.bind_eq_some_iff, getElem?_concat_iff, ServerObj.acceptor.injEq]
      constructor
      · rintro ⟨c, hc | ⟨rfl, rfl⟩, hl⟩
        · exact .inl ⟨c, hc, hl⟩
        · exact .inr ⟨rfl, hl⟩
      · rintro (⟨c, hc, hl⟩ | ⟨rfl, hl⟩)
        · exact ⟨c, .inl hc, hl⟩
        · exact ⟨_, .inr ⟨rfl, rfl⟩, hl⟩
  | control k => simp [Lifetime.fd?]
  | ctlConnect k => simp [Lifetime.fd?]
  | ctlChannel k => simp [Lifetime.fd?]
  | tunnel t => simp [Lifetime.fd?]

/-- A control that is not made yet has no tunnels. -/
theorem refs_new_control (h : LifetimeInv xs s) :
    s.refs (.control s.controls.length) = [.ctlConnect s.controls.length] := by
  have hconns : (s.tunnelMap s.controls.length).conns = [] := by
    refine List.eq_nil_iff_forall_not_mem.2 fun t ht => ?_
    obtain ⟨tunId, hlook⟩ := ConnMap.mem_conns_iff.1 ht
    obtain ⟨l, ht⟩ := h.mapped _ _ _ hlook
    exact Nat.lt_irrefl _ (h.tunnels _ _ _ ht)
  rw [Lifetime.refs, hconns, List.map_nil]

/-- The counts of a new control, its `CtlConnect` and its channel. -/
theorem counted_newCtlConn (h : LifetimeInv xs s) :
    ((((s.heap.make (.ctlChannel s.controls.length)).make (.ctlConnect s.controls.length)).make
      (.control s.controls.length)).acquire (.ctlChannel s.controls.length)).Counted s.refs
      (.ctlChannel s.controls.length :: .control s.controls.length :: (xs ++ s.roots)) := by
  have hchannel := h.not_mem_of_not_created (x := .ctlChannel s.controls.length) (Nat.lt_irrefl _)
  have hconnect := h.not_mem_of_not_created (x := .ctlConnect s.controls.length) (Nat.lt_irrefl _)
  have hcontrol := h.not_mem_of_not_created (x := .control s.controls.length) (Nat.lt_irrefl _)
  have h₀ : s.heap.Counted s.refs (s.refs (.ctlChannel s.controls.length) ++ (xs ++ s.roots)) := h.counted
  have h₁ : (s.heap.make (.ctlChannel s.controls.length)).Counted s.refs
      (s.refs (.ctlConnect s.controls.length) ++ (xs ++ s.roots)) := h₀.make hchannel
  have h₂ := h₁.make (by
    simpa only [RefHeap.make, Finset.mem_insert, reduceCtorEq, false_or] using hconnect)
  rw [show ServerObj.ctlConnect s.controls.length :: (xs ++ s.roots) =
    s.refs (.control s.controls.length) ++ (xs ++ s.roots) by rw [h.refs_new_control]; rfl] at h₂
  have h₃ := h₂.make (by
    simpa only [RefHeap.make, Finset.mem_insert, reduceCtorEq, false_or] using hcontrol)
  refine h₃.acquire ?_
  simp only [RefHeap.make, Finset.mem_insert, true_or, or_true]

/-- **A control is made.** -/
theorem newCtlConn (h : LifetimeInv xs s) {ctlId : Str} {fd : ℕ}
    (hid : AList.lookup ctlId s.controlMap = none) (hfree : ¬ s.Opened fd) :
    LifetimeInv xs (s.newCtlConn ctlId fd) := by
  have hnone := h.lookup_channel_eq_none hfree .main
  rw [show s.newCtlConn ctlId fd = _ from pollAdd_eq hnone, ConnMap.add, if_pos hid]
  have hlast : s.controls.length < (s.controls ++ [(ctlId, fd)]).length := by simp
  have hlt : ∀ {k : ℕ}, k < s.controls.length → k < (s.controls ++ [(ctlId, fd)]).length :=
    fun hk => hk.trans hlast
  have hlook : ∀ id k, AList.lookup id (AList.insert ctlId s.controls.length s.controlMap) = some k →
      k = s.controls.length ∨ AList.lookup id s.controlMap = some k := by
    intro id k hk
    rcases eq_or_ne id ctlId with rfl | hne
    · rw [AList.lookup_insert] at hk
      exact .inl (Option.some.inj hk).symm
    · rw [AList.lookup_insert_ne hne] at hk
      exact .inr hk
  refine
    { counted := h.counted_newCtlConn.perm (List.perm_iff_count.2 fun z => ?_)
      kept := fun x hx => ?_
      created := fun x hx => ?_
      listed := fun id k hk => ?_
      mapped := h.mapped
      tunnels := fun t k l ht => hlt (h.tunnels t k l ht)
      channels := h.channels_insert hnone rfl (fd?_concat_controls s (ctlId, fd))
      claims := fun c hc => ⟨hlt (h.claims c hc).1, (h.claims c hc).2⟩
      ready := fun k hk => hlt (h.ready k hk) }
  · simp only [Lifetime.roots, ConnMap.conns_insert hid, ConnMap.conns_insert hnone, List.map_cons,
      List.count_append, List.count_cons]
    omega
  · simp only [RefHeap.acquire, RefHeap.make, Finset.mem_insert]
    have hctl : ∀ k, ((∃ id, AList.lookup id (AList.insert ctlId s.controls.length s.controlMap) = some k) ∨
        s.HasTunnel k ∨ s.Claimed k) →
        k = s.controls.length ∨ s.Listed k ∨ s.HasTunnel k ∨ s.Claimed k := by
      rintro k (⟨id, hk⟩ | hrest)
      · exact (hlook id k hk).imp_right fun hl => .inl ⟨id, hl⟩
      · exact .inr (.inr hrest)
    cases x with
    | control k =>
        rcases hctl k hx with rfl | hk
        · exact .inl rfl
        · exact .inr (.inr (.inr (h.kept (.control k) hk)))
    | ctlConnect k =>
        rcases hctl k hx with rfl | hk
        · exact .inr (.inl rfl)
        · exact .inr (.inr (.inr (h.kept (.ctlConnect k) hk)))
    | ctlChannel k =>
        have hk : k < (s.controls ++ [(ctlId, fd)]).length := hx
        rw [List.length_append, List.length_singleton] at hk
        rcases Nat.lt_succ_iff_lt_or_eq.1 hk with hk | rfl
        · exact .inr (.inr (.inr (h.kept (.ctlChannel k) hk)))
        · exact .inr (.inr (.inl rfl))
    | tunnel t => exact .inr (.inr (.inr (h.kept (.tunnel t) hx)))
    | acceptor t => exact .inr (.inr (.inr (h.kept (.acceptor t) hx)))
  · simp only [RefHeap.acquire, RefHeap.make, Finset.mem_insert] at hx
    rcases hx with rfl | rfl | rfl | hx
    · exact hlast
    · exact hlast
    · exact hlast
    · exact (h.created x hx).mono hlast.le le_rfl
  · rcases hlook id k hk with rfl | hk
    · exact hlast
    · exact hlt (h.listed id k hk)

/-- The counts of a new tunnel and its acceptor. -/
theorem counted_newTunnel (h : LifetimeInv xs s) (hj : .control j ∈ s.heap.live) (listen : Option ℕ) :
    (((s.heap.acquire (.control j)).make (.acceptor s.tunnels.length)).make
      (.tunnel s.tunnels.length)).Counted
      (Lifetime.refs { s with tunnels := s.tunnels ++ [(j, listen)] })
      (.tunnel s.tunnels.length :: (xs ++ s.roots)) := by
  have htunnel := h.not_mem_of_not_created (x := .tunnel s.tunnels.length) (Nat.lt_irrefl _)
  have hacceptor := h.not_mem_of_not_created (x := .acceptor s.tunnels.length) (Nat.lt_irrefl _)
  have h₁ : (s.heap.acquire (.control j)).Counted s.refs
      (s.refs (.acceptor s.tunnels.length) ++ (.control j :: (xs ++ s.roots))) := h.counted.acquire hj
  have h₂ : ((s.heap.acquire (.control j)).make (.acceptor s.tunnels.length)).Counted
      (Lifetime.refs { s with tunnels := s.tunnels ++ [(j, listen)] })
      (.acceptor s.tunnels.length :: .control j :: (xs ++ s.roots)) := by
    refine (h₁.make hacceptor).congr fun y hy => ?_
    cases y with
    | tunnel t =>
        have ht : t < s.tunnels.length := by
          rcases Finset.mem_insert.1 hy with ht | ht
          · cases ht
          · exact h.created _ ht
        rw [mem_refs_tunnel (getElem?_concat_iff.2 (.inl (List.getElem?_eq_getElem ht))),
          mem_refs_tunnel (List.getElem?_eq_getElem ht)]
    | control k => rfl
    | ctlConnect k => rfl
    | ctlChannel k => rfl
    | acceptor k => rfl
  refine RefHeap.Counted.make (x := ServerObj.tunnel s.tunnels.length) ?_ ?_
  · rw [mem_refs_tunnel (s := { s with tunnels := s.tunnels ++ [(j, listen)] }) List.getElem?_concat_length]
    exact h₂
  · simpa only [RefHeap.make, RefHeap.acquire, Finset.mem_insert, reduceCtorEq, false_or] using htunnel

/-- **A tunnel is made**, and a local pointer to it. -/
theorem newTunnel (h : LifetimeInv xs s) {listen : Option ℕ} (hj : .control j ∈ s.heap.live)
    (hfree : ∀ fd ∈ listen, ¬ s.Opened fd) :
    LifetimeInv (.tunnel s.tunnels.length :: xs) (s.newTunnel j listen) := by
  have hcounted := h.counted_newTunnel hj listen
  have hlast : s.tunnels.length < (s.tunnels ++ [(j, listen)]).length := by simp
  set s₁ : Lifetime := { s with
    heap := ((s.heap.acquire (.control j)).make (.acceptor s.tunnels.length)).make
      (.tunnel s.tunnels.length)
    tunnels := s.tunnels ++ [(j, listen)] } with hs₁
  have hlive : ∀ x, x ∈ s₁.heap.live ↔
      x = .tunnel s.tunnels.length ∨ x = .acceptor s.tunnels.length ∨ x ∈ s.heap.live := by
    intro x
    simp only [hs₁, RefHeap.make, RefHeap.acquire, Finset.mem_insert]
  have hfd : ∀ x fd, s₁.fd? x = some fd ↔
      s.fd? x = some fd ∨ x = .acceptor s.tunnels.length ∧ listen = some fd :=
    fd?_concat_tunnels s (j, listen)
  have hkept : ∀ x, s₁.Kept x → x ∈ s₁.heap.live := by
    intro x hx
    rw [hlive]
    cases x with
    | acceptor t =>
        rcases hx with hmapped | hsome
        · exact .inr (.inr (h.kept _ (.inl hmapped)))
        · obtain ⟨fd, hsome⟩ := Option.isSome_iff_exists.1 hsome
          rcases (hfd _ fd).1 hsome with hsome | ⟨ht, -⟩
          · exact .inr (.inr (h.kept _ (.inr (by rw [hsome]; rfl))))
          · exact .inr (.inl ht)
    | control k => exact .inr (.inr (h.kept (.control k) hx))
    | ctlConnect k => exact .inr (.inr (h.kept (.ctlConnect k) hx))
    | ctlChannel k => exact .inr (.inr (h.kept (.ctlChannel k) hx))
    | tunnel t => exact .inr (.inr (h.kept (.tunnel t) hx))
  have hcreated : ∀ x ∈ s₁.heap.live, s₁.Created x := by
    intro x hx
    rcases (hlive x).1 hx with rfl | rfl | hx
    · exact hlast
    · exact hlast
    · exact (h.created x hx).mono le_rfl hlast.le
  have hmapped : ∀ k tunId (t : ℕ), AList.lookup tunId (s.tunnelMap k) = some t →
      ∃ l, s₁.tunnels[t]? = some (k, l) := by
    intro k tunId t hlook
    obtain ⟨l, ht⟩ := h.mapped k tunId t hlook
    exact ⟨l, getElem?_concat_iff.2 (.inl ht)⟩
  have htunnels : ∀ (t k : ℕ) l, s₁.tunnels[t]? = some (k, l) → k < s.controls.length := by
    intro t k l ht
    rcases getElem?_concat_iff.1 ht with ht | ⟨-, heq⟩
    · exact h.tunnels t k l ht
    · rw [(Prod.mk.inj heq).1]
      exact h.created _ hj
  rw [Lifetime.newTunnel]
  cases listen with
  | none =>
      rw [Option.elim_none]
      exact { h with
        counted := hcounted
        kept := hkept
        created := hcreated
        mapped := hmapped
        tunnels := htunnels
        channels := fun l fd x => (h.channels l fd x).trans
          (and_congr_left' ((or_iff_left fun hx => Option.some_ne_none fd hx.2.symm).symm.trans
            (hfd x fd).symm)) }
  | some fd =>
      have hnone := h.lookup_channel_eq_none (hfree fd rfl) .publicListen
      rw [Option.elim_some, show s₁.pollAdd .publicListen fd _ = _ from pollAdd_eq hnone]
      refine { h with
        counted := ?_
        kept := hkept
        created := hcreated
        mapped := hmapped
        tunnels := htunnels
        channels := h.channels_insert hnone rfl fun x fd' => ?_ }
      · have hacquired := hcounted.acquire (x := ServerObj.acceptor s.tunnels.length)
          ((hlive _).2 (.inr (.inl rfl)))
        refine hacquired.perm (List.perm_iff_count.2 fun z => ?_)
        simp only [Lifetime.roots, hs₁, ConnMap.conns_insert hnone, List.count_append, List.count_cons]
        omega
      · refine (hfd x fd').trans (or_congr_right (and_congr_right fun _ => ?_))
        rw [Option.some.injEq, eq_comm]

/-- **A tunnel gets into the map of its control**, or ends if the map has its id. -/
theorem addtoTunnel {l : Option ℕ} (h : LifetimeInv (.tunnel t :: xs) s)
    (ht : s.tunnels[t]? = some (j, l)) (tunId : Str) : LifetimeInv xs (s.addtoTunnel j tunId t) := by
  rw [Lifetime.addtoTunnel]
  split
  · next hnone =>
    rw [ConnMap.add, if_pos hnone]
    have htunnel : .tunnel t ∈ s.heap.live := h.mem_of_local List.mem_cons_self
    have hacceptor : .acceptor t ∈ s.heap.live := h.counted.mem_of_member htunnel (by
      rw [mem_refs_tunnel ht]
      exact List.mem_cons_self)
    have hcontrol : .control j ∈ s.heap.live := h.counted.mem_of_member htunnel (by
      rw [mem_refs_tunnel ht]
      exact List.mem_cons_of_mem _ (List.mem_singleton_self _))
    have hconnect : .ctlConnect j ∈ s.heap.live := h.counted.mem_of_member hcontrol List.mem_cons_self
    have hlook : ∀ {k : ℕ} {id : Str} {t' : ℕ}, AList.lookup id
        (update s.tunnelMap j (AList.insert tunId t (s.tunnelMap j)) k) = some t' ↔
          AList.lookup id (s.tunnelMap k) = some t' ∨ k = j ∧ id = tunId ∧ t' = t := by
      intro k id t'
      rcases eq_or_ne k j with rfl | hk
      · rw [Function.update_self]
        rcases eq_or_ne id tunId with rfl | hid
        · rw [AList.lookup_insert, Option.some.injEq, hnone]
          simp [eq_comm]
        · rw [AList.lookup_insert_ne hid]
          exact (or_iff_left fun hne => hid hne.2.1).symm
      · rw [Function.update_of_ne hk]
        exact (or_iff_left fun hne => hk hne.1).symm
    refine { h with
      counted := ?_
      kept := fun x hx => ?_
      mapped := fun k id t' hm => ?_
      claims := fun c hc => ⟨(h.claims c hc).1, fun t' ht' => ?_⟩ }
    · refine RefHeap.Counted.store (x := ServerObj.tunnel t) (y := ServerObj.control j) h.counted hcontrol
        ?_ ?_
      · simp only [Lifetime.refs, Function.update_self, ConnMap.conns_insert hnone, List.map_cons]
        exact List.Perm.swap ..
      · intro z hz
        cases z with
        | control k =>
            have hk : k ≠ j := fun hk => hz (by rw [hk])
            simp only [Lifetime.refs, Function.update_of_ne hk]
        | ctlConnect k => rfl
        | ctlChannel k => rfl
        | tunnel t => rfl
        | acceptor t => rfl
    · have hctl : ∀ k, k ≠ j → (s.Listed k ∨ (∃ id t', AList.lookup id
          (update s.tunnelMap j (AList.insert tunId t (s.tunnelMap j)) k) = some t') ∨ s.Claimed k) →
          s.Listed k ∨ s.HasTunnel k ∨ s.Claimed k := by
        rintro k hk (hl | ⟨id, t', hm⟩ | hc)
        · exact .inl hl
        · exact .inr (.inl ⟨id, t', (hlook.1 hm).resolve_right fun hno => hk hno.1⟩)
        · exact .inr (.inr hc)
      cases x with
      | control k =>
          rcases eq_or_ne k j with rfl | hk
          · exact hcontrol
          · exact h.kept (.control k) (hctl k hk hx)
      | ctlConnect k =>
          rcases eq_or_ne k j with rfl | hk
          · exact hconnect
          · exact h.kept (.ctlConnect k) (hctl k hk hx)
      | ctlChannel k => exact h.kept (.ctlChannel k) hx
      | tunnel t' =>
          obtain ⟨k, id, hm⟩ := hx
          rcases hlook.1 hm with hm | ⟨-, -, rfl⟩
          · exact h.kept _ ⟨k, id, hm⟩
          · exact htunnel
      | acceptor t' =>
          rcases hx with ⟨k, id, hm⟩ | hsome
          · rcases hlook.1 hm with hm | ⟨-, -, rfl⟩
            · exact h.kept _ (.inl ⟨k, id, hm⟩)
            · exact hacceptor
          · exact h.kept (.acceptor t') (.inr hsome)
    · rcases hlook.1 hm with hm | ⟨rfl, -, rfl⟩
      · exact h.mapped k id t' hm
      · exact ⟨l, ht⟩
    · obtain ⟨id, hm⟩ := (h.claims c hc).2 t' ht'
      exact ⟨id, hlook.2 (.inl hm)⟩
  · have hlocal : LifetimeInv ([.tunnel t] ++ xs) s := h
    exact hlocal.drop

/-! ### Containers that let go -/

/-- `control_map_` lets go of the control that has the id. -/
theorem eraseControl (h : LifetimeInv xs s) (ctlId : Str) :
    LifetimeInv ((AList.lookup ctlId s.controlMap).toList.map .control ++ xs)
      { s with controlMap := AList.erase ctlId s.controlMap } := by
  have hsub : ∀ id k, AList.lookup id (AList.erase ctlId s.controlMap) = some k →
      AList.lookup id s.controlMap = some k := by
    intro id k hlook
    rcases eq_or_ne id ctlId with rfl | hne
    · rw [AList.lookup_erase] at hlook
      cases hlook
    · rwa [AList.lookup_erase_ne hne] at hlook
  refine { h with
    counted := h.counted.perm (List.perm_iff_count.2 fun z => ?_)
    kept := fun x hx => h.kept x ?_
    listed := fun id k hlook => h.listed id k (hsub id k hlook) }
  · cases hlook : AList.lookup ctlId s.controlMap with
    | none =>
        have herase : AList.erase ctlId s.controlMap = s.controlMap := by
          ext1
          exact List.kerase_of_notMem_keys (AList.lookup_eq_none.1 hlook)
        rw [herase]
        rfl
    | some k =>
        have hperm := ((ConnMap.perm_erase hlook).map ServerObj.control).count_eq z
        simp only [Lifetime.roots, Option.toList_some, List.map_cons, List.map_nil, List.count_append,
          List.count_cons, List.count_nil] at hperm ⊢
        omega
  · have hctl : ∀ k, ((∃ id, AList.lookup id (AList.erase ctlId s.controlMap) = some k) ∨
        s.HasTunnel k ∨ s.Claimed k) → s.Listed k ∨ s.HasTunnel k ∨ s.Claimed k :=
      fun k hk => hk.imp_left fun ⟨id, hlook⟩ => ⟨id, hsub id k hlook⟩
    cases x with
    | control k => exact hctl k hx
    | ctlConnect k => exact hctl k hx
    | ctlChannel k => exact hx
    | tunnel t => exact hx
    | acceptor t => exact hx

/-- **A control is closed.** -/
theorem handleCtlConnClose (h : LifetimeInv xs s) (hj : .ctlConnect j ∈ s.heap.live) :
    LifetimeInv xs (s.handleCtlConnClose j) := by
  have hlocal := h.acquire hj
  cases hc : s.controls[j]? with
  | none =>
      simp only [Lifetime.handleCtlConnClose, Lifetime.listedAs, hc, Option.bind_none, Option.elim_none]
      rw [← List.singleton_append] at hlocal
      exact hlocal.drop
  | some c =>
      simp only [Lifetime.handleCtlConnClose, Lifetime.listedAs, hc, Option.bind_some, Option.elim_some]
      have herased := hlocal.eraseControl c.1
      rw [List.append_cons] at herased
      exact herased.drop

/-- **The main thread gets the channels that are ready.** -/
theorem waitChannels (h : LifetimeInv xs s) {js : List ℕ}
    (hjs : ∀ j ∈ js, .ctlConnect j ∈ s.heap.live) : LifetimeInv xs (s.waitChannels js) := by
  have hcleared : LifetimeInv (s.ready.map .ctlChannel ++ xs) { s with ready := [], todo := [] } :=
    { h with
      counted := h.counted.perm (List.perm_iff_count.2 fun z => by
        simp only [Lifetime.roots, List.count_append, List.map_nil, List.count_nil]
        omega)
      ready := nofun }
  have hdropped := hcleared.drop
  have hlive : ∀ y ∈ js.map ServerObj.ctlChannel,
      y ∈ (s.heap.drop s.refs (s.ready.map .ctlChannel)).live := by
    intro y hy
    obtain ⟨j, hj, rfl⟩ := List.mem_map.1 hy
    exact hdropped.kept (.ctlChannel j) (h.created _ (hjs j hj))
  have hall := hdropped.acquireAll hlive
  exact { hall with
    counted := hall.counted.perm (List.perm_iff_count.2 fun z => by
      simp only [Lifetime.waitChannels, Lifetime.roots, List.count_append, List.map_nil, List.count_nil]
      omega)
    ready := fun j hj => h.created _ (hjs j hj) }

/-- A call of `claimProxyConn` goes on with local pointers. -/
theorem setClaims (h : LifetimeInv xs s) {cs : List (ℕ × Option ℕ)}
    (hcounted : s.heap.Counted s.refs (ys ++ { s with claims := cs }.roots))
    (hcs : ∀ c ∈ cs, (∃ c' ∈ s.claims, c'.1 = c.1) ∨ .control c.1 ∈ s.heap.live)
    (hmapped : ∀ c ∈ cs, c.1 < s.controls.length ∧
      ∀ t, c.2 = some t → ∃ tunId, AList.lookup tunId (s.tunnelMap c.1) = some t) :
    LifetimeInv ys { s with claims := cs } := by
  refine { h with
    counted := hcounted
    kept := fun x hx => ?_
    claims := hmapped }
  have hctl : ∀ k, (s.Listed k ∨ s.HasTunnel k ∨ ∃ c ∈ cs, c.1 = k) → .control k ∈ s.heap.live := by
    rintro k (hk | hk | ⟨c, hc, rfl⟩)
    · exact h.kept (.control k) (.inl hk)
    · exact h.kept (.control k) (.inr (.inl hk))
    · rcases hcs c hc with hc' | hmem
      · exact h.kept (.control c.1) (.inr (.inr hc'))
      · exact hmem
  cases x with
  | control k => exact hctl k hx
  | ctlConnect k => exact h.counted.mem_of_member (hctl k hx) List.mem_cons_self
  | ctlChannel k => exact h.kept (.ctlChannel k) hx
  | tunnel t => exact h.kept (.tunnel t) hx
  | acceptor t => exact h.kept (.acceptor t) hx

/-- A call of `claimProxyConn` gets its control. -/
theorem claim (h : LifetimeInv xs s) {ctlId : Str} (hj : AList.lookup ctlId s.controlMap = some j) :
    LifetimeInv xs
      { s with heap := s.heap.acquire (.control j), claims := s.claims ++ [(j, none)] } := by
  have hlive : .control j ∈ s.heap.live := h.kept (.control j) (.inl ⟨ctlId, hj⟩)
  have hlocal := h.acquire hlive
  refine hlocal.setClaims (hlocal.counted.perm (List.perm_iff_count.2 fun z => ?_)) ?_ ?_
  · simp only [Lifetime.roots, claimRoots, List.flatMap_append, List.flatMap_cons, List.flatMap_nil,
      Option.toList_none, List.map_nil, List.count_append, List.count_cons, List.count_nil]
    omega
  · intro c hc
    rcases List.mem_append.1 hc with hc | hc
    · exact .inl ⟨c, hc, rfl⟩
    · rw [List.mem_singleton.1 hc]
      exact .inr hlive
  · intro c hc
    rcases List.mem_append.1 hc with hc | hc
    · exact h.claims c hc
    · rw [List.mem_singleton.1 hc]
      exact ⟨h.listed ctlId j hj, nofun⟩

/-- It gets its tunnel. -/
theorem claimTunnel (h : LifetimeInv xs s) {k : ℕ} {tunId : Str} (hk : s.claims[k]? = some (j, none))
    (ht : AList.lookup tunId (s.tunnelMap j) = some t) :
    LifetimeInv xs
      { s with heap := s.heap.acquire (.tunnel t), claims := s.claims.set k (j, some t) } := by
  obtain ⟨hlt, hget⟩ := List.getElem?_eq_some_iff.1 hk
  have hlocal := h.acquire (h.kept (.tunnel t) ⟨j, tunId, ht⟩)
  have hold : (j, none) ∈ s.claims := List.mem_of_getElem? hk
  have hset := ((List.set_perm_cons_eraseIdx hlt (j, some t)).flatMap_right claimRoots).count_eq
  have hrest := ((List.getElem_cons_eraseIdx_perm hlt).flatMap_right claimRoots).count_eq
  refine hlocal.setClaims (hlocal.counted.perm (List.perm_iff_count.2 fun z => ?_)) ?_ ?_
  · have hz := hset z
    have hz' := hrest z
    rw [hget] at hz'
    simp only [Lifetime.roots, claimRoots, List.flatMap_cons, Option.toList_none, Option.toList_some,
      List.map_cons, List.map_nil, List.count_append, List.count_cons, List.count_nil] at hz hz' ⊢
    omega
  · intro c hc
    rcases List.mem_or_eq_of_mem_set hc with hc | rfl
    · exact .inl ⟨c, hc, rfl⟩
    · exact .inl ⟨_, hold, rfl⟩
  · intro c hc
    rcases List.mem_or_eq_of_mem_set hc with hc | rfl
    · exact h.claims c hc
    · exact ⟨(h.claims _ hold).1, fun t' ht' => ⟨tunId, ht.trans ht'⟩⟩

/-- **It returns.** -/
theorem claimEnd (h : LifetimeInv xs s) {k : ℕ} {c : ℕ × Option ℕ} (hk : s.claims[k]? = some c) :
    LifetimeInv xs
      { s with heap := s.heap.drop s.refs (claimRoots c), claims := s.claims.eraseIdx k } := by
  obtain ⟨hlt, hget⟩ := List.getElem?_eq_some_iff.1 hk
  have hrest := ((List.getElem_cons_eraseIdx_perm hlt).flatMap_right claimRoots).count_eq
  have hlocal : LifetimeInv (claimRoots c ++ xs) { s with claims := s.claims.eraseIdx k } := by
    refine h.setClaims (h.counted.perm (List.perm_iff_count.2 fun z => ?_)) ?_ ?_
    · have hz := hrest z
      rw [hget] at hz
      simp only [Lifetime.roots, List.flatMap_cons, List.count_append] at hz ⊢
      omega
    · exact fun c hc => .inl ⟨c, List.mem_of_mem_eraseIdx hc, rfl⟩
    · exact fun c hc => h.claims c (List.mem_of_mem_eraseIdx hc)
  exact hlocal.drop

/-! ### The steps -/

/-- A `CtlConnect` lives as long as its control. -/
theorem ctlConnect_mem_iff (h : LifetimeInv [] s) (j : ℕ) :
    .ctlConnect j ∈ s.heap.live ↔ .control j ∈ s.heap.live := by
  constructor
  · intro hj
    rcases h.counted.supported _ hj with hroot | ⟨y, hy, hmem⟩
    · simp only [List.nil_append, Lifetime.roots, List.mem_append, List.mem_map, reduceCtorEq, and_false,
        exists_false, List.mem_flatMap, false_or] at hroot
      rcases hroot with hchan | ⟨c, -, hmem⟩
      · obtain ⟨⟨l, fd⟩, hlook⟩ := ConnMap.mem_conns_iff.1 hchan
        have hloop := ((h.channels l fd _).1 hlook).2
        cases hloop
      · simp [claimRoots] at hmem
    · cases y with
      | control k =>
          simp only [Lifetime.refs, List.mem_cons, ServerObj.ctlConnect.injEq, List.mem_map, reduceCtorEq,
            and_false, exists_false, or_false] at hmem
          rwa [hmem]
      | tunnel t => cases ht : s.tunnels[t]? <;> simp [Lifetime.refs, ht] at hmem
      | ctlConnect k => simp [Lifetime.refs] at hmem
      | ctlChannel k => simp [Lifetime.refs] at hmem
      | acceptor t => simp [Lifetime.refs] at hmem
  · exact fun hj => h.counted.mem_of_member hj List.mem_cons_self

/-- **What exists is what the containers keep.** -/
theorem mem_iff (h : LifetimeInv [] s) (j t : ℕ) :
    (.control j ∈ s.heap.live ↔ s.Kept (.control j)) ∧
    (.ctlConnect j ∈ s.heap.live ↔ s.Kept (.ctlConnect j)) ∧
    (.tunnel t ∈ s.heap.live ↔ s.Mapped t) :=
  ⟨⟨h.kept_of_control_mem, h.kept _⟩,
    ⟨fun hj => h.kept_of_control_mem ((h.ctlConnect_mem_iff j).1 hj), h.kept _⟩,
    ⟨h.mapped_of_mem, h.kept (.tunnel t)⟩⟩

end LifetimeInv

namespace Lifetime

variable {s : Lifetime} {j k t : ℕ}

/-- What a new tunnel leaves as it was. -/
theorem newTunnel_frame (s : Lifetime) (j : ℕ) (listen : Option ℕ) :
    (s.newTunnel j listen).tunnels = s.tunnels ++ [(j, listen)] ∧
    (s.newTunnel j listen).controls = s.controls ∧ (s.newTunnel j listen).controlMap = s.controlMap ∧
    (s.newTunnel j listen).tunnelMap = s.tunnelMap ∧ (s.newTunnel j listen).claims = s.claims ∧
    (s.newTunnel j listen).todo = s.todo ∧ (s.newTunnel j listen).fault = s.fault := by
  cases listen <;> exact ⟨rfl, rfl, rfl, rfl, rfl, rfl, rfl⟩

/-- What `handleNewTunnelReq` leaves as it was. -/
theorem handleNewTunnelReq_frame (s : Lifetime) (j : ℕ) (tunId : Str) (listen : Option ℕ) :
    (s.handleNewTunnelReq j tunId listen).tunnels = s.tunnels ++ [(j, listen)] ∧
    (s.handleNewTunnelReq j tunId listen).controls = s.controls ∧
    (s.handleNewTunnelReq j tunId listen).controlMap = s.controlMap ∧
    (s.handleNewTunnelReq j tunId listen).claims = s.claims ∧
    (s.handleNewTunnelReq j tunId listen).todo = s.todo ∧
    (s.handleNewTunnelReq j tunId listen).fault = s.fault := by
  obtain ⟨htunnels, hcontrols, hmap, -, hclaims, htodo, hfault⟩ := s.newTunnel_frame j listen
  rw [handleNewTunnelReq, addtoTunnel]
  split
  · exact ⟨htunnels, hcontrols, hmap, hclaims, htodo, hfault⟩
  · exact ⟨htunnels, hcontrols, hmap, hclaims, htodo, hfault⟩

/-- The maps after `handleNewTunnelReq`: the new tunnel has its id if no other one had. -/
theorem lookup_handleNewTunnelReq (s : Lifetime) (j : ℕ) (tunId : Str) (listen : Option ℕ) (k : ℕ)
    (id : Str) (t : ℕ) :
    AList.lookup id ((s.handleNewTunnelReq j tunId listen).tunnelMap k) = some t ↔
      AList.lookup id (s.tunnelMap k) = some t ∨
        k = j ∧ id = tunId ∧ t = s.tunnels.length ∧ AList.lookup tunId (s.tunnelMap j) = none := by
  obtain ⟨-, -, -, htunnelMap, -⟩ := s.newTunnel_frame j listen
  rw [handleNewTunnelReq, addtoTunnel, htunnelMap]
  split
  · next hnone =>
    dsimp only
    rcases eq_or_ne k j with rfl | hk
    · rw [Function.update_self, ConnMap.lookup_add]
      rcases eq_or_ne id tunId with rfl | hid
      · rw [if_pos ⟨rfl, hnone⟩, hnone]
        simp [eq_comm]
      · rw [if_neg fun hc => hid hc.1]
        exact (or_iff_left fun hc => hid hc.2.1).symm
    · rw [Function.update_of_ne hk]
      exact (or_iff_left fun hc => hk hc.1).symm
  · next hsome =>
    exact (or_iff_left fun hc => hsome hc.2.2.2).symm

end Lifetime

namespace LifetimeInv

variable {s s' : Lifetime} {j t : ℕ}

/-- **`handleNewTunnelReq`.** -/
theorem handleNewTunnelReq (h : LifetimeInv [] s) {listen : Option ℕ} (hj : .control j ∈ s.heap.live)
    (hfree : ∀ fd ∈ listen, ¬ s.Opened fd) (tunId : Str) :
    LifetimeInv [] (s.handleNewTunnelReq j tunId listen) := by
  refine (h.newTunnel hj hfree).addtoTunnel (l := listen) ?_ tunId
  rw [(s.newTunnel_frame j listen).1]
  exact List.getElem?_concat_length

/-- The control of a handler outlives the message. -/
theorem ctlConnect_mem_handleNewTunnelReq (h : LifetimeInv [] s) {listen : Option ℕ}
    (hj : .ctlConnect j ∈ s.heap.live) (hfree : ∀ fd ∈ listen, ¬ s.Opened fd) (tunId : Str) :
    .ctlConnect j ∈ (s.handleNewTunnelReq j tunId listen).heap.live := by
  have hnew := h.handleNewTunnelReq ((h.ctlConnect_mem_iff j).1 hj) hfree tunId
  obtain ⟨-, -, hmap, hclaims, -⟩ := s.handleNewTunnelReq_frame j tunId listen
  refine hnew.kept (.ctlConnect j) ?_
  rcases (h.mem_iff j 0).2.1.1 hj with ⟨id, hlook⟩ | ⟨id, t, hlook⟩ | ⟨c, hc, heq⟩
  · exact .inl ⟨id, by rw [hmap]; exact hlook⟩
  · exact .inr (.inl ⟨id, t, (s.lookup_handleNewTunnelReq j tunId listen j id t).2 (.inl hlook)⟩)
  · exact .inr (.inr ⟨c, by rw [hclaims]; exact hc, heq⟩)

/-- **One step.** -/
theorem step (h : LifetimeInv [] s) {a : LifeAct} (hs : s.step a = some s') : LifetimeInv [] s' := by
  obtain ⟨-, hs⟩ := Option.ite_none_right_eq_some.1 hs
  cases a with
  | newCtlConn ctlId fd =>
      obtain ⟨⟨hid, hfree⟩, hs⟩ := Option.ite_none_right_eq_some.1 hs
      obtain rfl := Option.some.inj hs
      exact h.newCtlConn hid hfree
  | waitChannels js =>
      obtain ⟨⟨-, -, hjs⟩, hs⟩ := Option.ite_none_right_eq_some.1 hs
      obtain rfl := Option.some.inj hs
      exact h.waitChannels hjs
  | handleEvents req close =>
      simp only [Lifetime.stepLive] at hs
      split at hs
      case h_1 => cases hs
      case h_2 j rest htodo =>
        obtain ⟨hfree, hs⟩ := Option.ite_none_right_eq_some.1 hs
        split at hs
        · next hj =>
          obtain rfl := Option.some.inj hs
          have hrest : LifetimeInv [] { s with todo := rest } := { h with }
          cases req with
          | none =>
              rw [Option.elim_none]
              split
              · exact hrest.handleCtlConnClose hj
              · exact hrest
          | some c =>
              have hreq := hrest.handleNewTunnelReq ((h.ctlConnect_mem_iff j).1 hj) (hfree c rfl) c.1
              have hlive := hrest.ctlConnect_mem_handleNewTunnelReq hj (hfree c rfl) c.1
              rw [Option.elim_some]
              split
              · exact hreq.handleCtlConnClose hlive
              · exact hreq
        · obtain rfl := Option.some.inj hs
          exact { h with }
  | newPublicConn t =>
      obtain ⟨-, hs⟩ := Option.ite_none_right_eq_some.1 hs
      obtain rfl := Option.some.inj hs
      split
      · exact h
      · exact { h with }
  | claim ctlId =>
      obtain ⟨j, hj, rfl⟩ := Option.map_eq_some_iff.1 hs
      exact h.claim hj
  | claimTunnel k tunId =>
      simp only [Lifetime.stepLive] at hs
      split at hs
      · next j hk =>
        split at hs
        · next t ht =>
          obtain rfl := Option.some.inj hs
          exact h.claimTunnel hk ht
        · obtain rfl := Option.some.inj hs
          exact h.claimEnd hk
      · cases hs
  | claimEnd k =>
      simp only [Lifetime.stepLive] at hs
      split at hs
      · next j t hk =>
        obtain rfl := Option.some.inj hs
        exact h.claimEnd hk
      · cases hs

theorem of_reach {g : Lifetime → LifeAct → Prop} (hs : lifetimeLts.Reach g s) : LifetimeInv [] s :=
  hs.invariant init fun _ _ _ _ hi _ hst => hi.step hst

end LifetimeInv

/-- A message takes no tunnel out of its map. -/
theorem Lifetime.mapped_handle {s : Lifetime} {j : ℕ} (req : Option (Str × Option ℕ)) {t : ℕ}
    (ht : s.Mapped t) : (req.elim s fun c => s.handleNewTunnelReq j c.1 c.2).Mapped t := by
  cases req with
  | none => exact ht
  | some c =>
      obtain ⟨k, id, hlook⟩ := ht
      exact ⟨k, id, (s.lookup_handleNewTunnelReq j c.1 c.2 k id t).2 (.inl hlook)⟩

/-- A tunnel stays in its map. -/
theorem Lifetime.mapped_step {s s' : Lifetime} {a : LifeAct} (hs : s.step a = some s') {t : ℕ}
    (ht : s.Mapped t) : s'.Mapped t := by
  obtain ⟨-, hs⟩ := Option.ite_none_right_eq_some.1 hs
  cases a with
  | newCtlConn ctlId fd =>
      obtain ⟨-, hs⟩ := Option.ite_none_right_eq_some.1 hs
      obtain rfl := Option.some.inj hs
      exact ht
  | waitChannels js =>
      obtain ⟨-, hs⟩ := Option.ite_none_right_eq_some.1 hs
      obtain rfl := Option.some.inj hs
      exact ht
  | handleEvents req close =>
      simp only [Lifetime.stepLive] at hs
      split at hs
      case h_1 => cases hs
      case h_2 j rest htodo =>
        obtain ⟨-, hs⟩ := Option.ite_none_right_eq_some.1 hs
        have hreq := mapped_handle (s := { s with todo := rest }) (j := j) req ht
        split at hs
        · obtain rfl := Option.some.inj hs
          split
          · exact hreq
          · exact hreq
        · obtain rfl := Option.some.inj hs
          exact ht
  | newPublicConn k =>
      obtain ⟨-, hs⟩ := Option.ite_none_right_eq_some.1 hs
      obtain rfl := Option.some.inj hs
      split
      · exact ht
      · exact ht
  | claim ctlId =>
      obtain ⟨j, -, rfl⟩ := Option.map_eq_some_iff.1 hs
      exact ht
  | claimTunnel k tunId =>
      simp only [Lifetime.stepLive] at hs
      split at hs
      · split at hs
        · obtain rfl := Option.some.inj hs
          exact ht
        · obtain rfl := Option.some.inj hs
          exact ht
      · cases hs
  | claimEnd k =>
      simp only [Lifetime.stepLive] at hs
      split at hs
      · obtain rfl := Option.some.inj hs
        exact ht
      · cases hs

theorem Lifetime.mapped_exec {t : ℕ} {as : List LifeAct} : ∀ {s s' : Lifetime},
    lifetimeLts.exec s as = some s' → s.Mapped t → s'.Mapped t := by
  induction as with
  | nil =>
      intro s s' he ht
      rwa [← Option.some.inj he]
  | cons a as ih =>
      intro s s' he ht
      obtain ⟨s₁, hs, he⟩ := lifetimeLts.exec_cons_eq_some.1 he
      exact ih he (mapped_step hs ht)

/-- **Who lives.**  In every run: a control and its `CtlConnect` live as long as `control_map_` or a call of
`claimProxyConn` has the control, and also when it has a tunnel; a tunnel lives if it got into the map of its
control, and then for good, so that such a control does too; no descriptor of a connection or of a listening
socket is ever closed; and the counts are the numbers of the pointers. -/
theorem lifetimes {s : Lifetime} (hs : lifetimeLts.Reach (fun _ _ => True) s) :
    (∀ j, (.control j ∈ s.heap.live ↔ s.Listed j ∨ s.HasTunnel j ∨ s.Claimed j) ∧
      (.ctlConnect j ∈ s.heap.live ↔ .control j ∈ s.heap.live)) ∧
    (∀ t, .tunnel t ∈ s.heap.live ↔ s.Mapped t) ∧
    (∀ as s', lifetimeLts.exec s as = some s' → ∀ t, .tunnel t ∈ s.heap.live → .tunnel t ∈ s'.heap.live) ∧
    (∀ x fd, s.fd? x = some fd → x ∈ s.heap.live) ∧
    ∀ x, s.heap.uses x = pointers s.refs s.roots s.heap.live x := by
  have h := LifetimeInv.of_reach hs
  refine ⟨fun j => ⟨(h.mem_iff j 0).1, h.ctlConnect_mem_iff j⟩, fun t => (h.mem_iff 0 t).2.2,
    fun as s' he t ht => ?_, fun x fd hfd => ?_, h.counted.uses⟩
  · have hs' := Lts.Reach.of_allSteps hs he (Lts.allSteps_true s as)
    exact (LifetimeInv.of_reach hs').kept (.tunnel t) (Lifetime.mapped_exec he (h.mapped_of_mem ht))
  · refine h.counted.mem_of_root (List.mem_append_right _ ?_)
    cases x with
    | ctlChannel j => exact h.channel_mem_roots hfd (l := .main) rfl
    | acceptor t => exact h.channel_mem_roots hfd (l := .publicListen) rfl
    | control j => cases hfd
    | ctlConnect j => cases hfd
    | tunnel t => cases hfd

/-- Two clients.  The first one asks for a tunnel, a proxy connection is claimed for it, and both clients go
away. -/
def twoClients : List LifeAct :=
  [.newCtlConn [97] 5, .waitChannels [0], .handleEvents (some ([116], some 6)) false, .newCtlConn [98] 7,
    .claim [97], .claimTunnel 0 [116], .waitChannels [1], .handleEvents none true, .claimEnd 0,
    .waitChannels [0], .handleEvents none true, .newPublicConn 0]

theorem lifetimes_two :
    ∃ s, lifetimeLts.exec lifetimeLts.init twoClients = some s ∧ s.controlMap.entries = [] ∧
      .control 0 ∈ s.heap.live ∧ .control 1 ∉ s.heap.live ∧ .ctlChannel 1 ∈ s.heap.live := by
  have he := (Option.some_get (x := lifetimeLts.exec lifetimeLts.init twoClients) (by decide +kernel)).symm
  have hs := Lts.Reach.of_allSteps (g := fun _ _ => True) .init he (Lts.allSteps_true _ twoClients)
  obtain ⟨hcontrol, -, -, hopen, -⟩ := lifetimes hs
  refine ⟨_, he, by decide +kernel, ?_, by decide +kernel, hopen _ 7 (by decide +kernel)⟩
  exact (hcontrol 0).1.2 (.inr (.inl ⟨[116], 0, by decide +kernel⟩))

end ProxySocket
