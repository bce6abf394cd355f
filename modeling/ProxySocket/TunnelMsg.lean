/-
**The messages that set up a tunnel.**

A `NewTunnelReq` carries the host and the port of the local server.  The server answers with a
`NewTunnelRsp` that repeats them, with the id of the new tunnel and the address where it listens.  Both are
structs of fixed-size fields in host byte order; the strings are copied into them with `strcpy`.

Main definitions:

* `Field`, `Field.Takes` — a field of a struct, and a string that fits into it;
* `NewTunnelReqMsg.build`, `NewTunnelRspMsg.build` — the assignments of the two senders;
* `NewTunnelReqMsg.copies`, `NewTunnelRspMsg.copies` — the strings that they copy.

Main results:

* `NewTunnelRspMsg.build_front` — **what a response holds in front of the hosts**, whatever these are;
* `NewTunnelRspMsg.exists_build` — a response is built when its strings end in the struct.
-/

import ProxySocket.Bytes
import ProxySocket.CString

set_option relaxedAutoImplicit false
set_option autoImplicit false

namespace ProxySocket

/-! ### Fields -/

/-- A field of a struct. -/
structure Field where
  off : ℕ
  size : ℕ
deriving DecidableEq, Repr

/-- A string and its terminator fit into the field. -/
def Field.Takes (f : Field) (s : Str) : Prop := s.length + 1 ≤ f.size

instance Field.decidableTakes (f : Field) (s : Str) : Decidable (f.Takes s) :=
  inferInstanceAs (Decidable (_ ≤ _))

/-- The field `u_int32_t`. -/
def Field.u32 (e : Endian) (f : Field) (mem : List UInt8) : ℕ := e.decode (readAt mem f.off f.size)

namespace NewTunnelReqMsg

def serverHost : Field := ⟨0, 20⟩
def serverPort : Field := ⟨20, 4⟩
def size : ℕ := 24

/-- What `Client::NewTunnelReq` puts into the struct, which holds `mem` before. -/
def build (e : Endian) (mem : List UInt8) (host : Str) (port : ℕ) : Option (List UInt8) :=
  strcpy (writeAt mem serverPort.off (e.encode 4 port)) serverHost.off host

/-- The strings that are copied, with the fields they are copied to. -/
def copies (host : Str) : List (Field × Str) := [(serverHost, host)]

end NewTunnelReqMsg

namespace NewTunnelRspMsg

def proxyServerPort : Field := ⟨0, 4⟩
def serverPort : Field := ⟨4, 4⟩
def tunnelId : Field := ⟨8, 10⟩
def serverHost : Field := ⟨18, 20⟩
def proxyServerHost : Field := ⟨38, 20⟩

/-- With the two bytes that align the struct. -/
def size : ℕ := 60

/-- The struct, which holds `mem` before, with the two ports. -/
def ports (e : Endian) (mem req : List UInt8) (listenPort : ℕ) : List UInt8 :=
  let mem := writeAt mem serverPort.off
    (readAt req NewTunnelReqMsg.serverPort.off NewTunnelReqMsg.serverPort.size)
  writeAt mem proxyServerPort.off (e.encode 4 listenPort)

/-- What `Control::handleNewTunnelReq` puts into the struct. -/
def build (e : Endian) (mem req : List UInt8) (listenPort : ℕ) (id listenAddr : Str) :
    Option (List UInt8) := do
  let mem ← strcpy (ports e mem req listenPort) tunnelId.off id
  let mem ← strcpy mem proxyServerHost.off listenAddr
  let host ← cstr req NewTunnelReqMsg.serverHost.off
  strcpy mem serverHost.off host

/-- The strings that are copied, with the fields they are copied to. -/
def copies (req : List UInt8) (id listenAddr : Str) : List (Field × Str) :=
  [(tunnelId, id), (proxyServerHost, listenAddr)] ++
    ((cstr req NewTunnelReqMsg.serverHost.off).map fun host => (serverHost, host)).toList

end NewTunnelRspMsg

/-! ### Strings that fit -/

section Copy

variable {mem mem' : List UInt8} {f g : Field} {s : Str}

theorem length_strcpy {off : ℕ} (h : strcpy mem off s = some mem') : mem'.length = mem.length := by
  obtain ⟨hfit, h⟩ := Option.ite_none_right_eq_some.1 h
  rw [← Option.some.inj h, length_writeAt]
  rw [List.length_append, List.length_singleton]
  omega

/-- **A string that fits its field leaves the other fields as they are.** -/
theorem readAt_strcpy (h : strcpy mem f.off s = some mem') (hs : f.Takes s)
    (hd : g.off + g.size ≤ f.off ∨ f.off + f.size ≤ g.off) :
    readAt mem' g.off g.size = readAt mem g.off g.size := by
  obtain ⟨hfit, h⟩ := Option.ite_none_right_eq_some.1 h
  rw [← Option.some.inj h]
  refine readAt_writeAt_of_disjoint (by omega) ?_
  rw [List.length_append, List.length_singleton]
  rw [Field.Takes] at hs
  omega

/-- Fields in front of the string stay as they are, whether it fits its field or not. -/
theorem readAt_strcpy_of_le (h : strcpy mem f.off s = some mem') (hd : g.off + g.size ≤ f.off) :
    readAt mem' g.off g.size = readAt mem g.off g.size := by
  obtain ⟨hfit, h⟩ := Option.ite_none_right_eq_some.1 h
  rw [← Option.some.inj h]
  exact readAt_writeAt_of_disjoint (by omega) (.inl hd)

end Copy

/-- The field holds the string. -/
def Field.Holds (f : Field) (mem : List UInt8) (s : Str) : Prop :=
  readAt mem f.off (s.length + 1) = s ++ [0]

namespace Field.Holds

variable {mem mem' : List UInt8} {f g : Field} {s t : Str}

theorem of_strcpy (h : strcpy mem f.off s = some mem') : f.Holds mem' s := by
  obtain ⟨hfit, h⟩ := Option.ite_none_right_eq_some.1 h
  have hread := readAt_writeAt (s ++ [0]) (show f.off ≤ mem.length by omega)
  rw [List.length_append, List.length_singleton] at hread
  rw [Field.Holds, ← Option.some.inj h, hread]

/-- A string behind the field leaves what it holds. -/
theorem strcpy_of_le (hg : g.Holds mem t) (ht : g.Takes t) (h : strcpy mem f.off s = some mem')
    (hd : g.off + g.size ≤ f.off) : g.Holds mem' t := by
  have hread := readAt_strcpy_of_le (g := ⟨g.off, t.length + 1⟩) h (by
    rw [Field.Takes] at ht
    dsimp only
    omega)
  exact hread.trans hg

theorem cstr (h : f.Holds mem s) (hs : 0 ∉ s) : cstr mem f.off = some s := cstr_of_readAt hs h

end Field.Holds

/-! ### What the messages hold -/

section Build

variable {e : Endian} {mem req rsp : List UInt8} {port : ℕ} {host id addr : Str}

namespace NewTunnelRspMsg

/-- The strings of a response, one after the other. -/
theorem build_eq_some (h : build e mem req port id addr = some rsp) :
    ∃ mem₁ mem₂ host,
      strcpy (ports e mem req port) tunnelId.off id = some mem₁ ∧
      strcpy mem₁ proxyServerHost.off addr = some mem₂ ∧
      cstr req 0 = some host ∧ strcpy mem₂ serverHost.off host = some rsp := by
  obtain ⟨mem₁, h₁, h⟩ := Option.bind_eq_some_iff.1 h
  obtain ⟨mem₂, h₂, h⟩ := Option.bind_eq_some_iff.1 h
  obtain ⟨host, h₃, h⟩ := Option.bind_eq_some_iff.1 h
  exact ⟨mem₁, mem₂, host, h₁, h₂, h₃, h⟩

theorem length_ports (hmem : mem.length = size) : (ports e mem req port).length = size := by
  have hlen : (writeAt mem serverPort.off (readAt req 20 4)).length = size := by
    rw [length_writeAt, hmem]
    simp only [readAt, List.length_take, hmem, serverPort, size]
    omega
  have hfit : proxyServerPort.off + (e.encode 4 port).length ≤ size := by
    rw [Endian.length_encode]
    decide
  exact (length_writeAt (hlen.symm ▸ hfit)).trans hlen

/-- Both ports are in the struct. -/
theorem u32_ports (hmem : mem.length = size) (hreq : req.length = NewTunnelReqMsg.size)
    (hport : port < 2 ^ 32) :
    proxyServerPort.u32 e (ports e mem req port) = port ∧
      serverPort.u32 e (ports e mem req port) = NewTunnelReqMsg.serverPort.u32 e req := by
  have hlen := Endian.length_encode e 4 port
  constructor
  · have hwrite : readAt (ports e mem req port) 0 (e.encode 4 port).length = e.encode 4 port :=
      readAt_writeAt _ (Nat.zero_le _)
    rw [hlen] at hwrite
    exact (congrArg e.decode hwrite).trans
      ((Endian.decode_encode e 4 port).trans (Nat.mod_eq_of_lt hport))
  · have hwrite := readAt_writeAt (readAt req 20 4)
      (show serverPort.off ≤ mem.length by rw [hmem]; decide)
    rw [length_readAt (by rw [hreq]; decide)] at hwrite
    have hkeep : readAt (ports e mem req port) 4 4 =
        readAt (writeAt mem serverPort.off (readAt req 20 4)) 4 4 :=
      readAt_writeAt_of_disjoint (Nat.zero_le _) (.inr (Nat.le_of_eq ((Nat.zero_add _).trans hlen)))
    exact congrArg e.decode (hkeep.trans hwrite)

/-- **What stands in front of the hosts**, whatever these are. -/
theorem build_front (hmem : mem.length = size) (hreq : req.length = NewTunnelReqMsg.size)
    (hport : port < 2 ^ 32) (hid : tunnelId.Takes id)
    (h : build e mem req port id addr = some rsp) :
    proxyServerPort.u32 e rsp = port ∧
      serverPort.u32 e rsp = NewTunnelReqMsg.serverPort.u32 e req ∧ tunnelId.Holds rsp id := by
  obtain ⟨mem₁, mem₂, host, h₁, h₂, -, h₃⟩ := build_eq_some h
  -- the strings are copied behind the ports
  have hkeep : ∀ g : Field, g.off + g.size ≤ tunnelId.off →
      readAt rsp g.off g.size = readAt (ports e mem req port) g.off g.size := by
    intro g hg
    have hg' : g.off + g.size ≤ 8 := hg
    rw [readAt_strcpy_of_le h₃ (show g.off + g.size ≤ 18 by omega),
      readAt_strcpy_of_le h₂ (show g.off + g.size ≤ 38 by omega), readAt_strcpy_of_le h₁ hg]
  obtain ⟨hproxy, hserver⟩ := u32_ports (e := e) hmem hreq hport
  refine ⟨?_, ?_, ?_⟩
  · rw [Field.u32, hkeep proxyServerPort (by decide)]
    exact hproxy
  · rw [Field.u32, hkeep serverPort (by decide)]
    exact hserver
  · have hheld : tunnelId.Holds mem₁ id := .of_strcpy h₁
    have hheld₂ := hheld.strcpy_of_le hid h₂ (by decide)
    exact hheld₂.strcpy_of_le hid h₃ (by decide)

/-- A response is built when its strings end in the struct. -/
theorem exists_build (hmem : mem.length = size) (hid : tunnelId.Takes id)
    (haddr : proxyServerHost.Takes addr) (hhost : cstr req 0 = some host)
    (hlen : serverHost.off + host.length + 1 ≤ size) :
    ∃ rsp, build e mem req port id addr = some rsp ∧ rsp.length = size := by
  obtain ⟨mem₁, h₁⟩ : ∃ mem₁, strcpy (ports e mem req port) tunnelId.off id = some mem₁ := by
    refine ⟨_, strcpy_eq_some ?_⟩
    rw [length_ports hmem]
    simp only [Field.Takes, tunnelId, size] at hid ⊢
    omega
  have hlen₁ : mem₁.length = size := (length_strcpy h₁).trans (length_ports hmem)
  obtain ⟨mem₂, h₂⟩ : ∃ mem₂, strcpy mem₁ proxyServerHost.off addr = some mem₂ := by
    refine ⟨_, strcpy_eq_some ?_⟩
    rw [hlen₁]
    simp only [Field.Takes, proxyServerHost, size] at haddr ⊢
    omega
  have hlen₂ : mem₂.length = size := (length_strcpy h₂).trans hlen₁
  obtain ⟨rsp, h₃⟩ : ∃ rsp, strcpy mem₂ serverHost.off host = some rsp :=
    ⟨_, strcpy_eq_some (by rw [hlen₂]; exact hlen)⟩
  refine ⟨rsp, ?_, (length_strcpy h₃).trans hlen₂⟩
  exact Option.bind_eq_some_iff.2 ⟨mem₁, h₁, Option.bind_eq_some_iff.2 ⟨mem₂, h₂,
    Option.bind_eq_some_iff.2 ⟨host, hhost, h₃⟩⟩⟩

end NewTunnelRspMsg

end Build

end ProxySocket
