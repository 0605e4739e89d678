import Violet.Transition.Run
import Violet.Tun2Http.Dns
import Violet.Tun2Http.Packets
import Mathlib.Logic.Relation

/-!
# The UDP sessions of the proxy

`udp.c`: a session sends what the client sends through its socket, and writes what the socket
receives to the client. A question to a DNS server goes to the local server instead, which a child
of the process asks. A DHCP request is answered by the session itself, which from then on has
another address for the client.

As for TCP, what the functions ask of the system is an argument, and what they do outside is in a
log.
-/

namespace Violet.Tun2Http

open Transition Wire Relation

inductive UdpState
  | ACTIVE
  | FINISHING
  | CLOSED
  | BLOCKED
  deriving DecidableEq, Repr

structure UdpSession where
  time : ℤ
  version : Version
  mss : BitVec 16
  sent : BitVec 64
  received : BitVec 64
  saddr : Addr
  source : BitVec 16
  daddr : Addr
  dest : BitVec 16
  state : UdpState
  socket : Option ℕ
  deriving DecidableEq, Repr

inductive UdpAction
  | write (p : UdpPacket) (ok : Bool)
  /-- `sendto`. -/
  | send (bytes : List Byte)
  /-- A child of the process asks the local DNS server. -/
  | resolve (bytes : List Byte)
  /-- A request that the session answers itself. -/
  | dhcp (request : List Byte)
  | recv (bytes : List Byte)
  | close (socket : Option ℕ)
  deriving DecidableEq, Repr

structure Udp extends UdpSession where
  log : List UdpAction := []
  deriving DecidableEq, Repr

/-- What `sendto` returns: what it has been given, or an error after which it may be tried again or
not. -/
inductive SendTo
  | sent
  | retry
  | failed
  deriving DecidableEq, Repr

def UDP_TIMEOUT_53 : ℤ := 15
def UDP_TIMEOUT_ANY : ℤ := 300
def UDP_KEEP_TIMEOUT : ℤ := 60
def UDP4_MAXMSG : BitVec 16 := 65507
def UDP6_MAXMSG : BitVec 16 := 65487

def getUdpTimeout (u : UdpSession) (sessions maxsessions : ℤ) : ℤ :=
  scaleTimeout (if u.dest = 53 then UDP_TIMEOUT_53 else UDP_TIMEOUT_ANY) sessions maxsessions

/-! ### DHCP -/

/-- 10.1.10.1 -/
def dhcpServer : List Byte := [10, 1, 10, 1]

/-- 10.1.10.2 -/
def dhcpOffer : List Byte := [10, 1, 10, 2]

/-- The source address of a session that has answered a request: the server is written over its
first bytes. -/
def leased (saddr : Addr) : Addr := .ofFn fun i => dhcpServer.getD i (saddr.get i)

/-- The 500 bytes of the answer. Its options are written far behind them. -/
def dhcpResponse (request : List Byte) : List Byte :=
  [if (request.drop 20).take 4 = [0, 0, 0, 0] then 2 else 4] ++ (request.drop 1).take 7 ++
    .replicate 8 0 ++ dhcpOffer ++ dhcpServer ++ .replicate 4 0 ++ (request.drop 28).take 212 ++
    .replicate 260 0

lemma length_dhcpResponse_le (request : List Byte) : (dhcpResponse request).length ≤ 500 := by
  simp only [dhcpResponse, dhcpOffer, dhcpServer, List.length_append, List.length_cons,
    List.length_nil, List.length_replicate, List.length_take]
  omega

namespace Udp

def did (u : Udp) (a : UdpAction) : Udp := { u with log := u.log ++ [a] }

/-- The packet of `write_udp`. -/
def packet (u : Udp) (data : List Byte) : UdpPacket :=
  ⟨u.version, u.daddr, u.saddr, u.dest, u.source, data⟩

/-- `check_udp_session`, and whether the session is to be deleted. -/
def checkUdpSession (u : Udp) (now sessions maxsessions : ℤ) : Udp × Bool :=
  let timeout := getUdpTimeout u.toUdpSession sessions maxsessions
  let u := if u.state = .ACTIVE ∧ u.time + timeout < now then { u with state := .FINISHING } else u
  let u :=
    if u.state = .FINISHING then
      { u.did (.close u.socket) with socket := none, time := now, state := .CLOSED }
    else u
  let u :=
    if u.state = .CLOSED ∧ (u.sent ≠ 0 ∨ u.received ≠ 0) then { u with sent := 0, received := 0 }
    else u
  (u, (u.state = .CLOSED ∨ u.state = .BLOCKED) ∧ u.time + UDP_KEEP_TIMEOUT < now)

/-- A datagram from the socket goes to the client. -/
def recvData (u : Udp) (bytes : List Byte) (writeOk : Bool) : Udp :=
  let u := { u.did (.recv bytes) with received := u.received + BitVec.ofNat 64 bytes.length }
  let u := u.did (.write (u.packet bytes) writeOk)
  if !writeOk ∨ u.dest = 53 then { u with state := .FINISHING } else u

/-- `check_udp_socket`. A datagram without data counts as the end, and what a DNS server answers is
parsed. -/
def checkUdpSocket (u : Udp) (ev : Events) (now : ℤ) (received : Recv) (beyond : ℕ → Byte)
    (writeOk : Bool) : Option Udp :=
  if ev.err then some { u with time := now, state := .FINISHING }
  else if ev.inp then
    let u := { u with time := now }
    match received with
    | .retry => some u
    | .error | .eof => some { u with state := .FINISHING }
    | .data bytes =>
      if u.dest = 53 ∧ parseDnsResponse (memoryOf bytes beyond) bytes.length = none then none
      else some (u.recvData bytes writeOk)
  else some u

/-- The answer to a DHCP request. -/
def answer (u : Udp) (request : List Byte) (writeOk : Bool) : Udp :=
  let u := { u.did (.dhcp request) with saddr := leased u.saddr }
  u.did (.write (u.packet (dhcpResponse request)) writeOk)

/-- `check_dhcp`, unless the packet is not one of DHCP. -/
def checkDhcp (u : Udp) (data : List Byte) (writeOk : Bool) : Option Udp :=
  let byte := fun i => data.getD i 0
  if data.length < 240 then none
  else if (data.drop 236).take 4 ≠ [0x63, 0x82, 0x53, 0x63] then none
  else if byte 1 ≠ 1 ∨ byte 2 ≠ 6 then none
  else if byte 0 = 1 then some (u.answer data writeOk)
  else some u

/-- `handle_udp` for a packet that is neither for DNS nor for DHCP. -/
def forward (u : Udp) (p : UdpPacket) (now : ℤ) (result : SendTo) : Udp :=
  let u := { u with time := now }
  match result with
  | .sent => { u.did (.send p.data) with sent := u.sent + BitVec.ofNat 64 p.data.length }
  | .retry => u
  | .failed => { u with state := .FINISHING }

/-- `handle_udp` for a session that is active. -/
def handleUdp (u : Udp) (p : UdpPacket) (beyond : ℕ → Byte) (now : ℤ) (result : SendTo)
    (writeOk : Bool) : Option Udp :=
  if p.dest = 53 then
    (getDnsQuery (memoryOf p.data beyond) p.data.length).map fun _ => u.did (.resolve p.data)
  else if p.source = 68 ∨ p.dest = 67 then
    some ((u.checkDhcp p.data writeOk).getD (u.forward p now result))
  else some (u.forward p now result)

/-- The session that `handle_udp` registers. -/
def new (p : UdpPacket) (now : ℤ) (socket : ℕ) : Udp where
  time := now
  version := p.version
  mss := if p.version = .v4 then UDP4_MAXMSG else UDP6_MAXMSG
  sent := 0
  received := 0
  saddr := p.saddr
  source := p.source
  daddr := p.daddr
  dest := p.dest
  state := .ACTIVE
  socket := some socket

/-- What `check_allowed` does to a session, and whether it removes it. -/
def terminate (u : Udp) : Udp × Bool :=
  if u.state = .ACTIVE then ({ u with state := .FINISHING }, false)
  else (u, u.state = .BLOCKED)

end Udp

/-! ### Events -/

inductive UdpEvent
  | packet (p : UdpPacket) (beyond : ℕ → Byte) (now : ℤ) (result : SendTo) (writeOk : Bool)
  | socket (ev : Events) (now : ℤ) (received : Recv) (beyond : ℕ → Byte) (writeOk : Bool)
  | check (now sessions maxsessions : ℤ)
  /-- `check_allowed`. -/
  | terminate

namespace Udp

/-- The loop of `handle_events` around `check_udp_socket`, which is not entered at an error. -/
def socketEvent (u : Udp) (ev : Events) (now : ℤ) (received : Recv) (beyond : ℕ → Byte)
    (writeOk : Bool) : Option Udp :=
  if !ev.err ∧ ev.inp then u.checkUdpSocket ev now received beyond writeOk else some u

/-- The session after an event, unless it is deleted or the process ends. -/
def step (u : Udp) : UdpEvent → Option Udp
  | .packet p beyond now result writeOk =>
    if u.state = .ACTIVE then u.handleUdp p beyond now result writeOk else some u
  | .socket ev now received beyond writeOk => u.socketEvent ev now received beyond writeOk
  | .check now sessions maxsessions =>
    let (u, del) := u.checkUdpSession now sessions maxsessions
    if del then none else some u
  | .terminate =>
    let (u, del) := u.terminate
    if del then none else some u

/-- The events that the system and a client with packets in `P` may bring about. -/
def Admits (P : UdpPacket → Prop) (u : Udp) : UdpEvent → Prop
  | .packet p .. => P p
  | .socket _ _ received _ _ =>
    u.socket ≠ none ∧ ∀ bytes, received = .data bytes → bytes.length ≤ u.mss.toNat
  | .check .. | .terminate => True

/-- The session holds its socket until it is closed. -/
def HoldsSocket (u : Udp) : Prop := u.socket = none ↔ u.state = .CLOSED ∨ u.state = .BLOCKED

/-- One step of a session with a client that sends packets in `P`. -/
inductive Does (P : UdpPacket → Prop) : Udp → Udp → Prop
  | quiet (u : Udp) (time : ℤ) (sent received : BitVec 64) :
      Does P u { u with time, sent, received }
  | finish (u : Udp) (hsocket : u.socket ≠ none) : Does P u { u with state := .FINISHING }
  | send (u : Udp) (p : UdpPacket) (hp : P p) (a : UdpAction)
      (ha : a = .send p.data ∨ a = .resolve p.data) : Does P u (u.did a)
  | answer (u : Udp) (p : UdpPacket) (hp : P p) (ok : Bool) : Does P u (u.answer p.data ok)
  | relay (u : Udp) (bytes : List Byte) (ok : Bool) (hlen : bytes.length ≤ u.mss.toNat) :
      Does P u ((u.did (.recv bytes)).did (.write (u.packet bytes) ok))
  | close (u : Udp) (socket : ℕ) (hsocket : u.socket = some socket) :
      Does P u { u.did (.close (some socket)) with socket := none, state := .CLOSED }

abbrev Runs (P : UdpPacket → Prop) : Udp → Udp → Prop := ReflTransGen (Does P)

variable {P : UdpPacket → Prop} {u u' : Udp}

lemma Does.holdsSocket (h : Does P u u') (hu : u.HoldsSocket) : u'.HoldsSocket := by
  cases h with
  | quiet | send | answer | relay => exact hu
  | finish hsocket => simp [HoldsSocket, hsocket]
  | close socket hsocket => simp [HoldsSocket]

lemma Runs.keeps {I : Udp → Prop} (hdoes : ∀ u u', Does P u u' → I u → I u') (h : Runs P u u')
    (h0 : I u) : I u' := by
  induction h with
  | refl => exact h0
  | tail _ hstep ih => exact hdoes _ _ hstep ih

lemma runs_time {time : ℤ} : Runs P u { u with time := time } :=
  .single (.quiet u time u.sent u.received)

lemma runs_finish (hsocket : u.socket ≠ none) : Runs P u { u with state := .FINISHING } :=
  .single (.finish u hsocket)

lemma HoldsSocket.socket_ne (hu : u.HoldsSocket)
    (hstate : u.state = .ACTIVE ∨ u.state = .FINISHING) : u.socket ≠ none := by
  intro hnone
  rcases hu.mp hnone with hclosed | hblocked <;> simp_all

lemma runs_checkUdpSession {now sessions maxsessions : ℤ} (hu : u.HoldsSocket) :
    Runs P u (u.checkUdpSession now sessions maxsessions).1 := by
  unfold checkUdpSession
  extract_lets timeout u₁ closing u₂ u₃
  have h₁ : Runs P u u₁ := by
    simp only [u₁]
    split_ifs with hidle
    · exact runs_finish (hu.socket_ne (.inl hidle.1))
    · exact .refl
  have hu₁ : u₁.HoldsSocket := h₁.keeps (fun _ _ => Does.holdsSocket) hu
  have h₂ : Runs P u u₂ := by
    simp only [u₂, closing]
    split_ifs with hfinishing
    · obtain ⟨socket, hsocket⟩ := Option.ne_none_iff_exists'.mp (hu₁.socket_ne (.inr hfinishing))
      rw [hsocket]
      exact (h₁.tail (.close u₁ socket hsocket)).trans runs_time
    · exact h₁
  simp only [u₃]
  split_ifs
  · exact h₂.tail (.quiet u₂ u₂.time 0 0)
  · exact h₂

/-- A session that is deleted has closed its socket. -/
lemma socket_of_delete {now sessions maxsessions : ℤ} (hu : u.HoldsSocket)
    (h : (u.checkUdpSession now sessions maxsessions).2 = true) :
    (u.checkUdpSession now sessions maxsessions).1.socket = none := by
  have hruns : Runs (fun _ => True) u (u.checkUdpSession now sessions maxsessions).1 :=
    runs_checkUdpSession hu
  have hholds := hruns.keeps (fun _ _ => Does.holdsSocket) hu
  refine hholds.mpr ?_
  unfold checkUdpSession at h ⊢
  exact (of_decide_eq_true h).1

lemma runs_recvData {bytes : List Byte} {ok : Bool} (hsocket : u.socket ≠ none)
    (hlen : bytes.length ≤ u.mss.toNat) : Runs P u (u.recvData bytes ok) := by
  unfold recvData
  extract_lets recv u₁ u₂
  have hcount : Runs P u { u with received := u.received + BitVec.ofNat 64 bytes.length } :=
    .single (.quiet u u.time u.sent _)
  have hrelay : Runs P u u₂ := hcount.tail
    (.relay { u with received := u.received + BitVec.ofNat 64 bytes.length } bytes ok hlen)
  split_ifs
  · exact hrelay.tail (.finish u₂ hsocket)
  · exact hrelay

lemma runs_checkUdpSocket {ev : Events} {now : ℤ} {received : Recv} {beyond : ℕ → Byte} {ok : Bool}
    (hsocket : u.socket ≠ none)
    (hrecv : ∀ bytes, received = .data bytes → bytes.length ≤ u.mss.toNat)
    (h : u.checkUdpSocket ev now received beyond ok = some u') : Runs P u u' := by
  have htime : Runs P u { u with time := now } := runs_time
  rw [checkUdpSocket] at h
  split_ifs at h
  · cases h
    exact htime.trans (runs_finish hsocket)
  · cases hreceived : received with
    | retry =>
      rw [hreceived] at h
      cases h
      exact htime
    | error | eof =>
      rw [hreceived] at h
      cases h
      exact htime.trans (runs_finish hsocket)
    | data bytes =>
      simp only [hreceived] at h
      obtain ⟨-, h⟩ := Option.ite_none_left_eq_some.mp h
      cases h
      exact htime.trans (runs_recvData hsocket (hrecv bytes hreceived))
  · cases h
    exact .refl

variable {p : UdpPacket} {now : ℤ} {result : SendTo}

lemma runs_forward (hp : P p) (hsocket : u.socket ≠ none) : Runs P u (u.forward p now result) := by
  have htime : Runs P u { u with time := now } := runs_time
  unfold forward
  cases result with
  | sent =>
    have hsend := htime.tail (.send _ p hp (.send p.data) (.inl rfl))
    exact hsend.tail (.quiet _ now (u.sent + BitVec.ofNat 64 p.data.length) u.received)
  | retry => exact htime
  | failed => exact htime.trans (runs_finish hsocket)

lemma runs_checkDhcp {ok : Bool} (hp : P p) (h : u.checkDhcp p.data ok = some u') :
    Runs P u u' := by
  rw [checkDhcp] at h
  split_ifs at h
  · cases h
    exact .single (.answer u p hp ok)
  · cases h
    exact .refl

lemma runs_handleUdp {beyond : ℕ → Byte} {ok : Bool} (hp : P p) (hsocket : u.socket ≠ none)
    (h : u.handleUdp p beyond now result ok = some u') : Runs P u u' := by
  rw [handleUdp] at h
  split_ifs at h
  · obtain ⟨-, -, rfl⟩ := Option.map_eq_some_iff.mp h
    exact .single (.send u p hp _ (.inr rfl))
  · cases h
    cases hdhcp : u.checkDhcp p.data ok with
    | none => exact runs_forward hp hsocket
    | some u' => exact runs_checkDhcp hp hdhcp
  · cases h
    exact runs_forward hp hsocket

lemma runs_socketEvent {ev : Events} {received : Recv} {beyond : ℕ → Byte} {ok : Bool}
    (hsocket : u.socket ≠ none)
    (hrecv : ∀ bytes, received = .data bytes → bytes.length ≤ u.mss.toNat)
    (h : u.socketEvent ev now received beyond ok = some u') : Runs P u u' := by
  rw [socketEvent] at h
  split_ifs at h
  · exact runs_checkUdpSocket hsocket hrecv h
  · cases h
    exact .refl

lemma runs_terminate (hu : u.HoldsSocket) : Runs P u u.terminate.1 := by
  rw [terminate]
  split_ifs with hactive
  · exact runs_finish (hu.socket_ne (.inl hactive))
  · exact .refl

lemma socket_of_terminate (hu : u.HoldsSocket) (h : u.terminate.2 = true) :
    u.terminate.1.socket = none := by
  rw [terminate] at h ⊢
  split_ifs at h ⊢
  exact hu.mpr (.inr (of_decide_eq_true h))

theorem runs_step {e : UdpEvent} (hu : u.HoldsSocket) (hguard : u.Admits P e)
    (h : u.step e = some u') : Runs P u u' := by
  cases e with
  | packet p beyond now result ok =>
    rw [step] at h
    split_ifs at h with hactive
    · exact runs_handleUdp hguard (hu.socket_ne (.inl hactive)) h
    · cases h
      exact .refl
  | socket ev now received beyond ok => exact runs_socketEvent hguard.1 hguard.2 h
  | check now sessions maxsessions =>
    obtain ⟨-, h⟩ := Option.ite_none_left_eq_some.mp h
    cases h
    exact runs_checkUdpSession hu
  | terminate =>
    obtain ⟨-, h⟩ := Option.ite_none_left_eq_some.mp h
    cases h
    exact runs_terminate hu

/-- What every step keeps holds in every run. -/
theorem keeps_of_reaches {I : Udp → Prop} (hdoes : ∀ u u', Does P u u' → I u → I u')
    (h : Reaches step (Admits P) u u') (hu : u.HoldsSocket) (h0 : I u) : u'.HoldsSocket ∧ I u' := by
  refine h.invariant (P := fun u => u.HoldsSocket ∧ I u) ⟨hu, h0⟩
    fun u e u' hI hguard hstep => ?_
  have hruns := runs_step hI.1 hguard hstep
  exact ⟨hruns.keeps (fun _ _ => Does.holdsSocket) hI.1, hruns.keeps hdoes hI.2⟩

/-! ### What is relayed -/

end Udp

/-- The packet that is written. -/
@[simp] def UdpAction.written : UdpAction → Option UdpPacket
  | .write p _ => some p
  | .send _ | .resolve _ | .dhcp _ | .recv _ | .close _ => none

/-- The datagram that the socket gives. -/
@[simp] def UdpAction.arrived : UdpAction → Option (List Byte)
  | .recv bytes => some bytes
  | .write _ _ | .send _ | .resolve _ | .dhcp _ | .close _ => none

/-- The data of a packet, to the host, to the local DNS server or to the session itself. -/
@[simp] def UdpAction.taken : UdpAction → Option (List Byte)
  | .send bytes | .resolve bytes | .dhcp bytes => some bytes
  | .write _ _ | .recv _ | .close _ => none

/-- The DHCP request that is answered. -/
@[simp] def UdpAction.request : UdpAction → Option (List Byte)
  | .dhcp request => some request
  | .write _ _ | .send _ | .resolve _ | .recv _ | .close _ => none

/-- The address of the client behind an action. -/
@[simp] def UdpAction.address (saddr : Addr) : UdpAction → Addr
  | .dhcp _ => leased saddr
  | .write _ _ | .send _ | .resolve _ | .recv _ | .close _ => saddr

/-- What an action asks to be written to a client at this address. -/
@[simp] def UdpAction.relayed (p : UdpPacket) (saddr : Addr) : UdpAction → Option UdpPacket
  | .recv bytes => some ⟨p.version, p.daddr, saddr, p.dest, p.source, bytes⟩
  | .dhcp request =>
    some ⟨p.version, p.daddr, leased saddr, p.dest, p.source, dhcpResponse request⟩
  | .write _ _ | .send _ | .resolve _ | .close _ => none

/-- What is to be written for a log: each datagram and an answer to each DHCP request. -/
def relayed (p : UdpPacket) : Addr → List UdpAction → List UdpPacket
  | _, [] => []
  | saddr, a :: log => (a.relayed p saddr).toList ++ relayed p (a.address saddr) log

lemma relayed_append (p : UdpPacket) (saddr : Addr) (log log' : List UdpAction) :
    relayed p saddr (log ++ log') =
      relayed p saddr log ++ relayed p (log.foldl UdpAction.address saddr) log' := by
  induction log generalizing saddr with
  | nil => rfl
  | cons a log ih => rw [List.cons_append, relayed, relayed, ih, List.foldl_cons, List.append_assoc]

/-- Without DHCP requests, the datagrams alone. -/
lemma relayed_eq_map {p : UdpPacket} {saddr : Addr} {log : List UdpAction}
    (h : ∀ a ∈ log, a.request = none) :
    relayed p saddr log = (log.filterMap UdpAction.arrived).map
      (⟨p.version, p.daddr, saddr, p.dest, p.source, ·⟩) := by
  induction log with
  | nil => rfl
  | cons a log ih =>
    obtain ⟨ha, hlog⟩ := List.forall_mem_cons.mp h
    cases a with
    | dhcp request => cases ha
    | _ => simp [relayed, ih hlog, List.filterMap_cons]

namespace Udp

def written (u : Udp) : List UdpPacket := u.log.filterMap UdpAction.written

def arrived (u : Udp) : List (List Byte) := u.log.filterMap UdpAction.arrived

def taken (u : Udp) : List (List Byte) := u.log.filterMap UdpAction.taken

def requests (u : Udp) : List (List Byte) := u.log.filterMap UdpAction.request

variable {P : UdpPacket → Prop} {u u' : Udp} {p : UdpPacket} {now : ℤ} {a : UdpAction}

@[simp] lemma written_did : (u.did a).written = u.written ++ a.written.toList := by
  cases a <;> simp [written, did]

@[simp] lemma taken_did : (u.did a).taken = u.taken ++ a.taken.toList := by
  cases a <;> simp [taken, did]

/-- A session for the packets that are like a first one. -/
structure Relays (P : UdpPacket → Prop) (p : UdpPacket) (u : Udp) : Prop where
  packet_eq : ∀ bytes, u.packet bytes = ⟨p.version, p.daddr, u.saddr, p.dest, p.source, bytes⟩
  saddr : u.saddr = u.log.foldl UdpAction.address p.saddr
  mss : u.mss.toNat + 8 < 2 ^ 16
  written : u.written = relayed p p.saddr u.log
  correct : ∀ q ∈ u.written, Correct q.version q.saddr q.daddr IPPROTO_UDP q.bytes
  taken : ∀ bytes ∈ u.taken, ∃ q, P q ∧ q.data = bytes

namespace Relays

/-- An action that neither writes anything nor asks for it. -/
lemma did (h : u.Relays P p) (hwritten : a.written = none)
    (hrelayed : ∀ saddr, a.relayed p saddr = none)
    (haddress : ∀ saddr, a.address saddr = saddr)
    (htaken : ∀ bytes ∈ a.taken, ∃ q, P q ∧ q.data = bytes) : (u.did a).Relays P p := by
  obtain ⟨hpacket, hsaddr, hmss, hwritten₀, hcorrect, htaken₀⟩ := h
  have hwrites : (u.did a).written = u.written := by
    rw [written_did, hwritten, Option.toList_none, List.append_nil]
  have hlog : (u.did a).log = u.log ++ [a] := rfl
  refine ⟨hpacket, hsaddr.trans ?_, hmss, ?_, hwrites ▸ hcorrect, fun bytes hbytes => ?_⟩
  · rw [hlog, List.foldl_concat, haddress]
  · rw [hwrites, hwritten₀, hlog, relayed_append, relayed, hrelayed]
    simp [relayed]
  · rw [taken_did, List.mem_append, Option.mem_toList] at hbytes
    exact hbytes.elim (htaken₀ bytes) (htaken bytes)

/-- A packet that is written because an action asks for it. -/
lemma write {saddr : Addr} {bytes : List Byte} {ok : Bool} (h : u.Relays P p)
    (hrelayed : a.relayed p u.saddr = some ⟨p.version, p.daddr, saddr, p.dest, p.source, bytes⟩)
    (hwritten : a.written = none) (haddress : a.address u.saddr = saddr)
    (hlen : 8 + bytes.length < 2 ^ 16) (htaken : ∀ bytes ∈ a.taken, ∃ q, P q ∧ q.data = bytes) :
    let v : Udp := { u.did a with saddr := saddr }
    (v.did (.write (v.packet bytes) ok)).Relays P p := by
  intro v
  obtain ⟨hpacket, hsaddr, hmss, hwritten₀, hcorrect, htaken₀⟩ := h
  have hpacket' : ∀ bytes, v.packet bytes =
      ⟨p.version, p.daddr, saddr, p.dest, p.source, bytes⟩ := by
    intro bytes
    have hfields := hpacket bytes
    simp only [packet, UdpPacket.mk.injEq] at hfields
    simp [v, packet, Udp.did, hfields]
  rw [hpacket']
  generalize hq : UdpPacket.mk p.version p.daddr saddr p.dest p.source bytes = q at hrelayed
  have hlog : (v.did (.write q ok)).log = u.log ++ [a, .write q ok] := List.append_assoc _ _ _
  have hwrites : (v.did (.write q ok)).written = u.written ++ [q] := by
    rw [Udp.written, hlog, List.filterMap_append, List.filterMap_cons, hwritten]
    rfl
  refine ⟨hpacket', ?_, hmss, ?_, fun r hr => ?_, fun bytes' hbytes => ?_⟩
  · rw [hlog, List.foldl_append, ← hsaddr, List.foldl_cons, haddress]
    rfl
  · rw [hwrites, hlog, relayed_append, ← hsaddr, ← hwritten₀, relayed, hrelayed]
    rfl
  · rw [hwrites, List.mem_append, List.mem_singleton] at hr
    rcases hr with hr | rfl
    · exact hcorrect r hr
    · exact hq ▸ UdpPacket.correct_udp_bytes _ hlen
  · rw [Udp.taken, hlog, List.filterMap_append] at hbytes
    rcases List.mem_append.mp hbytes with hbytes | hbytes
    · exact htaken₀ bytes' hbytes
    · obtain ⟨b, hb, hsome⟩ := List.mem_filterMap.mp hbytes
      rw [List.mem_pair] at hb
      rcases hb with rfl | rfl
      · exact htaken bytes' hsome
      · cases hsome

end Relays

lemma Does.relays (h : Does P u u') (hu : u.Relays P p) : u'.Relays P p := by
  cases h with
  | quiet | finish => exact ⟨hu.packet_eq, hu.saddr, hu.mss, hu.written, hu.correct, hu.taken⟩
  | send q hq a ha =>
    rcases ha with rfl | rfl <;>
      exact hu.did rfl (fun _ => rfl) (fun _ => rfl) (by simpa using ⟨q, hq, rfl⟩)
  | answer q hq ok =>
    have hlength := length_dhcpResponse_le q.data
    exact hu.write rfl rfl rfl (by omega) (by simpa using ⟨q, hq, rfl⟩)
  | relay bytes ok hlen =>
    have hmss := hu.mss
    exact hu.write rfl rfl rfl (by omega) (by simp)
  | close socket hsocket =>
    have hclose : (u.did (.close (some socket))).Relays P p :=
      hu.did rfl (fun _ => rfl) (fun _ => rfl) (by simp)
    exact ⟨hclose.packet_eq, hclose.saddr, hclose.mss, hclose.written, hclose.correct,
      hclose.taken⟩

/-- A DHCP request of a client without an address. -/
def discover : UdpPacket :=
  ⟨.v4, .replicate 16 0, .replicate 16 255, 68, 67,
    [1, 1, 6] ++ .replicate 233 0 ++ [0x63, 0x82, 0x53, 0x63]⟩

/-- The session for it, with an answer of the host as well. -/
def answered : Udp := ((new discover 0 7).answer discover.data true).recvData [1, 2, 3] true

lemma reaches_answered : Reaches step (Admits (· = discover)) (new discover 0 7) answered := by
  have hpacket : Admits (· = discover) (new discover 0 7)
      (.packet discover (fun _ => 0) 0 .sent true) := rfl
  have hsocket : Admits (· = discover) ((new discover 0 7).answer discover.data true)
      (.socket ⟨false, true, false⟩ 0 (.data [1, 2, 3]) (fun _ => 0) true) := by
    refine ⟨Option.some_ne_none 7, fun bytes heq => ?_⟩
    cases heq
    decide
  have hanswer : (new discover 0 7).step (.packet discover (fun _ => 0) 0 .sent true) =
      some ((new discover 0 7).answer discover.data true) := by
    decide +kernel
  exact .tail (.tail .refl hpacket hanswer) hsocket rfl

end Udp

end Violet.Tun2Http
