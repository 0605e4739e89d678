import Violet.Transition.Files
import Violet.Tun2Http.Icmp
import Violet.Tun2Http.Ip
import Violet.Tun2Http.TcpRuns

/-!
# The table of sessions

`session.c` keeps the sessions of all protocols in one list. A packet is for the session with its
protocol, addresses and ports, or opens one; the loop looks after all sessions from time to time.

What the functions do to descriptors is in one log for the whole proxy: which socket has been given
out, and which has been closed.
-/

namespace Violet.Tun2Http

open Transition Wire

/-! ### Flows -/

/-- What the functions compare to find the session of a packet. -/
inductive Flow
  | icmp (version : Version) (saddr daddr : List Byte)
  | udp (version : Version) (saddr daddr : List Byte) (source dest : BitVec 16)
  | tcp (version : Version) (saddr daddr : List Byte) (source dest : BitVec 16)
  deriving DecidableEq, Repr

def IcmpSession.flow (s : IcmpSession) : Flow :=
  .icmp s.version (addrBytes s.version s.saddr) (addrBytes s.version s.daddr)

def UdpSession.flow (s : UdpSession) : Flow :=
  .udp s.version (addrBytes s.version s.saddr) (addrBytes s.version s.daddr) s.source s.dest

def TcpSession.flow (s : TcpSession) : Flow :=
  .tcp s.version (addrBytes s.version s.saddr) (addrBytes s.version s.daddr) s.source s.dest

def UdpPacket.flow (p : UdpPacket) : Flow :=
  .udp p.version (addrBytes p.version p.saddr) (addrBytes p.version p.daddr) p.source p.dest

def Incoming.flow (p : Incoming) : Flow :=
  .tcp p.version (addrBytes p.version p.saddr) (addrBytes p.version p.daddr) p.source p.dest

def Datagram.flow : Datagram → Flow
  | .icmp version saddr daddr _ _ _ =>
    .icmp version (addrBytes version saddr) (addrBytes version daddr)
  | .udp p => p.flow
  | .tcp p _ => p.flow

/-! ### Sessions -/

@[simp] def IcmpAction.closing : IcmpAction → Option FileAction
  | .close socket => some (socket.elim .invalid .closing)
  | .write .. | .send _ | .recv _ => none

@[simp] def UdpAction.closing : UdpAction → Option FileAction
  | .close socket => some (socket.elim .invalid .closing)
  | .write .. | .send _ | .resolve _ | .dhcp _ | .recv _ => none

@[simp] def Action.closing : Action → Option FileAction
  | .close socket => some (.closing socket)
  | .write .. | .connect _ | .discard _ | .forward _ | .lose _ | .recv _ => none

inductive NgSession
  | icmp (s : Icmp)
  | udp (u : Udp)
  | tcp (c : Conn)
  deriving DecidableEq, Repr

/-- The answers of the system while a packet is handled. -/
structure PacketAnswers where
  now : ℤ
  /-- `sendto`, and `send` of the `CONNECT` request. -/
  result : SendTo
  sendOk : Bool
  writeOk : Bool

/-- The answers of the system while a session is monitored. -/
structure MonitorAnswers where
  ms : ℤ
  buffer : SendBuffer
  writeOk : Bool
  ctlOk : Bool

namespace NgSession

def flow : NgSession → Flow
  | icmp s => s.flow
  | udp u => u.flow
  | tcp c => c.flow

def socket : NgSession → Option ℕ
  | icmp s => s.socket
  | udp u => u.socket
  | tcp c => c.socket

/-- Whether a packet can find the session: `!stop` for ICMP. -/
def found : NgSession → Bool
  | icmp s => !s.stop
  | udp _ | tcp _ => true

/-- Whether the session counts. -/
def counts : NgSession → Bool
  | icmp s => !s.stop
  | udp u => u.state = .ACTIVE
  | tcp c => c.state ≠ .CLOSING ∧ c.state ≠ .CLOSE

/-- What the session has closed. -/
def closings : NgSession → List FileAction
  | icmp s => s.log.filterMap IcmpAction.closing
  | udp u => u.log.filterMap UdpAction.closing
  | tcp c => c.log.filterMap Action.closing

/-- What has been closed on the way to a later state of the session. -/
def closedUntil (s s' : NgSession) : List FileAction := s'.closings.drop s.closings.length

/-- `handle_icmp`, `handle_udp` or `handle_tcp` for a session that has been found. The checksum of a
message whose size has wrapped around is summed beyond the end of the memory. -/
def handle (signedChar : Bool) (d : Datagram) (beyond : ℕ → Byte) (a : PacketAnswers) :
    NgSession → Option NgSession
  | icmp s =>
    match d with
    | .icmp version saddr daddr protocol plen message =>
      let request := icmpRequest version saddr daddr protocol plen message
      if 2 ^ 63 ≤ message.length then none
      else some (icmp (s.handleIcmp request a.now a.result))
    | _ => some (icmp s)
  | udp u =>
    match d with
    | .udp p =>
      if u.state = .ACTIVE then (u.handleUdp p beyond a.now a.result a.writeOk).map udp
      else some (udp u)
    | _ => some (udp u)
  | tcp c =>
    match d with
    | .tcp p _ =>
      some (tcp (c.handleTcp signedChar p a.now (a.sendOk && c.socket.isSome) a.writeOk))
    | _ => some (tcp c)

def checkSocket (ev : Events) (a : Conn.Answers) : NgSession → Option NgSession
  | icmp s => some (icmp (s.checkIcmpSocket ev a.now a.received a.writeOk))
  | udp u => (u.socketEvent ev a.now a.received (a.beyond 0) a.writeOk).map udp
  | tcp c => (c.checkTcpSocket ev a).map tcp

/-- The session, and whether it is to be deleted. -/
def checkSession (now sessions maxsessions : ℤ) (writeOk : Bool) : NgSession → NgSession × Bool
  | icmp s => (s.checkIcmpSession now sessions maxsessions).map icmp id
  | udp u => (u.checkUdpSession now sessions maxsessions).map udp id
  | tcp c => (c.checkTcpSession now sessions maxsessions writeOk).map tcp id

def monitor (a : MonitorAnswers) : NgSession → NgSession
  | tcp c =>
    if c.socket.isSome then tcp (c.monitorTcpSession a.ms a.buffer a.writeOk a.ctlOk).1 else tcp c
  | s => s

/-- What `check_allowed` makes of the session, and whether it removes it. -/
def terminate (writeOk : Bool) : NgSession → NgSession × Bool
  | icmp s => (icmp s.terminate, false)
  | udp u => u.terminate.map udp id
  | tcp c => (tcp (c.terminate writeOk), false)

/-- The most that the socket is asked for. -/
def recvSize : NgSession → ℕ
  | icmp s => icmpMaxmsg s.version
  | udp u => u.mss.toNat
  | tcp c => c.recvSize.toNat

end NgSession

/-! ### The table -/

structure Proxy where
  /-- `ng_session`, the latest session first. -/
  sessions : List NgSession := []
  /-- How many sessions there were when they were last counted. -/
  count : ℤ := 0
  files : List FileAction := []
  /-- Sockets that an `open` function has left behind. -/
  leaked : List ℕ := []
  /-- What has been written for packets without a session. -/
  resets : List TcpPacket := []
  deriving DecidableEq, Repr

/-- What stays as it is while the loop runs. -/
structure Arguments where
  signedChar : Bool
  fwd53 : Bool
  maxsessions : ℤ

/-- What `open_icmp_socket`, `open_udp_socket` or `open_tcp_socket` does. If there is an error
behind the call of `socket`, the socket is not closed. -/
inductive Opened
  | failed
  | leaked (file : ℕ)
  | opened (file : ℕ)
  deriving DecidableEq, Repr

/-- The answers for a new session. -/
structure OpenAnswers where
  opened : Opened
  rand : BitVec 32
  buffer : SendBuffer

/-- The packet that `handle_tcp` writes when there is no session. Its version is 4 in any case. -/
def strayReset (p : Incoming) : TcpPacket where
  version := .v4
  saddr := p.daddr
  daddr := p.saddr
  source := p.dest
  dest := p.source
  seq := p.ackSeq
  ackSeq := 0
  window := 0
  syn := false
  ack := false
  fin := false
  rst := true
  scale := 0
  data := []

namespace Proxy

def findSession (p : Proxy) (flow : Flow) : Option ℕ :=
  p.sessions.findIdx? fun s => s.found && s.flow = flow

/-- One session goes on. -/
def update (p : Proxy) (i : ℕ) (f : NgSession → Option NgSession) : Option Proxy := do
  let s ← p.sessions[i]?
  let s' ← f s
  return { p with sessions := p.sessions.set i s', files := p.files ++ s.closedUntil s' }

/-- A new session is the first of the list. -/
def register (p : Proxy) (opened : Opened) (new : ℕ → NgSession) : Proxy :=
  match opened with
  | .failed => p
  | .leaked file =>
    { p with files := p.files ++ [.opening file], leaked := file :: p.leaked }
  | .opened file =>
    { p with files := p.files ++ [.opening file], sessions := new file :: p.sessions }

/-- A new session, which handles the packet that has opened it. -/
def registerAndHandle (p : Proxy) (opened : Opened) (new : ℕ → NgSession)
    (f : NgSession → Option NgSession) : Option Proxy :=
  match opened with
  | .opened _ => (p.register opened new).update 0 f
  | .failed | .leaked _ => some (p.register opened new)

def handleTcp (args : Arguments) (p : Proxy) (packet : Incoming)
    (options : Option (BitVec 16 × Byte)) (a : PacketAnswers) (o : OpenAnswers) : Option Proxy :=
  match p.findSession packet.flow with
  | some i => p.update i (NgSession.handle args.signedChar (.tcp packet options) (fun _ => 0) a)
  | none =>
    if packet.urg then some p
    else if packet.syn then
      options.map fun (mss, ws) => p.register o.opened fun socket =>
        .tcp (.new packet mss ws o.rand a.now socket o.buffer)
    else some { p with resets := p.resets ++ [strayReset packet] }

def handleUdp (args : Arguments) (p : Proxy) (packet : UdpPacket) (beyond : ℕ → Byte)
    (a : PacketAnswers) (o : OpenAnswers) : Option Proxy :=
  let handle := NgSession.handle args.signedChar (.udp packet) beyond a
  match p.findSession packet.flow with
  | some i => p.update i handle
  | none => p.registerAndHandle o.opened (fun socket => .udp (.new packet a.now socket)) handle

def handleIcmp (args : Arguments) (p : Proxy) (version : Version) (saddr daddr : Addr)
    (protocol : Byte) (plen : BitVec 16) (message : List Byte) (a : PacketAnswers)
    (o : OpenAnswers) : Option Proxy :=
  let d := .icmp version saddr daddr protocol plen message
  let handle := NgSession.handle args.signedChar d (fun _ => 0) a
  if message.getD 0 0 ≠ ICMP_ECHO then some p
  else
    match p.findSession d.flow with
    | some i => p.update i handle
    | none => p.registerAndHandle o.opened
      (fun socket => .icmp (.new version saddr daddr message a.now socket)) handle

def hasUdpSession (args : Arguments) (p : Proxy) (packet : UdpPacket) : Bool :=
  packet.dest = 53 ∧ !args.fwd53 ∨ (p.findSession packet.flow).isSome

/-- Whether `handle_ip` drops a packet when there are too many sessions. -/
def dropped (args : Arguments) (p : Proxy) : Datagram → Bool
  | .icmp .. => true
  | .udp packet => !p.hasUdpSession args packet
  | .tcp packet _ => packet.syn

def handleDatagram (args : Arguments) (p : Proxy) (d : Datagram) (beyond : ℕ → Byte)
    (a : PacketAnswers) (o : OpenAnswers) : Option Proxy :=
  match d with
  | .icmp version saddr daddr protocol plen message =>
    p.handleIcmp args version saddr daddr protocol plen message a o
  | .udp packet => p.handleUdp args packet beyond a o
  | .tcp packet options => p.handleTcp args packet options a o

def handleIp (args : Arguments) (p : Proxy) (pkt : List Byte) (beyond : ℕ → Byte)
    (a : PacketAnswers) (o : OpenAnswers) : Option Proxy := do
  match ← readPacket pkt beyond with
  | none => return p
  | some d =>
    if p.count ≥ args.maxsessions ∧ p.dropped args d then return p
    else p.handleDatagram args d beyond a o

/-- All sessions go on, and some of them are removed. -/
def pass (f : ℕ → NgSession → NgSession × Bool) : List NgSession → List NgSession × List FileAction
  | [] => ([], [])
  | s :: rest =>
    let (s', del) := f 0 s
    let (sessions, files) := pass (fun i => f (i + 1)) rest
    (if del then sessions else s' :: sessions, s.closedUntil s' ++ files)

def through (p : Proxy) (f : ℕ → NgSession → NgSession × Bool) : Proxy :=
  let (sessions, files) := pass f p.sessions
  { p with sessions, files := p.files ++ files }

/-- The loop of `handle_events` that counts the sessions. -/
def countSessions (p : Proxy) (answers : ℕ → MonitorAnswers) : Proxy :=
  { p.through fun i s => (s.monitor (answers i), false) with
    count := (p.sessions.filter NgSession.counts).length }

/-- The loop of `handle_events` that checks the sessions. -/
def checkSessions (args : Arguments) (p : Proxy) (answers : ℕ → ℤ × Bool) : Proxy :=
  p.through fun i s =>
    s.checkSession (answers i).1 p.count args.maxsessions (answers i).2

def checkAllowed (p : Proxy) (writeOk : ℕ → Bool) : Proxy :=
  p.through fun i s => s.terminate (writeOk i)

def clear (p : Proxy) : Proxy :=
  { p with
    sessions := []
    files := p.files ++ p.sessions.flatMap fun s => s.socket.toList.map .closing }

end Proxy

/-! ### Events -/

inductive ProxyEvent
  | packet (pkt : List Byte) (beyond : ℕ → Byte) (a : PacketAnswers) (o : OpenAnswers)
  | socket (i : ℕ) (ev : Events) (a : Conn.Answers)
  | count (answers : ℕ → MonitorAnswers)
  | check (answers : ℕ → ℤ × Bool)
  | allowed (writeOk : ℕ → Bool)
  | clear

namespace Proxy

/-- The proxy after an event, unless the process ends. -/
def step (args : Arguments) (p : Proxy) : ProxyEvent → Option Proxy
  | .packet pkt beyond a o => p.handleIp args pkt beyond a o
  | .socket i ev a => p.update i (NgSession.checkSocket ev a)
  | .count answers => some (p.countSessions answers)
  | .check answers => some (p.checkSessions args answers)
  | .allowed writeOk => some (p.checkAllowed writeOk)
  | .clear => some p.clear

/-- What the system may do: packets have the size of what is read, a socket is not one that is open,
and has events as long as it is open and gives no more than it is asked for. -/
def Admits (p : Proxy) : ProxyEvent → Prop
  | .packet pkt _ _ o => pkt.length ≤ MTU ∧
    ∀ file, o.opened = .leaked file ∨ o.opened = .opened file → file ∉ openFiles p.files
  | .socket i _ a => ∀ s, p.sessions[i]? = some s → s.socket ≠ none ∧
    ∀ bytes, a.received = .data bytes → bytes.length ≤ s.recvSize
  | .count _ | .check _ | .allowed _ | .clear => True

end Proxy

end Violet.Tun2Http
