import Violet.Tun2Http.Http
import Violet.Tun2Http.Tls
import Violet.Tun2Http.Util

/-!
# The TCP sessions of the proxy

`tcp.c`: one session between a client behind the tunnel and a socket of the proxy. The proxy answers
the packets of the client itself, forwards what they carry to the socket, and sends what the socket
receives back in packets of its own.

What the functions ask of the system is an argument of theirs: the time, what a socket accepts or
gives, whether a packet could be written to the tunnel. What they do outside the session is kept in
order in a log.
-/

namespace Violet.Tun2Http

open Wire

/-! ### Sessions -/

inductive TcpState
  | ESTABLISHED
  | SYN_SENT
  | SYN_RECV
  | FIN_WAIT1
  | FIN_WAIT2
  | TIME_WAIT
  | CLOSE
  | CLOSE_WAIT
  | LAST_ACK
  | LISTEN
  | CLOSING
  deriving DecidableEq, Repr

/-- `connect_sent`: how far the `CONNECT` request to the proxy of port 443 is. -/
inductive ConnectSent
  | NOT_SENT
  | SENT
  | ESTABLISHED
  deriving DecidableEq, Repr

inductive Version
  | v4
  | v6
  deriving DecidableEq, Repr

/-- The union of an IPv4 and an IPv6 address; an IPv4 address is its first four bytes. -/
abbrev Addr := Vector Byte 16

/-- A segment that waits for the socket. Its `len` is the length of its data. -/
structure Segment where
  seq : BitVec 32
  sent : ℕ
  psh : Bool
  data : List Byte
  deriving DecidableEq, Repr

def Segment.len (s : Segment) : ℕ := s.data.length

/-- The events of a socket: an error, something to read, room to write. -/
structure Events where
  err : Bool
  inp : Bool
  out : Bool
  deriving DecidableEq, Repr

structure TcpSession where
  time : ℤ
  version : Version
  mss : BitVec 16
  recvScale : BitVec 8
  sendScale : BitVec 8
  recvWindow : BitVec 32
  sendWindow : BitVec 32
  remoteSeq : BitVec 32
  localSeq : BitVec 32
  remoteStart : BitVec 32
  localStart : BitVec 32
  acked : BitVec 32
  lastKeepAlive : ℤ
  sent : BitVec 64
  received : BitVec 64
  saddr : Addr
  source : BitVec 16
  daddr : Addr
  dest : BitVec 16
  state : TcpState
  forward : List Segment
  hostname : List Byte
  connectSent : ConnectSent
  /-- `socket` of `ng_session`; `none` is -1. -/
  socket : Option ℕ
  /-- `ev.events` of `ng_session`. -/
  events : Events
  deriving DecidableEq, Repr

/-! ### What happens outside -/

/-- A packet that `write_tcp` writes. -/
structure TcpPacket where
  version : Version
  saddr : Addr
  daddr : Addr
  source : BitVec 16
  dest : BitVec 16
  seq : BitVec 32
  ackSeq : BitVec 32
  window : BitVec 16
  syn : Bool
  ack : Bool
  fin : Bool
  rst : Bool
  /-- The window scale, which goes with the greatest segment size into the options of a `SYN`. -/
  scale : BitVec 8
  data : List Byte
  deriving DecidableEq, Repr

inductive Action
  | write (p : TcpPacket) (ok : Bool)
  | connect (request : List Byte)
  | forward (bytes : List Byte)
  /-- A failed `send`. -/
  | lose (bytes : List Byte)
  | recv (bytes : List Byte)
  /-- A `recv` that nobody gets the bytes of. -/
  | discard (bytes : List Byte)
  | close (socket : ℕ)
  deriving DecidableEq, Repr

/-- A session and what has happened to it, the last action at the end. -/
structure Conn extends TcpSession where
  log : List Action := []
  deriving DecidableEq, Repr

/-- What `recv` returns: an error after which the socket may be asked again or not, the end, or some
bytes. -/
inductive Recv
  | retry
  | error
  | eof
  | data (bytes : List Byte)
  deriving DecidableEq, Repr

/-- The bytes, unless there is an error. -/
def Recv.bytes? : Recv → Option (List Byte)
  | .retry | .error => none
  | .eof => some []
  | .data bytes => some bytes

/-- What `send` returns: an error, or how many bytes it has accepted. -/
inductive Send
  | failed
  | accepted (n : ℕ)
  deriving DecidableEq, Repr

/-- The buffer of a socket, from which `get_receive_buffer` computes how much it takes. -/
structure SendBuffer where
  sendbuf : ℕ
  unsent : ℕ
  deriving DecidableEq, Repr

/-! ### Windows -/

def getSendWindow (cur : TcpSession) : BitVec 32 :=
  let behind :=
    if compareU32 cur.acked cur.localSeq ≤ 0 then cur.localSeq - cur.acked else cur.acked
  if behind < cur.sendWindow then cur.sendWindow - behind else 0

def getReceiveBuffer (cur : TcpSession) (buffer : SendBuffer) : ℕ :=
  if cur.socket.isNone then 0
  else
    let sendbuf := if buffer.sendbuf = 0 then 16384 else buffer.sendbuf
    if buffer.unsent < sendbuf / 2 then sendbuf / 2 - buffer.unsent else 0

/-- The bytes that wait for the socket. -/
def toForward : List Segment → BitVec 32
  | [] => 0
  | q :: rest => BitVec.ofNat 32 (q.len - q.sent) + toForward rest

def getReceiveWindow (cur : TcpSession) (buffer : SendBuffer) : BitVec 32 :=
  let window := BitVec.ofNat 32 (getReceiveBuffer cur buffer)
  let max := 0xFFFF#32 <<< cur.recvScale.toNat
  let window := if window > max then max else window
  let window := if toForward cur.forward < window then window - toForward cur.forward else 0
  if window >>> cur.recvScale.toNat = 0 then 0 else window

/-! ### Packets to the client -/

namespace Conn

/-- The packet of `write_tcp`. -/
def packet (cur : Conn) (data : List Byte) (syn ack fin rst : Bool) : TcpPacket where
  version := cur.version
  saddr := cur.daddr
  daddr := cur.saddr
  source := cur.dest
  dest := cur.source
  seq := cur.localSeq
  ackSeq := if ack then cur.remoteSeq else 0
  window := (cur.recvWindow >>> cur.recvScale.toNat).setWidth 16
  syn := syn
  ack := ack
  fin := fin
  rst := rst
  scale := cur.recvScale
  data := data

def did (cur : Conn) (a : Action) : Conn := { cur with log := cur.log ++ [a] }

@[simp] lemma did_toTcpSession (cur : Conn) (a : Action) :
    (cur.did a).toTcpSession = cur.toTcpSession := rfl

@[simp] lemma log_did (cur : Conn) (a : Action) : (cur.did a).log = cur.log ++ [a] := rfl

/-- `write_tcp`; `ok` tells whether the packet could be written. -/
def writeTcp (cur : Conn) (data : List Byte) (syn ack fin rst ok : Bool) : Conn :=
  cur.did (.write (cur.packet data syn ack fin rst) ok)

/-- What `write_syn_ack`, `write_ack`, `write_data` and `write_fin_ack` have in common. They return
whether the packet could be written. -/
def writeOrClose (cur : Conn) (data : List Byte) (syn fin ok : Bool) : Conn :=
  let cur := cur.writeTcp data syn true fin false ok
  if ok then cur else { cur with state := .CLOSING }

def writeSynAck (cur : Conn) (ok : Bool) : Conn := cur.writeOrClose [] true false ok

def writeAck (cur : Conn) (ok : Bool) : Conn := cur.writeOrClose [] false false ok

def writeData (cur : Conn) (buffer : List Byte) (ok : Bool) : Conn :=
  cur.writeOrClose buffer false false ok

def writeFinAck (cur : Conn) (ok : Bool) : Conn := cur.writeOrClose [] false true ok

def writeRst (cur : Conn) (ok : Bool) : Conn :=
  let ack := cur.state = .LISTEN
  let cur := if ack then { cur with remoteSeq := cur.remoteSeq + 1 } else cur
  let cur := cur.writeTcp [] false ack false true ok
  if cur.state ≠ .CLOSE then { cur with state := .CLOSING } else cur

lemma writeOrClose_eq (cur : Conn) (data : List Byte) (syn fin ok : Bool) :
    cur.writeOrClose data syn fin ok =
      { cur.did (.write (cur.packet data syn true fin false) ok) with
        state := if ok then cur.state else .CLOSING } := by
  cases ok <;> rfl

lemma writeRst_eq (cur : Conn) (ok : Bool) :
    cur.writeRst ok =
      { cur.did (.write
          (({ cur with
            remoteSeq := if cur.state = .LISTEN then cur.remoteSeq + 1 else cur.remoteSeq } :
            Conn).packet [] false (cur.state = .LISTEN) false true) ok) with
        remoteSeq := if cur.state = .LISTEN then cur.remoteSeq + 1 else cur.remoteSeq
        state := if cur.state = .CLOSE then cur.state else .CLOSING } := by
  by_cases hlisten : cur.state = .LISTEN
  · simp [writeRst, writeTcp, did, hlisten]
  · by_cases hclose : cur.state = .CLOSE
    · obtain ⟨⟨⟩, log⟩ := cur
      cases hclose
      rfl
    · simp [writeRst, writeTcp, did, hlisten, hclose]

end Conn

/-! ### Packets from the client -/

/-- A packet of the client, of which `data` and the options have been found. -/
structure Incoming where
  version : Version
  saddr : Addr
  daddr : Addr
  source : BitVec 16
  dest : BitVec 16
  seq : BitVec 32
  ackSeq : BitVec 32
  window : BitVec 16
  urg : Bool
  ack : Bool
  psh : Bool
  rst : Bool
  syn : Bool
  fin : Bool
  data : List Byte
  deriving DecidableEq, Repr

/-- The loop of `queue_tcp` over the segments that wait: the place of the new one. -/
def insertSegment (seq : BitVec 32) (psh : Bool) (data : List Byte) : List Segment → List Segment
  | [] => [⟨seq, 0, psh, data⟩]
  | s :: rest =>
    if compareU32 s.seq seq < 0 then s :: insertSegment seq psh data rest
    else if compareU32 s.seq seq > 0 then ⟨seq, 0, psh, data⟩ :: s :: rest
    else if s.len < data.length then { s with data := data } :: rest
    else s :: rest

/-- `inet_ntoa` of the first four bytes of an address. -/
def inetNtoa (addr : Addr) : List Byte :=
  (ascii ".").intercalate ((addr.toList.take 4).map fun b => ascii (toString b.toNat))

lemma length_intercalate_le {α : Type*} (sep : List α) {xs : List (List α)} {n : ℕ}
    (h : ∀ x ∈ xs, x.length ≤ n) : (sep.intercalate xs).length ≤ (n + sep.length) * xs.length := by
  induction xs with
  | nil => simp [List.intercalate]
  | cons x xs ih =>
    have hx := h x List.mem_cons_self
    have hxs := ih fun y hy => h y (List.mem_cons_of_mem _ hy)
    rw [List.length_cons, Nat.mul_succ]
    cases xs with
    | nil =>
      simp [List.intercalate]
      omega
    | cons y ys =>
      have hcons : sep.intercalate (x :: y :: ys) = x ++ (sep ++ sep.intercalate (y :: ys)) := by
        simp [List.intercalate]
      rw [hcons, List.length_append, List.length_append]
      omega

lemma length_inetNtoa_le (addr : Addr) : (inetNtoa addr).length ≤ 16 := by
  have hbyte : ∀ x ∈ (addr.toList.take 4).map fun b => ascii (toString b.toNat), x.length ≤ 3 := by
    intro x hx
    obtain ⟨b, -, rfl⟩ := List.mem_map.mp hx
    have := b.isLt
    rw [ascii, List.length_map, String.length_toList]
    exact (Nat.length_repr_le_iff (by norm_num)).mpr (by omega)
  have hdot : (ascii ".").length = 1 := rfl
  have hlength := length_intercalate_le (ascii ".") hbyte
  rw [hdot, List.length_map, List.length_take] at hlength
  rw [inetNtoa]
  omega

def connectRequest (hostname : List Byte) : List Byte :=
  ascii "CONNECT " ++ hostname ++ ascii ":443 HTTP/1.0\r\n\r\n"

namespace Conn

def queueTcp (cur : Conn) (p : Incoming) : Conn :=
  if compareU32 p.seq cur.remoteSeq < 0 then cur
  else { cur with forward := insertSegment p.seq p.psh p.data cur.forward }

lemma queueTcp_eq (cur : Conn) (p : Incoming) :
    cur.queueTcp p =
      { cur with
        forward := if compareU32 p.seq cur.remoteSeq < 0 then cur.forward
          else insertSegment p.seq p.psh p.data cur.forward } := by
  rw [queueTcp]
  split_ifs <;> rfl

/-- To port 443: the name of the server, and the request to the proxy if it has not been sent. -/
def connectProxy (cur : Conn) (name : List Byte) (sendOk writeOk : Bool) : Conn :=
  let hostname := if name ≠ [] then name else inetNtoa cur.daddr
  let cur := if hostname ≠ [] then { cur with hostname := hostname } else cur
  if cur.connectSent = .NOT_SENT ∧ hostname ≠ [] then
    if sendOk then
      { cur.did (.connect (connectRequest cur.hostname)) with
        connectSent := .SENT, state := .LISTEN }
    else cur.writeRst writeOk
  else cur

/-- A `FIN` that acknowledges everything. -/
def handleFin (cur : Conn) (writeOk : Bool) : Conn :=
  match cur.state with
  | .ESTABLISHED =>
    if cur.forward = [] then
      let cur := { cur with remoteSeq := cur.remoteSeq + 1 }.writeAck writeOk
      if writeOk then { cur with state := .CLOSE_WAIT } else cur
    else { cur with state := .CLOSE_WAIT }
  | .FIN_WAIT1 =>
    let cur := { cur with remoteSeq := cur.remoteSeq + 1 }.writeAck writeOk
    if writeOk then { cur with state := .CLOSE } else cur
  | _ => cur

/-- An acknowledgement of everything. -/
def handleAck (cur : Conn) (p : Incoming) : Conn :=
  let cur := { cur with acked := p.ackSeq }
  match cur.state with
  | .SYN_RECV => { cur with state := .ESTABLISHED }
  | .LAST_ACK => { cur with state := .CLOSING }
  | _ => cur

/-- An acknowledgement of something else: a keep alive, an earlier one or one to come. -/
def handleOtherAck (cur : Conn) (p : Incoming) (writeOk : Bool) : Conn :=
  if p.ackSeq + 1 = cur.localSeq then cur
  else if compareU32 p.ackSeq cur.localSeq < 0 then
    if compareU32 p.ackSeq cur.acked ≤ 0 then cur else { cur with acked := p.ackSeq }
  else cur.writeRst writeOk

/-- `handle_tcp` behind its checks of the session and of the data. -/
def handleFlags (cur : Conn) (p : Incoming) (writeOk : Bool) : Conn :=
  if p.rst then { cur with state := .CLOSING }
  else if !p.ack ∨ p.ackSeq = cur.localSeq then
    if p.syn then cur
    else if p.fin then cur.handleFin writeOk
    else if p.ack then cur.handleAck p
    else cur
  else cur.handleOtherAck p writeOk

/-- `handle_tcp` for a session that is open. -/
def handleOpen (cur : Conn) (p : Incoming) (now : ℤ) (writeOk : Bool) : Conn :=
  let cur :=
    { cur with
      time := now
      sendWindow := p.window.setWidth 32 <<< cur.sendScale.toNat }
  if p.data ≠ [] then
    if cur.socket.isNone then cur.writeRst writeOk
    else if cur.state = .CLOSE_WAIT then cur.writeRst writeOk
    else (cur.queueTcp p).handleFlags p writeOk
  else cur.handleFlags p writeOk

/-- `handle_tcp` for a session that has been found. -/
def handleTcp (signedChar : Bool) (cur : Conn) (p : Incoming) (now : ℤ) (sendOk writeOk : Bool) :
    Conn :=
  let name := (parseTlsHeader signedChar p.data).getD []
  if p.urg then cur
  else
    let cur := if p.dest = 443 then cur.connectProxy name sendOk writeOk else cur
    if p.dest = 443 ∧ cur.connectSent ≠ .ESTABLISHED then cur.queueTcp p
    else if cur.state = .CLOSING ∨ cur.state = .CLOSE then cur.writeRst writeOk
    else cur.handleOpen p now writeOk

/-! ### Events of the socket -/

/-- What the system answers while `check_tcp_socket` runs. -/
structure Answers where
  now : ℤ
  /-- `recv` of the reply to the `CONNECT` request, of at most 12 bytes. -/
  reply : Recv
  /-- `recv` behind the reply, as often as it gives something. -/
  surplus : List (List Byte)
  /-- The buffer of the socket before the loop that forwards data, and behind it. -/
  before : SendBuffer
  behind : SendBuffer
  /-- `send`, at each turn of the loop. -/
  sends : ℕ → Send
  /-- What lies in the memory behind the data of a segment, at each turn. -/
  beyond : ℕ → ℕ → Byte
  received : Recv
  /-- Whether packets can be written: an acknowledgement, and whatever else is written. -/
  ackOk : Bool
  writeOk : Bool

/-- What is sent for the data of a segment: to port 80, the request for the proxy. -/
def toSend (cur : Conn) (data : List Byte) (beyond : ℕ → Byte) : Option (List Byte) :=
  if cur.dest = 80 then (patchHttpUrl data beyond).map (·.getD data) else some data

/-- How many bytes of a segment count as sent. The comparison of `sent` with `len` has no sign, so
an error counts as everything sent. -/
def sendSegment (result : Send) (len : ℕ) (data : List Byte) : ℕ × Action :=
  match result with
  | .failed => (len, .lose data)
  | .accepted n => (min n len, .forward (data.take n))

/-- The session after `sent` bytes of its first segment have been counted as sent. -/
def turn (cur : Conn) (s : Segment) (rest : List Segment) (sent : ℕ) (action : Action) : Conn :=
  { cur.did action with
    sent := cur.sent + BitVec.ofNat 64 sent
    remoteSeq := s.seq + BitVec.ofNat 32 (s.sent + sent)
    forward := if s.len = s.sent + sent then rest else { s with sent := s.sent + sent } :: rest }

/-- The loop that forwards data. The segments that wait are given apart; `turn` counts the turns and
`fwd` tells whether anything has been forwarded. `none` is the end of the process. -/
def forwardLoop (a : Answers) : List Segment → ℕ → ℕ → Bool → Conn → Option (Conn × Bool)
  | [], _, _, fwd, cur => some ({ cur with forward := [] }, fwd)
  | s :: rest, turn, bufferSize, fwd, cur =>
    if s.seq + BitVec.ofNat 32 s.sent = cur.remoteSeq ∧ s.len - s.sent < bufferSize then do
      let data ← cur.toSend (s.data.drop s.sent) (a.beyond turn)
      let (sent, action) := sendSegment (a.sends turn) (s.len - s.sent) data
      let cur := cur.turn s rest sent action
      if s.len = s.sent + sent then forwardLoop a rest (turn + 1) (bufferSize - sent) true cur
      else some (cur, true)
    else some ({ cur with forward := s :: rest }, fwd)

/-- The end of what the socket receives. -/
def recvEof (cur : Conn) (writeOk : Bool) : Conn :=
  let cur :=
    if cur.forward = [] then
      let cur := cur.writeFinAck writeOk
      let cur := if writeOk then { cur with localSeq := cur.localSeq + 1 } else cur
      match cur.state with
      | .ESTABLISHED => { cur with state := .FIN_WAIT1 }
      | .CLOSE_WAIT => { cur with state := .LAST_ACK }
      | _ => cur
    else cur.writeRst writeOk
  match cur.socket with
  | some socket => { cur.did (.close socket) with socket := none }
  | none => cur

/-- What the socket has received goes to the client. -/
def recvData (cur : Conn) (bytes : List Byte) (writeOk : Bool) : Conn :=
  let cur :=
    { cur.did (.recv bytes) with received := cur.received + BitVec.ofNat 64 bytes.length }
  let cur := cur.writeData bytes writeOk
  if writeOk then { cur with localSeq := cur.localSeq + BitVec.ofNat 32 bytes.length } else cur

/-- The socket of a session that is open is read. -/
def readSocket (cur : Conn) (ev : Events) (a : Answers) : Conn :=
  if (cur.state = .ESTABLISHED ∨ cur.state = .CLOSE_WAIT) ∧ ev.inp ∧
      getSendWindow cur.toTcpSession > 0 then
    let cur := { cur with time := a.now }
    match a.received with
    | .retry => cur
    | .error => cur.writeRst a.writeOk
    | .eof => cur.recvEof a.writeOk
    | .data bytes => cur.recvData bytes a.writeOk
  else cur

/-- The most that `recv` is asked for. -/
def recvSize (cur : Conn) : BitVec 32 :=
  if getSendWindow cur.toTcpSession > cur.mss.setWidth 32 then cur.mss.setWidth 32
  else getSendWindow cur.toTcpSession

/-- What has been forwarded is acknowledged, and a window that has opened is told. -/
def acknowledge (cur : Conn) (fwd : Bool) (a : Answers) : Conn :=
  let window := getReceiveWindow cur.toTcpSession a.behind
  let prev := cur.recvWindow
  let cur := { cur with recvWindow := window }
  if fwd ∨ prev = 0 ∧ window > 0 then
    let cur :=
      if fwd ∧ cur.forward = [] ∧ cur.state = .CLOSE_WAIT then
        { cur with remoteSeq := cur.remoteSeq + 1 }
      else cur
    let cur := cur.writeAck a.ackOk
    if a.ackOk then { cur with time := a.now } else cur
  else cur

/-- What `recv` gives goes to nobody. -/
def discard (cur : Conn) (given : List (List Byte)) : Conn :=
  { cur with log := cur.log ++ given.map .discard }

/-- The socket of a session that waits for it: the reply to the `CONNECT` request, or the
connection. What the reply says does not matter, and what has come with it is thrown away. -/
def checkListen (cur : Conn) (ev : Events) (a : Answers) : Conn :=
  if ev.inp then
    match a.reply.bytes? with
    | none => cur.writeRst a.writeOk
    | some reply =>
      if cur.connectSent = .SENT then
        { cur.discard (reply :: a.surplus) with connectSent := .ESTABLISHED, state := .SYN_RECV }
      else (cur.discard [reply]).writeRst a.writeOk
  else
    let cur := { cur with remoteSeq := cur.remoteSeq + 1 }.writeSynAck a.writeOk
    if a.writeOk then
      { cur with time := a.now, localSeq := cur.localSeq + 1, state := .SYN_RECV }
    else cur

def checkTcpSocket (cur : Conn) (ev : Events) (a : Answers) : Option Conn :=
  if ev.err then some ({ cur with time := a.now }.writeRst a.writeOk)
  else if cur.state = .LISTEN then some (cur.checkListen ev a)
  else do
    let (cur, fwd) ←
      if ev.out then
        forwardLoop a cur.forward 0 (getReceiveBuffer cur.toTcpSession a.before) false cur
      else some (cur, false)
    some ((cur.acknowledge fwd a).readSocket ev a)

end Conn

/-! ### The timer -/

def TCP_INIT_TIMEOUT : ℤ := 30
def TCP_IDLE_TIMEOUT : ℤ := 3600
def TCP_CLOSE_TIMEOUT : ℤ := 30
def TCP_KEEP_TIMEOUT : ℤ := 300
def EPOLL_MIN_CHECK : ℤ := 100

/-- `timeout` less the share of the sessions that are in use; `int` division rounds to zero. -/
def scaleTimeout (timeout sessions maxsessions : ℤ) : ℤ :=
  (timeout * (100 - (sessions * 100).tdiv maxsessions)).tdiv 100

def getTcpTimeout (t : TcpSession) (sessions maxsessions : ℤ) : ℤ :=
  scaleTimeout
    (if t.state = .LISTEN ∨ t.state = .SYN_RECV then TCP_INIT_TIMEOUT
    else if t.state = .ESTABLISHED then TCP_IDLE_TIMEOUT
    else TCP_CLOSE_TIMEOUT) sessions maxsessions

namespace Conn

/-- The socket of a session that is closing is closed. -/
def closeSocket (s : Conn) (now : ℤ) : Conn :=
  if s.state = .CLOSING then
    let s := match s.socket with
      | some socket => { s.did (.close socket) with socket := none }
      | none => s
    { s with time := now, state := .CLOSE }
  else s

/-- `check_tcp_session`, and whether the session is to be deleted. -/
def checkTcpSession (s : Conn) (now sessions maxsessions : ℤ) (writeOk : Bool) : Conn × Bool :=
  let timeout := getTcpTimeout s.toTcpSession sessions maxsessions
  let s :=
    if s.state ≠ .CLOSING ∧ s.state ≠ .CLOSE ∧ s.time + timeout < now then
      if s.state = .LISTEN then { s with state := .CLOSING } else s.writeRst writeOk
    else s
  let s := s.closeSocket now
  let s :=
    if (s.state = .CLOSING ∨ s.state = .CLOSE) ∧ (s.sent ≠ 0 ∨ s.received ≠ 0) then
      { s with sent := 0, received := 0 }
    else s
  (s, s.state = .CLOSE ∧ s.time + TCP_KEEP_TIMEOUT < now)

/-- `monitor_tcp_session`: the events that the socket is asked for, and whether to look again soon.
A window that is closed is kept alive by an acknowledgement of one byte less. -/
def monitorTcpSession (s : Conn) (ms : ℤ) (buffer : SendBuffer) (writeOk ctlOk : Bool) :
    Conn × Bool :=
  let open₁ := s.state = .ESTABLISHED ∨ s.state = .CLOSE_WAIT
  let full := open₁ ∧ ¬ getSendWindow s.toTcpSession > 0
  let keepAlive := full ∧ ms - s.lastKeepAlive > EPOLL_MIN_CHECK
  let forwards := open₁ ∧ ∃ q ∈ s.forward.head?, q.seq + BitVec.ofNat 32 q.sent = s.remoteSeq ∧
    q.len - q.sent < getReceiveBuffer s.toTcpSession buffer
  let events : Events :=
    if s.state = .LISTEN then
      if s.connectSent = .SENT ∧ s.dest = 443 then ⟨true, true, false⟩ else ⟨true, false, true⟩
    else ⟨true, open₁ ∧ getSendWindow s.toTcpSession > 0, forwards⟩
  let recheck := full ∨ open₁ ∧ s.forward ≠ [] ∧ ¬ forwards
  let s :=
    if keepAlive then
      let s := { s with lastKeepAlive := ms, remoteSeq := s.remoteSeq - 1 }.writeAck writeOk
      { s with remoteSeq := s.remoteSeq + 1 }
    else s
  if events ≠ s.events then
    let s := { s with events := events }
    (if ctlOk then s else { s with state := .CLOSING }, recheck)
  else (s, recheck)

end Conn

/-! ### New sessions -/

/-- `get_default_mss`: the `MTU` of 10000 without the headers. -/
def getDefaultMss : Version → BitVec 16
  | .v4 => 9960
  | .v6 => 9940

/-- The session that `handle_tcp` registers for a `SYN`, once its socket is open. `rand` is the
first sequence number of the proxy. -/
def Conn.new (p : Incoming) (mss : BitVec 16) (ws : BitVec 8) (rand : BitVec 32) (now : ℤ)
    (socket : ℕ) (buffer : SendBuffer) : Conn :=
  let s : Conn :=
    { time := now
      version := p.version
      mss := mss
      recvScale := ws
      sendScale := ws
      recvWindow := 0
      sendWindow := p.window.setWidth 32 <<< ws.toNat
      remoteSeq := p.seq
      localSeq := rand
      remoteStart := p.seq
      localStart := rand
      acked := 0
      lastKeepAlive := 0
      sent := 0
      received := 0
      saddr := p.saddr
      source := p.source
      daddr := p.daddr
      dest := p.dest
      state := .LISTEN
      forward := if p.data ≠ [] then [⟨p.seq, 0, p.psh, p.data⟩] else []
      hostname := []
      connectSent := if p.dest = 80 then .ESTABLISHED else .NOT_SENT
      socket := some socket
      events := ⟨true, false, true⟩ }
  { s with recvWindow := getReceiveWindow s.toTcpSession buffer }

end Violet.Tun2Http
