import Violet.Transition.Log
import Violet.Transition.Run
import Violet.Tun2Http.TcpSteps

/-!
# Runs of a session

The packets of the client, the events of the socket and the timer come in any order. What they may
be is left to the system: a socket has events as long as it is open, gives no more bytes than it is
asked for, and accepts nothing when it is closed.

A session holds its socket exactly as long as its state needs one, and closes it before it is
deleted. Its state goes forward only, but for a session to port 443 whose request to the proxy has
not been sent yet: its next packet opens it again, even after a reset.
-/

namespace Violet.Tun2Http

open Wire Transition

/-! ### Events -/

inductive ConnEvent
  | packet (p : Incoming) (now : ℤ) (sendOk writeOk : Bool)
  | socket (ev : Events) (a : Conn.Answers)
  | check (now sessions maxsessions : ℤ) (writeOk : Bool)
  | monitor (ms : ℤ) (buffer : SendBuffer) (writeOk ctlOk : Bool)
  /-- `check_allowed`, when the loop is started again. -/
  | terminate (writeOk : Bool)

/-- What `check_allowed` does to a session. -/
def Conn.terminate (s : Conn) (writeOk : Bool) : Conn :=
  if s.state ≠ .CLOSING ∧ s.state ≠ .CLOSE then s.writeRst writeOk else s

/-- The session after an event, unless it is deleted or the process ends. -/
def Conn.step (signedChar : Bool) (c : Conn) : ConnEvent → Option Conn
  | .packet p now sendOk writeOk => some (handleTcp signedChar c p now sendOk writeOk)
  | .socket ev a => c.checkTcpSocket ev a
  | .check now sessions maxsessions writeOk =>
    let (c, del) := c.checkTcpSession now sessions maxsessions writeOk
    if del then none else some c
  | .monitor ms buffer writeOk ctlOk => some (c.monitorTcpSession ms buffer writeOk ctlOk).1
  | .terminate writeOk => some (c.terminate writeOk)

/-- The events that the system and a client with packets in `P` may bring about. -/
def Conn.Admits (P : Incoming → Prop) (c : Conn) : ConnEvent → Prop
  | .packet p _ sendOk _ => P p ∧ p.dest = c.dest ∧ (sendOk = true → c.socket ≠ none)
  | .socket _ a =>
    c.socket ≠ none ∧ ∀ bytes, a.received = .data bytes → bytes.length ≤ c.recvSize.toNat
  | .check .. => True
  | .monitor .. => c.socket ≠ none
  | .terminate _ => True

section

variable {P : Incoming → Prop} {signedChar : Bool} {c c' : Conn} {e : ConnEvent}

theorem runs_step (hguard : c.Admits P e) (h : c.step signedChar e = some c') : Runs P c c' := by
  cases e with
  | packet p now sendOk writeOk =>
    cases h
    exact runs_handleTcp hguard.1 hguard.2.1 hguard.2.2
  | socket ev a => exact runs_checkTcpSocket hguard.1 hguard.2 h
  | check now sessions maxsessions writeOk =>
    rw [Conn.step] at h
    obtain ⟨-, h⟩ := Option.ite_none_left_eq_some.mp h
    cases h
    exact runs_checkTcpSession
  | monitor ms buffer writeOk ctlOk =>
    cases h
    exact runs_monitorTcpSession hguard
  | terminate writeOk =>
    cases h
    rw [Conn.terminate]
    split_ifs
    · exact runs_writeRst
    · exact .refl

/-- What every step keeps holds in every run. -/
theorem Runs.keeps {I : Conn → Prop} (hdoes : ∀ c c', Does P c c' → I c → I c')
    (h : Runs P c c') (h0 : I c) : I c' := by
  induction h with
  | refl => exact h0
  | tail _ hstep ih => exact hdoes _ _ hstep ih

theorem keeps_of_reaches {I : Conn → Prop} (hdoes : ∀ c c', Does P c c' → I c → I c')
    (h : Reaches (Conn.step signedChar) (Conn.Admits P) c c') (h0 : I c) : I c' :=
  h.invariant h0 fun _ _ _ hI hguard hstep => (runs_step hguard hstep).keeps hdoes hI

end

/-! ### A run -/

/-- A packet of a client to a port, without data. -/
def Incoming.plain (dest : BitVec 16) (seq ackSeq : BitVec 32) (syn ack : Bool) : Incoming where
  version := .v4
  saddr := .replicate 16 1
  daddr := .replicate 16 2
  source := 40000
  dest := dest
  seq := seq
  ackSeq := ackSeq
  window := 1000
  urg := false
  ack := ack
  psh := false
  rst := false
  syn := syn
  fin := false
  data := []

/-- A system that takes everything that is written, and gives some bytes. -/
def Conn.Answers.ready : Conn.Answers where
  now := 1
  reply := .eof
  surplus := []
  before := ⟨16384, 0⟩
  behind := ⟨16384, 0⟩
  sends _ := .accepted 1000
  beyond _ _ := 0
  received := .data [1, 2, 3]
  ackOk := true
  writeOk := true

namespace Conn

/-- The session of a first packet. -/
def opening (dest : BitVec 16) : Conn :=
  .new (.plain dest 100 0 true false) 1000 0 500 0 7 ⟨16384, 0⟩

/-- After the handshake. -/
def opened : Conn :=
  ((opening 8080).checkListen ⟨false, false, true⟩ .ready).handleTcp true
    (.plain 8080 101 501 false true) 2 true true

/-- After the first bytes from the socket. -/
def served : Conn := (opened.acknowledge false .ready).readSocket ⟨false, true, false⟩ .ready

/-- A packet with data. -/
def carrying : Incoming := { Incoming.plain 8080 101 501 false true with data := [5, 6] }

/-- After the packet. -/
def sending : Conn := opened.handleTcp true carrying 3 true true

/-- After its data have gone to the socket, and the first bytes have come from it. -/
def exchanged : Conn :=
  ((sending.turn ⟨101, 0, false, [5, 6]⟩ [] 2 (.forward [5, 6])).acknowledge true .ready).readSocket
    ⟨false, true, true⟩ .ready

variable {P : Incoming → Prop}

lemma reaches_opened (hp : P (.plain 8080 101 501 false true)) :
    Reaches (step true) (Admits P) (opening 8080) opened := by
  have hsocket : Admits P (opening 8080) (.socket ⟨false, false, true⟩ .ready) := by
    refine ⟨Option.some_ne_none 7, fun bytes heq => ?_⟩
    cases heq
    decide
  have hpacket : Admits P ((opening 8080).checkListen ⟨false, false, true⟩ .ready)
      (.packet (.plain 8080 101 501 false true) 2 true true) :=
    ⟨hp, rfl, fun _ => Option.some_ne_none 7⟩
  exact .tail (.tail .refl hsocket rfl) hpacket rfl

lemma admits_served : Admits P opened (.socket ⟨false, true, false⟩ .ready) := by
  refine ⟨Option.some_ne_none 7, fun bytes heq => ?_⟩
  cases heq
  decide

lemma reaches_served (hp : P (.plain 8080 101 501 false true)) :
    Reaches (step true) (Admits P) (opening 8080) served :=
  .tail (reaches_opened hp) admits_served rfl

lemma reaches_exchanged (hp : P carrying) : Reaches (step true) (Admits P) opened exchanged := by
  have hpacket : Admits P opened (.packet carrying 3 true true) :=
    ⟨hp, rfl, fun _ => Option.some_ne_none 7⟩
  have hsocket : Admits P sending (.socket ⟨false, true, true⟩ .ready) := by
    refine ⟨Option.some_ne_none 7, fun bytes heq => ?_⟩
    cases heq
    decide
  exact .tail (.tail .refl hpacket rfl) hsocket rfl

end Conn

/-! ### The socket of a session -/

/-- What needs a socket needs this one, while it is open. -/
def Action.OnOpen (socket : ℕ) (before : List Action) (a : Action) : Prop :=
  (∃ p ok, a = .write p ok) ∨ .close socket ∉ before ∧ ∀ other, a = .close other → other = socket

namespace Conn

/-- The session holds the socket until it closes it. -/
structure Owns (socket : ℕ) (c : Conn) : Prop where
  each : Each (Action.OnOpen socket) c.log
  socket_eq : c.socket = if .close socket ∈ c.log then none else some socket

/-- The socket that goes with a state. -/
def HoldsSocket (c : Conn) : Prop :=
  match c.state with
  | .LISTEN | .SYN_RECV | .ESTABLISHED | .CLOSE_WAIT => c.socket ≠ none
  | .FIN_WAIT1 | .LAST_ACK | .CLOSE => c.socket = none
  | .CLOSING => True
  | .SYN_SENT | .FIN_WAIT2 | .TIME_WAIT => False

end Conn

section

variable {P : Incoming → Prop} {c c' : Conn} {socket : ℕ}

open Conn

namespace Conn.Owns

lemma quiet (h : c.Owns socket) (hlog : c'.log = c.log) (hsocket : c'.socket = c.socket) :
    c'.Owns socket :=
  ⟨hlog ▸ h.each, by rw [hsocket, hlog, h.socket_eq]⟩

lemma isOpen (h : c.Owns socket) (hsocket : c.socket ≠ none) :
    .close socket ∉ c.log ∧ c.socket = some socket := by
  have heq := h.socket_eq
  split_ifs at heq with hclosed
  · exact absurd heq hsocket
  · exact ⟨hclosed, heq⟩

lemma write {q : TcpPacket} {ok : Bool} (h : c.Owns socket)
    (hlog : c'.log = c.log ++ [.write q ok]) (hsocket : c'.socket = c.socket) :
    c'.Owns socket := by
  constructor
  · rw [hlog]
    exact h.each.concat (.inl ⟨q, ok, rfl⟩)
  · rw [hsocket, hlog, h.socket_eq]
    simp

lemma use {a : Action} (h : c.Owns socket) (hopen : c.socket ≠ none)
    (hclose : ∀ other, a ≠ .close other) (hlog : c'.log = c.log ++ [a])
    (hsocket : c'.socket = c.socket) : c'.Owns socket := by
  constructor
  · rw [hlog]
    exact h.each.concat (.inr ⟨(h.isOpen hopen).1, fun other heq => absurd heq (hclose other)⟩)
  · rw [hsocket, hlog, h.socket_eq]
    simp [(hclose socket).symm]

lemma close {s : ℕ} (h : c.Owns socket) (hsocket : c.socket = some s)
    (hlog : c'.log = c.log ++ [.close s]) (hnone : c'.socket = none) : c'.Owns socket := by
  obtain ⟨hclosed, hheld⟩ := h.isOpen (by simp [hsocket])
  obtain rfl : socket = s := Option.some_inj.mp (hheld.symm.trans hsocket)
  constructor
  · rw [hlog]
    refine h.each.concat (.inr ⟨hclosed, fun other heq => ?_⟩)
    cases heq
    rfl
  · rw [hnone, hlog]
    simp

end Conn.Owns

lemma Conn.IsTurn.ne_close {s : Segment} {rest : List Segment} {sent : ℕ} {action : Action}
    (h : c.IsTurn s rest sent action) (other : ℕ) : action ≠ .close other := by
  obtain ⟨data, -, ⟨-, rfl⟩ | ⟨n, -, rfl⟩⟩ := h.action_eq <;> exact Action.noConfusion

theorem Does.owns (h : Does P c c') (hc : c.Owns socket) : c'.Owns socket := by
  cases h with
  | quiet | named | window | shut | connected | establish | ackAll | ackPart | finWaits | closed =>
    exact hc.quiet rfl rfl
  | queue p hp h =>
    rw [queueTcp_eq]
    exact hc.quiet rfl rfl
  | notice p ok h => exact hc.write rfl rfl
  | refuse ok hstate =>
    rw [writeRst_eq]
    exact hc.write rfl rfl
  | discard bytes hstate hsent hsocket => exact hc.use hsocket (fun _ => Action.noConfusion) rfl rfl
  | turnAway reply ok hstate hsocket =>
    have hreply : (c.did (.discard reply)).Owns socket :=
      hc.use hsocket (fun _ => Action.noConfusion) rfl rfl
    rw [writeRst_eq]
    exact hreply.write rfl rfl
  | synAck ok hstate =>
    rw [writeSynAck, writeOrClose_eq]
    exact hc.write rfl rfl
  | fin ok hstate hforward | lastFin ok hstate =>
    rw [writeAck, writeOrClose_eq]
    exact hc.write rfl rfl
  | connect hdest hsent hsocket => exact hc.use hsocket (fun _ => Action.noConfusion) rfl rfl
  | turn s rest sent action h => exact hc.use h.socket_ne h.ne_close rfl rfl
  | lastTurn s sent action h hall hstate => exact hc.use h.socket_ne h.ne_close rfl rfl
  | sendFin other hstate hforward hsocket hwindow =>
    have hwrite : (c.writeFinAck true).Owns socket := hc.write rfl rfl
    exact hwrite.close hsocket rfl rfl
  | close other hstate hsocket => exact hc.close hsocket rfl rfl
  | data bytes ok hstate hsocket hlen =>
    have hrecv : (c.did (.recv bytes)).Owns socket :=
      hc.use hsocket (fun _ => Action.noConfusion) rfl rfl
    rw [writeData, writeOrClose_eq]
    exact hrecv.write rfl rfl

theorem Does.holdsSocket (h : Does P c c') (hc : c.HoldsSocket) : c'.HoldsSocket := by
  cases h with
  | quiet | named | window | notice | ackAll | ackPart | discard => exact hc
  | shut => trivial
  | refuse ok hstate | turnAway reply ok hstate => simp [HoldsSocket, writeRst_eq, hstate]
  | synAck ok hstate =>
    have hsocket : c.socket ≠ none := by simpa [HoldsSocket, hstate] using hc
    cases ok <;> simp [HoldsSocket, writeSynAck, writeOrClose_eq, hsocket]
  | connect hdest hsent hsocket => exact hsocket
  | connected hstate hsent => simpa [HoldsSocket, hstate] using hc
  | queue p hp h =>
    rw [queueTcp_eq]
    exact hc
  | establish hstate hconnected => simpa [HoldsSocket, hstate] using hc
  | fin ok hstate hforward =>
    have hsocket : c.socket ≠ none := by simpa [HoldsSocket, hstate] using hc
    cases ok <;> simp [HoldsSocket, writeAck, writeOrClose_eq, hsocket]
  | finWaits hstate hforward => simpa [HoldsSocket, hstate] using hc
  | lastFin ok hstate =>
    have hsocket : c.socket = none := by simpa [HoldsSocket, hstate] using hc
    cases ok <;> simp [HoldsSocket, writeAck, writeOrClose_eq, hsocket]
  | turn s rest sent action h => exact hc
  | lastTurn s sent action h hall hstate => exact hc
  | sendFin socket hstate hforward hsocket hwindow =>
    rcases hstate with hstate | hstate <;> simp [HoldsSocket, hstate]
  | close socket hstate hsocket => simp [HoldsSocket, hstate]
  | closed hstate hsocket => exact hsocket
  | data bytes ok hstate hsocket hlen =>
    cases ok with
    | true => exact hc
    | false => simp [HoldsSocket, writeData, writeOrClose_eq]

end

namespace Conn

variable {P : Incoming → Prop} {signedChar : Bool} {c : Conn} {p : Incoming} {mss : BitVec 16}
  {ws : BitVec 8} {rand : BitVec 32} {now : ℤ} {socket : ℕ} {buffer : SendBuffer}

/-- A session that is deleted is closed and has closed its socket. -/
lemma state_of_delete {now sessions maxsessions : ℤ} {ok : Bool}
    (h : (c.checkTcpSession now sessions maxsessions ok).2 = true) :
    (c.checkTcpSession now sessions maxsessions ok).1.state = .CLOSE := by
  unfold checkTcpSession at h ⊢
  exact (of_decide_eq_true h).1

/-- The socket is used while it is open only, is closed once, and is closed when the session is
deleted. -/
theorem socket_closed_once
    (h : Reaches (step signedChar) (Admits P) (new p mss ws rand now socket buffer) c) :
    c.Owns socket ∧ c.HoldsSocket ∧
      ∀ now sessions maxsessions ok, (c.checkTcpSession now sessions maxsessions ok).2 = true →
        .close socket ∈ (c.checkTcpSession now sessions maxsessions ok).1.log := by
  have hnew : (new p mss ws rand now socket buffer).Owns socket := ⟨.nil, rfl⟩
  have howns : c.Owns socket := keeps_of_reaches (fun _ _ => Does.owns) h hnew
  have hholds : c.HoldsSocket :=
    keeps_of_reaches (fun _ _ => Does.holdsSocket) h (Option.some_ne_none socket)
  refine ⟨howns, hholds, fun now sessions maxsessions ok hdelete => ?_⟩
  have hruns : Runs P c (c.checkTcpSession now sessions maxsessions ok).1 := runs_checkTcpSession
  have hclosed : (c.checkTcpSession now sessions maxsessions ok).1.socket = none := by
    simpa [HoldsSocket, state_of_delete hdelete] using
      hruns.keeps (fun _ _ => Does.holdsSocket) hholds
  have heq := (hruns.keeps (fun _ _ => Does.owns) howns).socket_eq
  by_contra hne
  rw [hclosed, if_neg hne] at heq
  cases heq

theorem socket_closed_once_served : served.Owns 7 ∧ served.HoldsSocket ∧
    ∀ now sessions maxsessions ok, (served.checkTcpSession now sessions maxsessions ok).2 = true →
      .close 7 ∈ (served.checkTcpSession now sessions maxsessions ok).1.log :=
  socket_closed_once (reaches_served (P := fun _ => True) trivial)

end Conn

end Violet.Tun2Http
