import Violet.Transition.Run
import Violet.Tun2Http.Udp
import Mathlib.Logic.Relation

/-!
# The ICMP sessions of the proxy

`icmp.c`: the echo requests of a client to one host go through one socket. The answers get the
identifier of the first request, since the socket exchanges it for its own.
-/

namespace Violet.Tun2Http

open Transition Wire Relation

structure IcmpSession where
  time : ℤ
  version : Version
  saddr : Addr
  daddr : Addr
  /-- The two bytes of the identifier of the first request. -/
  id : Byte × Byte
  stop : Bool
  socket : Option ℕ
  deriving DecidableEq, Repr

inductive IcmpAction
  | write (version : Version) (saddr daddr : Addr) (message : List Byte) (ok : Bool)
  | send (message : List Byte)
  | recv (bytes : List Byte)
  | close (socket : Option ℕ)
  deriving DecidableEq, Repr

structure Icmp extends IcmpSession where
  log : List IcmpAction := []
  deriving DecidableEq, Repr

def ICMP_TIMEOUT : ℤ := 15
def ICMP_ECHO : Byte := 8

/-- `ICMP4_MAXMSG` and `ICMP6_MAXMSG`, the most that a socket is asked for. -/
def icmpMaxmsg : Version → ℕ
  | .v4 => 65507
  | .v6 => 65487

/-- A message with another identifier, and the checksum for it behind that of a pseudo header. -/
def withId (id : Byte × Byte) (csum : BitVec 16) (message : List Byte) : List Byte :=
  let message := (message.set 4 id.1).set 5 id.2
  let message := (message.set 2 0).set 3 0
  let check := (~~~calcChecksum csum message).toNat
  (message.set 2 (BitVec.ofNat 8 check)).set 3 (BitVec.ofNat 8 (check / 256))

/-- What `handle_icmp` sends for a request, of which the IPv6 header has given `plen` as length. -/
def icmpRequest (version : Version) (saddr daddr : Addr) (protocol : Byte) (plen : BitVec 16)
    (message : List Byte) : List Byte :=
  let csum := match version with
    | .v4 => 0
    | .v6 => calcChecksum 0 (pseudoHeader .v6 saddr daddr protocol plen.toNat)
  withId (~~~message.getD 4 0, ~~~message.getD 5 0) csum message

namespace Icmp

def did (s : Icmp) (a : IcmpAction) : Icmp := { s with log := s.log ++ [a] }

/-- `check_icmp_session`, and whether the session is to be deleted. -/
def checkIcmpSession (s : Icmp) (now sessions maxsessions : ℤ) : Icmp × Bool :=
  if s.stop ∨ s.time + scaleTimeout ICMP_TIMEOUT sessions maxsessions < now then
    ({ s.did (.close s.socket) with socket := none }, true)
  else (s, false)

/-- What `check_icmp_socket` writes for an answer. For IPv6 the length in the pseudo header is that
of the message less the length of the header, as the machine stores it. -/
def reply (s : Icmp) (bytes : List Byte) : List Byte :=
  let len := (BitVec.ofNat 32 bytes.length - 40).toNat
  let csum := match s.version with
    | .v4 => 0
    | .v6 => calcChecksum 0 (addrBytes .v6 s.daddr ++ addrBytes .v6 s.saddr ++
        (le16 len ++ le16 (len / 2 ^ 16) ++ [0, 0, 0, IPPROTO_ICMPV6]))
  withId s.id csum bytes

/-- An answer goes to the client. -/
def recvData (s : Icmp) (bytes : List Byte) (writeOk : Bool) : Icmp :=
  let s := (s.did (.recv bytes)).did (.write s.version s.daddr s.saddr (s.reply bytes) writeOk)
  if writeOk then s else { s with stop := true }

/-- `check_icmp_socket`. -/
def checkIcmpSocket (s : Icmp) (ev : Events) (now : ℤ) (received : Recv) (writeOk : Bool) : Icmp :=
  if ev.err then { s with time := now, stop := true }
  else if ev.inp then
    let s := { s with time := now }
    match received with
    | .retry => s
    | .error | .eof => { s with stop := true }
    | .data bytes => s.recvData bytes writeOk
  else s

/-- `handle_icmp` for a session. -/
def handleIcmp (s : Icmp) (request : List Byte) (now : ℤ) (result : SendTo) : Icmp :=
  let s := { s with time := now }
  match result with
  | .sent => s.did (.send request)
  | .retry => s
  | .failed => { s with stop := true }

/-- The session that `handle_icmp` registers. -/
def new (version : Version) (saddr daddr : Addr) (message : List Byte) (now : ℤ) (socket : ℕ) :
    Icmp where
  time := now
  version := version
  saddr := saddr
  daddr := daddr
  id := (message.getD 4 0, message.getD 5 0)
  stop := false
  socket := some socket

def terminate (s : Icmp) : Icmp := { s with stop := true }

end Icmp

/-! ### Events -/

inductive IcmpEvent
  | request (protocol : Byte) (plen : BitVec 16) (message : List Byte) (now : ℤ) (result : SendTo)
  | socket (ev : Events) (now : ℤ) (received : Recv) (writeOk : Bool)
  | check (now sessions maxsessions : ℤ)
  /-- `check_allowed`. -/
  | terminate

namespace Icmp

/-- The session after an event, unless it is deleted. -/
def step (s : Icmp) : IcmpEvent → Option Icmp
  | .request protocol plen message now result =>
    some (s.handleIcmp (icmpRequest s.version s.saddr s.daddr protocol plen message) now result)
  | .socket ev now received writeOk => some (s.checkIcmpSocket ev now received writeOk)
  | .check now sessions maxsessions =>
    let (s, del) := s.checkIcmpSession now sessions maxsessions
    if del then none else some s
  | .terminate => some s.terminate

/-- The events that the system and a client with messages in `P` may bring about. -/
def Admits (P : List Byte → Prop) (s : Icmp) : IcmpEvent → Prop
  | .request _ _ message _ _ => P message
  | .socket _ _ received _ =>
    ∀ bytes, received = .data bytes → bytes.length ≤ icmpMaxmsg s.version
  | .check .. | .terminate => True

/-- One step of a session with a client that sends messages in `P`. -/
inductive Does (P : List Byte → Prop) : Icmp → Icmp → Prop
  | quiet (s : Icmp) (time : ℤ) : Does P s { s with time }
  | halt (s : Icmp) : Does P s { s with stop := true }
  | send (s : Icmp) (protocol : Byte) (plen : BitVec 16) (message : List Byte) (hp : P message) :
      Does P s (s.did (.send (icmpRequest s.version s.saddr s.daddr protocol plen message)))
  | relay (s : Icmp) (bytes : List Byte) (ok : Bool) (hlen : bytes.length ≤ icmpMaxmsg s.version) :
      Does P s ((s.did (.recv bytes)).did (.write s.version s.daddr s.saddr (s.reply bytes) ok))
  | close (s : Icmp) (socket : ℕ) (hsocket : s.socket = some socket) :
      Does P s { s.did (.close (some socket)) with socket := none }

abbrev Runs (P : List Byte → Prop) : Icmp → Icmp → Prop := ReflTransGen (Does P)

variable {P : List Byte → Prop} {s s' : Icmp} {now : ℤ}

lemma runs_recvData {bytes : List Byte} {ok : Bool} (hlen : bytes.length ≤ icmpMaxmsg s.version) :
    Runs P s (s.recvData bytes ok) := by
  have hrelay : Runs P s _ := .single (.relay s bytes ok hlen)
  rw [recvData]
  split_ifs
  · exact hrelay
  · exact hrelay.tail (.halt _)

lemma runs_checkIcmpSocket {ev : Events} {received : Recv} {ok : Bool}
    (hrecv : ∀ bytes, received = .data bytes → bytes.length ≤ icmpMaxmsg s.version) :
    Runs P s (s.checkIcmpSocket ev now received ok) := by
  have htime : Runs P s { s with time := now } := .single (.quiet s now)
  have hhalt : Runs P s { s with time := now, stop := true } := htime.tail (.halt _)
  unfold checkIcmpSocket
  split_ifs
  · exact hhalt
  · cases hreceived : received with
    | retry => exact htime
    | error | eof => exact hhalt
    | data bytes => exact htime.trans (runs_recvData (hrecv bytes hreceived))
  · exact .refl

lemma runs_handleIcmp {protocol : Byte} {plen : BitVec 16} {message : List Byte} {result : SendTo}
    (hp : P message) :
    Runs P s (s.handleIcmp (icmpRequest s.version s.saddr s.daddr protocol plen message) now
      result) := by
  have htime : Runs P s { s with time := now } := .single (.quiet s now)
  unfold handleIcmp
  cases result with
  | sent => exact htime.tail (.send { s with time := now } protocol plen message hp)
  | retry => exact htime
  | failed => exact htime.tail (.halt _)

lemma runs_checkIcmpSession {sessions maxsessions : ℤ} (hsocket : s.socket ≠ none) :
    Runs P s (s.checkIcmpSession now sessions maxsessions).1 := by
  obtain ⟨socket, hsocket⟩ := Option.ne_none_iff_exists'.mp hsocket
  rw [checkIcmpSession]
  split_ifs
  · rw [hsocket]
    exact .single (.close s socket hsocket)
  · exact .refl

theorem runs_step {e : IcmpEvent} (hguard : s.Admits P e) (h : s.step e = some s') :
    Runs P s s' := by
  cases e with
  | request protocol plen message now result =>
    cases h
    exact runs_handleIcmp hguard
  | socket ev now received ok =>
    cases h
    exact runs_checkIcmpSocket hguard
  | check now sessions maxsessions =>
    rw [step, checkIcmpSession] at h
    split_ifs at h
    · cases h
    · cases h
      exact .refl
  | terminate =>
    cases h
    exact .single (.halt s)

lemma socket_of_delete {sessions maxsessions : ℤ}
    (h : (s.checkIcmpSession now sessions maxsessions).2 = true) :
    (s.checkIcmpSession now sessions maxsessions).1.socket = none := by
  rw [checkIcmpSession] at h ⊢
  split_ifs at h ⊢
  rfl

/-- The socket of a session is open until the session is deleted. -/
lemma socket_of_step {e : IcmpEvent} (h : s.step e = some s') : s'.socket = s.socket := by
  cases e with
  | request protocol plen message now result =>
    cases h
    cases result <;> rfl
  | socket ev now received ok =>
    cases h
    unfold checkIcmpSocket
    split_ifs
    · rfl
    · cases received with
      | data => cases ok <;> rfl
      | _ => rfl
    · rfl
  | check now sessions maxsessions =>
    rw [step, checkIcmpSession] at h
    split_ifs at h
    · cases h
    · cases h
      rfl
  | terminate =>
    cases h
    rfl

lemma Runs.keeps {I : Icmp → Prop} (hdoes : ∀ s s', Does P s s' → I s → I s') (h : Runs P s s')
    (h0 : I s) : I s' := by
  induction h with
  | refl => exact h0
  | tail _ hstep ih => exact hdoes _ _ hstep ih

end Icmp

/-! ### What is relayed -/

/-- A message with another identifier and a checksum for that. -/
structure Relabelled (id bytes message : List Byte) : Prop where
  head : message.take 2 = bytes.take 2
  ident : (message.drop 4).take 2 = id
  rest : message.drop 6 = bytes.drop 6
  verifies : Verifies message

lemma relabelled_withId (id : Byte × Byte) {bytes : List Byte} (hlen : 6 ≤ bytes.length)
    (hshort : bytes.length < 2 ^ 16) : Relabelled [id.1, id.2] bytes (withId id 0 bytes) := by
  rcases bytes with _ | ⟨b₀, _ | ⟨b₁, _ | ⟨b₂, _ | ⟨b₃, _ | ⟨b₄, _ | ⟨b₅, rest⟩⟩⟩⟩⟩⟩
  iterate 6
    · simp at hlen
  have heq : withId id 0 (b₀ :: b₁ :: b₂ :: b₃ :: b₄ :: b₅ :: rest) =
      [b₀, b₁] ++ le16 (~~~calcChecksum 0 ([b₀, b₁] ++ le16 0 ++ (id.1 :: id.2 :: rest))).toNat ++
        (id.1 :: id.2 :: rest) := rfl
  refine ⟨rfl, rfl, rfl, ?_⟩
  rw [heq]
  refine verifies_calcChecksum (by simp) ?_
  simp only [List.length_cons, List.length_nil] at hshort ⊢
  omega

/-- The version, the addresses and the message that are written. -/
@[simp] def IcmpAction.written : IcmpAction → Option (Version × Addr × Addr × List Byte)
  | .write version saddr daddr message _ => some (version, saddr, daddr, message)
  | .send _ | .recv _ | .close _ => none

@[simp] def IcmpAction.arrived : IcmpAction → Option (List Byte)
  | .recv bytes => some bytes
  | .write .. | .send _ | .close _ => none

@[simp] def IcmpAction.forwarded : IcmpAction → Option (List Byte)
  | .send message => some message
  | .write .. | .recv _ | .close _ => none

namespace Icmp

variable {P : List Byte → Prop} {s s' : Icmp} {a : IcmpAction} {saddr daddr : Addr}
  {id : Byte × Byte} {message : List Byte} {now : ℤ} {socket : ℕ}

def written (s : Icmp) : List (Version × Addr × Addr × List Byte) :=
  s.log.filterMap IcmpAction.written

def arrived (s : Icmp) : List (List Byte) := s.log.filterMap IcmpAction.arrived

def forwarded (s : Icmp) : List (List Byte) := s.log.filterMap IcmpAction.forwarded

@[simp] lemma written_did : (s.did a).written = s.written ++ a.written.toList := by
  cases a <;> simp [written, did]

@[simp] lemma arrived_did : (s.did a).arrived = s.arrived ++ a.arrived.toList := by
  cases a <;> simp [arrived, did]

@[simp] lemma forwarded_did : (s.did a).forwarded = s.forwarded ++ a.forwarded.toList := by
  cases a <;> simp [forwarded, did]

/-- What is written for an answer: a message with the identifier of the first request. -/
def IsReply (saddr daddr : Addr) (id : Byte × Byte) (bytes : List Byte)
    (written : Version × Addr × Addr × List Byte) : Prop :=
  ∃ reply, written = (.v4, daddr, saddr, reply) ∧
    (6 ≤ bytes.length → Relabelled [id.1, id.2] bytes reply)

/-- What is sent for a request: a message with the complement of its identifier. -/
def IsRequest (P : List Byte → Prop) (sent : List Byte) : Prop :=
  ∃ message, P message ∧ Relabelled [~~~message.getD 4 0, ~~~message.getD 5 0] message sent

/-- A session of IPv4. -/
structure Relays (P : List Byte → Prop) (saddr daddr : Addr) (id : Byte × Byte) (s : Icmp) :
    Prop where
  fields : (s.version, s.saddr, s.daddr, s.id) = (.v4, saddr, daddr, id)
  written : List.Forall₂ (IsReply saddr daddr id) s.arrived s.written
  forwarded : ∀ sent ∈ s.forwarded, IsRequest P sent

lemma Does.relays (hmessage : ∀ m, P m → 6 ≤ m.length ∧ m.length < 2 ^ 16) (h : Does P s s')
    (hs : s.Relays P saddr daddr id) : s'.Relays P saddr daddr id := by
  obtain ⟨hfields, hwritten, hforwarded⟩ := hs
  have hversion : s.version = .v4 := congrArg Prod.fst hfields
  cases h with
  | quiet | halt => exact ⟨hfields, hwritten, hforwarded⟩
  | send protocol plen message hp =>
    obtain ⟨hlen, hshort⟩ := hmessage message hp
    have hrequest : IsRequest P (icmpRequest .v4 s.saddr s.daddr protocol plen message) :=
      ⟨message, hp, relabelled_withId (~~~message.getD 4 0, ~~~message.getD 5 0) hlen hshort⟩
    refine ⟨hfields, by simpa using hwritten, ?_⟩
    simpa [or_imp, forall_and, hversion] using ⟨hforwarded, hrequest⟩
  | relay bytes ok hlen =>
    rw [hversion] at hlen
    obtain ⟨-, hsaddr, hdaddr, hid⟩ : s.version = .v4 ∧ s.saddr = saddr ∧ s.daddr = daddr ∧
        s.id = id := by simpa using hfields
    have hreply : IsReply saddr daddr id bytes (s.version, s.daddr, s.saddr, s.reply bytes) := by
      refine ⟨s.reply bytes, by rw [hversion, hdaddr, hsaddr], fun hsix => ?_⟩
      have heq : s.reply bytes = withId id 0 bytes := by simp [reply, hversion, hid]
      rw [heq]
      exact relabelled_withId id hsix (hlen.trans_lt (by decide))
    refine ⟨hfields, ?_, by simpa using hforwarded⟩
    simpa using List.rel_append hwritten (.cons hreply .nil)
  | close socket hsocket =>
    have hclose : (s.did (.close (some socket))).Relays P saddr daddr id :=
      ⟨hfields, by simpa using hwritten, by simpa using hforwarded⟩
    exact ⟨hclose.fields, hclose.written, hclose.forwarded⟩

/-- In a session of IPv4 each answer of the host goes to the client once, in order and with its
addresses. It has the identifier of the request that has opened the session, and a checksum for
that. A request is sent with the complement of its own identifier, and a checksum for that. -/
theorem relays_echo (hmessage : ∀ m, P m → 6 ≤ m.length ∧ m.length < 2 ^ 16)
    (h : Reaches step (Admits P) (new .v4 saddr daddr message now socket) s) :
    List.Forall₂ (IsReply saddr daddr (message.getD 4 0, message.getD 5 0)) s.arrived s.written ∧
      ∀ sent ∈ s.forwarded, IsRequest P sent := by
  have hnew : (new .v4 saddr daddr message now socket).Relays P saddr daddr
      (message.getD 4 0, message.getD 5 0) := ⟨rfl, .nil, by simp [forwarded, new]⟩
  have hs := h.invariant (P := Relays P saddr daddr (message.getD 4 0, message.getD 5 0)) hnew
    fun s e s' hI hguard hstep =>
      (runs_step hguard hstep).keeps (fun _ _ hdoes hI => hdoes.relays hmessage hI) hI
  exact ⟨hs.written, hs.forwarded⟩

/-- An echo request without data. -/
def echo : List Byte := [8, 0, 0, 0, 0x12, 0x34, 0, 1]

/-- A session for it, with an answer that has another identifier. -/
def answered : Icmp :=
  ((new .v4 (.replicate 16 1) (.replicate 16 2) echo 0 7).handleIcmp
    (icmpRequest .v4 (.replicate 16 1) (.replicate 16 2) IPPROTO_ICMP 0 echo) 0 .sent).recvData
    [0, 0, 0, 0, 0x99, 0x99, 0, 1] true

theorem relays_echo_answered :
    List.Forall₂ (IsReply (.replicate 16 1) (.replicate 16 2) (0x12, 0x34)) answered.arrived
        answered.written ∧
      ∀ sent ∈ answered.forwarded, IsRequest (· = echo) sent := by
  have hrequest : Admits (· = echo) (new .v4 (.replicate 16 1) (.replicate 16 2) echo 0 7)
      (.request IPPROTO_ICMP 0 echo 0 .sent) := rfl
  have hsocket : Admits (· = echo)
      ((new .v4 (.replicate 16 1) (.replicate 16 2) echo 0 7).handleIcmp
        (icmpRequest .v4 (.replicate 16 1) (.replicate 16 2) IPPROTO_ICMP 0 echo) 0 .sent)
      (.socket ⟨false, true, false⟩ 0 (.data [0, 0, 0, 0, 0x99, 0x99, 0, 1]) true) := by
    intro bytes heq
    cases heq
    decide
  have hreaches : Reaches step (Admits (· = echo))
      (new .v4 (.replicate 16 1) (.replicate 16 2) echo 0 7) answered :=
    .tail (.tail .refl hrequest rfl) hsocket rfl
  refine relays_echo ?_ hreaches
  rintro m rfl
  decide

end Icmp

end Violet.Tun2Http
