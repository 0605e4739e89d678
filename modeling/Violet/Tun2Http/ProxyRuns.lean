import Violet.Transition.Table
import Violet.Tun2Http.Proxy

/-!
# Runs of the proxy
-/

namespace Violet.Tun2Http

open Transition Wire Relation

/-- What a session does to its socket. -/
abbrev NgSession.Frees : NgSession → NgSession → Prop :=
  Transition.Frees NgSession.socket NgSession.closings

section

variable {P : Incoming → Prop} {c c' : Conn}

open Conn

/-- What is done with the log of a session of TCP. -/
lemma frees_of_log {a : Action} (ha : a.closing = none) (hlog : c'.log = c.log ++ [a])
    (hsocket : c'.socket = c.socket) : NgSession.Frees (.tcp c) (.tcp c') :=
  .keeps (by simp only [NgSession.closings, hlog, List.filterMap_append, List.filterMap_nil,
    List.filterMap_cons_none ha, List.append_nil]) hsocket

lemma frees_of_close {file : ℕ} (hopen : c.socket = some file)
    (hlog : c'.log = c.log ++ [.close file]) (hnone : c'.socket = none) :
    NgSession.Frees (.tcp c) (.tcp c') :=
  .closes file hopen (by simp [NgSession.closings, hlog]) hnone

lemma Conn.IsTurn.closing_eq {s : Segment} {rest : List Segment} {sent : ℕ} {action : Action}
    (h : c.IsTurn s rest sent action) : action.closing = none := by
  obtain ⟨data, -, ⟨-, rfl⟩ | ⟨n, -, rfl⟩⟩ := h.action_eq <;> rfl

theorem Does.frees (h : Does P c c') : NgSession.Frees (.tcp c) (.tcp c') := by
  cases h with
  | quiet | named | window | shut | connected | establish | ackAll | ackPart | finWaits | closed =>
    exact .keeps rfl rfl
  | queue p hp h =>
    rw [queueTcp_eq]
    exact .keeps rfl rfl
  | notice p ok h => exact frees_of_log rfl rfl rfl
  | refuse ok hstate =>
    rw [writeRst_eq]
    exact frees_of_log rfl rfl rfl
  | synAck ok hstate =>
    rw [writeSynAck, writeOrClose_eq]
    exact frees_of_log rfl rfl rfl
  | fin ok hstate hforward | lastFin ok hstate =>
    rw [writeAck, writeOrClose_eq]
    exact frees_of_log rfl rfl rfl
  | connect | discard => exact frees_of_log rfl rfl rfl
  | turnAway reply ok hstate hsocket =>
    have hreply : NgSession.Frees (.tcp c) (.tcp (c.did (.discard reply))) :=
      frees_of_log rfl rfl rfl
    rw [writeRst_eq]
    exact hreply.trans (frees_of_log rfl rfl rfl)
  | turn s rest sent action h => exact frees_of_log h.closing_eq rfl rfl
  | lastTurn s sent action h hall hstate => exact frees_of_log h.closing_eq rfl rfl
  | sendFin file hstate hforward hsocket hwindow =>
    have hwrite : NgSession.Frees (.tcp c) (.tcp (c.writeFinAck true)) := frees_of_log rfl rfl rfl
    exact hwrite.trans (frees_of_close hsocket rfl rfl)
  | close file hstate hsocket => exact frees_of_close hsocket rfl rfl
  | data bytes ok hstate hsocket hlen =>
    have hrecv : NgSession.Frees (.tcp c) (.tcp (c.did (.recv bytes))) := frees_of_log rfl rfl rfl
    rw [writeData, writeOrClose_eq]
    exact hrecv.trans (frees_of_log rfl rfl rfl)

lemma Does.flow_eq (h : Does P c c') : c'.flow = c.flow := by
  cases h with
  | refuse | turnAway => simp [writeRst_eq, TcpSession.flow]
  | synAck | fin | lastFin | data =>
    simp [writeSynAck, writeAck, writeData, writeOrClose_eq, TcpSession.flow]
  | queue => simp [queueTcp_eq, TcpSession.flow]
  | _ => rfl

end

/-- A session that is deleted has closed its socket. -/
lemma Conn.socket_of_delete {c : Conn} {now sessions maxsessions : ℤ} {ok : Bool}
    (hc : c.HoldsSocket) (h : (c.checkTcpSession now sessions maxsessions ok).2 = true) :
    (c.checkTcpSession now sessions maxsessions ok).1.socket = none := by
  have hruns : Runs (fun _ => True) c (c.checkTcpSession now sessions maxsessions ok).1 :=
    runs_checkTcpSession
  simpa [HoldsSocket, state_of_delete h] using hruns.keeps (fun _ _ => Does.holdsSocket) hc

/-! ### UDP and ICMP -/

lemma Udp.Does.frees {P : UdpPacket → Prop} {u u' : Udp} (h : Udp.Does P u u') :
    NgSession.Frees (.udp u) (.udp u') := by
  cases h with
  | quiet | finish => exact .keeps rfl rfl
  | send p hp a ha =>
    rcases ha with rfl | rfl <;> exact .keeps (by simp [NgSession.closings, Udp.did]) rfl
  | answer p hp ok => exact .keeps (by simp [NgSession.closings, Udp.answer, Udp.did]) rfl
  | relay bytes ok hlen => exact .keeps (by simp [NgSession.closings, Udp.did]) rfl
  | close file hsocket => exact .closes file hsocket (by simp [NgSession.closings, Udp.did]) rfl

lemma Udp.Does.dest_eq {P : UdpPacket → Prop} {u u' : Udp} (h : Udp.Does P u u') :
    u'.dest = u.dest := by
  cases h <;> rfl

/-- The flow changes with the answer to a DHCP request only. -/
lemma Udp.Does.flow_eq {P : UdpPacket → Prop} {u u' : Udp} (h : Udp.Does P u u')
    (hu' : u'.requests = []) : u.requests = [] ∧ u'.flow = u.flow := by
  cases h with
  | quiet | finish => exact ⟨hu', rfl⟩
  | send p hp a ha =>
    rcases ha with rfl | rfl <;> exact ⟨by simpa [Udp.requests, Udp.did] using hu', rfl⟩
  | answer p hp ok => simp [Udp.requests, Udp.answer, Udp.did] at hu'
  | relay | close => exact ⟨by simpa [Udp.requests, Udp.did] using hu', rfl⟩

lemma Icmp.Does.frees {P : List Byte → Prop} {s s' : Icmp} (h : Icmp.Does P s s') :
    NgSession.Frees (.icmp s) (.icmp s') := by
  cases h with
  | quiet | halt => exact .keeps rfl rfl
  | send | relay => exact .keeps (by simp [NgSession.closings, Icmp.did]) rfl
  | close file hsocket => exact .closes file hsocket (by simp [NgSession.closings, Icmp.did]) rfl

lemma Icmp.Does.flow_eq {P : List Byte → Prop} {s s' : Icmp} (h : Icmp.Does P s s') :
    s'.flow = s.flow := by
  cases h <;> rfl

/-- A session that has been stopped stays so. -/
lemma Icmp.Does.stop_of_stop {P : List Byte → Prop} {s s' : Icmp} (h : Icmp.Does P s s')
    (hstop : s.stop = true) : s'.stop = true := by
  cases h with
  | quiet | send | relay | close => exact hstop
  | halt => rfl

/-! ### One session -/

/-- The messages that `handle_ip` lets pass. -/
def IsEcho (message : List Byte) : Prop := 28 ≤ message.length ∧ message.length ≤ MTU

/-- A message of ICMP is one that is let pass, or its size has wrapped around. -/
def Datagram.Sized (d : Datagram) : Prop :=
  ∀ version saddr daddr protocol plen message,
    d = .icmp version saddr daddr protocol plen message →
      IsEcho message ∨ 2 ^ 63 ≤ message.length

lemma sized_of_readPacket {pkt : List Byte} {beyond : ℕ → Byte} {d : Datagram}
    (hlen : pkt.length ≤ MTU) (h : readPacket pkt beyond = some (some d)) : d.Sized := by
  rintro version saddr daddr protocol plen message rfl
  obtain ⟨ip, hip, hread⟩ := exists_of_readPacket h
  have hpayload := payloadOffset_lt (memoryOf pkt beyond)
  rw [← payload_of_readIp hip] at hpayload
  have hmtu : MTU = 10000 := rfl
  simp only [readDatagram] at hread
  split_ifs at hread with hicmp hsize <;> cases hread
  rw [IsEcho, length_stretch]
  rw [payloadSize, BitVec.toNat_sub, BitVec.toNat_ofNat, BitVec.toNat_ofNat] at hsize ⊢
  omega

namespace NgSession

variable {signedChar : Bool} {s s' : NgSession}

/-- A session goes on by one of its events. Packets are those of its flow. -/
inductive Next (signedChar : Bool) : NgSession → NgSession → Prop
  | icmp {s s' : Icmp} (e : IcmpEvent) (hguard : s.Admits IsEcho e) (h : s.step e = some s') :
      Next signedChar (.icmp s) (.icmp s')
  | udp {u u' : Udp} (e : UdpEvent) (hu : u.HoldsSocket)
      (hguard : u.Admits (·.flow = u.flow) e) (h : u.step e = some u') :
      Next signedChar (.udp u) (.udp u')
  | tcp {c c' : Conn} (e : ConnEvent) (hguard : c.Admits (·.flow = c.flow) e)
      (h : c.step signedChar e = some c') : Next signedChar (.tcp c) (.tcp c')

/-- The steps of a session, and of one that is deleted. -/
inductive Proceeds : NgSession → NgSession → Prop
  | icmp {s s' : Icmp} (h : Icmp.Runs IsEcho s s') : Proceeds (.icmp s) (.icmp s')
  | udp {u u' : Udp} (h : Udp.Runs (·.flow = u.flow) u u') : Proceeds (.udp u) (.udp u')
  | tcp {c c' : Conn} (h : Runs (·.flow = c.flow) c c') : Proceeds (.tcp c) (.tcp c')

/-- A session that is in the table holds a socket if its state needs one. -/
def HoldsSocket : NgSession → Prop
  | icmp s => s.socket ≠ none
  | udp u => u.HoldsSocket
  | tcp c => c.HoldsSocket

lemma Next.proceeds (h : Next signedChar s s') : s.Proceeds s' := by
  cases h with
  | icmp e hguard h => exact .icmp (Icmp.runs_step hguard h)
  | udp e hu hguard h => exact .udp (Udp.runs_step hu hguard h)
  | tcp e hguard h => exact .tcp (runs_step hguard h)

lemma Proceeds.frees (h : s.Proceeds s') : s.Frees s' := by
  cases h with
  | @icmp s s' h =>
    exact h.keeps (I := fun s' => (NgSession.icmp s).Frees (.icmp s'))
      (fun _ _ hdoes hI => hI.trans hdoes.frees) (.refl _)
  | @udp u u' h =>
    exact h.keeps (I := fun u' => (NgSession.udp u).Frees (.udp u'))
      (fun _ _ hdoes hI => hI.trans hdoes.frees) (.refl _)
  | @tcp c c' h =>
    exact h.keeps (I := fun c' => (NgSession.tcp c).Frees (.tcp c'))
      (fun _ _ hdoes hI => hI.trans hdoes.frees) (.refl _)

/-- The session has answered no DHCP request. -/
def Unleased : NgSession → Prop
  | udp u => u.requests = []
  | icmp _ | tcp _ => True

lemma Proceeds.flow_eq (h : s.Proceeds s') (hs' : s'.Unleased) :
    s.Unleased ∧ s'.flow = s.flow := by
  cases h with
  | @icmp s s' h =>
    exact ⟨trivial, h.keeps (I := fun s' => s'.flow = s.flow)
      (fun _ _ hdoes hI => hdoes.flow_eq.trans hI) rfl⟩
  | @udp u u' h =>
    refine h.keeps (I := fun u' => u'.requests = [] → u.requests = [] ∧ u'.flow = u.flow)
      (fun _ _ hdoes hI hnone => ?_) (fun hnone => ⟨hnone, rfl⟩) hs'
    obtain ⟨hbefore, hflow⟩ := hdoes.flow_eq hnone
    exact ⟨(hI hbefore).1, hflow.trans (hI hbefore).2⟩
  | @tcp c c' h =>
    exact ⟨trivial, h.keeps (I := fun c' => c'.flow = c.flow)
      (fun _ _ hdoes hI => hdoes.flow_eq.trans hI) rfl⟩

/-- A session that packets do not find is not found again. -/
lemma Proceeds.found_of_found (h : s.Proceeds s') (hfound : s'.found = true) : s.found = true := by
  cases h with
  | @icmp s s' h =>
    by_contra hstop
    have hstop' : s'.stop = true := h.keeps (fun _ _ hdoes => hdoes.stop_of_stop)
      (by simpa [found] using hstop)
    simp [found, hstop'] at hfound
  | udp | tcp => rfl

lemma Next.holdsSocket (h : Next signedChar s s') (hs : s.HoldsSocket) : s'.HoldsSocket := by
  cases h with
  | @icmp s s' e hguard h =>
    exact fun hnone => hs ((Icmp.socket_of_step h).symm.trans hnone)
  | udp e hu hguard h =>
    exact (Udp.runs_step hu hguard h).keeps (fun _ _ => Udp.Does.holdsSocket) hs
  | tcp e hguard h => exact (runs_step hguard h).keeps (fun _ _ => Does.holdsSocket) hs

/-- What a function makes of a session, and whether it is removed: it goes on, or it has come to its
end. -/
inductive Moves (signedChar : Bool) (s : NgSession) : NgSession × Bool → Prop
  | stays : Moves signedChar s (s, false)
  | goes (s' : NgSession) (h : Next signedChar s s') : Moves signedChar s (s', false)
  | ends (s' : NgSession) (h : s.Proceeds s') (hsocket : s'.socket = none) :
      Moves signedChar s (s', true)

lemma Proceeds.refl (s : NgSession) : s.Proceeds s := by
  cases s with
  | icmp => exact .icmp .refl
  | udp => exact .udp .refl
  | tcp => exact .tcp .refl

lemma Moves.proceeds {result : NgSession × Bool} (h : s.Moves signedChar result) :
    s.Proceeds result.1 := by
  cases h with
  | stays => exact .refl s
  | goes s' h => exact h.proceeds
  | ends s' h => exact h

lemma Moves.of_check {s' : NgSession} {del : Bool} (hnext : del = false → Next signedChar s s')
    (hend : del = true → s.Proceeds s' ∧ s'.socket = none) : s.Moves signedChar (s', del) := by
  cases del with
  | false => exact .goes s' (hnext rfl)
  | true => exact .ends s' (hend rfl).1 (hend rfl).2

lemma moves_checkSession {now sessions maxsessions : ℤ} {ok : Bool} (hs : s.HoldsSocket) :
    s.Moves signedChar (s.checkSession now sessions maxsessions ok) := by
  cases s with
  | icmp s =>
    refine .of_check (fun hdel => ?_) fun hdel => ?_
    · exact .icmp (.check now sessions maxsessions) trivial
        (Option.ite_none_left_eq_some.mpr ⟨by simpa using hdel, rfl⟩)
    · exact ⟨.icmp (Icmp.runs_checkIcmpSession hs), Icmp.socket_of_delete hdel⟩
  | udp u =>
    refine .of_check (fun hdel => ?_) fun hdel => ?_
    · exact .udp (.check now sessions maxsessions) hs trivial
        (Option.ite_none_left_eq_some.mpr ⟨by simpa using hdel, rfl⟩)
    · exact ⟨.udp (Udp.runs_checkUdpSession hs), Udp.socket_of_delete hs hdel⟩
  | tcp c =>
    refine .of_check (fun hdel => ?_) fun hdel => ?_
    · exact .tcp (.check now sessions maxsessions ok) trivial
        (Option.ite_none_left_eq_some.mpr ⟨by simpa using hdel, rfl⟩)
    · exact ⟨.tcp runs_checkTcpSession, Conn.socket_of_delete hs hdel⟩

lemma moves_monitor {a : MonitorAnswers} : s.Moves signedChar (s.monitor a, false) := by
  cases s with
  | icmp | udp => exact .stays
  | tcp c =>
    rw [monitor]
    split_ifs with hsocket
    · have hopen : c.socket ≠ none := by simpa [Option.isSome_iff_ne_none] using hsocket
      exact .goes _ (.tcp (.monitor a.ms a.buffer a.writeOk a.ctlOk) hopen rfl)
    · exact .stays

lemma moves_terminate {ok : Bool} (hs : s.HoldsSocket) :
    s.Moves signedChar (s.terminate ok) := by
  cases s with
  | icmp s => exact .goes _ (.icmp .terminate trivial rfl)
  | udp u =>
    refine .of_check (fun hdel => ?_) fun hdel => ?_
    · exact .udp .terminate hs trivial (Option.ite_none_left_eq_some.mpr ⟨by simpa using hdel, rfl⟩)
    · exact ⟨.udp (Udp.runs_terminate hs), Udp.socket_of_terminate hs hdel⟩
  | tcp c => exact .goes _ (.tcp (.terminate ok) trivial rfl)

lemma moves_checkSocket {ev : Events} {a : Conn.Answers} (hs : s.HoldsSocket)
    (hsocket : s.socket ≠ none)
    (hrecv : ∀ bytes, a.received = .data bytes → bytes.length ≤ s.recvSize)
    (h : s.checkSocket ev a = some s') : s.Moves signedChar (s', false) := by
  cases s with
  | icmp s =>
    cases h
    exact .goes _ (.icmp (.socket ev a.now a.received a.writeOk) hrecv rfl)
  | udp u =>
    obtain ⟨u', hu', rfl⟩ := Option.map_eq_some_iff.mp h
    exact .goes _
      (.udp (.socket ev a.now a.received (a.beyond 0) a.writeOk) hs ⟨hsocket, hrecv⟩ hu')
  | tcp c =>
    obtain ⟨c', hc', rfl⟩ := Option.map_eq_some_iff.mp h
    exact .goes _ (.tcp (.socket ev a) ⟨hsocket, hrecv⟩ hc')

lemma icmpRequest_congr {version version' : Version} {saddr saddr' daddr daddr' : Addr}
    {protocol : Byte} {plen : BitVec 16} {message : List Byte} (hversion : version = version')
    (hsaddr : addrBytes version saddr = addrBytes version' saddr')
    (hdaddr : addrBytes version daddr = addrBytes version' daddr') :
    icmpRequest version saddr daddr protocol plen message =
      icmpRequest version' saddr' daddr' protocol plen message := by
  subst hversion
  cases version with
  | v4 => rfl
  | v6 => simp only [icmpRequest, pseudoHeader, hsaddr, hdaddr]

/-- A packet of the flow of a session, with a message of a size that `handle_ip` lets pass. -/
lemma moves_handle {d : Datagram} {beyond : ℕ → Byte} {a : PacketAnswers} (hs : s.HoldsSocket)
    (hflow : s.flow = d.flow) (hd : d.Sized) (h : s.handle signedChar d beyond a = some s') :
    s.Moves signedChar (s', false) := by
  cases s with
  | icmp s =>
    cases d with
    | icmp version saddr daddr protocol plen message =>
      obtain ⟨hshort, h⟩ := Option.ite_none_left_eq_some.mp h
      cases h
      have hecho : IsEcho message := (hd _ _ _ _ _ _ rfl).resolve_right hshort
      obtain ⟨hversion, hsaddr, hdaddr⟩ : s.version = version ∧
          addrBytes s.version s.saddr = addrBytes version saddr ∧
          addrBytes s.version s.daddr = addrBytes version daddr := by
        simpa [flow, IcmpSession.flow, Datagram.flow] using hflow
      rw [← icmpRequest_congr hversion hsaddr hdaddr]
      exact .goes _ (.icmp (.request protocol plen message a.now a.result) hecho rfl)
    | udp | tcp => cases hflow
  | udp u =>
    cases d with
    | udp p =>
      have hp : p.flow = u.flow := hflow.symm
      by_cases hactive : u.state = .ACTIVE
      · rw [handle, if_pos hactive] at h
        obtain ⟨u', hu', rfl⟩ := Option.map_eq_some_iff.mp h
        exact .goes _ (.udp (.packet p beyond a.now a.result a.writeOk) hs hp
          ((if_pos hactive).trans hu'))
      · rw [handle, if_neg hactive] at h
        cases h
        exact .stays
    | icmp | tcp => cases hflow
  | tcp c =>
    cases d with
    | tcp p options =>
      cases h
      have hp : p.flow = c.flow := hflow.symm
      have hdest : p.dest = c.dest := by
        simp only [Incoming.flow, TcpSession.flow, Flow.tcp.injEq] at hp
        exact hp.2.2.2.2
      refine .goes _ (.tcp (.packet p a.now (a.sendOk && c.socket.isSome) a.writeOk)
        ⟨hp, hdest, fun hsend => ?_⟩ rfl)
      exact Option.isSome_iff_ne_none.mp (Bool.and_eq_true_iff.mp hsend).2
    | icmp | udp => cases hflow

end NgSession

/-! ### The table -/

/-- A session that a packet has opened. -/
inductive NgSession.Begins : NgSession → Prop
  | icmp (version : Version) (saddr daddr : Addr) (message : List Byte) (now : ℤ) (socket : ℕ)
      (h : IsEcho message) : Begins (.icmp (.new version saddr daddr message now socket))
  | udp (p : UdpPacket) (now : ℤ) (socket : ℕ) : Begins (.udp (.new p now socket))
  | tcp (p : Incoming) (mss : BitVec 16) (ws : BitVec 8) (rand : BitVec 32) (now : ℤ) (socket : ℕ)
      (buffer : SendBuffer) (hsyn : p.syn = true) :
      Begins (.tcp (.new p mss ws rand now socket buffer))

/-- A session whose packets find no other. -/
def NgSession.Fresh (table : List NgSession) (s : NgSession) : Prop :=
  s.Begins ∧ ∀ t ∈ table, t.found = true → t.flow ≠ s.flow

namespace Proxy

variable {args : Arguments} {p p' : Proxy} {sc : Bool}

/-- The open descriptors are those of the sessions and those that have been left behind. -/
structure Sound (p : Proxy) : Prop where
  sessions : ∀ s ∈ p.sessions, s.HoldsSocket
  files : Holding (heldBy NgSession.socket p.sessions ++ p.leaked) p.files
  count : 0 ≤ p.count

section

variable {f : ℕ → NgSession → NgSession × Bool} {sessions : List NgSession} {s : NgSession}
  {rest : List ℕ} {log : List FileAction}

lemma pass_cons : pass f (s :: sessions) =
    (if (f 0 s).2 then (pass (fun i => f (i + 1)) sessions).1
      else (f 0 s).1 :: (pass (fun i => f (i + 1)) sessions).1,
    s.closedUntil (f 0 s).1 ++ (pass (fun i => f (i + 1)) sessions).2) := rfl

lemma holding_pass (h : Holding (heldBy NgSession.socket sessions ++ rest) log)
    (hsessions : ∀ s ∈ sessions, s.HoldsSocket)
    (hf : ∀ i (s : NgSession), s.HoldsSocket → s.Moves sc (f i s)) :
    Holding (heldBy NgSession.socket (pass f sessions).1 ++ rest) (log ++ (pass f sessions).2) := by
  induction sessions generalizing f rest log with
  | nil => simpa [pass] using h
  | cons s sessions ih =>
    obtain ⟨hs, hsessions⟩ := List.forall_mem_cons.mp hsessions
    have hmoves := hf 0 s hs
    have hfrees := hmoves.proceeds.frees
    rw [heldBy_cons, List.append_assoc] at h
    have hhead := (h.frees hfrees).congr (List.perm_append_comm_assoc _ _ _)
    have hrest := ih hhead hsessions fun i s hs => hf (i + 1) s hs
    rw [pass_cons, ← List.append_assoc]
    generalize f 0 s = result at hmoves hrest
    cases hmoves with
    | stays | goes => exact hrest.congr (perm_heldBy_cons _).symm
    | ends s' hproceeds hsocket =>
      rw [hsocket] at hrest
      exact hrest

lemma follows_pass (hsessions : ∀ s ∈ sessions, s.HoldsSocket)
    (hf : ∀ i (s : NgSession), s.HoldsSocket → s.Moves sc (f i s)) :
    List.SublistForall₂ (Follows (NgSession.Next sc)) (pass f sessions).1 sessions := by
  induction sessions generalizing f with
  | nil => exact .nil
  | cons s sessions ih =>
    obtain ⟨hs, hsessions⟩ := List.forall_mem_cons.mp hsessions
    have hmoves := hf 0 s hs
    have hrest := ih hsessions fun i s hs => hf (i + 1) s hs
    rw [pass_cons]
    generalize f 0 s = result at hmoves
    cases hmoves with
    | stays => exact .cons (.inl rfl) hrest
    | goes s' h => exact .cons (.inr h) hrest
    | ends s' => exact .cons_right hrest

lemma holdsSocket_of_follows {sessions' : List NgSession}
    (h : List.SublistForall₂ (Follows (NgSession.Next sc)) sessions' sessions)
    (hsessions : ∀ s ∈ sessions, s.HoldsSocket) : ∀ s ∈ sessions', s.HoldsSocket := by
  intro s' hs'
  obtain ⟨s, hs, rfl | hnext⟩ := exists_of_sublistForall₂ h s' hs'
  · exact hsessions _ hs
  · exact hnext.holdsSocket (hsessions s hs)

lemma holding_clear (h : Holding (heldBy NgSession.socket sessions ++ rest) log) :
    Holding rest (log ++ sessions.flatMap fun s => s.socket.toList.map .closing) := by
  induction sessions generalizing log with
  | nil => simpa using h
  | cons s sessions ih =>
    rw [heldBy_cons, List.append_assoc] at h
    rw [List.flatMap_cons, ← List.append_assoc]
    apply ih
    cases hsocket : s.socket with
    | none => simpa [hsocket] using h
    | some file =>
      rw [hsocket] at h
      exact h.closing

end

/-- What an event makes of the proxy. -/
structure Evolves (sc : Bool) (p p' : Proxy) : Prop where
  sound : p'.Sound
  changes : ReflTransGen (Changes (NgSession.Next sc) NgSession.Fresh) p.sessions p'.sessions

section

variable {i : ℕ} {f : NgSession → Option NgSession}

lemma evolves_of_follows (hp : p.Sound)
    (hfollows : List.SublistForall₂ (Follows (NgSession.Next sc)) p'.sessions p.sessions)
    (hfiles : Holding (heldBy NgSession.socket p'.sessions ++ p'.leaked) p'.files)
    (hcount : 0 ≤ p'.count) : Evolves sc p p' :=
  ⟨⟨holdsSocket_of_follows hfollows hp.sessions, hfiles, hcount⟩, .single (.go hfollows)⟩

lemma evolves_through {f : ℕ → NgSession → NgSession × Bool} (hp : p.Sound)
    (hf : ∀ i (s : NgSession), s.HoldsSocket → s.Moves sc (f i s)) :
    Evolves sc p (p.through f) :=
  evolves_of_follows hp (follows_pass hp.sessions hf) (holding_pass hp.files hp.sessions hf)
    hp.count

lemma exists_of_update (h : p.update i f = some p') :
    ∃ s s', p.sessions[i]? = some s ∧ f s = some s' ∧
      p' = { p with sessions := p.sessions.set i s', files := p.files ++ s.closedUntil s' } := by
  obtain ⟨s, hs, h⟩ := Option.bind_eq_some_iff.mp h
  obtain ⟨s', hs', h⟩ := Option.bind_eq_some_iff.mp h
  exact ⟨s, s', hs, hs', (Option.some.inj h).symm⟩

section

variable (hp : p.Sound)
  (hf : ∀ s s' : NgSession, p.sessions[i]? = some s → s.HoldsSocket → f s = some s' →
    s.Moves sc (s', false))
  (h : p.update i f = some p')

include hp hf h

lemma follows_update :
    List.SublistForall₂ (Follows (NgSession.Next sc)) p'.sessions p.sessions := by
  obtain ⟨s, s', hs, hs', rfl⟩ := exists_of_update h
  have hmoves := hf s s' hs (hp.sessions s (List.mem_of_getElem? hs)) hs'
  refine sublistForall₂_set hs ?_
  cases hmoves with
  | stays => exact .inl rfl
  | goes _ h => exact .inr h

lemma evolves_update : Evolves sc p p' := by
  have hfollows := follows_update hp hf h
  obtain ⟨s, s', hs, hs', rfl⟩ := exists_of_update h
  have hmoves := hf s s' hs (hp.sessions s (List.mem_of_getElem? hs)) hs'
  exact evolves_of_follows hp hfollows (hp.files.set hs hmoves.proceeds.frees) hp.count

end

variable {opened : Opened} {new : ℕ → NgSession}

lemma evolves_register (hp : p.Sound)
    (hfile : ∀ file, opened = .leaked file ∨ opened = .opened file → file ∉ openFiles p.files)
    (hsocket : ∀ file, (new file).socket = some file) (hholds : ∀ file, (new file).HoldsSocket)
    (hfresh : ∀ file, opened = .opened file → (new file).Fresh p.sessions) :
    Evolves sc p (p.register opened new) := by
  cases opened with
  | failed => exact ⟨hp, .refl⟩
  | leaked file =>
    exact ⟨⟨hp.sessions, (hp.files.opening (hfile file (.inl rfl))).congr List.perm_middle.symm,
      hp.count⟩, .refl⟩
  | opened file =>
    refine ⟨⟨List.forall_mem_cons.mpr ⟨hholds file, hp.sessions⟩, ?_, hp.count⟩,
      .single (.enter _ (hfresh file rfl))⟩
    have hfiles := hp.files.opening (hfile file (.inr rfl))
    simpa [register, hsocket] using hfiles

lemma Evolves.trans {p'' : Proxy} (h : Evolves sc p p') (h' : p'.Sound → Evolves sc p' p'') :
    Evolves sc p p'' :=
  ⟨(h' h.sound).sound, h.changes.trans (h' h.sound).changes⟩

lemma flow_of_findSession {flow : Flow} {s : NgSession} (h : p.findSession flow = some i)
    (hs : p.sessions[i]? = some s) : s.flow = flow := by
  obtain ⟨hlt, hfound, -⟩ := List.findIdx?_eq_some_iff_getElem.mp h
  obtain ⟨_, rfl⟩ := List.getElem?_eq_some_iff.mp hs
  simp only [Bool.and_eq_true, decide_eq_true_eq] at hfound
  exact hfound.2

lemma ne_of_findSession {flow : Flow} (h : p.findSession flow = none) :
    ∀ s ∈ p.sessions, s.found = true → s.flow ≠ flow := by
  intro s hs hfound hflow
  have hnot := List.findIdx?_eq_none_iff.mp h s hs
  simp [hfound, hflow] at hnot

end

section

variable {d : Datagram} {beyond : ℕ → Byte} {a : PacketAnswers} {o : OpenAnswers}

lemma evolves_found {i : ℕ} (hp : p.Sound) (hd : d.Sized) (hfind : p.findSession d.flow = some i)
    (h : p.update i (NgSession.handle sc d beyond a) = some p') : Evolves sc p p' :=
  evolves_update hp (fun _ _ hs hholds =>
    NgSession.moves_handle hholds (flow_of_findSession hfind hs) hd) h

/-- A session begins if it handles the packet that has opened it. -/
lemma evolves_registerAndHandle {opened : Opened} {new : ℕ → NgSession} (hp : p.Sound)
    (hfile : ∀ file, opened = .leaked file ∨ opened = .opened file → file ∉ openFiles p.files)
    (hsocket : ∀ file, (new file).socket = some file) (hholds : ∀ file, (new file).HoldsSocket)
    (hbegins : ∀ file s, (new file).handle sc d beyond a = some s → (new file).Begins)
    (hflow : ∀ file, (new file).flow = d.flow)
    (hd : d.Sized) (hfind : p.findSession d.flow = none)
    (h : p.registerAndHandle opened new (NgSession.handle sc d beyond a) = some p') :
    Evolves sc p (p.register opened new) ∧ Evolves sc p p' := by
  cases opened with
  | failed | leaked =>
    cases h
    exact and_self_iff.mpr (evolves_register hp hfile hsocket hholds
      fun file hopened => Opened.noConfusion hopened)
  | opened file =>
    obtain ⟨s, s', hs, hs', -⟩ := exists_of_update h
    cases hs
    have hregister : Evolves sc p (p.register (.opened file) new) := by
      refine evolves_register hp hfile hsocket hholds fun other hopened => ?_
      cases hopened
      exact ⟨hbegins file s' hs', hflow file ▸ ne_of_findSession hfind⟩
    refine ⟨hregister, hregister.trans fun hsound => evolves_update hsound ?_ h⟩
    intro s s' hs hold hs'
    cases hs
    exact NgSession.moves_handle hold (hflow file) hd hs'

lemma evolves_handleIcmp {version : Version} {saddr daddr : Addr} {protocol : Byte}
    {plen : BitVec 16} {message : List Byte} (hp : p.Sound)
    (hd : (Datagram.icmp version saddr daddr protocol plen message).Sized)
    (hfile : ∀ file, o.opened = .leaked file ∨ o.opened = .opened file → file ∉ openFiles p.files)
    (h : p.handleIcmp args version saddr daddr protocol plen message a o = some p') :
    Evolves args.signedChar p p' := by
  rw [handleIcmp] at h
  split_ifs at h
  · cases h
    exact ⟨hp, .refl⟩
  · cases hfind : p.findSession (Datagram.icmp version saddr daddr protocol plen message).flow with
    | some i =>
      simp only [hfind] at h
      exact evolves_found hp hd hfind h
    | none =>
      simp only [hfind] at h
      refine (evolves_registerAndHandle hp hfile (fun _ => rfl)
        (fun file => by simp [NgSession.HoldsSocket, Icmp.new]) (fun file s hs => ?_)
        (fun _ => rfl) hd hfind h).2
      have hshort := (Option.ite_none_left_eq_some.mp hs).1
      exact .icmp version saddr daddr message a.now file
        ((hd _ _ _ _ _ _ rfl).resolve_right hshort)

lemma evolves_handleUdp {packet : UdpPacket} (hp : p.Sound)
    (hfile : ∀ file, o.opened = .leaked file ∨ o.opened = .opened file → file ∉ openFiles p.files)
    (h : p.handleUdp args packet beyond a o = some p') : Evolves args.signedChar p p' := by
  have hd : (Datagram.udp packet).Sized := fun _ _ _ _ _ _ heq => Datagram.noConfusion heq
  rw [handleUdp] at h
  cases hfind : p.findSession packet.flow with
  | some i =>
    simp only [hfind] at h
    exact evolves_found hp hd hfind h
  | none =>
    simp only [hfind] at h
    exact (evolves_registerAndHandle hp hfile (fun _ => rfl)
      (fun file => by simp [NgSession.HoldsSocket, Udp.HoldsSocket, Udp.new])
      (fun file _ _ => .udp packet a.now file) (fun _ => rfl) hd hfind h).2

lemma evolves_handleTcp {packet : Incoming} {options : Option (BitVec 16 × Byte)} (hp : p.Sound)
    (hfile : ∀ file, o.opened = .leaked file ∨ o.opened = .opened file → file ∉ openFiles p.files)
    (h : p.handleTcp args packet options a o = some p') : Evolves args.signedChar p p' := by
  have hd : (Datagram.tcp packet options).Sized := fun _ _ _ _ _ _ heq => Datagram.noConfusion heq
  rw [handleTcp] at h
  cases hfind : p.findSession packet.flow with
  | some i =>
    simp only [hfind] at h
    exact evolves_found (d := .tcp packet options) hp hd hfind h
  | none =>
    simp only [hfind] at h
    split_ifs at h with hurg hsyn
    · cases h
      exact ⟨hp, .refl⟩
    · obtain ⟨⟨mss, ws⟩, -, rfl⟩ := Option.map_eq_some_iff.mp h
      exact evolves_register hp hfile (fun _ => rfl)
        (fun file => by simp [NgSession.HoldsSocket, Conn.HoldsSocket, Conn.new])
        fun file _ => ⟨.tcp packet mss ws o.rand a.now file o.buffer hsyn, ne_of_findSession hfind⟩
    · cases h
      exact ⟨⟨hp.sessions, hp.files, hp.count⟩, .refl⟩

theorem evolves_step {e : ProxyEvent} (hp : p.Sound) (hguard : p.Admits e)
    (h : p.step args e = some p') : Evolves args.signedChar p p' := by
  cases e with
  | packet pkt beyond a o =>
    obtain ⟨hlen, hfile⟩ := hguard
    obtain ⟨found, hread, h⟩ := Option.bind_eq_some_iff.mp h
    cases found with
    | none =>
      cases h
      exact ⟨hp, .refl⟩
    | some d =>
      have hd := sized_of_readPacket hlen hread
      dsimp only at h
      split_ifs at h
      · cases h
        exact ⟨hp, .refl⟩
      · cases d with
        | icmp => exact evolves_handleIcmp hp hd hfile h
        | udp => exact evolves_handleUdp hp hfile h
        | tcp => exact evolves_handleTcp hp hfile h
  | socket i ev a =>
    refine evolves_update hp (fun s s' hs hold hs' => ?_) h
    obtain ⟨hsocket, hrecv⟩ := hguard s hs
    exact NgSession.moves_checkSocket hold hsocket hrecv hs'
  | count answers =>
    cases h
    have hthrough : Evolves args.signedChar p
        (p.through fun i s => (s.monitor (answers i), false)) :=
      evolves_through hp fun _ _ _ => NgSession.moves_monitor
    exact ⟨⟨hthrough.sound.sessions, hthrough.sound.files, Int.natCast_nonneg _⟩, hthrough.changes⟩
  | check answers =>
    cases h
    exact evolves_through hp fun _ _ hs => NgSession.moves_checkSession hs
  | allowed writeOk =>
    cases h
    exact evolves_through hp fun _ _ hs => NgSession.moves_terminate hs
  | clear =>
    cases h
    exact evolves_of_follows hp .nil (holding_clear hp.files) hp.count

end

end Proxy

/-! ### Runs -/

/-- A session that has come to be by its own events. Its packets are those of its flow, which for a
session of UDP changes with the answer to a DHCP request. -/
inductive NgSession.Lives (signedChar : Bool) : NgSession → Prop
  | icmp (version : Version) (saddr daddr : Addr) (message : List Byte) (now : ℤ) (socket : ℕ)
      {s : Icmp} (hecho : IsEcho message)
      (h : Reaches Icmp.step (Icmp.Admits IsEcho) (.new version saddr daddr message now socket) s) :
      Lives signedChar (.icmp s)
  | udp (p : UdpPacket) (now : ℤ) (socket : ℕ) {u : Udp}
      (h : Reaches Udp.step (fun u => u.Admits (·.flow = u.flow)) (.new p now socket) u) :
      Lives signedChar (.udp u)
  | tcp (p : Incoming) (mss : BitVec 16) (ws : BitVec 8) (rand : BitVec 32) (now : ℤ) (socket : ℕ)
      (buffer : SendBuffer) {c : Conn} (hsyn : p.syn = true)
      (h : Reaches (Conn.step signedChar) (Conn.Admits (·.flow = p.flow))
        (.new p mss ws rand now socket buffer) c) :
      Lives signedChar (.tcp c)

lemma NgSession.Begins.lives {signedChar : Bool} {s : NgSession} (h : s.Begins) :
    s.Lives signedChar := by
  cases h with
  | icmp version saddr daddr message now socket h =>
    exact .icmp version saddr daddr message now socket h .refl
  | udp p now socket => exact .udp p now socket .refl
  | tcp p mss ws rand now socket buffer hsyn =>
    exact .tcp p mss ws rand now socket buffer hsyn .refl

lemma NgSession.Lives.next {signedChar : Bool} {s s' : NgSession} (h : s.Lives signedChar)
    (hnext : s.Next signedChar s') : s'.Lives signedChar := by
  cases h with
  | icmp version saddr daddr message now socket hecho h =>
    cases hnext with
    | icmp e hguard hstep =>
      exact .icmp version saddr daddr message now socket hecho (.tail h hguard hstep)
  | udp p now socket h =>
    cases hnext with
    | udp e hu hguard hstep => exact .udp p now socket (.tail h hguard hstep)
  | tcp p mss ws rand now socket buffer hsyn h =>
    cases hnext with
    | tcp e hguard hstep =>
      have hflow := keeps_of_reaches (I := fun c => c.flow = p.flow)
        (fun _ _ hdoes hI => hdoes.flow_eq.trans hI) h rfl
      rw [hflow] at hguard
      exact .tcp p mss ws rand now socket buffer hsyn (.tail h hguard hstep)

namespace Proxy

section

variable {args : Arguments} {p : Proxy}

lemma evolves_of_reaches (h : Reaches (step args) Admits {} p) : Evolves args.signedChar {} p := by
  have hempty : Evolves args.signedChar {} {} := ⟨⟨by simp, .nil, le_refl 0⟩, .refl⟩
  exact h.invariant hempty fun _ _ _ hev hguard hstep =>
    hev.trans fun hsound => evolves_step hsound hguard hstep

lemma found_of_follows {sc : Bool} {t t' : NgSession} (h : Follows (NgSession.Next sc) t' t)
    (hfound : t'.found = true) (ht' : t'.Unleased) :
    t.found = true ∧ t.Unleased ∧ t'.flow = t.flow := by
  rcases h with rfl | hnext
  · exact ⟨hfound, ht', rfl⟩
  · exact ⟨hnext.proceeds.found_of_found hfound, hnext.proceeds.flow_eq ht'⟩

/-! A run with one packet and its answer. -/

/-- A packet to a time server. -/
def timePacket : List Byte :=
  [0x45, 0, 0, 30, 0, 0, 0, 0, 64, 17, 0, 0, 10, 0, 0, 1, 10, 0, 0, 2,
    0x9c, 0x40, 0, 123, 0, 10, 0, 0, 7, 7]

def timeQuery : UdpPacket where
  version := .v4
  saddr := #v[10, 0, 0, 1, 0, 0, 0, 0, 0, 0, 0, 0, 0, 0, 0, 0]
  daddr := #v[10, 0, 0, 2, 0, 0, 0, 0, 0, 0, 0, 0, 0, 0, 0, 0]
  source := 40000
  dest := 123
  data := [7, 7]

/-- The proxy with the session that it opens. -/
def asking : Proxy where
  sessions := [.udp ((Udp.new timeQuery 0 7).forward timeQuery 0 .sent)]
  files := [.opening 7]

/-- The proxy with the answer. -/
def answering : Proxy where
  sessions := [.udp (((Udp.new timeQuery 0 7).forward timeQuery 0 .sent).recvData [1, 2, 3] true)]
  files := [.opening 7]

/-- The packet arrives, and a socket is opened for it. -/
def timeEvent : ProxyEvent :=
  .packet timePacket (fun _ => 0) ⟨0, .sent, true, true⟩ ⟨.opened 7, 0, ⟨0, 0⟩⟩

lemma admits_timeEvent : Admits {} timeEvent := ⟨by decide, fun _ _ => List.not_mem_nil⟩

lemma step_timeEvent {maxsessions : ℤ} (hmax : 0 < maxsessions) :
    step ⟨true, false, maxsessions⟩ {} timeEvent = some asking := by
  have hread : readPacket timePacket (fun _ => 0) = some (some (.udp timeQuery)) := rfl
  rw [timeEvent, step, handleIp, hread]
  exact if_neg fun hfull => not_le.mpr hmax hfull.1

lemma reaches_answering : Reaches (step ⟨true, false, 250⟩) Admits {} answering := by
  have hsocket : Admits asking
      (.socket 0 ⟨false, true, false⟩ { Conn.Answers.ready with now := 0 }) := by
    intro s hs
    cases hs
    refine ⟨Option.some_ne_none 7, fun bytes heq => ?_⟩
    cases heq
    decide
  exact .tail (.tail .refl admits_timeEvent (step_timeEvent (by decide))) hsocket rfl

/-- Only descriptors that are open are closed, and those that are open are those of the sessions and
those that an `open` function has left behind. No two sessions have the same. What has been left
behind is what stays open in the end. -/
theorem files_held (h : Reaches (step args) Admits {} p) :
    Each FileAction.Allowed p.files ∧
      (openFiles p.files).Perm (heldBy NgSession.socket p.sessions ++ p.leaked) ∧
      (heldBy NgSession.socket p.sessions ++ p.leaked).Nodup ∧
      (openFiles p.clear.files).Perm p.leaked := by
  have hfiles := (evolves_of_reaches h).sound.files
  exact ⟨hfiles.each, hfiles.perm, hfiles.nodup, (holding_clear hfiles).perm⟩

theorem files_held_answering : Each FileAction.Allowed answering.files ∧
    (openFiles answering.files).Perm
      (heldBy NgSession.socket answering.sessions ++ answering.leaked) ∧
    (heldBy NgSession.socket answering.sessions ++ answering.leaked).Nodup ∧
    (openFiles answering.clear.files).Perm answering.leaked :=
  files_held reaches_answering

/-- A packet is for one session at most, but for those that have answered a DHCP request. -/
theorem flows_differ (h : Reaches (step args) Admits {} p) :
    p.sessions.Pairwise fun s t => s.found = true → t.found = true → s.Unleased → t.Unleased →
      s.flow ≠ t.flow := by
  refine pairwise_of_changes (evolves_of_reaches h).changes ?_ ?_ .nil
  · exact fun _ t hfresh u hu _ hfound _ _ heq => hfresh.2 u hu hfound heq.symm
  · intro t t' u u' ht hu hne hfound hfound' hun hun'
    obtain ⟨htfound, htun, htflow⟩ := found_of_follows ht hfound hun
    obtain ⟨hufound, huun, huflow⟩ := found_of_follows hu hfound' hun'
    rw [htflow, huflow]
    exact hne htfound hufound htun huun

theorem flows_differ_answering : answering.sessions.Pairwise fun s t =>
    s.found = true → t.found = true → s.Unleased → t.Unleased → s.flow ≠ t.flow :=
  flows_differ reaches_answering

/-- The packet of a DHCP request. -/
def discoverPacket : List Byte :=
  [0x45, 0, 1, 12, 0, 0, 0, 0, 64, 17, 0, 0, 0, 0, 0, 0, 255, 255, 255, 255,
    0, 68, 0, 67, 0, 248, 0, 0] ++ Udp.discover.data

def discoverEvent (socket : ℕ) : ProxyEvent :=
  .packet discoverPacket (fun _ => 0) ⟨0, .sent, true, true⟩ ⟨.opened socket, 0, ⟨0, 0⟩⟩

/-- The session that a request opens, which has answered it. -/
def leasing (socket : ℕ) : NgSession :=
  let request := { Udp.discover with
    daddr := #v[255, 255, 255, 255, 0, 0, 0, 0, 0, 0, 0, 0, 0, 0, 0, 0] }
  .udp ((Udp.new request 0 socket).answer request.data true)

/-- The second request of a client finds no session, since the first one has another address now:
then there are two sessions with one flow. -/
lemma exists_equal_flows : ∃ p s t, Reaches (step ⟨true, false, 250⟩) Admits {} p ∧
    p.sessions = [s, t] ∧ s.found = true ∧ t.found = true ∧ s.flow = t.flow := by
  have hfirst : step ⟨true, false, 250⟩ {} (discoverEvent 7) =
      some { sessions := [leasing 7], files := [.opening 7] } := by
    decide +kernel
  have hsecond : step ⟨true, false, 250⟩ { sessions := [leasing 7], files := [.opening 7] }
      (discoverEvent 8) =
        some { sessions := [leasing 8, leasing 7], files := [.opening 7, .opening 8] } := by
    decide +kernel
  have hlength : discoverPacket.length ≤ MTU := by decide +kernel
  have hempty : Admits {} (discoverEvent 7) := ⟨hlength, fun _ _ => List.not_mem_nil⟩
  have hnew : Admits { sessions := [leasing 7], files := [.opening 7] } (discoverEvent 8) := by
    refine ⟨hlength, fun file hfile => ?_⟩
    rcases hfile with hfile | hfile <;> cases hfile
    decide
  exact ⟨_, leasing 8, leasing 7, .tail (.tail .refl hempty hfirst) hnew hsecond, rfl, rfl, rfl,
    by decide +kernel⟩

/-- Each session is as if it were alone. -/
theorem sessions_alone (h : Reaches (step args) Admits {} p) :
    ∀ s ∈ p.sessions, s.Lives args.signedChar :=
  all_of_changes (evolves_of_reaches h).changes (fun _ _ hfresh => hfresh.1.lives)
    (fun _ _ hlives => hlives.next) (by simp)

theorem sessions_alone_answering : (NgSession.udp
    (((Udp.new timeQuery 0 7).forward timeQuery 0 .sent).recvData [1, 2, 3] true)).Lives true :=
  sessions_alone reaches_answering _ List.mem_cons_self

end

end Proxy

end Violet.Tun2Http
