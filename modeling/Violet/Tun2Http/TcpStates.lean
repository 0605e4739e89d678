import Violet.Tun2Http.TcpRuns

/-!
# The states of a session

A session goes forward only: from the first `SYN` to the open connection, and by way of a `FIN` or a
reset to its end. There is one way back. As long as the proxy has not been asked for port 443, the
next packet of the client asks it and the session listens again, even after a reset.

The proxy is asked once, and nothing of what it sends reaches the client before.
-/

namespace Violet.Tun2Http

open Wire Transition Conn

variable {P : Incoming → Prop} {signedChar : Bool} {c c' : Conn}

/-! ### No way back -/

/-- How far a session is in a state. -/
def TcpState.phase : TcpState → ℕ
  | .LISTEN | .SYN_SENT => 0
  | .SYN_RECV => 1
  | .ESTABLISHED => 2
  | .CLOSE_WAIT => 3
  | .FIN_WAIT1 | .FIN_WAIT2 | .TIME_WAIT | .LAST_ACK => 4
  | .CLOSING | .CLOSE => 5

lemma TcpState.phase_le (s : TcpState) : s.phase ≤ 5 := by cases s <;> decide

/-- The proxy has been asked, if the port needs it. -/
def Conn.Asked (c : Conn) : Prop := c.dest = 443 → c.connectSent ≠ .NOT_SENT

lemma Does.asked (h : Does P c c') (hc : c.Asked) : c'.Asked := by
  cases h with
  | quiet | named | window | notice | shut | establish | ackAll | ackPart | finWaits | turn |
    lastTurn | sendFin | close | closed | discard => exact hc
  | connected => exact fun _ => by simp
  | refuse | turnAway => rwa [writeRst_eq]
  | synAck => rwa [writeSynAck, writeOrClose_eq]
  | connect => exact fun _ => by simp
  | queue => rwa [queueTcp_eq]
  | fin | lastFin => rwa [writeAck, writeOrClose_eq]
  | data => rwa [writeData, writeOrClose_eq]

lemma Does.phase_le (h : Does P c c') (hc : c.Asked) : c.state.phase ≤ c'.state.phase := by
  cases h with
  | quiet | named | window | notice | ackAll | ackPart | turn | lastTurn | close | discard =>
    exact le_rfl
  | shut => exact c.state.phase_le
  | refuse ok hstate | turnAway reply ok hstate => simp [hstate, TcpState.phase]
  | synAck ok hstate => simp [hstate, TcpState.phase]
  | connect hdest hsent => exact absurd hsent (hc hdest)
  | connected hstate => simp [hstate, TcpState.phase]
  | queue => rw [queueTcp_eq]
  | establish hstate | finWaits hstate => simp [hstate, TcpState.phase]
  | fin ok hstate | lastFin ok hstate => cases ok <;> simp [hstate, TcpState.phase]
  | sendFin socket hstate => rcases hstate with hstate | hstate <;> simp [hstate, TcpState.phase]
  | closed hstate => simp [hstate, TcpState.phase]
  | data bytes ok =>
    rw [writeData, writeOrClose_eq]
    cases ok with
    | true => exact le_rfl
    | false => exact c.state.phase_le

/-- A session that is closed for good. -/
structure Conn.Closed (c : Conn) : Prop where
  state_eq : c.state = .CLOSE
  socket_eq : c.socket = none

lemma Does.stays_closed (h : Does P c c') (hasked : c.Asked) (hc : c.Closed) : c'.Closed := by
  obtain ⟨hclose, hnone⟩ := hc
  cases h with
  | quiet | named | window | notice | ackAll | ackPart => exact ⟨hclose, hnone⟩
  | shut h => exact absurd hnone (h hclose)
  | connect hdest hsent => exact absurd hsent (hasked hdest)
  | turn s rest sent action h | lastTurn s sent action h => exact absurd hnone h.socket_ne
  | queue =>
    rw [queueTcp_eq]
    exact ⟨hclose, hnone⟩
  | refuse ok hstate | turnAway reply ok hstate | synAck ok hstate | discard bytes hstate
  | connected hstate | establish hstate | fin ok hstate | finWaits hstate | lastFin ok hstate
  | close socket hstate | closed hstate =>
    rw [hstate] at hclose
    cases hclose
  | sendFin socket hstate | data bytes ok hstate => simp [hclose] at hstate

/-- A session never goes back, once the proxy has been asked if the port needs it. When it is
closed, it stays so. -/
theorem Conn.phase_le_of_reaches (hasked : c.Asked)
    (h : Reaches (step signedChar) (Admits P) c c') :
    c.state.phase ≤ c'.state.phase ∧ (c.Closed → c'.Closed) := by
  have hkeeps := keeps_of_reaches
    (I := fun c' => c'.Asked ∧ c.state.phase ≤ c'.state.phase ∧ (c.Closed → c'.Closed))
    (fun _ _ hdoes hI => ⟨hdoes.asked hI.1, hI.2.1.trans (hdoes.phase_le hI.1),
      fun hc => hdoes.stays_closed hI.1 (hI.2.2 hc)⟩) h ⟨hasked, le_rfl, id⟩
  exact hkeeps.2

theorem Conn.phase_le_served : (opening 8080).state.phase ≤ served.state.phase ∧
    ((opening 8080).Closed → served.Closed) :=
  phase_le_of_reaches (fun h => absurd h (by decide))
    (reaches_served (P := fun _ => True) trivial)

/-! ### The proxy is asked first -/

/-- The proxy is asked once, with a request that fits the buffer of `handle_tcp`, and before
anything is received for the client. -/
def Action.AsksFirst (before : List Action) : Action → Prop
  | .connect request => (∀ r, .connect r ∉ before) ∧ request.length < 512
  | .recv _ => ∃ r, .connect r ∈ before
  | .write _ _ | .forward _ | .lose _ | .discard _ | .close _ => True

lemma length_connectRequest (hostname : List Byte) :
    (connectRequest hostname).length = hostname.length + 25 := by
  have hhead : (ascii "CONNECT ").length = 8 := by decide
  have htail : (ascii ":443 HTTP/1.0\r\n\r\n").length = 17 := by decide
  rw [connectRequest, List.length_append, List.length_append, hhead, htail]
  omega

/-- The connection to port 443 does not open before the proxy has answered. -/
def Conn.Early (c : Conn) : Prop :=
  c.dest = 443 → c.connectSent ≠ .ESTABLISHED → c.state.phase ≤ 1 ∨ c.state.phase = 5

lemma Conn.Early.established (hc : c.Early) (hdest : c.dest = 443) (h1 : 1 < c.state.phase)
    (h5 : c.state.phase ≠ 5) : c.connectSent = .ESTABLISHED := by
  by_contra hne
  rcases hc hdest hne with hle | heq
  · exact absurd hle (by omega)
  · exact h5 heq

lemma Conn.Early.established_of_open (hc : c.Early) (hdest : c.dest = 443)
    (hstate : c.state = .ESTABLISHED ∨ c.state = .CLOSE_WAIT) : c.connectSent = .ESTABLISHED := by
  rcases hstate with hstate | hstate <;>
    exact hc.established hdest (by simp [hstate, TcpState.phase]) (by simp [hstate, TcpState.phase])

theorem Does.early (h : Does P c c') (hc : c.Early) : c'.Early := by
  cases h with
  | quiet | named | window | notice | ackAll | ackPart | turn | lastTurn | close | discard =>
    exact hc
  | shut | closed => exact fun _ _ => .inr rfl
  | refuse ok hstate | turnAway reply ok hstate =>
    exact fun _ _ => .inr (by simp [writeRst_eq, hstate, TcpState.phase])
  | synAck ok hstate =>
    cases ok with
    | true => exact fun _ _ => .inl le_rfl
    | false => exact fun _ _ => .inr rfl
  | connect hdest hsent hsocket => exact fun _ _ => .inl (Nat.zero_le 1)
  | connected hstate hsent => exact fun _ hne => absurd rfl hne
  | queue p hp h => rwa [queueTcp_eq]
  | establish hstate hconnected => exact fun hdest hne => absurd (hconnected hdest) hne
  | fin ok hstate hforward =>
    rw [writeAck, writeOrClose_eq]
    exact fun hdest hne => absurd (hc.established_of_open hdest (.inl hstate)) hne
  | finWaits hstate hforward =>
    exact fun hdest hne => absurd (hc.established_of_open hdest (.inl hstate)) hne
  | lastFin ok hstate =>
    rw [writeAck, writeOrClose_eq]
    exact fun hdest hne => absurd (hc.established hdest (by simp [hstate, TcpState.phase])
      (by simp [hstate, TcpState.phase])) hne
  | sendFin socket hstate hforward hsocket hwindow =>
    exact fun hdest hne => absurd (hc.established_of_open hdest hstate) hne
  | data bytes ok hstate hsocket hlen =>
    rw [writeData, writeOrClose_eq]
    exact fun hdest hne => absurd (hc.established_of_open hdest hstate) hne

/-- A session to port 443. -/
structure Conn.AsksFirst (c : Conn) : Prop where
  dest : c.dest = 443
  hostname : c.hostname.length ≤ FQDN_MAX
  each : Each Action.AsksFirst c.log
  asked : (∃ r, .connect r ∈ c.log) ↔ c.connectSent ≠ .NOT_SENT

namespace Conn.AsksFirst

lemma did {a : Action} (hc : c.AsksFirst) (ha : a.AsksFirst c.log) (hne : ∀ r, a ≠ .connect r)
    (hlog : c'.log = c.log ++ [a]) (hdest : c'.dest = c.dest) (hhost : c'.hostname = c.hostname)
    (hsent : c'.connectSent = c.connectSent) : c'.AsksFirst := by
  refine ⟨hdest.trans hc.dest, hhost ▸ hc.hostname, ?_, ?_⟩
  · rw [hlog]
    exact hc.each.concat ha
  · rw [hsent, ← hc.asked, hlog]
    simp [fun r => (hne r).symm]

lemma write {q : TcpPacket} {ok : Bool} (hc : c.AsksFirst) (hlog : c'.log = c.log ++ [.write q ok])
    (hdest : c'.dest = c.dest) (hhost : c'.hostname = c.hostname)
    (hsent : c'.connectSent = c.connectSent) : c'.AsksFirst :=
  hc.did (a := .write q ok) trivial (fun _ => Action.noConfusion) hlog hdest hhost hsent

lemma turn {s : Segment} {rest : List Segment} {sent : ℕ} {action : Action} (hc : c.AsksFirst)
    (h : c.IsTurn s rest sent action) : (c.turn s rest sent action).AsksFirst := by
  obtain ⟨data, -, ⟨-, rfl⟩ | ⟨n, -, rfl⟩⟩ := h.action_eq
  · exact hc.did (a := .lose data) trivial (fun _ => Action.noConfusion) rfl rfl rfl rfl
  · exact hc.did (a := .forward (data.take n)) trivial (fun _ => Action.noConfusion) rfl rfl rfl rfl

end Conn.AsksFirst

theorem Does.asksFirst (h : Does P c c') (hearly : c.Early) (hc : c.AsksFirst) : c'.AsksFirst := by
  cases h with
  | quiet | window | ackAll | ackPart | shut | closed | establish | finWaits =>
    exact ⟨hc.dest, hc.hostname, hc.each, hc.asked⟩
  | named hostname hlen => exact ⟨hc.dest, hlen, hc.each, hc.asked⟩
  | notice p ok h => exact hc.write rfl rfl rfl rfl
  | refuse ok hstate =>
    rw [writeRst_eq]
    exact hc.write rfl rfl rfl rfl
  | discard bytes =>
    exact hc.did (a := .discard bytes) trivial (fun _ => Action.noConfusion) rfl rfl rfl rfl
  | turnAway reply =>
    have hreply : (c.did (.discard reply)).AsksFirst :=
      hc.did (a := .discard reply) trivial (fun _ => Action.noConfusion) rfl rfl rfl rfl
    rw [writeRst_eq]
    exact hreply.write rfl rfl rfl rfl
  | synAck ok hstate =>
    rw [writeSynAck, writeOrClose_eq]
    exact hc.write rfl rfl rfl rfl
  | connect hdest hsent hsocket =>
    have hno : ∀ r, .connect r ∉ c.log := by simpa [hsent] using hc.asked
    have hfit : (connectRequest c.hostname).length < 512 := by
      have := hc.hostname
      rw [length_connectRequest]
      simp only [FQDN_MAX] at this
      omega
    refine ⟨hc.dest, hc.hostname, hc.each.concat ⟨hno, hfit⟩, ?_⟩
    simp
  | connected hstate hsent =>
    refine ⟨hc.dest, hc.hostname, hc.each, ?_⟩
    rw [hc.asked, hsent]
    simp
  | queue p hp h =>
    rw [queueTcp_eq]
    exact ⟨hc.dest, hc.hostname, hc.each, hc.asked⟩
  | fin ok hstate hforward | lastFin ok hstate =>
    rw [writeAck, writeOrClose_eq]
    exact hc.write rfl rfl rfl rfl
  | turn s rest sent action h => exact hc.turn h
  | lastTurn s sent action h hall hstate =>
    have hturn := hc.turn h
    exact ⟨hturn.dest, hturn.hostname, hturn.each, hturn.asked⟩
  | sendFin socket hstate hforward hsocket hwindow =>
    have hwrite : (c.writeFinAck true).AsksFirst := hc.write rfl rfl rfl rfl
    exact hwrite.did (a := .close socket) trivial (fun _ => Action.noConfusion) rfl rfl rfl rfl
  | close socket hstate hsocket =>
    exact hc.did (a := .close socket) trivial (fun _ => Action.noConfusion) rfl rfl rfl rfl
  | data bytes ok hstate hsocket hlen =>
    have hsent := hearly.established_of_open hc.dest hstate
    have hasked : ∃ r, .connect r ∈ c.log := hc.asked.mpr (by simp [hsent])
    have hrecv : (c.did (.recv bytes)).AsksFirst :=
      hc.did (a := .recv bytes) hasked (fun _ => Action.noConfusion) rfl rfl rfl rfl
    rw [writeData, writeOrClose_eq]
    exact hrecv.write rfl rfl rfl rfl

/-- To port 443 the proxy is asked at most once, with a request that fits its buffer. Before,
nothing is received for the client, and the connection does not open before the answer. -/
theorem Conn.asks_first {p : Incoming} {mss : BitVec 16} {ws : BitVec 8} {rand : BitVec 32}
    {now : ℤ} {socket : ℕ} {buffer : SendBuffer} (hport : p.dest = 443)
    (h : Reaches (step signedChar) (Admits P) (new p mss ws rand now socket buffer) c) :
    Each Action.AsksFirst c.log ∧
      (c.connectSent ≠ .ESTABLISHED → c.state ∈ [.LISTEN, .SYN_RECV, .CLOSING, .CLOSE]) := by
  have hnew : (new p mss ws rand now socket buffer).AsksFirst := by
    refine ⟨hport, Nat.zero_le _, .nil, ?_⟩
    simp [new, hport]
  obtain ⟨hearly, hc⟩ : c.Early ∧ c.AsksFirst :=
    keeps_of_reaches (I := fun c => c.Early ∧ c.AsksFirst)
      (fun _ _ hdoes hI => ⟨hdoes.early hI.1, hdoes.asksFirst hI.1 hI.2⟩) h
      ⟨fun _ _ => .inl (Nat.zero_le 1), hnew⟩
  have hholds : c.HoldsSocket :=
    keeps_of_reaches (fun _ _ => Does.holdsSocket) h (Option.some_ne_none socket)
  refine ⟨hc.each, fun hne => ?_⟩
  have hphase := hearly hc.dest hne
  cases hstate : c.state <;> simp_all [TcpState.phase, HoldsSocket]

theorem Conn.asks_first_request :
    let c := handleTcp true (opening 443) (.plain 443 101 501 false true) 2 true true
    c.log = [.connect (ascii "CONNECT 2.2.2.2:443 HTTP/1.0\r\n\r\n")] ∧
      Each Action.AsksFirst c.log ∧
      (c.connectSent ≠ .ESTABLISHED → c.state ∈ [.LISTEN, .SYN_RECV, .CLOSING, .CLOSE]) := by
  have hpacket : Admits (fun _ => True) (opening 443)
      (.packet (.plain 443 101 501 false true) 2 true true) :=
    ⟨trivial, rfl, fun _ => Option.some_ne_none 7⟩
  exact ⟨by decide +kernel, asks_first rfl (.tail .refl hpacket rfl)⟩

end Violet.Tun2Http
