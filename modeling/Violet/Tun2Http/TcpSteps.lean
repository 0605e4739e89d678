import Violet.Tun2Http.TcpSession
import Mathlib.Logic.Relation
import Mathlib.Tactic.Ring

/-!
# What happens to a session

Each function of the proxy takes a session through some of the steps of `Does`: the packets that it
writes and the data that it passes on, each with the change of the state that goes with it. What all
steps keep is kept by every function, and so in every run.
-/

namespace Violet.Tun2Http

open Wire Relation

namespace Conn

/-- The first segment is next, and its bytes go to the socket or are lost. -/
structure IsTurn (c : Conn) (s : Segment) (rest : List Segment) (sent : ℕ) (action : Action) :
    Prop where
  forward_eq : c.forward = s :: rest
  next : s.seq + BitVec.ofNat 32 s.sent = c.remoteSeq
  state_ne : c.state ≠ .LISTEN
  socket_ne : c.socket ≠ none
  action_eq : ∃ data, (c.dest ≠ 80 → data = s.data.drop s.sent) ∧
    (sent = s.len - s.sent ∧ action = .lose data ∨
      ∃ n, sent = min n (s.len - s.sent) ∧ action = .forward (data.take n))

/-- The session takes data of the packet into its queue. -/
def Queues (c : Conn) : Prop :=
  c.dest = 443 ∧ c.connectSent ≠ .ESTABLISHED ∨
    c.state ≠ .CLOSING ∧ c.state ≠ .CLOSE ∧ c.state ≠ .CLOSE_WAIT ∧ c.socket ≠ none

/-- A packet that takes no room in the sequence, if it is written, and opens nothing. -/
structure IsNotice (c : Conn) (p : TcpPacket) (ok : Bool) : Prop where
  seq_eq : p.seq = c.localSeq
  syn : p.syn = false
  reset : p.rst = true → p.ack = false
  empty : p.data = []
  fin : ok = true → p.fin = false

/-- The connection to the proxy is there, as far as the port needs one. -/
def Connected (c : Conn) : Prop := c.dest = 443 → c.connectSent = .ESTABLISHED

end Conn

open Conn

/-- One step of a session with a client that sends packets in `P`. -/
inductive Does (P : Incoming → Prop) : Conn → Conn → Prop
  | quiet (c : Conn) (time lastKeepAlive : ℤ) (events : Events) (sent received : BitVec 64)
      (recvWindow : BitVec 32) :
      Does P c { c with time, lastKeepAlive, events, sent, received, recvWindow }
  | named (c : Conn) (hostname : List Byte) (hlen : hostname.length ≤ FQDN_MAX) :
      Does P c { c with hostname := hostname }
  | window (c : Conn) (p : Incoming) (hp : P p) :
      Does P c { c with sendWindow := p.window.setWidth 32 <<< c.sendScale.toNat }
  | notice (c : Conn) (p : TcpPacket) (ok : Bool) (h : c.IsNotice p ok) :
      Does P c (c.did (.write p ok))
  | shut (c : Conn) (h : c.state = .CLOSE → c.socket ≠ none) :
      Does P c { c with state := .CLOSING }
  | refuse (c : Conn) (ok : Bool) (hstate : c.state = .LISTEN) :
      Does P c (c.writeRst ok)
  | turnAway (c : Conn) (reply : List Byte) (ok : Bool) (hstate : c.state = .LISTEN)
      (hsocket : c.socket ≠ none) : Does P c ((c.did (.discard reply)).writeRst ok)
  | synAck (c : Conn) (ok : Bool) (hstate : c.state = .LISTEN) :
      Does P c { ({ c with remoteSeq := c.remoteSeq + 1 } : Conn).writeSynAck ok with
        localSeq := if ok then c.localSeq + 1 else c.localSeq
        state := if ok then .SYN_RECV else .CLOSING }
  | connect (c : Conn) (hdest : c.dest = 443) (hsent : c.connectSent = .NOT_SENT)
      (hsocket : c.socket ≠ none) :
      Does P c { c.did (.connect (connectRequest c.hostname)) with
        connectSent := .SENT
        state := .LISTEN }
  | discard (c : Conn) (bytes : List Byte) (hstate : c.state = .LISTEN)
      (hsent : c.connectSent = .SENT) (hsocket : c.socket ≠ none) :
      Does P c (c.did (.discard bytes))
  | connected (c : Conn) (hstate : c.state = .LISTEN) (hsent : c.connectSent = .SENT) :
      Does P c { c with connectSent := .ESTABLISHED, state := .SYN_RECV }
  | queue (c : Conn) (p : Incoming) (hp : P p) (h : c.Queues) : Does P c (c.queueTcp p)
  | establish (c : Conn) (hstate : c.state = .SYN_RECV) (hconnected : c.Connected) :
      Does P c { c with acked := c.localSeq, state := .ESTABLISHED }
  | ackAll (c : Conn) : Does P c { c with acked := c.localSeq }
  | ackPart (c : Conn) (ack : BitVec 32) (hlocal : compareU32 ack c.localSeq < 0)
      (hacked : 0 < compareU32 ack c.acked) : Does P c { c with acked := ack }
  | fin (c : Conn) (ok : Bool) (hstate : c.state = .ESTABLISHED) (hforward : c.forward = []) :
      Does P c { ({ c with remoteSeq := c.remoteSeq + 1 } : Conn).writeAck ok with
        state := if ok then .CLOSE_WAIT else .CLOSING }
  | finWaits (c : Conn) (hstate : c.state = .ESTABLISHED) (hforward : c.forward ≠ []) :
      Does P c { c with state := .CLOSE_WAIT }
  | lastFin (c : Conn) (ok : Bool) (hstate : c.state = .FIN_WAIT1) :
      Does P c { ({ c with remoteSeq := c.remoteSeq + 1 } : Conn).writeAck ok with
        state := if ok then .CLOSE else .CLOSING }
  | turn (c : Conn) (s : Segment) (rest : List Segment) (sent : ℕ) (action : Action)
      (h : c.IsTurn s rest sent action) : Does P c (c.turn s rest sent action)
  | lastTurn (c : Conn) (s : Segment) (sent : ℕ) (action : Action)
      (h : c.IsTurn s [] sent action) (hall : s.len = s.sent + sent)
      (hstate : c.state = .CLOSE_WAIT) :
      Does P c { c.turn s [] sent action with
        remoteSeq := (c.turn s [] sent action).remoteSeq + 1 }
  | sendFin (c : Conn) (socket : ℕ) (hstate : c.state = .ESTABLISHED ∨ c.state = .CLOSE_WAIT)
      (hforward : c.forward = []) (hsocket : c.socket = some socket)
      (hwindow : 0 < getSendWindow c.toTcpSession) :
      Does P c { (c.writeFinAck true).did (.close socket) with
        localSeq := c.localSeq + 1
        state := if c.state = .ESTABLISHED then .FIN_WAIT1 else .LAST_ACK
        socket := none }
  | close (c : Conn) (socket : ℕ) (hstate : c.state = .CLOSING) (hsocket : c.socket = some socket) :
      Does P c { c.did (.close socket) with socket := none }
  | closed (c : Conn) (hstate : c.state = .CLOSING) (hsocket : c.socket = none) :
      Does P c { c with state := .CLOSE }
  | data (c : Conn) (bytes : List Byte) (ok : Bool)
      (hstate : c.state = .ESTABLISHED ∨ c.state = .CLOSE_WAIT) (hsocket : c.socket ≠ none)
      (hlen : bytes.length ≤ (getSendWindow c.toTcpSession).toNat) :
      Does P c { (c.did (.recv bytes)).writeData bytes ok with
        localSeq := if ok then c.localSeq + BitVec.ofNat 32 bytes.length else c.localSeq }

lemma Does.dest_eq {P : Incoming → Prop} {c c' : Conn} (h : Does P c c') : c'.dest = c.dest := by
  cases h with
  | refuse | turnAway => simp [writeRst_eq]
  | synAck | fin | lastFin | data => simp [writeSynAck, writeAck, writeData, writeOrClose_eq]
  | queue => simp [queueTcp_eq]
  | _ => rfl

/-- What a function does to a session. -/
abbrev Runs (P : Incoming → Prop) : Conn → Conn → Prop := ReflTransGen (Does P)

/-! ### The functions -/

section

variable {P : Incoming → Prop} {c c' : Conn} {p : Incoming} {ok : Bool}

lemma runs_notice {ack fin rst : Bool} (hreset : rst = true → ack = false)
    (hfin : ok = true → fin = false) : Runs P c (c.writeTcp [] false ack fin rst ok) :=
  .single (.notice c _ ok ⟨rfl, rfl, hreset, rfl, hfin⟩)

lemma runs_shut (h : c.state = .CLOSE → c.socket ≠ none) : Runs P c { c with state := .CLOSING } :=
  .single (.shut c h)

lemma runs_writeRst : Runs P c (c.writeRst ok) := by
  by_cases hlisten : c.state = .LISTEN
  · exact .single (.refuse c ok hlisten)
  · have hnotice : Runs P c (c.writeTcp [] false false false true ok) :=
      runs_notice (fun _ => rfl) (fun _ => rfl)
    by_cases hclose : c.state = .CLOSE
    · simpa [writeRst, writeTcp, did, hclose] using hnotice
    · have hshut := runs_shut (P := P) (c := c.writeTcp [] false false false true ok)
        fun hstate => absurd hstate hclose
      simpa [writeRst, writeTcp, did, hlisten, hclose] using hnotice.trans hshut

lemma runs_writeAck (h : c.state = .CLOSE → c.socket ≠ none) : Runs P c (c.writeAck ok) := by
  have hnotice : Runs P c (c.writeTcp [] false true false false ok) :=
    runs_notice (by simp) (fun _ => rfl)
  cases ok with
  | true => exact hnotice
  | false => exact hnotice.trans (runs_shut h)

lemma runs_connectProxy {name : List Byte} {sendOk : Bool} (hname : name.length ≤ FQDN_MAX)
    (hdest : c.dest = 443) (hsend : sendOk = true → c.socket ≠ none) :
    Runs P c (c.connectProxy name sendOk ok) := by
  unfold connectProxy
  extract_lets hostname cur
  have hlen : hostname.length ≤ FQDN_MAX := by
    simp only [hostname]
    split_ifs
    · exact hname
    · exact (length_inetNtoa_le c.daddr).trans (by decide)
  have hcur : Runs P c cur := by
    by_cases hne : hostname ≠ []
    · simpa only [cur, if_pos hne] using .single (.named c hostname hlen)
    · simpa only [cur, if_neg hne] using .refl
  have hsame : cur.dest = c.dest ∧ cur.socket = c.socket := by
    simp only [cur]
    split_ifs <;> exact ⟨rfl, rfl⟩
  split_ifs with hsent hok
  · exact hcur.trans (.single (.connect cur (hsame.1.trans hdest) hsent.1
      (hsame.2 ▸ hsend hok)))
  · exact hcur.trans runs_writeRst
  · exact hcur

lemma runs_handleFin : Runs P c (c.handleFin ok) := by
  rw [handleFin]
  split
  · next hstate =>
    by_cases hforward : c.forward = []
    · have := Does.fin (P := P) c ok hstate hforward
      rw [if_pos hforward]
      cases ok <;> exact .single this
    · rw [if_neg hforward]
      exact .single (.finWaits c hstate hforward)
  · next hstate =>
    have := Does.lastFin (P := P) c ok hstate
    cases ok <;> exact .single this
  · exact .refl

lemma runs_handleAck (hack : p.ackSeq = c.localSeq) (hconnected : c.Connected) :
    Runs P c (c.handleAck p) := by
  rw [handleAck, hack]
  dsimp only
  split
  · next hstate => exact .single (.establish c hstate hconnected)
  · next hstate =>
    refine .trans (.single (.ackAll c)) (runs_shut fun hclose => ?_)
    rw [hstate] at hclose
    cases hclose
  · exact .single (.ackAll c)

lemma runs_handleOtherAck : Runs P c (c.handleOtherAck p ok) := by
  rw [handleOtherAck]
  split_ifs with hkeep hearlier hrepeated
  · exact .refl
  · exact .refl
  · exact .single (.ackPart c p.ackSeq hearlier (not_le.mp hrepeated))
  · exact runs_writeRst

lemma runs_handleFlags (hconnected : c.Connected) (hclose : c.state ≠ .CLOSE) :
    Runs P c (c.handleFlags p ok) := by
  rw [handleFlags]
  split_ifs with hrst hall hsyn hfin hack
  · exact runs_shut fun hstate => absurd hstate hclose
  · exact .refl
  · exact runs_handleFin
  · exact runs_handleAck (hall.resolve_left (by simp [hack])) hconnected
  · exact .refl
  · exact runs_handleOtherAck

lemma runs_queueTcp (hp : P p) (h : c.Queues) : Runs P c (c.queueTcp p) := .single (.queue c p hp h)

lemma runs_handleOpen {now : ℤ} (hp : P p) (hconnected : c.Connected)
    (hclosing : c.state ≠ .CLOSING)
    (hclose : c.state ≠ .CLOSE) : Runs P c (c.handleOpen p now ok) := by
  unfold handleOpen
  extract_lets cur
  have hcur : Runs P c cur :=
    .trans (.single (.quiet c now c.lastKeepAlive c.events c.sent c.received c.recvWindow))
      (.single (.window _ p hp))
  split_ifs with hdata hsocket hwait
  · exact hcur.trans runs_writeRst
  · exact hcur.trans runs_writeRst
  · have hqueue : Runs P cur (cur.queueTcp p) :=
      runs_queueTcp hp (.inr ⟨hclosing, hclose, hwait, by simpa using hsocket⟩)
    have hconnected' : (cur.queueTcp p).Connected := by
      rw [queueTcp_eq]
      exact hconnected
    have hclose' : (cur.queueTcp p).state ≠ .CLOSE := by
      rw [queueTcp_eq]
      exact hclose
    exact hcur.trans (hqueue.trans (runs_handleFlags hconnected' hclose'))
  · exact hcur.trans (runs_handleFlags hconnected hclose)

theorem runs_handleTcp {signedChar : Bool} {now : ℤ} {sendOk : Bool} (hp : P p)
    (hdest : p.dest = c.dest) (hsend : sendOk = true → c.socket ≠ none) :
    Runs P c (handleTcp signedChar c p now sendOk ok) := by
  unfold handleTcp
  extract_lets name cur
  have hname : name.length ≤ FQDN_MAX := by
    obtain ⟨host, hhost, hlen, -⟩ := fitsHostname_parseTlsHeader signedChar p.data
    simpa only [name, hhost, Option.getD_some] using hlen
  have hcur : Runs P c cur ∧ cur.dest = c.dest := by
    by_cases h443 : p.dest = 443
    · simp only [cur, if_pos h443]
      refine ⟨runs_connectProxy hname (hdest ▸ h443) hsend, ?_⟩
      simp only [connectProxy, writeRst, writeTcp, did]
      split_ifs <;> rfl
    · simp only [cur, if_neg h443]
      exact ⟨.refl, trivial⟩
  obtain ⟨hcur, hdest'⟩ := hcur
  split_ifs with hurg hproxy hclosed
  · exact .refl
  · exact hcur.trans (runs_queueTcp hp (.inl ⟨hdest' ▸ hdest ▸ hproxy.1, hproxy.2⟩))
  · exact hcur.trans runs_writeRst
  · rw [not_or] at hclosed
    refine hcur.trans (runs_handleOpen hp (fun h443 => ?_) hclosed.1 hclosed.2)
    by_contra hne
    exact hproxy ⟨by rw [hdest, ← hdest', h443], hne⟩

/-! ### Events of the socket -/

variable {a : Answers} {ev : Events} {fwd fwd' : Bool}

/-- The last step of a run has forwarded the last of the data. -/
def EndsQueue (P : Incoming → Prop) (c c' : Conn) : Prop :=
  ∃ c₀ s sent action, Runs P c c₀ ∧ c₀.IsTurn s [] sent action ∧ s.len = s.sent + sent ∧
    c' = c₀.turn s [] sent action

/-- What the loop does, and what its last turn was if it has forwarded everything. -/
lemma runs_forwardLoop {queue : List Segment} {turn bufferSize : ℕ} (hstate : c.state ≠ .LISTEN)
    (hsocket : c.socket ≠ none)
    (h : forwardLoop a queue turn bufferSize fwd c = some (c', fwd')) :
    Runs P { c with forward := queue } c' ∧ (fwd' = fwd ∧ c' = { c with forward := queue } ∨
      fwd' = true ∧ (c'.forward = [] → EndsQueue P { c with forward := queue } c')) := by
  induction queue generalizing turn bufferSize fwd c with
  | nil =>
    cases h
    exact ⟨.refl, .inl ⟨rfl, rfl⟩⟩
  | cons s rest ih =>
    rw [forwardLoop] at h
    by_cases hnext : s.seq + BitVec.ofNat 32 s.sent = c.remoteSeq ∧ s.len - s.sent < bufferSize
    swap
    · rw [if_neg hnext] at h
      cases h
      exact ⟨.refl, .inl ⟨rfl, rfl⟩⟩
    rw [if_pos hnext] at h
    obtain ⟨data, hdata, h⟩ := Option.bind_eq_some_iff.mp h
    dsimp only at h
    generalize hsend : sendSegment (a.sends turn) (s.len - s.sent) data = result at h
    obtain ⟨sent, action⟩ := result
    have hturn : IsTurn { c with forward := s :: rest } s rest sent action := by
      refine ⟨rfl, hnext.1, hstate, hsocket, data, fun hne => ?_, ?_⟩
      · rw [toSend, if_neg hne] at hdata
        cases hdata
        rfl
      · cases hresult : a.sends turn with
        | failed =>
          rw [hresult] at hsend
          cases hsend
          exact .inl ⟨rfl, rfl⟩
        | accepted n =>
          rw [hresult] at hsend
          cases hsend
          exact .inr ⟨n, rfl, rfl⟩
    have hdoes : Does P { c with forward := s :: rest } (c.turn s rest sent action) :=
      .turn _ s rest sent action hturn
    by_cases hall : s.len = s.sent + sent
    · rw [if_pos hall] at h
      have hsame :
          { c.turn s rest sent action with forward := rest } = c.turn s rest sent action := by
        simp [Conn.turn, hall]
      have hrest := ih (c := c.turn s rest sent action) hstate hsocket h
      rw [hsame] at hrest
      refine ⟨.head hdoes hrest.1, .inr ?_⟩
      rcases hrest.2 with ⟨hfwd, rfl⟩ | ⟨hfwd, hlast⟩
      · refine ⟨hfwd, fun hnil => ?_⟩
        obtain rfl : rest = [] := by simpa [Conn.turn, hall] using hnil
        exact ⟨_, s, sent, action, .refl, hturn, hall, rfl⟩
      · refine ⟨hfwd, fun hnil => ?_⟩
        obtain ⟨c₀, s', sent', action', hruns, hlast⟩ := hlast hnil
        exact ⟨c₀, s', sent', action', .head hdoes hruns, hlast⟩
    · rw [if_neg hall] at h
      cases h
      exact ⟨.single hdoes, .inr ⟨rfl, fun hnil => by simp [Conn.turn, hall] at hnil⟩⟩

lemma runs_recvWindow {recvWindow : BitVec 32} : Runs P c { c with recvWindow := recvWindow } :=
  .single (.quiet c c.time c.lastKeepAlive c.events c.sent c.received recvWindow)

lemma runs_time {time : ℤ} : Runs P c { c with time := time } :=
  .single (.quiet c time c.lastKeepAlive c.events c.sent c.received c.recvWindow)

/-- An acknowledgement, and the time if it could be written. -/
lemma runs_writeAck_time {time : ℤ} (h : c.state = .CLOSE → c.socket ≠ none) :
    Runs P c (if ok then { c.writeAck ok with time := time } else c.writeAck ok) := by
  split_ifs
  · exact (runs_writeAck h).trans runs_time
  · exact runs_writeAck h

lemma runs_acknowledge (hruns : Runs P c c') (hsocket : c'.socket ≠ none)
    (hlast : fwd = true → c'.forward = [] → EndsQueue P c c') :
    Runs P c (c'.acknowledge fwd a) := by
  unfold acknowledge
  extract_lets window prev cur cur₂ cur₃
  have hcur : Runs P c cur := hruns.trans runs_recvWindow
  by_cases htell : fwd = true ∨ prev = 0 ∧ window > 0
  swap
  · rwa [if_neg htell]
  rw [if_pos htell]
  have hcur₂ : Runs P c cur₂ := by
    by_cases hconfirm : fwd = true ∧ cur.forward = [] ∧ cur.state = .CLOSE_WAIT
    swap
    · simpa only [cur₂, if_neg hconfirm] using hcur
    simp only [cur₂, if_pos hconfirm]
    obtain ⟨hfwd, hnil, hwait⟩ := hconfirm
    obtain ⟨c₀, s, sent, action, hruns₀, hturn, hall, rfl⟩ := hlast hfwd hnil
    -- the last turn and the remote FIN are one step, from the state with the new window
    have hwindow : Runs P c { c₀ with recvWindow := window } := hruns₀.trans runs_recvWindow
    exact hwindow.tail (.lastTurn _ s sent action
      ⟨hturn.forward_eq, hturn.next, hturn.state_ne, hturn.socket_ne, hturn.action_eq⟩ hall hwait)
  have hsocket₂ : cur₂.socket ≠ none := by
    simp only [cur₂]
    split_ifs
    all_goals exact hsocket
  exact hcur₂.trans (runs_writeAck_time fun _ => hsocket₂)

lemma runs_recvEof (hstate : c.state = .ESTABLISHED ∨ c.state = .CLOSE_WAIT)
    (hsocket : c.socket ≠ none) (hwindow : 0 < getSendWindow c.toTcpSession) :
    Runs P c (c.recvEof ok) := by
  obtain ⟨socket, hsocket⟩ := Option.ne_none_iff_exists'.mp hsocket
  have hshut : ∀ c₁ : Conn, Runs P c c₁ → c₁.state = .CLOSING → c₁.socket = some socket →
      Runs P c { c₁.did (.close socket) with socket := none } := fun c₁ hruns h₁ h₂ =>
    hruns.tail (.close c₁ socket h₁ h₂)
  unfold recvEof
  by_cases hforward : c.forward = []
  · cases ok with
    | true =>
      have hsend := Does.sendFin (P := P) c socket hstate hforward hsocket hwindow
      rcases hstate with hstate | hstate
      · simpa [hforward, writeFinAck, writeOrClose, writeTcp, did, hstate, hsocket] using
          ReflTransGen.single hsend
      · simpa [hforward, writeFinAck, writeOrClose, writeTcp, did, hstate, hsocket] using
          ReflTransGen.single hsend
    | false =>
      have hfail : Runs P c (c.writeFinAck false) :=
        (runs_notice (by simp) (by simp)).trans (runs_shut fun _ => by simp [writeTcp, hsocket])
      have := hshut _ hfail rfl hsocket
      simpa [hforward, writeFinAck, writeOrClose, writeTcp, did, hsocket] using this
  · have hstate' : c.state ≠ .CLOSE ∧ c.state ≠ .LISTEN := by
      rcases hstate with hstate | hstate <;> simp [hstate]
    have := hshut (c.writeRst ok) runs_writeRst (by simp [writeRst, writeTcp, did, hstate'])
      (by simp [writeRst, writeTcp, did, hstate', hsocket])
    simpa [hforward, writeRst, writeTcp, did, hsocket, hstate'] using this

lemma runs_recvData {bytes : List Byte} (hstate : c.state = .ESTABLISHED ∨ c.state = .CLOSE_WAIT)
    (hsocket : c.socket ≠ none)
    (hlen : bytes.length ≤ (getSendWindow c.toTcpSession).toNat) :
    Runs P c (c.recvData bytes ok) := by
  have hcount : Runs P c { c with received := c.received + BitVec.ofNat 64 bytes.length } :=
    .single (.quiet c c.time c.lastKeepAlive c.events c.sent
      (c.received + BitVec.ofNat 64 bytes.length) c.recvWindow)
  have hdata := Does.data (P := P)
    { c with received := c.received + BitVec.ofNat 64 bytes.length } bytes ok hstate
    hsocket hlen
  cases ok <;> exact hcount.tail hdata

lemma recvSize_le : c.recvSize.toNat ≤ (getSendWindow c.toTcpSession).toNat := by
  rw [recvSize]
  split_ifs with h
  · exact (BitVec.lt_def.mp h).le
  · exact le_rfl

lemma runs_readSocket (hsocket : c.socket ≠ none)
    (hrecv : ∀ bytes, a.received = .data bytes → bytes.length ≤ c.recvSize.toNat) :
    Runs P c (c.readSocket ev a) := by
  unfold readSocket
  split_ifs with hread
  swap
  · exact .refl
  obtain ⟨hstate, -, hwindow⟩ := hread
  extract_lets cur
  have hcur : Runs P c cur := runs_time
  cases hreceived : a.received with
  | retry => exact hcur
  | error => exact hcur.trans runs_writeRst
  | eof => exact hcur.trans (runs_recvEof hstate hsocket hwindow)
  | data bytes =>
    have hlen := (hrecv bytes hreceived).trans recvSize_le
    exact hcur.trans (runs_recvData hstate hsocket hlen)

/-- All of what is thrown away. -/
lemma runs_discard {given : List (List Byte)} (hstate : c.state = .LISTEN)
    (hsent : c.connectSent = .SENT) (hsocket : c.socket ≠ none) : Runs P c (c.discard given) := by
  induction given generalizing c with
  | nil => simpa [Conn.discard] using .refl
  | cons bytes given ih =>
    have hrest := ih (c := c.did (.discard bytes)) hstate hsent hsocket
    have heq : (c.did (.discard bytes)).discard given = c.discard (bytes :: given) := by
      simp [Conn.discard, did]
    exact .head (.discard c bytes hstate hsent hsocket) (heq ▸ hrest)

lemma runs_checkListen (hstate : c.state = .LISTEN) (hsocket : c.socket ≠ none) :
    Runs P c (c.checkListen ev a) := by
  unfold checkListen
  by_cases hinp : ev.inp
  · rw [if_pos hinp]
    cases hreply : a.reply.bytes? with
    | none => exact runs_writeRst
    | some reply =>
      dsimp only
      split_ifs with hsent
      · exact (runs_discard hstate hsent hsocket).tail (.connected _ hstate hsent)
      · exact .single (.turnAway c reply a.writeOk hstate hsocket)
  · rw [if_neg hinp]
    have hsyn := Does.synAck (P := P) c a.writeOk hstate
    cases hok : a.writeOk with
    | true =>
      rw [hok] at hsyn
      exact (ReflTransGen.single hsyn).trans runs_time
    | false =>
      rw [hok] at hsyn
      exact .single hsyn

/-- The fields that decide how much the socket is asked for. -/
structure SameWindow (c c' : Conn) : Prop where
  socket : c'.socket = c.socket
  mss : c'.mss = c.mss
  acked : c'.acked = c.acked
  localSeq : c'.localSeq = c.localSeq
  sendWindow : c'.sendWindow = c.sendWindow

lemma SameWindow.recvSize (h : SameWindow c c') : c'.recvSize = c.recvSize := by
  unfold Conn.recvSize getSendWindow
  rw [h.mss, h.acked, h.localSeq, h.sendWindow]

lemma sameWindow_forwardLoop {queue : List Segment} {turn bufferSize : ℕ}
    (h : forwardLoop a queue turn bufferSize fwd c = some (c', fwd')) : SameWindow c c' := by
  induction queue generalizing turn bufferSize fwd c with
  | nil =>
    cases h
    exact ⟨rfl, rfl, rfl, rfl, rfl⟩
  | cons s rest ih =>
    rw [forwardLoop] at h
    split_ifs at h with hnext
    · obtain ⟨data, -, h⟩ := Option.bind_eq_some_iff.mp h
      dsimp only at h
      split_ifs at h with hall
      · have hrest := ih h
        exact ⟨hrest.socket, hrest.mss, hrest.acked, hrest.localSeq, hrest.sendWindow⟩
      · cases h
        exact ⟨rfl, rfl, rfl, rfl, rfl⟩
    · cases h
      exact ⟨rfl, rfl, rfl, rfl, rfl⟩

lemma state_forwardLoop {queue : List Segment} {turn bufferSize : ℕ}
    (h : forwardLoop a queue turn bufferSize fwd c = some (c', fwd')) : c'.state = c.state := by
  induction queue generalizing turn bufferSize fwd c with
  | nil =>
    cases h
    rfl
  | cons s rest ih =>
    rw [forwardLoop] at h
    split_ifs at h with hnext
    · obtain ⟨data, -, h⟩ := Option.bind_eq_some_iff.mp h
      dsimp only at h
      split_ifs at h with hall
      · exact (ih h).trans rfl
      · cases h
        rfl
    · cases h
      rfl

lemma sameWindow_acknowledge (h : SameWindow c c') : SameWindow c (c'.acknowledge fwd a) := by
  obtain ⟨h₁, h₂, h₃, h₄, h₅⟩ := h
  simp only [acknowledge, writeAck, writeOrClose, writeTcp, did]
  split_ifs <;> exact ⟨h₁, h₂, h₃, h₄, h₅⟩

theorem runs_checkTcpSocket (hsocket : c.socket ≠ none)
    (hrecv : ∀ bytes, a.received = .data bytes → bytes.length ≤ c.recvSize.toNat)
    (h : c.checkTcpSocket ev a = some c') : Runs P c c' := by
  rw [checkTcpSocket] at h
  split_ifs at h with herr hlisten hout
  · cases h
    exact runs_time.trans runs_writeRst
  · cases h
    exact runs_checkListen hlisten hsocket
  · obtain ⟨⟨c₁, fwd⟩, hloop, h⟩ := Option.bind_eq_some_iff.mp h
    cases h
    have hsame₁ : SameWindow c c₁ := sameWindow_forwardLoop hloop
    have hsame : SameWindow c (c₁.acknowledge fwd a) := sameWindow_acknowledge hsame₁
    have hsame' : { c with forward := c.forward } = c := rfl
    obtain ⟨hruns, hlast⟩ := runs_forwardLoop (P := P) hlisten hsocket hloop
    rw [hsame'] at hruns hlast
    have hacknowledge : Runs P c (c₁.acknowledge fwd a) :=
      runs_acknowledge hruns (hsame₁.socket ▸ hsocket) fun hfwd hnil =>
        (hlast.resolve_left fun hno => absurd (hno.1.symm.trans hfwd) Bool.false_ne_true).2 hnil
    exact hacknowledge.trans (runs_readSocket (hsame.socket ▸ hsocket) (hsame.recvSize ▸ hrecv))
  · cases h
    have hsame : SameWindow c (c.acknowledge false a) :=
      sameWindow_acknowledge ⟨rfl, rfl, rfl, rfl, rfl⟩
    have hacknowledge : Runs P c (c.acknowledge false a) :=
      runs_acknowledge .refl hsocket fun hfwd => absurd hfwd Bool.false_ne_true
    exact hacknowledge.trans (runs_readSocket (hsame.socket ▸ hsocket) (hsame.recvSize ▸ hrecv))

/-! ### The timer -/

lemma runs_closeSocket {now : ℤ} : Runs P c (c.closeSocket now) := by
  unfold closeSocket
  split_ifs with hclosing
  swap
  · exact .refl
  cases hsocket : c.socket with
  | none => exact (ReflTransGen.single (.closed c hclosing hsocket)).trans runs_time
  | some socket =>
    have hclose : Runs P c { c.did (.close socket) with socket := none } :=
      .single (.close c socket hclosing hsocket)
    exact (hclose.tail (.closed _ hclosing rfl)).trans runs_time

theorem runs_checkTcpSession {now sessions maxsessions : ℤ} :
    Runs P c (c.checkTcpSession now sessions maxsessions ok).1 := by
  unfold checkTcpSession
  extract_lets timeout c₁ c₂ c₃
  have h₁ : Runs P c c₁ := by
    simp only [c₁]
    split_ifs with hidle
    · exact runs_shut fun hstate => absurd hstate hidle.2.1
    · exact runs_writeRst
    · exact .refl
  have h₂ : Runs P c c₂ := h₁.trans runs_closeSocket
  have hcount : Runs P c₂ { c₂ with sent := 0, received := 0 } :=
    .single (.quiet c₂ c₂.time c₂.lastKeepAlive c₂.events 0 0 c₂.recvWindow)
  simp only [c₃]
  split_ifs
  · exact h₂.trans hcount
  · exact h₂

theorem runs_monitorTcpSession {ms : ℤ} {buffer : SendBuffer} {ctlOk : Bool}
    (hsocket : c.socket ≠ none) :
    Runs P c (c.monitorTcpSession ms buffer ok ctlOk).1 := by
  unfold monitorTcpSession
  extract_lets open₁ full keepAlive forwards events recheck alive c₁
  have h₁ : Runs P c c₁ := by
    simp only [c₁, alive]
    split_ifs with hkeep
    swap
    · exact .refl
    have hquiet : Runs P c { c with lastKeepAlive := ms } :=
      .single (.quiet c c.time ms c.events c.sent c.received c.recvWindow)
    -- the packet is one of the session, but for its acknowledgement
    have hnotice : Runs P { c with lastKeepAlive := ms }
        (({ c with lastKeepAlive := ms } : Conn).did
          (.write (({ c with lastKeepAlive := ms, remoteSeq := c.remoteSeq - 1 } : Conn).packet []
            false true false false) ok)) :=
      .single (.notice _ _ ok ⟨rfl, rfl, by simp [packet], rfl, fun _ => rfl⟩)
    have hback : c.remoteSeq - 1 + 1 = c.remoteSeq := by ring
    cases ok with
    | true => simpa [writeAck, writeOrClose, writeTcp, did, hback] using hquiet.trans hnotice
    | false =>
      simpa [writeAck, writeOrClose, writeTcp, did, hback] using
        (hquiet.trans hnotice).trans (runs_shut fun _ => hsocket)
  have hsocket₁ : c₁.socket ≠ none := by
    simp only [c₁, alive]
    split_ifs
    · simpa [writeAck, writeOrClose_eq] using hsocket
    · exact hsocket
  have hevents : Runs P c₁ { c₁ with events := events } :=
    .single (.quiet c₁ c₁.time c₁.lastKeepAlive events c₁.sent c₁.received c₁.recvWindow)
  split_ifs
  · exact h₁.trans hevents
  · exact (h₁.trans hevents).trans (runs_shut fun _ => hsocket₁)
  · exact h₁

end

end Violet.Tun2Http
