import Violet.Tun2Http.TcpStates

/-!
# What the client receives

The packets of a session lie one behind the other in the sequence space, whether a packet could be
written or not. Behind the first number they carry the bytes that the socket has received, in their
order and without a gap, and the `FIN` comes behind all of them.

To port 443 the client does not get all that the socket gives: what comes with the reply to the
`CONNECT` request is thrown away with it, also if it is the beginning of the connection.
-/

namespace Violet.Tun2Http

open Wire Transition Conn

/-! ### What has been written -/

/-- The bytes of a packet that could be written. -/
def Action.payload : Action → List Byte
  | .write q ok => if ok then q.data else []
  | .connect _ | .forward _ | .lose _ | .recv _ | .discard _ | .close _ => []

def Action.received : Action → List Byte
  | .recv bytes => bytes
  | .write _ _ | .connect _ | .forward _ | .lose _ | .discard _ | .close _ => []

def Action.discarded : Action → List Byte
  | .discard bytes => bytes
  | .write _ _ | .connect _ | .forward _ | .lose _ | .recv _ | .close _ => []

/-- The bytes that `recv` gives, for the client or for nobody. -/
def Action.given : Action → List Byte
  | .recv bytes | .discard bytes => bytes
  | .write _ _ | .connect _ | .forward _ | .lose _ | .close _ => []

def Action.syns : Action → ℕ
  | .write q ok => if ok then q.syn.toNat else 0
  | .connect _ | .forward _ | .lose _ | .recv _ | .discard _ | .close _ => 0

def Action.fins : Action → ℕ
  | .write q ok => if ok then q.fin.toNat else 0
  | .connect _ | .forward _ | .lose _ | .recv _ | .discard _ | .close _ => 0

/-- The room that an action takes in the sequence space. -/
def Action.span (a : Action) : ℕ := a.payload.length + a.syns + a.fins

/-- What the client has got, if nothing is lost on its way. -/
def delivered (log : List Action) : List Byte := log.flatMap Action.payload

/-- What the socket has received for the client. -/
def obtained (log : List Action) : List Byte := log.flatMap Action.received

/-- What the socket has received for nobody. -/
def discarded (log : List Action) : List Byte := log.flatMap Action.discarded

/-- All that the socket has received. -/
def given (log : List Action) : List Byte := log.flatMap Action.given

def synCount (log : List Action) : ℕ := (log.map Action.syns).sum

def finCount (log : List Action) : ℕ := (log.map Action.fins).sum

def room (log : List Action) : ℕ := (log.map Action.span).sum

section

variable (log log' : List Action) (a : Action)

@[simp] lemma delivered_nil : delivered [] = [] := rfl

@[simp] lemma delivered_cons : delivered (a :: log) = a.payload ++ delivered log := by
  simp [delivered]

@[simp] lemma delivered_append : delivered (log ++ log') = delivered log ++ delivered log' := by
  simp [delivered]

@[simp] lemma obtained_nil : obtained [] = [] := rfl

@[simp] lemma obtained_cons : obtained (a :: log) = a.received ++ obtained log := by simp [obtained]

@[simp] lemma obtained_append : obtained (log ++ log') = obtained log ++ obtained log' := by
  simp [obtained]

@[simp] lemma discarded_nil : discarded [] = [] := rfl

@[simp] lemma discarded_cons : discarded (a :: log) = a.discarded ++ discarded log := by
  simp [discarded]

@[simp] lemma discarded_append : discarded (log ++ log') = discarded log ++ discarded log' := by
  simp [discarded]

@[simp] lemma given_nil : given [] = [] := rfl

@[simp] lemma given_cons : given (a :: log) = a.given ++ given log := by simp [given]

@[simp] lemma given_append : given (log ++ log') = given log ++ given log' := by simp [given]

@[simp] lemma synCount_nil : synCount [] = 0 := rfl

@[simp] lemma synCount_cons : synCount (a :: log) = a.syns + synCount log := by simp [synCount]

@[simp] lemma synCount_append : synCount (log ++ log') = synCount log + synCount log' := by
  simp [synCount]

@[simp] lemma finCount_nil : finCount [] = 0 := rfl

@[simp] lemma finCount_cons : finCount (a :: log) = a.fins + finCount log := by simp [finCount]

@[simp] lemma finCount_append : finCount (log ++ log') = finCount log + finCount log' := by
  simp [finCount]

@[simp] lemma room_nil : room [] = 0 := rfl

@[simp] lemma room_cons : room (a :: log) = a.span + room log := by simp [room]

@[simp] lemma room_append : room (log ++ log') = room log + room log' := by
  simp [room]

lemma room_eq : room log = (delivered log).length + synCount log + finCount log := by
  induction log with
  | nil => rfl
  | cons a log ih =>
    simp only [room_cons, delivered_cons, synCount_cons, finCount_cons, List.length_append, ih,
      Action.span]
    omega

end

/-! ### The packets of a session -/

variable {P : Incoming → Prop} {signedChar : Bool} {c c' : Conn} {start : BitVec 32}
  {port : BitVec 16}

/-- But for port 443, a session is opened by one `SYN`. -/
structure Conn.OpensOnce (c : Conn) : Prop where
  not_sent : c.dest ≠ 443 → c.connectSent ≠ .SENT
  synCount_eq : c.dest ≠ 443 → c.state.phase < 5 →
    synCount c.log = if c.state = .LISTEN then 0 else 1

lemma Conn.OpensOnce.did {a : Action} (hc : c.OpensOnce) (ha : a.syns = 0)
    (hlog : c'.log = c.log ++ [a]) (hdest : c'.dest = c.dest)
    (hsent : c'.connectSent = c.connectSent)
    (hphase : c'.state.phase < 5 → c.state.phase < 5 ∧ (c'.state = .LISTEN ↔ c.state = .LISTEN)) :
    c'.OpensOnce := by
  refine ⟨fun h => hsent ▸ hc.not_sent (hdest ▸ h), fun h hlt => ?_⟩
  obtain ⟨hlt', hiff⟩ := hphase hlt
  simp [hlog, ha, hc.synCount_eq (hdest ▸ h) hlt', hiff]

lemma Conn.IsTurn.no_packet {s : Segment} {rest : List Segment} {sent : ℕ} {action : Action}
    (h : c.IsTurn s rest sent action) :
    (∀ q ok, action ≠ .write q ok) ∧ action.received = [] ∧ action.syns = 0 := by
  obtain ⟨data, -, ⟨-, rfl⟩ | ⟨n, -, rfl⟩⟩ := h.action_eq <;>
    exact ⟨fun _ _ => Action.noConfusion, rfl, rfl⟩

lemma Conn.IsTurn.given_eq {s : Segment} {rest : List Segment} {sent : ℕ} {action : Action}
    (h : c.IsTurn s rest sent action) : action.given = [] := by
  obtain ⟨data, -, ⟨-, rfl⟩ | ⟨n, -, rfl⟩⟩ := h.action_eq <;> rfl

theorem Does.opensOnce (h : Does P c c') (hc : c.OpensOnce) : c'.OpensOnce := by
  cases h with
  | quiet | named | window | ackAll | ackPart => exact ⟨hc.not_sent, hc.synCount_eq⟩
  | shut | closed => exact ⟨hc.not_sent, fun _ hlt => absurd hlt (by simp [TcpState.phase])⟩
  | queue p hp h =>
    rw [queueTcp_eq]
    exact ⟨hc.not_sent, hc.synCount_eq⟩
  | notice q ok hq =>
    exact hc.did (a := .write q ok) (by simp [Action.syns, hq.syn]) rfl rfl rfl
      fun hlt => ⟨hlt, Iff.rfl⟩
  | refuse ok hstate | turnAway reply ok hstate =>
    rw [writeRst_eq]
    exact ⟨hc.not_sent, fun _ hlt => absurd hlt (by simp [hstate, TcpState.phase])⟩
  | discard bytes =>
    exact hc.did (a := .discard bytes) rfl rfl rfl rfl fun hlt => ⟨hlt, Iff.rfl⟩
  | synAck ok hstate =>
    have hcount (hdest : c.dest ≠ 443) : synCount c.log = 0 := by
      simpa [hstate, TcpState.phase] using hc.synCount_eq hdest
    rw [writeSynAck, writeOrClose_eq]
    refine ⟨hc.not_sent, fun hdest hlt => ?_⟩
    cases ok with
    | true => simp [hcount hdest, Action.syns, packet]
    | false => simp [TcpState.phase] at hlt
  | connect hdest hsent hsocket => exact ⟨fun h => absurd hdest h, fun h => absurd hdest h⟩
  | connected hstate hsent =>
    exact ⟨fun h => absurd hsent (hc.not_sent h), fun h => absurd hsent (hc.not_sent h)⟩
  | establish hstate hconnected | finWaits hstate hforward =>
    refine ⟨hc.not_sent, fun hdest _ => ?_⟩
    simpa [hstate, TcpState.phase] using hc.synCount_eq hdest
  | fin ok hstate hforward | lastFin ok hstate =>
    rw [writeAck, writeOrClose_eq]
    refine hc.did (a := .write _ ok) (by simp [Action.syns, packet]) rfl rfl rfl fun hlt => ?_
    cases ok <;> simp_all [TcpState.phase]
  | turn s rest sent action hturn =>
    exact hc.did hturn.no_packet.2.2 rfl rfl rfl fun hlt => ⟨hlt, Iff.rfl⟩
  | lastTurn s sent action hturn hall hstate =>
    exact hc.did hturn.no_packet.2.2 rfl rfl rfl fun hlt => ⟨hlt, Iff.rfl⟩
  | sendFin socket hstate hforward hsocket hwindow =>
    have hwrite : (c.writeFinAck true).OpensOnce :=
      hc.did (a := .write _ true) rfl rfl rfl rfl fun hlt => ⟨hlt, Iff.rfl⟩
    refine hwrite.did (a := .close socket) rfl rfl rfl rfl fun _ => ?_
    rcases hstate with hstate | hstate <;>
      simp [writeFinAck, writeOrClose_eq, hstate, TcpState.phase]
  | close socket hstate hsocket =>
    exact hc.did (a := .close socket) rfl rfl rfl rfl fun hlt => ⟨hlt, Iff.rfl⟩
  | data bytes ok hstate hsocket hlen =>
    have hrecv : (c.did (.recv bytes)).OpensOnce :=
      hc.did (a := .recv bytes) rfl rfl rfl rfl fun hlt => ⟨hlt, Iff.rfl⟩
    rw [writeData, writeOrClose_eq]
    refine hrecv.did (a := .write _ ok) (by simp [Action.syns, packet]) rfl rfl rfl fun hlt => ?_
    cases ok with
    | true => exact ⟨hlt, Iff.rfl⟩
    | false => simp [TcpState.phase] at hlt

/-- A packet has its place behind the earlier ones. Data follow what has been received before, and
nothing follows a `FIN`. -/
def Action.InPlace (start : BitVec 32) (port : BitVec 16) (before : List Action) (a : Action) :
    Prop :=
  ∀ q, a = .write q true →
    q.seq = start + BitVec.ofNat 32 (room before) ∧
      (q.data ≠ [] ∨ q.fin = true →
        obtained before = delivered before ++ q.data ∧ finCount before = 0 ∧
          (port ≠ 443 → synCount before = 1))

/-- The session has passed on what it has received, or has been closed for a packet that could not
be written. -/
structure Conn.Downloads (start : BitVec 32) (port : BitVec 16) (c : Conn) : Prop where
  dest : c.dest = port
  each : Each (Action.InPlace start port) c.log
  localSeq_eq : c.localSeq = start + BitVec.ofNat 32 (room c.log)
  delivered_prefix : delivered c.log <+: obtained c.log
  pending : delivered c.log ≠ obtained c.log → c.state.phase = 5 ∧ c.Asked
  fins : finCount c.log ≠ 0 → 4 ≤ c.state.phase ∧ c.Asked

lemma TcpState.phase_eq_of_le {s t : TcpState} (h : s.phase = 5) (hle : s.phase ≤ t.phase) :
    t.phase = 5 := by
  have := t.phase_le
  omega

namespace Conn.Downloads

/-- A step that changes nothing of it. -/
lemma quiet (hc : c.Downloads start port) (hdoes : Does P c c') (hlog : c'.log = c.log)
    (hlocal : c'.localSeq = c.localSeq) : c'.Downloads start port := by
  refine ⟨hdoes.dest_eq.trans hc.dest, hlog ▸ hc.each, by rw [hlocal, hlog, hc.localSeq_eq],
    hlog ▸ hc.delivered_prefix, ?_, ?_⟩
  · intro hne
    obtain ⟨hphase, hasked⟩ := hc.pending (hlog ▸ hne)
    exact ⟨TcpState.phase_eq_of_le hphase (hdoes.phase_le hasked), hdoes.asked hasked⟩
  · intro hne
    obtain ⟨hphase, hasked⟩ := hc.fins (hlog ▸ hne)
    exact ⟨hphase.trans (hdoes.phase_le hasked), hdoes.asked hasked⟩

/-- A step with an action that carries no data and no `FIN`. -/
lemma did {a : Action} (hc : c.Downloads start port) (hdoes : Does P c c')
    (ha : a.InPlace start port c.log) (hlog : c'.log = c.log ++ [a])
    (hlocal : c'.localSeq = c.localSeq + BitVec.ofNat 32 a.span)
    (hpayload : a.payload = []) (hreceived : a.received = []) (hfins : a.fins = 0) :
    c'.Downloads start port := by
  have hpayload' : delivered c'.log = delivered c.log := by simp [hlog, hpayload]
  have hreceived' : obtained c'.log = obtained c.log := by simp [hlog, hreceived]
  have hfins' : finCount c'.log = finCount c.log := by simp [hlog, hfins]
  refine ⟨hdoes.dest_eq.trans hc.dest, hlog ▸ hc.each.concat ha, ?_, ?_, ?_, ?_⟩
  · simp [hlocal, hc.localSeq_eq, hlog, BitVec.ofNat_add, BitVec.add_assoc]
  · rw [hpayload', hreceived']
    exact hc.delivered_prefix
  · intro hne
    obtain ⟨hphase, hasked⟩ := hc.pending (hpayload' ▸ hreceived' ▸ hne)
    exact ⟨TcpState.phase_eq_of_le hphase (hdoes.phase_le hasked), hdoes.asked hasked⟩
  · intro hne
    obtain ⟨hphase, hasked⟩ := hc.fins (hfins' ▸ hne)
    exact ⟨hphase.trans (hdoes.phase_le hasked), hdoes.asked hasked⟩

/-- In the open connection everything has been passed on. -/
lemma received_eq (hc : c.Downloads start port)
    (hstate : c.state = .ESTABLISHED ∨ c.state = .CLOSE_WAIT) :
    obtained c.log = delivered c.log ∧ finCount c.log = 0 := by
  have hphase : c.state.phase < 4 := by rcases hstate with hstate | hstate <;> simp [hstate,
    TcpState.phase]
  constructor
  · by_contra hne
    have := (hc.pending fun heq => hne heq.symm).1
    omega
  · by_contra hne
    have := (hc.fins hne).1
    omega

/-- A packet without data. -/
lemma write {q : TcpPacket} {ok : Bool} (hc : c.Downloads start port) (hdoes : Does P c c')
    (hseq : q.seq = c.localSeq) (hdata : q.data = []) (hfin : ok = true → q.fin = false)
    (hlog : c'.log = c.log ++ [.write q ok])
    (hlocal : c'.localSeq = c.localSeq + BitVec.ofNat 32 (if ok then q.syn.toNat else 0)) :
    c'.Downloads start port := by
  cases ok with
  | true =>
    have hfin := hfin rfl
    refine hc.did hdoes ?_ hlog ?_ hdata rfl (by simp [Action.fins, hfin])
    · rintro q' heq
      cases heq
      refine ⟨hseq.trans hc.localSeq_eq, fun h => ?_⟩
      simp [hdata, hfin] at h
    · simpa [Action.span, Action.payload, Action.syns, Action.fins, hdata, hfin] using hlocal
  | false =>
    refine hc.did hdoes ?_ hlog
      (by simpa [Action.span, Action.payload, Action.syns, Action.fins] using hlocal) rfl rfl rfl
    rintro q' heq
    cases heq

/-- An action that is no packet and receives nothing. -/
lemma other {a : Action} (hc : c.Downloads start port) (hdoes : Does P c c')
    (ha : ∀ q ok, a ≠ .write q ok) (hreceived : a.received = []) (hlog : c'.log = c.log ++ [a])
    (hlocal : c'.localSeq = c.localSeq) : c'.Downloads start port := by
  have hplace : a.InPlace start port c.log := fun q heq => absurd heq (ha q true)
  cases a with
  | write q ok => exact absurd rfl (ha q ok)
  | connect | forward | lose | recv | discard | close =>
    exact hc.did hdoes hplace hlog
      (by simpa [Action.span, Action.payload, Action.syns, Action.fins] using hlocal) rfl hreceived
      rfl

lemma discard (hc : c.Downloads start port) (bytes : List Byte) :
    (c.did (.discard bytes)).Downloads start port := by
  have hplace : (Action.discard bytes).InPlace start port c.log := fun _ => Action.noConfusion
  refine ⟨hc.dest, hc.each.concat hplace, ?_, ?_, ?_, ?_⟩
  · simpa [Action.span, Action.payload, Action.syns, Action.fins] using hc.localSeq_eq
  · simpa [Action.payload, Action.received] using hc.delivered_prefix
  · exact fun hne => hc.pending (by simpa [Action.payload, Action.received] using hne)
  · exact fun hne => hc.fins (by simpa [Action.fins] using hne)

/-- All has been passed on when the `FIN` is sent. -/
lemma sendFin (hc : c.Downloads start port) (socket : ℕ)
    (hstate : c.state = .ESTABLISHED ∨ c.state = .CLOSE_WAIT) (hasked : c.Asked)
    (hsyns : port ≠ 443 → synCount c.log = 1) :
    Conn.Downloads start port { (c.writeFinAck true).did (.close socket) with
      localSeq := c.localSeq + 1
      state := if c.state = .ESTABLISHED then .FIN_WAIT1 else .LAST_ACK
      socket := none } := by
  obtain ⟨heq, hfins⟩ := hc.received_eq hstate
  have hlog : (c.writeFinAck true).log =
      c.log ++ [.write (c.packet [] false true true false) true] := rfl
  have hplace : (Action.write (c.packet [] false true true false) true).InPlace start port
      c.log := by
    rintro q hq
    cases hq
    exact ⟨hc.localSeq_eq, fun _ =>
      ⟨by rw [heq]; exact (List.append_nil _).symm, hfins, hsyns⟩⟩
  have hclose : (Action.close socket).InPlace start port (c.writeFinAck true).log :=
    fun q hq => Action.noConfusion hq
  refine ⟨hc.dest, (hlog ▸ hc.each.concat hplace).concat hclose, ?_, ?_, ?_, ?_⟩
  · simp [hlog, hc.localSeq_eq, Action.span, Action.payload, Action.syns, Action.fins, packet,
      BitVec.ofNat_add, BitVec.add_assoc]
  · simp [hlog, heq, Action.payload, Action.received, packet]
  · intro hne
    simp [hlog, heq, Action.payload, Action.received, packet] at hne
  · refine fun _ => ⟨?_, hasked⟩
    rcases hstate with hstate | hstate <;> simp [hstate, TcpState.phase]

/-- What is received is passed on at once, or the session is closed. -/
lemma data (hc : c.Downloads start port) (bytes : List Byte) (ok : Bool)
    (hstate : c.state = .ESTABLISHED ∨ c.state = .CLOSE_WAIT) (hasked : c.Asked)
    (hsyns : port ≠ 443 → synCount c.log = 1) :
    Conn.Downloads start port { (c.did (.recv bytes)).writeData bytes ok with
      localSeq := if ok then c.localSeq + BitVec.ofNat 32 bytes.length else c.localSeq } := by
  obtain ⟨heq, hfins⟩ := hc.received_eq hstate
  rw [writeData, writeOrClose_eq]
  have hrecv : (Action.recv bytes).InPlace start port c.log := fun q hq => Action.noConfusion hq
  have hplace : (Action.write (c.packet bytes false true false false) ok).InPlace start port
      (c.log ++ [.recv bytes]) := by
    rintro q hq
    cases hq
    refine ⟨?_, fun _ => ⟨by simp [heq, Action.payload, Action.received, packet], ?_, ?_⟩⟩
    · simp [packet, hc.localSeq_eq, Action.span, Action.payload, Action.syns, Action.fins]
    · simp [hfins, Action.fins]
    · simpa [Action.syns] using hsyns
  refine ⟨hc.dest, (hc.each.concat hrecv).concat hplace, ?_, ?_, ?_, ?_⟩
  · cases ok <;> simp [hc.localSeq_eq, Action.span, Action.payload, Action.syns, Action.fins,
      packet, BitVec.ofNat_add, BitVec.add_assoc]
  · cases ok <;> simp [heq, Action.payload, Action.received, packet]
  · intro hne
    cases ok with
    | true => simp [heq, Action.payload, Action.received, packet] at hne
    | false => exact ⟨rfl, hasked⟩
  · intro hne
    cases ok <;> simp [hfins, Action.fins, packet] at hne

end Conn.Downloads

theorem Does.downloads (h : Does P c c') (hearly : c.Early) (honce : c.OpensOnce)
    (hc : c.Downloads start port) : c'.Downloads start port := by
  have hdoes := h
  have hsyns (hstate : c.state = .ESTABLISHED ∨ c.state = .CLOSE_WAIT) (hport : port ≠ 443) :
      synCount c.log = 1 := by
    have hcount := honce.synCount_eq (hc.dest ▸ hport)
    rcases hstate with hstate | hstate <;> simpa [hstate, TcpState.phase] using hcount
  have hasked (hstate : c.state = .ESTABLISHED ∨ c.state = .CLOSE_WAIT) : c.Asked := fun hdest => by
    simp [hearly.established_of_open hdest hstate]
  cases h with
  | quiet | named | window | shut | connected | establish | ackAll | ackPart | finWaits | closed =>
    exact hc.quiet hdoes rfl rfl
  | notice q ok hq =>
    refine hc.write hdoes hq.seq_eq hq.empty hq.fin rfl ?_
    simp [hq.syn]
  | refuse ok hstate =>
    rw [writeRst_eq] at hdoes ⊢
    exact hc.write hdoes rfl rfl (fun _ => rfl) rfl (by simp [packet])
  | synAck ok hstate =>
    rw [writeSynAck, writeOrClose_eq] at hdoes ⊢
    refine hc.write hdoes rfl rfl (fun _ => rfl) rfl ?_
    cases ok <;> simp [packet]
  | connect hdest hsent hsocket =>
    exact hc.other hdoes (fun _ _ => Action.noConfusion) rfl rfl rfl
  | discard bytes => exact hc.discard bytes
  | turnAway reply ok hstate hsocket =>
    have hrefuse := Does.refuse (P := P) (c.did (.discard reply)) ok hstate
    rw [writeRst_eq] at hrefuse ⊢
    exact (hc.discard reply).write hrefuse rfl rfl (fun _ => rfl) rfl (by simp [packet])
  | queue p hp hqueues =>
    rw [queueTcp_eq] at hdoes ⊢
    exact hc.quiet hdoes rfl rfl
  | fin ok hstate hforward | lastFin ok hstate =>
    rw [writeAck, writeOrClose_eq] at hdoes ⊢
    exact hc.write hdoes rfl rfl (fun _ => rfl) rfl (by simp [packet])
  | turn s rest sent action hturn =>
    exact hc.other hdoes hturn.no_packet.1 hturn.no_packet.2.1 rfl rfl
  | lastTurn s sent action hturn hall hstate =>
    exact hc.other hdoes hturn.no_packet.1 hturn.no_packet.2.1 rfl rfl
  | close socket hstate hsocket =>
    exact hc.other hdoes (fun _ _ => Action.noConfusion) rfl rfl rfl
  | sendFin socket hstate hforward hsocket hwindow =>
    exact hc.sendFin socket hstate (hasked hstate) (hsyns hstate)
  | data bytes ok hstate hsocket hlen =>
    exact hc.data bytes ok hstate (hasked hstate) (hsyns hstate)

/-! ### What is thrown away -/

/-- What is thrown away comes first, and belongs to the `CONNECT` request. -/
structure Conn.ReadsInOrder (c : Conn) : Prop where
  given_eq : given c.log = discarded c.log ++ obtained c.log
  obtained : obtained c.log ≠ [] → 2 ≤ c.state.phase ∧ c.Connected
  discarded : c.dest ≠ 443 → discarded c.log ≠ [] → c.state.phase = 5

lemma Does.stays_connected (h : Does P c c') (hc : c.Connected) : c'.Connected := by
  cases h with
  | quiet | named | window | notice | shut | establish | ackAll | ackPart | finWaits | turn |
    lastTurn | sendFin | close | closed | discard => exact hc
  | connect hdest hsent => simp [hc hdest] at hsent
  | connected => exact fun _ => rfl
  | refuse | turnAway => rwa [writeRst_eq]
  | synAck => rwa [writeSynAck, writeOrClose_eq]
  | queue => rwa [queueTcp_eq]
  | fin | lastFin => rwa [writeAck, writeOrClose_eq]
  | data => rwa [writeData, writeOrClose_eq]

lemma Conn.Connected.asked (hc : c.Connected) : c.Asked := fun hdest => by simp [hc hdest]

namespace Conn.ReadsInOrder

lemma quiet (hc : c.ReadsInOrder) (hdoes : Does P c c') (hgiven : given c'.log = given c.log)
    (hobtained : Tun2Http.obtained c'.log = Tun2Http.obtained c.log)
    (hdiscarded : Tun2Http.discarded c'.log = Tun2Http.discarded c.log) : c'.ReadsInOrder := by
  refine ⟨?_, fun hne => ?_, fun hport hne => ?_⟩
  · rw [hgiven, hdiscarded, hobtained, hc.given_eq]
  · obtain ⟨hphase, hconnected⟩ := hc.obtained (hobtained ▸ hne)
    exact ⟨hphase.trans (hdoes.phase_le hconnected.asked), hdoes.stays_connected hconnected⟩
  · have hport' : c.dest ≠ 443 := hdoes.dest_eq ▸ hport
    have hasked : c.Asked := fun hdest => absurd hdest hport'
    exact TcpState.phase_eq_of_le (hc.discarded hport' (hdiscarded ▸ hne)) (hdoes.phase_le hasked)

/-- A step with an action that reads nothing. -/
lemma did {a : Action} (hc : c.ReadsInOrder) (hdoes : Does P c c') (hlog : c'.log = c.log ++ [a])
    (ha : a.given = []) : c'.ReadsInOrder := by
  have hnone : a.received = [] ∧ a.discarded = [] := by
    cases a <;> simp_all [Action.given, Action.received, Action.discarded]
  exact hc.quiet hdoes (by simp [hlog, ha]) (by simp [hlog, hnone]) (by simp [hlog, hnone])

/-- A session that listens has read nothing for the client. -/
lemma obtained_eq (hc : c.ReadsInOrder) (hstate : c.state = .LISTEN) :
    Tun2Http.obtained c.log = [] := by
  by_contra hne
  have hphase := (hc.obtained hne).1
  rw [hstate] at hphase
  exact absurd hphase (by decide)

end Conn.ReadsInOrder

theorem Does.readsInOrder (h : Does P c c') (hearly : c.Early) (honce : c.OpensOnce)
    (hc : c.ReadsInOrder) : c'.ReadsInOrder := by
  have hdoes := h
  cases h with
  | quiet | named | window | shut | connected | establish | ackAll | ackPart | finWaits | closed =>
    exact hc.quiet hdoes rfl rfl rfl
  | queue =>
    rw [queueTcp_eq] at hdoes ⊢
    exact hc.quiet hdoes rfl rfl rfl
  | notice | connect | close => exact hc.did hdoes rfl rfl
  | refuse =>
    rw [writeRst_eq] at hdoes ⊢
    exact hc.did hdoes rfl rfl
  | synAck =>
    rw [writeSynAck, writeOrClose_eq] at hdoes ⊢
    exact hc.did hdoes rfl rfl
  | fin | lastFin =>
    rw [writeAck, writeOrClose_eq] at hdoes ⊢
    exact hc.did hdoes rfl rfl
  | turn s rest sent action hturn | lastTurn s sent action hturn =>
    exact hc.did hdoes rfl hturn.given_eq
  | sendFin socket hstate =>
    refine hc.quiet hdoes ?_ ?_ ?_ <;>
      simp [writeFinAck, writeOrClose_eq, Action.given, Action.received, Action.discarded]
  | discard bytes hstate hsent hsocket =>
    have hnil := hc.obtained_eq hstate
    have hgiven := hc.given_eq
    rw [hnil, List.append_nil] at hgiven
    refine ⟨?_, fun hne => ?_, fun hport => absurd hsent (honce.not_sent hport)⟩
    · simp [hgiven, hnil, Action.given, Action.received, Action.discarded]
    · simp [hnil, Action.received] at hne
  | turnAway reply ok hstate hsocket =>
    have hnil := hc.obtained_eq hstate
    have hgiven := hc.given_eq
    rw [hnil, List.append_nil] at hgiven
    rw [writeRst_eq]
    refine ⟨?_, fun hne => ?_, fun _ _ => by simp [hstate, TcpState.phase]⟩
    · simp [hgiven, hnil, Action.given, Action.received, Action.discarded]
    · simp [hnil, Action.received] at hne
  | data bytes ok hstate =>
    have hconnected : c.Connected := fun hdest => hearly.established_of_open hdest hstate
    have hphase : 2 ≤ c.state.phase ∧ c.state.phase ≠ 5 := by
      rcases hstate with hstate | hstate <;> simp [hstate, TcpState.phase]
    rw [writeData, writeOrClose_eq]
    refine ⟨?_, fun _ => ⟨?_, hconnected⟩, fun hport hne => ?_⟩
    · simp [hc.given_eq, Action.given, Action.received, Action.discarded]
    · cases ok with
      | true => exact hphase.1
      | false => simp [TcpState.phase]
    · have hne' : Tun2Http.discarded c.log ≠ [] := by simpa [Action.discarded] using hne
      exact absurd (hc.discarded hport hne') hphase.2

/-! ### Runs -/

variable {p : Incoming} {mss : BitVec 16} {ws : BitVec 8} {rand : BitVec 32} {now : ℤ} {socket : ℕ}
  {buffer : SendBuffer}

lemma Conn.opensOnce_new : (new p mss ws rand now socket buffer).OpensOnce := by
  refine ⟨fun _ => ?_, fun _ _ => rfl⟩
  simp only [new]
  split_ifs <;> exact ConnectSent.noConfusion

/-- Whatever happens, the client gets what the socket has received for it: each packet carries the
next bytes and has the number of their place in the stream. All of it has been passed on unless the
session has been closed. Only the reply of the proxy and what comes with it is for nobody. -/
theorem Conn.delivers_stream
    (h : Reaches (step signedChar) (Admits P) (new p mss ws rand now socket buffer) c) :
    (∀ before q after, c.log = before ++ .write q true :: after → q.data ≠ [] ∨ q.fin = true →
      q.seq = rand + BitVec.ofNat 32 (synCount before + (delivered before).length) ∧
        obtained before = delivered before ++ q.data ∧ (p.dest ≠ 443 → synCount before = 1)) ∧
    delivered c.log <+: obtained c.log ∧
    (c.state ≠ .CLOSING → c.state ≠ .CLOSE → delivered c.log = obtained c.log) ∧
    given c.log = discarded c.log ++ obtained c.log ∧
    (p.dest ≠ 443 → c.state ≠ .CLOSING → c.state ≠ .CLOSE → discarded c.log = []) := by
  have hearly : (new p mss ws rand now socket buffer).Early := fun _ _ => .inl (Nat.zero_le 1)
  have hnew : (new p mss ws rand now socket buffer).Downloads rand p.dest :=
    ⟨rfl, .nil, by simp [new], List.prefix_refl _, fun hne => absurd rfl hne,
      fun hne => absurd rfl hne⟩
  have hreads : (new p mss ws rand now socket buffer).ReadsInOrder :=
    ⟨rfl, fun hne => absurd rfl hne, fun _ hne => absurd rfl hne⟩
  obtain ⟨-, -, hc, horder⟩ : c.Early ∧ c.OpensOnce ∧ c.Downloads rand p.dest ∧ c.ReadsInOrder :=
    keeps_of_reaches
      (I := fun c => c.Early ∧ c.OpensOnce ∧ c.Downloads rand p.dest ∧ c.ReadsInOrder)
      (fun _ _ hdoes hI => ⟨hdoes.early hI.1, hdoes.opensOnce hI.2.1,
        hdoes.downloads hI.1 hI.2.1 hI.2.2.1, hdoes.readsInOrder hI.1 hI.2.1 hI.2.2.2⟩) h
      ⟨hearly, opensOnce_new, hnew, hreads⟩
  have hopen : c.state ≠ .CLOSING → c.state ≠ .CLOSE → c.state.phase ≠ 5 := by
    intro hclosing hclose
    cases hstate : c.state <;> simp_all [TcpState.phase]
  refine ⟨fun before q after hlog hq => ?_, hc.delivered_prefix, fun hclosing hclose => ?_,
    horder.given_eq, fun hport hclosing hclose => ?_⟩
  · obtain ⟨hseq, hdata⟩ := hc.each before _ after hlog q rfl
    obtain ⟨hobtained, hfins, hsyns⟩ := hdata hq
    rw [room_eq, hfins, Nat.add_zero, Nat.add_comm] at hseq
    exact ⟨hseq, hobtained, hsyns⟩
  · by_contra hne
    exact hopen hclosing hclose (hc.pending hne).1
  · by_contra hne
    exact hopen hclosing hclose (horder.discarded (hc.dest ▸ hport) hne)

theorem Conn.delivers_stream_exchanged :
    (∀ before q after, exchanged.log = before ++ .write q true :: after →
      q.data ≠ [] ∨ q.fin = true →
      q.seq = 500 + BitVec.ofNat 32 (synCount before + (delivered before).length) ∧
        obtained before = delivered before ++ q.data ∧
        ((8080 : BitVec 16) ≠ 443 → synCount before = 1)) ∧
    delivered exchanged.log <+: obtained exchanged.log ∧
    (exchanged.state ≠ .CLOSING → exchanged.state ≠ .CLOSE →
      delivered exchanged.log = obtained exchanged.log) ∧
    given exchanged.log = discarded exchanged.log ++ obtained exchanged.log ∧
    ((8080 : BitVec 16) ≠ 443 → exchanged.state ≠ .CLOSING → exchanged.state ≠ .CLOSE →
      discarded exchanged.log = []) :=
  delivers_stream ((reaches_opened (P := fun _ => True) trivial).trans (reaches_exchanged trivial))

/-- To port 443 the beginning of the connection is lost when it comes with the reply. -/
example :
    let asked := handleTcp true (opening 443) (.plain 443 101 501 false true) 2 true true
    let a : Answers :=
      { Answers.ready with reply := .data (ascii "HTTP/1.0 200"), surplus := [[1, 2, 3]] }
    let c := asked.checkListen ⟨false, true, false⟩ a
    c.state = .SYN_RECV ∧ discarded c.log = ascii "HTTP/1.0 200" ++ [1, 2, 3] := by
  decide +kernel

end Violet.Tun2Http
