import Violet.Tun2Http.TcpRuns

/-!
# The window of the client

The session never sends more than the client has room for, even though its order of the numbers is
the signed one and breaks where the sign changes. What breaks there is something else: with the
change of the sign between an acknowledged number and the next one, nothing is sent, and an
acknowledgement that has come half the way resets the connection or is lost.
-/

namespace Violet.Tun2Http

open Wire Transition Conn

variable {P : Incoming → Prop} {signedChar : Bool} {c c' : Conn}

/-! ### The send window -/

/-- A bound for windows that are scaled by 14 bits at most. -/
def WINDOW_END : ℕ := 2 ^ 30

lemma scaled_lt {window : BitVec 16} {scale : BitVec 8} (h : scale.toNat ≤ 14) :
    (window.setWidth 32 <<< scale.toNat).toNat < WINDOW_END := by
  have hlt := window.isLt
  have hscale : (2 : ℕ) ^ scale.toNat ≤ 2 ^ 14 := Nat.pow_le_pow_right (by norm_num) h
  have hprod : window.toNat * 2 ^ scale.toNat ≤ (2 ^ 16 - 1) * 2 ^ 14 :=
    Nat.mul_le_mul (by omega) hscale
  simp only [BitVec.toNat_shiftLeft, BitVec.toNat_setWidth, Nat.shiftLeft_eq, WINDOW_END]
  rw [Nat.mod_eq_of_lt (a := window.toNat) (by omega), Nat.mod_eq_of_lt] <;> omega

/-- What is on its way to the client. -/
def Conn.behind (c : Conn) : ℕ := (c.localSeq - c.acked).toNat

/-- The window may be counted from what has been acknowledged. -/
structure Conn.Windowed (c : Conn) : Prop where
  scale : c.sendScale.toNat ≤ 14
  sendWindow : c.sendWindow.toNat < WINDOW_END
  behind : c.state = .ESTABLISHED ∨ c.state = .CLOSE_WAIT →
    c.behind < WINDOW_END ∨ compareU32 c.acked c.localSeq < 0

lemma Conn.behind_advance {n : ℕ} (hlocal : c'.localSeq = c.localSeq + BitVec.ofNat 32 n)
    (hacked : c'.acked = c.acked) (hlt : c.behind + n < WINDOW_END) : c'.behind = c.behind + n := by
  have hn : (BitVec.ofNat 32 n).toNat = n := by
    rw [BitVec.toNat_ofNat, Nat.mod_eq_of_lt]
    simp only [WINDOW_END] at hlt
    omega
  rw [Conn.behind, hlocal, hacked, BitVec.add_sub_comm, BitVec.toNat_add, hn, Nat.mod_eq_of_lt]
  · rfl
  · simp only [WINDOW_END, Conn.behind] at *
    omega

/-- With so little on its way, the two numbers are out of order only where the sign changes. -/
lemma Conn.Windowed.order (hc : c.Windowed) (hopen : c.state = .ESTABLISHED ∨ c.state = .CLOSE_WAIT)
    (hacked : c.acked.toNat < WINDOW_END) : compareU32 c.acked c.localSeq ≤ 0 := by
  rcases hc.behind hopen with hbehind | hlt
  swap
  · exact hlt.le
  rw [compareU32_nonpos_iff]
  by_contra hne
  rw [not_or, not_and_or, not_not] at hne
  have hlocal : c.localSeq.toNat = c.acked.toNat + c.behind := by
    have hsum : c.localSeq = c.acked + (c.localSeq - c.acked) := by
      rw [BitVec.add_comm, BitVec.sub_add_cancel]
    rw [hsum, BitVec.toNat_add, Nat.mod_eq_of_lt]
    · rfl
    · simp only [Conn.behind, WINDOW_END] at *
      omega
  rcases hne with ⟨hne, hle | hmax⟩
  · rw [BitVec.toInt_eq_toNat_of_lt, BitVec.toInt_eq_toNat_of_lt] at hle
    · have heq : c.behind = 0 := by omega
      exact hne (BitVec.eq_of_toNat_eq (by omega))
    · simp only [WINDOW_END] at *
      omega
    · simp only [WINDOW_END] at *
      omega
  · rw [Conn.behind, hmax] at hbehind
    exact absurd hbehind (by decide)

/-- What the window leaves fits behind what is on its way. -/
theorem Conn.Windowed.fits (hc : c.Windowed)
    (hopen : c.state = .ESTABLISHED ∨ c.state = .CLOSE_WAIT)
    {n : ℕ} (hpos : 0 < n) (hn : n ≤ (getSendWindow c.toTcpSession).toNat) :
    c.behind + n ≤ c.sendWindow.toNat := by
  rw [getSendWindow] at hn
  by_cases horder : compareU32 c.acked c.localSeq ≤ 0
  · rw [if_pos horder] at hn
    split_ifs at hn with hlt
    · have hlt := BitVec.lt_def.mp hlt
      rw [BitVec.toNat_sub_of_le (BitVec.le_def.mpr hlt.le)] at hn
      simp only [Conn.behind]
      omega
    · simp at hn
      omega
  · rw [if_neg horder] at hn
    split_ifs at hn with hlt
    · have := BitVec.lt_def.mp hlt
      exact absurd (hc.order hopen (by have := hc.sendWindow; omega)) horder
    · simp at hn
      omega

/-- A step that changes none of the numbers and opens nothing. -/
lemma Conn.Windowed.quiet (hc : c.Windowed) (hscale : c'.sendScale = c.sendScale)
    (hwindow : c'.sendWindow = c.sendWindow) (hlocal : c'.localSeq = c.localSeq)
    (hacked : c'.acked = c.acked)
    (hstate : c'.state = .ESTABLISHED ∨ c'.state = .CLOSE_WAIT →
      c.state = .ESTABLISHED ∨ c.state = .CLOSE_WAIT) : c'.Windowed := by
  refine ⟨hscale ▸ hc.scale, hwindow ▸ hc.sendWindow, fun hopen => ?_⟩
  rw [Conn.behind, hlocal, hacked]
  exact hc.behind (hstate hopen)

lemma Conn.Windowed.closed (hc : c.Windowed) (hscale : c'.sendScale = c.sendScale)
    (hwindow : c'.sendWindow = c.sendWindow) (hne : c'.state ≠ .ESTABLISHED)
    (hne' : c'.state ≠ .CLOSE_WAIT) : c'.Windowed :=
  ⟨hscale ▸ hc.scale, hwindow ▸ hc.sendWindow, fun hopen => absurd hopen (by simp [hne, hne'])⟩

theorem Does.windowed (h : Does P c c') (hc : c.Windowed) : c'.Windowed := by
  cases h with
  | quiet | named | notice | turn | lastTurn | close | discard => exact hc.quiet rfl rfl rfl rfl id
  | window p hp => exact ⟨hc.scale, scaled_lt hc.scale, hc.behind⟩
  | shut | connected | closed | connect =>
    exact hc.closed rfl rfl TcpState.noConfusion TcpState.noConfusion
  | refuse ok hstate | turnAway reply ok hstate =>
    rw [writeRst_eq]
    exact hc.closed rfl rfl (by simp [hstate]) (by simp [hstate])
  | synAck ok hstate =>
    rw [writeSynAck, writeOrClose_eq]
    refine hc.closed rfl rfl ?_ ?_ <;> cases ok <;> exact TcpState.noConfusion
  | queue p hp hqueues =>
    rw [queueTcp_eq]
    exact hc.quiet rfl rfl rfl rfl id
  | establish hstate =>
    refine ⟨hc.scale, hc.sendWindow, fun _ => .inl ?_⟩
    simp [Conn.behind, WINDOW_END]
  | ackAll =>
    refine ⟨hc.scale, hc.sendWindow, fun _ => .inl ?_⟩
    simp [Conn.behind, WINDOW_END]
  | ackPart ack hlocal hacked => exact ⟨hc.scale, hc.sendWindow, fun _ => .inr hlocal⟩
  | fin ok hstate =>
    rw [writeAck, writeOrClose_eq]
    exact hc.quiet rfl rfl rfl rfl fun _ => .inl hstate
  | finWaits hstate => exact hc.quiet rfl rfl rfl rfl fun _ => .inl hstate
  | lastFin ok hstate =>
    rw [writeAck, writeOrClose_eq]
    refine hc.closed rfl rfl ?_ ?_ <;> cases ok <;> exact TcpState.noConfusion
  | sendFin socket hstate =>
    refine hc.closed rfl rfl ?_ ?_ <;> rcases hstate with hstate | hstate <;> simp [hstate]
  | data bytes ok hopen hsocket hlen =>
    rw [writeData, writeOrClose_eq]
    cases ok with
    | false => exact hc.closed rfl rfl TcpState.noConfusion TcpState.noConfusion
    | true =>
      by_cases hpos : 0 < bytes.length
      swap
      · have hzero : bytes.length = 0 := by omega
        exact hc.quiet rfl rfl (by simp [hzero]) rfl id
      · have hlt := (hc.fits hopen hpos hlen).trans_lt hc.sendWindow
        refine ⟨hc.scale, hc.sendWindow, fun _ => .inl ?_⟩
        exact lt_of_eq_of_lt (behind_advance rfl rfl hlt) hlt

/-! ### What an event of the socket writes -/

/-- What has been added to the log writes no data. -/
def NoData (c c' : Conn) : Prop :=
  ∃ added, c'.log = c.log ++ added ∧ ∀ q ok, .write q ok ∈ added → q.data = []

lemma NoData.refl (hlog : c'.log = c.log) : NoData c c' := ⟨[], by simp [hlog], by simp⟩

lemma NoData.trans {c₁ : Conn} (h : NoData c c₁) (h' : NoData c₁ c') : NoData c c' := by
  obtain ⟨added, hlog, hdata⟩ := h
  obtain ⟨added', hlog', hdata'⟩ := h'
  refine ⟨added ++ added', by rw [hlog', hlog, List.append_assoc], fun q ok hq => ?_⟩
  exact (List.mem_append.mp hq).elim (hdata q ok) (hdata' q ok)

lemma NoData.concat {a : Action} (hlog : c'.log = c.log ++ [a])
    (ha : ∀ q ok, a = .write q ok → q.data = []) : NoData c c' :=
  ⟨[a], hlog, fun q ok hq => ha q ok (List.mem_singleton.mp hq).symm⟩

lemma NoData.write {q : TcpPacket} {ok : Bool} (hlog : c'.log = c.log ++ [.write q ok])
    (hq : q.data = []) : NoData c c' :=
  .concat hlog fun q' ok' heq => by
    cases heq
    exact hq

lemma NoData.other {a : Action} (hlog : c'.log = c.log ++ [a]) (ha : ∀ q ok, a ≠ .write q ok) :
    NoData c c' :=
  .concat hlog fun q ok heq => absurd heq (ha q ok)

section

variable {a : Answers} {ev : Events} {fwd fwd' ok : Bool}

lemma noData_writeRst : NoData c (c.writeRst ok) := by
  rw [writeRst_eq]
  exact .write rfl rfl

lemma noData_discard {given : List (List Byte)} : NoData c (c.discard given) := by
  refine ⟨given.map .discard, rfl, fun q ok hq => ?_⟩
  obtain ⟨bytes, -, heq⟩ := List.mem_map.mp hq
  cases heq

lemma noData_checkListen : NoData c (c.checkListen ev a) := by
  unfold checkListen
  by_cases hinp : ev.inp
  · rw [if_pos hinp]
    cases a.reply.bytes? with
    | none => exact noData_writeRst
    | some reply =>
      dsimp only
      split_ifs
      · have hdiscard : NoData c (c.discard (reply :: a.surplus)) := noData_discard
        exact hdiscard.trans (.refl rfl)
      · exact noData_discard.trans noData_writeRst
  · rw [if_neg hinp, writeSynAck, writeOrClose_eq]
    dsimp only
    split_ifs <;> exact .write rfl rfl

lemma noData_forwardLoop {queue : List Segment} {turn bufferSize : ℕ}
    (h : forwardLoop a queue turn bufferSize fwd c = some (c', fwd')) : NoData c c' := by
  induction queue generalizing turn bufferSize fwd c with
  | nil =>
    cases h
    exact .refl rfl
  | cons s rest ih =>
    rw [forwardLoop] at h
    split_ifs at h with hnext
    swap
    · cases h
      exact .refl rfl
    obtain ⟨data, -, h⟩ := Option.bind_eq_some_iff.mp h
    dsimp only at h
    have hturn : NoData c (c.turn s rest (sendSegment (a.sends turn) (s.len - s.sent) data).1
        (sendSegment (a.sends turn) (s.len - s.sent) data).2) := by
      refine .other rfl fun q ok => ?_
      cases a.sends turn <;> exact Action.noConfusion
    split_ifs at h with hall
    · exact hturn.trans (ih h)
    · cases h
      exact hturn

lemma noData_acknowledge : NoData c (c.acknowledge fwd a) := by
  unfold acknowledge
  extract_lets window prev cur cur₂ cur₃
  have hcur₂ : NoData c cur₂ := by
    refine .refl ?_
    simp only [cur₂, cur]
    split_ifs <;> rfl
  have hcur₃ : NoData cur₂ cur₃ := by
    simp only [cur₃, writeAck, writeOrClose_eq]
    exact .write rfl rfl
  split_ifs
  · exact (hcur₂.trans hcur₃).trans (.refl rfl)
  · exact hcur₂.trans hcur₃
  · exact .refl rfl

lemma noData_recvEof : NoData c (c.recvEof ok) := by
  have hfin : NoData c (c.writeFinAck ok) := by
    rw [writeFinAck, writeOrClose_eq]
    exact .write rfl rfl
  unfold recvEof
  extract_lets fin count cur
  have hcount : NoData c count := by
    simp only [count]
    split_ifs
    · exact hfin.trans (.refl rfl)
    · exact hfin
  have hcur : NoData c cur := by
    simp only [cur]
    split_ifs
    · split <;> exact hcount.trans (.refl rfl)
    · exact noData_writeRst
  split
  · next socket hsocket =>
    have hclose : NoData cur { cur.did (.close socket) with socket := none } :=
      .other rfl fun _ _ => Action.noConfusion
    exact hcur.trans hclose
  · exact hcur

lemma noData_writeAck : NoData c (c.writeAck ok) := by
  rw [writeAck, writeOrClose_eq]
  exact .write rfl rfl

lemma noData_connectProxy {name : List Byte} {sendOk : Bool} :
    NoData c (c.connectProxy name sendOk ok) := by
  unfold connectProxy
  extract_lets hostname cur
  have hcur : NoData c cur := by
    refine .refl ?_
    simp only [cur]
    split_ifs <;> rfl
  split_ifs
  · have hconnect : NoData cur { cur.did (.connect (connectRequest cur.hostname)) with
        connectSent := .SENT
        state := .LISTEN } := .other rfl fun _ _ => Action.noConfusion
    exact hcur.trans hconnect
  · exact hcur.trans noData_writeRst
  · exact hcur

lemma noData_handleFlags {p : Incoming} : NoData c (c.handleFlags p ok) := by
  have hcount : NoData c ({ c with remoteSeq := c.remoteSeq + 1 } : Conn) := .refl rfl
  have hfin : NoData c (c.handleFin ok) := by
    unfold handleFin
    split
    · split_ifs
      · exact hcount.trans (noData_writeAck.trans (.refl rfl))
      · exact hcount.trans noData_writeAck
      · exact .refl rfl
    · split_ifs
      · exact hcount.trans (noData_writeAck.trans (.refl rfl))
      · exact hcount.trans noData_writeAck
    · exact .refl rfl
  have hack : NoData c (c.handleAck p) := by
    unfold handleAck
    extract_lets cur
    split <;> exact .refl rfl
  have hother : NoData c (c.handleOtherAck p ok) := by
    unfold handleOtherAck
    split_ifs
    · exact .refl rfl
    · exact .refl rfl
    · exact .refl rfl
    · exact noData_writeRst
  unfold handleFlags
  split_ifs
  · exact .refl rfl
  · exact .refl rfl
  · exact hfin
  · exact hack
  · exact .refl rfl
  · exact hother

lemma noData_handleTcp {p : Incoming} {now : ℤ} {sendOk : Bool} :
    NoData c (handleTcp signedChar c p now sendOk ok) := by
  have hqueue (c : Conn) : NoData c (c.queueTcp p) := by
    rw [queueTcp_eq]
    exact .refl rfl
  have hopen (c : Conn) : NoData c (c.handleOpen p now ok) := by
    unfold handleOpen
    extract_lets cur
    have hcur : NoData c cur := .refl rfl
    split_ifs
    · exact hcur.trans noData_writeRst
    · exact hcur.trans noData_writeRst
    · exact hcur.trans ((hqueue cur).trans noData_handleFlags)
    · exact hcur.trans noData_handleFlags
  unfold handleTcp
  extract_lets name cur
  have hcur : NoData c cur := by
    simp only [cur]
    split_ifs
    · exact noData_connectProxy
    · exact .refl rfl
  split_ifs
  · exact .refl rfl
  · exact hcur.trans (hqueue cur)
  · exact hcur.trans noData_writeRst
  · exact hcur.trans (hopen cur)

lemma noData_checkTcpSession {now sessions maxsessions : ℤ} :
    NoData c (c.checkTcpSession now sessions maxsessions ok).1 := by
  unfold checkTcpSession
  extract_lets timeout c₁ c₂ c₃
  have h₁ : NoData c c₁ := by
    simp only [c₁]
    split_ifs
    · exact .refl rfl
    · exact noData_writeRst
    · exact .refl rfl
  have h₂ : NoData c₁ c₂ := by
    simp only [c₂, closeSocket]
    split_ifs
    · cases c₁.socket with
      | none => exact .refl rfl
      | some socket => exact .other (a := .close socket) rfl fun _ _ => Action.noConfusion
    · exact .refl rfl
  simp only [c₃]
  split_ifs
  · exact (h₁.trans h₂).trans (.refl rfl)
  · exact h₁.trans h₂

lemma noData_monitorTcpSession {ms : ℤ} {buffer : SendBuffer} {ctlOk : Bool} :
    NoData c (c.monitorTcpSession ms buffer ok ctlOk).1 := by
  unfold monitorTcpSession
  extract_lets open₁ full keepAlive forwards events recheck alive c₁
  have h₁ : NoData c c₁ := by
    simp only [c₁, alive]
    split_ifs
    · have hless : NoData c ({ c with
          lastKeepAlive := ms
          remoteSeq := c.remoteSeq - 1 } : Conn) := .refl rfl
      exact hless.trans (noData_writeAck.trans (.refl rfl))
    · exact .refl rfl
  split_ifs
  · exact h₁.trans (.refl rfl)
  · exact h₁.trans (.refl rfl)
  · exact h₁

/-- Only what the socket has received is written as data. -/
lemma readSocket_eq (c : Conn) (ev : Events) (a : Answers) : NoData c (c.readSocket ev a) ∨
    (c.state = .ESTABLISHED ∨ c.state = .CLOSE_WAIT) ∧ ∃ bytes q, a.received = .data bytes ∧
      (c.readSocket ev a).log = c.log ++ [.recv bytes, .write q a.writeOk] ∧
      q.seq = c.localSeq ∧ q.data = bytes := by
  unfold readSocket
  split_ifs with hread
  swap
  · exact .inl (.refl rfl)
  extract_lets cur
  cases hreceived : a.received with
  | retry => exact .inl (.refl rfl)
  | error => exact .inl (noData_writeRst (c := cur))
  | eof => exact .inl (noData_recvEof (c := cur))
  | data bytes =>
    refine .inr ⟨hread.1, bytes, cur.packet bytes false true false false, rfl, ?_, rfl, rfl⟩
    simp only [recvData, writeData, writeOrClose_eq]
    split_ifs <;> simp [cur, did, packet]

end

/-! ### The bound -/

variable {p : Incoming} {mss : BitVec 16} {ws : BitVec 8} {rand : BitVec 32} {now : ℤ} {socket : ℕ}
  {buffer : SendBuffer}

lemma Conn.windowed_new (hws : ws.toNat ≤ 14) : (new p mss ws rand now socket buffer).Windowed :=
  ⟨hws, scaled_lt hws, fun hopen => by simp [new] at hopen⟩

section

variable {a : Answers} {ev : Events} {fwd fwd' : Bool}

lemma state_acknowledge (hopen : (c.acknowledge fwd a).state ≠ .CLOSING) :
    (c.acknowledge fwd a).state = c.state := by
  simp only [acknowledge, writeAck, writeOrClose_eq] at hopen ⊢
  split_ifs at hopen ⊢ <;> simp_all

/-- What is read before the socket is. -/
lemma NoData.acknowledge (hloop : NoData c c') (hsame : SameWindow c c')
    (hstate : c'.state = c.state)
    (hrecv : ∀ bytes, a.received = .data bytes → bytes.length ≤ c.recvSize.toNat)
    (hc : c.Windowed) :
    ∃ added, ((c'.acknowledge fwd a).readSocket ev a).log = c.log ++ added ∧
      ∀ q ok, .write q ok ∈ added → q.data ≠ [] →
        (q.seq - c.acked).toNat + q.data.length ≤ c.sendWindow.toNat := by
  have hack : NoData c (c'.acknowledge fwd a) := hloop.trans noData_acknowledge
  have hsame' : SameWindow c (c'.acknowledge fwd a) := sameWindow_acknowledge hsame
  rcases readSocket_eq (c'.acknowledge fwd a) ev a with
    hnone | ⟨hopen, bytes, q, hreceived, hlog, hseq, hdata⟩
  · obtain ⟨added, hlog, hempty⟩ := hack.trans hnone
    exact ⟨added, hlog, fun q ok hq hne => absurd (hempty q ok hq) hne⟩
  · obtain ⟨added, hlog', hempty⟩ := hack
    refine ⟨added ++ [.recv bytes, .write q a.writeOk], by rw [hlog, hlog', List.append_assoc], ?_⟩
    intro q' ok hq' hne
    rcases List.mem_append.mp hq' with hq' | hq'
    · exact absurd (hempty q' ok hq') hne
    · obtain ⟨rfl, -⟩ : q' = q ∧ ok = a.writeOk := by simpa using hq'
      have hclosing : (c'.acknowledge fwd a).state ≠ .CLOSING := by
        rcases hopen with hopen | hopen <;> simp [hopen]
      have hopen' : c.state = .ESTABLISHED ∨ c.state = .CLOSE_WAIT := by
        rwa [state_acknowledge hclosing, hstate] at hopen
      have hlen := (hrecv bytes hreceived).trans recvSize_le
      have hpos : 0 < bytes.length := List.length_pos_iff.mpr (hdata ▸ hne)
      rw [hseq, hsame'.localSeq, hdata]
      exact hc.fits hopen' hpos hlen

end

/-- What is written to the client fits the window that it has told, counted from what it has
acknowledged. -/
theorem Conn.data_fits_window {e : ConnEvent} (hws : ws.toNat ≤ 14)
    (h : Reaches (step signedChar) (Admits P) (new p mss ws rand now socket buffer) c)
    (hguard : c.Admits P e) (hstep : c.step signedChar e = some c') :
    ∃ added, c'.log = c.log ++ added ∧ ∀ q ok, .write q ok ∈ added → q.data ≠ [] →
      (q.seq - c.acked).toNat + q.data.length ≤ c.sendWindow.toNat := by
  have hc : c.Windowed := keeps_of_reaches (fun _ _ => Does.windowed) h (windowed_new hws)
  have hquiet : NoData c c' → ∃ added, c'.log = c.log ++ added ∧
      ∀ q ok, .write q ok ∈ added → q.data ≠ [] →
        (q.seq - c.acked).toNat + q.data.length ≤ c.sendWindow.toNat := by
    rintro ⟨added, hlog, hempty⟩
    exact ⟨added, hlog, fun q ok hq hne => absurd (hempty q ok hq) hne⟩
  cases e with
  | packet p now sendOk writeOk =>
    cases hstep
    exact hquiet noData_handleTcp
  | check now sessions maxsessions writeOk =>
    obtain ⟨-, hstep⟩ := Option.ite_none_left_eq_some.mp hstep
    cases hstep
    exact hquiet noData_checkTcpSession
  | monitor ms buffer writeOk ctlOk =>
    cases hstep
    exact hquiet noData_monitorTcpSession
  | terminate writeOk =>
    cases hstep
    rw [terminate] at hquiet ⊢
    split_ifs at hquiet ⊢
    · exact hquiet noData_writeRst
    · exact hquiet (.refl rfl)
  | socket ev a =>
    rw [step, checkTcpSocket] at hstep
    split_ifs at hstep with herr hlisten hout
    · cases hstep
      exact hquiet ((NoData.refl rfl).trans noData_writeRst)
    · cases hstep
      exact hquiet noData_checkListen
    · obtain ⟨⟨c₁, fwd⟩, hloop, hstep⟩ := Option.bind_eq_some_iff.mp hstep
      cases hstep
      exact (noData_forwardLoop hloop).acknowledge (sameWindow_forwardLoop hloop)
        (state_forwardLoop hloop) hguard.2 hc
    · cases hstep
      exact (NoData.refl rfl).acknowledge ⟨rfl, rfl, rfl, rfl, rfl⟩ rfl hguard.2 hc

theorem Conn.data_fits_window_served :
    ∃ added, served.log = opened.log ++ added ∧ ∀ q ok, .write q ok ∈ added → q.data ≠ [] →
      (q.seq - opened.acked).toNat + q.data.length ≤ opened.sendWindow.toNat :=
  data_fits_window (e := .socket ⟨false, true, false⟩ .ready) (by decide)
    (reaches_opened (P := fun _ => True) trivial) admits_served rfl

/-! ### An acknowledgement that has come half the way -/

/-- A packet that does nothing but acknowledge a part of what is on its way. -/
structure Incoming.AcksPart (c : Conn) (p : Incoming) : Prop where
  plain : p.ack = true ∧ p.urg = false ∧ p.syn = false ∧ p.fin = false ∧ p.rst = false ∧ p.data = []
  more : 0 < (p.ackSeq - c.acked).toNat
  less : (p.ackSeq - c.acked).toNat < c.behind

lemma connectProxy_of_established {name : List Byte} {sendOk ok : Bool}
    (hsent : c.connectSent = .ESTABLISHED) :
    ∃ hostname, c.connectProxy name sendOk ok = { c with hostname := hostname } := by
  unfold connectProxy
  extract_lets hostname cur
  have hcur : cur.connectSent ≠ .NOT_SENT := by
    simp only [cur]
    split_ifs <;> simp [hsent]
  rw [if_neg fun h => hcur h.1]
  simp only [cur]
  split_ifs
  · exact ⟨_, rfl⟩
  · exact ⟨c.hostname, rfl⟩

/-- What `handle_tcp` makes of an acknowledgement of a part. One of all but the last byte is taken
for a keep alive. -/
lemma handleOtherAck_part {ok : Bool} (hp : p.AcksPart c) (hbehind : c.behind < 2 ^ 31) :
    c.handleOtherAck p ok =
      if p.ackSeq + 1 = c.localSeq then c
      else if SignBetween p.ackSeq c.localSeq then c.writeRst ok
      else if SignBetween c.acked p.ackSeq then c
      else { c with acked := p.ackSeq } := by
  have hmore := hp.more
  have hless := hp.less
  have hsub : (c.localSeq - p.ackSeq).toNat = c.behind - (p.ackSeq - c.acked).toNat := by
    simp only [Conn.behind, BitVec.toNat_sub] at *
    have := c.localSeq.isLt
    have := c.acked.isLt
    have := p.ackSeq.isLt
    omega
  have hlocal : compareU32 p.ackSeq c.localSeq < 0 ↔ ¬ SignBetween p.ackSeq c.localSeq :=
    compareU32_neg_iff_of_near (by omega) (by omega)
  have hacked := compareU32_nonpos_iff_of_near hmore (by omega)
  simp only [handleOtherAck, hlocal, hacked, ite_not]

lemma handleOpen_part {ok : Bool} (hp : p.AcksPart c) :
    c.handleOpen p now ok =
      ({ c with time := now, sendWindow := p.window.setWidth 32 <<< c.sendScale.toNat } :
        Conn).handleOtherAck p ok := by
  obtain ⟨hack, -, -, -, hrst, hdata⟩ := hp.plain
  have hne : p.ackSeq ≠ c.localSeq := by
    intro heq
    have hless := hp.less
    rw [heq, Conn.behind] at hless
    omega
  simp [handleOpen, handleFlags, hdata, hrst, hack, hne]

/-- In the open connection, an acknowledgement of a part resets the session if the sign changes
behind it, and is lost if the sign changes before it. That of all but the last byte is lost in any
case. -/
theorem Conn.handleTcp_part {sendOk ok : Bool} (hdest : p.dest = c.dest) (hconnected : c.Connected)
    (hopen : c.state = .ESTABLISHED ∨ c.state = .CLOSE_WAIT) (hp : p.AcksPart c)
    (hbehind : c.behind < 2 ^ 31) :
    ((handleTcp signedChar c p now sendOk ok).state =
      if p.ackSeq + 1 ≠ c.localSeq ∧ SignBetween p.ackSeq c.localSeq then .CLOSING else c.state) ∧
    (handleTcp signedChar c p now sendOk ok).acked =
      if p.ackSeq + 1 = c.localSeq ∨ SignBetween p.ackSeq c.localSeq ∨
        SignBetween c.acked p.ackSeq then c.acked
      else p.ackSeq := by
  have hclosed : c.state ≠ .CLOSING ∧ c.state ≠ .CLOSE := by
    rcases hopen with hopen | hopen <;> simp [hopen]
  have hlisten : c.state ≠ .LISTEN := by rcases hopen with hopen | hopen <;> simp [hopen]
  have hurg : p.urg = false := hp.plain.2.1
  have hne443 : ¬ (c.dest = 443 ∧ c.connectSent ≠ .ESTABLISHED) := fun h => h.2 (hconnected h.1)
  obtain ⟨hostname, hstep⟩ : ∃ hostname, handleTcp signedChar c p now sendOk ok =
      ({ c with hostname := hostname } : Conn).handleOpen p now ok := by
    unfold handleTcp
    extract_lets name cur
    obtain ⟨hostname, hcur⟩ : ∃ hostname, cur = { c with hostname := hostname } := by
      by_cases h443 : c.dest = 443
      · simp only [cur, hdest, if_pos h443]
        exact connectProxy_of_established (hconnected h443)
      · simp only [cur, hdest, if_neg h443]
        exact ⟨c.hostname, rfl⟩
    refine ⟨hostname, ?_⟩
    rw [hcur, if_neg (by simp [hurg]), if_neg (by rw [hdest]; exact hne443),
      if_neg (not_or.mpr hclosed)]
  have hopened : p.AcksPart ({ c with hostname := hostname } : Conn) := ⟨hp.plain, hp.more, hp.less⟩
  have htold : p.AcksPart ({ c with
      hostname := hostname
      time := now
      sendWindow := p.window.setWidth 32 <<< c.sendScale.toNat } : Conn) :=
    ⟨hp.plain, hp.more, hp.less⟩
  rw [hstep, handleOpen_part hopened, handleOtherAck_part htold hbehind]
  by_cases hkeep : p.ackSeq + 1#32 = c.localSeq
  · simp [hkeep]
  · by_cases hlocal : SignBetween p.ackSeq c.localSeq
    · simp [hkeep, hlocal, writeRst_eq, hclosed, hlisten]
    · by_cases hacked : SignBetween c.acked p.ackSeq <;> simp [hkeep, hlocal, hacked]

theorem Conn.handleTcp_part_served :
    let p : Incoming := .plain 8080 101 502 false true
    ((handleTcp true served p 3 true true).state =
      if p.ackSeq + 1 ≠ served.localSeq ∧ SignBetween p.ackSeq served.localSeq then .CLOSING
      else served.state) ∧
    (handleTcp true served p 3 true true).acked =
      if p.ackSeq + 1 = served.localSeq ∨ SignBetween p.ackSeq served.localSeq ∨
        SignBetween served.acked p.ackSeq then served.acked
      else p.ackSeq :=
  handleTcp_part rfl (fun h => absurd h (by decide)) (.inl rfl)
    ⟨by decide, by decide, by decide⟩ (by decide)

end Violet.Tun2Http
