import Violet.Tun2Http.TcpDownload
import Violet.Wire.Serial

/-!
# What the socket gets

The bytes of the client are a stream, each with its number, and the client may send any part of it
any number of times and in any order. The session takes the stream without a gap or a repetition, as
far as it comes, and confirms to the client what it has taken. A failed `send` counts as one that
has accepted everything: the socket gets what has been taken but for the bytes of failed sends.

To port 80 the bytes may be changed on their way, so that port is left out here.
-/

namespace Violet.Tun2Http

open Wire Transition Conn

/-! ### Parts of the stream -/

variable {P : Incoming → Prop} {stream : BitVec 32 → Byte}

/-- The packet carries a part of the stream. -/
def Incoming.Carries (stream : BitVec 32 → Byte) (p : Incoming) : Prop :=
  p.data = slice stream p.seq p.data.length

structure Segment.Holds (stream : BitVec 32 → Byte) (s : Segment) : Prop where
  data_eq : s.data = slice stream s.seq s.len
  sent_le : s.sent ≤ s.len

lemma forall_mem_insertSegment {Q : Segment → Prop} {seq : BitVec 32} {psh : Bool}
    {data : List Byte}
    {queue : List Segment} (hqueue : ∀ s ∈ queue, Q s) (hnew : Q ⟨seq, 0, psh, data⟩)
    (hmore : ∀ s ∈ queue, s.seq = seq → s.len < data.length → Q { s with data := data }) :
    ∀ s ∈ insertSegment seq psh data queue, Q s := by
  induction queue with
  | nil => simpa [insertSegment] using hnew
  | cons s rest ih =>
    have hs := hqueue s List.mem_cons_self
    have hrest : ∀ t ∈ rest, Q t := fun t ht => hqueue t (List.mem_cons_of_mem s ht)
    rw [insertSegment]
    split_ifs with hbefore hbehind hless
    · rw [List.forall_mem_cons]
      exact ⟨hs, ih hrest fun t ht => hmore t (List.mem_cons_of_mem s ht)⟩
    · rw [List.forall_mem_cons]
      exact ⟨hnew, hqueue⟩
    · have heq : s.seq = seq := compareU32_eq_zero.mp (by omega)
      rw [List.forall_mem_cons]
      exact ⟨hmore s List.mem_cons_self heq hless, hrest⟩
    · exact hqueue

/-- What waits for the socket is a part of the stream. -/
def Conn.Queued (stream : BitVec 32 → Byte) (c : Conn) : Prop := ∀ s ∈ c.forward, s.Holds stream

/-- The bytes that are taken from the queue, for the socket. -/
def Action.taken : Action → List Byte
  | .forward bytes | .lose bytes => bytes
  | .write _ _ | .connect _ | .discard _ | .recv _ | .close _ => []

/-- The bytes that the socket gets. -/
def Action.upload : Action → List Byte
  | .forward bytes => bytes
  | .write _ _ | .connect _ | .discard _ | .lose _ | .recv _ | .close _ => []

/-- The bytes of a failed `send`. -/
def Action.lost : Action → List Byte
  | .lose bytes => bytes
  | .write _ _ | .connect _ | .discard _ | .forward _ | .recv _ | .close _ => []

def taken (log : List Action) : List Byte := log.flatMap Action.taken

def uploaded (log : List Action) : List Byte := log.flatMap Action.upload

def lost (log : List Action) : List Byte := log.flatMap Action.lost

section

variable (log log' : List Action) (a : Action)

@[simp] lemma taken_nil : taken [] = [] := rfl

@[simp] lemma taken_cons : taken (a :: log) = a.taken ++ taken log := by simp [taken]

@[simp] lemma taken_append : taken (log ++ log') = taken log ++ taken log' := by simp [taken]

@[simp] lemma uploaded_nil : uploaded [] = [] := rfl

@[simp] lemma uploaded_cons : uploaded (a :: log) = a.upload ++ uploaded log := by simp [uploaded]

@[simp] lemma uploaded_append : uploaded (log ++ log') = uploaded log ++ uploaded log' := by
  simp [uploaded]

@[simp] lemma lost_cons : lost (a :: log) = a.lost ++ lost log := by simp [lost]

lemma uploaded_sublist : (uploaded log).Sublist (taken log) := by
  induction log with
  | nil => exact .slnil
  | cons a log ih =>
    rw [uploaded_cons, taken_cons]
    refine .append ?_ ih
    cases a with
    | forward bytes => exact List.Sublist.refl bytes
    | _ => exact List.nil_sublist _

lemma length_taken : (taken log).length = (uploaded log).length + (lost log).length := by
  induction log with
  | nil => rfl
  | cons a log ih =>
    have ha : a.taken.length = a.upload.length + a.lost.length := by
      cases a <;> simp [Action.taken, Action.upload, Action.lost]
    simp only [taken_cons, uploaded_cons, lost_cons, List.length_append, ih, ha]
    omega

/-- The socket gets everything that is taken if no send fails. -/
lemma uploaded_eq_taken : uploaded log = taken log ↔ lost log = [] := by
  have hlength := length_taken log
  constructor
  · intro heq
    rw [heq] at hlength
    exact List.eq_nil_of_length_eq_zero (by omega)
  · intro hlost
    rw [hlost, List.length_nil, Nat.add_zero] at hlength
    exact (uploaded_sublist log).eq_of_length hlength.symm

end

/-! ### A turn of the loop -/

section

variable {c : Conn} {s : Segment} {rest : List Segment} {sent : ℕ} {action : Action}

/-- A turn takes the next bytes of the stream. -/
lemma Conn.IsTurn.takes (h : c.IsTurn s rest sent action) (hdest : c.dest ≠ 80)
    (hs : s.Holds stream) :
    action.taken = slice stream c.remoteSeq sent ∧ s.sent + sent ≤ s.len := by
  obtain ⟨data, hdata, hsent⟩ := h.action_eq
  have hrest : data = slice stream c.remoteSeq (s.len - s.sent) := by
    rw [hdata hdest, ← h.next, hs.data_eq, drop_slice]
  have hle := hs.sent_le
  rcases hsent with ⟨rfl, rfl⟩ | ⟨n, rfl, rfl⟩
  · exact ⟨hrest, by omega⟩
  · refine ⟨?_, by omega⟩
    rw [Action.taken, hrest, take_slice]

lemma Conn.IsTurn.remoteSeq_turn (h : c.IsTurn s rest sent action) :
    (c.turn s rest sent action).remoteSeq = c.remoteSeq + BitVec.ofNat 32 sent := by
  rw [Conn.turn, ← h.next, BitVec.ofNat_add, BitVec.add_assoc]

lemma Conn.IsTurn.queued (h : c.IsTurn s rest sent action) (hdest : c.dest ≠ 80)
    (hc : c.Queued stream) : (c.turn s rest sent action).Queued stream := by
  simp only [Queued, h.forward_eq, List.forall_mem_cons] at hc
  obtain ⟨hs, hrest⟩ := hc
  simp only [Queued, Conn.turn]
  split_ifs with hall
  · exact hrest
  · rw [List.forall_mem_cons]
    exact ⟨⟨hs.data_eq, (h.takes hdest hs).2⟩, hrest⟩

end

variable {c c' : Conn}

theorem Does.queued (h : Does P c c') (hP : ∀ p, P p → p.Carries stream) (hdest : c.dest ≠ 80)
    (hc : c.Queued stream) : c'.Queued stream := by
  cases h with
  | quiet | named | window | notice | shut | connect | discard | connected | establish | ackAll
  | ackPart | finWaits | sendFin | close | closed => exact hc
  | refuse | turnAway => simpa [Queued, writeRst_eq] using hc
  | synAck => simpa [Queued, writeSynAck, writeOrClose_eq] using hc
  | fin | lastFin => simpa [Queued, writeAck, writeOrClose_eq] using hc
  | data => simpa [Queued, writeData, writeOrClose_eq] using hc
  | queue p hp hqueues =>
    rw [queueTcp_eq]
    by_cases hold : compareU32 p.seq c.remoteSeq < 0
    · simpa only [Queued, if_pos hold] using hc
    · simp only [Queued, if_neg hold]
      have hdata := hP p hp
      refine forall_mem_insertSegment hc ⟨hdata, Nat.zero_le _⟩ fun s hs hseq hlt => ?_
      exact ⟨by rw [hseq]; exact hdata, (hc s hs).sent_le.trans hlt.le⟩
  | turn s rest sent action h => exact h.queued hdest hc
  | lastTurn s sent action h hall hstate => exact h.queued hdest hc

/-! ### The end of the stream -/

/-- The client has said that nothing more comes, and nothing waits. -/
structure Conn.Ended (c : Conn) : Prop where
  forward_eq : c.forward = []
  phase : 3 ≤ c.state.phase
  state_ne : c.state ≠ .FIN_WAIT1
  connected : c.Connected

/-- What Does not keep by itself: the socket of the state, and no data behind a `FIN` of the proxy.
-/
structure Conn.Regular (c : Conn) : Prop where
  early : c.Early
  holds : c.HoldsSocket
  finWait : c.state = .FIN_WAIT1 → c.forward = []

lemma Conn.Regular.not_queues (hc : c.Regular) (hconnected : c.Connected)
    (hphase : 3 ≤ c.state.phase)
    : ¬ c.Queues := by
  rintro (⟨hdest, hne⟩ | ⟨hclosing, hclose, hwait, hsocket⟩)
  · exact hne (hconnected hdest)
  · have hholds := hc.holds
    cases hstate : c.state <;> simp_all [TcpState.phase, HoldsSocket]

lemma Conn.Early.connected (hc : c.Early) (h1 : 1 < c.state.phase) (h5 : c.state.phase ≠ 5) :
    c.Connected := fun hdest => hc.established hdest h1 h5

theorem Does.regular (h : Does P c c') (hc : c.Regular) : c'.Regular := by
  refine ⟨h.early hc.early, h.holdsSocket hc.holds, ?_⟩
  cases h with
  | quiet | named | window | notice | discard | ackAll | ackPart | close => exact hc.finWait
  | shut | connect | connected | establish | finWaits | closed =>
    exact fun h => TcpState.noConfusion h
  | refuse ok hstate | turnAway reply ok hstate => simp [writeRst_eq, hstate]
  | synAck ok => cases ok <;> exact fun h => TcpState.noConfusion h
  | fin ok | lastFin ok => cases ok <;> exact fun h => TcpState.noConfusion h
  | queue p hp hqueues =>
    rw [queueTcp_eq]
    intro hstate
    have hphase : c.state.phase = 4 := by
      have : c.state = .FIN_WAIT1 := hstate
      rw [this]
      rfl
    exact absurd hqueues
      (hc.not_queues (hc.early.connected (by omega) (by omega)) (by omega))
  | turn s rest sent action hturn =>
    intro hstate
    have hnil := hc.finWait hstate
    rw [hturn.forward_eq] at hnil
    cases hnil
  | lastTurn s sent action hturn hall hwait =>
    intro hstate
    have : c.state = .FIN_WAIT1 := hstate
    rw [hwait] at this
    cases this
  | sendFin socket hstate hforward => exact fun _ => hforward
  | data bytes ok hstate =>
    intro hfin
    rw [writeData, writeOrClose_eq] at hfin
    cases ok with
    | true => rcases hstate with hstate | hstate <;> simp [hstate] at hfin
    | false => simp at hfin

/-- Behind the end nothing is taken into the queue. -/
theorem Does.ended (h : Does P c c') (hc : c.Regular) (hend : c.Ended) : c'.Ended := by
  obtain ⟨hforward, hphase, hne, hconnected⟩ := hend
  cases h with
  | quiet | named | window | notice | ackAll | ackPart | close =>
    exact ⟨hforward, hphase, hne, hconnected⟩
  | shut | closed =>
    exact ⟨hforward, by simp [TcpState.phase], TcpState.noConfusion, hconnected⟩
  | refuse ok hstate | turnAway reply ok hstate | synAck ok hstate | discard bytes hstate
  | connected hstate | establish hstate | fin ok hstate | finWaits hstate =>
    simp [hstate, TcpState.phase] at hphase
  | connect hdest hsent => simp [hconnected hdest] at hsent
  | queue p hp hqueues => exact absurd hqueues (hc.not_queues hconnected hphase)
  | lastFin ok hstate => exact absurd hstate hne
  | turn s rest sent action hturn =>
    rw [hturn.forward_eq] at hforward
    cases hforward
  | lastTurn s sent action hturn =>
    rw [hturn.forward_eq] at hforward
    cases hforward
  | sendFin socket hstate =>
    rcases hstate with hstate | hstate
    · simp [hstate, TcpState.phase] at hphase
    · exact ⟨hforward, by simp [hstate, TcpState.phase], by simp [hstate], hconnected⟩
  | data bytes ok hstate =>
    rw [writeData, writeOrClose_eq]
    cases ok with
    | true => exact ⟨hforward, hphase, hne, hconnected⟩
    | false => exact ⟨hforward, by simp [TcpState.phase], TcpState.noConfusion, hconnected⟩

/-! ### The stream -/

/-- The stream has been taken from `base` on, behind what had been taken before. What has been
confirmed to the client is that and no more, but for the `FIN`. -/
def Conn.Uploads (stream : BitVec 32 → Byte) (base : BitVec 32) (before : List Byte) (c : Conn) :
    Prop :=
  ∃ n, taken c.log = before ++ slice stream base n ∧
    (c.remoteSeq = base + BitVec.ofNat 32 n ∨
      c.remoteSeq = base + BitVec.ofNat 32 (n + 1) ∧ c.Ended)

section

variable {base : BitVec 32} {before : List Byte} {s : Segment} {rest : List Segment} {sent : ℕ}
  {action : Action}

namespace Conn.Uploads

lemma quiet (hc : c.Uploads stream base before) (hlog : taken c'.log = taken c.log)
    (hseq : c'.remoteSeq = c.remoteSeq) (hend : c.Ended → c'.Ended) :
    c'.Uploads stream base before := by
  obtain ⟨n, hn, hremote⟩ := hc
  rw [Uploads, hlog, hseq]
  exact ⟨n, hn, hremote.imp_right fun h => ⟨h.1, hend h.2⟩⟩

/-- As long as the stream goes on. -/
lemma going (hc : c.Uploads stream base before) (hgoing : ¬ c.Ended) :
    ∃ n, taken c.log = before ++ slice stream base n ∧
      c.remoteSeq = base + BitVec.ofNat 32 n := by
  obtain ⟨n, hn, hremote | ⟨-, hend⟩⟩ := hc
  · exact ⟨n, hn, hremote⟩
  · exact absurd hend hgoing

/-- The `FIN` of the client. -/
lemma finish {n : ℕ} (hn : taken c.log = before ++ slice stream base n)
    (hremote : c.remoteSeq = base + BitVec.ofNat 32 n) (hlog : taken c'.log = taken c.log)
    (hseq : c'.remoteSeq = c.remoteSeq + 1) (hend : c'.Ended) : c'.Uploads stream base before := by
  refine ⟨n, hlog ▸ hn, .inr ⟨?_, hend⟩⟩
  rw [hseq, hremote, BitVec.ofNat_add, ← BitVec.add_assoc]
  rfl

lemma turn (hc : c.Uploads stream base before) (hgoing : ¬ c.Ended)
    (h : c.IsTurn s rest sent action) (hport : c.dest ≠ 80) (hs : s.Holds stream) :
    ∃ n, taken (c.turn s rest sent action).log = before ++ slice stream base n ∧
      (c.turn s rest sent action).remoteSeq = base + BitVec.ofNat 32 n := by
  obtain ⟨n, hn, hremote⟩ := hc.going hgoing
  refine ⟨n + sent, ?_, ?_⟩
  · have htaken := (h.takes hport hs).1
    rw [hremote] at htaken
    simp [Conn.turn, did, hn, htaken, slice_add]
  · rw [h.remoteSeq_turn, hremote, BitVec.ofNat_add, BitVec.add_assoc]

end Conn.Uploads

lemma Conn.IsTurn.not_ended (h : c.IsTurn s rest sent action) : ¬ c.Ended := fun hend => by
  have hnil := hend.forward_eq
  rw [h.forward_eq] at hnil
  cases hnil

lemma Conn.IsTurn.holds (h : c.IsTurn s rest sent action) (hc : c.Queued stream) : s.Holds stream :=
  hc s (by rw [h.forward_eq]; exact List.mem_cons_self)

theorem Does.uploads (h : Does P c c') (hport : c.dest ≠ 80) (hqueued : c.Queued stream)
    (hreg : c.Regular) (hasked : c.Asked) (hphase : 1 ≤ c.state.phase)
    (hc : c.Uploads stream base before) : c'.Uploads stream base before := by
  have hended : c.Ended → c'.Ended := h.ended hreg
  cases h with
  | quiet | named | window | shut | connected | establish | ackAll | ackPart | finWaits | closed =>
    exact hc.quiet rfl rfl hended
  | notice q ok hq => exact hc.quiet (by simp [Action.taken]) rfl hended
  | refuse ok hstate | turnAway reply ok hstate | synAck ok hstate | discard bytes hstate =>
    simp [hstate, TcpState.phase] at hphase
  | connect hdest hsent => exact absurd hsent (hasked hdest)
  | queue p hp hqueues =>
    rw [queueTcp_eq] at hended ⊢
    exact hc.quiet rfl rfl hended
  | fin ok hstate hforward =>
    have hconnected : c.Connected := fun hdest => hreg.early.established_of_open hdest (.inl hstate)
    have hgoing : ¬ c.Ended := fun hend => by simpa [hstate, TcpState.phase] using hend.phase
    rw [writeAck, writeOrClose_eq]
    obtain ⟨n, hn, hremote⟩ := hc.going hgoing
    refine .finish hn hremote (by simp [Action.taken]) rfl ⟨hforward, ?_, ?_, hconnected⟩
    · cases ok <;> simp [TcpState.phase]
    · cases ok <;> exact TcpState.noConfusion
  | lastFin ok hstate =>
    have hconnected : c.Connected :=
      hreg.early.connected (by simp [hstate, TcpState.phase]) (by simp [hstate, TcpState.phase])
    rw [writeAck, writeOrClose_eq]
    obtain ⟨n, hn, hremote⟩ := hc.going fun hend => hend.state_ne hstate
    refine .finish hn hremote (by simp [Action.taken]) rfl
      ⟨hreg.finWait hstate, ?_, ?_, hconnected⟩
    · cases ok <;> simp [TcpState.phase]
    · cases ok <;> exact TcpState.noConfusion
  | turn s rest sent action hturn =>
    obtain ⟨n, hn, hremote⟩ := hc.turn hturn.not_ended hturn hport (hturn.holds hqueued)
    exact ⟨n, hn, .inl hremote⟩
  | lastTurn s sent action hturn hall hwait =>
    have hconnected : c.Connected := fun hdest => hreg.early.established_of_open hdest (.inr hwait)
    obtain ⟨n, hn, hremote⟩ := hc.turn hturn.not_ended hturn hport (hturn.holds hqueued)
    refine .finish hn hremote rfl rfl ⟨by simp [Conn.turn, hall], ?_, ?_, hconnected⟩
    · simp [Conn.turn, did, hwait, TcpState.phase]
    · simp [Conn.turn, did, hwait]
  | sendFin socket hstate =>
    exact hc.quiet (by simp [writeFinAck, writeOrClose_eq, Action.taken]) rfl hended
  | close socket hstate => exact hc.quiet (by simp [Action.taken]) rfl hended
  | data bytes ok hstate =>
    refine hc.quiet ?_ ?_ hended <;> simp [writeData, writeOrClose_eq, Action.taken]

end

/-! ### From the first packet on -/

/-- A session that listens has taken nothing. The number of the `SYN` is counted when it stops.
-/
def Conn.Starts (stream : BitVec 32 → Byte) (start : BitVec 32) (c : Conn) : Prop :=
  c.state = .LISTEN ∧ taken c.log = [] ∧ c.remoteSeq = start ∨
    1 ≤ c.state.phase ∧ ∃ k ≤ 1, (c.state.phase < 5 → k = 1) ∧
      c.Uploads stream (start + BitVec.ofNat 32 k) []

variable {start : BitVec 32}

lemma Conn.Uploads.none (hlog : taken c.log = []) (hremote : c.remoteSeq = start) :
    c.Uploads stream start [] :=
  ⟨0, by simp [hlog], .inl (by simp [hremote])⟩

theorem Does.starts (h : Does P c c') (h80 : c.dest ≠ 80) (h443 : c.dest ≠ 443)
    (hqueued : c.Queued stream) (hreg : c.Regular) (honce : c.OpensOnce)
    (hc : c.Starts stream start) : c'.Starts stream start := by
  have hasked : c.Asked := fun hdest => absurd hdest h443
  have hphase := h.phase_le hasked
  rcases hc with ⟨hlisten, hlog, hremote⟩ | ⟨hlisten, k, hk, hk1, huploads⟩
  swap
  · exact .inr ⟨hlisten.trans hphase, k, hk, fun hlt => hk1 (hphase.trans_lt hlt),
      h.uploads h80 hqueued hreg hasked hlisten huploads⟩
  · cases h with
    | quiet | named | window | ackAll | ackPart => exact .inl ⟨hlisten, hlog, hremote⟩
    | notice q ok hq => exact .inl ⟨hlisten, by simp [hlog, Action.taken], hremote⟩
    | queue p hp hqueues =>
      rw [queueTcp_eq]
      exact .inl ⟨hlisten, hlog, hremote⟩
    | shut =>
      refine .inr ⟨by simp [TcpState.phase], 0, zero_le_one, fun hlt => ?_,
        .none hlog (by simp [hremote])⟩
      simp [TcpState.phase] at hlt
    | refuse ok hstate | turnAway reply ok hstate =>
      rw [writeRst_eq]
      refine .inr ⟨by simp [hstate, TcpState.phase], 1, le_rfl, fun _ => rfl,
        .none ?_ (by simp [hstate, hremote])⟩
      simp [hlog, Action.taken]
    | synAck ok hstate =>
      refine .inr ⟨by cases ok <;> simp [TcpState.phase], 1, le_rfl, fun _ => rfl, .none ?_ ?_⟩
      · simp [writeSynAck, writeOrClose_eq, hlog, Action.taken]
      · simp [writeSynAck, writeOrClose_eq, hremote]
    | connect hdest => exact absurd hdest h443
    | discard bytes hstate hsent | connected hstate hsent =>
      exact absurd hsent (honce.not_sent h443)
    | turn s rest sent action hturn => exact absurd hlisten hturn.state_ne
    | lastTurn s sent action hturn => exact absurd hlisten hturn.state_ne
    | establish hstate | fin ok hstate | finWaits hstate | lastFin ok hstate
    | close socket hstate | closed hstate =>
      rw [hstate] at hlisten
      cases hlisten
    | sendFin socket hstate | data bytes ok hstate => simp [hlisten] at hstate

variable {signedChar : Bool} {p : Incoming} {mss : BitVec 16} {ws : BitVec 8} {rand : BitVec 32}
  {now : ℤ} {socket : ℕ} {buffer : SendBuffer}

lemma Conn.regular_new : (new p mss ws rand now socket buffer).Regular :=
  ⟨fun _ _ => .inl (Nat.zero_le 1), Option.some_ne_none socket, fun h => TcpState.noConfusion h⟩

lemma Conn.queued_new (hp : p.Carries stream) :
    (new p mss ws rand now socket buffer).Queued stream := by
  simp only [Queued, new]
  split_ifs
  · rw [List.forall_mem_singleton]
    exact ⟨hp, Nat.zero_le _⟩
  · simp

/-- What holds of a session whose client sends parts of the stream. -/
structure Conn.Orderly (stream : BitVec 32 → Byte) (port : BitVec 16) (c : Conn) : Prop where
  dest_eq : c.dest = port
  queued : c.Queued stream
  regular : c.Regular
  once : c.OpensOnce

lemma Conn.orderly_new (hp : p.Carries stream) :
    (new p mss ws rand now socket buffer).Orderly stream p.dest :=
  ⟨rfl, queued_new hp, regular_new, opensOnce_new⟩

lemma Does.orderly {port : BitVec 16} (h : Does P c c') (hP : ∀ q, P q → q.Carries stream)
    (h80 : port ≠ 80) (hc : c.Orderly stream port) : c'.Orderly stream port :=
  ⟨h.dest_eq.trans hc.dest_eq, h.queued hP (hc.dest_eq ▸ h80) hc.queued, h.regular hc.regular,
    h.opensOnce hc.once⟩

lemma Does.log_prefix (h : Does P c c') : c.log <+: c'.log := by
  cases h with
  | quiet | named | window | shut | connected | establish | ackAll | ackPart | finWaits
  | closed => exact List.prefix_rfl
  | queue p hp h =>
    rw [queueTcp_eq]
  | notice | connect | discard | turn | lastTurn | close => exact List.prefix_append _ _
  | refuse ok hstate =>
    rw [writeRst_eq]
    exact List.prefix_append _ _
  | synAck | fin | lastFin =>
    simp only [writeSynAck, writeAck, writeOrClose_eq]
    exact List.prefix_append _ _
  | turnAway reply ok hstate =>
    rw [writeRst_eq]
    exact (List.prefix_append _ _).trans (List.prefix_append _ _)
  | sendFin | data =>
    simp only [writeFinAck, writeData, writeOrClose_eq]
    exact (List.prefix_append _ _).trans (List.prefix_append _ _)

/-- From any state of an open session on, the stream is taken from the next byte on. The socket gets
all of it if no send fails, and else what is left without the bytes of the failed ones. -/
theorem Conn.uploads_stream {c₀ : Conn} (hP : ∀ q, P q → q.Carries stream) (hp : p.Carries stream)
    (h80 : p.dest ≠ 80)
    (h₀ : Reaches (step signedChar) (Admits P) (new p mss ws rand now socket buffer) c₀)
    (hasked : c₀.Asked) (hstate : c₀.state = .SYN_RECV ∨ c₀.state = .ESTABLISHED)
    (h : Reaches (step signedChar) (Admits P) c₀ c) :
    ∃ log n, c.log = c₀.log ++ log ∧ taken log = slice stream c₀.remoteSeq n ∧
      (c.remoteSeq = c₀.remoteSeq + BitVec.ofNat 32 n ∨
        c.remoteSeq = c₀.remoteSeq + BitVec.ofNat 32 (n + 1) ∧ c.forward = []) ∧
      (uploaded log = slice stream c₀.remoteSeq n ↔ lost log = []) ∧
      (uploaded log).Sublist (slice stream c₀.remoteSeq n) := by
  have horderly₀ : c₀.Orderly stream p.dest :=
    keeps_of_reaches (fun _ _ hdoes hI => hdoes.orderly hP h80 hI) h₀ (orderly_new hp)
  have hphase₀ : 1 ≤ c₀.state.phase := by
    rcases hstate with hstate | hstate <;> simp [hstate, TcpState.phase]
  have huploads₀ : c₀.Uploads stream c₀.remoteSeq (taken c₀.log) :=
    ⟨0, by simp, .inl (by simp)⟩
  obtain ⟨-, -, -, n, hn, hremote⟩ := keeps_of_reaches
    (I := fun c => c.Orderly stream p.dest ∧ c.Asked ∧ 1 ≤ c.state.phase ∧
      c.Uploads stream c₀.remoteSeq (taken c₀.log))
    (fun _ _ hdoes hI => ⟨hdoes.orderly hP h80 hI.1, hdoes.asked hI.2.1,
      hI.2.2.1.trans (hdoes.phase_le hI.2.1),
      hdoes.uploads (hI.1.dest_eq ▸ h80) hI.1.queued hI.1.regular hI.2.1 hI.2.2.1 hI.2.2.2⟩)
    h ⟨horderly₀, hasked, hphase₀, huploads₀⟩
  obtain ⟨log, hlog⟩ := keeps_of_reaches (I := fun c => c₀.log <+: c.log)
    (fun _ _ hdoes hprefix => hprefix.trans hdoes.log_prefix) h List.prefix_rfl
  have htaken : taken log = slice stream c₀.remoteSeq n := by
    rw [← hlog, taken_append] at hn
    exact List.append_cancel_left hn
  refine ⟨log, n, hlog.symm, htaken, hremote.imp_right fun h => ⟨h.1, h.2.forward_eq⟩, ?_, ?_⟩
  · rw [← htaken, uploaded_eq_taken]
  · exact htaken ▸ uploaded_sublist log

/-- The stream of a client whose first bytes, behind the `SYN`, are 5 and 6. -/
def fiveSix (number : BitVec 32) : Byte := if number = 101 then 5 else 6

lemma Conn.carries_fiveSix {q : Incoming}
    (h : q = .plain 8080 100 0 true false ∨ q = .plain 8080 101 501 false true ∨ q = carrying) :
    q.Carries fiveSix := by
  rcases h with rfl | rfl | rfl <;> rfl

theorem Conn.uploads_stream_exchanged :
    ∃ log n, exchanged.log = opened.log ++ log ∧ taken log = slice fiveSix opened.remoteSeq n ∧
      (exchanged.remoteSeq = opened.remoteSeq + BitVec.ofNat 32 n ∨
        exchanged.remoteSeq = opened.remoteSeq + BitVec.ofNat 32 (n + 1) ∧
          exchanged.forward = []) ∧
      (uploaded log = slice fiveSix opened.remoteSeq n ↔ lost log = []) ∧
      (uploaded log).Sublist (slice fiveSix opened.remoteSeq n) :=
  uploads_stream (fun _ h => carries_fiveSix h) (carries_fiveSix (.inl rfl)) (by decide)
    (reaches_opened (.inr (.inl rfl))) (fun h => absurd h (by decide)) (.inr rfl)
    (reaches_exchanged (.inr (.inr rfl)))

/-- A session that the proxy passes on as it is: the stream is taken from its first byte on, which
is the one behind the `SYN` as long as the session is open. -/
theorem Conn.uploads_from_first (hP : ∀ q, P q → q.Carries stream) (hp : p.Carries stream)
    (h80 : p.dest ≠ 80) (h443 : p.dest ≠ 443)
    (h : Reaches (step signedChar) (Admits P) (new p mss ws rand now socket buffer) c) :
    ∃ k ≤ 1, ∃ n, taken c.log = slice stream (p.seq + BitVec.ofNat 32 k) n ∧
      (c.remoteSeq = p.seq + BitVec.ofNat 32 (k + n) ∨
        c.remoteSeq = p.seq + BitVec.ofNat 32 (k + n + 1) ∧ c.forward = []) ∧
      (c.state ∈ [.SYN_RECV, .ESTABLISHED, .CLOSE_WAIT, .FIN_WAIT1, .LAST_ACK] → k = 1) ∧
      (uploaded c.log = slice stream (p.seq + BitVec.ofNat 32 k) n ↔ lost c.log = []) ∧
      (uploaded c.log).Sublist (slice stream (p.seq + BitVec.ofNat 32 k) n) := by
  have hnew : (new p mss ws rand now socket buffer).Starts stream p.seq := .inl ⟨rfl, rfl, rfl⟩
  obtain ⟨-, hstarts⟩ := keeps_of_reaches
    (I := fun c => c.Orderly stream p.dest ∧ c.Starts stream p.seq)
    (fun _ _ hdoes hI => ⟨hdoes.orderly hP h80 hI.1, hdoes.starts (hI.1.dest_eq ▸ h80)
      (hI.1.dest_eq ▸ h443) hI.1.queued hI.1.regular hI.1.once hI.2⟩) h ⟨orderly_new hp, hnew⟩
  obtain ⟨k, hk, n, hn, hremote, hk1⟩ : ∃ k ≤ 1, ∃ n,
      taken c.log = slice stream (p.seq + BitVec.ofNat 32 k) n ∧
      (c.remoteSeq = p.seq + BitVec.ofNat 32 (k + n) ∨
        c.remoteSeq = p.seq + BitVec.ofNat 32 (k + n + 1) ∧ c.forward = []) ∧
      (c.state ∈ [.SYN_RECV, .ESTABLISHED, .CLOSE_WAIT, .FIN_WAIT1, .LAST_ACK] → k = 1) := by
    rcases hstarts with ⟨hlisten, hlog, hremote⟩ | ⟨-, k, hk, hk1, n, hn, hremote⟩
    · exact ⟨0, zero_le_one, 0, by simp [hlog], .inl (by simp [hremote]), by simp [hlisten]⟩
    · refine ⟨k, hk, n, hn, ?_, fun hstate => hk1 ?_⟩
      · rw [Nat.add_assoc, BitVec.ofNat_add, BitVec.ofNat_add (x := k), ← BitVec.add_assoc,
          ← BitVec.add_assoc]
        exact hremote.imp_right fun h => ⟨h.1, h.2.forward_eq⟩
      · cases hc : c.state <;> simp_all [TcpState.phase]
  refine ⟨k, hk, n, hn, hremote, hk1, ?_, ?_⟩
  · rw [← hn, uploaded_eq_taken]
  · exact hn ▸ uploaded_sublist c.log

theorem Conn.uploads_from_first_exchanged :
    ∃ k ≤ 1, ∃ n, taken exchanged.log = slice fiveSix (100 + BitVec.ofNat 32 k) n ∧
      (exchanged.remoteSeq = 100 + BitVec.ofNat 32 (k + n) ∨
        exchanged.remoteSeq = 100 + BitVec.ofNat 32 (k + n + 1) ∧ exchanged.forward = []) ∧
      (exchanged.state ∈ [.SYN_RECV, .ESTABLISHED, .CLOSE_WAIT, .FIN_WAIT1, .LAST_ACK] → k = 1) ∧
      (uploaded exchanged.log = slice fiveSix (100 + BitVec.ofNat 32 k) n ↔
        lost exchanged.log = []) ∧
      (uploaded exchanged.log).Sublist (slice fiveSix (100 + BitVec.ofNat 32 k) n) :=
  uploads_from_first (fun _ h => carries_fiveSix h) (carries_fiveSix (.inl rfl)) (by decide)
    (by decide) ((reaches_opened (.inr (.inl rfl))).trans (reaches_exchanged (.inr (.inr rfl))))

end Violet.Tun2Http
