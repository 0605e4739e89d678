import Violet.Tun2Http.TcpUpload
import Mathlib.Data.List.Sort

/-!
# Segments out of order

The queue puts the segments of a stream back into their order. However they come, and however often,
once each has come the queue holds the whole stream, and a socket that takes it gets it at once.
That rests on the order of the numbers: the sign must not change within the stream.
-/

namespace Violet.Tun2Http

open Wire Conn

/-! ### The order of numbers with one sign -/

lemma toInt_sub_of_near {x y : BitVec 32} (h : x.toInt < y.toInt)
    (hnear : y.toInt - x.toInt < 2 ^ 31) :
    (y - x).toInt = y.toInt - x.toInt := by
  have hx := x.isLt
  have hy := y.isLt
  rw [BitVec.toInt_sub, Int.bmod_eq_of_le] <;> omega

lemma compareU32_neg_iff_of_range {x y : BitVec 32} (hnear : y.toInt - x.toInt < 2 ^ 31 - 1) :
    compareU32 x y < 0 ↔ x.toInt < y.toInt := by
  rw [compareU32_neg_iff]
  refine and_iff_left_of_imp fun hlt heq => ?_
  have hsub := toInt_sub_of_near hlt (by omega)
  rw [heq] at hsub
  have : (0x7FFFFFFF#32).toInt = 2 ^ 31 - 1 := by decide
  omega

lemma compareU32_pos_iff_of_range {x y : BitVec 32} (hnear : y.toInt - x.toInt < 2 ^ 31 - 1) :
    compareU32 x y > 0 ↔ y.toInt < x.toInt := by
  rw [gt_iff_lt, ← not_le, compareU32_nonpos_iff, ← compareU32_neg_iff,
    compareU32_neg_iff_of_range hnear, ← BitVec.toInt_inj]
  omega

/-! ### The pieces of a stream -/

/-- The pieces one behind the other, each with its number. -/
def tiles (start : BitVec 32) : List (List Byte) → List (BitVec 32 × List Byte)
  | [] => []
  | piece :: pieces => (start, piece) :: tiles (start + BitVec.ofNat 32 piece.length) pieces

def Segment.tile (s : Segment) : BitVec 32 × List Byte := (s.seq, s.data)

def Incoming.tile (p : Incoming) : BitVec 32 × List Byte := (p.seq, p.data)

/-- No piece is empty, and the sign does not change from the first byte to the end. -/
structure Straight (start : BitVec 32) (pieces : List (List Byte)) : Prop where
  ne_nil : ∀ piece ∈ pieces, piece ≠ []
  one_sign : start.toInt + pieces.flatten.length < 2 ^ 31
  short : pieces.flatten.length < 2 ^ 31 - 1

section

variable {start : BitVec 32} {piece : List Byte} {pieces : List (List Byte)}

lemma toInt_add_of_one_sign {n : ℕ} (h : start.toInt + n < 2 ^ 31) :
    (start + BitVec.ofNat 32 n).toInt = start.toInt + n := by
  have hstart := start.isLt
  rw [BitVec.toInt_eq_toNat_cond] at h ⊢
  rw [BitVec.toInt_eq_toNat_cond, BitVec.toNat_add, BitVec.toNat_ofNat]
  split_ifs at h ⊢ <;> omega

lemma Straight.tail (h : Straight start (piece :: pieces)) :
    Straight (start + BitVec.ofNat 32 piece.length) pieces := by
  obtain ⟨hne, hsign, hshort⟩ := h
  rw [List.flatten_cons, List.length_append] at hsign hshort
  push_cast at hsign
  refine ⟨fun q hq => hne q (List.mem_cons_of_mem _ hq), ?_, by omega⟩
  rw [toInt_add_of_one_sign (by omega)]
  omega

lemma Straight.range (h : Straight start pieces) {t : BitVec 32 × List Byte}
    (ht : t ∈ tiles start pieces) :
    start.toInt ≤ t.1.toInt ∧ t.1.toInt < start.toInt + pieces.flatten.length := by
  induction pieces generalizing start with
  | nil => cases ht
  | cons piece pieces ih =>
    have hpos := List.length_pos_iff.mpr (h.ne_nil piece List.mem_cons_self)
    have hsign := h.one_sign
    rw [List.flatten_cons, List.length_append] at hsign ⊢
    push_cast at hsign ⊢
    rcases List.mem_cons.mp ht with rfl | ht
    · dsimp only
      omega
    · have := ih h.tail ht
      rw [toInt_add_of_one_sign (by omega)] at this
      omega

/-- The pieces are in the order of their numbers. -/
lemma Straight.pairwise (h : Straight start pieces) :
    (tiles start pieces).Pairwise fun t t' => t.1.toInt < t'.1.toInt := by
  induction pieces generalizing start with
  | nil => exact .nil
  | cons piece pieces ih =>
    refine List.pairwise_cons.mpr ⟨fun t ht => ?_, ih h.tail⟩
    have hpos := List.length_pos_iff.mpr (h.ne_nil piece List.mem_cons_self)
    have hsign := h.one_sign
    rw [List.flatten_cons, List.length_append] at hsign
    push_cast at hsign
    have := (h.tail.range ht).1
    rw [toInt_add_of_one_sign (by omega)] at this
    simp only
    omega

lemma Straight.compare (h : Straight start pieces) {t t' : BitVec 32 × List Byte}
    (ht : t ∈ tiles start pieces) (ht' : t' ∈ tiles start pieces) :
    (compareU32 t.1 t'.1 < 0 ↔ t.1.toInt < t'.1.toInt) ∧
      (compareU32 t.1 t'.1 > 0 ↔ t'.1.toInt < t.1.toInt) := by
  have hrange := h.range ht
  have hrange' := h.range ht'
  have hshort := h.short
  exact ⟨compareU32_neg_iff_of_range (by omega), compareU32_pos_iff_of_range (by omega)⟩

end

/-! ### The queue -/

/-- The queue holds some of the pieces, in their order, and nothing of them has been sent. -/
structure Waits (all : List (BitVec 32 × List Byte)) (queue : List Segment) : Prop where
  sorted : queue.Pairwise fun s s' => s.seq.toInt < s'.seq.toInt
  mem : ∀ s ∈ queue, s.tile ∈ all
  unsent : ∀ s ∈ queue, s.sent = 0

section

variable {start : BitVec 32} {pieces : List (List Byte)} {queue : List Segment}

/-- A piece is known by its number. -/
lemma Straight.eq_of_seq (h : Straight start pieces) {t t' : BitVec 32 × List Byte}
    (ht : t ∈ tiles start pieces) (ht' : t' ∈ tiles start pieces) (heq : t.1 = t'.1) : t = t' := by
  have hnodup : ((tiles start pieces).map Prod.fst).Nodup :=
    List.pairwise_map.mpr (h.pairwise.imp fun hlt heq => by simp [heq] at hlt)
  exact List.inj_on_of_nodup_map hnodup ht ht' heq

/-- A new piece takes its place in the queue; one that is there already changes nothing. -/
lemma Waits.insert (h : Straight start pieces) (hqueue : Waits (tiles start pieces) queue)
    {p : Incoming} (hp : p.tile ∈ tiles start pieces) :
    Waits (tiles start pieces) (insertSegment p.seq p.psh p.data queue) ∧
      ∀ t, t ∈ (insertSegment p.seq p.psh p.data queue).map Segment.tile ↔
        t = p.tile ∨ t ∈ queue.map Segment.tile := by
  induction queue with
  | nil =>
    refine ⟨⟨List.pairwise_singleton _ _, ?_, ?_⟩, ?_⟩
    · simpa [insertSegment, Segment.tile, Incoming.tile] using hp
    · simp [insertSegment]
    · simp [insertSegment, Segment.tile, Incoming.tile]
  | cons s rest ih =>
    obtain ⟨hsorted, hmem, hunsent⟩ := hqueue
    rw [List.pairwise_cons] at hsorted
    rw [List.forall_mem_cons] at hmem hunsent
    obtain ⟨hbefore, hbehind⟩ := h.compare hmem.1 hp
    rw [insertSegment]
    split_ifs with hlt hgt hless
    · obtain ⟨⟨hsorted', hmem', hunsent'⟩, hiff⟩ := ih ⟨hsorted.2, hmem.2, hunsent.2⟩
      refine ⟨⟨List.pairwise_cons.mpr ⟨fun s' hs' => ?_, hsorted'⟩,
        List.forall_mem_cons.mpr ⟨hmem.1, hmem'⟩,
        List.forall_mem_cons.mpr ⟨hunsent.1, hunsent'⟩⟩, ?_⟩
      · rcases (hiff s'.tile).mp (List.mem_map_of_mem hs') with heq | hold
        · rw [show s'.seq = p.seq from congrArg Prod.fst heq]
          exact hbefore.mp hlt
        · obtain ⟨s₀, hs₀, heq⟩ := List.mem_map.mp hold
          rw [show s'.seq = s₀.seq from congrArg Prod.fst heq.symm]
          exact hsorted.1 s₀ hs₀
      · intro t
        rw [List.map_cons, List.mem_cons, List.map_cons, List.mem_cons, hiff]
        tauto
    · have hfirst := hbehind.mp hgt
      refine ⟨⟨List.pairwise_cons.mpr ⟨List.forall_mem_cons.mpr ⟨hfirst, fun s' hs' =>
        hfirst.trans (hsorted.1 s' hs')⟩, List.pairwise_cons.mpr hsorted⟩, ?_, ?_⟩, ?_⟩
      · exact List.forall_mem_cons.mpr ⟨hp, List.forall_mem_cons.mpr hmem⟩
      · exact List.forall_mem_cons.mpr ⟨rfl, List.forall_mem_cons.mpr hunsent⟩
      · simp [Segment.tile, Incoming.tile]
    all_goals
      have hseq : s.seq = p.seq := compareU32_eq_zero.mp (by omega)
      have htile : s.tile = p.tile := h.eq_of_seq hmem.1 hp hseq
    · have hdata : s.data = p.data := congrArg Prod.snd htile
      rw [Segment.len, hdata] at hless
      exact absurd hless (lt_irrefl _)
    · refine ⟨⟨List.pairwise_cons.mpr hsorted, List.forall_mem_cons.mpr hmem,
        List.forall_mem_cons.mpr hunsent⟩, fun t => ?_⟩
      rw [← htile, List.map_cons, List.mem_cons]
      tauto

end

variable {start : BitVec 32} {pieces : List (List Byte)} {c : Conn}

/-- The queue after some of the packets. -/
lemma Waits.foldl (h : Straight start pieces) (hc : Waits (tiles start pieces) c.forward)
    (hremote : c.remoteSeq = start) {ps : List Incoming}
    (hps : ∀ p ∈ ps, p.tile ∈ tiles start pieces) :
    Waits (tiles start pieces) (ps.foldl queueTcp c).forward ∧
      (ps.foldl queueTcp c) = { c with forward := (ps.foldl queueTcp c).forward } ∧
      ∀ t, t ∈ (ps.foldl queueTcp c).forward.map Segment.tile ↔
        t ∈ ps.map Incoming.tile ∨ t ∈ c.forward.map Segment.tile := by
  induction ps generalizing c with
  | nil => exact ⟨hc, rfl, by simp⟩
  | cons p ps ih =>
    rw [List.forall_mem_cons] at hps
    have hrange := h.range hps.1
    have hnot : ¬ compareU32 p.seq c.remoteSeq < 0 := by
      rw [hremote, compareU32_neg_iff]
      have := hrange.1
      simp only [Incoming.tile] at this
      omega
    obtain ⟨hwaits, hiff⟩ := hc.insert h hps.1
    have hqueue : c.queueTcp p =
        { c with forward := insertSegment p.seq p.psh p.data c.forward } := by
      rw [queueTcp_eq, if_neg hnot]
    rw [List.foldl_cons, hqueue]
    obtain ⟨hwaits', heq, hiff'⟩ := ih (c := { c with
      forward := insertSegment p.seq p.psh p.data c.forward }) hwaits hremote hps.2
    refine ⟨hwaits', heq, fun t => ?_⟩
    rw [hiff', hiff, List.map_cons, List.mem_cons]
    tauto

/-- Once each piece has come, the queue holds the stream. -/
lemma Straight.queue_eq (h : Straight start pieces) (hc : c.forward = [])
    (hremote : c.remoteSeq = start)
    {ps : List Incoming} (hps : ∀ t, t ∈ ps.map Incoming.tile ↔ t ∈ tiles start pieces) :
    (ps.foldl queueTcp c).forward.map Segment.tile = tiles start pieces := by
  have hmem : ∀ p ∈ ps, p.tile ∈ tiles start pieces := fun p hp =>
    (hps p.tile).mp (List.mem_map_of_mem hp)
  have hwaits : Waits (tiles start pieces) c.forward := by
    rw [hc]
    exact ⟨.nil, by simp, by simp⟩
  obtain ⟨⟨hsorted, -, -⟩, -, hiff⟩ := hwaits.foldl h hremote hmem
  have hirrefl : Std.Irrefl fun t t' : BitVec 32 × List Byte => t.1.toInt < t'.1.toInt :=
    ⟨fun t => lt_irrefl t.1.toInt⟩
  have hantisymm : Std.Antisymm fun t t' : BitVec 32 × List Byte => t.1.toInt < t'.1.toInt :=
    ⟨fun t t' hlt hlt' => absurd hlt' hlt.asymm⟩
  refine List.Pairwise.eq_of_mem_iff (List.pairwise_map.mpr hsorted) h.pairwise fun t => ?_
  rw [hiff, hc, hps]
  simp

/-- A socket that takes everything gets all of them. -/
lemma forwardLoop_tiles (a : Answers) {queue : List Segment} (turn : ℕ) {bufferSize : ℕ}
    (fwd : Bool) (hqueue : queue.map Segment.tile = tiles start pieces)
    (hunsent : ∀ s ∈ queue, s.sent = 0)
    (hremote : c.remoteSeq = start) (h80 : c.dest ≠ 80)
    (hbuffer : pieces.flatten.length < bufferSize)
    (hsends : ∀ i, ∃ n, a.sends i = .accepted n ∧ pieces.flatten.length ≤ n) :
    ∃ c', forwardLoop a queue turn bufferSize fwd c = some (c', fwd || !pieces.isEmpty) ∧
      c'.forward = [] ∧ c'.remoteSeq = start + BitVec.ofNat 32 pieces.flatten.length ∧
      uploaded c'.log = uploaded c.log ++ pieces.flatten := by
  induction pieces generalizing start queue turn bufferSize fwd c with
  | nil =>
    obtain rfl : queue = [] := List.map_eq_nil_iff.mp hqueue
    exact ⟨{ c with forward := [] }, by simp [forwardLoop], rfl, by simp [hremote], by simp⟩
  | cons piece pieces ih =>
    obtain ⟨s, rest, rfl, htile, hrest⟩ := List.map_eq_cons_iff.mp hqueue
    obtain ⟨hseq, hdata⟩ : s.seq = start ∧ s.data = piece := Prod.mk.inj htile
    rw [List.forall_mem_cons] at hunsent
    simp only [List.flatten_cons, List.length_append] at hbuffer hsends ⊢
    obtain ⟨n, hn, hle⟩ := hsends turn
    have hlen : s.len = piece.length := congrArg List.length hdata
    have hmin : min n piece.length = piece.length := by omega
    have hnext : s.seq + BitVec.ofNat 32 s.sent = c.remoteSeq ∧ s.len - s.sent < bufferSize := by
      rw [hunsent.1, hseq, hremote, hlen]
      exact ⟨by simp, by omega⟩
    have hsend : sendSegment (a.sends turn) piece.length piece =
        (piece.length, .forward piece) := by
      rw [hn, sendSegment, hmin, List.take_of_length_le (by omega)]
    have hafter : (c.turn s rest piece.length (.forward piece)).remoteSeq =
        start + BitVec.ofNat 32 piece.length := by simp [Conn.turn, hseq, hunsent.1]
    have hroom : pieces.flatten.length < bufferSize - piece.length := by omega
    obtain ⟨c', hloop, hforward, hremote', hlog⟩ := ih (turn + 1) true hrest hunsent.2 hafter h80
      hroom (fun i => (hsends i).imp fun n hn => ⟨hn.1, by omega⟩)
    refine ⟨c', ?_, hforward, ?_, ?_⟩
    · rw [forwardLoop, if_pos hnext, toSend, if_neg h80, hunsent.1, hlen, hdata, Nat.sub_zero,
        List.drop_zero]
      simp [hsend, hloop]
    · rw [hremote', BitVec.add_assoc, ← BitVec.ofNat_add]
    · rw [hlog]
      simp [Conn.turn, Action.upload, List.append_assoc]

/-- The acknowledgement of what has been forwarded. -/
lemma acknowledge_forwarded {a : Answers} (hstate : c.state = .ESTABLISHED) :
    ∃ q, (c.acknowledge true a).log = c.log ++ [.write q a.ackOk] ∧
      (c.acknowledge true a).forward = c.forward ∧ q.ack = true ∧ q.ackSeq = c.remoteSeq := by
  refine ⟨({ c with recvWindow := getReceiveWindow c.toTcpSession a.behind } : Conn).packet [] false
    true false false, ?_, ?_, rfl, rfl⟩
  · cases hok : a.ackOk <;> simp [acknowledge, writeAck, writeOrClose_eq, hstate, hok]
  · cases hok : a.ackOk <;> simp [acknowledge, writeAck, writeOrClose_eq, hstate, hok]

/-- In whatever order the pieces come, and however often each: when the socket takes data again, it
gets the stream, and the client an acknowledgement of all of it. -/
theorem Conn.reassembles {a : Answers} {ps : List Incoming} (h : Straight start pieces)
    (hne : pieces ≠ []) (hstate : c.state = .ESTABLISHED) (h80 : c.dest ≠ 80) (hc : c.forward = [])
    (hremote : c.remoteSeq = start) (hps : ∀ t, t ∈ ps.map Incoming.tile ↔ t ∈ tiles start pieces)
    (hbuffer : pieces.flatten.length < getReceiveBuffer c.toTcpSession a.before)
    (hsends : ∀ i, ∃ n, a.sends i = .accepted n ∧ pieces.flatten.length ≤ n) :
    ∃ c' q, (ps.foldl queueTcp c).checkTcpSocket ⟨false, false, true⟩ a = some c' ∧
      uploaded c'.log = uploaded c.log ++ pieces.flatten ∧ c'.forward = [] ∧
      c'.log.getLast? = some (.write q a.ackOk) ∧ q.ack = true ∧
      q.ackSeq = start + BitVec.ofNat 32 pieces.flatten.length := by
  have hmem : ∀ p ∈ ps, p.tile ∈ tiles start pieces := fun p hp =>
    (hps p.tile).mp (List.mem_map_of_mem hp)
  have hwaits : Waits (tiles start pieces) c.forward := by
    rw [hc]
    exact ⟨.nil, by simp, by simp⟩
  obtain ⟨hwaits', heq, -⟩ := hwaits.foldl h hremote hmem
  have hqueue := h.queue_eq hc hremote hps
  generalize hfold : ps.foldl queueTcp c = c₁ at heq hqueue hwaits' ⊢
  have hdest : c₁.dest ≠ 80 := by
    rw [heq]
    exact h80
  have hstate' : c₁.state = .ESTABLISHED := by
    rw [heq]
    exact hstate
  have hremote' : c₁.remoteSeq = start := by
    rw [heq]
    exact hremote
  have hbuffer' : pieces.flatten.length < getReceiveBuffer c₁.toTcpSession a.before := by
    rw [heq]
    exact hbuffer
  have hlog : c₁.log = c.log := by rw [heq]
  obtain ⟨c₂, hloop, hforward, hremote₂, hupload⟩ := forwardLoop_tiles a 0 false hqueue
    hwaits'.unsent hremote' hdest hbuffer' hsends
  have hstate₂ : c₂.state = .ESTABLISHED := (state_forwardLoop hloop).trans hstate'
  have hsome : (!pieces.isEmpty) = true := by simpa using hne
  rw [hsome, Bool.or_true] at hloop
  obtain ⟨q, hack, hqueue₂, hq, hseq⟩ := acknowledge_forwarded (a := a) hstate₂
  refine ⟨c₂.acknowledge true a, q, ?_, ?_, hqueue₂.trans hforward, ?_, hq, hseq.trans hremote₂⟩
  · rw [checkTcpSocket, if_neg (by simp), if_neg (by simp [hstate']), if_pos rfl, hloop]
    simp [readSocket]
  · simp [hack, hupload, hlog, Action.upload]
  · simp [hack]

theorem Conn.reassembles_exchanged :
    let first : Incoming := { Incoming.plain 8080 101 501 false true with data := [1, 2] }
    let second : Incoming := { Incoming.plain 8080 103 501 false true with data := [3] }
    ∃ c' q, ([second, first, second].foldl queueTcp opened).checkTcpSocket ⟨false, false, true⟩
        .ready = some c' ∧
      uploaded c'.log = uploaded opened.log ++ [1, 2, 3] ∧ c'.forward = [] ∧
      c'.log.getLast? = some (.write q true) ∧ q.ack = true ∧
      q.ackSeq = 101 + BitVec.ofNat 32 3 := by
  intro first second
  have hsends : ∀ i, ∃ n, Answers.ready.sends i = .accepted n ∧ [[1, 2], [3]].flatten.length ≤ n :=
    fun i => ⟨1000, rfl, by decide⟩
  have htiles : ∀ t, t ∈ [second, first, second].map Incoming.tile ↔
      t ∈ tiles 101 [[1, 2], [3]] := by
    intro t
    change t ∈ [(103, [3]), (101, [1, 2]), (103, [3])] ↔ t ∈ [(101, [1, 2]), (103, [3])]
    simp only [List.mem_cons, List.not_mem_nil, or_false]
    tauto
  have hstraight : Straight 101 [[1, 2], [3]] := ⟨by decide, by decide, by decide⟩
  exact reassembles hstraight (by decide) rfl (by decide) rfl rfl htiles (by decide) hsends

end Violet.Tun2Http
