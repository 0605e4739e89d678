import Violet.Tun2Http.Ip

/-!
# Packets as a client writes them

A TCP packet with any options of IP and of TCP is read as what it was written from. A packet that
lies about the length of its headers is read far behind its end, and one with an option of no length
is never read to the end.
-/

namespace Violet.Tun2Http

open Transition Wire

/-! ### Options -/

/-- An option of a TCP header. -/
inductive TcpOption
  | nop
  | mss (n : BitVec 16)
  | scale (s : Byte)
  | other (kind : Byte) (body : List Byte) (four_le : 4 ≤ kind)
      (length_body : body.length + 2 < 2 ^ 8)

namespace TcpOption

def bytes : TcpOption → List Byte
  | nop => [1]
  | mss n => 2 :: 4 :: be16 n.toNat
  | scale s => [3, 3, s]
  | other kind body _ _ => kind :: BitVec.ofNat 8 (body.length + 2) :: body

/-- The greatest segment size and the window scale, once the option has been read. -/
def tell (t : BitVec 16 × Byte) : TcpOption → BitVec 16 × Byte
  | mss n => (n, t.2)
  | scale s => (t.1, s)
  | nop | other .. => t

variable {mem : ℕ → Byte} {pos optlen : ℕ} {t : BitVec 16 × Byte}

lemma length_bytes_pos (o : TcpOption) : 0 < o.bytes.length := by
  cases o <;> exact Nat.succ_pos _

lemma next_bytes (o : TcpOption) (h : Reads mem pos o.bytes) (hpos : 0 < optlen) :
    OptionsState.next mem ⟨pos, optlen, t.1, t.2⟩ =
      some ⟨pos + o.bytes.length, optlen - o.bytes.length, (o.tell t).1, (o.tell t).2⟩ := by
  rw [OptionsState.next, if_pos hpos]
  cases o with
  | nop =>
    obtain ⟨hkind, -⟩ := h
    simp [hkind, bytes, tell]
  | mss n =>
    obtain ⟨hkind, hlen, hword⟩ := h
    simp [hkind, hlen, bytes, tell, hword.word16_eq]
  | scale s =>
    obtain ⟨hkind, hlen, hscale, -⟩ := h
    simp [hkind, hlen, hscale, bytes, tell]
  | other kind body hfour hbody =>
    obtain ⟨hkind, hlen, -⟩ := h
    have hlength : (BitVec.ofNat 8 (body.length + 2)).toNat = body.length + 2 :=
      Nat.mod_eq_of_lt hbody
    have hne : kind ≠ 0#8 ∧ kind ≠ 1#8 ∧ kind ≠ 2#8 ∧ kind ≠ 3#8 := by
      refine ⟨?_, ?_, ?_, ?_⟩ <;> rintro rfl <;> exact absurd hfour (by decide)
    simp [hkind, hlen, hlength, hne, bytes, tell]

end TcpOption

section

variable {mem : ℕ → Byte} {pos optlen : ℕ} {t : BitVec 16 × Byte} {options : List TcpOption}
  {padding : List Byte}

/-- Behind options in a row. -/
def behindOptions (pos optlen : ℕ) (t : BitVec 16 × Byte) (options : List TcpOption) :
    OptionsState where
  pos := pos + (options.flatMap TcpOption.bytes).length
  optlen := optlen - (options.flatMap TcpOption.bytes).length
  mss := (options.foldl TcpOption.tell t).1
  ws := (options.foldl TcpOption.tell t).2

/-- Options in a row are passed one after the other. -/
lemma loop_flatMap {rest : List Byte} {n : ℕ}
    (h : Reads mem pos (options.flatMap TcpOption.bytes ++ rest))
    (hlen : (options.flatMap TcpOption.bytes).length ≤ optlen) :
    loop (OptionsState.next mem) (n + options.length) ⟨pos, optlen, t.1, t.2⟩ =
      loop (OptionsState.next mem) n (behindOptions pos optlen t options) := by
  induction options generalizing pos optlen t with
  | nil => simp [behindOptions]
  | cons o options ih =>
    rw [List.flatMap_cons, List.append_assoc] at h
    rw [List.flatMap_cons, List.length_append] at hlen
    have hpos := o.length_bytes_pos
    rw [List.length_cons, ← Nat.add_assoc,
      loop_succ_of_some (o.next_bytes h.left (by omega)), ih h.right (by omega), behindOptions,
      behindOptions, List.foldl_cons, List.flatMap_cons, List.length_append, Nat.add_assoc,
      Nat.sub_sub]

/-- The last of each kind counts, up to the end of the list. -/
lemma decodeOptions_eq (h : Reads mem pos (options.flatMap TcpOption.bytes ++ padding))
    (hlen : optlen = (options.flatMap TcpOption.bytes ++ padding).length)
    (hpadding : ∀ b ∈ padding.head?, b = 0) :
    decodeOptions mem pos optlen t.1 t.2 = some (options.foldl TcpOption.tell t) := by
  rw [List.length_append] at hlen
  have hend : (behindOptions pos optlen t options).next mem = none := by
    cases padding with
    | nil => simp [behindOptions, OptionsState.next, hlen]
    | cons b padding =>
      have hzero : mem (behindOptions pos optlen t options).pos = 0 :=
        h.right.1.trans (hpadding b rfl)
      simp [OptionsState.next, hzero]
  have hloop : loop (OptionsState.next mem) (1 + options.length) ⟨pos, optlen, t.1, t.2⟩ =
      some (behindOptions pos optlen t options) := by
    rw [loop_flatMap h (by omega), loop_succ_of_none hend]
  rw [decodeOptions, OptionsState.loop_in_time hloop (Nat.lt_succ_self optlen)]
  rfl

/-- An option of no length, behind others, keeps the loop where it is: it has no end. -/
theorem decodeOptions_stuck {kind : Byte}
    (h : Reads mem pos (options.flatMap TcpOption.bytes ++ [kind, 0]))
    (hlen : (options.flatMap TcpOption.bytes).length < optlen) (hkind : 2 ≤ kind) :
    (behindOptions pos optlen t options).next mem = some (behindOptions pos optlen t options) ∧
      (∀ n, loop (OptionsState.next mem) n ⟨pos, optlen, t.1, t.2⟩ = none) ∧
      decodeOptions mem pos optlen t.1 t.2 = none := by
  have hpos : 0 < (behindOptions pos optlen t options).optlen := Nat.sub_pos_of_lt hlen
  have hk : mem (behindOptions pos optlen t options).pos = kind := h.right.1
  have hzero : mem ((behindOptions pos optlen t options).pos + 1) = 0 := h.right.2.1
  have hne : kind ≠ 0#8 ∧ kind ≠ 1#8 := by
    constructor <;> rintro rfl <;> exact absurd hkind (by decide)
  have hstuck : (behindOptions pos optlen t options).next mem =
      some (behindOptions pos optlen t options) := by
    simp [OptionsState.next, hpos, hk, hzero, hne]
  have hloop : ∀ n, loop (OptionsState.next mem) n ⟨pos, optlen, t.1, t.2⟩ = none := by
    intro n
    cases hn : loop (OptionsState.next mem) n ⟨pos, optlen, t.1, t.2⟩ with
    | none => rfl
    | some s =>
      have hmore := loop_mono hn (Nat.le_add_right n options.length)
      rw [loop_flatMap h hlen.le, OptionsState.loop_stuck hstuck] at hmore
      cases hmore
  exact ⟨hstuck, hloop, by rw [decodeOptions, hloop, Option.map_none]⟩

theorem decodeOptions_stuck_nop :
    let mem : ℕ → Byte := fun i => [1, 8, 0].getD i 0
    OptionsState.next mem ⟨1, 3, 1460, 7⟩ = some ⟨1, 3, 1460, 7⟩ ∧
      (∀ n, loop (OptionsState.next mem) n ⟨0, 4, 1460, 7⟩ = none) ∧
      decodeOptions mem 0 4 1460 7 = none := by
  have hreads : Reads (fun i => [1, 8, 0].getD i (0 : Byte)) 0
      ([TcpOption.nop].flatMap TcpOption.bytes ++ [8, 0]) := ⟨rfl, rfl, rfl, trivial⟩
  have hlen : ([TcpOption.nop].flatMap TcpOption.bytes).length < 4 := by decide
  exact decodeOptions_stuck (t := (1460, 7)) hreads hlen (by decide)

end

/-! ### Packets -/

/-- A segment of a client, with what its headers hold beside. -/
structure ClientPacket extends Incoming where
  tos : Byte
  ident : BitVec 16
  dontFragment : Bool
  ttl : Byte
  ipCheck : BitVec 16
  ipOptions : List Byte
  tcpCheck : BitVec 16
  urgentPointer : BitVec 16
  options : List TcpOption
  padding : List Byte

namespace ClientPacket

variable (p : ClientPacket)

def optionBytes : List Byte := p.options.flatMap TcpOption.bytes ++ p.padding

def flags : Byte :=
  BitVec.ofNat 8 (p.fin.toNat + 2 * p.syn.toNat + 4 * p.rst.toNat + 8 * p.psh.toNat +
    16 * p.ack.toNat + 32 * p.urg.toNat)

def segment : List Byte :=
  be16 p.source.toNat ++ be16 p.dest.toNat ++ be32 p.seq.toNat ++ be32 p.ackSeq.toNat ++
    [BitVec.ofNat 8 (16 * (5 + p.optionBytes.length / 4)), p.flags] ++ be16 p.window.toNat ++
    be16 p.tcpCheck.toNat ++ be16 p.urgentPointer.toNat ++ p.optionBytes ++ p.data

def header : List Byte :=
  match p.version with
  | .v4 =>
    [BitVec.ofNat 8 (0x45 + p.ipOptions.length / 4), p.tos] ++
      be16 (20 + p.ipOptions.length + p.segment.length) ++ be16 p.ident.toNat ++
      [if p.dontFragment then 0x40 else 0, 0, p.ttl, IPPROTO_TCP] ++ be16 p.ipCheck.toNat ++
      addrBytes .v4 p.saddr ++ addrBytes .v4 p.daddr ++ p.ipOptions
  | .v6 =>
    [0x60, p.tos] ++ be16 p.ident.toNat ++ be16 p.segment.length ++ [IPPROTO_TCP, p.ttl] ++
      addrBytes .v6 p.saddr ++ addrBytes .v6 p.daddr

def bytes : List Byte := p.header ++ p.segment

/-- The headers are of whole words and not too long, and the options end. -/
structure WellFormed : Prop where
  ipOptions_v4 : p.version = .v6 → p.ipOptions = []
  ipOptions : 4 ∣ p.ipOptions.length ∧ p.ipOptions.length ≤ 40
  options : 4 ∣ p.optionBytes.length ∧ p.optionBytes.length ≤ 40
  padding : ∀ b ∈ p.padding.head?, b = 0
  length : p.bytes.length < 2 ^ 16

variable {p} {mem : ℕ → Byte}

lemma length_segment : p.segment.length = 20 + p.optionBytes.length + p.data.length := by
  simp only [segment, List.length_append, List.length_cons, List.length_nil, length_be16,
    length_be32]

lemma length_header : p.header.length = p.version.headerLength +
    if p.version = .v4 then p.ipOptions.length else 0 := by
  rw [header]
  cases p.version with
  | v4 =>
    simp [Version.headerLength]
    omega
  | v6 => simp [Version.headerLength]

/-- The first byte holds the version and the length of the header. -/
lemma first_byte : ∀ k ≤ 10, (BitVec.ofNat 8 (0x45 + k) >>> 4 : Byte) = 4 ∧
    (((BitVec.ofNat 8 (0x45 + k) &&& 0x0F : Byte) - 5) * 4).toNat = 4 * k := by
  decide

/-- The header of a packet is read as it was written. -/
lemma readIp_bytes (hp : p.WellFormed) (h : Reads mem 0 p.header) :
    readIp mem p.bytes.length = some (some ⟨p.version, IPPROTO_TCP, canonical p.version p.saddr,
      canonical p.version p.daddr, p.header.length⟩) := by
  have hsegment := p.length_segment
  have hheader := p.length_header
  have hlength := hp.length
  rw [bytes, List.length_append] at hlength ⊢
  cases hversion : p.version with
  | v4 =>
    simp only [header, hversion, List.append_assoc, List.cons_append, List.nil_append, Reads,
      Reads.append_iff, length_be16, length_addrBytes_v4, Nat.zero_add, Nat.reduceAdd] at h
    obtain ⟨hfirst, -, htotal, -, -, hfragment, -, hprotocol, -, hsaddr, hdaddr, -⟩ := h
    obtain ⟨⟨k, hk⟩, hle⟩ := hp.ipOptions
    have hdiv : p.ipOptions.length / 4 = k := by omega
    obtain ⟨hshift, hihl⟩ := first_byte k (by omega)
    rw [← hdiv, ← hfirst] at hshift hihl
    simp only [hversion, Version.headerLength, if_true] at hheader
    rw [readIp, if_pos hshift, readIp4, if_neg (by omega), if_neg (by simp [hfragment])]
    simp only [htotal.toNat_word16 (by omega), addrAt_eq hsaddr, addrAt_eq hdaddr, hihl, hprotocol]
    rw [if_neg (by omega)]
    congr
    omega
  | v6 =>
    simp only [header, hversion, List.append_assoc, List.cons_append, List.nil_append, Reads,
      Reads.append_iff, length_be16, length_addrBytes_v6, Nat.zero_add, Nat.reduceAdd] at h
    obtain ⟨hfirst, -, -, -, hprotocol, -, hsaddr, hdaddr⟩ := h
    simp only [hversion, Version.headerLength] at hheader
    have hupper : isUpperLayer IPPROTO_TCP := by decide
    rw [readIp, hfirst, if_neg (by decide), if_pos (by decide), readIp6, if_neg (by omega)]
    simp only [hprotocol, if_pos hupper, addrAt_eq hsaddr, addrAt_eq hdaddr, Option.map_some]
    congr
    simpa using hheader.symm

/-- The upper half of a byte holds the length of the segment's header. -/
lemma offset_byte : ∀ k ≤ 10,
    (((BitVec.ofNat 8 (16 * (5 + k)) : Byte) >>> 4 - 5) * 4).toNat = 4 * k := by
  decide

lemma getLsbD_flags : (p.flags.getLsbD 5 = p.urg ∧ p.flags.getLsbD 4 = p.ack ∧
    p.flags.getLsbD 3 = p.psh) ∧ p.flags.getLsbD 2 = p.rst ∧ p.flags.getLsbD 1 = p.syn ∧
    p.flags.getLsbD 0 = p.fin := by
  simp only [flags]
  generalize p.urg = urg
  generalize p.ack = ack
  generalize p.psh = psh
  generalize p.rst = rst
  generalize p.syn = syn
  generalize p.fin = fin
  revert urg ack psh rst syn fin
  decide

/-- The segment of a packet is read as it was written, with its options. -/
lemma readDatagram_bytes (hp : p.WellFormed) (ip : IpHeader) (hprotocol : ip.protocol = IPPROTO_TCP)
    (h : Reads mem ip.payload p.segment) :
    readDatagram mem (ip.payload + p.segment.length) ip = some (.tcp
      { p.toIncoming with version := ip.version, saddr := ip.saddr, daddr := ip.daddr }
      (some (p.options.foldl TcpOption.tell (getDefaultMss ip.version, 0)))) := by
  have hsegment := p.length_segment
  have hlength := hp.length
  rw [bytes, List.length_append] at hlength
  simp only [segment, List.append_assoc, List.cons_append, List.nil_append, Reads,
    Reads.append_iff, length_be16, length_be32, Nat.add_assoc, Nat.reduceAdd] at h
  obtain ⟨hsource, hdest, hseq, hack, hoffset, hflags, hwindow, -, -, hoptions, hdata⟩ := h
  obtain ⟨⟨k, hk⟩, hle⟩ := hp.options
  have hoptlen : tcpOptlen mem ip.payload = p.optionBytes.length := by
    have hdiv : p.optionBytes.length / 4 = k := by omega
    rw [tcpOptlen, hoffset, hdiv, offset_byte k (by omega), hk]
  have hdatalen :
      (tcpDatalen mem (ip.payload + p.segment.length) ip.payload).toNat = p.data.length := by
    have hsplit : ip.payload + p.segment.length =
        ip.payload + 20 + p.optionBytes.length + p.data.length := by omega
    rw [tcpDatalen, hoptlen, hsplit, BitVec.ofNat_add, BitVec.add_comm, BitVec.add_sub_cancel,
      BitVec.toNat_ofNat, Nat.mod_eq_of_lt (by omega)]
  have hdecode : decodeOptions mem (ip.payload + 20) p.optionBytes.length
      (getDefaultMss ip.version) 0 =
      some (p.options.foldl TcpOption.tell (getDefaultMss ip.version, 0)) :=
    decodeOptions_eq (t := (getDefaultMss ip.version, 0)) hoptions rfl hp.padding
  have hicmp : ¬ (ip.protocol = IPPROTO_ICMP ∨ ip.protocol = IPPROTO_ICMPV6) := by
    rw [hprotocol]
    decide
  have hudp : ip.protocol ≠ IPPROTO_UDP := by
    rw [hprotocol]
    decide
  have hsize : payloadSize (ip.payload + p.segment.length) ip = p.segment.length := by
    rw [payloadSize, BitVec.ofNat_add, BitVec.add_comm, BitVec.add_sub_cancel, BitVec.toNat_ofNat,
      Nat.mod_eq_of_lt (by omega)]
  have hread : readTcp mem (ip.payload + p.segment.length) ip =
      { p.toIncoming with version := ip.version, saddr := ip.saddr, daddr := ip.daddr } := by
    obtain ⟨⟨hurg, hackFlag, hpsh⟩, hrst, hsyn, hfin⟩ := p.getLsbD_flags
    rw [readTcp, hoptlen, hdatalen, hflags, hurg, hackFlag, hpsh, hrst, hsyn, hfin,
      hsource.word16_eq, hdest.word16_eq, hseq.word32_eq, hack.word32_eq, hwindow.word16_eq,
      Nat.add_assoc, hdata.stretch_eq]
  rw [readDatagram, if_neg hicmp, if_neg hudp, if_pos hprotocol, hsize, if_neg (by omega), hoptlen,
    hdecode, hread]

/-- A `SYN` with a greatest segment size and a window scale. -/
def ofSyn (n : BitVec 16) (s : Byte) : ClientPacket where
  toIncoming :=
    { version := .v4
      saddr := .replicate 16 1
      daddr := .replicate 16 2
      source := 40000
      dest := 443
      seq := 100
      ackSeq := 0
      window := 1000
      urg := false
      ack := false
      psh := false
      rst := false
      syn := true
      fin := false
      data := [] }
  tos := 0
  ident := 0
  dontFragment := true
  ttl := 64
  ipCheck := 0
  ipOptions := []
  tcpCheck := 0
  urgentPointer := 0
  options := [.mss n, .nop, .scale s]
  padding := []

end ClientPacket

end Violet.Tun2Http
