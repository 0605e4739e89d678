import Violet.Transition.Orbit
import Violet.Tun2Http.Packets
import Violet.Wire.Memory

/-!
# Packets from the client

`handle_ip`, and what `handle_tcp` reads of a segment. A packet lies at the start of a memory that
goes on behind it. Sizes have no sign, so a header that is longer than its packet makes what is left
of the packet very long.

A read that never ends is `none`. A packet that is dropped is `some none`.
-/

namespace Violet.Tun2Http

open Transition Wire

lemma reads_memoryOf (data : List Byte) (beyond : ℕ → Byte) (pos : ℕ) :
    Reads (memoryOf data beyond) pos (data.drop pos) := by
  induction hn : data.length - pos generalizing pos with
  | zero =>
    rw [List.drop_eq_nil_of_le (by omega)]
    trivial
  | succ n ih =>
    have hpos : pos < data.length := by omega
    rw [List.drop_eq_getElem_cons hpos]
    refine ⟨?_, ih (pos + 1) (by omega)⟩
    rw [memoryOf, List.getD_eq_getElem?_getD, List.getElem?_eq_getElem hpos, Option.getD_some]

/-- `check_tun` reads at most as many bytes, into a buffer twice as long. -/
def MTU : ℕ := 10000

/-! ### The IP header -/

/-- What `handle_ip` finds in front of the payload. -/
structure IpHeader where
  version : Version
  protocol : Byte
  saddr : Addr
  daddr : Addr
  /-- Where the payload begins. -/
  payload : ℕ
  deriving DecidableEq, Repr

def addrLength : Version → ℕ
  | .v4 => 4
  | .v6 => 16

def addrAt (mem : ℕ → Byte) (version : Version) (pos : ℕ) : Addr :=
  .ofFn fun i => if i.val < addrLength version then mem (pos + i.val) else 0

/-- An address as it is read. -/
def canonical (version : Version) (addr : Addr) : Addr :=
  .ofFn fun i => if i.val < addrLength version then addr[i] else 0

lemma addrAt_eq {mem : ℕ → Byte} {version : Version} {pos : ℕ} {addr : Addr}
    (h : Reads mem pos (addrBytes version addr)) :
    addrAt mem version pos = canonical version addr := by
  apply Vector.ext
  intro i hi
  simp only [addrAt, canonical, Vector.getElem_ofFn]
  cases version with
  | v4 =>
    split_ifs with hlt
    · rw [h.getElem (by simp [addrBytes]; exact hlt)]
      simp [addrBytes]
    · rfl
  | v6 =>
    have hlt : i < addrLength .v6 := hi
    rw [if_pos hlt, if_pos hlt, h.getElem (by simpa [addrBytes] using hi)]
    simp [addrBytes]

/-- The `IP_MF` of the host is a bit of the low byte of the fragment offset in the packet. -/
def readIp4 (mem : ℕ → Byte) (length : ℕ) : Option IpHeader :=
  if length < 20 then none
  else if mem 7 &&& 0x20 ≠ 0 then none
  else
    let ipoptlen := ((mem 0 &&& 0x0F) - 5) * 4
    if (word16 mem 2).toNat ≠ length then none
    else some ⟨.v4, mem 9, addrAt mem .v4 12, addrAt mem .v4 16, 20 + ipoptlen.toNat⟩

def isLowerLayer (protocol : Byte) : Prop := protocol ∈ [0, 60, 43, 44, 51, 50, 60, 135]

def isUpperLayer (protocol : Byte) : Prop :=
  protocol ∈ [IPPROTO_TCP, IPPROTO_UDP, IPPROTO_ICMP, IPPROTO_ICMPV6]

instance (protocol : Byte) : Decidable (isLowerLayer protocol) :=
  inferInstanceAs (Decidable (protocol ∈ _))

instance (protocol : Byte) : Decidable (isUpperLayer protocol) :=
  inferInstanceAs (Decidable (protocol ∈ _))

/-- The header behind the one at an offset of 16 bits. -/
def nextExtension (mem : ℕ → Byte) (off : BitVec 16) : BitVec 16 :=
  off + (8 + (mem (off.toNat + 1)).setWidth 16)

/-- The loop over the extension headers. After 2^16 turns the offset has come back. -/
def skipExtensions (mem : ℕ → Byte) : ℕ → Byte → BitVec 16 → Option (Byte × BitVec 16)
  | 0, _, _ => none
  | fuel + 1, protocol, off =>
    let nxt := mem off.toNat
    if isLowerLayer nxt ∧ ¬ isUpperLayer protocol then
      skipExtensions mem fuel nxt (nextExtension mem off)
    else some (protocol, off)

section

variable {mem : ℕ → Byte} {protocol : Byte} {off : BitVec 16} {n : ℕ}

lemma isLowerLayer.not_isUpperLayer (h : isLowerLayer protocol) : ¬ isUpperLayer protocol := by
  simp only [isLowerLayer, List.mem_cons, List.not_mem_nil, or_false] at h
  rcases h with rfl | rfl | rfl | rfl | rfl | rfl | rfl | rfl <;> decide

/-- The loop goes on as long as there are extension headers. -/
lemma skipExtensions_eq_none_iff (h : ¬ isUpperLayer protocol) :
    skipExtensions mem n protocol off = none ↔
      ∀ i < n, isLowerLayer (mem ((nextExtension mem)^[i] off).toNat) := by
  induction n generalizing protocol off with
  | zero => simp [skipExtensions]
  | succ n ih =>
    rw [skipExtensions]
    by_cases hlower : isLowerLayer (mem off.toNat)
    · rw [if_pos ⟨hlower, h⟩, ih hlower.not_isUpperLayer]
      constructor
      · intro hall i hi
        cases i with
        | zero => exact hlower
        | succ i => exact hall i (Nat.lt_of_succ_lt_succ hi)
      · intro hall i hi
        exact hall (i + 1) (Nat.succ_lt_succ hi)
    · rw [if_neg fun hboth => hlower hboth.1]
      refine iff_of_false (Option.some_ne_none _) fun hall => ?_
      exact hlower (hall 0 (Nat.succ_pos n))

/-- When the offset has come back, the loop has no end. -/
lemma skipExtensions_endless (h : ¬ isUpperLayer protocol) :
    skipExtensions mem (2 ^ 16) protocol off = none ↔
      ∀ i, isLowerLayer (mem ((nextExtension mem)^[i] off).toNat) := by
  rw [skipExtensions_eq_none_iff h]
  refine ⟨fun hall i => ?_, fun hall i _ => hall i⟩
  obtain ⟨m, hm, heq⟩ := Transition.exists_iterate_eq BitVec.toNat_injective
    (fun off : BitVec 16 => off.isLt) (nextExtension mem) off i
  exact heq ▸ hall m hm

lemma not_isUpperLayer_of_skipExtensions {found : Byte × BitVec 16} (h : ¬ isUpperLayer protocol)
    (hfound : skipExtensions mem n protocol off = some found) : ¬ isUpperLayer found.1 := by
  induction n generalizing protocol off with
  | zero => cases hfound
  | succ n ih =>
    rw [skipExtensions] at hfound
    split_ifs at hfound with hboth
    · exact ih hboth.1.not_isUpperLayer hfound
    · cases hfound
      exact h

end

def readIp6 (mem : ℕ → Byte) (length : ℕ) : Option (Option IpHeader) :=
  if length < 40 then some none
  else
    let nxt := mem 6
    let found :=
      if isUpperLayer nxt then some (nxt, 0)
      else (skipExtensions mem (2 ^ 16) nxt 40).map fun found =>
        if isUpperLayer found.1 then found else (nxt, 0)
    found.map fun (protocol, off) =>
      some ⟨.v6, protocol, addrAt mem .v6 8, addrAt mem .v6 24, 40 + off.toNat⟩

def readIp (mem : ℕ → Byte) (length : ℕ) : Option (Option IpHeader) :=
  if mem 0 >>> 4 = 4 then some (readIp4 mem length)
  else if mem 0 >>> 4 = 6 then readIp6 mem length
  else some none

/-! ### TCP segments -/

def tcpOptlen (mem : ℕ → Byte) (payload : ℕ) : ℕ := ((mem (payload + 12) >>> 4 - 5) * 4).toNat

/-- `datalen` has 16 bits. -/
def tcpDatalen (mem : ℕ → Byte) (length payload : ℕ) : BitVec 16 :=
  BitVec.ofNat 16 length - BitVec.ofNat 16 (payload + 20 + tcpOptlen mem payload)

def readTcp (mem : ℕ → Byte) (length : ℕ) (ip : IpHeader) : Incoming where
  version := ip.version
  saddr := ip.saddr
  daddr := ip.daddr
  source := word16 mem ip.payload
  dest := word16 mem (ip.payload + 2)
  seq := word32 mem (ip.payload + 4)
  ackSeq := word32 mem (ip.payload + 8)
  window := word16 mem (ip.payload + 14)
  urg := (mem (ip.payload + 13)).getLsbD 5
  ack := (mem (ip.payload + 13)).getLsbD 4
  psh := (mem (ip.payload + 13)).getLsbD 3
  rst := (mem (ip.payload + 13)).getLsbD 2
  syn := (mem (ip.payload + 13)).getLsbD 1
  fin := (mem (ip.payload + 13)).getLsbD 0
  data := stretch mem (ip.payload + 20 + tcpOptlen mem ip.payload)
    (tcpDatalen mem length ip.payload).toNat

/-- Where `handle_tcp` is in the options of a `SYN`: the next one is at `pos`. The greatest segment
size and the window scale are those that have been read. -/
structure OptionsState where
  pos : ℕ
  optlen : ℕ
  mss : BitVec 16
  ws : Byte
  deriving DecidableEq, Repr

/-- A turn of the loop over the options; `none` is its end. -/
def OptionsState.next (mem : ℕ → Byte) (s : OptionsState) : Option OptionsState :=
  if 0 < s.optlen then
    let kind := mem s.pos
    let len := mem (s.pos + 1)
    if kind = 0 then none
    else
      let isMss := kind = 2 ∧ len = 4
      let mss := if isMss then word16 mem (s.pos + 2) else s.mss
      let ws := if ¬ isMss ∧ kind = 3 ∧ len = 3 then mem (s.pos + 2) else s.ws
      if kind = 1 then some ⟨s.pos + 1, s.optlen - 1, mss, ws⟩
      else some ⟨s.pos + len.toNat, s.optlen - len.toNat, mss, ws⟩
  else none

/-- The greatest segment size and the window scale. A turn that does not go on changes nothing, so
the loop ends in as many turns as there are bytes or has no end. -/
def decodeOptions (mem : ℕ → Byte) (pos optlen : ℕ) (mss : BitVec 16) (ws : Byte) :
    Option (BitVec 16 × Byte) :=
  (loop (OptionsState.next mem) (optlen + 1) ⟨pos, optlen, mss, ws⟩).map fun s => (s.mss, s.ws)

namespace OptionsState

variable {mem : ℕ → Byte} {s t : OptionsState} {n m : ℕ}

/-- A turn goes on in the options, or it changes nothing. -/
lemma next_cases (h : s.next mem = some t) : t.optlen < s.optlen ∨ t = s := by
  by_cases hpos : 0 < s.optlen
  swap
  · simp [next, hpos] at h
  by_cases hend : mem s.pos = 0
  · simp [next, hend] at h
  by_cases hkind : mem s.pos = 1
  · simp only [next, if_pos hpos, if_neg hend, if_pos hkind, Option.some_inj] at h
    subst h
    exact .inl (Nat.sub_lt hpos Nat.one_pos)
  · simp only [next, if_pos hpos, if_neg hend, if_neg hkind, Option.some_inj] at h
    subst h
    rcases Nat.eq_zero_or_pos (mem (s.pos + 1)).toNat with hzero | hlen
    · have hlen : mem (s.pos + 1) = 0 := BitVec.eq_of_toNat_eq hzero
      right
      simp [hlen]
    · exact .inl (Nat.sub_lt hpos hlen)

/-- A loop that comes to an option of no length has no end. -/
lemma loop_stuck (h : s.next mem = some s) : loop (next mem) n s = none := by
  induction n with
  | zero => rfl
  | succ n ih => rw [loop_succ_of_some h, ih]

/-- A loop that ends, ends in time. -/
lemma loop_in_time (h : loop (next mem) n s = some t) (hm : s.optlen < m) :
    loop (next mem) m s = some t := by
  induction n generalizing s m with
  | zero => cases h
  | succ n ih =>
    obtain ⟨m, rfl⟩ : ∃ k, m = k + 1 := ⟨m - 1, by omega⟩
    cases hnext : s.next mem with
    | none =>
      rw [loop_succ_of_none hnext] at h ⊢
      exact h
    | some u =>
      rcases next_cases hnext with hless | rfl
      · rw [loop_succ_of_some hnext] at h ⊢
        exact ih h (by omega)
      · rw [loop_stuck hnext] at h
        cases h

end OptionsState

/-! ### Datagrams -/

/-- A packet of one of the protocols that are handled. -/
inductive Datagram
  /-- `plen` is what the IPv6 header has as length. -/
  | icmp (version : Version) (saddr daddr : Addr) (protocol : Byte) (plen : BitVec 16)
      (message : List Byte)
  | udp (p : UdpPacket)
  /-- `options` are those of `handle_tcp`, which reads them for a new session. -/
  | tcp (p : Incoming) (options : Option (BitVec 16 × Byte))
  deriving DecidableEq, Repr

/-- What is left of a packet behind its IP header, which may be longer than the packet. -/
def payloadSize (length : ℕ) (ip : IpHeader) : ℕ :=
  (BitVec.ofNat 64 length - BitVec.ofNat 64 ip.payload).toNat

/-- Behind the IP header, with the sizes of `struct icmp`, `struct udphdr` and `struct tcphdr`. -/
def readDatagram (mem : ℕ → Byte) (length : ℕ) (ip : IpHeader) : Option Datagram :=
  let size := payloadSize length ip
  if ip.protocol = IPPROTO_ICMP ∨ ip.protocol = IPPROTO_ICMPV6 then
    if size < 28 then none
    else some (.icmp ip.version ip.saddr ip.daddr ip.protocol (word16 mem 4)
      (stretch mem ip.payload size))
  else if ip.protocol = IPPROTO_UDP then
    if size < 8 then none
    else some (.udp ⟨ip.version, ip.saddr, ip.daddr, word16 mem ip.payload,
      word16 mem (ip.payload + 2), stretch mem (ip.payload + 8) (size - 8)⟩)
  else if ip.protocol = IPPROTO_TCP then
    if size < 20 then none
    else some (.tcp (readTcp mem length ip) (decodeOptions mem (ip.payload + 20)
      (tcpOptlen mem ip.payload) (getDefaultMss ip.version) 0))
  else none

/-- What `handle_ip` makes of a packet, behind which other bytes lie in the memory. -/
def readPacket (pkt : List Byte) (beyond : ℕ → Byte) : Option (Option Datagram) :=
  (readIp (memoryOf pkt beyond) pkt.length).map fun found => do
    let ip ← found
    readDatagram (memoryOf pkt beyond) pkt.length ip

/-! ### What is found -/

section

variable {mem : ℕ → Byte} {length : ℕ} {ip : IpHeader} {pkt : List Byte} {beyond : ℕ → Byte}

/-- An extension header is found only where nothing else is: the header is the fixed one. -/
lemma readIp6_eq (hlength : 40 ≤ length) (hupper : ¬ isUpperLayer (mem 6)) :
    readIp6 mem length = (skipExtensions mem (2 ^ 16) (mem 6) 40).map fun _ =>
      some ⟨.v6, mem 6, addrAt mem .v6 8, addrAt mem .v6 24, 40⟩ := by
  rw [readIp6, if_neg (not_lt.mpr hlength)]
  simp only [if_neg hupper]
  cases hskip : skipExtensions mem (2 ^ 16) (mem 6) 40 with
  | none => rfl
  | some found =>
    simp only [Option.map_some, if_neg (not_isUpperLayer_of_skipExtensions hupper hskip)]
    rfl

/-- The length of a header of so many words: a length below the least one wraps around. -/
def headerBytes (words : Byte) : ℕ :=
  if 5 ≤ words.toNat then 4 * words.toNat else 256 + 4 * words.toNat

lemma headerBytes_of_nibble : ∀ n < 16,
    20 + ((BitVec.ofNat 8 n - 5 : Byte) * 4).toNat = headerBytes (BitVec.ofNat 8 n) ∧
      headerBytes (BitVec.ofNat 8 n) < 276 := by
  decide

lemma headerBytes_eq {words : Byte} (h : words.toNat < 16) :
    20 + ((words - 5) * 4).toNat = headerBytes words ∧ headerBytes words < 276 := by
  have hnibble := headerBytes_of_nibble words.toNat h
  rwa [BitVec.ofNat_toNat, BitVec.setWidth_eq] at hnibble

lemma toNat_and_lt (b : Byte) : (b &&& 0x0F).toNat < 16 := by
  rw [BitVec.toNat_and]
  exact Nat.and_lt_two_pow (n := 4) b.toNat (by decide)

lemma toNat_shift_lt (b : Byte) : (b >>> 4).toNat < 16 := by
  have hb := b.isLt
  rw [BitVec.toNat_ushiftRight, Nat.shiftRight_eq_div_pow]
  omega

/-- Where the payload of a packet begins, by the length in its header. -/
def payloadOffset (mem : ℕ → Byte) : ℕ :=
  if mem 0 >>> 4 = 4 then headerBytes (mem 0 &&& 0x0F) else 40

/-- Where the data of a segment begin, by the lengths in both headers. -/
def dataOffset (mem : ℕ → Byte) : ℕ :=
  payloadOffset mem + headerBytes (mem (payloadOffset mem + 12) >>> 4)

lemma payload_of_readIp (h : readIp mem length = some (some ip)) :
    ip.payload = payloadOffset mem := by
  rw [readIp] at h
  rw [payloadOffset]
  split_ifs at h ⊢ with h4 h6
  rotate_right
  · cases h
  · rw [Option.some_inj, readIp4] at h
    split_ifs at h
    cases h
    exact (headerBytes_eq (toNat_and_lt (mem 0))).1
  · by_cases hlength : length < 40
    · rw [readIp6, if_pos hlength] at h
      cases h
    by_cases hupper : isUpperLayer (mem 6)
    · rw [readIp6, if_neg hlength] at h
      simp only [if_pos hupper, Option.map_some] at h
      cases h
      rfl
    · rw [readIp6_eq (not_lt.mp hlength) hupper] at h
      obtain ⟨-, -, h⟩ := Option.map_eq_some_iff.mp h
      cases h
      rfl

lemma payloadOffset_lt (mem : ℕ → Byte) : payloadOffset mem < 276 := by
  rw [payloadOffset]
  split_ifs
  · exact (headerBytes_eq (toNat_and_lt (mem 0))).2
  · decide

/-- A packet that is handled, with its header. -/
lemma exists_of_readPacket {d : Datagram} (h : readPacket pkt beyond = some (some d)) :
    ∃ ip, readIp (memoryOf pkt beyond) pkt.length = some (some ip) ∧
      readDatagram (memoryOf pkt beyond) pkt.length ip = some d := by
  rw [readPacket] at h
  obtain ⟨found, hfound, h⟩ := Option.map_eq_some_iff.mp h
  obtain ⟨ip, rfl, hread⟩ := Option.bind_eq_some_iff.mp h
  exact ⟨ip, hfound, hread⟩

/-- A packet of IPv6 with an extension header is never handled, and it holds up the proxy for good
when the headers lead round in the memory. -/
theorem readPacket_extension (h6 : memoryOf pkt beyond 0 >>> 4 = 6)
    (hupper : ¬ isUpperLayer (memoryOf pkt beyond 6)) :
    (readPacket pkt beyond = none ↔ 40 ≤ pkt.length ∧ ∀ i, isLowerLayer
      (memoryOf pkt beyond ((nextExtension (memoryOf pkt beyond))^[i] 40).toNat)) ∧
      ∀ d, readPacket pkt beyond ≠ some (some d) := by
  have h4 : memoryOf pkt beyond 0 >>> 4 ≠ 4 := by
    rw [h6]
    decide
  rw [readPacket, readIp, if_neg h4, if_pos h6]
  by_cases hlength : pkt.length < 40
  · rw [readIp6, if_pos hlength]
    simp [not_le.mpr hlength]
  · have hle : 40 ≤ pkt.length := not_lt.mp hlength
    rw [readIp6_eq hle hupper, ← skipExtensions_endless hupper]
    cases hskip : skipExtensions (memoryOf pkt beyond) (2 ^ 16) (memoryOf pkt beyond 6) 40 with
    | none => simp [hle]
    | some found =>
      have hdrop : ∀ ip : IpHeader, ip.protocol = memoryOf pkt beyond 6 →
          readDatagram (memoryOf pkt beyond) pkt.length ip = none := by
        intro ip hprotocol
        simp only [isUpperLayer, List.mem_cons, List.not_mem_nil, or_false, not_or,
          ← hprotocol] at hupper
        simp [readDatagram, hupper]
      simp [hdrop]

theorem readPacket_extension_zeros : let pkt : List Byte := 0x60 :: .replicate 39 0
    (readPacket pkt (fun _ => 0) = none ↔ 40 ≤ pkt.length ∧ ∀ i, isLowerLayer
      (memoryOf pkt (fun _ => 0) ((nextExtension (memoryOf pkt fun _ => 0))^[i] 40).toNat)) ∧
      ∀ d, readPacket pkt (fun _ => 0) ≠ some (some d) :=
  readPacket_extension (by decide) (by decide)

/-- The data of a segment are the end of its packet if the headers fit into the packet. Otherwise
they are longer than the buffer. -/
theorem data_of_readPacket {p : Incoming} {options : Option (BitVec 16 × Byte)}
    (hlength : pkt.length ≤ MTU) (h : readPacket pkt beyond = some (some (.tcp p options))) :
    dataOffset (memoryOf pkt beyond) ≤ pkt.length ∧
        p.data = pkt.drop (dataOffset (memoryOf pkt beyond)) ∨
      pkt.length < dataOffset (memoryOf pkt beyond) ∧ 2 * MTU < p.data.length := by
  obtain ⟨ip, hip, hread⟩ := exists_of_readPacket h
  have hpayload := payload_of_readIp hip
  obtain rfl : p = readTcp (memoryOf pkt beyond) pkt.length ip := by
    rw [readDatagram] at hread
    split_ifs at hread <;> cases hread
    rfl
  obtain ⟨hoptlen, hlt⟩ := headerBytes_eq (toNat_shift_lt (memoryOf pkt beyond (ip.payload + 12)))
  have hdata : ip.payload + 20 + tcpOptlen (memoryOf pkt beyond) ip.payload =
      dataOffset (memoryOf pkt beyond) := by
    rw [dataOffset, ← hpayload, ← hoptlen, tcpOptlen, Nat.add_assoc]
  have hoffset_lt : dataOffset (memoryOf pkt beyond) < 552 := by
    have := payloadOffset_lt (memoryOf pkt beyond)
    rw [dataOffset, ← hpayload] at *
    omega
  have hmtu : MTU = 10000 := rfl
  rw [readTcp, hdata, tcpDatalen, hdata]
  generalize dataOffset (memoryOf pkt beyond) = offset at hoffset_lt
  have hdatalen : (BitVec.ofNat 16 pkt.length - BitVec.ofNat 16 offset).toNat =
      (2 ^ 16 - offset + pkt.length) % 2 ^ 16 := by
    rw [BitVec.toNat_sub, BitVec.toNat_ofNat, BitVec.toNat_ofNat]
    omega
  rw [hdatalen, length_stretch]
  rcases Nat.lt_or_ge pkt.length offset with hlt | hle
  · exact .inr ⟨hlt, by omega⟩
  · have hrest : (2 ^ 16 - offset + pkt.length) % 2 ^ 16 = (pkt.drop offset).length := by
      rw [List.length_drop]
      omega
    exact .inl ⟨hle, by rw [hrest, (reads_memoryOf pkt beyond offset).stretch_eq]⟩

/-- A packet without data that has a header of 60 bytes by its own account. -/
def boastfulPacket : List Byte :=
  [0x45, 0] ++ be16 40 ++ [0, 0, 0, 0, IPDEFTTL, IPPROTO_TCP, 0, 0] ++ .replicate 20 0 ++
    [0xF0] ++ .replicate 7 0

/-- What is read of it. -/
def boastfulSegment : Incoming :=
  let mem := memoryOf boastfulPacket fun _ => 0
  readTcp mem 40 ⟨.v4, IPPROTO_TCP, addrAt mem .v4 12, addrAt mem .v4 16, 20⟩

theorem data_of_readPacket_boastful :
    dataOffset (memoryOf boastfulPacket fun _ => 0) ≤ boastfulPacket.length ∧
        boastfulSegment.data =
          boastfulPacket.drop (dataOffset (memoryOf boastfulPacket fun _ => 0)) ∨
      boastfulPacket.length < dataOffset (memoryOf boastfulPacket fun _ => 0) ∧
        2 * MTU < boastfulSegment.data.length := by
  have hread : readPacket boastfulPacket (fun _ => 0) = some (some (.tcp boastfulSegment
      (decodeOptions (memoryOf boastfulPacket fun _ => 0) 40 40 (getDefaultMss .v4) 0))) := rfl
  exact data_of_readPacket (by decide) hread

end

end Violet.Tun2Http
