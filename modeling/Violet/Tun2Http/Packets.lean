import Violet.Tun2Http.TcpSession

/-!
# Packets to the client

The bytes that `write_tcp` and `write_udp` write, and the message that `check_icmp_socket` passes
on. A checksum is summed over the parts of a packet one after the other, with zero in its own place,
and stored as the machine stores a word. So it is right whatever the order of the bytes of the
machine.

The pseudo header of an IPv6 packet has its addresses exchanged and its length at the wrong end of
the field, which does not change its sum.
-/

namespace Violet.Tun2Http

open Wire

/-! ### Headers -/

def IPPROTO_ICMP : Byte := 1
def IPPROTO_TCP : Byte := 6
def IPPROTO_UDP : Byte := 17
def IPPROTO_ICMPV6 : Byte := 58
def IPDEFTTL : Byte := 64

/-- The length of an IP header without options. -/
def Version.headerLength : Version → ℕ
  | .v4 => 20
  | .v6 => 40

/-- The bytes of an address. -/
def addrBytes (version : Version) (addr : Addr) : List Byte :=
  match version with
  | .v4 => addr.toList.take 4
  | .v6 => addr.toList

/-- An IPv4 header of 20 bytes, with a checksum. -/
def ip4Header (saddr daddr : Addr) (protocol : Byte) (len check : ℕ) : List Byte :=
  [0x45, 0] ++ be16 len ++ [0, 0, 0, 0] ++ [IPDEFTTL, protocol] ++ le16 check ++
    (addrBytes .v4 saddr ++ addrBytes .v4 daddr)

def ip6Header (saddr daddr : Addr) (protocol : Byte) (len : ℕ) : List Byte :=
  [0x60, 0, 0, 0] ++ be16 len ++ [protocol, IPDEFTTL] ++
    (addrBytes .v6 saddr ++ addrBytes .v6 daddr)

/-- The header that the writers put in front of what they write. -/
def ipHeader (version : Version) (saddr daddr : Addr) (protocol : Byte) (len : ℕ) : List Byte :=
  match version with
  | .v4 => ip4Header saddr daddr protocol (20 + len)
      (~~~calcChecksum 0 (ip4Header saddr daddr protocol (20 + len) 0)).toNat
  | .v6 => ip6Header saddr daddr protocol len

/-- `struct ippseudo` and `struct ip6_hdr_pseudo`, as they are filled in. -/
def pseudoHeader (version : Version) (saddr daddr : Addr) (protocol : Byte) (len : ℕ) : List Byte :=
  match version with
  | .v4 => addrBytes .v4 saddr ++ addrBytes .v4 daddr ++ ([0, protocol] ++ be16 len)
  | .v6 => addrBytes .v6 daddr ++ addrBytes .v6 saddr ++ (be16 len ++ [0, 0] ++ [0, 0, 0, protocol])

/-! ### TCP -/

namespace TcpPacket

/-- The flags that `write_tcp` sets. -/
def flags (p : TcpPacket) : Byte :=
  BitVec.ofNat 8 (p.fin.toNat + 2 * p.syn.toNat + 4 * p.rst.toNat + 16 * p.ack.toNat)

def options (p : TcpPacket) : List Byte :=
  if p.syn then [2, 4] ++ le16 (getDefaultMss p.version).toNat ++ [3, 3, p.scale, 0] else []

/-- The header up to the checksum. -/
def header (p : TcpPacket) : List Byte :=
  be16 p.source.toNat ++ be16 p.dest.toNat ++ be32 p.seq.toNat ++ be32 p.ackSeq.toNat ++
    [BitVec.ofNat 8 ((20 + p.options.length) / 4 * 16), p.flags] ++ be16 p.window.toNat

/-- The segment with a checksum. -/
def segment (p : TcpPacket) (check : ℕ) : List Byte :=
  p.header ++ le16 check ++ ([0, 0] ++ (p.options ++ p.data))

def segmentLength (p : TcpPacket) : ℕ := 20 + p.options.length + p.data.length

def checksum (p : TcpPacket) : BitVec 16 :=
  let csum := calcChecksum 0 (pseudoHeader p.version p.saddr p.daddr IPPROTO_TCP p.segmentLength)
  let csum := calcChecksum csum (p.header ++ le16 0 ++ [0, 0])
  let csum := calcChecksum csum p.options
  ~~~calcChecksum csum p.data

/-- What `write_tcp` writes. -/
def bytes (p : TcpPacket) : List Byte :=
  ipHeader p.version p.saddr p.daddr IPPROTO_TCP p.segmentLength ++ p.segment p.checksum.toNat

end TcpPacket

/-! ### UDP and ICMP -/

structure UdpPacket where
  version : Version
  saddr : Addr
  daddr : Addr
  source : BitVec 16
  dest : BitVec 16
  data : List Byte
  deriving DecidableEq, Repr

namespace UdpPacket

def header (p : UdpPacket) : List Byte :=
  be16 p.source.toNat ++ be16 p.dest.toNat ++ be16 (8 + p.data.length)

def segment (p : UdpPacket) (check : ℕ) : List Byte := p.header ++ le16 check ++ p.data

def checksum (p : UdpPacket) : BitVec 16 :=
  let csum := calcChecksum 0
    (pseudoHeader p.version p.saddr p.daddr IPPROTO_UDP (8 + p.data.length))
  let csum := calcChecksum csum (p.header ++ le16 0)
  ~~~calcChecksum csum p.data

/-- What `write_udp` writes. -/
def bytes (p : UdpPacket) : List Byte :=
  ipHeader p.version p.saddr p.daddr IPPROTO_UDP (8 + p.data.length) ++ p.segment p.checksum.toNat

end UdpPacket

/-! ### What is written verifies -/

/-- The pseudo header of the protocol. -/
def rfcPseudoHeader (version : Version) (saddr daddr : Addr) (protocol : Byte) (len : ℕ) :
    List Byte :=
  match version with
  | .v4 => addrBytes .v4 saddr ++ addrBytes .v4 daddr ++ ([0, protocol] ++ be16 len)
  | .v6 => addrBytes .v6 saddr ++ addrBytes .v6 daddr ++ (be32 len ++ [0, 0, 0, protocol])

section

variable (version : Version) (saddr daddr : Addr) (protocol : Byte) (len : ℕ)

@[simp] lemma length_addrBytes_v4 (addr : Addr) : (addrBytes .v4 addr).length = 4 := by
  simp [addrBytes]

@[simp] lemma length_addrBytes_v6 (addr : Addr) : (addrBytes .v6 addr).length = 16 := by
  simp [addrBytes]

lemma length_pseudoHeader_le : (pseudoHeader version saddr daddr protocol len).length ≤ 40 := by
  cases version <;> simp [pseudoHeader]

lemma two_dvd_pseudoHeader : 2 ∣ (pseudoHeader version saddr daddr protocol len).length := by
  cases version <;> simp [pseudoHeader]

lemma two_dvd_rfcPseudoHeader : 2 ∣ (rfcPseudoHeader version saddr daddr protocol len).length := by
  cases version <;> simp [rfcPseudoHeader]

/-- The exchanged addresses and the misplaced length make no difference. -/
lemma wordSum_pseudoHeader (hlen : len < 2 ^ 16) :
    wordSum (pseudoHeader version saddr daddr protocol len) =
      wordSum (rfcPseudoHeader version saddr daddr protocol len) := by
  cases version with
  | v4 => rfl
  | v6 =>
    have heven : ∀ addr : Addr, 2 ∣ (addrBytes .v6 addr).length := fun addr => by simp
    have hzero : len / 2 ^ 16 = 0 := Nat.div_eq_of_lt hlen
    have hboth : 2 ∣ (addrBytes .v6 daddr ++ addrBytes .v6 saddr).length := by
      rw [List.length_append]
      exact Nat.dvd_add (heven daddr) (heven saddr)
    have hboth' : 2 ∣ (addrBytes .v6 saddr ++ addrBytes .v6 daddr).length := by
      rw [List.length_append]
      exact Nat.dvd_add (heven saddr) (heven daddr)
    rw [pseudoHeader, rfcPseudoHeader, wordSum_append hboth, wordSum_append hboth',
      wordSum_append (heven daddr), wordSum_append (heven saddr)]
    simp only [be32, be16, hzero, List.cons_append, List.nil_append, wordSum_cons_cons, wordSum_nil]
    simp
    omega

end

variable {version : Version} {saddr daddr : Addr} {protocol : Byte} {len : ℕ}
  {before behind : List Byte}

/-- A segment with the complement of its checksum verifies behind the pseudo header. -/
lemma verifies_segment (hlen : len < 2 ^ 16) (hbefore : 2 ∣ before.length)
    (hfits : 40 + before.length + 2 + behind.length < 2 ^ 16 + 2 ^ 15) :
    Verifies (rfcPseudoHeader version saddr daddr protocol len ++
      (before ++ le16 (~~~calcChecksum 0 (pseudoHeader version saddr daddr protocol len ++
        (before ++ le16 0 ++ behind))).toNat ++ behind)) := by
  have hpseudo := two_dvd_pseudoHeader version saddr daddr protocol len
  have hrfc := two_dvd_rfcPseudoHeader version saddr daddr protocol len
  have hlength := length_pseudoHeader_le version saddr daddr protocol len
  have hshort : (pseudoHeader version saddr daddr protocol len ++
      (before ++ le16 0 ++ behind)).length < 2 ^ 16 + 2 ^ 15 := by
    simp only [List.length_append, length_le16]
    omega
  have hsum : (~~~calcChecksum 0 (pseudoHeader version saddr daddr protocol len ++
      (before ++ le16 0 ++ behind))).toNat = 2 ^ 16 - 1 - fold (2 ^ 16)
        (wordSum (rfcPseudoHeader version saddr daddr protocol len ++ before ++ le16 0 ++
          behind)) := by
    rw [BitVec.toNat_not, toNat_calcChecksum hshort, wordSum_append hpseudo,
      wordSum_pseudoHeader version saddr daddr protocol len hlen, ← wordSum_append hrfc]
    simp
  rw [hsum]
  have heven : 2 ∣ (rfcPseudoHeader version saddr daddr protocol len ++ before).length := by
    rw [List.length_append]
    exact Nat.dvd_add hrfc hbefore
  simpa only [List.append_assoc] using verifies_complement heven

lemma length_ip4Header (check : ℕ) : (ip4Header saddr daddr protocol len check).length = 20 := by
  simp [ip4Header]

/-- What holds the complement of its checksum verifies. -/
lemma verifies_calcChecksum (hbefore : 2 ∣ before.length)
    (hshort : before.length + 2 + behind.length < 2 ^ 16 + 2 ^ 15) :
    Verifies (before ++ le16 (~~~calcChecksum 0 (before ++ le16 0 ++ behind)).toNat ++ behind) := by
  have hlength : (before ++ le16 0 ++ behind).length < 2 ^ 16 + 2 ^ 15 := by
    simpa [Nat.add_assoc] using hshort
  have hsum : (~~~calcChecksum 0 (before ++ le16 0 ++ behind)).toNat =
      2 ^ 16 - 1 - fold (2 ^ 16) (wordSum (before ++ le16 0 ++ behind)) := by
    rw [BitVec.toNat_not, toNat_calcChecksum hlength]
    simp
  rw [hsum]
  exact verifies_complement hbefore

/-- An IPv4 header verifies. -/
theorem verifies_ip4Header : Verifies (ip4Header saddr daddr protocol len
    (~~~calcChecksum 0 (ip4Header saddr daddr protocol len 0)).toNat) :=
  verifies_calcChecksum (by simp) (by simp)

/-- An IPv4 header verifies, and so does what stands behind the header, with the pseudo header of
the protocol. -/
structure Correct (version : Version) (saddr daddr : Addr) (protocol : Byte) (packet : List Byte) :
    Prop where
  header : version = .v4 → Verifies (packet.take 20)
  segment : Verifies (rfcPseudoHeader version saddr daddr protocol
    (packet.drop version.headerLength).length ++ packet.drop version.headerLength)

lemma length_ipHeader :
    (ipHeader version saddr daddr protocol len).length = version.headerLength := by
  cases version with
  | v4 => exact length_ip4Header _
  | v6 => simp [ipHeader, ip6Header, Version.headerLength]

lemma Correct.of_segment {segment : List Byte}
    (h : Verifies (rfcPseudoHeader version saddr daddr protocol segment.length ++ segment)) :
    Correct version saddr daddr protocol
      (ipHeader version saddr daddr protocol len ++ segment) := by
  have hlength : (ipHeader version saddr daddr protocol len).length = version.headerLength :=
    length_ipHeader
  constructor
  · rintro rfl
    have htake : (ipHeader .v4 saddr daddr protocol len ++ segment).take 20 =
        ipHeader .v4 saddr daddr protocol len := List.take_left' hlength
    rw [htake]
    exact verifies_ip4Header
  · rw [List.drop_left' hlength]
    exact h

namespace TcpPacket

variable (p : TcpPacket)

lemma length_options : p.options.length = if p.syn then 8 else 0 := by
  rw [options]
  split_ifs <;> rfl

@[simp] lemma length_header : p.header.length = 16 := by simp [header]

lemma length_segment (check : ℕ) : (p.segment check).length = p.segmentLength := by
  simp [segment, segmentLength]
  omega

lemma checksum_eq (hlen : p.segmentLength < 2 ^ 16) :
    p.checksum = ~~~calcChecksum 0
      (pseudoHeader p.version p.saddr p.daddr IPPROTO_TCP p.segmentLength ++
      (p.header ++ le16 0 ++ ([0, 0] ++ (p.options ++ p.data)))) := by
  have hpseudo := two_dvd_pseudoHeader p.version p.saddr p.daddr IPPROTO_TCP p.segmentLength
  have hlength := length_pseudoHeader_le p.version p.saddr p.daddr IPPROTO_TCP p.segmentLength
  have hoptions := p.length_options
  have hheader : 2 ∣ (p.header ++ le16 0 ++ [0, 0]).length := by simp
  have heven : 2 ∣ p.options.length := by
    rw [hoptions]
    split_ifs <;> decide
  rw [segmentLength] at hlen
  rw [checksum, calcChecksum_append hpseudo, calcChecksum_append heven, calcChecksum_append]
  · simp only [List.append_assoc]
  · rw [List.length_append]
    exact Nat.dvd_add hpseudo hheader
  · simp only [List.length_append, length_header, length_le16, List.length_cons, List.length_nil]
    omega
  · omega
  · simp only [List.length_append, length_header, length_le16, List.length_cons, List.length_nil]
    omega

/-- The checksums of a packet that is written are right, whatever the packet, as long as its length
has room in its header. -/
theorem correct_tcp_bytes (hlen : p.segmentLength < 2 ^ 16) :
    Correct p.version p.saddr p.daddr IPPROTO_TCP p.bytes := by
  apply Correct.of_segment
  rw [length_segment, segment, p.checksum_eq hlen]
  refine verifies_segment hlen (by simp) ?_
  rw [segmentLength] at hlen
  simp only [List.length_append, length_header, List.length_cons, List.length_nil]
  omega

/-- An acknowledgement with an odd number of bytes. -/
def threeBytes (version : Version) : TcpPacket where
  version := version
  saddr := .replicate 16 2
  daddr := .replicate 16 1
  source := 8080
  dest := 40000
  seq := 501
  ackSeq := 103
  window := 1000
  syn := false
  ack := true
  fin := false
  rst := false
  scale := 7
  data := [1, 2, 3]

theorem correct_tcp_bytes_threeBytes : Correct .v6 (.replicate 16 2) (.replicate 16 1) IPPROTO_TCP
    (threeBytes .v6).bytes :=
  (threeBytes .v6).correct_tcp_bytes (by decide)

end TcpPacket

namespace UdpPacket

variable (p : UdpPacket)

@[simp] lemma length_header : p.header.length = 6 := by simp [header]

theorem correct_udp_bytes (hlen : 8 + p.data.length < 2 ^ 16) :
    Correct p.version p.saddr p.daddr IPPROTO_UDP p.bytes := by
  have hpseudo := two_dvd_pseudoHeader p.version p.saddr p.daddr IPPROTO_UDP (8 + p.data.length)
  have hlength := length_pseudoHeader_le p.version p.saddr p.daddr IPPROTO_UDP (8 + p.data.length)
  have hsegment : ∀ check, (p.segment check).length = 8 + p.data.length := fun check => by
    simp [segment]
    omega
  have hchecksum : p.checksum = ~~~calcChecksum 0
      (pseudoHeader p.version p.saddr p.daddr IPPROTO_UDP (8 + p.data.length) ++
        (p.header ++ le16 0 ++ p.data)) := by
    rw [checksum, calcChecksum_append hpseudo, calcChecksum_append]
    · simp only [List.append_assoc]
    · rw [List.length_append]
      exact Nat.dvd_add hpseudo (by simp)
    · simp only [List.length_append, length_header, length_le16]
      omega
    · simp only [List.length_append, length_header, length_le16]
      omega
  apply Correct.of_segment
  rw [hsegment, segment, hchecksum]
  refine verifies_segment hlen (by simp) ?_
  rw [length_header]
  omega

end UdpPacket

end Violet.Tun2Http
