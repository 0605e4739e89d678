import Violet.Transition.Orbit
import Violet.Tun2Http.Http
import Violet.Wire.Memory

/-!
# Names in DNS messages

`dns.c`: the names that are read from the queries of a client. A name is a list of labels, the rest
of which may be at another place of the message. The labels are copied to a buffer of 256 bytes, and
the byte that counts them comes back to zero when the buffer is full.

A name without pointers, or with a pointer alone, is passed over as a whole. Of a name with labels
in front of its pointer only two bytes are passed over.
-/

namespace Violet.Tun2Http

open Transition Wire

def DNS_QNAME_MAX : ℕ := 255

/-- Where `get_qname` is: the length of the next label is at `ptr`. -/
structure QnameState where
  ptr : BitVec 16
  off : BitVec 16
  compressed : Bool
  /-- What is in the buffer; its length is `noff`. -/
  name : List Byte
  noff_lt : name.length < 2 ^ 8
  deriving DecidableEq, Repr

/-- A label with a dot behind those in the buffer. -/
def addLabel (name label : List Byte) : List Byte :=
  if name.length + label.length + 1 < 2 ^ 8 then name ++ label ++ [0x2E] else []

lemma length_addLabel_lt (name label : List Byte) : (addLabel name label).length < 2 ^ 8 := by
  rw [addLabel]
  split_ifs with h
  · simpa [Nat.add_assoc] using h
  · exact Nat.two_pow_pos 8

/-- A turn of the loop of `get_qname`; `none` is its end. -/
def QnameState.next (mem : ℕ → Byte) (datalen : ℕ) (s : QnameState) : Option QnameState :=
  let len := mem s.ptr.toNat
  if len = 0 then none
  else if len &&& 0xC0 ≠ 0 then
    some
      { s with
        ptr := BitVec.ofNat 16 (uint16 (len &&& 0x3F) (mem (s.ptr.toNat + 1)))
        off := if s.compressed then s.off else s.off + 2
        compressed := true }
  else if s.ptr.toNat + 1 + len.toNat ≤ datalen ∧ s.name.length + len.toNat ≤ DNS_QNAME_MAX then
    some
      { s with
        ptr := s.ptr + BitVec.ofNat 16 (len.toNat + 1)
        name := addLabel s.name (stretch mem (s.ptr.toNat + 1) len.toNat)
        noff_lt := length_addLabel_lt _ _ }
  else none

def QnameState.start (off : BitVec 16) : QnameState := ⟨off, off, false, [], Nat.two_pow_pos 8⟩

/-- The offset behind a name, and the name. The course of the loop depends on `ptr` and `noff`, so
it ends in 2^24 turns or has no end. -/
def getQname (mem : ℕ → Byte) (datalen : ℕ) (off : BitVec 16) :
    Option (Option (BitVec 16 × List Byte)) :=
  (loop (QnameState.next mem datalen) (2 ^ 24) (.start off)).map fun s =>
    if mem s.ptr.toNat ≠ 0 ∨ s.name = [] then none
    else some (if s.compressed then s.off else s.ptr + 1, s.name.dropLast)

/-- `get_dns_query`: the type, the class and the name of a query. -/
def getDnsQuery (mem : ℕ → Byte) (datalen : ℕ) :
    Option (Option (BitVec 16 × BitVec 16 × List Byte)) :=
  if datalen < 13 then some none
  else if mem 2 &&& 0xF8 = 0 ∧ word16 mem 4 ≠ 0 then
    (getQname mem datalen 12).map fun found => do
      let (off, qname) ← found
      if 0 < off ∧ off.toNat + 4 = datalen then
        some (word16 mem off.toNat, word16 mem (off.toNat + 2), qname)
      else none
  else some none

/-- The loop of `parse_dns_response` over the answers, which it tells the log of. -/
def parseAnswers (mem : ℕ → Byte) (datalen : ℕ) : ℕ → ℕ → Option Unit
  | 0, _ => some ()
  | acount + 1, off => do
    match ← getQname mem datalen (BitVec.ofNat 16 off) with
    | none => some ()
    | some (off, _) =>
      let rdlength := (word16 mem (off.toNat + 8)).toNat
      if 0 < off ∧ off.toNat + 10 + rdlength ≤ datalen then
        parseAnswers mem datalen acount (off.toNat + 10 + rdlength)
      else some ()

/-- `parse_dns_response`. It changes nothing, but it may not end. -/
def parseDnsResponse (mem : ℕ → Byte) (datalen : ℕ) : Option Unit :=
  if datalen < 13 then some ()
  else if mem 2 &&& 0xF8 = 0x80 ∧ word16 mem 4 ≠ 0 ∧ word16 mem 6 ≠ 0 then do
    match ← getQname mem datalen 12 with
    | none => some ()
    | some (off, _) =>
      if 0 < off ∧ off.toNat + 4 ≤ datalen then
        parseAnswers mem datalen (word16 mem 6).toNat (off.toNat + 4)
      else some ()
  else some ()

/-! ### The end of the loop -/

namespace QnameState

variable {mem : ℕ → Byte} {datalen n : ℕ} {s t : QnameState}

/-- What the next turn depends on. -/
def key (s : QnameState) : ℕ := s.ptr.toNat * 2 ^ 8 + s.name.length

lemma key_lt (s : QnameState) : s.key < 2 ^ 24 := by
  have hptr := s.ptr.isLt
  have hnoff := s.noff_lt
  rw [key]
  omega

lemma key_eq_iff : s.key = t.key ↔ s.ptr = t.ptr ∧ s.name.length = t.name.length := by
  have hs := s.noff_lt
  have ht := t.noff_lt
  rw [key, key, ← BitVec.toNat_inj]
  omega

lemma map_key_next (h : s.key = t.key) :
    (s.next mem datalen).map key = (t.next mem datalen).map key := by
  obtain ⟨hptr, hnoff⟩ := key_eq_iff.mp h
  have hadd : ∀ label, (addLabel s.name label).length = (addLabel t.name label).length := by
    intro label
    simp only [addLabel, hnoff]
    split_ifs <;> simp [hnoff]
  simp only [next, apply_ite (Option.map key), Option.map_none, Option.map_some, key, hptr, hnoff,
    hadd]

/-- A loop that ends, ends in time. -/
lemma loop_in_time (h : loop (next mem datalen) n s = some t) :
    loop (next mem datalen) (2 ^ 24) s = some t :=
  loop_of_bounded (fun _ _ => map_key_next) key_lt h

end QnameState

/-! ### Names -/

/-- A name in a message, from a position on: labels, with a zero or a pointer to the rest behind
them. `stop` is where the zero is, if there is no pointer. -/
inductive NameAt (mem : ℕ → Byte) (datalen : ℕ) : ℕ → List (List Byte) → Option ℕ → Prop
  | root {pos : ℕ} (h : mem pos = 0) : NameAt mem datalen pos [] (some pos)
  | label {pos : ℕ} {label : List Byte} {labels : List (List Byte)} {stop : Option ℕ}
      (hpos : 0 < label.length) (hlt : label.length < 2 ^ 6)
      (h : Reads mem pos (BitVec.ofNat 8 label.length :: label))
      (hdata : pos + 1 + label.length ≤ datalen)
      (hrest : NameAt mem datalen (pos + 1 + label.length) labels stop) :
      NameAt mem datalen pos (label :: labels) stop
  | pointer {pos target : ℕ} {labels : List (List Byte)} {stop : Option ℕ} (hlt : target < 2 ^ 14)
      (h : Reads mem pos (be16 (0xC000 + target)))
      (hrest : NameAt mem datalen target labels stop) : NameAt mem datalen pos labels none

/-- A name with dots behind its labels. -/
def dotted (labels : List (List Byte)) : List Byte := labels.flatMap (· ++ [0x2E])

/-- The state behind a name, as far as it matters. -/
structure QnameState.Behind (s : QnameState) (labels : List (List Byte)) (stop : Option ℕ)
    (t : QnameState) : Prop where
  name : t.name = s.name ++ dotted labels
  compressed : t.compressed = (s.compressed || stop.isNone)
  ptr : ∀ p, stop = some p → t.ptr.toNat = p
  off : t.off = if s.compressed ∨ stop ≠ none then s.off else s.off + 2

section

variable {mem : ℕ → Byte} {datalen pos : ℕ} {labels : List (List Byte)} {stop : Option ℕ}

lemma length_bits : ∀ n < 2 ^ 6, 0 < n → (BitVec.ofNat 8 n : Byte) ≠ 0 ∧
    (BitVec.ofNat 8 n &&& 0xC0 : Byte) = 0 ∧ (BitVec.ofNat 8 n : Byte).toNat = n := by
  decide

/-- The first byte of a pointer. -/
lemma pointer_bits : ∀ n < 2 ^ 6, (BitVec.ofNat 8 (0xC0 + n) : Byte) ≠ 0 ∧
    (BitVec.ofNat 8 (0xC0 + n) &&& 0xC0 : Byte) ≠ 0 ∧
    (BitVec.ofNat 8 (0xC0 + n) &&& 0x3F : Byte).toNat = n := by
  decide

open QnameState

/-- A turn over a label. -/
lemma exists_next_label {s : QnameState} {label : List Byte} (hpos : 0 < label.length)
    (hlt : label.length < 2 ^ 6)
    (h : Reads mem s.ptr.toNat (BitVec.ofNat 8 label.length :: label))
    (hdata : s.ptr.toNat + 1 + label.length ≤ datalen)
    (hwrap : s.ptr.toNat + 1 + label.length < 2 ^ 16)
    (hfits : s.name.length + label.length + 1 < 2 ^ 8) :
    ∃ t, s.next mem datalen = some t ∧ t.ptr.toNat = s.ptr.toNat + 1 + label.length ∧
      t.off = s.off ∧ t.compressed = s.compressed ∧ t.name = s.name ++ label ++ [0x2E] := by
  obtain ⟨hne, hplain, htoNat⟩ := length_bits label.length hlt hpos
  have hmax : DNS_QNAME_MAX = 255 := rfl
  obtain ⟨hlen, hlabel⟩ := h
  simp only [next, hlen, htoNat, hlabel.stretch_eq]
  rw [if_neg hne, if_neg (not_not.mpr hplain), if_pos (by omega)]
  refine ⟨_, rfl, ?_, rfl, rfl, if_pos hfits⟩
  rw [BitVec.toNat_add, BitVec.toNat_ofNat]
  omega

/-- A turn over a pointer. -/
lemma exists_next_pointer {s : QnameState} {target : ℕ} (hlt : target < 2 ^ 14)
    (h : Reads mem s.ptr.toNat (be16 (0xC000 + target))) :
    ∃ t, s.next mem datalen = some t ∧ t.ptr.toNat = target ∧
      t.off = (if s.compressed then s.off else s.off + 2) ∧ t.compressed = true ∧
      t.name = s.name := by
  have hhigh : (0xC000 + target) / 256 = 0xC0 + target / 256 := by omega
  obtain ⟨hne, hpointer, htoNat⟩ := pointer_bits (target / 256) (by omega)
  obtain ⟨hlen, hlow, -⟩ := h
  rw [hhigh] at hlen
  simp only [next, hlen, hlow]
  rw [if_neg hne, if_pos hpointer]
  refine ⟨_, rfl, ?_, rfl, rfl, rfl⟩
  rw [uint16, htoNat, BitVec.toNat_ofNat, BitVec.toNat_ofNat]
  omega

/-- A name is read to its end, whatever has been read before. -/
lemma NameAt.exists_loop (h : NameAt mem datalen pos labels stop) (hdatalen : datalen < 2 ^ 16)
    (s : QnameState) (hpos : s.ptr.toNat = pos)
    (hfits : s.name.length + (dotted labels).length < 2 ^ 8) :
    ∃ n t, loop (next mem datalen) n s = some t ∧ mem t.ptr.toNat = 0 ∧ s.Behind labels stop t := by
  induction h generalizing s with
  | root h =>
    subst hpos
    refine ⟨1, s, loop_succ_of_none (by simp [next, h]), h, by simp [dotted], by simp, ?_, by simp⟩
    rintro p hp
    cases hp
    rfl
  | @label pos label labels stop hlength hlt h hdata hrest ih =>
    subst hpos
    have hdotted : dotted (label :: labels) = label ++ [0x2E] ++ dotted labels := by simp [dotted]
    simp only [hdotted, List.length_append, List.length_singleton] at hfits
    obtain ⟨u, hu, hptr, hoff, hcompressed, hname⟩ :=
      exists_next_label hlength hlt h hdata (by omega) (by omega)
    have hfits' : u.name.length + (dotted labels).length < 2 ^ 8 := by
      simp only [hname, List.length_append, List.length_singleton]
      omega
    obtain ⟨n, t, hloop, hzero, hbehind⟩ := ih u hptr hfits'
    refine ⟨n + 1, t, (loop_succ_of_some hu).trans hloop, hzero, ?_, ?_, hbehind.ptr, ?_⟩
    · simp only [hbehind.name, hname, hdotted, List.append_assoc]
    · rw [hbehind.compressed, hcompressed]
    · rw [hbehind.off, hcompressed, hoff]
  | @pointer pos target labels stop hlt h hrest ih =>
    subst hpos
    obtain ⟨u, hu, hptr, hoff, hcompressed, hname⟩ := exists_next_pointer hlt h
    obtain ⟨n, t, hloop, hzero, hbehind⟩ := ih u hptr (by rwa [hname])
    refine ⟨n + 1, t, (loop_succ_of_some hu).trans hloop, hzero, ?_, ?_, ?_, ?_⟩
    · rw [hbehind.name, hname]
    · rw [hbehind.compressed, hcompressed]
      simp
    · rintro p hp
      cases hp
    · rw [hbehind.off, hcompressed, hoff]
      simp

/-- A name of at most 255 bytes is found, also where its rest is elsewhere in the message. The
offset is the one behind it if it has no pointer, and two bytes behind its start if it has one. -/
theorem getQname_eq {off : BitVec 16} (h : NameAt mem datalen off.toNat labels stop)
    (hdatalen : datalen < 2 ^ 16) (hne : labels ≠ []) (hfits : (dotted labels).length < 2 ^ 8) :
    getQname mem datalen off = some (some
      (stop.elim (off + 2) fun p => BitVec.ofNat 16 (p + 1), (dotted labels).dropLast)) := by
  obtain ⟨n, t, hloop, hzero, hbehind⟩ := h.exists_loop hdatalen (.start off) rfl (by simpa [start])
  have hname : t.name = dotted labels := hbehind.name
  have hdotted : dotted labels ≠ [] := by
    obtain ⟨label, rest, rfl⟩ := List.exists_cons_of_ne_nil hne
    simp [dotted]
  rw [getQname, loop_in_time hloop, Option.map_some, hname, hzero]
  simp only [ne_eq, not_true_eq_false, hdotted, or_self, if_false, hbehind.compressed, hbehind.off]
  cases stop with
  | none => simp [start]
  | some p =>
    have hptr : t.ptr = BitVec.ofNat 16 p := by
      rw [← hbehind.ptr p rfl, BitVec.ofNat_toNat, BitVec.setWidth_eq]
    simp [start, hptr, BitVec.ofNat_add]

/-- Labels and pointers that lead from a position to another one. -/
inductive LeadsTo (mem : ℕ → Byte) (datalen : ℕ) (last : ℕ) : ℕ → List (List Byte) → Prop
  | here : LeadsTo mem datalen last last []
  | label {pos : ℕ} {label : List Byte} {labels : List (List Byte)} (hpos : 0 < label.length)
      (hlt : label.length < 2 ^ 6) (h : Reads mem pos (BitVec.ofNat 8 label.length :: label))
      (hdata : pos + 1 + label.length ≤ datalen) (hwrap : pos + 1 + label.length < 2 ^ 16)
      (hrest : LeadsTo mem datalen last (pos + 1 + label.length) labels) :
      LeadsTo mem datalen last pos (label :: labels)
  | pointer {pos target : ℕ} {labels : List (List Byte)} (hlt : target < 2 ^ 14)
      (h : Reads mem pos (be16 (0xC000 + target)))
      (hrest : LeadsTo mem datalen last target labels) : LeadsTo mem datalen last pos labels

/-- A loop that does not end from a position on does not end before it. -/
lemma LeadsTo.loop_eq_none {last : ℕ} (h : LeadsTo mem datalen last pos labels)
    (hlast : ∀ n (s : QnameState), s.ptr.toNat = last → loop (next mem datalen) n s = none) (n : ℕ)
    (s : QnameState) (hpos : s.ptr.toNat = pos)
    (hfits : s.name.length + (dotted labels).length < 2 ^ 8) :
    loop (next mem datalen) n s = none := by
  induction h generalizing n s with
  | here => exact hlast n s hpos
  | @label pos label labels hlength hlt h hdata hwrap hrest ih =>
    subst hpos
    have hdotted : dotted (label :: labels) = label ++ [0x2E] ++ dotted labels := by simp [dotted]
    simp only [hdotted, List.length_append, List.length_singleton] at hfits
    obtain ⟨u, hu, hptr, -, -, hname⟩ :=
      exists_next_label hlength hlt h hdata hwrap (by omega)
    cases n with
    | zero => rfl
    | succ n =>
      rw [loop_succ_of_some hu]
      refine ih n u hptr ?_
      simp only [hname, List.length_append, List.length_singleton]
      omega
  | @pointer pos target labels hlt h hrest ih =>
    subst hpos
    obtain ⟨u, hu, hptr, -, -, hname⟩ := exists_next_pointer hlt h
    cases n with
    | zero => rfl
    | succ n =>
      rw [loop_succ_of_some hu]
      exact ih n u hptr (by rwa [hname])

/-- Pointers that lead to each other are followed for ever, from wherever they are reached. -/
theorem getQname_endless {off : BitVec 16} (pointers : Set ℕ) (hpos : pos ∈ pointers)
    (hnext : ∀ pos ∈ pointers, ∃ target ∈ pointers, target < 2 ^ 14 ∧
      Reads mem pos (be16 (0xC000 + target)))
    (hleads : LeadsTo mem datalen pos off.toNat labels) (hfits : (dotted labels).length < 2 ^ 8) :
    getQname mem datalen off = none := by
  have hloop : ∀ n (s : QnameState), s.ptr.toNat ∈ pointers →
      loop (next mem datalen) n s = none := by
    intro n
    induction n with
    | zero => exact fun _ _ => rfl
    | succ n ih =>
      intro s hs
      obtain ⟨target, htarget, hlt, h⟩ := hnext s.ptr.toNat hs
      obtain ⟨t, ht, hptr, -⟩ := exists_next_pointer hlt h
      rw [loop_succ_of_some ht]
      exact ih t (hptr ▸ htarget)
  have hnone := hleads.loop_eq_none (fun n s hs => hloop n s (hs ▸ hpos)) (2 ^ 24) (.start off) rfl
    (by simpa [start])
  rw [getQname, hnone, Option.map_none]

end

/-- A message with a name that has its end elsewhere, two pointers to each other, and a label in
front of a pointer to them. -/
def compressed : ℕ → Byte := fun i =>
  [1, 0x77, 0xC0, 6, 0, 0, 2, 0x6A, 0x70, 0, 0xC0, 12, 0xC0, 10, 1, 0x77, 0xC0, 12].getD i 0

theorem getQname_eq_compressed :
    getQname compressed 14 0 = some (some (2, ascii "w.jp")) := by
  have hname : NameAt compressed 14 (0 : BitVec 16).toNat [ascii "w", ascii "jp"] none := by
    have hroot : NameAt compressed 14 9 [] (some 9) := .root rfl
    have hrest : NameAt compressed 14 6 [ascii "jp"] (some 9) :=
      .label (by decide) (by decide) ⟨rfl, rfl, rfl, trivial⟩ (by decide) hroot
    exact .label (by decide) (by decide) ⟨rfl, rfl, trivial⟩ (by decide)
      (.pointer (by decide) ⟨rfl, rfl, trivial⟩ hrest)
  exact getQname_eq hname (by decide) (by decide) (by decide)

theorem getQname_endless_compressed : getQname compressed 18 14 = none := by
  have hleads : LeadsTo compressed 18 12 (14 : BitVec 16).toNat [ascii "w"] :=
    .label (by decide) (by decide) ⟨rfl, rfl, trivial⟩ (by decide) (by decide)
      (.pointer (by decide) ⟨rfl, rfl, trivial⟩ .here)
  refine getQname_endless {10, 12} (by simp) (fun pos hpos => ?_) hleads (by decide)
  rcases hpos with rfl | rfl
  · exact ⟨12, by simp, by decide, rfl, rfl, trivial⟩
  · exact ⟨10, by simp, by decide, rfl, rfl, trivial⟩

end Violet.Tun2Http
