import Violet.Tun2Http.Tls

/-!
# Client hellos

A client hello as a TLS client writes it, and the server name that it asks for. The parser finds
that name in every client hello that has arrived as a whole, whatever else the hello offers and
whatever follows it, and finds none in a hello of which the end is missing.
-/

namespace Violet.Tun2Http

open Wire

/-! ### Client hellos -/

/-- A name of a server name list: its type, which is 0 for a host, and its bytes. -/
structure ServerName where
  nameType : Byte
  name : List Byte
  length_name : name.length < 2 ^ 16

def ServerName.bytes (n : ServerName) : List Byte := n.nameType :: (be16 n.name.length ++ n.name)

/-- An extension of a client hello: a list of server names, or one of another type. -/
inductive Extension
  | serverNames (names : List ServerName)
      (length_names : 2 + (names.flatMap ServerName.bytes).length < 2 ^ 16)
  | other (type : ℕ) (body : List Byte) (type_pos : 0 < type) (type_lt : type < 2 ^ 16)
      (length_body : body.length < 2 ^ 16)

def Extension.type : Extension → ℕ
  | serverNames _ _ => 0
  | other type _ _ _ _ => type

def Extension.body : Extension → List Byte
  | serverNames names _ =>
    be16 (names.flatMap ServerName.bytes).length ++ names.flatMap ServerName.bytes
  | other _ body _ _ _ => body

def Extension.bytes (e : Extension) : List Byte := be16 e.type ++ (be16 e.body.length ++ e.body)

lemma Extension.length_body (e : Extension) : e.body.length < 2 ^ 16 := by
  cases e with
  | serverNames names h => simpa [body] using h
  | other _ _ _ _ h => exact h

lemma Extension.type_lt (e : Extension) : e.type < 2 ^ 16 := by
  cases e with
  | serverNames _ _ => exact Nat.two_pow_pos 16
  | other _ _ _ h _ => exact h

/-- Both bytes of the type are zero for a list of server names only. -/
lemma Extension.type_bytes_iff (e : Extension) :
    BitVec.ofNat 8 (e.type / 256) = 0 ∧ BitVec.ofNat 8 e.type = 0 ↔ e.type = 0 := by
  have hlt := e.type_lt
  simp only [← BitVec.toNat_inj, BitVec.toNat_ofNat, BitVec.ofNat_eq_ofNat]
  omega

structure ClientHello where
  recordMinor : Byte
  /-- The length, the version and the random bytes, which are not looked at. -/
  fixed : List Byte
  session : List Byte
  cipherSuites : List Byte
  compressionMethods : List Byte
  extensions : List Extension
  length_fixed : fixed.length = 37
  length_session : session.length < 2 ^ 8
  length_cipherSuites : cipherSuites.length < 2 ^ 16
  length_compressionMethods : compressionMethods.length < 2 ^ 8
  length_extensions : (extensions.flatMap Extension.bytes).length < 2 ^ 16
  length_record : 1 + fixed.length + (1 + session.length) + (2 + cipherSuites.length) +
    (1 + compressionMethods.length) + (2 + (extensions.flatMap Extension.bytes).length) < 2 ^ 16

namespace ClientHello

/-- What follows the random bytes. -/
def offers (h : ClientHello) : List Byte :=
  BitVec.ofNat 8 h.session.length :: (h.session ++
    (be16 h.cipherSuites.length ++ (h.cipherSuites ++
      (BitVec.ofNat 8 h.compressionMethods.length :: (h.compressionMethods ++
        (be16 (h.extensions.flatMap Extension.bytes).length ++
          h.extensions.flatMap Extension.bytes))))))

def handshake (h : ClientHello) : List Byte :=
  TLS_HANDSHAKE_TYPE_CLIENT_HELLO :: (h.fixed ++ h.offers)

/-- The record that carries the hello. -/
def bytes (h : ClientHello) : List Byte :=
  TLS_HANDSHAKE_CONTENT_TYPE :: 3 :: h.recordMinor :: (be16 h.handshake.length ++ h.handshake)

lemma length_handshake (h : ClientHello) : h.handshake.length =
    1 + h.fixed.length + (1 + h.session.length) + (2 + h.cipherSuites.length) +
      (1 + h.compressionMethods.length) +
      (2 + (h.extensions.flatMap Extension.bytes).length) := by
  simp only [handshake, offers, List.length_cons, List.length_append, length_be16]
  omega

lemma length_bytes (h : ClientHello) : h.bytes.length = 5 + h.handshake.length := by
  simp only [bytes, List.length_cons, List.length_append, length_be16]
  omega

end ClientHello

/-! ### The name that is asked for -/

/-- The first host of a server name list, as far as it fits. -/
def hostOf : List ServerName → List Byte
  | [] => []
  | n :: names => if n.nameType = 0 then cString (n.name.take FQDN_MAX) else hostOf names

/-- The host of the first server name list. -/
def hostOfExtensions : List Extension → List Byte
  | [] => []
  | .serverNames names _ :: _ => hostOf names
  | .other _ _ _ _ _ :: extensions => hostOfExtensions extensions

def ClientHello.host (h : ClientHello) : List Byte := hostOfExtensions h.extensions

/-! ### The name that is found -/

section

variable {data : List Byte} {base dataLen pos : ℕ}

lemma parseServerNameExtension_end (h : dataLen ≤ pos + 3) :
    parseServerNameExtension data base dataLen pos = some [] := by
  rw [parseServerNameExtension, if_neg (by omega)]
  rfl

theorem parseServerNameExtension_names {names : List ServerName}
    (h : At data (base + pos) (names.flatMap ServerName.bytes))
    (hlen : pos + (names.flatMap ServerName.bytes).length = dataLen)
    (hle : base + dataLen ≤ data.length) :
    parseServerNameExtension data base dataLen pos = some (hostOf names) := by
  induction names generalizing pos with
  | nil => exact parseServerNameExtension_end (by simp at hlen; omega)
  | cons n names ih =>
    simp only [List.flatMap_cons, ServerName.bytes, List.cons_append, List.append_assoc] at h hlen
    simp only [List.length_cons, List.length_append, length_be16] at hlen
    rcases Nat.lt_or_ge (pos + 3) dataLen with hpos | hpos
    · have hname : At data (base + pos + 1 + 2) (n.name ++ names.flatMap ServerName.bytes) :=
        h.tail.right
      have hread : uint16 (BitVec.ofNat 8 (n.name.length / 256)) (BitVec.ofNat 8 n.name.length) =
          n.name.length := uint16_be16 n.length_name
      rw [parseServerNameExtension, if_pos hpos, ← add_assoc, h.tail.getElem?, ← add_assoc,
        h.tail.tail.getElem?, h.getElem?]
      simp only [Option.bind_eq_bind, Option.bind_some, hread]
      rw [if_neg (by omega)]
      by_cases htype : n.nameType = 0
      · have hcopy : copy data (base + (pos + 3)) (min n.name.length FQDN_MAX) =
            some (n.name.take FQDN_MAX) := by
          have hat : At data (base + (pos + 3)) (n.name.take FQDN_MAX) :=
            (n.name.take_prefix FQDN_MAX).trans (by
              have := hname.left
              rwa [At, show base + pos + 1 + 2 = base + (pos + 3) by omega] at this)
          have := hat.copy (by rw [List.length_take]; omega)
          rwa [List.length_take, min_comm] at this
        simp [htype, hcopy, hostOf]
      · simp only [htype, if_false, hostOf]
        refine ih ?_ (by omega)
        have := hname.right
        rwa [show base + pos + 1 + 2 + n.name.length = base + (pos + 3 + n.name.length) by omega]
          at this
    · rw [parseServerNameExtension_end hpos]
      have hname : n.name = [] := List.eq_nil_of_length_eq_zero (by omega)
      have hrest : names.flatMap ServerName.bytes = [] := List.eq_nil_of_length_eq_zero (by omega)
      have hnames : names = [] := by
        cases names with
        | nil => rfl
        | cons m names => simp [ServerName.bytes] at hrest
      by_cases htype : n.nameType = 0 <;> simp [hostOf, htype, hname, hnames, cString]

lemma length_extension_bytes (e : Extension) : e.bytes.length = 4 + e.body.length := by
  simp only [Extension.bytes, List.length_append, length_be16]
  omega

/-- The first list of server names is the one that is read. -/
theorem parseExtensions_extensions {extensions : List Extension}
    (h : At data (base + pos) (extensions.flatMap Extension.bytes))
    (hlen : pos + (extensions.flatMap Extension.bytes).length = dataLen)
    (hle : base + dataLen ≤ data.length) :
    parseExtensions data base dataLen pos = some (hostOfExtensions extensions) := by
  induction extensions generalizing pos with
  | nil =>
    rw [parseExtensions, if_neg (by simp at hlen; omega)]
    rfl
  | cons e extensions ih =>
    simp only [List.flatMap_cons, List.length_append, length_extension_bytes] at hlen
    rw [List.flatMap_cons] at h
    have htype := h.left.left
    have hbody := h.left.right
    have hread : uint16 (BitVec.ofNat 8 (e.body.length / 256)) (BitVec.ofNat 8 e.body.length) =
        e.body.length := uint16_be16 e.length_body
    have h₂ := hbody.left.getElem?
    have h₃ := hbody.left.tail.getElem?
    rw [length_be16] at h₂ h₃ hbody
    rw [parseExtensions, if_pos (by omega), ← add_assoc, h₂, ← add_assoc,
      show base + pos + 3 = base + pos + 2 + 1 from rfl, h₃, htype.getElem?, ← add_assoc,
      htype.tail.getElem?]
    simp only [Option.bind_eq_bind, Option.bind_some, hread]
    have hrest := h.right
    rw [length_extension_bytes] at hrest
    simp only [e.type_bytes_iff]
    cases e with
    | serverNames names hnames =>
      have htype₀ : (Extension.serverNames names hnames).type = 0 := rfl
      rw [if_pos htype₀, if_neg (by omega)]
      have hlist := hbody.right.right
      simp only [Extension.body, List.length_append, length_be16] at hlist hlen ⊢
      exact parseServerNameExtension_names hlist (by omega) (by omega)
    | other type body hpos hlt hlength =>
      have hne : (Extension.other type body hpos hlt hlength).type ≠ 0 := hpos.ne'
      rw [if_neg hne]
      refine ih ?_ (by omega)
      rwa [add_assoc, ← add_assoc pos] at hrest

end

/-! ### The whole hello -/

namespace ClientHello

variable {data : List Byte} {n : ℕ} {minor : Byte} {signedChar : Bool}

theorem parseHandshake_offers (h : ClientHello) {pos : ℕ} (hat : At data pos h.offers)
    (hle : pos + h.offers.length ≤ data.length) :
    parseHandshake signedChar data (pos + h.offers.length) pos 3 minor = some h.host := by
  have hoffers : h.offers.length = (1 + h.session.length) + (2 + h.cipherSuites.length) +
      (1 + h.compressionMethods.length) + (2 + (h.extensions.flatMap Extension.bytes).length) := by
    simp only [offers, List.length_cons, List.length_append, length_be16]
    omega
  generalize hL : h.offers.length = L at *
  rw [offers] at hat
  have hsession := hat.getElem?
  have hat₁ := hat.tail.right
  have hciphers := hat₁.left.getElem?
  have hciphers' := hat₁.left.tail.getElem?
  have hat₂ := hat₁.right.right
  have hmethods := hat₂.getElem?
  have hat₃ := hat₂.tail.right
  have hextensions := hat₃.left.getElem?
  have hextensions' := hat₃.left.tail.getElem?
  have hat₄ := hat₃.right
  simp only [length_be16] at *
  have hs : (BitVec.ofNat 8 h.session.length).toNat = h.session.length :=
    Nat.mod_eq_of_lt h.length_session
  have hm : (BitVec.ofNat 8 h.compressionMethods.length).toNat = h.compressionMethods.length :=
    Nat.mod_eq_of_lt h.length_compressionMethods
  have hc := uint16_be16 h.length_cipherSuites
  have he := uint16_be16 h.length_extensions
  rw [parseHandshake, if_neg (by omega), hsession]
  simp only [Option.bind_eq_bind, Option.bind_some, hs, ← add_assoc]
  rw [if_neg (by omega), hciphers, hciphers']
  simp only [Option.bind_some, hc]
  rw [if_neg (by omega), hmethods]
  simp only [Option.bind_some, hm]
  rw [parseExtensionList, if_neg (by omega), if_neg (by omega), hextensions, hextensions']
  simp only [Option.bind_eq_bind, Option.bind_some, he]
  rw [if_neg (by omega)]
  exact parseExtensions_extensions hat₄ (by omega) (by omega)

/-- The first five bytes are read before anything else, and the record must be there as a whole. -/
lemma parseTlsHeader_record (h : ClientHello) (hat : At data 0 (h.bytes.take 5)) :
    parseTlsHeader signedChar data =
      if data.length < h.bytes.length then some []
      else data[TLS_HEADER_LEN]? >>= fun handshakeType =>
        if handshakeType ≠ TLS_HANDSHAKE_TYPE_CLIENT_HELLO then some []
        else parseHandshake signedChar data h.bytes.length (TLS_HEADER_LEN + 38) 3
          h.recordMinor := by
  have hfive : 5 ≤ data.length := by
    have hle := hat.le_length (by simp [bytes])
    rw [List.length_take, length_bytes] at hle
    omega
  have hstart : h.bytes.take 5 = [TLS_HANDSHAKE_CONTENT_TYPE, 3, h.recordMinor,
      BitVec.ofNat 8 (h.handshake.length / 256), BitVec.ofNat 8 h.handshake.length] := rfl
  rw [hstart] at hat
  have hlen : uint16 (BitVec.ofNat 8 (h.handshake.length / 256))
      (BitVec.ofNat 8 h.handshake.length) + TLS_HEADER_LEN = h.bytes.length := by
    rw [uint16_be16 (by rw [length_handshake]; exact h.length_record), length_bytes, add_comm]
    rfl
  have hmajor : ¬ charValue signedChar 3 < 3 := by cases signedChar <;> decide
  have hheader : TLS_HEADER_LEN = 5 := rfl
  rw [parseTlsHeader, if_neg (by omega), hat.getElem?, hat.tail.tail.getElem?, hat.tail.getElem?,
    hat.tail.tail.tail.getElem?, hat.tail.tail.tail.tail.getElem?]
  simp only [Option.bind_eq_bind, Option.bind_some, hlen]
  rw [if_neg (fun hssl => absurd hssl.1 (by decide)), if_neg (by decide), if_neg hmajor]
  by_cases hshort : data.length < h.bytes.length
  · rw [if_pos (by omega), if_pos hshort]
    rfl
  · have hle : h.bytes.length ≤ data.length := not_lt.mp hshort
    have hsix : ¬ TLS_HEADER_LEN + 1 > h.bytes.length := by
      rw [length_bytes, length_handshake]
      omega
    rw [if_neg hshort, min_eq_right hle, if_neg (lt_irrefl _), if_neg hsix]
    rfl

/-- The name in a hello that has arrived as a whole is found, whatever follows it. -/
theorem parseTlsHeader_bytes (h : ClientHello) (signedChar : Bool) (rest : List Byte) :
    parseTlsHeader signedChar (h.bytes ++ rest) = some h.host := by
  have hat : At (h.bytes ++ rest) 0 h.bytes := .start _ _
  have htake : At (h.bytes ++ rest) 0 (h.bytes.take 5) := (List.take_prefix 5 _).trans hat
  have hle : h.bytes.length ≤ (h.bytes ++ rest).length := by simp
  rw [parseTlsHeader_record h htake, if_neg (not_lt.mpr hle)]
  have hhandshake : At (h.bytes ++ rest) 5 h.handshake := hat.tail.tail.tail.right
  have hoffers : At (h.bytes ++ rest) 43 h.offers := by
    have := hhandshake.tail.right
    rwa [h.length_fixed] at this
  have hlen : 43 + h.offers.length = h.bytes.length := by
    simp only [length_bytes, handshake, List.length_cons, List.length_append, h.length_fixed]
    omega
  rw [show TLS_HEADER_LEN = 5 from rfl, hhandshake.getElem?, ← hlen]
  exact h.parseHandshake_offers hoffers (hlen ▸ hle)

/-- No name is found in a part of a hello. -/
theorem parseTlsHeader_part (h : ClientHello) (signedChar : Bool) (hn : n < h.bytes.length) :
    parseTlsHeader signedChar (h.bytes.take n) = some [] := by
  have hlength : (h.bytes.take n).length = n := List.length_take_of_le hn.le
  rcases Nat.lt_or_ge n 5 with hfive | hfive
  · rw [parseTlsHeader, if_pos (by rw [hlength]; exact hfive)]
    rfl
  · have hat : At (h.bytes.take n) 0 (h.bytes.take 5) :=
      List.take_prefix_take_left hfive
    rw [parseTlsHeader_record h hat, if_pos (by rwa [hlength])]

/-- A hello that asks for one host. -/
def ofHost (name : List Byte) (hname : name.length < 2 ^ 8) : ClientHello where
  recordMinor := 1
  fixed := .replicate 37 0
  session := []
  cipherSuites := [0x13, 0x01]
  compressionMethods := [0]
  extensions := [.serverNames [⟨0, name, by omega⟩] (by simp [ServerName.bytes]; omega)]
  length_fixed := rfl
  length_session := by decide
  length_cipherSuites := by decide
  length_compressionMethods := by decide
  length_extensions := by simp [Extension.bytes, Extension.body, ServerName.bytes]; omega
  length_record := by simp [Extension.bytes, Extension.body, ServerName.bytes]; omega

theorem parseTlsHeader_part_ofHost :
    parseTlsHeader true ((ofHost [0x61, 0x62] (by decide)).bytes.take 60) = some [] :=
  (ofHost [0x61, 0x62] (by decide)).parseTlsHeader_part true (by decide)

end ClientHello

end Violet.Tun2Http
