import Violet.Wire.Bytes
import Mathlib.Data.Int.Order.Basic
import Mathlib.Data.List.TakeWhile

/-!
# Server names

`tls.c`: the name of the server in a TLS client hello. Positions are those of the packet. Every
access to the packet may fail, and a failed access is a read behind its end.
-/

namespace Violet.Tun2Http

open Wire

def TLS_HEADER_LEN : ℕ := 5
def TLS_HANDSHAKE_CONTENT_TYPE : Byte := 0x16
def TLS_HANDSHAKE_TYPE_CLIENT_HELLO : Byte := 0x01
def FQDN_MAX : ℕ := 255

/-- What `strncpy` and the zero behind it make of some bytes, as a string. -/
def cString (bytes : List Byte) : List Byte := bytes.takeWhile (· ≠ 0)

/-- `char` has a sign on some of the machines that the library is built for. -/
def charValue (signedChar : Bool) (b : Byte) : ℤ := if signedChar then b.toInt else b.toNat

/-! ### The parser -/

/-- The names of a server name extension from `pos` on, which counts from the extension at `base`.
The result is what is stored in `hostname`, which is empty before. -/
def parseServerNameExtension (data : List Byte) (base dataLen pos : ℕ) : Option (List Byte) := do
  if pos + 3 < dataLen then
    let high ← data[base + (pos + 1)]?
    let low ← data[base + (pos + 2)]?
    let len := uint16 high low
    if pos + 3 + len > dataLen then return []
    let nameType ← data[base + pos]?
    if nameType = 0x00 then
      let name ← copy data (base + (pos + 3)) (min len FQDN_MAX)
      return cString name
    parseServerNameExtension data base dataLen (pos + 3 + len)
  else return []
termination_by dataLen - pos

/-- The extensions from `pos` on, which counts from the first one at `base`. -/
def parseExtensions (data : List Byte) (base dataLen pos : ℕ) : Option (List Byte) := do
  if pos + 4 ≤ dataLen then
    let high ← data[base + (pos + 2)]?
    let low ← data[base + (pos + 3)]?
    let len := uint16 high low
    let type₀ ← data[base + pos]?
    let type₁ ← data[base + (pos + 1)]?
    if type₀ = 0x00 ∧ type₁ = 0x00 then
      if pos + 4 + len > dataLen then return []
      parseServerNameExtension data (base + (pos + 4)) len 2
    else parseExtensions data base dataLen (pos + 4 + len)
  else return []
termination_by dataLen - pos

/-- Behind the compression methods: the extensions. -/
def parseExtensionList (signedChar : Bool) (data : List Byte) (dataLen pos : ℕ)
    (major minor : Byte) : Option (List Byte) := do
  if pos = dataLen ∧ charValue signedChar major = 3 ∧ charValue signedChar minor = 0 then return []
  if pos + 2 > dataLen then return []
  let len := uint16 (← data[pos]?) (← data[pos + 1]?)
  let pos := pos + 2
  if pos + len > dataLen then return []
  parseExtensions data pos len 0

/-- Behind the random bytes: the session, the cipher suites and the compression methods. -/
def parseHandshake (signedChar : Bool) (data : List Byte) (dataLen pos : ℕ) (major minor : Byte) :
    Option (List Byte) := do
  if pos + 1 > dataLen then return []
  let len := (← data[pos]?).toNat
  let pos := pos + (1 + len)
  if pos + 2 > dataLen then return []
  let len := uint16 (← data[pos]?) (← data[pos + 1]?)
  let pos := pos + (2 + len)
  if pos + 1 > dataLen then return []
  let len := (← data[pos]?).toNat
  let pos := pos + (1 + len)
  parseExtensionList signedChar data dataLen pos major minor

def parseTlsHeader (signedChar : Bool) (data : List Byte) : Option (List Byte) := do
  let dataLen := data.length
  if dataLen < TLS_HEADER_LEN then return []
  -- a client hello in the format of SSL 2.0
  if (← data[0]?) &&& 0x80 ≠ 0 ∧ (← data[2]?) = 1 then return []
  if (← data[0]?) ≠ TLS_HANDSHAKE_CONTENT_TYPE then return []
  let major ← data[1]?
  let minor ← data[2]?
  if charValue signedChar major < 3 then return []
  let len := uint16 (← data[3]?) (← data[4]?) + TLS_HEADER_LEN
  let dataLen := min dataLen len
  if dataLen < len then return []
  if TLS_HEADER_LEN + 1 > dataLen then return []
  if (← data[TLS_HEADER_LEN]?) ≠ TLS_HANDSHAKE_TYPE_CLIENT_HELLO then return []
  parseHandshake signedChar data dataLen (TLS_HEADER_LEN + 38) major minor

/-! ### No read behind the end -/

/-- A result without a read behind the end, which fits the buffer of the caller. -/
def FitsHostname (result : Option (List Byte)) : Prop :=
  ∃ name, result = some name ∧ name.length ≤ FQDN_MAX ∧ 0 ∉ name

lemma fitsHostname_nil : FitsHostname (some []) := ⟨[], rfl, by simp⟩

lemma fitsHostname_cString {bytes : List Byte} (h : bytes.length ≤ FQDN_MAX) :
    FitsHostname (some (cString bytes)) := by
  refine ⟨_, rfl, (List.takeWhile_sublist _).length_le.trans h, fun hmem => ?_⟩
  simpa using List.mem_takeWhile_imp hmem

lemma fitsHostname_read {data : List Byte} {i : ℕ} {f : Byte → Option (List Byte)}
    (hi : i < data.length) (h : ∀ b, FitsHostname (f b)) : FitsHostname (data[i]? >>= f) := by
  rw [List.getElem?_eq_getElem hi]
  exact h _

lemma fitsHostname_parseServerNameExtension {data : List Byte} {base dataLen pos : ℕ}
    (h : base + dataLen ≤ data.length) :
    FitsHostname (parseServerNameExtension data base dataLen pos) := by
  induction hn : dataLen - pos using Nat.strongRecOn generalizing pos with
  | ind n ih =>
    rw [parseServerNameExtension]
    split_ifs with hpos
    · refine fitsHostname_read (by omega) fun high => fitsHostname_read (by omega) fun low => ?_
      dsimp only
      split_ifs with hlen
      · exact fitsHostname_nil
      · refine fitsHostname_read (by omega) fun nameType => ?_
        split_ifs
        · rw [copy_eq_some (by omega)]
          apply fitsHostname_cString
          rw [List.length_take]
          omega
        · exact ih (dataLen - (pos + 3 + uint16 high low)) (by omega) rfl
    · exact fitsHostname_nil

lemma fitsHostname_parseExtensions {data : List Byte} {base dataLen pos : ℕ}
    (h : base + dataLen ≤ data.length) :
    FitsHostname (parseExtensions data base dataLen pos) := by
  induction hn : dataLen - pos using Nat.strongRecOn generalizing pos with
  | ind n ih =>
    rw [parseExtensions]
    split_ifs with hpos
    · refine fitsHostname_read (by omega) fun high => fitsHostname_read (by omega) fun low =>
        fitsHostname_read (by omega) fun type₀ => fitsHostname_read (by omega) fun type₁ => ?_
      split_ifs with htype hlen
      · exact fitsHostname_nil
      · exact fitsHostname_parseServerNameExtension (by omega)
      · exact ih (dataLen - (pos + 4 + uint16 high low)) (by omega) rfl
    · exact fitsHostname_nil

lemma fitsHostname_parseExtensionList {signedChar : Bool} {data : List Byte} {dataLen pos : ℕ}
    {major minor : Byte} (h : dataLen ≤ data.length) :
    FitsHostname (parseExtensionList signedChar data dataLen pos major minor) := by
  rw [parseExtensionList]
  split_ifs with hend hpos
  · exact fitsHostname_nil
  · exact fitsHostname_nil
  · refine fitsHostname_read (by omega) fun high => fitsHostname_read (by omega) fun low => ?_
    dsimp only
    split_ifs with hlen
    · exact fitsHostname_nil
    · exact fitsHostname_parseExtensions (by omega)

lemma fitsHostname_parseHandshake {signedChar : Bool} {data : List Byte} {dataLen pos : ℕ}
    {major minor : Byte} (h : dataLen ≤ data.length) :
    FitsHostname (parseHandshake signedChar data dataLen pos major minor) := by
  rw [parseHandshake]
  split_ifs with hsession
  · exact fitsHostname_nil
  refine fitsHostname_read (by omega) fun session => ?_
  dsimp only
  split_ifs with hcipher
  · exact fitsHostname_nil
  refine fitsHostname_read (by omega) fun high => fitsHostname_read (by omega) fun low => ?_
  split_ifs with hcompression
  · exact fitsHostname_nil
  exact fitsHostname_read (by omega) fun compression => fitsHostname_parseExtensionList h

lemma fitsHostname_parseTlsHeader (signedChar : Bool) (data : List Byte) :
    FitsHostname (parseTlsHeader signedChar data) := by
  have hheader : TLS_HEADER_LEN = 5 := rfl
  rw [parseTlsHeader]
  dsimp only
  split_ifs with hshort
  · exact fitsHostname_nil
  refine fitsHostname_read (by omega) fun first => fitsHostname_read (by omega) fun third => ?_
  split_ifs
  · exact fitsHostname_nil
  refine fitsHostname_read (by omega) fun type => ?_
  split_ifs
  · exact fitsHostname_nil
  refine fitsHostname_read (by omega) fun major => fitsHostname_read (by omega) fun minor => ?_
  split_ifs
  · exact fitsHostname_nil
  refine fitsHostname_read (by omega) fun high => fitsHostname_read (by omega) fun low => ?_
  split_ifs with hlen hhandshake
  · exact fitsHostname_nil
  · exact fitsHostname_nil
  refine fitsHostname_read (by omega) fun handshake => ?_
  split_ifs
  · exact fitsHostname_nil
  exact fitsHostname_parseHandshake (min_le_left _ _)

/-- Whatever the packet holds, no read is behind its end, and the name fits its buffer. -/
theorem parseTlsHeader_in_bounds (signedChar : Bool) (data : List Byte) :
    ∃ name, parseTlsHeader signedChar data = some name ∧ name.length ≤ FQDN_MAX ∧ 0 ∉ name :=
  fitsHostname_parseTlsHeader signedChar data

end Violet.Tun2Http
