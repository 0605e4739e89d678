import Violet.Wire.Bytes

/-!
# Requests to a proxy

`http.c`: a request to port 80 gets the host of its `Host:` header in front of its target, since it
is sent to a proxy. The functions are given the memory from the first byte of the request on, and
compare past the end of the request when the last bytes of it begin a word that they look for.
-/

namespace Violet.Tun2Http

open Wire

/-- The bytes of a text in ASCII. -/
def ascii (s : String) : List Byte := s.toList.map fun c => BitVec.ofNat 8 c.toNat

/-- A request and what lies behind it in the memory. -/
def memoryOf (data : List Byte) (beyond : ℕ → Byte) (i : ℕ) : Byte :=
  data.getD i (beyond (i - data.length))

/-! ### `find_data` -/

def toLower (b : Byte) : Byte := if 0x41 ≤ b ∧ b ≤ 0x5A then b + 0x20 else b

/-- `strncasecmp` finds no difference. -/
def matchesAt (mem : ℕ → Byte) : ℕ → List Byte → Bool
  | _, [] => true
  | pos, b :: value => toLower b = toLower (mem pos) && matchesAt mem (pos + 1) value

/-- The inner loop: on to the first byte `b`, as long as more than two bytes are left. -/
def skipTo (mem : ℕ → Byte) (b : Byte) (pos : ℕ) : ℕ → ℕ × ℕ
  | 0 => (pos, 0)
  | dataLen + 1 =>
    if mem pos ≠ b ∧ dataLen + 1 > 2 then skipTo mem b (pos + 1) dataLen else (pos, dataLen + 1)

lemma skipTo_le (mem : ℕ → Byte) (b : Byte) (pos dataLen : ℕ) :
    (skipTo mem b pos dataLen).2 ≤ dataLen := by
  fun_induction skipTo mem b pos dataLen with
  | case1 => exact le_rfl
  | case2 _ _ _ ih => omega
  | case3 => exact le_rfl

/-- Where `find_data` finds the value, from `pos` on with `dataLen` bytes left. -/
def findData (mem : ℕ → Byte) (value : List Byte) (pos dataLen : ℕ) : Option ℕ :=
  if h : dataLen > 2 then
    let next := skipTo mem (value.headD 0) pos dataLen
    if matchesAt mem next.1 value then some next.1
    else findData mem value (next.1 + 1) (next.2 - 1)
  else none
termination_by dataLen
decreasing_by
  have := skipTo_le mem (value.headD 0) pos dataLen
  omega

/-! ### `patch_http_url` -/

/-- The words that are looked for, in this order. -/
def words : List (List Byte) :=
  ["GET ", "POST ", "PUT ", "DELETE ", "HEAD ", "OPTIONS ", "PATCH ", "HEAD ", "TRACE ",
    "PROPFIND ", "PROPPATCH ", "MKCOL ", "COPY ", "MOVE ", "LOCK ", "UNLOCK ", "LINK ",
    "UNLINK "].map ascii

/-- The bytes up to the end of the line, at most `fuel` of them. -/
def hostnameAt (mem : ℕ → Byte) (pos : ℕ) : ℕ → List Byte
  | 0 => []
  | fuel + 1 => if mem pos ≠ 0x0D then mem pos :: hostnameAt mem (pos + 1) fuel else []

/-- The first word of the list that is found, and where. -/
def findWord (mem : ℕ → Byte) (dataLen : ℕ) : List (List Byte) → Option (List Byte × ℕ)
  | [] => none
  | word :: rest =>
    match findData mem word 0 dataLen with
    | some pos => some (word, pos)
    | none => findWord mem dataLen rest

/-- The request for the proxy, or `none` where the request stays as it is. Nothing comes out where a
word is found across the end of the request, since the length of what follows it is then negative.
-/
def patchHttpUrl (data : List Byte) (beyond : ℕ → Byte) : Option (Option (List Byte)) :=
  let mem := memoryOf data beyond
  match findData mem (ascii "Host: ") 0 data.length with
  | none => some none
  | some host =>
    let hostname := hostnameAt mem (host + 6) 511
    match findWord mem data.length words with
    | none => some none
    | some (word, pos) =>
      let pos₁ := pos + word.length
      if (List.range 5).all fun i => mem (pos₁ + i) = (ascii "http:").getD i 0 then some none
      else if pos₁ ≤ data.length then
        some (some (data.take pos₁ ++ ascii "http://" ++ hostname ++ data.drop pos₁))
      else none

end Violet.Tun2Http
