import Mathlib.Data.List.Basic
import Violet.Dart.Units

/-!
# Certificates

A certificate is signed by its fields in a row, with bars between them, of which the low bytes are
taken. A bar inside a field looks like one between two fields, and a unit looks like all the others
with its low byte. So a certificate shares its signed bytes with other ones, unless all its fields
are empty; only fields without bars and wide units tell certificates apart.
-/

open Dart

/-- The fields that are signed, the last of which may be absent, and the signature. -/
structure CertData where
  authStarts : Units
  authEnds : Units
  authVersion : Units
  owner : Units
  others : Option Units
  signedData : Units

/-- What the library for signatures says on a key, bytes and a signature; `none` is an argument
error. -/
abbrev VerifySignature (κ : Type) := κ → List UInt8 → List UInt8 → Option Bool

namespace CertUtil

def verify {κ : Type} (verifySignature : VerifySignature κ) (publicKey : κ)
    (signedData signature : List UInt8) : Bool :=
  (verifySignature publicKey signedData signature).getD false

end CertUtil

namespace CertData

def getRawData (c : CertData) : Units :=
  match c.others with
  | some others =>
    c.authStarts ++ units "|" ++ c.authEnds ++ units "|" ++ c.authVersion ++ units "|" ++ c.owner ++
      units "|" ++ others
  | none => c.authStarts ++ units "|" ++ c.authEnds ++ units "|" ++ c.authVersion ++ units "|" ++
      c.owner

/-- `Uint8List.fromList(rawData.codeUnits)`. -/
def rawBytes (c : CertData) : List UInt8 := c.getRawData.map UInt16.toUInt8

/-- The signature is decoded first, which may throw. -/
def verify {κ : Type} (verifySignature : VerifySignature κ) (decode : Units → Option (List UInt8))
    (c : CertData) (rsaPub : κ) : Option Bool :=
  (decode c.signedData).map (CertUtil.verify verifySignature rsaPub c.rawBytes)

/-- The certificates have the same signed fields. -/
def Agrees (c c' : CertData) : Prop :=
  c.authStarts = c'.authStarts ∧ c.authEnds = c'.authEnds ∧ c.authVersion = c'.authVersion ∧
    c.owner = c'.owner ∧ c.others = c'.others

/-- No other certificate has the bytes of this one. -/
def Distinct (c : CertData) : Prop := ∀ c' : CertData, c'.rawBytes = c.rawBytes → c'.Agrees c

/-- A signature that has been issued for this certificate alone verifies no other one, by any
library that accepts only what has been issued. -/
def Binds (c : CertData) : Prop :=
  ∀ (κ : Type) (verifySignature : VerifySignature κ) (decode : Units → Option (List UInt8))
    (key : κ) (issued : CertData → List UInt8 → Prop) (signature : List UInt8) (c' : CertData),
    (∀ bytes sig, verifySignature key bytes sig = some true →
      ∃ c₁, issued c₁ sig ∧ c₁.rawBytes = bytes) →
    (∀ c₁, issued c₁ signature → c₁ = c) →
    decode c'.signedData = some signature →
    c'.verify verifySignature decode key = some true → c'.Agrees c

/-- All signed fields are empty, and the last one is absent. -/
def Blank (c : CertData) : Prop :=
  c.authStarts = [] ∧ c.authEnds = [] ∧ c.authVersion = [] ∧ c.owner = [] ∧ c.others = none

def fields (c : CertData) : List Units :=
  [c.authStarts, c.authEnds, c.authVersion, c.owner] ++ c.others.toList

/-- No field has a bar or a unit of more than a byte. -/
def Plain (c : CertData) : Prop := ∀ s ∈ c.fields, ∀ u ∈ s, u ≠ 124 ∧ u.toNat < 256

variable {c c' : CertData}

lemma units_bar : units "|" = [124] := by decide

lemma getRawData_eq (c : CertData) : c.getRawData = [124].intercalate c.fields := by
  rw [getRawData, fields, units_bar]
  cases c.others <;> simp [List.intercalate, List.intersperse]

lemma length_getRawData (c : CertData) :
    c.getRawData.length = c.authStarts.length + c.authEnds.length + c.authVersion.length +
      c.owner.length + 3 + c.others.elim 0 (·.length + 1) := by
  rw [getRawData, units_bar]
  cases c.others <;> simp <;> omega

/-! ### Certificates with the same bytes -/

/-- Another unit with the same low byte. -/
def widen (u : UInt16) : UInt16 := u + 256

lemma widen_ne (u : UInt16) : widen u ≠ u := by
  intro h
  have hsum := congrArg UInt16.toNat h
  rw [widen, UInt16.toNat_add] at hsum
  have hlt := u.toNat_lt
  have h256 : (256 : UInt16).toNat = 256 := rfl
  omega

lemma toUInt8_widen (u : UInt16) : (widen u).toUInt8 = u.toUInt8 := by
  rw [widen, UInt16.toUInt8_add]
  exact UInt8.add_zero _

/-- A text with another one of the same bytes. -/
lemma exists_twin {s : Units} (hs : s ≠ []) :
    ∃ t, t ≠ s ∧ t.map UInt16.toUInt8 = s.map UInt16.toUInt8 := by
  cases s with
  | nil => exact absurd rfl hs
  | cons u s =>
    refine ⟨widen u :: s, fun h => widen_ne u (List.cons.inj h).1, ?_⟩
    rw [List.map_cons, List.map_cons, toUInt8_widen]

lemma blank_of_distinct (h : c.Distinct) : c.Blank := by
  cases hothers : c.others with
  | some others =>
    -- the last two fields as one
    let twin : CertData := { c with owner := c.owner ++ units "|" ++ others, others := none }
    have hbytes : twin.rawBytes = c.rawBytes := by
      simp [twin, rawBytes, getRawData, hothers]
    obtain ⟨-, -, -, -, hnone⟩ := h twin hbytes
    rw [hothers] at hnone
    cases hnone
  | none =>
    have hblank (s : Units) (put : Units → CertData) (hput : put s = c)
        (hraw : ∀ t, t.map UInt16.toUInt8 = s.map UInt16.toUInt8 → (put t).rawBytes = c.rawBytes)
        (hagree : ∀ t, (put t).Agrees c → t = s) : s = [] := by
      by_contra hs
      obtain ⟨t, hne, ht⟩ := exists_twin hs
      exact hne (hagree t (h (put t) (hraw t ht)))
    refine ⟨?_, ?_, ?_, ?_, hothers⟩
    · refine hblank c.authStarts (fun t => { c with authStarts := t }) rfl ?_ fun t ht => ht.1
      intro t ht
      simp [rawBytes, getRawData, hothers, ht]
    · refine hblank c.authEnds (fun t => { c with authEnds := t }) rfl ?_ fun t ht => ht.2.1
      intro t ht
      simp [rawBytes, getRawData, hothers, ht]
    · refine hblank c.authVersion (fun t => { c with authVersion := t }) rfl ?_ fun t ht =>
        ht.2.2.1
      intro t ht
      simp [rawBytes, getRawData, hothers, ht]
    · refine hblank c.owner (fun t => { c with owner := t }) rfl ?_ fun t ht => ht.2.2.2.1
      intro t ht
      simp [rawBytes, getRawData, hothers, ht]

lemma distinct_of_blank (h : c.Blank) : c.Distinct := by
  obtain ⟨hstarts, hends, hversion, howner, hothers⟩ := h
  intro c' hbytes
  have hlen := congrArg List.length hbytes
  rw [rawBytes, rawBytes, List.length_map, List.length_map, length_getRawData, length_getRawData,
    hstarts, hends, hversion, howner, hothers] at hlen
  cases hothers' : c'.others with
  | some others =>
    rw [hothers'] at hlen
    simp at hlen
    omega
  | none =>
    rw [hothers'] at hlen
    simp at hlen
    refine ⟨?_, ?_, ?_, ?_, hothers'.trans hothers.symm⟩ <;> simp_all

lemma distinct_iff_blank : c.Distinct ↔ c.Blank := ⟨blank_of_distinct, distinct_of_blank⟩

lemma binds_iff_distinct : c.Binds ↔ c.Distinct := by
  constructor
  · intro h c' hbytes
    -- a library that accepts the bytes of the certificate
    let c'' : CertData := { c' with signedData := [] }
    have hagrees : c''.Agrees c := by
      refine h Unit (fun _ bytes _ => some (bytes == c.rawBytes)) (fun _ => some []) ()
        (fun c₁ _ => c₁ = c) [] c'' ?_ (fun c₁ h₁ => h₁) rfl ?_
      · intro bytes sig hsig
        exact ⟨c, rfl, (beq_iff_eq.mp (Option.some.inj hsig)).symm⟩
      · have hsame : c''.rawBytes = c.rawBytes := hbytes
        simp [verify, CertUtil.verify, hsame]
    exact hagrees
  · intro h κ verifySignature decode key issued signature c' hissued honly hdecode hverify
    rw [verify, hdecode, Option.map_some, Option.some.injEq, CertUtil.verify] at hverify
    have hsig : verifySignature key c'.rawBytes signature = some true := by
      cases hv : verifySignature key c'.rawBytes signature with
      | none => simp [hv] at hverify
      | some b =>
        rw [hv] at hverify
        exact congrArg some hverify
    obtain ⟨c₁, h₁, hbytes⟩ := hissued _ _ hsig
    rw [honly c₁ h₁] at hbytes
    exact h c' hbytes.symm

/-! ### Plain certificates -/

lemma getRawData_injective (h : c.Plain) (h' : c'.Plain) (hraw : c'.getRawData = c.getRawData) :
    c'.Agrees c := by
  have hsplit {c : CertData} (h : c.Plain) : c.getRawData.splitOn 124 = c.fields := by
    rw [getRawData_eq]
    exact List.splitOn_intercalate 124 (fun s hs hmem => (h s hs 124 hmem).1 rfl) (by simp [fields])
  have hfields : c'.fields = c.fields := by
    rw [← hsplit h', hraw, hsplit h]
  rw [fields, fields] at hfields
  cases hothers : c.others <;> cases hothers' : c'.others <;> simp_all [Agrees]

lemma mem_getRawData {u : UInt16} (hu : u ∈ c.getRawData) :
    u = 124 ∨ ∃ s ∈ c.fields, u ∈ s := by
  rw [getRawData, units_bar] at hu
  rw [fields]
  cases hothers : c.others <;> rw [hothers] at hu <;> simp at hu ⊢ <;> tauto

/-- Plain certificates have bytes of their own. -/
theorem agrees_of_plain (h : c.Plain) (h' : c'.Plain) (hbytes : c'.rawBytes = c.rawBytes) :
    c'.Agrees c := by
  have hback {c : CertData} (h : c.Plain) : c.rawBytes.map UInt8.toUInt16 = c.getRawData := by
    rw [rawBytes, List.map_map]
    refine (List.map_congr_left fun u hu => ?_).trans (List.map_id _)
    have hlt : u.toNat < 256 := by
      rcases mem_getRawData hu with rfl | ⟨s, hs, hmem⟩
      · decide
      · exact (h s hs u hmem).2
    refine UInt16.toNat_inj.mp ?_
    rw [Function.comp_apply, UInt8.toNat_toUInt16, UInt16.toNat_toUInt8, id_eq]
    exact Nat.mod_eq_of_lt hlt
  exact getRawData_injective h h' (by rw [← hback h', hbytes, hback h])

/-- The bytes tell a certificate apart from all others, and signatures are bound to it, only where
its fields are empty; among plain certificates no two have the same bytes. -/
theorem distinct_iff (c : CertData) :
    (c.Distinct ↔ c.Blank) ∧ (c.Binds ↔ c.Blank) ∧
      (c.Plain → ∀ c' : CertData, c'.Plain → c'.rawBytes = c.rawBytes → c'.Agrees c) :=
  ⟨distinct_iff_blank, binds_iff_distinct.trans distinct_iff_blank,
    fun h _ h' hbytes => agrees_of_plain h h' hbytes⟩

/-- An owner with a bar, and an owner with something else. -/
theorem not_distinct_bar : ¬ Distinct ⟨[], [], [], units "a", some (units "b"), []⟩ := by
  intro h
  obtain ⟨-, -, -, -, hothers⟩ := h ⟨[], [], [], units "a|b", none, []⟩ (by decide)
  cases hothers

end CertData
