import Mathlib.Algebra.GroupWithZero.Nat
import Mathlib.Algebra.Order.Group.Nat
import Mathlib.Data.List.Flatten
import Violet.Download.Downloadable

/-!
# Directory levels

The slashes and backslashes of a formatted path are those of its template: no value has one. Hence
the template alone tells how many components a path has. A component in which a value stands may
still come out empty, or as a reference to a directory, unless something in it remains that makes
it a name.
-/

open Dart

namespace FileNameFormat

variable {f : FileNameFormat} {raw out : Units} {ps : List Piece} {u : UInt16}

/-! ### Components -/

/-- A slash or a backslash. -/
def isSeparator (u : UInt16) : Bool := u == 47 || u == 92

def Piece.isSeparator : Piece → Bool
  | .literal u => FileNameFormat.isSeparator u
  | .value _ => false

/-- The components of a path, or of a template. -/
def components (s : Units) : List Units := s.splitOnP isSeparator

def templateComponents (ps : List Piece) : List (List Piece) := ps.splitOnP Piece.isSeparator

lemma isInvalid_of_isSeparator (h : isSeparator u = true) : isInvalid u = true := by
  simp only [isSeparator, Bool.or_eq_true, beq_iff_eq] at h
  rcases h with rfl | rfl <;> decide

/-- No value has a separator. -/
lemma isSeparator_of_mem_sanitize {s : Units} (h : u ∈ sanitize s) : isSeparator u = false := by
  by_contra hsep
  have hinvalid := isInvalid_of_isSeparator (Bool.of_not_eq_false hsep)
  exact Bool.false_ne_true ((isInvalid_of_mem_sanitize h).symm.trans hinvalid)

lemma components_append {s : Units} (h : ∀ u ∈ s, isSeparator u = false) (t : Units) :
    components (s ++ t) = (components t).modifyHead (s ++ ·) := by
  induction s with
  | nil =>
    cases hc : components t with
    | nil => exact hc
    | cons c cs => exact hc
  | cons u s ih =>
    rw [List.cons_append, components, List.splitOnP_cons_eq_if_modifyHead, h u List.mem_cons_self,
      if_neg Bool.false_ne_true]
    have hrest := ih fun v hv => h v (List.mem_cons_of_mem u hv)
    rw [components] at hrest
    rw [hrest, List.modifyHead_modifyHead]
    rfl

/-- The components of a path come from those of its template. -/
theorem components_render (f : FileNameFormat) (ps : List Piece) :
    components (f.render ps) = (templateComponents ps).map f.render := by
  induction ps with
  | nil => rfl
  | cons p ps ih =>
    have hhead (w : Units) (hw : w = f.written p) :
        (components (f.render ps)).modifyHead (w ++ ·) =
          ((templateComponents ps).modifyHead (List.cons p)).map f.render := by
      rw [ih, hw]
      cases templateComponents ps <;> rfl
    rw [render_cons, templateComponents, List.splitOnP_cons_eq_if_modifyHead]
    cases p with
    | literal u =>
      cases hu : isSeparator u with
      | true =>
        have hp : Piece.isSeparator (.literal u) = true := hu
        rw [if_pos hp, List.map_cons, ← templateComponents, ← ih, written, List.singleton_append,
          components, List.splitOnP_cons_eq_if_modifyHead, if_pos hu]
        rfl
      | false =>
        have hp : ¬ Piece.isSeparator (.literal u) = true := by simp [Piece.isSeparator, hu]
        rw [if_neg hp, written, components_append (by simpa using hu)]
        exact hhead _ rfl
    | value token =>
      have hp : ¬ Piece.isSeparator (.value token) = true := Bool.false_ne_true
      rw [if_neg hp, written, components_append fun u => isSeparator_of_mem_sanitize]
      exact hhead _ rfl

/-! ### Names -/

/-- Not empty, and neither the directory itself nor the one above it. -/
def IsName (s : Units) : Prop := s ≠ [] ∧ s ≠ [46] ∧ s ≠ [46, 46]

instance (s : Units) : Decidable (IsName s) := inferInstanceAs (Decidable (_ ∧ _))

/-- A value stands in the component. -/
def HasValue (c : List Piece) : Prop := ∃ token, .value token ∈ c

/-- No value adds, removes or climbs a directory level: the separators of the path are literal, and
a component in which a value stands is a name. -/
def KeepsLevels (f : FileNameFormat) (raw : Units) : Prop :=
  ∀ out, f.formatting raw = .ok out → ∃ ps, template raw = .ok ps ∧ out = f.render ps ∧
    (∀ token, .value token ∈ ps → ∀ u ∈ f.written (.value token), isSeparator u = false) ∧
    components out = (templateComponents ps).map f.render ∧
    ∀ c ∈ templateComponents ps, HasValue c → IsName (f.render c)

/-- A unit other than a dot remains of the part. -/
def Marks (f : FileNameFormat) : Piece → Prop
  | .literal u => u ≠ 46
  | .value token => ∃ u ∈ f.text token, u ≠ 46 ∧ (u = 124 ∨ isInvalid u = false)

/-- The number of dots of the part. -/
def dots (f : FileNameFormat) : Piece → ℕ
  | .literal u => if u = 46 then 1 else 0
  | .value token => (f.text token).count 46

/-- Wherever a value stands between two separators of the template, a unit other than a dot
remains, or there are more than two dots. -/
def Solid (f : FileNameFormat) (raw : Units) : Prop :=
  ∀ ps, template raw = .ok ps → ∀ c ∈ templateComponents ps, HasValue c →
    (∃ p ∈ c, f.Marks p) ∨ 2 < (c.map f.dots).sum

lemma isName_iff {s : Units} : IsName s ↔ (∃ u ∈ s, u ≠ 46) ∨ 2 < s.count 46 := by
  rw [IsName]
  constructor
  · rintro ⟨hnil, hone, htwo⟩
    by_contra hdots
    rw [not_or] at hdots
    obtain ⟨hall, hcount⟩ := hdots
    have hs : s = List.replicate s.length 46 :=
      List.eq_replicate_iff.mpr ⟨rfl, fun u hu => by_contra fun h => hall ⟨u, hu, h⟩⟩
    rw [hs, List.count_replicate_self] at hcount
    generalize s.length = n at hs hcount
    subst hs
    match n with
    | 0 => exact hnil rfl
    | 1 => exact hone rfl
    | 2 => exact htwo rfl
    | n + 3 => exact hcount (by omega)
  · rintro (⟨u, hu, hne⟩ | hcount)
    · refine ⟨?_, ?_, ?_⟩ <;> rintro rfl <;> simp_all
    · refine ⟨?_, ?_, ?_⟩ <;> rintro rfl <;> simp at hcount

lemma mem_sanitize {s : Units} (hu : u ∈ sanitize s) (hne : u ≠ 46) :
    ∃ v ∈ s, v ≠ 46 ∧ (v = 124 ∨ isInvalid v = false) := by
  rw [sanitize_eq] at hu
  obtain ⟨v, hv, hmem⟩ := List.mem_flatMap.mp hu
  refine ⟨v, hv, ?_⟩
  split_ifs at hmem with hbar hinvalid
  · exact ⟨by rw [hbar]; decide, .inl hbar⟩
  · cases hmem
  · obtain rfl := List.mem_singleton.mp hmem
    exact ⟨hne, .inr (Bool.eq_false_iff.mpr hinvalid)⟩

lemma exists_mem_sanitize {s : Units} {v : UInt16} (hv : v ∈ s) (hne : v ≠ 46)
    (hkept : v = 124 ∨ isInvalid v = false) : ∃ u ∈ sanitize s, u ≠ 46 := by
  rw [sanitize_eq]
  by_cases hbar : v = 124
  · exact ⟨0x3163, List.mem_flatMap.mpr ⟨v, hv, by simp [hbar]⟩, by decide⟩
  · have hvalid := hkept.resolve_left hbar
    exact ⟨v, List.mem_flatMap.mpr ⟨v, hv, by simp [hbar, hvalid]⟩, hne⟩

lemma count_sanitize (s : Units) : (sanitize s).count 46 = s.count 46 := by
  rw [sanitize_eq]
  induction s with
  | nil => rfl
  | cons u s ih =>
    rw [List.flatMap_cons, List.count_append, ih, List.count_cons, Nat.add_comm]
    congr 1
    split_ifs with hbar hdot hinvalid hdot
    · simp_all
    · rfl
    · rw [beq_iff_eq.mp hdot] at hinvalid
      exact absurd hinvalid (by decide)
    · rfl
    · simp_all
    · simp_all

/-- A part marks its component when a unit other than a dot is written for it. -/
lemma marks_iff {p : Piece} : f.Marks p ↔ ∃ u ∈ f.written p, u ≠ 46 := by
  cases p with
  | literal u => simp [Marks, written]
  | value token =>
    constructor
    · rintro ⟨v, hv, hne, hkept⟩
      exact exists_mem_sanitize hv hne hkept
    · rintro ⟨u, hu, hne⟩
      exact mem_sanitize hu hne

lemma dots_eq (f : FileNameFormat) (p : Piece) : f.dots p = (f.written p).count 46 := by
  cases p with
  | literal u => by_cases hu : u = 46 <;> simp [dots, written, hu]
  | value token => exact (count_sanitize (f.text token)).symm

lemma isName_render {c : List Piece} :
    IsName (f.render c) ↔ (∃ p ∈ c, f.Marks p) ∨ 2 < (c.map f.dots).sum := by
  rw [isName_iff]
  refine or_congr ?_ ?_
  · simp only [marks_iff, render, List.mem_flatMap]
    constructor
    · rintro ⟨u, ⟨p, hp, hu⟩, hne⟩
      exact ⟨p, hp, u, hu, hne⟩
    · rintro ⟨p, hp, u, hu, hne⟩
      exact ⟨u, ⟨p, hp, hu⟩, hne⟩
  · rw [render, List.count_flatMap]
    have hdots : f.dots = List.count 46 ∘ f.written := funext (f.dots_eq)
    rw [hdots]

/-- Levels are kept where all components with values are solid, and only there. -/
theorem keepsLevels_iff_solid (f : FileNameFormat) (raw : Units) :
    f.KeepsLevels raw ↔ f.Solid raw := by
  have hformat {ps : List Piece} (hps : template raw = .ok ps) :
      f.formatting raw = .ok (f.render ps) := by
    rw [formatting_eq, hps]
    rfl
  constructor
  · intro h ps hps c hc hvalue
    obtain ⟨ps', hps', -, -, -, hname⟩ := h _ (hformat hps)
    cases hps.symm.trans hps'
    exact isName_render.mp (hname c hc hvalue)
  · intro h out hout
    cases hps : template raw with
    | error e =>
      rw [formatting_eq, hps] at hout
      cases hout
    | ok ps =>
      obtain rfl := Except.ok.inj ((hformat hps).symm.trans hout)
      refine ⟨ps, rfl, rfl, fun token _ u hu => isSeparator_of_mem_sanitize hu,
        components_render f ps, ?_⟩
      exact fun c hc hvalue => isName_render.mpr (h ps hps c hc hvalue)

/-- An artist who is called by two dots climbs a level. -/
theorem not_keepsLevels_dots :
    ¬ KeepsLevels { extractor := units "hitomi", artist := units "..", title := units "x" }
      (units "%(extractor)s/%(artist)s/%(title)s") := by
  intro h
  have hout : FileNameFormat.formatting
      { extractor := units "hitomi", artist := units "..", title := units "x" }
      (units "%(extractor)s/%(artist)s/%(title)s") = .ok (units "hitomi/../x") := by decide
  obtain ⟨ps, hps, -, -, -, hname⟩ := h _ hout
  cases hps
  have hclimb := hname [.value (units "artist")] (by decide) ⟨_, List.mem_singleton_self _⟩
  revert hclimb
  decide

end FileNameFormat
