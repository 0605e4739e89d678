import Violet.Dart.Split
import Violet.Transition.Run

/-!
# The tags of the settings

The settings keep the tags that a search includes, excludes and blurs in memory and in the
preferences. A restart reads the preferences, where defaults stand in for what is missing and for
an earlier default.
-/

namespace Violet

open Dart Transition

/-! ### Preferences -/

/-- The texts in the preferences, unless they are missing. -/
structure TagPreferences where
  includetags : Option Str := none
  excludetags : Option Str := none
  blurredtags : Option Str := none
  deriving DecidableEq, Repr

/-- The tags in memory, over the preferences. -/
structure TagSettings where
  prefs : TagPreferences
  includeTags : Str
  excludeTags : List Str
  blurredTags : List Str
  deriving DecidableEq, Repr

/-- The excluded tags that are no longer a default. -/
def MinorShielderFilter.tags : List Str :=
  ["female:rape".toList, "male:rape".toList, "female:loli".toList, "male:shota".toList,
    "female:ryona".toList, "male:ryona".toList, "female:scat".toList, "male:scat".toList,
    "female:snuff".toList, "male:snuff".toList, "female:insect".toList,
    "female:insect_girl".toList, "male:insect".toList, "male:insect_boy".toList,
    "female:gore".toList, "male:gore".toList, "female:gag".toList, "male:gag".toList,
    "female:bondage".toList, "male:bondage".toList, "female:enema".toList, "male:enema".toList,
    "female:bdsm".toList, "male:bdsm".toList, "female:monster".toList, "male:monster".toList,
    "female:netorare".toList, "male:netorare".toList]

/-- The included tags of a region. -/
def defaultIncludeTags (localeName : Str) : Str :=
  let langcode := (localeName.splitOn '_').headD []
  let language :=
    if langcode = "ko".toList then "lang:korean".toList
    else if langcode = "ja".toList then "lang:japanese".toList
    else if langcode = "zh".toList then "lang:chinese".toList
    else "lang:english".toList
  "(".toList ++ language ++ " or lang:n/a)".toList

namespace TagSettings

/-- The excluded tags that `init` reads. -/
def storedExcludeTags (prefs : TagPreferences) : Str :=
  match prefs.excludetags with
  | none => []
  | some excludetags =>
    if excludetags = join ['|'] MinorShielderFilter.tags then [] else excludetags

/-- `init`, which writes the defaults to the preferences. -/
def init (localeName : Str) (prefs : TagPreferences) : TagSettings :=
  let includetags := prefs.includetags.getD (defaultIncludeTags localeName)
  let excludetags := storedExcludeTags prefs
  { prefs := { prefs with includetags := some includetags, excludetags := some excludetags }
    includeTags := includetags
    excludeTags := excludetags.splitOn '|'
    blurredTags := match prefs.blurredtags with
      | none => []
      | some blurredtags => blurredtags.splitOn ' ' }

def setIncludeTags (nn : Str) (s : TagSettings) : TagSettings :=
  { s with includeTags := nn, prefs := { s.prefs with includetags := some nn } }

def setExcludeTags (nn : Str) (s : TagSettings) : TagSettings :=
  { s with
    excludeTags := nn.splitOn ' '
    prefs := { s.prefs with excludetags := some (join ['|'] (nn.splitOn ' ')) } }

def setBlurredTags (nn : Str) (s : TagSettings) : TagSettings :=
  { s with
    blurredTags := nn.splitOn ' '
    prefs := { s.prefs with blurredtags := some (join ['|'] (nn.splitOn ' ')) } }

end TagSettings

inductive TagEvent where
  | setIncludeTags (nn : Str)
  | setExcludeTags (nn : Str)
  | setBlurredTags (nn : Str)
  /-- The application starts again. -/
  | restart (localeName : Str)
  deriving DecidableEq, Repr

namespace TagSettings

def step (s : TagSettings) : TagEvent → Option TagSettings
  | .setIncludeTags nn => some (s.setIncludeTags nn)
  | .setExcludeTags nn => some (s.setExcludeTags nn)
  | .setBlurredTags nn => some (s.setBlurredTags nn)
  | .restart localeName => some (init localeName s.prefs)

/-- The text of the event, if it sets one. -/
def text : TagEvent → Str
  | .setIncludeTags nn | .setExcludeTags nn | .setBlurredTags nn => nn
  | .restart _ => []

/-- No tag contains a bar. -/
def NoBars (_ : TagSettings) (e : TagEvent) : Prop := '|' ∉ text e

/-- No tag contains a bar, and at most one tag is blurred. -/
def NoBarsOneBlurred (s : TagSettings) (e : TagEvent) : Prop :=
  NoBars s e ∧ ∀ nn, e = .setBlurredTags nn → ' ' ∉ nn

/-! ### Restarts -/

/-- The preferences hold the included and the excluded tags in the form in which `init` reads them,
but for excluded tags that it replaces. -/
structure Stored (s : TagSettings) : Prop where
  include_eq : s.prefs.includetags = some s.includeTags
  exclude_eq : ∃ excludetags, s.prefs.excludetags = some excludetags ∧
    excludetags.splitOn '|' = s.excludeTags

/-- The preferences hold the blurred tags in the form in which `init` reads them. -/
def StoredBlurred (s : TagSettings) : Prop :=
  s.blurredTags = match s.prefs.blurredtags with
    | none => []
    | some blurredtags => blurredtags.splitOn ' '

variable {s t : TagSettings} {e : TagEvent} {nn : Str}

/-- Tags without bars are what the joined text is split into. -/
lemma splitOn_join_bar (h : '|' ∉ nn) :
    (join ['|'] (nn.splitOn ' ')).splitOn '|' = nn.splitOn ' ' :=
  splitOn_join (fun _ hpart hbar => h (subset_of_mem_splitOn hpart hbar)) (List.splitOn_ne_nil _ _)

lemma join_singleton_bar (h : ' ' ∉ nn) : join ['|'] (nn.splitOn ' ') = nn := by
  rw [List.splitOn_eq_singleton h]
  exact List.intercalate_singleton

lemma step_stored (h : s.Stored) (he : NoBars s e) (hs : s.step e = some t) : t.Stored := by
  cases e with
  | setIncludeTags nn =>
    cases hs
    exact ⟨rfl, h.exclude_eq⟩
  | setExcludeTags nn =>
    cases hs
    exact ⟨h.include_eq, ⟨_, rfl, splitOn_join_bar he⟩⟩
  | setBlurredTags nn =>
    cases hs
    exact ⟨h.include_eq, h.exclude_eq⟩
  | restart localeName =>
    cases hs
    exact ⟨rfl, ⟨_, rfl, rfl⟩⟩

lemma step_storedBlurred (h : s.StoredBlurred) (he : NoBarsOneBlurred s e)
    (hs : s.step e = some t) : t.StoredBlurred := by
  cases e with
  | setIncludeTags nn =>
    cases hs
    exact h
  | setExcludeTags nn =>
    cases hs
    exact h
  | setBlurredTags nn =>
    cases hs
    simp only [StoredBlurred, setBlurredTags, join_singleton_bar (he.2 nn rfl)]
  | restart localeName =>
    cases hs
    rfl

/-- The earlier default, as a text and as tags. -/
lemma eq_tags_iff {excludetags : Str} :
    excludetags = join ['|'] MinorShielderFilter.tags ↔
      excludetags.splitOn '|' = MinorShielderFilter.tags := by
  have htags : (join ['|'] MinorShielderFilter.tags).splitOn '|' = MinorShielderFilter.tags := by
    decide +kernel
  constructor
  · rintro rfl
    exact htags
  · intro h
    rw [← h]
    exact (List.intercalate_splitOn '|').symm

/-- In every run, a restart keeps the included tags, and the excluded ones unless these are an
earlier default, which is replaced by the default. It keeps the blurred tags when one is set at a
time. -/
theorem init_of_reaches (localeName : Str) (prefs : TagPreferences) :
    (∀ s, Reaches step NoBars (init localeName prefs) s → ∀ localeName',
        (init localeName' s.prefs).includeTags = s.includeTags ∧
          (init localeName' s.prefs).excludeTags =
            if s.excludeTags = MinorShielderFilter.tags then [[]] else s.excludeTags) ∧
      ∀ s, Reaches step NoBarsOneBlurred (init localeName prefs) s → ∀ localeName',
        (init localeName' s.prefs).blurredTags = s.blurredTags := by
  constructor
  · intro s h localeName'
    obtain ⟨hinclude, ⟨excludetags, hexclude, hsplit⟩⟩ :=
      h.invariant (P := Stored) ⟨rfl, ⟨_, rfl, rfl⟩⟩ fun _ _ _ ht he hs => step_stored ht he hs
    constructor
    · rw [init, hinclude]
      rfl
    · simp only [init, storedExcludeTags, hexclude]
      rw [← hsplit]
      by_cases htags : excludetags = join ['|'] MinorShielderFilter.tags
      · rw [if_pos htags, if_pos (eq_tags_iff.mp htags), List.splitOn_nil]
      · rw [if_neg htags, if_neg (mt eq_tags_iff.mpr htags)]
  · intro s h localeName'
    have hblurred : s.StoredBlurred :=
      h.invariant (P := StoredBlurred) rfl fun _ _ _ ht he hs => step_storedBlurred ht he hs
    exact hblurred.symm

/-- The tags in memory are the same. -/
structure SameTags (s t : TagSettings) : Prop where
  includeTags : t.includeTags = s.includeTags
  excludeTags : t.excludeTags = s.excludeTags
  blurredTags : t.blurredTags = s.blurredTags

/-- The tags of the earlier default, when they are excluded again, do not survive a restart. -/
theorem not_sameTags_init :
    ¬ ∀ (localeName : Str) (prefs : TagPreferences) (s : TagSettings),
      Reaches step NoBars (init localeName prefs) s →
        ∀ localeName', SameTags s (init localeName' s.prefs) := by
  intro h
  have hbars : '|' ∉ join [' '] MinorShielderFilter.tags := by decide +kernel
  have hreaches : Reaches step NoBars (init [] {})
      (setExcludeTags (join [' '] MinorShielderFilter.tags) (init [] {})) :=
    .tail .refl (e := .setExcludeTags (join [' '] MinorShielderFilter.tags)) hbars rfl
  have hsame := (h [] {} _ hreaches []).excludeTags
  revert hsame
  decide +kernel

/-- What is blurred after a restart is joined by bars but split at blanks, so it is what has been
set if and only if this is one tag. -/
theorem blurredTags_init_iff (localeName nn : Str) (s : TagSettings) :
    (init localeName (s.setBlurredTags nn).prefs).blurredTags = (s.setBlurredTags nn).blurredTags ↔
      ' ' ∉ nn := by
  have hjoin : ' ' ∉ join ['|'] (nn.splitOn ' ') :=
    notMem_join (by decide) fun _ hpart => notMem_of_mem_splitOn hpart
  have hinit : (init localeName (s.setBlurredTags nn).prefs).blurredTags =
      [join ['|'] (nn.splitOn ' ')] := List.splitOn_eq_singleton hjoin
  rw [hinit]
  constructor
  · intro h
    have hsplit : nn.splitOn ' ' = [join ['|'] (nn.splitOn ' ')] := h.symm
    have hnn : nn = join ['|'] (nn.splitOn ' ') :=
      calc nn = join [' '] (nn.splitOn ' ') := (List.intercalate_splitOn ' ').symm
        _ = join [' '] [join ['|'] (nn.splitOn ' ')] := congrArg (join [' ']) hsplit
        _ = join ['|'] (nn.splitOn ' ') := List.intercalate_singleton
    rwa [hnn]
  · intro h
    rw [join_singleton_bar h]
    exact (List.splitOn_eq_singleton h).symm

end TagSettings

end Violet
