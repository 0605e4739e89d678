import Violet.Dart.Split
import Violet.Download.Downloadable

/-!
# The path of a download

`extractFilePath` formats the paths of the tasks and records the directory that they have in common.
It compares the components of the directories one by one with those of the first file. Nothing
stands for an exception.
-/

open Dart

/-- What is used of the path package. -/
structure PathPackage where
  join : Units → Units → Units
  dirname : Units → Units

namespace DownloadRoutine

/-- The path of a task, unless its format throws. -/
def filePath (pkg : PathPackage) (base defaultFormat : Units) (task : DownloadTask) :
    Option Units :=
  (task.format.formatting defaultFormat).toOption.map (pkg.join base)

def filePaths (pkg : PathPackage) (base defaultFormat : Units) (tasks : List DownloadTask) :
    Option (List Units) :=
  tasks.mapM (filePath pkg base defaultFormat)

/-- `dirname(file).split('/')` -/
def directories (pkg : PathPackage) (file : Units) : List Units := (pkg.dirname file).splitOn 47

/-- The loop over so many components from `i` on: the place where the first ones differ, or behind
the last one. -/
def shareParts (cp tp : List Units) : ℕ → ℕ → Option ℕ
  | 0, i => some i
  | n + 1, i =>
    match cp[i]?, tp[i]? with
    | some c, some t => if c ≠ t then some i else shareParts cp tp n (i + 1)
    | _, _ => none

/-- The files and their common directory. -/
def extractFilePath (pkg : PathPackage) (base defaultFormat : Units) (tasks : List DownloadTask) :
    Option (List Units × Units) := do
  let files ← filePaths pkg base defaultFormat tasks
  let cp ← files[0]?.map (directories pkg)
  let vp ← (files.drop 1).foldlM
    (fun vp file => shareParts cp (directories pkg file) vp 0) cp.length
  return (files, Units.join (units "/") (cp.take vp))

/-! ### Shared components -/

variable {cp tp : List Units} {vp i m : ℕ}

/-- `tp` is a proper parent of the directory with the first `vp` components of `cp`. -/
def IsParent (cp tp : List Units) (vp : ℕ) : Prop := tp.length < vp ∧ tp <+: cp

/-- So many components are shared, `vp` at most, and no more. -/
structure Shares (cp tp : List Units) (vp m : ℕ) : Prop where
  le : m ≤ vp
  isPrefix : cp.take m <+: tp
  greatest : ∀ m' ≤ vp, cp.take m' <+: tp → m' ≤ m

lemma take_succ_isPrefix_iff (hi : i < cp.length) :
    cp.take (i + 1) <+: tp ↔ cp.take i <+: tp ∧ tp[i]? = some cp[i] := by
  constructor
  · intro h
    refine ⟨(List.take_prefix_take_left (Nat.le_succ i)).trans h, ?_⟩
    have hlen : i < (cp.take (i + 1)).length := by
      rw [List.length_take]
      omega
    rw [List.prefix_iff_getElem?.mp h i hlen, List.getElem_take]
  · rintro ⟨h, hget⟩
    refine List.prefix_iff_getElem?.mpr fun k hk => ?_
    rw [List.length_take] at hk
    rw [List.getElem_take]
    rcases Nat.lt_succ_iff_lt_or_eq.mp (lt_of_lt_of_le hk (min_le_left _ _)) with hki | rfl
    · have hlen : k < (cp.take i).length := by
        rw [List.length_take]
        omega
      rw [List.prefix_iff_getElem?.mp h k hlen, List.getElem_take]
    · exact hget

/-- The loop fails exactly at a proper parent. -/
lemma shareParts_spec {n : ℕ} (hvp : i + n ≤ cp.length) (h : cp.take i <+: tp) :
    (¬ IsParent cp tp (i + n) ∧
      ∃ m, shareParts cp tp n i = some m ∧ Shares cp tp (i + n) m) ∨
      (IsParent cp tp (i + n) ∧ shareParts cp tp n i = none) := by
  induction n generalizing i with
  | zero =>
    have hlen := h.length_le
    rw [List.length_take] at hlen
    refine .inl ⟨fun hparent => ?_, i, rfl, le_rfl, h, fun m' hm' _ => hm'⟩
    have := hparent.1
    omega
  | succ n ih =>
    have hic : i < cp.length := by omega
    rw [shareParts, List.getElem?_eq_getElem hic]
    rcases ht : tp[i]? with _ | t
    · refine .inr ⟨⟨?_, ?_⟩, rfl⟩
      · have := List.getElem?_eq_none_iff.mp ht
        omega
      · have hlen := h.length_le
        have hge := List.getElem?_eq_none_iff.mp ht
        rw [List.length_take] at hlen
        have heq : cp.take i = tp := h.eq_of_length_le (by rw [List.length_take]; omega)
        rw [← heq]
        exact List.take_prefix i cp
    · by_cases hc : cp[i] = t
      · subst hc
        have hnext := ih (by omega) ((take_succ_isPrefix_iff hic).mpr ⟨h, ht⟩)
        rw [Nat.add_right_comm, Nat.add_assoc] at hnext
        simpa using hnext
      · refine .inl ⟨fun hparent => ?_, i, if_pos hc, Nat.le_add_right i _, h, fun m' _ hm' => ?_⟩
        · have hti : i < tp.length := (List.getElem?_eq_some_iff.mp ht).1
          have hget := List.prefix_iff_getElem?.mp hparent.2 i hti
          rw [List.getElem?_eq_getElem hic, ← List.getElem?_eq_getElem hti, ht] at hget
          exact hc (Option.some.inj hget)
        · by_contra hlong
          have htake : cp.take (i + 1) <+: tp :=
            (List.take_prefix_take_left (by omega)).trans hm'
          have hget := ((take_succ_isPrefix_iff hic).mp htake).2
          rw [ht] at hget
          exact hc (Option.some.inj hget).symm

/-! ### The common directory -/

/-- The first `vp` components of `cp` are those that all directories share. -/
structure Common (cp : List Units) (done : List (List Units)) (vp : ℕ) : Prop where
  le : vp ≤ cp.length
  isPrefix : ∀ d ∈ cp :: done, cp.take vp <+: d
  greatest : ∀ parts, (∀ d ∈ cp :: done, parts <+: d) → parts <+: cp.take vp

/-- When `d` is a parent of all earlier directories, it has all components that these share. -/
def Reaches (before : List (List Units)) (d : List Units) : Prop :=
  (∀ e ∈ before, d <+: e) → ∀ parts, (∀ e ∈ before, parts <+: e) → parts <+: d

variable {done rest : List (List Units)} {d : List Units}

lemma common_nil (cp : List Units) : Common cp [] cp.length := by
  refine ⟨le_rfl, fun d hd => ?_, fun parts h => ?_⟩
  · rw [List.mem_singleton.mp hd, List.take_length]
  · rw [List.take_length]
    exact h cp List.mem_cons_self

lemma Common.concat (h : Common cp done vp) (hm : Shares cp d vp m) :
    Common cp (done ++ [d]) m := by
  refine ⟨hm.le.trans h.le, fun e he => ?_, fun parts hparts => ?_⟩
  · rw [← List.cons_append] at he
    rcases List.mem_append.mp he with he | he
    · exact (List.take_prefix_take_left hm.le).trans (h.isPrefix e he)
    · rw [List.mem_singleton.mp he]
      exact hm.isPrefix
  · have hbefore := h.greatest parts fun e he =>
      hparts e (List.cons_append ▸ List.mem_append_left [d] he)
    have hd := hparts d
      (List.mem_cons_of_mem _ (List.mem_append_right _ (List.mem_singleton_self d)))
    obtain ⟨hcp, hlen⟩ := List.prefix_take_iff.mp hbefore
    have heq : parts = cp.take parts.length := List.prefix_iff_eq_take.mp hcp
    have hle := hm.greatest parts.length hlen (heq ▸ hd)
    exact List.prefix_take_iff.mpr ⟨hcp, hle⟩

/-- The loop fails at a directory that does not reach as far as the ones before it. -/
lemma not_isParent_iff (h : Common cp done vp) : ¬ IsParent cp d vp ↔ Reaches (cp :: done) d := by
  constructor
  · intro hparent hd parts hparts
    have hlen : vp ≤ d.length := by
      by_contra hlt
      exact hparent ⟨not_le.mp hlt, hd cp List.mem_cons_self⟩
    have hcommon := h.greatest d hd
    have hle := hcommon.length_le
    rw [List.length_take, Nat.min_eq_left h.le] at hle
    have heq : d = cp.take vp := hcommon.eq_of_length (by
      rw [List.length_take, Nat.min_eq_left h.le]
      exact le_antisymm hle hlen)
    rw [heq]
    exact h.greatest parts hparts
  · rintro hreach ⟨hlt, hpre⟩
    have hle : d <+: cp.take vp := List.prefix_take_iff.mpr ⟨hpre, hlt.le⟩
    have hback := hreach (fun e he => hle.trans (h.isPrefix e he)) (cp.take vp) h.isPrefix
    have hlen := hback.length_le
    rw [List.length_take, Nat.min_eq_left h.le] at hlen
    exact absurd hlt (not_lt.mpr hlen)

/-- The loop over the other directories. -/
lemma foldlM_shareParts (h : Common cp done vp) (rest : List (List Units)) :
    ((∀ mid d tail, rest = mid ++ d :: tail → Reaches (cp :: (done ++ mid)) d) ∧
      ∃ m, rest.foldlM (fun vp tp => shareParts cp tp vp 0) vp = some m ∧
        Common cp (done ++ rest) m) ∨
    ((∃ mid d tail, rest = mid ++ d :: tail ∧ ¬ Reaches (cp :: (done ++ mid)) d) ∧
      rest.foldlM (fun vp tp => shareParts cp tp vp 0) vp = none) := by
  induction rest generalizing done vp with
  | nil =>
    refine .inl ⟨fun mid d tail heq => ?_, vp, rfl, by rwa [List.append_nil]⟩
    exact absurd heq.symm (List.append_ne_nil_of_right_ne_nil _ (List.cons_ne_nil _ _))
  | cons d rest ih =>
    have hnone : done ++ [] = done := List.append_nil done
    have hspec := shareParts_spec (i := 0) ((Nat.zero_add vp).trans_le h.le)
      (List.nil_prefix (l := d))
    rw [Nat.zero_add] at hspec
    rcases hspec with ⟨hparent, m, hm, hshares⟩ | ⟨hparent, hfail⟩
    · have hreach := (not_isParent_iff h).mp hparent
      have hassoc : done ++ d :: rest = (done ++ [d]) ++ rest := by simp
      rw [List.foldlM_cons, hm, Option.bind_eq_bind, Option.bind_some, hassoc]
      rcases ih (h.concat hshares) with ⟨hall, hrun⟩ | ⟨⟨mid, d', tail, rfl, hnot⟩, hrun⟩
      · refine .inl ⟨fun mid d' tail heq => ?_, hrun⟩
        rcases List.cons_eq_append_iff.mp heq with ⟨rfl, hcons⟩ | ⟨mid, rfl, htail⟩
        · obtain ⟨rfl, -⟩ := List.cons.inj hcons
          rwa [hnone]
        · have := hall mid d' tail htail
          rwa [List.append_assoc] at this
      · refine .inr ⟨⟨d :: mid, d', tail, rfl, ?_⟩, hrun⟩
        rwa [List.append_assoc] at hnot
    · refine .inr ⟨⟨[], d, rest, rfl, ?_⟩, ?_⟩
      · rw [hnone]
        exact fun hreach => (not_isParent_iff h).mpr hreach hparent
      · rw [List.foldlM_cons, hfail]
        rfl

/-- The text `s` is `path`, or goes on behind it with a separator. -/
def AtBoundary (path s : Units) : Prop := s = path ∨ ∃ rest, s = path ++ 47 :: rest

/-- When the paths of the tasks can be formatted, the directory that is recorded has the longest
list of components with which the directories of all files begin. -/
def RecordsCommon (pkg : PathPackage) (base defaultFormat : Units) (tasks : List DownloadTask) :
    Prop :=
  ∀ files, filePaths pkg base defaultFormat tasks = some files →
    ∃ parts, extractFilePath pkg base defaultFormat tasks =
        some (files, Units.join (units "/") parts) ∧
      (∀ file ∈ files, parts <+: directories pkg file ∧
        (parts ≠ [] → AtBoundary (Units.join (units "/") parts) (pkg.dirname file))) ∧
      ∀ parts', (∀ file ∈ files, parts' <+: directories pkg file) → parts' <+: parts

/-- When all earlier files lie in the directory of a file, it is the longest one in which they all
lie. -/
def AllReach (pkg : PathPackage) (base defaultFormat : Units) (tasks : List DownloadTask) : Prop :=
  ∀ files, filePaths pkg base defaultFormat tasks = some files →
    ∀ before d rest, files.map (directories pkg) = before ++ d :: rest → before ≠ [] →
      Reaches before d

/-- Components with which a directory begins make up its text up to a separator. -/
lemma atBoundary_of_isPrefix {parts : List Units} {s : Units} (h : parts <+: s.splitOn 47)
    (hne : parts ≠ []) : AtBoundary (Units.join (units "/") parts) s := by
  have hslash : units "/" = [47] := by decide
  obtain ⟨rest, hrest⟩ := h
  have hs : Units.join [47] (parts ++ rest) = s := by
    rw [hrest]
    exact List.intercalate_splitOn 47
  rw [hslash]
  rcases eq_or_ne rest [] with rfl | hrest'
  · rw [List.append_nil] at hs
    exact .inl hs.symm
  · refine .inr ⟨Units.join [47] rest, ?_⟩
    rw [← hs, Units.join, intercalate_append [47] hne hrest', List.append_assoc]
    rfl

lemma exists_cons_of_filePaths {pkg : PathPackage} {base defaultFormat : Units}
    {tasks : List DownloadTask} {files : List Units} (hne : tasks ≠ [])
    (h : filePaths pkg base defaultFormat tasks = some files) :
    ∃ first others, files = first :: others := by
  cases tasks with
  | nil => exact absurd rfl hne
  | cons task tasks =>
    rw [filePaths, List.mapM_cons] at h
    obtain ⟨first, -, h⟩ := Option.bind_eq_some_iff.mp h
    obtain ⟨others, -, h⟩ := Option.bind_eq_some_iff.mp h
    exact ⟨first, others, (Option.some.inj h).symm⟩

/-- The common directory is recorded exactly when no file lies in a parent of what the files before
it have in common. -/
theorem recordsCommon_iff_allReach (pkg : PathPackage) (base defaultFormat : Units)
    {tasks : List DownloadTask} (hne : tasks ≠ []) :
    RecordsCommon pkg base defaultFormat tasks ↔ AllReach pkg base defaultFormat tasks := by
  refine forall₂_congr fun files hfiles => ?_
  obtain ⟨first, others, rfl⟩ := exists_cons_of_filePaths hne hfiles
  have hextract : extractFilePath pkg base defaultFormat tasks =
      ((others.map (directories pkg)).foldlM
        (fun vp tp => shareParts (directories pkg first) tp vp 0)
        (directories pkg first).length).bind fun vp =>
          some (first :: others, Units.join (units "/") ((directories pkg first).take vp)) := by
    rw [extractFilePath, hfiles, List.foldlM_map]
    simp only [Option.bind_eq_bind, Option.bind_some, List.getElem?_cons_zero, Option.map_some,
      List.drop_succ_cons, List.drop_zero]
    rfl
  rw [hextract]
  rcases foldlM_shareParts (common_nil (directories pkg first)) (others.map (directories pkg)) with
    ⟨hall, m, hrun, hcommon⟩ | ⟨⟨mid, d, tail, heq, hnot⟩, hrun⟩
  · rw [hrun, Option.bind_some]
    refine iff_of_true ⟨_, rfl, fun file hfile => ?_, fun parts' hparts' => ?_⟩
      fun before d rest heq hbefore => ?_
    · have hpre : (directories pkg first).take m <+: directories pkg file :=
        hcommon.isPrefix _ (List.mem_map_of_mem hfile)
      exact ⟨hpre, atBoundary_of_isPrefix hpre⟩
    · refine hcommon.greatest parts' fun d hd => ?_
      have hmem : d ∈ (first :: others).map (directories pkg) := hd
      obtain ⟨file, hfile, rfl⟩ := List.mem_map.mp hmem
      exact hparts' file hfile
    · obtain ⟨e, mid, rfl⟩ := List.exists_cons_of_ne_nil hbefore
      obtain ⟨rfl, htail⟩ := List.cons.inj heq
      exact hall mid d rest htail
  · rw [hrun]
    refine iff_of_false (fun h => ?_) fun h => ?_
    · obtain ⟨parts, hnone, -⟩ := h
      cases hnone
    · refine hnot (h (directories pkg first :: mid) d tail ?_ (List.cons_ne_nil _ _))
      rw [List.map_cons, heq]
      rfl

/-- What is recorded is in front of the path of each file as well, up to a separator. -/
theorem RecordsCommon.atBoundary_file {pkg : PathPackage} {base defaultFormat : Units}
    {tasks : List DownloadTask} {files : List Units}
    (h : RecordsCommon pkg base defaultFormat tasks)
    (hfiles : filePaths pkg base defaultFormat tasks = some files) :
    ∃ parts, extractFilePath pkg base defaultFormat tasks =
        some (files, Units.join (units "/") parts) ∧
      ∀ file ∈ files, (∃ name, file = pkg.dirname file ++ 47 :: name) → parts ≠ [] →
        AtBoundary (Units.join (units "/") parts) file := by
  obtain ⟨parts, hextract, hparts, -⟩ := h files hfiles
  refine ⟨parts, hextract, fun file hfile hname hne => ?_⟩
  obtain ⟨name, hname⟩ := hname
  have hdir := (hparts file hfile).2 hne
  rw [hname]
  rcases hdir with hdir | ⟨rest, hdir⟩
  · exact .inr ⟨name, by rw [hdir]⟩
  · exact .inr ⟨rest ++ 47 :: name, by rw [hdir, List.append_assoc, List.cons_append]⟩

/-! ### Two tasks -/

/-- The functions for a base that is no root, and for files that do not lie in the root. -/
def posix : PathPackage where
  join base path := if path.head? = some 47 then path else base ++ 47 :: path
  dirname path := (path.rdropWhile (· != 47)).rdropWhile (· == 47)

/-- The tasks of two files, the second of which has another artist. -/
def twoFiles (first second : Units) : List DownloadTask :=
  [{ format := { title := units "t", artist := first, filenameWithoutExtension := units "1" } },
    { format := { title := units "t", artist := second, filenameWithoutExtension := units "2" } }]

/-- Two artists. -/
theorem recordsCommon_iff_allReach_twoArtists :
    RecordsCommon posix (units "/d") (units "%(title)s/%(artist)s/%(file)s")
        (twoFiles (units "a") (units "b")) ↔
      AllReach posix (units "/d") (units "%(title)s/%(artist)s/%(file)s")
        (twoFiles (units "a") (units "b")) :=
  recordsCommon_iff_allReach _ _ _ (List.cons_ne_nil _ _)

/-- The second file has no artist, so that it lies one directory higher. -/
theorem not_recordsCommon_noArtist :
    ¬ ∀ (pkg : PathPackage) (base defaultFormat : Units) (tasks : List DownloadTask),
      tasks ≠ [] → RecordsCommon pkg base defaultFormat tasks := by
  intro h
  have hnone : extractFilePath posix (units "/d") (units "%(title)s/%(artist)s/%(file)s")
      (twoFiles (units "a") (units "")) = none := by decide
  obtain ⟨parts, hextract, -⟩ := h posix (units "/d") (units "%(title)s/%(artist)s/%(file)s")
    (twoFiles (units "a") (units "")) (List.cons_ne_nil _ _)
    [units "/d/t/a/1", units "/d/t//2"] (by decide)
  rw [hnone] at hextract
  cases hextract

end DownloadRoutine
