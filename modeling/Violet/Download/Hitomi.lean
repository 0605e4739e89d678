import Violet.Download.Downloadable

/-!
# The files of a gallery

The pages of a gallery are numbered in the names of their files. The numbers keep the files apart,
whatever the gallery is called and whatever extensions the pages have.
-/

open Dart

namespace HitomiDonwloadManager

def defaultFormat : Units := units "%(extractor)s/[%(id)s] %(title)s/%(file)s.%(ext)s"

/-- A number with at least `pad` digits. -/
def intToString (i pad : ℕ) : Units :=
  let str := Units.ofNat i
  let paddingToAdd : ℤ := pad - str.length
  if 0 < paddingToAdd then List.replicate paddingToAdd.toNat 48 ++ str else str

/-- What is read of a row of the database. -/
structure Article where
  title : Option Units
  language : Option Units
  /-- The text of `getDateTime()`. -/
  dateTime : Units

section

-- the extension of a file name, by the library for paths
variable (extension : Units → Units)

/-- The part of an address behind its last slash. -/
def lastSegment (img : Units) : Units := (Units.split img (units "/")).getLastD []

/-- The task of the page `i`, whose fields without a value are null. -/
def pageTask (id : Units) (title laugage uploadDate : Option Units) (i : ℕ) (img : Units) :
    DownloadTask where
  url := some img
  filename := some (lastSegment img)
  referer := some (units "https://hitomi.la/reader/" ++ id ++ units ".html")
  format :=
    { title
      id := some id
      laugage
      uploadDate
      filenameWithoutExtension := some (intToString i 3)
      extension := some (Units.replaceAll (extension (lastSegment img)) (units ".") [])
      extractor := some (units "hitomi") }

/-- The tasks of a gallery, which is found in the database or is read from its block. The second
list of images are the thumbnails, of which the first is taken. -/
def createTask (id : Units) (article : Option Article) (blockTitle : Option Units)
    (images : List Units × List Units) : Option (List DownloadTask) := do
  let _ ← images.2.head?
  match article with
  | some article =>
    return images.1.mapIdx
      (pageTask extension id article.title article.language (some article.dateTime))
  | none => return images.1.mapIdx (pageTask extension id blockTitle none none)

end

/-! ### Page numbers -/

lemma isDigit_of_mem_intToString {i pad : ℕ} {u : UInt16} (h : u ∈ intToString i pad) :
    Units.IsDigit u := by
  rw [intToString] at h
  split_ifs at h
  · rcases List.mem_append.mp h with h | h
    · obtain rfl := List.eq_of_mem_replicate h
      decide
    · exact Units.isDigit_of_mem_ofNat h
  · exact Units.isDigit_of_mem_ofNat h

lemma value_intToString (i pad : ℕ) : Units.value (intToString i pad) = i := by
  rw [intToString]
  split_ifs
  · rw [Units.value_zeros_append, Units.value_ofNat]
  · exact Units.value_ofNat i

lemma intToString_injective (pad : ℕ) : Function.Injective (intToString · pad) := by
  intro i j h
  have hvalue := congrArg Units.value h
  rwa [value_intToString, value_intToString] at hvalue

lemma sanitize_of_isDigit {s : Units} (h : ∀ u ∈ s, Units.IsDigit u) :
    FileNameFormat.sanitize s = s := by
  rw [FileNameFormat.sanitize_eq]
  induction s with
  | nil => rfl
  | cons u s ih =>
    obtain ⟨h48, h57⟩ := h u List.mem_cons_self
    have hbar : u ≠ 124 := by
      rintro rfl
      exact absurd h57 (by decide)
    have hvalid : FileNameFormat.isInvalid u = false := by
      have hchars : units "/\\?%*:|\"<>" = [47, 92, 63, 37, 42, 58, 124, 34, 60, 62] := by decide
      rw [FileNameFormat.isInvalid, hchars, decide_eq_false_iff_not]
      simp only [List.mem_cons, List.not_mem_nil, or_false, ← UInt16.toNat_inj]
      simp only [UInt16.toNat_ofNat]
      omega
    rw [List.flatMap_cons, ih fun v hv => h v (List.mem_cons_of_mem u hv), if_neg hbar, hvalid]
    rfl

/-! ### Paths -/

open FileNameFormat.Piece in
lemma template_defaultFormat : FileNameFormat.template defaultFormat =
    .ok ([value (units "extractor")] ++ (units "/[").map literal ++ [value (units "id")] ++
      (units "] ").map literal ++ [value (units "title")] ++ (units "/").map literal ++
      [value (units "file")] ++ (units ".").map literal ++ [value (units "ext")]) := by
  decide

/-- The directory of a gallery, with the slash behind it. -/
def directory (id : Units) (title : Option Units) : Units :=
  units "hitomi/[" ++ FileNameFormat.sanitize id ++ units "] " ++
    FileNameFormat.sanitize (title.getD (units "null")) ++ units "/"

variable {extension : Units → Units} {id : Units} {title laugage uploadDate : Option Units}

/-- The extension as it is written. -/
def writtenExtension (extension : Units → Units) (img : Units) : Units :=
  FileNameFormat.sanitize (Units.replaceAll (extension (lastSegment img)) (units ".") [])

/-- The path of a task below the download directory. -/
def taskPath (task : DownloadTask) : Except FormatError Units :=
  task.format.formatting defaultFormat

/-- The path of a page. -/
def pagePath (extension : Units → Units) (id : Units) (title : Option Units) (i : ℕ)
    (img : Units) : Units :=
  directory id title ++ (intToString i 3 ++ 46 :: writtenExtension extension img)

lemma taskPath_pageTask (i : ℕ) (img : Units) :
    taskPath (pageTask extension id title laugage uploadDate i img) =
      .ok (pagePath extension id title i img) := by
  have hdigits : FileNameFormat.sanitize (intToString i 3) = intToString i 3 :=
    sanitize_of_isDigit fun u => isDigit_of_mem_intToString
  have hextractor : FileNameFormat.sanitize (units "hitomi") = units "hitomi" := by decide
  rw [taskPath, FileNameFormat.formatting_eq, template_defaultFormat]
  have hliterals (s : Units) : ∀ f : FileNameFormat, f.render (s.map .literal) = s := fun f => by
    induction s with
    | nil => rfl
    | cons u s ih => exact congrArg (u :: ·) ih
  have hvalue (token : Units) : ∀ f : FileNameFormat,
      f.render [.value token] = FileNameFormat.sanitize (f.text token) := fun f => by
    rw [FileNameFormat.render_cons, FileNameFormat.render_nil, List.append_nil]
    rfl
  refine congrArg Except.ok ?_
  simp only [FileNameFormat.render_append, hliterals, hvalue]
  show FileNameFormat.sanitize (units "hitomi") ++ units "/[" ++ FileNameFormat.sanitize id ++
    units "] " ++ FileNameFormat.sanitize (title.getD (units "null")) ++ units "/" ++
    FileNameFormat.sanitize (intToString i 3) ++ units "." ++ writtenExtension extension img = _
  rw [hextractor, hdigits, pagePath, directory]
  have hhitomi : units "hitomi/[" = units "hitomi" ++ units "/[" := by decide
  rw [hhitomi, List.append_assoc _ (units ".")]
  simp only [List.append_assoc]
  rfl

/-- Pages with one path have one number. -/
lemma eq_of_pagePath_eq {i j : ℕ} {img img' : Units}
    (h : pagePath extension id title i img = pagePath extension id title j img') : i = j := by
  have hfile := List.append_cancel_left h
  have hstem (k : ℕ) (s : Units) :
      (intToString k 3 ++ 46 :: s).takeWhile (· != 46) = intToString k 3 := by
    rw [List.takeWhile_append_of_pos, List.takeWhile_cons_of_neg (by decide), List.append_nil]
    intro u hu
    obtain ⟨h48, -⟩ := isDigit_of_mem_intToString hu
    rw [bne_iff_ne]
    rintro rfl
    exact absurd h48 (by decide)
  have hnumber := congrArg (List.takeWhile (· != 46)) hfile
  rw [hstem, hstem] at hnumber
  exact intToString_injective 3 hnumber

lemma nodup_pagePaths (imgs : List Units) : (imgs.mapIdx (pagePath extension id title)).Nodup := by
  rw [List.Nodup, List.pairwise_iff_getElem]
  intro i j hi hj hlt heq
  rw [List.getElem_mapIdx, List.getElem_mapIdx] at heq
  exact hlt.ne (eq_of_pagePath_eq heq)

lemma mapM_mapIdx {α β ε : Type} {f : β → Except ε Units} {task : ℕ → α → β}
    {path : ℕ → α → Units} (h : ∀ i a, f (task i a) = .ok (path i a)) (as : List α) :
    (as.mapIdx task).mapM f = .ok (as.mapIdx path) := by
  induction as generalizing task path with
  | nil => rfl
  | cons a as ih =>
    rw [List.mapIdx_cons, List.mapIdx_cons, List.mapM_cons, h, ih fun i => h (i + 1)]
    rfl

lemma mapM_taskPath (imgs : List Units) :
    (imgs.mapIdx (pageTask extension id title laugage uploadDate)).mapM taskPath =
      .ok (imgs.mapIdx (pagePath extension id title)) :=
  mapM_mapIdx taskPath_pageTask imgs

/-- The tasks of one download have different paths. -/
theorem nodup_paths {article : Option Article} {blockTitle : Option Units}
    {images : List Units × List Units} {tasks : List DownloadTask}
    (h : createTask extension id article blockTitle images = some tasks) :
    ∃ paths, tasks.mapM taskPath = .ok paths ∧ paths.Nodup := by
  obtain ⟨thumbnail, -, htasks⟩ := Option.bind_eq_some_iff.mp h
  cases article with
  | some article =>
    obtain rfl := Option.some.inj htasks
    exact ⟨_, mapM_taskPath images.1, nodup_pagePaths images.1⟩
  | none =>
    obtain rfl := Option.some.inj htasks
    exact ⟨_, mapM_taskPath images.1, nodup_pagePaths images.1⟩

theorem nodup_paths_of_two_pages : ∃ paths,
    [pageTask (fun _ => units ".webp") (units "1") (some (units "a/b")) none none 0
        (units "https://x/0.webp"),
      pageTask (fun _ => units ".webp") (units "1") (some (units "a/b")) none none 1
        (units "https://x/1.webp")].mapM taskPath = .ok paths ∧ paths.Nodup := by
  have h : createTask (fun _ => units ".webp") (units "1") none (some (units "a/b"))
      ([units "https://x/0.webp", units "https://x/1.webp"], [units "https://x/t.webp"]) =
        some _ := rfl
  exact nodup_paths h

end HitomiDonwloadManager
