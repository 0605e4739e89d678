import Violet.Dart.Lines
import Violet.Script.ScriptBuiltIn

/-!
# The images of a gallery

The endpoint for a gallery answers with the files of the gallery. Of each file the addresses of an
image and two thumbnails are made up, which have the last three units of its hash in their paths.
-/

open Dart

namespace HitomiManager

open Violet (Json ScriptError)

open Violet.ScriptBuiltIn (hexParse substring substring_eq unitAt unitAt_eq)

open Program (bind_eq_ok)

/-! ### The lists -/

/-- `as String`, which null passes. -/
def asString : Option Json → Except ScriptError (Option Units)
  | none | some .null => .ok none
  | some (.string s) => .ok (some s)
  | some _ => .error .typeError

/-- A text of which a member is read. -/
def notNull : Option Units → Except ScriptError Units
  | some s => .ok s
  | none => .error .noSuchMethod

/-- `haswebp == 0 || haswebp == null` -/
def withoutWebp : Option Json → Bool
  | none | some .null => true
  | some (.int n) => n = 0
  | some (.double text) => text = units "0.0" || text = units "-0.0"
  | some _ => false

def subdomainx (rr : Map Units Json) (subdomain : Units) (p0 p1 : UInt16) : Units :=
  let subdomainx := if withoutWebp (Map.get? rr (units "haswebp")) then units "b" else subdomain
  match hexParse [p0, p1] with
  | some x =>
    let o := if x < 0x88 then 1 else 0
    let o := if x < 0x44 then 2 else o
    [97 + o]
  | none => subdomainx

/-- The address of the image of a row. -/
def imageAddress (rr : Map Units Json) (subdomainx hash : Units) (p0 p1 p2 : UInt16) :
    Except ScriptError Units :=
  if withoutWebp (Map.get? rr (units "haswebp")) then do
    let name ← notNull (← asString (Map.get? rr (units "name")))
    return units "https://" ++ subdomainx ++ units "b.hitomi.la/images/" ++ [p2] ++ units "/" ++
      [p0, p1] ++ units "/" ++ hash ++ units "." ++ (Units.split name (units ".")).getLastD []
  else if hash = [] then do
    let name ← asString (Map.get? rr (units "name"))
    return units "https://" ++ subdomainx ++ units "a.hitomi.la/webp/" ++
      name.getD (units "null") ++ units ".webp"
  else if hash.length < 3 then
    return units "https://" ++ subdomainx ++ units "a.hitomi.la/webp/" ++ hash ++ units ".webp"
  else
    return units "https://" ++ subdomainx ++ units "a.hitomi.la/webp/" ++ [p2] ++ units "/" ++
      [p0, p1] ++ units "/" ++ hash ++ units ".webp"

/-- The addresses of a row: the image, its big thumbnail and its small thumbnail. The last three
units of the hash are the `postfix` of the source. -/
def addresses (subdomain : Units) (row : Json) : Except ScriptError (Units × Units × Units) :=
  match row with
  | .map rr => do
    let hash ← notNull (← asString (Map.get? rr (units "hash")))
    let ending ← substring hash (hash.length - 3) none
    let p0 ← unitAt ending 0
    let p1 ← unitAt ending 1
    let p2 ← unitAt ending 2
    let subdomainx := subdomainx rr subdomain p0 p1
    let image ← imageAddress rr subdomainx hash p0 p1 p2
    return (image,
      units "https://tn.hitomi.la/bigtn/" ++ [p2] ++ units "/" ++ [p0, p1] ++ units "/" ++ hash ++
        units ".jpg",
      units "https://" ++ subdomainx ++ units "tn.hitomi.la/smalltn/" ++ [p2] ++ units "/" ++
        [p0, p1] ++ units "/" ++ hash ++ units ".jpg")
  | _ => throw .noSuchMethod

/-- `jsonDecode(…).cast<String, dynamic>()['files']` -/
def decodedFiles (jsonDecode : Units → Option Json) (text : Units) :
    Except ScriptError (Option Json) :=
  match jsonDecode text with
  | none => .error .formatException
  | some (.map decoded) => .ok (Map.get? decoded (units "files"))
  | some _ => .error .noSuchMethod

/-- What a loop goes through. -/
def elements : Option Json → Except ScriptError (List Json)
  | none | some .null => .error .noSuchMethod
  | some (.list rows) => .ok rows
  | some _ => .error .typeError

/-- The lists of images, big thumbnails and small thumbnails for the body of the answer, which are
null when the answer is a page. -/
def getImageList (jsonDecode : Units → Option Json) (id body : Units) :
    Except ScriptError (Option (List Units × List Units × List Units)) := do
  if Units.startsWith (Units.trim body) (units "<html>") then return none
  let start : ℕ := ((Units.indexOf? body (units "=")).map (· + 1)).getD 0
  let files ← decodedFiles jsonDecode (← substring body start none)
  let subdomain := [97 + (← unitAt id (id.length - 1)) % 3]
  let lists ← (← elements files).foldlM
    (fun (result, btresult, stresult) row => do
      let (image, big, small) ← addresses subdomain row
      return (result ++ [image], btresult ++ [big], stresult ++ [small]))
    (([], [], []) : List Units × List Units × List Units)
  return some lists

/-! ### The files of an answer -/

/-- A file of a gallery, as it is described in the answer. -/
structure GalleryFile where
  hash : Units
  name : Units
  haswebp : Option Json

/-- The row describes the file. -/
def IsRow (row : Json) (file : GalleryFile) : Prop :=
  ∃ rr, row = .map rr ∧ Map.get? rr (units "hash") = some (.string file.hash) ∧
    Map.get? rr (units "name") = some (.string file.name) ∧
      Map.get? rr (units "haswebp") = file.haswebp

/-- The body of the answer assigns an object with the files to a variable. -/
structure Answers (jsonDecode : Units → Option Json) (body : Units) (files : List GalleryFile) :
    Prop where
  script : Units.startsWith (Units.trim body) (units "<html>") = false
  files : ∃ before after decoded rows, body = before ++ units "=" ++ after ∧ 61 ∉ before ∧
    jsonDecode after = some (.map decoded) ∧ Map.get? decoded (units "files") = some (.list rows) ∧
      List.Forall₂ IsRow rows files

/-! ### The addresses of a file -/

/-- An address on one of the servers. -/
def address (server : Units) (path : List Units) : Units :=
  units "https://" ++ server ++ units ".hitomi.la/" ++ Units.join (units "/") path

lemma address_eq (server kind file : Units) (a b c : UInt16) :
    address server [kind, [c], [a, b], file] = units "https://" ++ server ++
      units ".hitomi.la/" ++ (kind ++ (units "/" ++ (c :: (units "/" ++ (a :: b ::
        (units "/" ++ file)))))) := by
  simp [address, Units.join, List.intercalate]

/-- The letter of the servers for a file: it goes by the hash, or else by the gallery. -/
def GalleryFile.letter (file : GalleryFile) (last a b : UInt16) : UInt16 :=
  match hexParse [a, b] with
  | some x => if x < 0x44 then 99 else if x < 0x88 then 98 else 97
  | none => if withoutWebp file.haswebp then 98 else 97 + last % 3

/-- The addresses of a file whose hash ends with `a`, `b` and `c`, in a gallery whose number ends
with `last`. -/
def GalleryFile.addresses (file : GalleryFile) (last a b c : UInt16) : Units × Units × Units :=
  let letter := file.letter last a b
  let path (kind ext : Units) : List Units := [kind, [c], [a, b], file.hash ++ units "." ++ ext]
  (if withoutWebp file.haswebp then
      address (letter :: units "b")
        (path (units "images") ((Units.split file.name (units ".")).getLastD []))
    else address (letter :: units "a") (path (units "webp") (units "webp")),
    address (units "tn") (path (units "bigtn") (units "jpg")),
    address (letter :: units "tn") (path (units "smalltn") (units "jpg")))

/-- The lists are as long as the files, and have the addresses of the files in turn. -/
structure Aligned (id : Units) (files : List GalleryFile)
    (lists : List Units × List Units × List Units) : Prop where
  length : lists.1.length = files.length ∧ lists.2.1.length = files.length ∧
    lists.2.2.length = files.length
  address : ∀ (i : ℕ) (file : GalleryFile), files[i]? = some file → ∃ before last stem a b c,
    id = before ++ [last] ∧ file.hash = stem ++ [a, b, c] ∧
      lists.1[i]? = some (file.addresses last a b c).1 ∧
        lists.2.1[i]? = some (file.addresses last a b c).2.1 ∧
          lists.2.2[i]? = some (file.addresses last a b c).2.2

/-- The lists are returned for the answer. -/
def Returns (jsonDecode : Units → Option Json) (id body : Units) (files : List GalleryFile) :
    Prop :=
  ∃ lists, getImageList jsonDecode id body = .ok (some lists) ∧ Aligned id files lists

/-! ### One row -/

variable {row : Json} {file : GalleryFile} {subdomain : Units}

/-- The source cuts the last three units off before it asks how long the hash is. -/
lemma addresses_of_short (hrow : IsRow row file) (hshort : file.hash.length < 3) :
    addresses subdomain row = .error .rangeError := by
  obtain ⟨rr, rfl, hhash, -⟩ := hrow
  have hsubstring : substring file.hash (file.hash.length - 3) none = .error .rangeError := by
    rw [substring, if_neg]
    omega
  rw [addresses, hhash]
  simp only [asString, notNull]
  change (substring file.hash (file.hash.length - 3) none >>= _) = _
  rw [hsubstring]
  rfl

lemma substring_ending (stem : Units) (a b c : UInt16) :
    substring (stem ++ [a, b, c]) ((stem ++ [a, b, c]).length - 3) none = .ok [a, b, c] := by
  have hlength : (stem ++ [a, b, c]).length = stem.length + 3 := by simp
  refine substring_eq (List.append_nil _).symm ?_ ?_
  · omega
  · rw [Option.getD_none, hlength]
    rfl

lemma exists_ending {hash : Units} (h : 3 ≤ hash.length) :
    ∃ stem a b c, hash = stem ++ [a, b, c] := by
  refine ⟨hash.take (hash.length - 3), ?_⟩
  have hlength : (hash.drop (hash.length - 3)).length = 3 := by
    rw [List.length_drop]
    omega
  obtain ⟨a, b, c, habc⟩ := List.length_eq_three.mp hlength
  exact ⟨a, b, c, by rw [← habc, List.take_append_drop]⟩

lemma subdomainx_eq {rr : Map Units Json} (h : Map.get? rr (units "haswebp") = file.haswebp)
    (last a b : UInt16) : subdomainx rr [97 + last % 3] a b = [file.letter last a b] := by
  unfold subdomainx GalleryFile.letter
  rw [h]
  cases hexParse [a, b] with
  | none =>
    by_cases hwebp : withoutWebp file.haswebp = true
    · simp only [if_pos hwebp]
      decide
    · simp only [if_neg hwebp]
  | some x =>
    have hletters : (97 + 2 : UInt16) = 99 ∧ (97 + 1 : UInt16) = 98 ∧ (97 + 0 : UInt16) = 97 := by
      decide
    obtain ⟨htwo, hone, hzero⟩ := hletters
    by_cases hx : x < 0x44
    · simp only [if_pos hx, htwo]
    · by_cases hx' : x < 0x88
      · simp only [if_neg hx, if_pos hx', hone]
      · simp only [if_neg hx, if_neg hx', hzero]

lemma imageAddress_eq {rr : Map Units Json} (h : Map.get? rr (units "haswebp") = file.haswebp)
    (hname : Map.get? rr (units "name") = some (.string file.name)) (hlength : 3 ≤ file.hash.length)
    (last a b c : UInt16) :
    imageAddress rr [file.letter last a b] file.hash a b c =
      .ok (file.addresses last a b c).1 := by
  rw [imageAddress, h, hname, GalleryFile.addresses]
  by_cases hwebp : withoutWebp file.haswebp = true
  · have hhost : units "b.hitomi.la/images/" =
        units "b" ++ (units ".hitomi.la/" ++ (units "images" ++ units "/")) := by decide
    rw [if_pos hwebp, if_pos hwebp, address_eq, hhost]
    simp only [List.append_assoc, List.cons_append, List.nil_append]
    rfl
  · have hhash : file.hash ≠ [] := List.ne_nil_of_length_pos (by omega)
    have hhost : units "a.hitomi.la/webp/" =
        units "a" ++ (units ".hitomi.la/" ++ (units "webp" ++ units "/")) := by decide
    have hext : units ".webp" = units "." ++ units "webp" := by decide
    rw [if_neg hwebp, if_neg hhash, if_neg (by omega), if_neg hwebp, address_eq, hhost, hext]
    simp only [List.append_assoc, List.cons_append, List.nil_append]
    rfl

lemma thumbnails_eq (file : GalleryFile) (last a b c : UInt16) :
    (units "https://tn.hitomi.la/bigtn/" ++ [c] ++ units "/" ++ [a, b] ++ units "/" ++ file.hash ++
        units ".jpg",
      units "https://" ++ [file.letter last a b] ++ units "tn.hitomi.la/smalltn/" ++ [c] ++
        units "/" ++ [a, b] ++ units "/" ++ file.hash ++ units ".jpg") =
      (file.addresses last a b c).2 := by
  have hbig : units "https://tn.hitomi.la/bigtn/" = units "https://" ++
      (units "tn" ++ (units ".hitomi.la/" ++ (units "bigtn" ++ units "/"))) := by decide
  have hsmall : units "tn.hitomi.la/smalltn/" =
      units "tn" ++ (units ".hitomi.la/" ++ (units "smalltn" ++ units "/")) := by decide
  have hext : units ".jpg" = units "." ++ units "jpg" := by decide
  rw [hbig, hsmall, hext, GalleryFile.addresses]
  simp only [address_eq, List.append_assoc, List.cons_append, List.nil_append]

lemma addresses_of_ending (hrow : IsRow row file) {stem : Units} {a b c : UInt16}
    (hhash : file.hash = stem ++ [a, b, c]) (last : UInt16) :
    addresses [97 + last % 3] row = .ok (file.addresses last a b c) := by
  obtain ⟨rr, rfl, hrr, hname, hwebp⟩ := hrow
  have hlength : 3 ≤ file.hash.length := by
    rw [hhash, List.length_append]
    exact Nat.le_add_left 3 stem.length
  have hsubstring : substring file.hash (file.hash.length - 3) none = .ok [a, b, c] := by
    rw [hhash]
    exact substring_ending stem a b c
  rw [addresses, hrr]
  simp only [asString, notNull]
  change (substring file.hash (file.hash.length - 3) none >>= fun ending => _) = _
  rw [hsubstring]
  change (imageAddress rr (subdomainx rr [97 + last % 3] a b) file.hash a b c >>= _) = _
  rw [subdomainx_eq hwebp, imageAddress_eq hwebp hname hlength last a b c]
  exact congrArg (fun thumbnails => Except.ok ((file.addresses last a b c).1, thumbnails))
    (thumbnails_eq file last a b c)

/-! ### The loop -/

/-- Entries that are put at the ends of three lists stay beside each other. -/
lemma foldlM_three {α β γ δ ε : Type} (f : α → Except ε (β × γ × δ)) (l : List α)
    (lists : List β × List γ × List δ) :
    l.foldlM (fun lists a => do
      let entry ← f a
      return (lists.1 ++ [entry.1], lists.2.1 ++ [entry.2.1], lists.2.2 ++ [entry.2.2])) lists =
    (l.mapM f).map fun entries => (lists.1 ++ entries.map (·.1), lists.2.1 ++ entries.map (·.2.1),
      lists.2.2 ++ entries.map (·.2.2)) := by
  induction l generalizing lists with
  | nil =>
    change Except.ok lists = Except.ok (_, _, _)
    simp
  | cons a l ih =>
    rw [List.foldlM_cons, List.mapM_cons]
    cases f a with
    | error e => rfl
    | ok entry =>
      refine (ih _).trans ?_
      change _ = (l.mapM f >>= fun entries => pure (entry :: entries)).map _
      cases l.mapM f with
      | error e => rfl
      | ok entries => exact congrArg Except.ok (by simp)

/-- The entry has the addresses of the file. -/
def IsEntry (last : UInt16) (file : GalleryFile) (entry : Units × Units × Units) : Prop :=
  ∃ stem a b c, file.hash = stem ++ [a, b, c] ∧ entry = file.addresses last a b c

/-- No row throws when all hashes are long enough. -/
lemma exists_entries {rows : List Json} {files : List GalleryFile}
    (h : List.Forall₂ IsRow rows files) (last : UInt16)
    (hlong : ∀ file ∈ files, 3 ≤ file.hash.length) :
    ∃ entries, rows.mapM (addresses [97 + last % 3]) = .ok entries ∧
      List.Forall₂ (IsEntry last) files entries := by
  induction h with
  | nil => exact ⟨[], rfl, .nil⟩
  | @cons row file rows files hrow hrows ih =>
    obtain ⟨entries, hmap, hentries⟩ := ih fun f hf => hlong f (List.mem_cons_of_mem file hf)
    obtain ⟨stem, a, b, c, hhash⟩ := exists_ending (hlong file List.mem_cons_self)
    refine ⟨file.addresses last a b c :: entries, ?_, .cons ⟨stem, a, b, c, hhash, rfl⟩ hentries⟩
    rw [List.mapM_cons, addresses_of_ending hrow hhash last, hmap]
    rfl

/-- A short hash makes its row throw. -/
lemma long_of_mapM {rows : List Json} {files : List GalleryFile}
    (h : List.Forall₂ IsRow rows files) {entries : List (Units × Units × Units)}
    (hmap : rows.mapM (addresses subdomain) = .ok entries) :
    ∀ file ∈ files, 3 ≤ file.hash.length := by
  induction h generalizing entries with
  | nil => simp
  | @cons row file rows files hrow hrows ih =>
    rw [List.mapM_cons] at hmap
    obtain ⟨entry, hentry, hrest⟩ := bind_eq_ok.mp hmap
    obtain ⟨entries, hentries, -⟩ := bind_eq_ok.mp hrest
    refine List.forall_mem_cons.mpr ⟨?_, ih hentries⟩
    by_contra hshort
    rw [addresses_of_short hrow (by omega)] at hentry
    cases hentry

/-! ### The lists of an answer -/

/-- What is left of the function when the answer has been read. -/
lemma getImageList_eq {jsonDecode : Units → Option Json} {body : Units} {files : List GalleryFile}
    (h : Answers jsonDecode body files) (id : Units) : ∃ rows, List.Forall₂ IsRow rows files ∧
      getImageList jsonDecode id body = unitAt id (id.length - 1) >>= fun last =>
        (rows.mapM (addresses [97 + last % 3])).map fun entries =>
          some (entries.map (·.1), entries.map (·.2.1), entries.map (·.2.2)) := by
  obtain ⟨before, after, decoded, rows, rfl, hbefore, hdecode, hfiles, hrows⟩ := h.files
  refine ⟨rows, hrows, ?_⟩
  have hindex : Units.indexOf? (before ++ units "=" ++ after) (units "=") = some before.length := by
    rw [List.append_assoc]
    exact Units.indexOf?_append_cons hbefore after
  have hlength : (before ++ units "=").length = before.length + 1 := by simp [units, encodeChar]
  have hsubstring : substring (before ++ units "=" ++ after) (before.length + 1 : ℕ) none =
      .ok after := by
    refine substring_eq (List.append_nil _).symm ?_ ?_
    · rw [hlength]
    · rw [Option.getD_none, List.length_append]
      rfl
  have hdecoded : decodedFiles jsonDecode after = .ok (some (.list rows)) := by
    rw [decodedFiles, hdecode, ← hfiles]
  rw [getImageList, h.script, hindex]
  simp only [Bool.false_eq_true, if_false, Option.map_some, Option.getD_some]
  change (substring _ _ none >>= fun text => _) = _
  rw [hsubstring]
  change (decodedFiles jsonDecode after >>= fun files => _) = _
  rw [hdecoded]
  change (unitAt id (id.length - 1) >>= fun last => _) = _
  refine bind_congr fun last => ?_
  have hloop := foldlM_three (addresses [97 + last % 3]) rows ([], [], [])
  change (rows.foldlM _ ([], [], []) >>= fun lists => Except.ok (some lists)) = _
  rw [hloop]
  cases rows.mapM (addresses [97 + last % 3]) <;> rfl

lemma unitAt_last (before : Units) (last : UInt16) :
    unitAt (before ++ [last]) ((before ++ [last]).length - 1) = .ok last := by
  have hlength : ((before ++ [last]).length : ℤ) - 1 = before.length := by
    rw [List.length_append, List.length_singleton]
    omega
  rw [hlength]
  exact unitAt_eq (by simp)

/-- The entries of a list that goes along with the files. -/
lemma aligned_of_entries {files : List GalleryFile} {entries : List (Units × Units × Units)}
    {last : UInt16} (h : List.Forall₂ (IsEntry last) files entries) (before : Units) :
    Aligned (before ++ [last]) files
      (entries.map (·.1), entries.map (·.2.1), entries.map (·.2.2)) := by
  have hlength := h.length_eq
  refine ⟨⟨?_, ?_, ?_⟩, fun i file hfile => ?_⟩
  · rw [List.length_map, hlength]
  · rw [List.length_map, hlength]
  · rw [List.length_map, hlength]
  · obtain ⟨hi, hget⟩ := List.getElem?_eq_some_iff.mp hfile
    obtain ⟨stem, a, b, c, hhash, hentry⟩ :=
      (List.forall₂_iff_get.mp h).2 i hi (hlength ▸ hi)
    have hget' : files.get ⟨i, hi⟩ = file := hget
    rw [hget'] at hhash hentry
    refine ⟨before, last, stem, a, b, c, rfl, hhash, ?_⟩
    have hsome : entries[i]? = some (file.addresses last a b c) :=
      List.getElem?_eq_some_iff.mpr ⟨hlength ▸ hi, hentry⟩
    simp only [List.getElem?_map, hsome, Option.map_some, and_self]

/-- The lists are returned exactly when the gallery has a number and no hash is too short. -/
theorem returns_iff_long {jsonDecode : Units → Option Json} {body : Units}
    {files : List GalleryFile} (h : Answers jsonDecode body files) (id : Units) :
    Returns jsonDecode id body files ↔ id ≠ [] ∧ ∀ file ∈ files, 3 ≤ file.hash.length := by
  obtain ⟨rows, hrows, hrun⟩ := getImageList_eq h id
  rw [Returns, hrun]
  rcases List.eq_nil_or_concat id with rfl | ⟨before, last, rfl⟩
  · refine iff_of_false ?_ fun hid => hid.1 rfl
    rintro ⟨lists, hlists, -⟩
    cases hlists
  · rw [List.concat_eq_append, unitAt_last]
    change (∃ lists, (rows.mapM (addresses [97 + last % 3])).map _ = _ ∧ _) ↔ _
    constructor
    · rintro ⟨lists, hlists, -⟩
      cases hmap : rows.mapM (addresses [97 + last % 3]) with
      | error e =>
        rw [hmap] at hlists
        cases hlists
      | ok entries => exact ⟨by simp, long_of_mapM hrows hmap⟩
    · rintro ⟨-, hlong⟩
      obtain ⟨entries, hmap, hentries⟩ := exists_entries hrows last hlong
      rw [hmap]
      exact ⟨_, rfl, aligned_of_entries hentries before⟩

/-! ### An answer -/

/-- The text of the object of a file. -/
def fileText (hash : Units) : Units :=
  units "\x7b\"name\":\"1.png\",\"hash\":\"" ++ hash ++ units "\",\"haswebp\":1\x7d"

/-- The text of an object with some files. -/
def filesText (hashes : List Units) : Units :=
  units "\x7b\"files\":[" ++ Units.join (units ",") (hashes.map fileText) ++ units "]\x7d"

def fileRow (hash : Units) : Json :=
  .map [(units "name", .string (units "1.png")), (units "hash", .string hash),
    (units "haswebp", .int 1)]

def filesDecode (hashes : List Units) (text : Units) : Option Json :=
  if text = filesText hashes then some (.map [(units "files", .list (hashes.map fileRow))])
  else none

def filesBody (hashes : List Units) : Units :=
  units "var galleryinfo" ++ units "=" ++ filesText hashes

def fileOf (hash : Units) : GalleryFile := ⟨hash, units "1.png", some (.int 1)⟩

lemma answers_filesBody {hashes : List Units}
    (h : Units.startsWith (Units.trim (filesBody hashes)) (units "<html>") = false) :
    Answers (filesDecode hashes) (filesBody hashes) (hashes.map fileOf) := by
  refine ⟨h, _, _, _, _, rfl, by decide, if_pos rfl, rfl, ?_⟩
  rw [List.forall₂_map_left_iff, List.forall₂_map_right_iff, List.forall₂_same]
  exact fun hash _ => ⟨_, rfl, rfl, rfl, rfl⟩

/-- Two files with different hashes. -/
theorem returns_iff_long_twoFiles :
    Returns (filesDecode [units "0a1", units "2b3c"]) (units "7")
      (filesBody [units "0a1", units "2b3c"]) [fileOf (units "0a1"), fileOf (units "2b3c")] :=
  (returns_iff_long (answers_filesBody (by decide +kernel)) (units "7")).mpr
    ⟨by decide, by decide⟩

/-- The branch for a hash of two units is not reached. -/
theorem not_returns_short :
    ¬ Returns (filesDecode [units "a1"]) (units "7") (filesBody [units "a1"])
      [fileOf (units "a1")] := by
  rintro ⟨lists, hlists, -⟩
  have hrun : getImageList (filesDecode [units "a1"]) (units "7") (filesBody [units "a1"]) =
      .error .rangeError := by rfl
  rw [hrun] at hlists
  cases hlists

end HitomiManager
