import Violet.Bookmark.Operations
import Violet.Transition.Interleaving

/-!
# The log of the articles that are read

Reading an article inserts a row into the log, and leaving it updates a row by the time and the last
page. The row to update is the last one of the whole log, which is read some time before it is
written.
-/

namespace Violet

open Dart Transition

/-! ### The log -/

structure ArticleReadLog where
  id : ℤ
  article : Str
  datetimeStart : Str
  datetimeEnd : Option Str
  lastPage : Option ℤ
  /-- 0 for an article of the search, 1 for a bookmark. -/
  type : ℤ
  deriving DecidableEq, Repr

abbrev ReadLog := KeyedTable ArticleReadLog

/-- `getUserLog`: the rows, the last one first. -/
def getUserLog (t : ReadLog) : List ArticleReadLog := t.rows.reverse

/-- The row with a time and a last page. -/
def ArticleReadLog.setEnd (row : ArticleReadLog) (ends : Str) (lastpage : ℤ) : ArticleReadLog :=
  { row with datetimeEnd := some ends, lastPage := some lastpage }

/-- The rows differ at most in the time and the last page. -/
structure ArticleReadLog.Same (row row' : ArticleReadLog) : Prop where
  id : row.id = row'.id
  article : row.article = row'.article
  datetimeStart : row.datetimeStart = row'.datetimeStart
  type : row.type = row'.type

/-- The last row of an article. -/
def newest (t : ReadLog) (article : DartInt) : Option ArticleReadLog :=
  (getUserLog t).find? fun row => row.article = intToString article

/-- The rows after an update of the last row of an article. -/
def setNewest (t : ReadLog) (article : DartInt) (lastpage : ℤ) (ends : Str) :
    List ArticleReadLog :=
  t.rows.map fun row => if newest t article = some row then row.setEnd ends lastpage else row

/-! ### Calls -/

inductive LogTask where
  | insertUserLog (article : DartInt) (type : ℤ) (datetime : Str)
  | updateUserLog (article : DartInt) (lastpage : ℤ) (ends : Str)
  deriving DecidableEq, Repr

/-- Where a call is suspended. -/
inductive LogPlace where
  /-- Before the instance of the database. -/
  | opening
  /-- Before the insertion, or before the query for the log. -/
  | ready
  /-- With the row to update. -/
  | holding (rr : ArticleReadLog)
  | ended
  deriving DecidableEq, Repr

structure LogCall where
  task : LogTask
  place : LogPlace := .opening
  deriving DecidableEq, Repr

namespace LogCall

/-- The call at its next place. -/
def go (c : LogCall) (place : LogPlace) : LogCall := { c with place := place }

/-- A call goes on from one `await` to the next. With an empty log, an update ends by an error. -/
def resume (t : ReadLog) (c : LogCall) : Option (ReadLog × LogCall) :=
  match c.place, c.task with
  | .opening, _ => some (t, c.go .ready)
  | .ready, .insertUserLog article type datetime =>
    some (t.insert fun id =>
      { id := id
        article := intToString article
        datetimeStart := datetime
        datetimeEnd := none
        lastPage := none
        type := type }, c.go .ended)
  | .ready, .updateUserLog _ _ _ =>
    match getUserLog t with
    | [] => some (t, c.go .ended)
    | rr :: _ => some (t, c.go (.holding rr))
  | .holding rr, .updateUserLog _ lastpage ends =>
    some (t.update (fun row => row.id = rr.id) fun _ => rr.setEnd ends lastpage, c.go .ended)
  | .holding _, .insertUserLog _ _ _ => none
  | .ended, _ => none

def start (task : LogTask) : List LogCall := [{ task := task }]

/-- The article for which the call is going to insert a row. -/
def insertsFor (c : LogCall) : Option DartInt :=
  match c.place, c.task with
  | .ready, .insertUserLog article _ _ => some article
  | _, _ => none

/-- The article for which the call is going to read the log. -/
def readsFor (c : LogCall) : Option DartInt :=
  match c.place, c.task with
  | .ready, .updateUserLog article _ _ => some article
  | _, _ => none

/-- The article for which the call holds a row, and the row. -/
def holdsFor (c : LogCall) : Option (DartInt × ArticleReadLog) :=
  match c.place, c.task with
  | .holding rr, .updateUserLog article _ _ => some (article, rr)
  | _, _ => none

/-- A step of an update writes to the last row of its article only, and only when the row to update
is there. An insertion keeps all rows. -/
def ChangesNewest (t : ReadLog) (c : LogCall) (t' : ReadLog) : Prop :=
  match c.task, c.place with
  | .updateUserLog article lastpage ends, .holding _ => t'.rows = setNewest t article lastpage ends
  | .updateUserLog _ _ _, _ => t'.rows = t.rows
  | .insertUserLog _ _ _, _ => t.rows <+: t'.rows

/-! ### Admitted calls -/

/-- The log is read for an article when its last row is one of this article. -/
def ReadsOwn (t : ReadLog) (c : LogCall) : Prop :=
  ∀ article ∈ c.readsFor, ∀ row ∈ t.rows.getLast?, row.article = intToString article

/-- No row is inserted for an article while a call for it holds the row to update. -/
def InsertsApart (c d : LogCall) : Prop :=
  ∀ article ∈ c.insertsFor, ∀ held ∈ d.holdsFor, held.1 ≠ article

instance (t : ReadLog) (c : LogCall) : Decidable (ReadsOwn t c) :=
  inferInstanceAs (Decidable (∀ article ∈ c.readsFor, ∀ row ∈ t.rows.getLast?,
    row.article = intToString article))

instance (c d : LogCall) : Decidable (InsertsApart c d) :=
  inferInstanceAs (Decidable (∀ article ∈ c.insertsFor, ∀ held ∈ d.holdsFor, held.1 ≠ article))

/-! ### The invariant -/

/-- No number is used twice. -/
def Numbered (t : ReadLog) : Prop :=
  (t.rows.map ArticleReadLog.id).Nodup ∧ ∀ row ∈ t.rows, row.id ≤ t.sequence

/-- The row that a call holds is the last one of its article, as it was read. -/
def HoldsNewest (t : ReadLog) (c : LogCall) : Prop :=
  ∀ held ∈ c.holdsFor, ∃ row ∈ newest t held.1, row.Same held.2

variable {t t' : ReadLog} {c c' d : LogCall} {row rr : ArticleReadLog} {article : DartInt}
  {lastpage : ℤ} {ends : Str}

lemma Same.setEnd_eq (h : row.Same rr) : rr.setEnd ends lastpage = row.setEnd ends lastpage := by
  obtain ⟨hid, harticle, hstart, htype⟩ := h
  rw [ArticleReadLog.setEnd, ArticleReadLog.setEnd, hid, harticle, hstart, htype]

lemma mem_of_newest (h : newest t article = some row) :
    row ∈ t.rows ∧ row.article = intToString article :=
  ⟨List.mem_reverse.mp (List.mem_of_find?_eq_some h), by simpa using List.find?_some h⟩

/-! ### Insertions -/

lemma numbered_insert (h : Numbered t) {f : ℤ → ArticleReadLog} (hf : ∀ id, (f id).id = id) :
    Numbered (t.insert f) := by
  constructor
  · rw [KeyedTable.rows_insert, List.map_append, List.map_singleton, hf]
    refine List.nodup_append.mpr ⟨h.1, List.nodup_singleton _, fun a ha b hb heq => ?_⟩
    obtain ⟨row, hrow, rfl⟩ := List.mem_map.mp ha
    have hle := h.2 row hrow
    rw [heq, List.mem_singleton.mp hb] at hle
    omega
  · intro row hrow
    change row.id ≤ t.sequence + 1
    rw [KeyedTable.rows_insert, List.mem_append, List.mem_singleton] at hrow
    rcases hrow with hrow | rfl
    · exact (h.2 row hrow).trans (by omega)
    · exact (hf _).le

/-- The last row of an article stays it when a row of another one is inserted. -/
lemma newest_insert {f : ℤ → ArticleReadLog} (h : ∀ id, (f id).article ≠ intToString article) :
    newest (t.insert f) article = newest t article := by
  rw [newest, getUserLog, KeyedTable.rows_insert, List.reverse_append, List.reverse_singleton,
    List.singleton_append, List.find?_cons_of_neg (by simpa using h _)]
  rfl

/-! ### Updates -/

/-- An update by the row that a call holds is one of the last row of its article. -/
lemma rows_update_held (h : Numbered t) (hrow : newest t article = some row)
    (hsame : row.Same rr) (lastpage : ℤ) (ends : Str) :
    (t.update (fun row => row.id = rr.id) fun _ => rr.setEnd ends lastpage).rows =
      setNewest t article lastpage ends := by
  rw [KeyedTable.rows_update, setNewest]
  refine List.map_congr_left fun row' hrow' => ?_
  have hiff : row'.id = rr.id ↔ newest t article = some row' := by
    rw [hrow, ← hsame.id, Option.some.injEq]
    constructor
    · exact fun heq => List.inj_on_of_nodup_map h.1 (mem_of_newest hrow).1 hrow' heq.symm
    · rintro rfl
      rfl
  by_cases hid : row'.id = rr.id
  · obtain rfl := Option.some.inj (hrow.symm.trans (hiff.mp hid))
    rw [if_pos (decide_eq_true hid), if_pos hrow, Same.setEnd_eq hsame]
  · rw [if_neg (by simpa using hid), if_neg (mt hiff.mpr hid)]

lemma setNewest_same (row : ArticleReadLog) :
    row.Same (if newest t article = some row then row.setEnd ends lastpage else row) := by
  split_ifs <;> exact ⟨rfl, rfl, rfl, rfl⟩

lemma numbered_setNewest (h : Numbered t) (ht : t'.rows = setNewest t article lastpage ends)
    (hsequence : t'.sequence = t.sequence) : Numbered t' := by
  constructor
  · rw [ht, setNewest, List.map_map]
    convert h.1 using 2
    exact funext fun row => (setNewest_same row).id.symm
  · intro row' hrow'
    rw [ht, setNewest] at hrow'
    obtain ⟨row, hrow, rfl⟩ := List.mem_map.mp hrow'
    rw [← (setNewest_same row).id, hsequence]
    exact h.2 row hrow

/-- The last rows are the same ones after an update. -/
lemma newest_setNewest (ht : t'.rows = setNewest t article lastpage ends) (article' : DartInt) :
    newest t' article' = (newest t article').map fun row =>
      if newest t article = some row then row.setEnd ends lastpage else row := by
  rw [newest, getUserLog, ht, setNewest, ← List.map_reverse, List.find?_map]
  congr 2
  exact funext fun row => by rw [Function.comp_apply, ← (setNewest_same row).article]

/-! ### Steps -/

lemma HoldsNewest.setNewest (hd : HoldsNewest t d)
    (ht : t'.rows = setNewest t article lastpage ends) : HoldsNewest t' d := by
  intro held hheld
  obtain ⟨row, hrow, hsame⟩ := hd held hheld
  refine ⟨_, (newest_setNewest ht held.1).trans (congrArg _ hrow), ?_⟩
  have hkept : row.Same (if newest t article = some row then row.setEnd ends lastpage else row) :=
    setNewest_same row
  exact ⟨hkept.id.symm.trans hsame.id, hkept.article.symm.trans hsame.article,
    hkept.datetimeStart.symm.trans hsame.datetimeStart, hkept.type.symm.trans hsame.type⟩

lemma holdsNewest_ended (t : ReadLog) (c : LogCall) : HoldsNewest t (c.go .ended) := by
  intro held hheld
  cases hheld

/-- The row that a call reads is the last one of its article, when the log is read for it. -/
lemma holdsNewest_read {rest : List ArticleReadLog} (hlog : getUserLog t = rr :: rest)
    (hreads : ∀ row ∈ t.rows.getLast?, row.article = intToString article) :
    HoldsNewest t { task := .updateUserLog article lastpage ends, place := .holding rr } := by
  intro held hheld
  cases hheld
  have hlast : t.rows.getLast? = some rr := by
    rw [List.getLast?_eq_head?_reverse]
    exact congrArg List.head? hlog
  refine ⟨rr, ?_, ⟨rfl, rfl, rfl, rfl⟩⟩
  rw [Option.mem_def, newest, hlog]
  exact List.find?_cons_of_pos (by simpa using hreads rr hlast)

/-- What a step keeps of the log, of its own call and of each other one. -/
lemma kept_resume (h : Numbered t) (hc : HoldsNewest t c) (hreads : ReadsOwn t c)
    (hres : resume t c = some (t', c')) : Numbered t' ∧ HoldsNewest t' c' ∧
      ∀ d, HoldsNewest t d → InsertsApart c d → HoldsNewest t' d := by
  obtain ⟨task, place⟩ := c
  cases place with
  | opening =>
    cases hres
    refine ⟨h, fun held hheld => ?_, fun d hd _ => hd⟩
    cases task <;> cases hheld
  | ready =>
    cases task with
    | insertUserLog article type datetime =>
      cases hres
      refine ⟨numbered_insert h fun _ => rfl, holdsNewest_ended _ _, fun d hd hapart => ?_⟩
      intro held hheld
      rw [newest_insert]
      · exact hd held hheld
      · exact fun _ heq => hapart article rfl held hheld (intToString_inj heq).symm
    | updateUserLog article lastpage ends =>
      rw [resume] at hres
      cases hlog : getUserLog t with
      | nil =>
        rw [hlog] at hres
        cases hres
        exact ⟨h, holdsNewest_ended _ _, fun d hd _ => hd⟩
      | cons rr rest =>
        rw [hlog] at hres
        cases hres
        exact ⟨h, holdsNewest_read hlog (hreads article rfl), fun d hd _ => hd⟩
  | holding rr =>
    cases task with
    | insertUserLog article type datetime => cases hres
    | updateUserLog article lastpage ends =>
      cases hres
      obtain ⟨row, hrow, hsame⟩ := hc (article, rr) rfl
      have ht := rows_update_held h hrow hsame lastpage ends
      exact ⟨numbered_setNewest h ht rfl, holdsNewest_ended _ _, fun d hd _ => hd.setNewest ht⟩
  | ended => cases hres

lemma changesNewest_resume (h : Numbered t) (hc : HoldsNewest t c)
    (hres : resume t c = some (t', c')) : ChangesNewest t c t' := by
  obtain ⟨task, place⟩ := c
  cases place with
  | opening =>
    cases hres
    cases task with
    | insertUserLog article type datetime => exact List.prefix_rfl
    | updateUserLog article lastpage ends => rfl
  | ready =>
    cases task with
    | insertUserLog article type datetime =>
      cases hres
      exact List.prefix_append _ _
    | updateUserLog article lastpage ends =>
      rw [resume] at hres
      cases hlog : getUserLog t <;>
      · rw [hlog] at hres
        cases hres
        rfl
  | holding rr =>
    cases task with
    | insertUserLog article type datetime => cases hres
    | updateUserLog article lastpage ends =>
      cases hres
      obtain ⟨row, hrow, hsame⟩ := hc (article, rr) rfl
      exact rows_update_held h hrow hsame _ _
  | ended => cases hres

/-! ### Runs -/

/-- The empty log without calls. -/
def created : Calls ReadLog LogCall := { shared := {} }

/-- In every run in which the log is read for an article only while its last row is one of this
article, and no row of an article is inserted while a call for it holds the row to update, every
step of an update changes the last row of its article only. -/
theorem changesNewest_of_readsOwn {s : Calls ReadLog LogCall}
    (h : Reaches (Calls.step start resume) (Calls.admits ReadsOwn InsertsApart) created s)
    {i : ℕ} {c c' : LogCall} {t : ReadLog} (hc : s.calls[i]? = some c)
    (hres : resume s.shared c = some (t, c')) : ChangesNewest s.shared c t := by
  have hs : s.Invariant Numbered HoldsNewest fun _ _ => True := by
    apply Calls.invariant_of_reaches h
    · exact ⟨⟨List.nodup_nil, by simp [created]⟩, by simp [created], by simp [created]⟩
    · intro shared task _ call hcall
      obtain rfl := List.mem_singleton.mp hcall
      refine ⟨fun held hheld => ?_, fun _ => ⟨trivial, trivial⟩⟩
      cases task <;> cases hheld
    · intro shared call shared' call' hI hP halone hres
      obtain ⟨hI', hP', hothers⟩ := kept_resume hI hP halone hres
      exact ⟨hI', hP', fun d hd hapart _ _ => ⟨hothers d hd hapart, trivial, trivial⟩⟩
  exact changesNewest_resume hs.shared (hs.call c (List.mem_of_getElem? hc)) hres

/-- The row of an article that was opened. -/
def opened (id : ℤ) : ArticleReadLog where
  id := id
  article := intToString id
  datetimeStart := []
  datetimeEnd := none
  lastPage := none
  type := 0

/-- Two articles were opened, and a call for one of them is going to update the row it holds. -/
def twoOpened (article : DartInt) : Calls ReadLog LogCall where
  shared := { rows := [opened 1, opened 2], sequence := 2 }
  calls := [⟨.insertUserLog ⟨1, by decide⟩ 0 [], .ended⟩,
    ⟨.insertUserLog ⟨2, by decide⟩ 0 [], .ended⟩,
    ⟨.updateUserLog article 7 [], .holding (opened 2)⟩]

/-- The events on the way there. -/
def opening (article : DartInt) : List (CallEvent LogTask) :=
  [.start (.insertUserLog ⟨1, by decide⟩ 0 []), .resume 0, .resume 0,
    .start (.insertUserLog ⟨2, by decide⟩ 0 []), .resume 1, .resume 1,
    .start (.updateUserLog article 7 []), .resume 2, .resume 2]

lemma reaches_opening {guard : Calls ReadLog LogCall → CallEvent LogTask → Prop}
    [∀ s e, Decidable (guard s e)] (article : DartInt)
    (h : run (Calls.step start resume) guard created (opening article) =
      some (twoOpened article)) :
    Reaches (Calls.step start resume) guard created (twoOpened article) :=
  reaches_of_run h

/-- The second article is left. -/
theorem changesNewest_of_readsOwn_second :
    ChangesNewest (twoOpened ⟨2, by decide⟩).shared
      ⟨.updateUserLog ⟨2, by decide⟩ 7 [], .holding (opened 2)⟩
      { rows := [opened 1, (opened 2).setEnd [] 7], sequence := 2 } :=
  have hreaches : Reaches (Calls.step start resume) (Calls.admits ReadsOwn InsertsApart) created
      (twoOpened ⟨2, by decide⟩) :=
    reaches_opening _ rfl
  changesNewest_of_readsOwn (i := 2) hreaches rfl rfl

/-- The first article is left, and the row of the second one is changed. -/
theorem not_changesNewest_first :
    ¬ ∀ (s : Calls ReadLog LogCall), Reaches (Calls.step start resume) anyEvent created s →
      ∀ (i : ℕ) (c c' : LogCall) (t : ReadLog), s.calls[i]? = some c →
        resume s.shared c = some (t, c') → ChangesNewest s.shared c t := by
  intro h
  have hreaches : Reaches (Calls.step start resume) anyEvent created (twoOpened ⟨1, by decide⟩) :=
    reaches_opening _ rfl
  have hchanges := h _ hreaches 2 _ _ _ rfl rfl
  revert hchanges
  change ¬ _ = _
  decide +kernel

end LogCall

end Violet
