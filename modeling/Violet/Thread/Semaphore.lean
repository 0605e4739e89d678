import Mathlib.Data.List.Basic
import Mathlib.Data.List.Nodup
import Mathlib.Data.List.NodupEquivFin
import Mathlib.Data.Int.Order.Basic
import Mathlib.Tactic.Lemma

/-!
# Semaphores

The `Semaphore` of the source: a counter of the permits that are out, and a queue of the callers
that wait for one. `release` hands the permit to the caller that has waited longest, without asking
whether it still waits.

The accounts of a semaphore relate the counter and the queue to what its clients are doing. They
balance at every step, when the permits are included that were handed to a caller that had left, or
that a caller took with it.
-/

namespace Thread

/-! ### The semaphore -/

/-- Callers are numbered, and a completer in the queue is the number of its caller. -/
structure Semaphore where
  maxCount : ℤ
  currentCount : ℤ := 0
  waitQueue : List ℕ := []
  deriving DecidableEq, Repr

/-- `acquire` by the caller `i`: is the returned future complete at once? -/
def Semaphore.acquire (sem : Semaphore) (i : ℕ) : Semaphore × Bool :=
  if sem.currentCount + 1 ≤ sem.maxCount then
    ({ sem with currentCount := sem.currentCount + 1 }, true)
  else ({ sem with waitQueue := sem.waitQueue ++ [i] }, false)

/-- `release`, with the caller whose future it completes. -/
def Semaphore.release (sem : Semaphore) : Semaphore × Option ℕ :=
  match sem.waitQueue with
  | [] => ({ sem with currentCount := sem.currentCount - 1 }, none)
  | i :: queue =>
    ({ sem with currentCount := sem.currentCount - 1 + 1, waitQueue := queue }, some i)

/-- The next `n` calls of `acquire` are all complete at once. -/
def Semaphore.GrantsAtOnce (sem : Semaphore) : ℕ → Prop
  | 0 => True
  | n + 1 => ∀ i, (sem.acquire i).2 = true ∧ (sem.acquire i).1.GrantsAtOnce n

lemma Semaphore.grantsAtOnce {sem : Semaphore} {n : ℕ} (h : sem.currentCount + n ≤ sem.maxCount) :
    sem.GrantsAtOnce n := by
  induction n generalizing sem with
  | zero => trivial
  | succ n ih =>
    intro i
    have hfree : sem.currentCount + 1 ≤ sem.maxCount := by omega
    have hacquire : sem.acquire i =
        ({ sem with currentCount := sem.currentCount + 1 }, true) := if_pos hfree
    rw [hacquire]
    exact ⟨rfl, ih (by simp only; omega)⟩

@[simp] lemma Semaphore.maxCount_acquire (sem : Semaphore) (i : ℕ) :
    (sem.acquire i).1.maxCount = sem.maxCount := by
  unfold acquire
  split_ifs <;> rfl

@[simp] lemma Semaphore.maxCount_release (sem : Semaphore) :
    sem.release.1.maxCount = sem.maxCount := by
  unfold release
  split <;> rfl

lemma Semaphore.snd_release (sem : Semaphore) : sem.release.2 = sem.waitQueue.head? := by
  unfold release
  split <;> simp [*]

/-! ### Clients -/

/-- What a client is doing, as far as the semaphore is concerned. -/
inductive Phase where
  /-- Not yet, or no more, a client. -/
  | out
  | waiting
  /-- In the queue for a caller that waits no more. -/
  | left
  | holding
  deriving DecidableEq, Repr

/-- The accounts of a semaphore with clients in the phases `ps`: the permits out are those held and
those lost, and exactly the clients in the queue wait, or have left it to the queue that they do not
wait any more. -/
structure Accounts (sem : Semaphore) (ps : List Phase) (lost : ℕ) : Prop where
  count : sem.currentCount = ps.count .holding + lost
  nodup : sem.waitQueue.Nodup
  queued : ∀ i ∈ sem.waitQueue, ps[i]? = some .waiting ∨ ps[i]? = some .left
  waits : ∀ i, ps[i]? = some .waiting → i ∈ sem.waitQueue
  full : sem.waitQueue ≠ [] → sem.maxCount ≤ sem.currentCount
  bound : sem.currentCount ≤ max sem.maxCount 0

/-- The future of a client is completed. One that waits no more does not notice. -/
def complete (ps : List Phase) : Option ℕ → List Phase
  | none => ps
  | some j => if ps[j]? = some .waiting then ps.set j .holding else ps

lemma accounts_nil (maxCount : ℤ) : Accounts { maxCount := maxCount } [] 0 where
  count := rfl
  nodup := List.nodup_nil
  queued := by simp
  waits := by simp
  full h := absurd rfl h
  bound := le_max_right _ _

lemma getElem?_concat_iff {α : Type*} {l : List α} {a b : α} {j : ℕ} :
    (l ++ [a])[j]? = some b ↔ l[j]? = some b ∨ j = l.length ∧ a = b := by
  rw [List.getElem?_append]
  split_ifs with hj
  · simp [show j ≠ l.length by omega]
  · rw [List.getElem?_eq_none (by omega : l.length ≤ j), List.getElem?_singleton]
    split_ifs with hz
    · simp [show j = l.length by omega]
    · simp [show j ≠ l.length by omega]

lemma getElem?_set_iff {α : Type*} {l : List α} {a b : α} {i j : ℕ} (hi : i < l.length) :
    (l.set i a)[j]? = some b ↔ if j = i then a = b else l[j]? = some b := by
  rw [List.getElem?_set]
  by_cases hij : i = j
  · simp [hij, hij ▸ hi]
  · simp [hij, Ne.symm hij]

variable {sem sem' : Semaphore} {ps : List Phase} {lost i j : ℕ} {p q : Phase}

lemma count_set (h : ps[i]? = some p) (q : Phase) :
    ((ps.set i q).count .holding : ℤ) =
      ps.count .holding - (if p = .holding then 1 else 0) + (if q = .holding then 1 else 0) := by
  obtain ⟨hi, rfl⟩ := List.getElem?_eq_some_iff.mp h
  rw [List.count_set hi]
  simp only [beq_iff_eq]
  by_cases hp : ps[i] = .holding
  · have hpos : 0 < ps.count .holding := List.count_pos_iff.mpr (hp ▸ List.getElem_mem hi)
    by_cases hq : q = .holding <;> simp only [hp, hq, if_true, if_false] <;> omega
  · by_cases hq : q = .holding <;> simp [hp, hq]

namespace Accounts

/-! ### Operations -/

lemma notMem_length (h : Accounts sem ps lost) : ps.length ∉ sem.waitQueue := fun hm => by
  rcases h.queued _ hm with h | h <;> simp at h

/-- A client that is none. -/
lemma append_out (h : Accounts sem ps lost) : Accounts sem (ps ++ [.out]) lost where
  count := by simpa [List.count_append, List.count_singleton] using h.count
  nodup := h.nodup
  queued j hj := (h.queued j hj).imp (fun h => getElem?_concat_iff.mpr (.inl h))
    fun h => getElem?_concat_iff.mpr (.inl h)
  waits j hj := by
    rcases getElem?_concat_iff.mp hj with hj | ⟨-, hj⟩
    · exact h.waits j hj
    · cases hj
  full := h.full
  bound := h.bound

/-- A new client gets a permit or a place in the queue. -/
lemma acquire (h : Accounts sem ps lost) :
    Accounts (sem.acquire ps.length).1
      (ps ++ [if (sem.acquire ps.length).2 then .holding else .waiting]) lost := by
  have hold : ∀ j ∈ sem.waitQueue, ∀ q, (ps ++ [q])[j]? = some .waiting ∨
      (ps ++ [q])[j]? = some .left := fun j hj q =>
    (h.queued j hj).imp (fun h => getElem?_concat_iff.mpr (.inl h))
      fun h => getElem?_concat_iff.mpr (.inl h)
  by_cases hfree : sem.currentCount + 1 ≤ sem.maxCount
  · have hempty : sem.waitQueue = [] := by
      by_contra hne
      have := h.full hne
      omega
    simp only [Semaphore.acquire, if_pos hfree, if_true]
    constructor
    · simp only [List.count_append, List.count_singleton, h.count, beq_self_eq_true, if_true]
      omega
    · exact h.nodup
    · exact fun j hj => hold j hj _
    · intro j hj
      rcases getElem?_concat_iff.mp hj with hj | ⟨-, hj⟩
      · exact h.waits j hj
      · cases hj
    · exact fun hne => absurd hempty hne
    · exact le_trans hfree (le_max_left _ _)
  · simp only [Semaphore.acquire, if_neg hfree, Bool.false_eq_true, if_false]
    constructor
    · simpa [List.count_append, List.count_singleton] using h.count
    · refine List.nodup_append.mpr ⟨h.nodup, List.nodup_singleton _, fun j hj k hk => ?_⟩
      rw [List.mem_singleton.mp hk]
      exact fun heq => h.notMem_length (heq ▸ hj)
    · intro j hj
      rcases List.mem_append.mp hj with hj | hj
      · exact hold j hj _
      · exact .inl (getElem?_concat_iff.mpr (.inr ⟨List.mem_singleton.mp hj, rfl⟩))
    · intro j hj
      rcases getElem?_concat_iff.mp hj with hj | ⟨rfl, -⟩
      · exact List.mem_append_left _ (h.waits j hj)
      · simp
    · intro _
      change sem.maxCount ≤ sem.currentCount
      omega
    · exact h.bound

/-- The queue does not see a client that does not wait, before or after. -/
lemma queued_set (h : Accounts sem ps lost) (hi : ps[i]? = some p) (hp : p ≠ .waiting)
    (hp' : p ≠ .left) (q : Phase) :
    ∀ j ∈ sem.waitQueue, (ps.set i q)[j]? = some .waiting ∨ (ps.set i q)[j]? = some .left := by
  intro j hj
  have hij : i ≠ j := by
    rintro rfl
    rcases h.queued i hj with hw | hl
    · exact hp (Option.some.inj (hi.symm.trans hw))
    · exact hp' (Option.some.inj (hi.symm.trans hl))
  rw [List.getElem?_set_ne hij]
  exact h.queued j hj

lemma waits_set (h : Accounts sem ps lost) (hi : ps[i]? = some p) (hq : q ≠ .waiting) :
    ∀ j, (ps.set i q)[j]? = some .waiting → j ∈ sem.waitQueue := by
  intro j hj
  rw [getElem?_set_iff (List.getElem?_eq_some_iff.mp hi).1] at hj
  split_ifs at hj with hij
  · exact absurd hj hq
  · exact h.waits j hj

/-- A client stops waiting, but keeps its place in the queue. -/
lemma leave (h : Accounts sem ps lost) (hi : ps[i]? = some .waiting) :
    Accounts sem (ps.set i .left) lost where
  count := by rw [count_set hi, h.count]; simp
  nodup := h.nodup
  queued j hj := by
    have hlen := (List.getElem?_eq_some_iff.mp hi).1
    rw [getElem?_set_iff hlen, getElem?_set_iff hlen]
    by_cases hij : j = i
    · simp [hij]
    · simpa [hij] using h.queued j hj
  waits := h.waits_set hi (by decide)
  full := h.full
  bound := h.bound

/-- A client ends and takes its permit along. -/
lemma crash (h : Accounts sem ps lost) (hi : ps[i]? = some .holding) :
    Accounts sem (ps.set i .out) (lost + 1) where
  count := by
    have hcount := h.count
    grind [count_set hi]
  nodup := h.nodup
  queued := h.queued_set hi (by decide) (by decide) .out
  waits := h.waits_set hi (by decide)
  full := h.full
  bound := h.bound

/-- A client ends and gives its permit back: nobody waits for it. -/
lemma release_none (h : Accounts sem ps lost) (hi : ps[i]? = some .holding)
    (hr : sem.release = (sem', none)) : Accounts sem' (ps.set i .out) lost := by
  unfold Semaphore.release at hr
  split at hr
  · rename_i hnil
    cases hr
    refine ⟨?_, h.nodup, h.queued_set hi (by decide) (by decide) .out,
      h.waits_set hi (by decide), fun hne => absurd hnil hne, ?_⟩
    · rw [count_set hi, h.count]
      simp
      omega
    · exact le_trans (Int.sub_le_self _ (by decide)) h.bound
  · cases hr

/-- A client ends and gives its permit back: the permit goes to the client in front of the queue,
and is lost when this one has left. -/
lemma release_some (h : Accounts sem ps lost) (hi : ps[i]? = some .holding)
    (hr : sem.release = (sem', some j)) :
    ps[j]? = some .waiting ∧ Accounts sem' ((ps.set i .out).set j .holding) lost ∨
      ps[j]? = some .left ∧ Accounts sem' (ps.set i .out) (lost + 1) := by
  unfold Semaphore.release at hr
  split at hr
  · cases hr
  rename_i k queue hqueue
  cases hr
  have hj : j ∈ sem.waitQueue := by simp [hqueue]
  have hnodup : j ∉ queue ∧ queue.Nodup := List.nodup_cons.mp (hqueue ▸ h.nodup)
  have hmem : ∀ k ∈ queue, k ∈ sem.waitQueue := fun k hk => by simp [hqueue, hk]
  have hfull : sem.maxCount ≤ sem.currentCount - 1 + 1 := by
    have := h.full (by simp [hqueue])
    omega
  have hbound : sem.currentCount - 1 + 1 ≤ max sem.maxCount 0 := by
    rw [Int.sub_add_cancel]
    exact h.bound
  have hqueued := h.queued_set hi (by decide) (by decide) .out
  have hwaits := h.waits_set (q := .out) hi (by decide)
  have hlen := (List.getElem?_eq_some_iff.mp hi).1
  have hcount := count_set hi .out
  have htail {k : ℕ} (hk : k ∈ sem.waitQueue) (hkj : k ≠ j) : k ∈ queue := by
    simpa [hqueue, hkj] using hk
  have hc := h.count
  refine (h.queued j hj).imp (fun hw => ⟨hw, ?_⟩) fun hl => ⟨hl, ?_⟩
  · have hij : j ≠ i := by
      rintro rfl
      rw [hi] at hw
      cases hw
    have hw' : (ps.set i .out)[j]? = some .waiting := by
      rw [List.getElem?_set_ne hij.symm, hw]
    have hlen' := (List.getElem?_eq_some_iff.mp hw').1
    refine ⟨?_, hnodup.2, fun k hk => ?_, fun k hk => ?_, fun _ => hfull, hbound⟩
    · rw [count_set hw', hcount]
      simp
      omega
    · have hkj : j ≠ k := fun heq => hnodup.1 (heq ▸ hk)
      rw [List.getElem?_set_ne hkj]
      exact hqueued k (hmem k hk)
    · rw [getElem?_set_iff hlen'] at hk
      split_ifs at hk with hkj
      exact htail (hwaits k hk) hkj
  · refine ⟨?_, hnodup.2, fun k hk => hqueued k (hmem k hk), fun k hk => ?_, fun _ => hfull,
      hbound⟩
    · rw [hcount]
      simp
      omega
    · refine htail (hwaits k hk) ?_
      rintro rfl
      rw [getElem?_set_iff hlen] at hk
      split_ifs at hk
      rw [hl] at hk
      cases hk

/-- A client ends and gives its permit back: a permit is lost exactly when it is handed to a client
that has left. -/
theorem release (h : Accounts sem ps lost) (hi : ps[i]? = some .holding) :
    (∀ j ∈ sem.waitQueue.head?, ps[j]? = some .waiting) ∧
        Accounts sem.release.1 (complete (ps.set i .out) sem.release.2) lost ∨
      (∃ j ∈ sem.waitQueue.head?, ps[j]? = some .left) ∧
        Accounts sem.release.1 (complete (ps.set i .out) sem.release.2) (lost + 1) := by
  have hne {j : ℕ} {p : Phase} (hj : ps[j]? = some p) (hp : p ≠ .holding) : i ≠ j := by
    rintro rfl
    exact hp (Option.some.inj (hj.symm.trans hi))
  have hhead := sem.snd_release
  cases hr : sem.release with
  | mk sem' woken =>
    rw [hr] at hhead
    rw [← hhead]
    cases woken with
    | none => exact .inl ⟨by simp, h.release_none hi hr⟩
    | some j =>
      rcases h.release_some hi hr with ⟨hw, hacc⟩ | ⟨hl, hacc⟩
      · refine .inl ⟨by simpa using hw, ?_⟩
        rwa [complete, if_pos]
        rw [List.getElem?_set_ne (hne hw (by decide)), hw]
      · refine .inr ⟨⟨j, rfl, hl⟩, ?_⟩
        rwa [complete, if_neg]
        rw [List.getElem?_set_ne (hne hl (by decide)), hl]
        decide

/-- A semaphore of one permit excludes its clients mutually. -/
theorem eq_of_holding (h : Accounts sem ps lost) (hmax : sem.maxCount ≤ 1)
    (hi : ps[i]? = some .holding) (hj : ps[j]? = some .holding) : i = j := by
  have hle : ps.count .holding ≤ 1 := by
    have hcount := h.count
    have hbound := h.bound
    omega
  have hlt {i j : ℕ} (hi : ps[i]? = some .holding) (hj : ps[j]? = some .holding) : ¬ i < j := by
    intro hij
    obtain ⟨hilen, hi⟩ := List.getElem?_eq_some_iff.mp hi
    obtain ⟨hjlen, hj⟩ := List.getElem?_eq_some_iff.mp hj
    have htwice : List.Duplicate .holding ps := List.duplicate_iff_exists_distinct_get.mpr
      ⟨⟨i, hilen⟩, ⟨j, hjlen⟩, hij, hi.symm, hj.symm⟩
    have := List.duplicate_iff_two_le_count.mp htwice
    omega
  have := hlt hi hj
  have := hlt hj hi
  omega

end Accounts

end Thread
