import Violet.Network.Wrapper
import Violet.Transition.Run

/-!
# Permits of the throttled calls

The permits out of a throttler are those of its calls between `acquire` and `release`, as long as no
such call ends with an exception. A call that does takes its permit along, and in the end the calls
to come wait for ever.
-/

namespace Violet

open Dart Thread Transition

/-! ### Calls as clients of the throttlers -/

variable {c c' : Call} {th : Throttler} {n m : Network} {lost : Throttler → ℕ} {i p : ℕ}
  {page : ℤ} {url : Str} {res : Response} {pr : Provider}

lemma Call.phase_of_throttler (h : c.throttler = some th) : c.phase th = c.use := if_pos h

lemma Call.phase_of_ne (h : c.throttler ≠ some th) : c.phase th = .out := if_neg h

lemma Call.phase_of_use (h : c.use = .out) (th : Throttler) : c.phase th = .out := by
  rw [phase, h, ite_self]

lemma Call.phase_congr (hth : c'.throttler = c.throttler) (huse : c'.use = c.use)
    (th : Throttler) : c'.phase th = c.phase th := by
  rw [phase, phase, hth, huse]

lemma Call.phase_wake (th : Throttler) (c : Call) :
    c.wake.phase th = if c.phase th = .waiting then .holding else c.phase th := by
  rcases c with ⟨url, state⟩ | ⟨p, page, state⟩ <;> cases state <;>
    simp only [wake, phase, throttler, use, GetState.phase, ImageState.phase] <;> split_ifs <;>
    simp_all

/-- The calls, each a client of the throttler of its request or its provider. -/
def callClients : Clients Throttler Call where
  phase := Call.phase
  wake := Call.wake
  phase_wake := Call.phase_wake
  eq_of_ne_out {c th th'} h h' := by
    have hth : c.throttler = some th := by_contra fun hne => h (Call.phase_of_ne hne)
    have hth' : c.throttler = some th' := by_contra fun hne => h' (Call.phase_of_ne hne)
    exact Option.some.inj (hth.symm.trans hth')

lemma Call.phase_ne_left (th : Throttler) (c : Call) : c.phase th ≠ .left := by
  rcases c with ⟨url, state⟩ | ⟨p, page, state⟩ <;> cases state <;>
    simp only [phase, use, GetState.phase, ImageState.phase] <;> split_ifs <;> simp

/-! ### Accounts -/

def Throttler.maxCount : Throttler → ℤ
  | .eHentai => 4
  | .exHentai | .page _ => 1

namespace Network

/-- The accounts of all throttlers balance. -/
def Balanced (n : Network) (lost : Throttler → ℕ) : Prop :=
  (∀ th, (n.throttlers th).maxCount = th.maxCount) ∧
    callClients.Balanced n.throttlers n.calls lost

lemma maxCount_update {sems : Throttler → Semaphore} {sem : Semaphore}
    (h : ∀ th, (sems th).maxCount = th.maxCount) (hsem : sem.maxCount = (sems th).maxCount)
    (th' : Throttler) : (Function.update sems th sem th').maxCount = th'.maxCount := by
  by_cases hth : th' = th
  · subst hth
    rw [Function.update_self, hsem, h]
  · rw [Function.update_of_ne hth, h]

namespace Balanced

/-- A call that ends before it asks for a permit. -/
lemma append (h : n.Balanced lost) (hout : ∀ th, c.phase th = .out) :
    Balanced { n with calls := n.calls ++ [c] } lost :=
  ⟨h.1, h.2.append hout⟩

lemma acquire {call : Bool → Call} (h : n.Balanced lost)
    (hcall : ∀ b, (call b).phase th = if b then .holding else .waiting) :
    (n.acquire th call).Balanced lost :=
  ⟨maxCount_update h.1 (Semaphore.maxCount_acquire _ _), h.2.acquire hcall⟩

lemma put (h : n.Balanced lost) (hi : n.calls[i]? = some c)
    (hphase : ∀ th, c'.phase th = c.phase th) : (n.put i c').Balanced lost :=
  ⟨h.1, h.2.set hi hphase⟩

lemma release (h : n.Balanced lost) (hi : n.calls[i]? = some c) (hth : c.phase th = .holding)
    (hout : ∀ th, c'.phase th = .out) : (n.release th i c').Balanced lost :=
  ⟨maxCount_update h.1 (Semaphore.maxCount_release _),
    h.2.release hi hth hout (Call.phase_ne_left th)⟩

/-- An exception in a call with a permit. -/
lemma crash (h : n.Balanced lost) (hi : n.calls[i]? = some c) (hth : c.phase th = .holding)
    (hout : ∀ th, c'.phase th = .out) :
    (n.put i c').Balanced (Function.update lost th (lost th + 1)) :=
  ⟨h.1, h.2.crash hi hth hout⟩

lemma get (h : n.Balanced lost) (url : Str) : (n.get url).Balanced lost := by
  unfold Network.get
  split
  · rename_i hnone
    exact h.append fun th => Call.phase_of_ne (by simp [Call.throttler, hnone])
  · rename_i th hth
    split
    · exact h.append (Call.phase_of_use rfl)
    · refine h.acquire fun b => ?_
      cases b <;> exact Call.phase_of_throttler hth

lemma resumeGet (h : n.Balanced lost) (hi : n.calls[i]? = some (.get url .granted))
    (hth : throttlerOf url = some th) : (n.resumeGet i url th).Balanced lost := by
  unfold Network.resumeGet
  split
  · exact h.release hi (Call.phase_of_throttler hth) (Call.phase_of_use rfl)
  · exact h.put hi (Call.phase_congr rfl rfl)

/-- The end of a request without a throttler. -/
lemma put_ended {retry : ℕ} {result : Option Response} (h : n.Balanced lost)
    (hi : n.calls[i]? = some (.get url (.requesting retry))) (hnone : throttlerOf url = none) :
    (n.put i (.get url (.ended result))).Balanced lost :=
  h.put hi fun th => by
    rw [Call.phase_of_ne (by simp [Call.throttler, hnone]),
      Call.phase_of_ne (by simp [Call.throttler, hnone])]

lemma respond {retry : ℕ} (h : n.Balanced lost)
    (hi : n.calls[i]? = some (.get url (.requesting retry))) :
    (n.respond i url res).Balanced lost := by
  unfold Network.respond
  split
  · rename_i hnone
    exact h.put_ended hi hnone
  · rename_i th hth
    have hcache : (n.cache url res).calls = n.calls ∧ (n.cache url res).Balanced lost := by
      unfold Network.cache
      split_ifs <;> exact ⟨rfl, h⟩
    rw [← hcache.1] at hi
    exact hcache.2.release hi (Call.phase_of_throttler hth) (Call.phase_of_use rfl)

lemma getImageUrl (h : n.Balanced lost) (p : ℕ) (page : ℤ) (pr : Provider) :
    (n.getImageUrl p page pr).Balanced lost := by
  unfold Network.getImageUrl
  split
  · exact h.append (Call.phase_of_use rfl)
  · split_ifs
    · exact h.append (Call.phase_of_use rfl)
    · refine h.acquire fun b => ?_
      cases b <;> exact Call.phase_of_throttler rfl

end Balanced

lemma exists_calls_get (n : Network) (url : Str) : ∃ c, (n.get url).calls = n.calls ++ [c] := by
  unfold get
  split
  · exact ⟨_, rfl⟩
  · split <;> exact ⟨_, rfl⟩

lemma Balanced.request {state : ImageState} {next : ℕ → ImageState} {url : Option Str}
    (h : n.Balanced lost) (hi : n.calls[i]? = some (.getImageUrl p page state))
    (hnone : url = none → state.phase = .out) (hnext : ∀ call, (next call).phase = state.phase) :
    (n.request i p page url next).Balanced lost := by
  unfold Network.request
  split
  · exact h.put hi (Call.phase_congr rfl (hnone rfl).symm)
  · rename_i url
    obtain ⟨c, hc⟩ := n.exists_calls_get url
    refine (h.get url).put (c := .getImageUrl p page state) ?_ (Call.phase_congr rfl (hnext _))
    rw [hc]
    exact getElem?_concat_iff.mpr (.inl hi)

end Network

/-! ### Exceptions with a permit -/

/-- The address of the page is known, or that of the list it is on. -/
def Provider.Finds (pr : Provider) (page : ℤ) : Prop :=
  ∃ url, at? pr.urls page = some url ∧ (url = none → (pr.pageUrl page).isSome)

/-- The addresses in the reply are those of pages of the article. -/
def Provider.Stores (pr : Provider) (page : ℤ) (getImagesUrl : Str → Option (List (Option Str)))
    (result : Option Response) : Prop :=
  ∃ res pages, result = some res ∧ getImagesUrl res.body = some pages ∧
    (pages = [] ∨ (pr.ppage page * pr.itemsPerPage).toNat + pages.length ≤ pr.urls.length)

lemma snd_storeFrom (urls : List (Option Str)) (start : ℕ) (pages : List (Option Str)) :
    (storeFrom urls start pages).2 = true ↔ pages = [] ∨ start + pages.length ≤ urls.length := by
  induction pages generalizing urls start with
  | nil => simp [storeFrom]
  | cons url rest ih =>
    rw [storeFrom]
    split_ifs with hlt
    · rw [ih, List.length_set, List.length_cons]
      simp only [false_or]
      constructor
      · rintro (rfl | h)
        · exact hlt
        · omega
      · intro h
        exact .inr (by omega)
    · simp only [false_or, List.length_cons, false_iff]
      omega

/-- No exception strikes between `acquire` and `release`: no request with a permit throws, and the
list of pages that a provider asks for exists, comes back and fits. -/
def Orderly (getImagesUrl : Str → Option (List (Option Str))) (n : Network) : NetworkEvent → Prop
  | .error i => ∀ url retry, n.calls[i]? = some (.get url (.requesting retry)) →
      throttlerOf url = none
  | .preferencesError i => ∀ p page url,
      n.calls[i]? ≠ some (.getImageUrl p page (.preferencesOfPages url))
  | .resume i => ∀ p page pr, n.calls[i]? = some (.getImageUrl p page .granted) →
      n.providers[p]? = some pr → pr.Finds page
  | .proceed i => ∀ p page call pr result, n.calls[i]? = some (.getImageUrl p page (.pages call)) →
      n.providers[p]? = some pr → n.result? call = some result →
        pr.Stores page getImagesUrl result
  | _ => True

namespace Network

variable {getImagesUrl : Str → Option (List (Option Str))}
  {getImagesAddress : Str → Option (Option Str)} {e : NetworkEvent}

/-- A permit of the throttler is lost. -/
def Balanced.Loses (m : Network) (lost : Throttler → ℕ) (th : Throttler) : Prop :=
  m.Balanced (Function.update lost th (lost th + 1))

lemma Balanced.resumeImage (h : n.Balanced lost)
    (hi : n.calls[i]? = some (.getImageUrl p page .granted)) :
    pr.Finds page ∧ (n.resumeImage i p page pr).Balanced lost ∨
      ¬ pr.Finds page ∧ Balanced.Loses (n.resumeImage i p page pr) lost (.page p) := by
  have hcrash : Balanced.Loses (n.put i (.getImageUrl p page (.ended none))) lost (.page p) :=
    h.crash hi (Call.phase_of_throttler rfl) (Call.phase_of_use rfl)
  unfold Network.resumeImage
  split
  · rename_i hurl
    exact .inr ⟨by simp [Provider.Finds, hurl], hcrash⟩
  · rename_i url hurl
    exact .inl ⟨⟨_, hurl, nofun⟩,
      h.release hi (Call.phase_of_throttler rfl) (Call.phase_of_use rfl)⟩
  · rename_i hurl
    split
    · rename_i hpage
      exact .inr ⟨by simp [Provider.Finds, hurl, hpage], hcrash⟩
    · rename_i url hpage
      exact .inl ⟨⟨_, hurl, by simp [hpage]⟩, h.put hi (Call.phase_congr rfl rfl)⟩

lemma Balanced.storePages {call : ℕ} {result : Option Response} (h : n.Balanced lost)
    (hi : n.calls[i]? = some (.getImageUrl p page (.pages call))) :
    pr.Stores page getImagesUrl result ∧
        (n.storePages getImagesUrl i p page pr result).Balanced lost ∨
      ¬ pr.Stores page getImagesUrl result ∧
        Balanced.Loses (n.storePages getImagesUrl i p page pr result) lost (.page p) := by
  have hcrash (n : Network) (h : n.Balanced lost)
      (hi : n.calls[i]? = some (.getImageUrl p page (.pages call))) :
      Balanced.Loses (n.put i (.getImageUrl p page (.ended none))) lost (.page p) :=
    h.crash hi (Call.phase_of_throttler rfl) (Call.phase_of_use rfl)
  unfold Network.storePages
  split
  · rename_i hnone
    refine .inr ⟨?_, hcrash n h hi⟩
    rintro ⟨res, pages, rfl, hpages, -⟩
    rw [Option.bind_some, hpages] at hnone
    cases hnone
  · rename_i pages hpages
    obtain ⟨res, rfl, himages⟩ := Option.bind_eq_some_iff.mp hpages
    have hstores : pr.Stores page getImagesUrl (some res) ↔
        (storeFrom pr.urls (pr.ppage page * pr.itemsPerPage).toNat pages).2 = true := by
      rw [snd_storeFrom]
      constructor
      · rintro ⟨_, _, heq, hpages', hfit⟩
        cases heq
        rw [himages] at hpages'
        cases hpages'
        exact hfit
      · exact fun hfit => ⟨res, pages, rfl, himages, hfit⟩
    rw [hstores]
    dsimp only
    split_ifs with hok
    · exact .inl ⟨hok, Balanced.release h hi (Call.phase_of_throttler rfl) (Call.phase_of_use rfl)⟩
    · exact .inr ⟨hok, hcrash _ h hi⟩

lemma Balanced.storeImage {call : ℕ} {result : Option Response} (h : n.Balanced lost)
    (hi : n.calls[i]? = some (.getImageUrl p page (.image call))) :
    (n.storeImage getImagesAddress i p page pr result).Balanced lost := by
  unfold Network.storeImage
  split
  · exact h.put hi (Call.phase_congr rfl rfl)
  · exact Balanced.put h hi (Call.phase_congr rfl rfl)

/-- A step loses a permit exactly when an exception strikes between `acquire` and `release`. -/
lemma step_balanced (h : n.Balanced lost) (hs : n.step getImagesUrl getImagesAddress e = some m) :
    Orderly getImagesUrl n e ∧ m.Balanced lost ∨
      ¬ Orderly getImagesUrl n e ∧ ∃ th, Balanced.Loses m lost th := by
  cases e with
  | get url =>
    cases hs
    exact .inl ⟨trivial, h.get url⟩
  | getImageUrl p page =>
    obtain ⟨pr, -, rfl⟩ := Option.map_eq_some_iff.mp hs
    exact .inl ⟨trivial, h.getImageUrl p page pr⟩
  | resume i =>
    simp only [step] at hs
    split at hs
    · rename_i url hi
      obtain ⟨th, hth, rfl⟩ := Option.map_eq_some_iff.mp hs
      exact .inl ⟨by simp [Orderly, hi], h.resumeGet hi hth⟩
    · rename_i p page hi
      obtain ⟨pr, hpr, rfl⟩ := Option.map_eq_some_iff.mp hs
      have hiff : Orderly getImagesUrl n (.resume i) ↔ pr.Finds page := by
        refine ⟨fun hg => hg p page pr hi hpr, fun hfinds p' page' pr' hi' hpr' => ?_⟩
        rw [hi] at hi'
        cases hi'
        rw [hpr] at hpr'
        exact Option.some.inj hpr' ▸ hfinds
      rw [hiff]
      exact h.resumeImage hi |>.imp_right fun ⟨hno, hlost⟩ => ⟨hno, _, hlost⟩
    · cases hs
  | timeout i =>
    simp only [step] at hs
    split at hs
    · rename_i url retry hi
      obtain ⟨th, -, rfl⟩ := Option.map_eq_some_iff.mp hs
      exact .inl ⟨trivial, h.put hi (Call.phase_congr rfl rfl)⟩
    · cases hs
  | response i res =>
    simp only [step] at hs
    split at hs
    · rename_i url retry hi
      cases hs
      exact .inl ⟨trivial, h.respond hi⟩
    · cases hs
  | error i =>
    simp only [step] at hs
    split at hs
    · rename_i url retry hi
      cases hs
      have hiff : Orderly getImagesUrl n (.error i) ↔ throttlerOf url = none := by
        simp [Orderly, hi]
      rw [hiff]
      cases hth : throttlerOf url with
      | none => exact .inl ⟨rfl, h.put_ended hi hth⟩
      | some th =>
        exact .inr ⟨nofun, th, h.crash hi (Call.phase_of_throttler hth) (Call.phase_of_use rfl)⟩
    · cases hs
  | preferences i =>
    simp only [step] at hs
    split at hs
    · rename_i p page url hi
      cases hs
      exact .inl ⟨trivial, h.request hi nofun fun _ => rfl⟩
    · rename_i p page url hi
      cases hs
      exact .inl ⟨trivial, h.request hi (fun _ => rfl) fun _ => rfl⟩
    · cases hs
  | preferencesError i =>
    simp only [step] at hs
    split at hs
    · rename_i p page url hi
      cases hs
      exact .inr ⟨by simp [Orderly, hi], .page p,
        h.crash hi (Call.phase_of_throttler rfl) (Call.phase_of_use rfl)⟩
    · rename_i p page url hi
      cases hs
      exact .inl ⟨by simp [Orderly, hi], h.put hi (Call.phase_congr rfl rfl)⟩
    · cases hs
  | proceed i =>
    simp only [step] at hs
    split at hs
    · rename_i p page call hi
      obtain ⟨pr, hpr, hs⟩ := Option.bind_eq_some_iff.mp hs
      obtain ⟨result, hresult, rfl⟩ := Option.map_eq_some_iff.mp hs
      have hiff : Orderly getImagesUrl n (.proceed i) ↔ pr.Stores page getImagesUrl result := by
        refine ⟨fun hg => hg p page call pr result hi hpr hresult,
          fun hstores p' page' call' pr' result' hi' hpr' hresult' => ?_⟩
        rw [hi] at hi'
        cases hi'
        rw [hpr] at hpr'
        rw [hresult] at hresult'
        exact Option.some.inj hpr' ▸ Option.some.inj hresult' ▸ hstores
      rw [hiff]
      exact h.storePages hi |>.imp_right fun ⟨hno, hlost⟩ => ⟨hno, _, hlost⟩
    · rename_i p page call hi
      obtain ⟨pr, hpr, hs⟩ := Option.bind_eq_some_iff.mp hs
      obtain ⟨result, hresult, rfl⟩ := Option.map_eq_some_iff.mp hs
      exact .inl ⟨by simp [Orderly, hi], h.storeImage hi⟩
    · cases hs

/-! ### Runs -/

def init (providers : List Provider) : Network := { providers := providers }

lemma balanced_init (providers : List Provider) : (init providers).Balanced fun _ => 0 :=
  ⟨fun th => by cases th <;> rfl, fun th => by cases th <;> exact accounts_nil _⟩

/-- The calls between `acquire` and `release`. -/
def outstanding (n : Network) (th : Throttler) : ℕ := n.calls.countP fun c => c.phase th = .holding

lemma Balanced.currentCount (h : n.Balanced lost) (th : Throttler) :
    (n.throttlers th).currentCount = n.outstanding th + lost th := by
  have hcount : (n.calls.map (Call.phase th)).count .holding = n.outstanding th := by
    rw [List.count, List.countP_map]
    exact List.countP_congr fun c _ => by simp
  rw [← hcount]
  exact (h.2 th).count

/-- No permit of the throttler is lost, and no call blocked for ever. -/
structure Conserves (n : Network) (th : Throttler) : Prop where
  /-- The permits out are those of the calls between `acquire` and `release`. -/
  count : (n.throttlers th).currentCount = n.outstanding th
  /-- A call that waits does so for another call. -/
  waits : (∃ c ∈ n.calls, c.phase th = .waiting) → ∃ c ∈ n.calls, c.phase th = .holding
  /-- When no call has a permit, all permits can be had at once. -/
  free : n.outstanding th = 0 → ∀ k : ℕ, k ≤ th.maxCount → (n.throttlers th).GrantsAtOnce k

variable (getImagesUrl getImagesAddress)

/-- Permits are conserved in every run in which no exception strikes between `acquire` and
`release`. -/
theorem conserves_of_orderly (providers : List Provider) (n : Network)
    (h : Reaches (step getImagesUrl getImagesAddress) (Orderly getImagesUrl) (init providers) n)
    (th : Throttler) : n.Conserves th := by
  have hn : n.Balanced fun _ => 0 := h.invariant (P := fun n => n.Balanced fun _ => 0)
    (balanced_init providers) fun _ _ _ hb hg hs =>
      ((step_balanced hb hs).resolve_right fun hno => hno.1 hg).2
  have hcount : (n.throttlers th).currentCount = n.outstanding th := by
    simpa using hn.currentCount th
  refine ⟨hcount, ?_, fun hfree k hk => Semaphore.grantsAtOnce ?_⟩
  · rintro ⟨c, hc, hwaiting⟩
    obtain ⟨i, hi⟩ := List.mem_iff_getElem?.mp hc
    have hqueue : i ∈ (n.throttlers th).waitQueue := (hn.2 th).waits i (by
      rw [List.getElem?_map, hi]
      exact congrArg some hwaiting)
    have hfull := (hn.2 th).full (List.ne_nil_of_mem hqueue)
    have hpos : 0 < n.outstanding th := by
      have hmax : 1 ≤ th.maxCount := by cases th <;> simp [Throttler.maxCount]
      rw [hn.1 th, hcount] at hfull
      omega
    obtain ⟨c', hc', hholding⟩ := List.countP_pos_iff.mp hpos
    exact ⟨c', hc', of_decide_eq_true hholding⟩
  · rw [hcount, hfree, hn.1 th]
    simpa using hk

variable {getImagesUrl getImagesAddress}

/-- Two calls for the same address, of which the second waits. -/
def twoCalls (url : Str) : Network :=
  let call (granted : Bool) : Call := .get url (if granted then .granted else .waiting)
  ((init []).acquire .exHentai call).acquire .exHentai call

lemma step_resume_twoCalls (hth : throttlerOf url = some .exHentai) :
    (twoCalls url).step getImagesUrl getImagesAddress (.resume 0) =
      some ((twoCalls url).put 0 (.get url (.requesting 0))) := by
  change (throttlerOf url).map (fun th => (twoCalls url).resumeGet 0 url th) = _
  rw [hth]
  rfl

lemma reaches_twoCalls (hth : throttlerOf url = some .exHentai) :
    Reaches (step getImagesUrl getImagesAddress) (Orderly getImagesUrl) (init [])
      (twoCalls url) := by
  have hget (n : Network) (hn : n.cacheResponse = []) : n.get url =
      n.acquire .exHentai fun granted => .get url (if granted then .granted else .waiting) := by
    rw [get, hth]
    simp only [hn, List.lookup_nil]
  exact .tail (e := .get url) (.tail (e := .get url) .refl trivial (congrArg some (hget _ rfl)))
    trivial (congrArg some (hget _ rfl))

/-- The first call times out once and is answered, and the second has the permit. -/
theorem conserves_of_orderly_twoCalls : ∃ n : Network, n.Conserves .exHentai ∧
    n.calls.map Call.use = [.out, .holding] := by
  obtain ⟨url, hth⟩ : ∃ url, throttlerOf url = some .exHentai :=
    ⟨"https://exhentai.org/".toList, by decide +kernel⟩
  let late : Network :=
    ((twoCalls url).put 0 (.get url (.requesting 0))).put 0 (.get url (.requesting 1))
  have hlate : Reaches (step (fun _ => none) fun _ => none) (Orderly fun _ => none) (init [])
      late := by
    refine .tail (e := .timeout 0) (.tail (e := .resume 0) (reaches_twoCalls hth) ?_
      (step_resume_twoCalls hth)) trivial ?_
    · intro p page pr hi
      cases hi
    · change (throttlerOf url).map _ = _
      rw [hth]
      rfl
  have hlast : Reaches (step (fun _ => none) fun _ => none) (Orderly fun _ => none) (init [])
      (late.respond 0 url ⟨404, []⟩) := .tail (e := .response 0 ⟨404, []⟩) hlate trivial rfl
  refine ⟨_, conserves_of_orderly _ _ [] _ hlast .exHentai, ?_⟩
  rw [respond, hth]
  rfl

/-- The request of the first call throws, and the second waits for nobody. -/
theorem not_conserves_of_error :
    ¬ ∀ n, Reaches (step (fun _ => none) fun _ => none) anyEvent (init []) n →
      ∀ th, n.Conserves th := by
  intro h
  obtain ⟨url, hth⟩ : ∃ url, throttlerOf url = some .exHentai :=
    ⟨"https://exhentai.org/".toList, by decide +kernel⟩
  have htwo : Reaches (step (fun _ => none) fun _ => none) anyEvent (init []) (twoCalls url) :=
    (reaches_twoCalls hth).mono fun _ _ _ => trivial
  let n : Network :=
    ((twoCalls url).put 0 (.get url (.requesting 0))).put 0 (.get url (.ended none))
  have hn : Reaches (step (fun _ => none) fun _ => none) anyEvent (init []) n :=
    .tail (e := .error 0) (.tail (e := .resume 0) htwo trivial (step_resume_twoCalls hth))
      trivial rfl
  have hcalls : n.calls = [.get url (.ended none), .get url .waiting] := rfl
  have hwaiting : (Call.get url .waiting).phase .exHentai = .waiting :=
    Call.phase_of_throttler hth
  obtain ⟨c, hc, hholding⟩ := (h n hn .exHentai).waits ⟨_, by simp [hcalls], hwaiting⟩
  rw [hcalls] at hc
  rcases List.mem_pair.mp hc with rfl | rfl
  · rw [Call.phase_of_use rfl] at hholding
    cases hholding
  · rw [hwaiting] at hholding
    cases hholding

/-- Conversely, a permit that is lost stays lost. -/
theorem orderly_of_conserves {providers : List Provider}
    (h : Reaches (step getImagesUrl getImagesAddress) anyEvent (init providers) n)
    (hn : ∀ th, n.Conserves th) :
    Reaches (step getImagesUrl getImagesAddress) (Orderly getImagesUrl) (init providers) n := by
  have hlost : ∃ lost, n.Balanced lost ∧ ((∀ th, lost th = 0) →
      Reaches (step getImagesUrl getImagesAddress) (Orderly getImagesUrl) (init providers) n) := by
    clear hn
    induction h with
    | refl => exact ⟨_, balanced_init providers, fun _ => .refl⟩
    | tail _ _ hs ih =>
      obtain ⟨lost, hb, hreach⟩ := ih
      rcases step_balanced hb hs with ⟨hg, hb'⟩ | ⟨-, th, hb'⟩
      · exact ⟨lost, hb', fun h0 => (hreach h0).tail hg hs⟩
      · exact ⟨_, hb', fun h0 => absurd (h0 th) (by simp)⟩
  obtain ⟨lost, hb, hreach⟩ := hlost
  refine hreach fun th => ?_
  have := hb.currentCount th
  have := (hn th).count
  omega

end Network

end Violet
