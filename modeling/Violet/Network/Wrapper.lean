import Violet.Dart.Str
import Violet.Thread.Clients

/-!
# Throttled network calls

The `get` of the wrapper asks exhentai.org and e-hentai.org only with a permit, and an
`EHentaiImageProvider` looks up the pages of its article one after another. A call runs up to its
next `await`, and goes on when what it waits for is there. Every other call may run in between.
-/

namespace Violet

open Dart Thread

/-! ### Providers -/

structure Response where
  statusCode : ℤ
  body : Str
  deriving DecidableEq, Repr

/-- An element of a list at an index that may be out of range. -/
def at? {α : Type} (l : List α) (i : ℤ) : Option α := if i < 0 then none else l[i.toNat]?

/-- An `EHentaiImageProvider` after `init`. An attribute that is missing on a web page is `null`. -/
structure Provider where
  count : ℕ
  isEHentai : Bool
  pagesUrl : Option (List Str)
  urls : List (Option Str) := List.replicate count none
  imgUrls : List (Option Str) := List.replicate count (some [])
  deriving DecidableEq, Repr

/-- The number of items on a page of the article. -/
def Provider.itemsPerPage (pr : Provider) : ℕ := if pr.isEHentai then 40 else 20

def Provider.ppage (pr : Provider) (page : ℤ) : ℤ := page.tdiv pr.itemsPerPage

def Provider.pageUrl (pr : Provider) (page : ℤ) : Option Str :=
  pr.pagesUrl.bind fun urls => at? urls (pr.ppage page)

/-- The loop that stores the addresses on a page, up to the first that is out of range. -/
def storeFrom (urls : List (Option Str)) (start : ℕ) : List (Option Str) → List (Option Str) × Bool
  | [] => (urls, true)
  | url :: rest =>
    if start < urls.length then storeFrom (urls.set start url) (start + 1) rest else (urls, false)

/-! ### Calls -/

inductive Throttler where
  | exHentai
  | eHentai
  /-- The `pageThrottler` of a provider. -/
  | page (provider : ℕ)
  deriving DecidableEq, Repr

/-- The throttler of a request. -/
def throttlerOf (url : Str) : Option Throttler :=
  if contains url "exhentai.org".toList then some .exHentai
  else if contains url "e-hentai.org".toList then some .eHentai
  else none

/-- Where a call of `get` stands. A call that ends with an exception has no response. -/
inductive GetState where
  | waiting
  | granted
  | requesting (retry : ℕ)
  | ended (result : Option Response)
  deriving DecidableEq, Repr

/-- Where a call of `getImageUrl` stands. A request first waits for the preferences, and then for a
call of `get`. -/
inductive ImageState where
  | waiting
  | granted
  | preferencesOfPages (url : Str)
  | pages (call : ℕ)
  | preferencesOfImage (url : Option Str)
  | image (call : ℕ)
  | ended (result : Option (Option Str))
  deriving DecidableEq, Repr

inductive Call where
  | get (url : Str) (state : GetState)
  | getImageUrl (provider : ℕ) (page : ℤ) (state : ImageState)
  deriving DecidableEq, Repr

def GetState.phase : GetState → Phase
  | .waiting => .waiting
  | .granted | .requesting _ => .holding
  | .ended _ => .out

def ImageState.phase : ImageState → Phase
  | .waiting => .waiting
  | .granted | .preferencesOfPages _ | .pages _ => .holding
  | .preferencesOfImage _ | .image _ | .ended _ => .out

def Call.throttler : Call → Option Throttler
  | .get url _ => throttlerOf url
  | .getImageUrl p _ _ => some (.page p)

/-- What the call is doing with a permit. -/
def Call.use : Call → Phase
  | .get _ state => state.phase
  | .getImageUrl _ _ state => state.phase

def Call.phase (th : Throttler) (c : Call) : Phase := if c.throttler = some th then c.use else .out

def Call.wake : Call → Call
  | .get url .waiting => .get url .granted
  | .getImageUrl p page .waiting => .getImageUrl p page .granted
  | c => c

/-! ### States and events -/

structure Network where
  cacheResponse : List (Str × Response) := []
  throttlers : Throttler → Semaphore := fun
    | .eHentai => { maxCount := 4 }
    | .exHentai | .page _ => { maxCount := 1 }
  providers : List Provider
  calls : List Call := []

inductive NetworkEvent where
  | get (url : Str)
  | getImageUrl (p : ℕ) (page : ℤ)
  /-- A call goes on with its permit. -/
  | resume (i : ℕ)
  | timeout (i : ℕ)
  | response (i : ℕ) (res : Response)
  | error (i : ℕ)
  | preferences (i : ℕ)
  | preferencesError (i : ℕ)
  /-- A call goes on after the call of `get` that it waits for. -/
  | proceed (i : ℕ)
  deriving DecidableEq, Repr

namespace Network

def acquire (n : Network) (th : Throttler) (c : Bool → Call) : Network :=
  let r := (n.throttlers th).acquire n.calls.length
  { n with throttlers := Function.update n.throttlers th r.1, calls := n.calls ++ [c r.2] }

/-- A call goes on without a word to its throttler. -/
def put (n : Network) (i : ℕ) (c : Call) : Network := { n with calls := n.calls.set i c }

/-- A call goes on after it has released its permit. -/
def release (n : Network) (th : Throttler) (i : ℕ) (c : Call) : Network :=
  let r := (n.throttlers th).release
  { n with
    throttlers := Function.update n.throttlers th r.1
    calls := wakeUp Call.wake (n.calls.set i c) r.2 }

def setProvider (n : Network) (p : ℕ) (pr : Provider) : Network :=
  { n with providers := n.providers.set p pr }

/-! ### Calls of `get` -/

/-- `get` up to the first `await`. -/
def get (n : Network) (url : Str) : Network :=
  match throttlerOf url with
  | none => { n with calls := n.calls ++ [.get url (.requesting 0)] }
  | some th =>
    match n.cacheResponse.lookup url with
    | some res => { n with calls := n.calls ++ [.get url (.ended (some res))] }
    | none => n.acquire th fun granted => .get url (if granted then .granted else .waiting)

/-- `get` from the permit to the request. -/
def resumeGet (n : Network) (i : ℕ) (url : Str) (th : Throttler) : Network :=
  match n.cacheResponse.lookup url with
  | some res => n.release th i (.get url (.ended (some res)))
  | none => n.put i (.get url (.requesting 0))

def cache (n : Network) (url : Str) (res : Response) : Network :=
  if (n.cacheResponse.lookup url).isNone ∧ res.statusCode = 200 then
    { n with cacheResponse := (url, res) :: n.cacheResponse }
  else n

/-- `get` after the response. -/
def respond (n : Network) (i : ℕ) (url : Str) (res : Response) : Network :=
  match throttlerOf url with
  | none => n.put i (.get url (.ended (some res)))
  | some th => (n.cache url res).release th i (.get url (.ended (some res)))

/-! ### Calls of `getImageUrl` -/

/-- `getImageUrl` up to the first `await`. -/
def getImageUrl (n : Network) (p : ℕ) (page : ℤ) (pr : Provider) : Network :=
  match at? pr.imgUrls page with
  | none => { n with calls := n.calls ++ [.getImageUrl p page (.ended none)] }
  | some url =>
    if url ≠ some [] then { n with calls := n.calls ++ [.getImageUrl p page (.ended (some url))] }
    else n.acquire (.page p) fun granted =>
      .getImageUrl p page (if granted then .granted else .waiting)

/-- `getImageUrl` from the permit on. An index out of range ends the call, permit and all. -/
def resumeImage (n : Network) (i p : ℕ) (page : ℤ) (pr : Provider) : Network :=
  match at? pr.urls page with
  | none => n.put i (.getImageUrl p page (.ended none))
  | some (some url) => n.release (.page p) i (.getImageUrl p page (.preferencesOfImage (some url)))
  | some none =>
    match pr.pageUrl page with
    | none => n.put i (.getImageUrl p page (.ended none))
    | some url => n.put i (.getImageUrl p page (.preferencesOfPages url))

/-- A request calls `get`. There is no address `null`. -/
def request (n : Network) (i p : ℕ) (page : ℤ) (url : Option Str) (next : ℕ → ImageState) :
    Network :=
  match url with
  | none => n.put i (.getImageUrl p page (.ended none))
  | some url => (n.get url).put i (.getImageUrl p page (next n.calls.length))

variable (getImagesUrl : Str → Option (List (Option Str)))
  (getImagesAddress : Str → Option (Option Str))

/-- `getImageUrl` after the request for the pages. An exception ends the call, permit and all. -/
def storePages (n : Network) (i p : ℕ) (page : ℤ) (pr : Provider) (result : Option Response) :
    Network :=
  match result.bind fun res => getImagesUrl res.body with
  | none => n.put i (.getImageUrl p page (.ended none))
  | some pages =>
    let (urls, ok) := storeFrom pr.urls (pr.ppage page * pr.itemsPerPage).toNat pages
    let n := n.setProvider p { pr with urls := urls }
    if ok then
      n.release (.page p) i (.getImageUrl p page (.preferencesOfImage (at? urls page).join))
    else n.put i (.getImageUrl p page (.ended none))

/-- `getImageUrl` after the request for the image. -/
def storeImage (n : Network) (i p : ℕ) (page : ℤ) (pr : Provider) (result : Option Response) :
    Network :=
  match result.bind fun res => getImagesAddress res.body with
  | none => n.put i (.getImageUrl p page (.ended none))
  | some address =>
    (n.setProvider p { pr with imgUrls := pr.imgUrls.set page.toNat address }).put i
      (.getImageUrl p page (.ended (some address)))

/-! ### Steps -/

/-- The result of a call of `get` that has ended. -/
def result? (n : Network) (call : ℕ) : Option (Option Response) :=
  match n.calls[call]? with
  | some (.get _ (.ended result)) => some result
  | _ => none

def step (n : Network) : NetworkEvent → Option Network
  | .get url => some (n.get url)
  | .getImageUrl p page => n.providers[p]?.map fun pr => n.getImageUrl p page pr
  | .resume i =>
    match n.calls[i]? with
    | some (.get url .granted) => (throttlerOf url).map fun th => n.resumeGet i url th
    | some (.getImageUrl p page .granted) =>
      n.providers[p]?.map fun pr => n.resumeImage i p page pr
    | _ => none
  | .timeout i =>
    match n.calls[i]? with
    | some (.get url (.requesting retry)) =>
      (throttlerOf url).map fun _ => n.put i (.get url (.requesting (retry + 1)))
    | _ => none
  | .response i res =>
    match n.calls[i]? with
    | some (.get url (.requesting _)) => some (n.respond i url res)
    | _ => none
  | .error i =>
    match n.calls[i]? with
    | some (.get url (.requesting _)) => some (n.put i (.get url (.ended none)))
    | _ => none
  | .preferences i =>
    match n.calls[i]? with
    | some (.getImageUrl p page (.preferencesOfPages url)) =>
      some (n.request i p page (some url) .pages)
    | some (.getImageUrl p page (.preferencesOfImage url)) => some (n.request i p page url .image)
    | _ => none
  | .preferencesError i =>
    match n.calls[i]? with
    | some (.getImageUrl p page (.preferencesOfPages _)) =>
      some (n.put i (.getImageUrl p page (.ended none)))
    | some (.getImageUrl p page (.preferencesOfImage _)) =>
      some (n.put i (.getImageUrl p page (.ended none)))
    | _ => none
  | .proceed i =>
    match n.calls[i]? with
    | some (.getImageUrl p page (.pages call)) =>
      n.providers[p]?.bind fun pr =>
        (n.result? call).map fun result => n.storePages getImagesUrl i p page pr result
    | some (.getImageUrl p page (.image call)) =>
      n.providers[p]?.bind fun pr =>
        (n.result? call).map fun result => n.storeImage getImagesAddress i p page pr result
    | _ => none

end Network

end Violet
