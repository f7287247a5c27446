import VgiRpc.External.Agreement
import VgiRpc.Identity.Admission

/-!
# Fetching under a policy

Three fetchers follow redirects themselves, so that every hop is shown to the validator before
it is requested.  They differ in what they send with and in how they take a body; the loop over
the hops is one.  A redirect is validated in the form in which it is requested.  The first URL is
validated as it was written and requested as the URL library writes it.
-/

namespace VgiRpc.External

open Library.ByteStream List
open Identity (HeaderMap headerToStr isHttpFieldName isHeaderText lowercase)
open Http (utf8)

/-! ## URLs and headers -/

structure UrlLibrary where
  Url : Type
  parse : String → Option Url
  asStr : Url → String
  join : Url → String → Option Url
  /-- A URL without user, password, query and fragment. -/
  stripped : Url → String
  /-- A status with its reason, as it is printed. -/
  statusText : Nat → String

variable (headers : HeaderMap)

def headerText (name : String) : Option String :=
  ((headers.get? name).bind List.head?).bind headerToStr

def announcedCompression : Compression :=
  match headerText headers "content-encoding" with
  | some value =>
    if Auth.eqIgnoreAsciiCase value.toList "zstd".toList then .zstd 0 else .none
  | none => .none

def isRedirection (status : Nat) : Bool := 300 ≤ status && status < 400

def isSuccess (status : Nat) : Bool := 200 ≤ status && status < 300

/-! ## One hop after another -/

inductive Event where
  /-- The validator was shown the URL and accepted it. -/
  | accepted (url : String)
  | requested (url : String)
  deriving DecidableEq, Repr

abbrev Fetch : Type := List Event × Except RpcError FetchedPayload

/-- How a fetcher sends its requests, of which this is the one with the number, and takes an
answer that is a success. -/
structure Transport (urls : UrlLibrary) where
  Answer : Type
  send : Nat → urls.Url → Except RpcError Answer
  status : Answer → Nat
  headers : Answer → HeaderMap
  take : Answer → Except RpcError FetchedPayload

section

variable (tools : Toolkit) {urls : UrlLibrary} (validator : UrlValidator) (maxRedirects : Nat)

def redactExternalUrl (urls : UrlLibrary) (raw : String) : String :=
  match urls.parse raw with
  | none => "<invalid external URL>"
  | some url => urls.stripped url

def redirectTarget (current : urls.Url) (headers : HeaderMap) : Except RpcError urls.Url :=
  match headerText headers "location" with
  | none => .error (.runtimeError "external redirect missing Location")
  | some location =>
    match urls.join current location with
    | none => .error (.runtimeError "external redirect has invalid Location")
    | some next => .ok next

/-- The loop, with the number of redirects followed and the number of those still allowed. -/
def follow (transport : Transport urls) : Nat → Nat → urls.Url → Fetch
  | redirects, left, current =>
    match transport.send redirects current with
    | .error error => ([.requested (urls.asStr current)], .error error)
    | .ok answer =>
      if isRedirection (transport.status answer) then
        match left with
        | 0 =>
          ([.requested (urls.asStr current)], .error (.runtimeError
            ("external fetch redirect limit (" ++ toString maxRedirects ++ ") exceeded")))
        | left + 1 =>
          match redirectTarget current (transport.headers answer) with
          | .error error => ([.requested (urls.asStr current)], .error error)
          | .ok next =>
            match validateExternalUrl tools validator (urls.asStr next) with
            | .error error => ([.requested (urls.asStr current)], .error error)
            | .ok () =>
              let (events, result) := follow transport (redirects + 1) left next
              (.requested (urls.asStr current) :: .accepted (urls.asStr next) :: events, result)
      else if !isSuccess (transport.status answer) then
        ([.requested (urls.asStr current)], .error (.runtimeError
          ("external GET returned " ++ urls.statusText (transport.status answer) ++ " for " ++
            redactExternalUrl urls (urls.asStr current))))
      else ([.requested (urls.asStr current)], transport.take answer)

/-- The URL is validated as it was given, and then parsed. -/
def fetchFollowing (transport : Transport urls) (url : String) : Fetch :=
  match validateExternalUrl tools validator url with
  | .error error => ([], .error error)
  | .ok () =>
    match urls.parse url with
    | none => ([.accepted url], .error (.valueError "URL rejected: invalid external URL"))
    | some current =>
      let (events, result) := follow tools validator maxRedirects transport 0 maxRedirects current
      (.accepted url :: events, result)

end

section

variable (urls : UrlLibrary) (maxBytes : Nat)

/-- An answer whose body is read piece by piece; a piece that is absent could not be read. -/
structure StreamedAnswer where
  status : Nat
  headers : HeaderMap
  contentLength : Option Nat
  reads : List (Option Bytes)

def readLimited (maxBytes : Nat) : Bytes → List (Option Bytes) → Except RpcError Bytes
  | out, [] => .ok out
  | _, none :: _ => .error (.runtimeError "external GET body read failed")
  | out, some piece :: rest =>
    if piece.isEmpty then .ok out
    else if maxBytes < out.length + piece.length then
      .error (.runtimeError ("external payload exceeds max_fetch_bytes=" ++ toString maxBytes))
    else readLimited maxBytes (out ++ piece) rest

def takeStreamed (answer : StreamedAnswer) : Except RpcError FetchedPayload :=
  match answer.contentLength.filter (maxBytes < ·) with
  | some length =>
    .error (.runtimeError ("external payload Content-Length " ++ toString length ++
      " exceeds max_fetch_bytes=" ++ toString maxBytes))
  | none =>
    (readLimited maxBytes [] answer.reads).map fun bytes =>
      ⟨bytes, announcedCompression answer.headers⟩

/-- A client that streams its answers; no answer is a request that failed. -/
def streaming (client : Nat → urls.Url → Option StreamedAnswer) : Transport urls where
  Answer := StreamedAnswer
  send number url :=
    match client number url with
    | some answer => .ok answer
    | none =>
      .error (.runtimeError ("external GET failed for " ++ redactExternalUrl urls (urls.asStr url)))
  status := StreamedAnswer.status
  headers := StreamedAnswer.headers
  take := takeStreamed maxBytes

/-- The answer of an executor, which has read the body. -/
structure HttpResponse where
  status : Nat
  headers : List (String × String)
  body : Bytes

def trimmed (text : String) : String := String.ofList (Auth.trim text.toList)

/-- The headers of an executor, checked and put under their names. -/
def convertHeaders (label : String) : HeaderMap → List (String × String) → Except RpcError HeaderMap
  | headers, [] => .ok headers
  | headers, (name, value) :: rest =>
    if !isHttpFieldName (trimmed name) then
      .error (.protocolError
        ("invalid " ++ label ++ " HTTP response header name: invalid HTTP header name"))
    else if !isHeaderText (trimmed value) then
      .error (.protocolError
        ("invalid " ++ label ++ " HTTP response header value: failed to parse header value"))
    else
      convertHeaders label (headers.insert (lowercase (trimmed name))
          ((headers.get? (lowercase (trimmed name))).getD [] ++ [utf8 (trimmed value)])) rest

def convertExecutorResponse (status : Nat) (rawHeaders : List (String × String)) (label : String) :
    Except RpcError (Nat × HeaderMap) :=
  if status < 100 ∨ 1000 ≤ status then
    .error (.protocolError ("invalid " ++ label ++ " HTTP response status: invalid status code"))
  else (convertHeaders label .empty rawHeaders).map fun headers => (status, headers)

structure ExecutorAnswer where
  status : Nat
  headers : HeaderMap
  body : Bytes

def executorGet (execute : Nat → String → Option HttpResponse) (number : Nat) (url : String) :
    Except RpcError ExecutorAnswer :=
  match execute number url with
  | none => .error (.runtimeError ("external GET failed for " ++ redactExternalUrl urls url))
  | some response =>
    (convertExecutorResponse response.status response.headers "external").map
      fun converted => ⟨converted.1, converted.2, response.body⟩

/-- A transport that decodes for itself has undone the encoding of the store. -/
def takeWhole (transparent : Bool) (answer : ExecutorAnswer) : Except RpcError FetchedPayload :=
  if maxBytes < answer.body.length then
    .error (.runtimeError ("external payload exceeds max_fetch_bytes=" ++ toString maxBytes))
  else
    .ok ⟨answer.body, if transparent then .none else announcedCompression answer.headers⟩

def executing (transparent : Bool) (execute : Nat → String → Option HttpResponse) :
    Transport urls where
  Answer := ExecutorAnswer
  send number url := executorGet urls execute number (urls.asStr url)
  status := ExecutorAnswer.status
  headers := ExecutorAnswer.headers
  take := takeWhole maxBytes transparent

/-- The fetchers, each with what answers its requests. -/
inductive Fetcher where
  | clientHttpFetcher (client : Nat → urls.Url → Option StreamedAnswer)
  | executorFetcher (transparent : Bool) (execute : Nat → String → Option HttpResponse)
  | httpFetcher (client : Nat → urls.Url → Option StreamedAnswer)

variable {urls}

def Fetcher.transport : Fetcher urls → Transport urls
  | .clientHttpFetcher client => streaming urls maxBytes client
  | .executorFetcher transparent execute => executing urls maxBytes transparent execute
  | .httpFetcher client => streaming urls maxBytes client

def Fetcher.fetchWithPolicy (tools : Toolkit) (fetcher : Fetcher urls) (url : String)
    (validator : UrlValidator) (maxRedirects : Nat) : Fetch :=
  fetchFollowing tools validator maxRedirects (fetcher.transport maxBytes) url

end

section

variable {tools : Toolkit} {urls : UrlLibrary} {validator : UrlValidator}

theorem validateExternalUrl_ok {url : String} :
    validateExternalUrl tools validator url = .ok () ↔ validator url = .ok () := by
  unfold validateExternalUrl
  cases validator url with
  | error error => simp
  | ok accepted => simp

/-- A run from a URL, with a number of redirects still allowed. -/
inductive Hops (validator : UrlValidator) (transport : Transport urls) :
    Nat → urls.Url → List Event → Except RpcError FetchedPayload → Prop
  | stop {left : Nat} {current : urls.Url} {result : Except RpcError FetchedPayload}
      (taken : ∀ payload, result = .ok payload → ∃ answer, transport.take answer = .ok payload) :
      Hops validator transport left current [.requested (urls.asStr current)] result
  | hop {left : Nat} {current next : urls.Url} {events : List Event}
      {result : Except RpcError FetchedPayload} (valid : validator (urls.asStr next) = .ok ())
      (later : Hops validator transport left next events result) :
      Hops validator transport (left + 1) current
        (.requested (urls.asStr current) :: .accepted (urls.asStr next) :: events) result

theorem Hops.fail {transport : Transport urls} {left : Nat} {current : urls.Url}
    (error : RpcError) :
    Hops validator transport left current [.requested (urls.asStr current)] (.error error) :=
  .stop (by rintro payload ⟨⟩)

theorem follow_hops (tools : Toolkit) (validator : UrlValidator) (maxRedirects : Nat)
    (transport : Transport urls) (redirects left : Nat) (current : urls.Url) :
    Hops validator transport left current
      (follow tools validator maxRedirects transport redirects left current).1
      (follow tools validator maxRedirects transport redirects left current).2 := by
  induction left generalizing redirects current with
  | zero =>
    unfold follow
    cases transport.send redirects current with
    | error error => exact .fail error
    | ok answer =>
      dsimp only
      split
      · exact .fail _
      · split
        · exact .fail _
        · exact .stop fun payload taken => ⟨answer, taken⟩
  | succ left ih =>
    unfold follow
    cases transport.send redirects current with
    | error error => exact .fail error
    | ok answer =>
      dsimp only
      split
      · cases redirectTarget current (transport.headers answer) with
        | error error => exact .fail error
        | ok next =>
          dsimp only
          cases valid : validateExternalUrl tools validator (urls.asStr next) with
          | error error => exact .fail error
          | ok accepted => exact .hop (validateExternalUrl_ok.mp valid) (ih (redirects + 1) next)
      · split
        · exact .fail _
        · exact .stop fun payload taken => ⟨answer, taken⟩

/-- Every URL that is requested was accepted before, as the very same text. -/
def Asked : List String → List Event → Prop
  | _, [] => True
  | known, .accepted url :: rest => Asked (url :: known) rest
  | known, .requested url :: rest => url ∈ known ∧ Asked known rest

def requests (events : List Event) : List String :=
  events.filterMap fun
    | .accepted _ => none
    | .requested url => some url

namespace Hops

variable {transport : Transport urls} {left : Nat} {current : urls.Url} {events : List Event}
  {result : Except RpcError FetchedPayload}

section

variable (hops : Hops validator transport left current events result)
include hops

theorem asked_iff (known : List String) : Asked known events ↔ urls.asStr current ∈ known := by
  induction hops generalizing known with
  | stop taken => exact and_iff_left trivial
  | hop valid later ih =>
    have rest := (ih (_ :: known)).mpr (mem_cons_self ..)
    exact and_iff_left rest

theorem accepted_iff : (∀ url ∈ requests events, validator url = .ok ()) ↔
      validator (urls.asStr current) = .ok () := by
  induction hops with
  | stop taken => simp [requests]
  | hop valid later ih =>
    have rest := ih.mpr valid
    simp only [requests, filterMap_cons, forall_mem_cons] at rest ⊢
    exact and_iff_left rest

theorem requests_le : (requests events).length ≤ left + 1 := by
  induction hops with
  | stop taken => simp [requests]
  | hop valid later ih =>
    simp only [requests, filterMap_cons, length_cons] at ih ⊢
    omega

theorem taken {payload : FetchedPayload} (returned : result = .ok payload) :
    ∃ answer, transport.take answer = .ok payload := by
  induction hops with
  | stop taken => exact taken payload returned
  | hop valid later ih => exact ih returned

end

end Hops

theorem readLimited_le {maxBytes : Nat} {out bytes : Bytes} {reads : List (Option Bytes)}
    (small : out.length ≤ maxBytes) (read : readLimited maxBytes out reads = .ok bytes) :
    bytes.length ≤ maxBytes := by
  induction reads generalizing out with
  | nil =>
    cases read
    exact small
  | cons piece rest ih =>
    cases piece with
    | none => cases read
    | some piece =>
      rw [readLimited] at read
      split at read
      · cases read
        exact small
      · split_ifs at read
        refine ih ?_ read
        rw [length_append]
        omega

theorem Fetcher.take_le (maxBytes : Nat) (fetcher : Fetcher urls)
    {answer : (fetcher.transport maxBytes).Answer} {payload : FetchedPayload}
    (taken : (fetcher.transport maxBytes).take answer = .ok payload) :
    payload.bytes.length ≤ maxBytes := by
  have streamed : ∀ {answer : StreamedAnswer}, takeStreamed maxBytes answer = .ok payload →
      payload.bytes.length ≤ maxBytes := by
    intro answer taken
    unfold takeStreamed at taken
    split at taken
    · cases taken
    cases read : readLimited maxBytes [] answer.reads with
    | error error =>
      rw [read] at taken
      cases taken
    | ok bytes =>
      rw [read] at taken
      cases taken
      exact readLimited_le (Nat.zero_le _) read
  cases fetcher with
  | clientHttpFetcher client => exact streamed taken
  | httpFetcher client => exact streamed taken
  | executorFetcher transparent execute =>
    change takeWhole maxBytes transparent answer = .ok payload at taken
    unfold takeWhole at taken
    split at taken
    · cases taken
    · cases taken
      simp only
      omega

end

section

variable {urls : UrlLibrary}

/-- Only URLs that the validator was asked about are requested, there are not more requests than
the redirects allow, and what is returned is within the limit. -/
structure Obeys (maxBytes maxRedirects : Nat) (fetch : Fetch) : Prop where
  asked : Asked [] fetch.1
  requests : (requests fetch.1).length ≤ maxRedirects + 1
  bounded : ∀ payload, fetch.2 = .ok payload → payload.bytes.length ≤ maxBytes

/-- The policy is obeyed exactly for a URL that is refused, is none, or is written as the library
writes it; and no request goes to a URL that the validator would refuse exactly when the first
does not. -/
theorem fetcher_obeys_iff (tools : Toolkit) (fetcher : Fetcher urls) (url : String)
    (maxBytes maxRedirects : Nat) (validator : UrlValidator) :
    (Obeys maxBytes maxRedirects (fetcher.fetchWithPolicy maxBytes tools url validator maxRedirects) ↔
      (validator url = .ok () → ∀ parsed, urls.parse url = some parsed → urls.asStr parsed = url)) ∧
      ((∀ request ∈ requests (fetcher.fetchWithPolicy maxBytes tools url validator maxRedirects).1,
          validator request = .ok ()) ↔
        (validator url = .ok () → ∀ parsed, urls.parse url = some parsed →
          validator (urls.asStr parsed) = .ok ())) := by
  unfold Fetcher.fetchWithPolicy fetchFollowing
  cases valid : validateExternalUrl tools validator url with
  | error error =>
    have refused : validator url ≠ .ok () := by
      intro accepted
      rw [validateExternalUrl_ok.mpr accepted] at valid
      cases valid
    refine ⟨⟨fun _ accepted => absurd accepted refused, fun _ => ?_⟩,
      fun _ accepted => absurd accepted refused, fun _ => by rintro request ⟨⟩⟩
    exact ⟨trivial, Nat.zero_le _, by rintro payload ⟨⟩⟩
  | ok accepted =>
    have taken := validateExternalUrl_ok.mp valid
    cases parsed : urls.parse url with
    | none =>
      refine ⟨⟨fun _ _ => by rintro other ⟨⟩, fun _ => ?_⟩,
        fun _ _ => by rintro other ⟨⟩, fun _ => by rintro request ⟨⟩⟩
      exact ⟨trivial, Nat.zero_le _, by rintro payload ⟨⟩⟩
    | some current =>
      have hops := follow_hops tools validator maxRedirects (fetcher.transport maxBytes) 0
        maxRedirects current
      constructor
      · constructor
        · rintro ⟨asked, -, -⟩ - other ⟨⟩
          exact mem_singleton.mp ((hops.asked_iff [url]).mp asked)
        · intro normal
          have same := normal taken current rfl
          refine ⟨(hops.asked_iff [url]).mpr (by rw [same]; exact mem_singleton_self _),
            hops.requests_le, ?_⟩
          intro payload returned
          obtain ⟨answer, took⟩ := hops.taken returned
          exact fetcher.take_le maxBytes took
      · refine hops.accepted_iff.trans ⟨?_, fun normal => normal taken current rfl⟩
        rintro first - other ⟨⟩
        exact first

end

namespace Sample

/-- A library that takes one segment back out of one URL. -/
def dotSegments : UrlLibrary where
  Url := String
  parse raw :=
    if raw = "https://store/open/../secret" then some "https://store/secret" else some raw
  asStr url := url
  join _ location := some location
  stripped url := url
  statusText status := toString status

def onlyOpen : UrlValidator := fun raw =>
  if "https://store/open/".toList.isPrefixOf raw.toList then .ok ()
  else .error (.valueError "URL rejected")

def streamed : StreamedAnswer := ⟨200, .empty, none, [some [7]]⟩

def fetchers : List (Fetcher dotSegments) :=
  [.clientHttpFetcher fun _ _ => some streamed, .executorFetcher false fun _ _ => some ⟨200, [], [7]⟩,
    .httpFetcher fun _ _ => some streamed]

end Sample

/-- Each fetcher asks for what the validator refuses. -/
theorem fetchers_request_unchecked : (Sample.fetchers.map fun fetcher =>
      (fetcher.fetchWithPolicy 1024 Sample.tools "https://store/open/../secret" Sample.onlyOpen 0).1) =
        List.replicate 3 [.accepted "https://store/open/../secret",
          .requested "https://store/secret"] ∧
      Sample.onlyOpen "https://store/secret" = .error (.valueError "URL rejected") := by
  decide

end VgiRpc.External
