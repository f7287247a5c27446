import VgiRpc.Login.Session

/-!
# Where a login ends

The start endpoint looks at the characters of a return address, and a browser reads it by the
rules of the URL standard: tabs and line ends are taken out, and a backslash is a slash.  An
address that begins with an allowed origin ends there.  A path may begin with what is a host to
the browser.
-/

namespace VgiRpc.Login

open List
open Http (isAsciiAlphabetic isAsciiAlphanumeric)
open Identity (isHeaderText)

/-! ## The browser -/

/-- What the URL standard makes of the authority of a URL: its host and port, if it is one. -/
structure UrlStandard where
  Authority : Type
  parseAuthority : List Char → List Char → Option Authority

inductive Place (standard : UrlStandard) where
  | origin (scheme : List Char) (authority : standard.Authority)
  | other (scheme : List Char)

variable (char : Char)

def isControlOrSpace : Bool := char.toNat ≤ 0x20

def isTabOrLineEnd : Bool := char = '\t' || char = '\n' || char = '\r'

/-- A URL as the parser sees it. -/
def cleaned (text : List Char) : List Char :=
  ((text.dropWhile isControlOrSpace).rdropWhile isControlOrSpace).filter fun char =>
    !isTabOrLineEnd char

def isSchemeChar : Bool :=
  isAsciiAlphanumeric char || char = '+' || char = '-' || char = '.'

/-- The scheme in front of a URL, in lower case, and the text behind its colon. -/
def schemeOf (input : List Char) : Option (List Char × List Char) :=
  match input.takeWhile isSchemeChar, input.dropWhile isSchemeChar with
  | first :: scheme, ':' :: rest =>
    if isAsciiAlphabetic first then some ((first :: scheme).map Char.toLower, rest) else none
  | _, _ => none

def specialSchemes : List (List Char) :=
  ["http".toList, "https".toList, "ws".toList, "wss".toList, "ftp".toList]

def isSlash : Bool := char = '/' || char = '\\'

section

variable {standard : UrlStandard}

structure Server (standard : UrlStandard) where
  scheme : List Char
  authority : standard.Authority
  web : scheme = "http".toList ∨ scheme = "https".toList

variable (own : Server standard)

def Server.place : Place standard := .origin own.scheme own.authority

/-- The place of an authority, which a slash of either kind, a query or a fragment ends. -/
def placeAt (standard : UrlStandard) (scheme text : List Char) : Option (Place standard) :=
  (standard.parseAuthority scheme (text.takeWhile fun char => !(isHostEnd char || char = '\\'))).map
    (.origin scheme)

/-- Two slashes at the front of a relative URL, of either kind, come before a host. -/
def resolveRelative (input : List Char) : Option (Place standard) :=
  match input with
  | first :: second :: rest =>
    if isSlash first && isSlash second then placeAt standard own.scheme (rest.dropWhile isSlash)
    else some own.place
  | _ => some own.place

def resolveAbsolute (scheme rest : List Char) : Option (Place standard) :=
  if specialSchemes.contains scheme then
    if scheme = own.scheme && !"//".toList.isPrefixOf rest then resolveRelative own rest
    else placeAt standard scheme (rest.dropWhile isSlash)
  else
    match rest with
    | '/' :: '/' :: rest =>
      (standard.parseAuthority scheme (rest.takeWhile fun char => !isHostEnd char)).map
        (.origin scheme)
    | _ => some (.other scheme)

/-- Where a browser goes from the server; it stays where it is if the URL cannot be read. -/
def resolve (location : String) : Option (Place standard) :=
  match schemeOf (cleaned location.toList) with
  | some (scheme, rest) => resolveAbsolute own scheme rest
  | none => resolveRelative own (cleaned location.toList)

end

/-! ## Origins that are allowed -/

/-- The text of an origin: a scheme, and a host with no character that could end it. -/
structure IsOrigin (text : String) where
  first : Char
  scheme : List Char
  host : List Char
  layout : text.toList = (first :: scheme) ++ "://".toList ++ host
  firstLetter : isAsciiAlphabetic first = true
  schemeChars : ∀ char ∈ scheme, isSchemeChar char = true
  hostChars : ∀ char ∈ host, 0x20 < char.toNat ∧ isSlash char = false ∧ isHostEnd char = false
  nonempty : host ≠ []

def EndsHost (more : List Char) : Prop := ∀ char ∈ more.head?, isHostEnd char = true

variable {char : Char}

theorem isHostEnd_large (ends : isHostEnd char = true) :
    isControlOrSpace char = false ∧ isTabOrLineEnd char = false := by
  simp only [isHostEnd, Bool.or_eq_true, decide_eq_true_eq] at ends
  rcases ends with (rfl | rfl) | rfl
  · decide
  · decide
  · decide

/-- Characters above the space stay where they are. -/
theorem cleaned_append {front : List Char} (large : ∀ char ∈ front, 0x20 < char.toNat)
    (nonempty : front ≠ []) (more : List Char) :
    cleaned (front ++ more) =
      front ++ (more.rdropWhile isControlOrSpace).filter fun char => !isTabOrLineEnd char := by
  have kept : ∀ char ∈ front, isControlOrSpace char = false := by
    intro char member
    have above := large char member
    simp [isControlOrSpace]
    omega
  have plain : ∀ char ∈ front, (!isTabOrLineEnd char) = true := by
    intro char member
    have above := large char member
    simp only [isTabOrLineEnd, Bool.not_eq_true', Bool.or_eq_false_iff, decide_eq_false_iff_not]
    refine ⟨⟨?_, ?_⟩, ?_⟩
    · rintro rfl
      exact absurd above (by decide)
    · rintro rfl
      exact absurd above (by decide)
    · rintro rfl
      exact absurd above (by decide)
  obtain ⟨first, rest, rfl⟩ := exists_cons_of_ne_nil nonempty
  have front : ((first :: rest) ++ more).dropWhile isControlOrSpace = (first :: rest) ++ more :=
    dropWhile_cons_of_neg (by simp [kept first (mem_cons_self ..)])
  rw [cleaned, front, Auth.rdropWhile_append_of_neg kept, filter_append, filter_eq_self.mpr plain]

variable {more : List Char}

theorem EndsHost.cleaned (ends : EndsHost more) :
    EndsHost ((more.rdropWhile isControlOrSpace).filter fun char => !isTabOrLineEnd char) := by
  cases more with
  | nil => exact ends
  | cons first rest =>
    have host := ends first rfl
    obtain ⟨above, plain⟩ := isHostEnd_large host
    have kept := Auth.rdropWhile_append_cons above [] rest
    rw [nil_append, nil_append] at kept
    rw [kept, filter_cons_of_pos (by simp [plain])]
    intro char same
    cases same
    exact host

theorem isSchemeChar_large (scheme : isSchemeChar char = true) : 0x20 < char.toNat := by
  simp only [isSchemeChar, isAsciiAlphanumeric, isAsciiAlphabetic, Bool.or_eq_true,
    Bool.and_eq_true, decide_eq_true_eq] at scheme
  rcases scheme with ((letter | rfl) | rfl) | rfl
  · omega
  · decide
  · decide
  · decide

namespace IsOrigin

variable {text : String} (origin : IsOrigin text)

include origin

theorem scheme_all : ∀ char ∈ origin.first :: origin.scheme, isSchemeChar char = true := by
  refine forall_mem_cons.mpr ⟨?_, origin.schemeChars⟩
  simp [isSchemeChar, isAsciiAlphanumeric, origin.firstLetter]

theorem large : ∀ char ∈ text.toList, 0x20 < char.toNat := by
  intro char member
  rw [origin.layout, mem_append, mem_append] at member
  rcases member with (member | member) | member
  · exact isSchemeChar_large (origin.scheme_all char member)
  · have mark : ("://".toList.all fun char => decide (0x20 < char.toNat)) = true := by decide
    exact of_decide_eq_true (all_eq_true.mp mark char member)
  · exact (origin.hostChars char member).1

theorem nonempty_text : text.toList ≠ [] := by
  rw [origin.layout]
  simp

theorem schemeOf_append (more : List Char) : schemeOf (text.toList ++ more) =
      some ((origin.first :: origin.scheme).map Char.toLower, "//".toList ++ (origin.host ++ more)) := by
  have split : text.toList ++ more =
      (origin.first :: origin.scheme) ++ (':' :: ("//".toList ++ (origin.host ++ more))) := by
    rw [origin.layout]
    simp
  have front := origin.scheme_all
  have colon : isSchemeChar ':' = false := by decide
  rw [split, schemeOf, takeWhile_append_of_pos front, dropWhile_append_of_pos front,
    takeWhile_cons_of_neg (by simp [colon]), dropWhile_cons_of_neg (by simp [colon]), append_nil]
  simp [origin.firstLetter]

theorem host_takeWhile {test : Char → Bool} (inside : ∀ char ∈ origin.host, test char = true)
    {more : List Char} (ends : EndsHost more)
    (stops : ∀ char, isHostEnd char = true → test char = false) :
    (origin.host ++ more).takeWhile test = origin.host := by
  rw [takeWhile_append_of_pos inside]
  cases more with
  | nil => simp
  | cons first rest =>
    rw [takeWhile_cons_of_neg (by simp [stops first (ends first rfl)]), append_nil]

theorem dropWhile_slashes (more : List Char) :
    ("//".toList ++ (origin.host ++ more)).dropWhile isSlash = origin.host ++ more := by
  have slashes : ∀ char ∈ "//".toList, isSlash char = true := all_eq_true.mp (by decide)
  obtain ⟨first, rest, host⟩ := exists_cons_of_ne_nil origin.nonempty
  have plain := (origin.hostChars first (by rw [host]; exact mem_cons_self ..)).2.1
  rw [dropWhile_append_of_pos slashes, host, cons_append, dropWhile_cons_of_neg (by simp [plain])]

variable {standard : UrlStandard} (own : Server standard)

/-- What comes behind an origin does not lead away from it. -/
theorem resolveAbsolute_append (scheme : List Char) {more : List Char} (ends : EndsHost more) :
    resolveAbsolute own scheme ("//".toList ++ (origin.host ++ more)) =
      resolveAbsolute own scheme ("//".toList ++ (origin.host ++ [])) := by
  have authority : ∀ more, EndsHost more →
      (origin.host ++ more).takeWhile (fun char => !(isHostEnd char || char = '\\')) =
        origin.host := by
    intro more ends
    refine origin.host_takeWhile (fun char member => ?_) ends fun char stop => by simp [stop]
    obtain ⟨-, slash, plain⟩ := origin.hostChars char member
    simp only [isSlash, Bool.or_eq_false_iff] at slash
    simp [plain, slash.2]
  have plainAuthority : ∀ more, EndsHost more →
      (origin.host ++ more).takeWhile (fun char => !isHostEnd char) = origin.host := by
    intro more ends
    refine origin.host_takeWhile (fun char member => ?_) ends fun char stop => by simp [stop]
    simp [(origin.hostChars char member).2.2]
  have none : EndsHost [] := by
    rintro char ⟨⟩
  have marked : ∀ more, "//".toList.isPrefixOf ("//".toList ++ (origin.host ++ more)) = true :=
    fun more => isPrefixOf_iff_prefix.mpr (prefix_append _ _)
  have shape : ∀ more, "//".toList ++ (origin.host ++ more) = '/' :: '/' :: (origin.host ++ more) :=
    fun _ => rfl
  unfold resolveAbsolute
  simp only [marked, Bool.not_true, Bool.and_false, Bool.false_eq_true, if_false, placeAt,
    origin.dropWhile_slashes, authority _ ends, authority _ none]
  simp only [shape, plainAuthority _ ends, plainAuthority _ none]

theorem resolve_append {location : String} {more : List Char}
    (layout : location.toList = text.toList ++ more) (ends : EndsHost more) :
    resolve own location = resolve own text := by
  have bare : cleaned text.toList = text.toList ++ [] := by
    have whole := cleaned_append origin.large origin.nonempty_text []
    simpa using whole
  rw [resolve, resolve, layout, cleaned_append origin.large origin.nonempty_text, bare,
    origin.schemeOf_append, origin.schemeOf_append]
  exact origin.resolveAbsolute_append own _ ends.cleaned

end IsOrigin

/-! ## What the start endpoint lets through -/

theorem cutScheme_some {text scheme rest : List Char} (cut : cutScheme text = some (scheme, rest)) :
    text = scheme ++ "://".toList ++ rest := by
  induction text generalizing scheme rest with
  | nil => cases cut
  | cons char others ih =>
    rw [cutScheme] at cut
    split at cut
    · next marked =>
      cases cut
      obtain ⟨after, same⟩ := isPrefixOf_iff_prefix.mp marked
      have behind : others.drop 2 = after := by
        have tail := congrArg (List.drop 3) same
        simpa using tail.symm
      rw [behind, ← same, nil_append]
    · obtain ⟨⟨front, back⟩, found, same⟩ := Option.map_eq_some_iff.mp cut
      cases same
      rw [ih found]
      simp

variable (raw : Option String)

/-- An address that is let through is empty, a path, or begins with an allowed origin. -/
theorem sanitizeReturnTo_cases (allowed : List String) : sanitizeReturnTo raw allowed = "" ∨
      (∃ tail, (sanitizeReturnTo raw allowed).toList = '/' :: tail) ∨
      ∃ entry ∈ allowed, ∃ more, (sanitizeReturnTo raw allowed).toList = entry.toList ++ more ∧
        EndsHost more := by
  unfold sanitizeReturnTo
  split
  · exact .inl rfl
  split_ifs with path permitted
  · rw [Bool.and_eq_true] at path
    obtain ⟨tail, same⟩ := isPrefixOf_iff_prefix.mp path.1
    exact .inr (.inl ⟨tail, same.symm⟩)
  · unfold isAllowedReturnOrigin at permitted
    split at permitted
    · cases permitted
    rename_i scheme rest cut
    refine .inr (.inr ⟨_, contains_iff_mem.mp permitted,
      rest.dropWhile fun char => !isHostEnd char, ?_, ?_⟩)
    · rw [String.toList_ofList, append_assoc, takeWhile_append_dropWhile]
      exact cutScheme_some cut
    · intro char first
      have stops := head?_dropWhile_not (fun char => !isHostEnd char) rest
      rw [first] at stops
      simpa using stops
  · exact .inl rfl

theorem toList_firstLine (text : String) :
    (firstLine text).toList = text.toList.takeWhile (· ≠ '\n') := by
  rw [firstLine, String.toList_ofList]

theorem EndsHost.firstLine (ends : EndsHost more) : EndsHost (more.takeWhile (· ≠ '\n')) := by
  cases more with
  | nil => exact ends
  | cons first rest =>
    have host := ends first rfl
    have line : first ≠ '\n' := by
      rintro rfl
      cases host
    rw [takeWhile_cons_of_pos (by simp [line])]
    exact ends

/-- The same for the first line, which is what a login ends with. -/
theorem firstLine_cases {allowed : List String}
    (origins : ∀ entry ∈ allowed, Nonempty (IsOrigin entry)) :
    firstLine (sanitizeReturnTo raw allowed) = "" ∨
      (∃ tail, (firstLine (sanitizeReturnTo raw allowed)).toList = '/' :: tail) ∨
      ∃ entry ∈ allowed, ∃ more,
        (firstLine (sanitizeReturnTo raw allowed)).toList = entry.toList ++ more ∧ EndsHost more := by
  rcases sanitizeReturnTo_cases raw allowed with empty | ⟨tail, path⟩ | ⟨entry, member, more, layout, ends⟩
  · rw [empty]
    exact .inl rfl
  · refine .inr (.inl ⟨tail.takeWhile (· ≠ '\n'), ?_⟩)
    rw [toList_firstLine, path, takeWhile_cons_of_pos (by simp)]
  · obtain ⟨origin⟩ := origins entry member
    refine .inr (.inr ⟨entry, member, more.takeWhile (· ≠ '\n'), ?_, ends.firstLine⟩)
    rw [toList_firstLine, layout, takeWhile_append_of_pos]
    intro char inside
    refine decide_eq_true ?_
    rintro rfl
    exact absurd (origin.large '\n' inside) (by decide)

/-- The token behind an allowed origin does not lead away either. -/
theorem IsOrigin.externalLocation {entry returnTo : String} (origin : IsOrigin entry)
    (layout : returnTo.toList = entry.toList ++ more) (ends : EndsHost more) (tokens : TokenSet) :
    ∃ behind, (externalLocation returnTo tokens).toList = entry.toList ++ behind ∧
      EndsHost behind := by
  refine ⟨more ++ ((if returnTo.toList.contains '#' then "&" else "#").toList ++
    (tokenFragment tokens).toList), ?_, ?_⟩
  · rw [Login.externalLocation, String.toList_append, String.toList_append, layout]
    simp
  · cases more with
    | cons first rest => exact ends
    | nil =>
      have plain : returnTo.toList.contains '#' = false := by
        rw [layout, append_nil, ← Bool.not_eq_true, contains_iff_mem, origin.layout,
          mem_append, mem_append]
        rintro ((member | member) | member)
        · exact absurd (origin.scheme_all '#' member) (by decide)
        · exact absurd member (by decide)
        · exact absurd (origin.hostChars '#' member).2.2 (by decide)
      rw [plain]
      rintro char ⟨⟩
      rfl

/-! ## Where the callback sends the browser -/

/-- The headers of a start can be written. -/
def OAuthPkceConfig.startable (config : OAuthPkceConfig) : Bool :=
  isHeaderText config.authorizationEndpoint && isHeaderText config.urlPrefix

theorem cookiePath_plain (path : String) : isHeaderText (cookiePath path) = isHeaderText path := by
  unfold cookiePath
  split
  · next empty =>
    rw [empty]
    decide
  · rfl

theorem Attempt.start_isSome (login : Attempt) : login.start.isSome = login.config.startable := by
  have cookie : isHeaderText (buildCookie pkceSessionCookie login.pkce.cookie (some pkceStateTtl)
      login.config.urlPrefix login.config.secureCookie) = isHeaderText login.config.urlPrefix := by
    obtain ⟨bytes, same⟩ := login.pkce_cookie
    have constants : isHeaderText pkceSessionCookie = true ∧ isHeaderText "=" = true ∧
        isHeaderText "; Path=" = true ∧ isHeaderText "; HttpOnly; SameSite=Lax" = true ∧
        isHeaderText (maxAgeText (some pkceStateTtl)) = true := by decide +kernel
    have secure : isHeaderText (secureFlag login.config.secureCookie) = true := by
      cases login.config.secureCookie <;> decide
    obtain ⟨name, equals, path, flags, age⟩ := constants
    simp [buildCookie, cookieText, isHeaderText_append, name, equals, path, flags, age, secure,
      cookiePath_plain, same, isHeaderText_base64]
  have location : isHeaderText (login.config.authorizationEndpoint ++ "?" ++
      authorizeQuery login.config (isAbsoluteUrl login.target) login.pair.challenge
        login.pkce.state) = isHeaderText login.config.authorizationEndpoint := by
    have mark : isHeaderText "?" = true := by decide
    rw [isHeaderText_append, isHeaderText_append, mark, authorizeQuery, isHeaderText_encodeQuery,
      Bool.and_true, Bool.and_true]
  change (redirectWithCookie (login.config.authorizationEndpoint ++ "?" ++
      authorizeQuery login.config (isAbsoluteUrl login.target) login.pair.challenge login.pkce.state)
    (buildCookie pkceSessionCookie login.pkce.cookie (some pkceStateTtl)
      login.config.urlPrefix login.config.secureCookie)).isSome = _
  rw [redirectWithCookie, headerValue, headerValue, cookie, location, OAuthPkceConfig.startable]
  cases isHeaderText login.config.authorizationEndpoint <;>
    cases isHeaderText login.config.urlPrefix <;> rfl

def landing (returnTo : String) (tokens : TokenSet) : String :=
  if isAbsoluteUrl returnTo then externalLocation returnTo tokens
  else if returnTo = "" then "/" else returnTo

theorem Attempt.callback_redirects (login : Attempt) {started response : Response}
    {location : String} (issued : login.start = some started)
    (answered : login.callback login.pkce.cookie = some response) (found : response.status = 302)
    (sent : response.headers.lookup "location" = some location) :
    isHeaderText (firstLine login.target) = true ∧
      ∃ tokens, location = landing (firstLine login.target) tokens := by
  rw [login.callback_own] at answered
  have page : ∀ title detail, some (errorPage title detail) ≠ some response := by
    rintro title detail ⟨⟩
    cases found
  split at answered
  · exact absurd answered (page _ _)
  · exact absurd answered (page _ _)
  · split at answered
    · exact absurd answered (page _ _)
    · next tokens exchanged =>
      obtain ⟨sends, fails⟩ := finishLogin_eq login.provider (firstLine login.target) tokens
        (login.clearSession_plain issued)
      by_cases clean : isHeaderText (firstLine login.target) = true ∧
          (isAbsoluteUrl (firstLine login.target) = false → isHeaderText tokens.idOrAccess = true)
      · obtain ⟨other, same, -, address⟩ := sends clean
        cases same.symm.trans answered
        exact ⟨clean.1, tokens, Option.some.inj (sent.symm.trans address)⟩
      · rw [fails clean] at answered
        cases answered

section

variable {standard : UrlStandard}

/-- A server with its configuration, in which the allowed return origins are origins. -/
structure Deployment (standard : UrlStandard) where
  config : OAuthPkceConfig
  own : Server standard
  origins : ∀ entry ∈ config.allowedReturnOrigins, Nonempty (IsOrigin entry)

variable (deployment : Deployment standard)

/-- The server itself, or an origin that is allowed. -/
def Deployment.Permits (place : Place standard) : Prop :=
  place = deployment.own.place ∨
    ∃ entry ∈ deployment.config.allowedReturnOrigins, resolve deployment.own entry = some place

def Deployment.Stays (location : String) : Prop :=
  ∀ place, resolve deployment.own location = some place → deployment.Permits place

variable (returnTo : Option String)

/-- Every login that asks for the address ends on a permitted origin, whatever else happens. -/
def Deployment.EndsSafely : Prop :=
  ∀ login : Attempt, login.config = deployment.config → login.returnTo = returnTo →
    ∀ started cookie response location, login.start = some started →
      started.storedCookie pkceSessionCookie = some cookie →
      login.callback cookie = some response → response.status = 302 →
      response.headers.lookup "location" = some location → deployment.Stays location

/-- What a browser takes for a host at the front of a relative address. -/
def hostBehind (address : List Char) : Option (List Char) :=
  match cleaned address with
  | first :: second :: rest =>
    if isSlash first && isSlash second then some (rest.dropWhile isSlash) else none
  | _ => none

/-- The first line of the sanitized address, where it can be sent at all, does not begin with two
slashes of either kind once its tabs are taken out, or what follows them is no host or a
permitted one. -/
def Deployment.NamesNoOtherHost : Prop :=
  deployment.config.startable = true →
    isHeaderText (firstLine (sanitizeReturnTo returnTo deployment.config.allowedReturnOrigins)) = true →
    ∀ rest, hostBehind
        (firstLine (sanitizeReturnTo returnTo deployment.config.allowedReturnOrigins)).toList =
          some rest →
      ∀ place, placeAt standard deployment.own.scheme rest = some place → deployment.Permits place

variable {location : String} {tail : List Char}

theorem resolve_path (own : Server standard) (path : location.toList = '/' :: tail) :
    resolve own location = match hostBehind location.toList with
      | some rest => placeAt standard own.scheme rest
      | none => some own.place := by
  have large : ∀ char ∈ ['/'], 0x20 < char.toNat := by
    intro char member
    rw [mem_singleton.mp member]
    decide
  have input : cleaned location.toList = '/' ::
      (tail.rdropWhile isControlOrSpace).filter fun char => !isTabOrLineEnd char := by
    rw [path, ← singleton_append, cleaned_append large (by simp)]
    rfl
  have slash : isSchemeChar '/' = false := by decide
  have schemeless : schemeOf (cleaned location.toList) = none := by
    rw [input, schemeOf, takeWhile_cons_of_neg (by simp [slash])]
  rw [resolve, schemeless, hostBehind]
  dsimp only
  rw [input]
  generalize (tail.rdropWhile isControlOrSpace).filter (fun char => !isTabOrLineEnd char) = more
  cases more with
  | nil => rfl
  | cons second rest =>
    simp only [resolveRelative]
    cases isSlash '/' && isSlash second <;> rfl

theorem landing_path (path : location.toList = '/' :: tail) (tokens : TokenSet) :
    landing location tokens = location := by
  rw [landing, isAbsoluteUrl, path, if_neg (by simp), if_neg]
  rintro rfl
  cases path

variable {entry : String}

theorem stays_of_entry (member : entry ∈ deployment.config.allowedReturnOrigins) {more : List Char}
    (layout : location.toList = entry.toList ++ more) (ends : EndsHost more) :
    deployment.Stays location := by
  obtain ⟨origin⟩ := deployment.origins entry member
  intro place resolved
  rw [origin.resolve_append deployment.own layout ends] at resolved
  exact .inr ⟨entry, member, resolved⟩

variable {returnTo : Option String}

theorem stays_of_landing (safe : deployment.NamesNoOtherHost returnTo) (startable :
    deployment.config.startable = true) (plain : isHeaderText (firstLine (sanitizeReturnTo returnTo
    deployment.config.allowedReturnOrigins)) = true) (tokens : TokenSet) :
    deployment.Stays (landing
      (firstLine (sanitizeReturnTo returnTo deployment.config.allowedReturnOrigins)) tokens) := by
  rcases firstLine_cases returnTo deployment.origins with
    empty | ⟨tail, path⟩ | ⟨entry, member, more, layout, ends⟩
  · rw [empty]
    intro place resolved
    have root : landing "" tokens = "/" := rfl
    rw [root, resolve_path deployment.own (rfl : "/".toList = '/' :: [])] at resolved
    exact .inl (Option.some.inj resolved).symm
  · intro place resolved
    rw [landing_path path, resolve_path deployment.own path] at resolved
    cases behind : hostBehind (firstLine (sanitizeReturnTo returnTo
        deployment.config.allowedReturnOrigins)).toList with
    | none =>
      rw [behind] at resolved
      exact .inl (Option.some.inj resolved).symm
    | some rest =>
      rw [behind] at resolved
      exact safe startable plain rest behind place resolved
  · obtain ⟨origin⟩ := deployment.origins entry member
    unfold landing
    split
    · obtain ⟨behind, layout, ends⟩ := origin.externalLocation layout ends tokens
      exact stays_of_entry deployment member layout ends
    · split
      · next empty =>
        rw [empty] at layout
        have none := (append_eq_nil_iff.mp layout.symm).1
        exact absurd none origin.nonempty_text
      · exact stays_of_entry deployment member layout ends

theorem IsOrigin.hostBehind_append (origin : IsOrigin entry) (more : List Char) :
    hostBehind (entry.toList ++ more) = none := by
  have letter : isSlash origin.first = false := by
    rw [← Bool.not_eq_true]
    intro slash
    have first := origin.firstLetter
    simp only [isSlash, Bool.or_eq_true, decide_eq_true_eq] at slash
    rcases slash with slash | slash
    · rw [slash] at first
      cases first
    · rw [slash] at first
      cases first
  rw [hostBehind, cleaned_append origin.large origin.nonempty_text, origin.layout]
  generalize (more.rdropWhile isControlOrSpace).filter (fun char => !isTabOrLineEnd char) = rest
  simp only [cons_append]
  cases origin.scheme ++ "://".toList ++ origin.host ++ rest with
  | nil => rfl
  | cons second rest =>
    dsimp only
    rw [letter, Bool.false_and, if_neg Bool.false_ne_true]

/-- Only a path has a host behind its slashes. -/
theorem path_of_hostBehind {rest : List Char} (behind : hostBehind (firstLine (sanitizeReturnTo
    returnTo deployment.config.allowedReturnOrigins)).toList = some rest) :
    ∃ tail, (firstLine (sanitizeReturnTo returnTo
      deployment.config.allowedReturnOrigins)).toList = '/' :: tail := by
  rcases firstLine_cases returnTo deployment.origins with
    empty | path | ⟨entry, member, more, layout, -⟩
  · rw [empty] at behind
    cases behind
  · exact path
  · obtain ⟨origin⟩ := deployment.origins entry member
    rw [layout, origin.hostBehind_append] at behind
    cases behind

def Deployment.granted (returnTo : Option String) : Attempt :=
  { Sample.attempt "" with config := deployment.config, returnTo := returnTo }

theorem granted_sends {started : Response} (issued : (deployment.granted returnTo).start = some
    started) (plain : isHeaderText (firstLine (sanitizeReturnTo returnTo
    deployment.config.allowedReturnOrigins)) = true) :
    ∃ response, (deployment.granted returnTo).callback
          (deployment.granted returnTo).pkce.cookie = some response ∧
      response.status = 302 ∧ response.headers.lookup "location" = some (landing
        (firstLine (sanitizeReturnTo returnTo deployment.config.allowedReturnOrigins))
        ⟨"abc", none, none⟩) := by
  have token : isHeaderText "abc" = true := by decide
  have clear := (deployment.granted returnTo).clearSession_plain issued
  rw [(deployment.granted returnTo).callback_own]
  exact (finishLogin_eq Sample.provider _ ⟨"abc", none, none⟩ clear).1 ⟨plain, fun _ => token⟩

end

namespace Sample

/-- Any text but the empty one is a host. -/
def standard : UrlStandard where
  Authority := List Char
  parseAuthority _ text := if text = [] then none else some text

theorem no_origins : ∀ entry ∈ config.allowedReturnOrigins, Nonempty (IsOrigin entry) := by
  intro entry member
  cases member

def own : Server standard where
  scheme := "https".toList
  authority := "app.example".toList
  web := .inr rfl

def deployment : Deployment standard where
  config := config
  own := own
  origins := no_origins

/-- A login for the address that is granted ends on another host. -/
def LeadsElsewhere (returnTo : String) : Prop :=
  ∃ started cookie response location, (attempt returnTo).start = some started ∧
    started.storedCookie pkceSessionCookie = some cookie ∧
    (attempt returnTo).callback cookie = some response ∧ response.status = 302 ∧
    response.headers.lookup "location" = some location ∧
    resolve own location = some (.origin "https".toList "evil.example".toList) ∧
    ¬ deployment.Stays location

theorem leadsElsewhere_of {returnTo : String}
    (kept : firstLine (sanitizeReturnTo (some returnTo) []) = returnTo)
    (plain : isHeaderText returnTo = true) (lands : landing returnTo ⟨"abc", none, none⟩ = returnTo)
    (resolved : resolve own returnTo = some (.origin "https".toList "evil.example".toList)) :
    LeadsElsewhere returnTo := by
  have startable : config.startable = true := by decide +kernel
  have issues : (deployment.granted (some returnTo)).start.isSome = true :=
    (Attempt.start_isSome _).trans startable
  obtain ⟨started, issued⟩ := Option.isSome_iff_exists.mp issues
  have target : firstLine (sanitizeReturnTo (some returnTo)
      deployment.config.allowedReturnOrigins) = returnTo := kept
  obtain ⟨response, answered, found, sent⟩ := granted_sends deployment issued (target.symm ▸ plain)
  rw [target, lands] at sent
  refine ⟨started, _, response, returnTo, issued, Attempt.storedCookie_start _ issued, answered,
    found, sent, resolved, fun stays => ?_⟩
  rcases stays _ resolved with same | ⟨entry, allowed, -⟩
  · have other : "evil.example".toList = "app.example".toList := (Place.origin.inj same).2
    exact absurd other (by decide)
  · cases allowed

end Sample

end VgiRpc.Login

