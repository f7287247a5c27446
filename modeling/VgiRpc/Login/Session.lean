import VgiRpc.Login.Flow

/-!
# A login that comes back

A login that was started comes back with its own cookie.  The record is read as it was written
when the return address is one line, and the answer can be sent when the address, and the token
in the cookie, are texts of a header.
-/

namespace VgiRpc.Login

open Library List
open Library.ByteStream (Bytes)
open Http (utf8)
open Identity (isVisibleAscii headerToStr isHeaderText percentEncode)
open String (ofList utf8EncodeChar ofList_toList toList)

/-! ## Texts of a header -/

def isVisibleChar (char : Char) : Bool := (32 ≤ char.toNat && char.toNat < 127) || char.toNat == 9

theorem utf8_ofList (chars : List Char) : utf8 (ofList chars) = chars.flatMap utf8EncodeChar := by
  rw [utf8, String.toByteArray_ofList, utf8Encode]
  simp

theorem isVisibleAscii_small : ∀ code < 128,
    isVisibleAscii (UInt8.ofNat code) = ((32 ≤ code && code < 127) || code == 9) := by
  decide +kernel

theorem isVisibleAscii_large : ∀ code < 256, 128 ≤ code → isVisibleAscii (UInt8.ofNat code) = false := by
  decide +kernel

theorem utf8EncodeChar_small {char : Char} (small : char.toNat ≤ 127) :
    utf8EncodeChar char = [UInt8.ofNat char.toNat] := by
  simp [utf8EncodeChar, small]

theorem all_utf8EncodeChar (char : Char) :
    (utf8EncodeChar char).all isVisibleAscii = isVisibleChar char := by
  by_cases small : char.toNat ≤ 127
  · rw [utf8EncodeChar_small small, all_cons, all_nil, Bool.and_true,
      isVisibleAscii_small _ (by omega), isVisibleChar]
  · have large : isVisibleChar char = false := by
      simp [isVisibleChar]
      omega
    -- The first byte of a longer character is none that may stand in a header.
    have first : ∀ code rest, 128 ≤ code → code < 256 →
        (UInt8.ofNat code :: rest).all isVisibleAscii = false := by
      intro code rest least below
      rw [all_cons, isVisibleAscii_large code below least, Bool.false_and]
    rw [large, utf8EncodeChar]
    simp only [Char.toNat_val, small, if_false]
    split
    · exact first _ _ (by omega) (by omega)
    · split
      · exact first _ _ (by omega) (by omega)
      · exact first _ _ (by omega) (by omega)

theorem isHeaderText_ofList (chars : List Char) :
    isHeaderText (ofList chars) = chars.all isVisibleChar := by
  rw [isHeaderText, utf8_ofList]
  induction chars with
  | nil => rfl
  | cons char rest ih =>
    rw [flatMap_cons, all_append, ih, all_utf8EncodeChar, all_cons]

theorem isHeaderText_eq (text : String) : isHeaderText text = text.toList.all isVisibleChar := by
  conv_lhs => rw [← ofList_toList (s := text)]
  rw [isHeaderText_ofList]

@[simp]
theorem isHeaderText_append (first second : String) :
    isHeaderText (first ++ second) = (isHeaderText first && isHeaderText second) := by
  simp [isHeaderText_eq]

theorem headerToStr_utf8 {text : String} (plain : isHeaderText text = true) :
    headerToStr (utf8 text) = some text := by
  have visible := plain
  rw [isHeaderText] at plain
  rw [isHeaderText_eq, all_eq_true] at visible
  rw [headerToStr, if_pos plain]
  have chars : ∀ chars : List Char, (∀ char ∈ chars, isVisibleChar char = true) →
      (chars.flatMap utf8EncodeChar).map (fun byte => Char.ofNat byte.toNat) = chars := by
    intro chars all
    induction chars with
    | nil => rfl
    | cons char rest ih =>
      have small : char.toNat ≤ 127 := by
        have visible := all char (mem_cons_self ..)
        simp [isVisibleChar] at visible
        omega
      rw [flatMap_cons, utf8EncodeChar_small small, map_append, map_singleton,
        ih (forall_mem_cons.mp all).2]
      have byte : (UInt8.ofNat char.toNat).toNat = char.toNat := by
        rw [UInt8.toNat_ofNat']
        omega
      rw [byte, Char.ofNat_toNat, singleton_append]
  have bytes : utf8 text = text.toList.flatMap utf8EncodeChar := by
    rw [← utf8_ofList, ofList_toList]
  rw [bytes, chars _ visible, ofList_toList]

theorem isHeaderText_base64 (bytes : Bytes) : isHeaderText (base64 bytes) = true := by
  have alphabet : ∀ char ∈ Base64Url.alphabet, isVisibleChar char = true :=
    all_eq_true.mp (by decide)
  rw [base64, isHeaderText_ofList, all_eq_true]
  exact fun char member => alphabet char (Base64Url.mem_encode member)

theorem isHeaderText_percentEncode (text : String) : isHeaderText (percentEncode text) = true := by
  have each : ∀ byte : Fin 256,
      (Identity.escape (UInt8.ofNat byte)).all isVisibleChar = true := by decide +kernel
  rw [Identity.percentEncode_eq, isHeaderText_ofList, all_flatMap, all_eq_true]
  intro byte member
  simpa using each ⟨byte.toNat, byte.toNat_lt⟩

variable {parts : List String}

theorem isHeaderText_intercalate {separator : String} (plain : isHeaderText separator = true)
    (all : ∀ part ∈ parts, isHeaderText part = true) :
    isHeaderText (separator.intercalate parts) = true := by
  induction parts with
  | nil => rfl
  | cons part rest ih =>
    have first := all part (mem_cons_self ..)
    have later := ih (forall_mem_cons.mp all).2
    cases rest with
    | nil => rwa [String.intercalate_singleton]
    | cons next others =>
      rw [String.intercalate_cons_cons, isHeaderText_append, isHeaderText_append, first, plain,
        later]
      rfl

theorem isHeaderText_encodeQuery (params : List (String × String)) :
    isHeaderText (encodeQuery params) = true := by
  refine isHeaderText_intercalate (by decide) ?_
  intro part member
  obtain ⟨param, -, rfl⟩ := mem_map.mp member
  rw [isHeaderText_append, isHeaderText_append, isHeaderText_percentEncode,
    isHeaderText_percentEncode]
  decide

/-! ## The cookie on its way -/

structure OtherCookie where
  text : String
  single : ';' ∉ text.toList
  visible : isHeaderText text = true
  other : (cookiePair text.toList).map Prod.fst ≠ some pkceSessionCookie

theorem intercalate_cookies (first : List Char) (rest : List (List Char)) :
    "; ".toList.intercalate (first :: rest) = [';'].intercalate (first :: rest.map (' ' :: ·)) := by
  induction rest generalizing first with
  | nil => rfl
  | cons next others ih =>
    rw [intercalate_cons_cons, ih next, map_cons, intercalate_cons_cons]
    cases others with
    | nil => simp [intercalate]
    | cons later more =>
      rw [map_cons, intercalate_cons_cons, intercalate_cons_cons]
      simp

/-- The parts are read as they are, without the space that divides them. -/
theorem parseCookies_parts (nonempty : parts ≠ []) (single : ∀ part ∈ parts, ';' ∉ part.toList) :
    parseCookies (some ("; ".intercalate parts)) = (parts.map toList).foldl addCookie .empty := by
  obtain ⟨first, rest, rfl⟩ := exists_cons_of_ne_nil nonempty
  have free : ∀ part ∈ first.toList :: (rest.map toList).map (' ' :: ·), ';' ∉ part := by
    intro part member
    rcases mem_cons.mp member with rfl | member
    · exact single _ (mem_cons_self ..)
    · simp only [mem_map] at member
      obtain ⟨_, ⟨text, among, rfl⟩, rfl⟩ := member
      have plain := single text (mem_cons_of_mem _ among)
      simp [plain]
  rw [parseCookies, String.toList_intercalate, map_cons, intercalate_cookies,
    splitOn_intercalate ';' free (by simp), foldl_cons, foldl_cons, foldl_map]
  rfl

variable {name : String} {cookies : OrderedMap String String}

theorem get?_addCookie_other {part : List Char} (other : (cookiePair part).map Prod.fst ≠ some name)
    :
    (addCookie cookies part).get? name = cookies.get? name := by
  unfold addCookie
  cases pair : cookiePair part with
  | none => rfl
  | some entry =>
    rw [pair] at other
    have apart : name ≠ entry.1 := by
      rintro rfl
      exact other rfl
    simp only [OrderedMap.get?_insert, if_neg apart]

theorem get?_foldl_addCookie {parts : List (List Char)}
    (others : ∀ part ∈ parts, (cookiePair part).map Prod.fst ≠ some name) :
    (parts.foldl addCookie cookies).get? name = cookies.get? name := by
  induction parts generalizing cookies with
  | nil => rfl
  | cons part rest ih =>
    rw [foldl_cons, ih (forall_mem_cons.mp others).2,
      get?_addCookie_other (others part (mem_cons_self ..))]

theorem trim_eq_self {text : List Char} (plain : ∀ char ∈ text, Auth.isWhitespace char = false) :
    Auth.trim text = text := by
  have front : text.dropWhile Auth.isWhitespace = text := by
    cases text with
    | nil => rfl
    | cons char rest =>
      exact dropWhile_cons_of_neg (by simp [plain char (mem_cons_self ..)])
  rw [Auth.trim, front, rdropWhile_eq_self_iff]
  intro nonempty
  simp [plain _ (getLast_mem nonempty)]

theorem base64_plain (bytes : Bytes) :
    ∀ char ∈ (base64 bytes).toList, Auth.isWhitespace char = false ∧ char ≠ ';' ∧ char ≠ '=' := by
  have alphabet : (Base64Url.alphabet.all fun char =>
      decide (Auth.isWhitespace char = false ∧ char ≠ ';' ∧ char ≠ '=')) = true := by decide
  intro char member
  rw [base64, String.toList_ofList] at member
  exact of_decide_eq_true (all_eq_true.mp alphabet char (Base64Url.mem_encode member))

def ownCookie (cookie : String) : String := pkceSessionCookie ++ "=" ++ cookie

theorem toList_ownCookie (cookie : String) :
    (ownCookie cookie).toList = pkceSessionCookie.toList ++ '=' :: cookie.toList := by
  simp [ownCookie, String.toList_append]

theorem cookiePair_own (bytes : Bytes) :
    cookiePair (ownCookie (base64 bytes)).toList = some (pkceSessionCookie, base64 bytes) := by
  have all : (pkceSessionCookie.toList.all fun char => !Auth.isWhitespace char) = true := by decide
  have name : ∀ char ∈ pkceSessionCookie.toList, Auth.isWhitespace char = false := by
    intro char member
    simpa using all_eq_true.mp all char member
  have plain : ∀ char ∈ (ownCookie (base64 bytes)).toList, Auth.isWhitespace char = false := by
    intro char member
    rw [toList_ownCookie, mem_append, mem_cons] at member
    rcases member with member | rfl | member
    · exact name char member
    · decide
    · exact (base64_plain bytes char member).1
  have apart : '=' ∉ pkceSessionCookie.toList := by decide
  rw [cookiePair, trim_eq_self plain, toList_ownCookie, Auth.splitOnce_key apart, Option.map_some,
    trim_eq_self name,
    trim_eq_self fun char member => (base64_plain bytes char member).1, ofList_toList,
    ofList_toList]

/-! ## A login and its callback -/

def cookieOf (name : String) (header : String × String) : Option String :=
  if header.1 = "set-cookie" then
    ((Auth.splitOnce (header.2.toList.takeWhile (· ≠ ';'))).filter fun pair =>
      ofList pair.1 = name).map fun pair => ofList pair.2
  else none

def Response.storedCookie (response : Response) (name : String) : Option String :=
  response.headers.findSome? (cookieOf name)

theorem cookieOf_other {header : String × String} (other : header.1 ≠ "set-cookie") :
    cookieOf name header = none := if_neg other

theorem cookieOf_set_cookie {name value : String} (free : ';' ∉ name.toList ++ '=' :: value.toList)
    (apart : '=' ∉ name.toList) (maxAge : Option Nat) (path flags : String) (secure : Bool) :
    cookieOf name ("set-cookie", cookieText name value flags maxAge path secure) = some value := by
  have text : (cookieText name value flags maxAge path secure).toList =
      (name.toList ++ '=' :: value.toList) ++ ';' :: (" Path=".toList ++
        (cookiePath path ++ flags ++ secureFlag secure ++ maxAgeText maxAge).toList) := by
    simp [cookieText, String.toList_append]
  rw [cookieOf, if_pos rfl, text, (takeWhile_mark free _).1, Auth.splitOnce_key apart,
    Option.filter_some, ofList_toList, decide_eq_true rfl, if_pos rfl, Option.map_some,
    ofList_toList]

/-- Everything that happens in a login: what it is started with, and what comes back, in time, with
the state of the login. -/
structure Attempt where
  mac : Mac
  sha256 : Bytes → Bytes
  provider : Provider
  config : OAuthPkceConfig
  returnTo : Option String
  verifierRandom : Bytes
  stateRandom : Bytes
  startedAt : UInt64
  code : Option String
  error : Option String
  errorDescription : Option String
  before : List OtherCookie
  after : List OtherCookie
  calledAt : UInt64
  unexpired : calledAt.toNat - startedAt.toNat ≤ pkceStateTtl

namespace Attempt

variable (login : Attempt)

def target : String := sanitizeReturnTo login.returnTo login.config.allowedReturnOrigins

def pair : PkcePair := generatePkcePair login.sha256 login.verifierRandom

def pkce : PkceState :=
  newStateCookie login.mac login.config.signingKey login.target login.pair login.stateRandom
    login.startedAt

def start : Option Response :=
  handleStart login.mac login.sha256 login.config login.returnTo login.verifierRandom
    login.stateRandom login.startedAt

variable (cookie : String)

/-- The header of the callback, with the session cookie among others. -/
def cookieHeader : Bytes :=
  utf8 ("; ".intercalate
    (login.before.map OtherCookie.text ++ ownCookie cookie :: login.after.map OtherCookie.text))

def callback : Option Response :=
  handleCallback login.mac login.provider login.config
    ⟨login.code, some login.pkce.state, login.error, login.errorDescription⟩
    (some (login.cookieHeader cookie)) login.calledAt

/-- The tokens that the provider gives for the verifier of the login, if it gives any. -/
def tokens : Option TokenSet :=
  match login.error, login.code with
  | none, some code =>
    (exchangeCodeForToken login.provider login.config code login.pair.verifier).toOption
  | _, _ => none

def destination (tokens : TokenSet) : String :=
  if isAbsoluteUrl login.target then externalLocation login.target tokens
  else if login.target = "" then "/"
  else login.target

/-- The answer that is due: a redirect with tokens, an error page without. -/
def Answers (response : Response) : Prop :=
  match login.tokens with
  | some tokens =>
    response.status = 302 ∧ response.headers.lookup "location" = some (login.destination tokens)
  | none => response.status = 400

/-- The record is recovered, and the callback gives the answer that is due. -/
def Honoured : Prop :=
  verifyStateCookie login.mac login.config.signingKey cookie pkceStateTtl login.calledAt =
      .ok (login.pkce.state, login.target, login.pair.verifier) ∧
    ∃ response, login.callback cookie = some response ∧ login.Answers response

/-- The return address is one line; and where tokens are given, it is a text of a header, and
so is the token if it is to be in a cookie. -/
def Clean : Prop :=
  '\n' ∉ login.target.toList ∧ ∀ tokens, login.tokens = some tokens →
      isHeaderText login.target = true ∧
        (isAbsoluteUrl login.target = false → isHeaderText tokens.idOrAccess = true)

/-! ### The cookie of a login -/

theorem pkce_cookie : ∃ bytes, login.pkce.cookie = base64 bytes := ⟨_, rfl⟩

variable {response : Response}

theorem start_some (started : login.start = some response) :
    response.headers = [("location", login.config.authorizationEndpoint ++ "?" ++
        authorizeQuery login.config (isAbsoluteUrl login.target) login.pair.challenge
          login.pkce.state),
      ("set-cookie", buildCookie pkceSessionCookie login.pkce.cookie (some pkceStateTtl)
        login.config.urlPrefix login.config.secureCookie), noCache] ∧
      isHeaderText (buildCookie pkceSessionCookie login.pkce.cookie (some pkceStateTtl)
        login.config.urlPrefix login.config.secureCookie) = true := by
  simp only [start, handleStart, redirectWithCookie, headerValue, Option.bind_eq_bind] at started
  rw [Option.bind_eq_some_iff] at started
  obtain ⟨location, first, started⟩ := started
  rw [Option.bind_eq_some_iff] at started
  obtain ⟨cookie, second, made⟩ := started
  rw [Option.ite_none_right_eq_some] at first second
  cases made
  refine ⟨?_, second.1⟩
  rw [← Option.some.inj first.2, ← Option.some.inj second.2]
  rfl

theorem storedCookie_start (started : login.start = some response) :
    response.storedCookie pkceSessionCookie = some login.pkce.cookie := by
  obtain ⟨bytes, cookie⟩ := login.pkce_cookie
  have free : ';' ∉ pkceSessionCookie.toList ++ '=' :: login.pkce.cookie.toList := by
    rw [cookie, mem_append, mem_cons]
    rintro (member | same | member)
    · exact absurd member (by decide)
    · cases same
    · exact (base64_plain bytes ';' member).2.1 rfl
  have apart : '=' ∉ pkceSessionCookie.toList := by decide
  have stored := cookieOf_set_cookie free apart (some pkceStateTtl) login.config.urlPrefix
    "; HttpOnly; SameSite=Lax" login.config.secureCookie
  rw [Response.storedCookie, (login.start_some started).1, findSome?_cons,
    cookieOf_other (by simp), findSome?_cons, buildCookie, stored]

theorem ownCookie_plain (bytes : Bytes) :
    ';' ∉ (ownCookie (base64 bytes)).toList ∧ isHeaderText (ownCookie (base64 bytes)) = true := by
  constructor
  · rw [toList_ownCookie, mem_append, mem_cons]
    rintro (member | same | member)
    · exact absurd member (by decide)
    · cases same
    · exact (base64_plain bytes ';' member).2.1 rfl
  · rw [ownCookie, isHeaderText_append, isHeaderText_append, isHeaderText_base64]
    decide

/-- The callback finds the cookie among the others. -/
theorem cookie_received (bytes : Bytes) :
    (parseCookies (headerToStr (login.cookieHeader (base64 bytes)))).get? pkceSessionCookie =
      some (base64 bytes) := by
  obtain ⟨single, visible⟩ := ownCookie_plain bytes
  have each : ∀ part ∈ login.before.map OtherCookie.text ++
      ownCookie (base64 bytes) :: login.after.map OtherCookie.text,
        ';' ∉ part.toList ∧ isHeaderText part = true := by
    intro part member
    rw [mem_append, mem_cons] at member
    rcases member with member | rfl | member
    · obtain ⟨cookie, -, rfl⟩ := mem_map.mp member
      exact ⟨cookie.single, cookie.visible⟩
    · exact ⟨single, visible⟩
    · obtain ⟨cookie, -, rfl⟩ := mem_map.mp member
      exact ⟨cookie.single, cookie.visible⟩
  have others : ∀ cookies : List OtherCookie, ∀ part ∈ (cookies.map OtherCookie.text).map toList,
      (cookiePair part).map Prod.fst ≠ some pkceSessionCookie := by
    intro cookies part member
    simp only [mem_map] at member
    obtain ⟨_, ⟨cookie, -, rfl⟩, rfl⟩ := member
    exact cookie.other
  rw [cookieHeader, headerToStr_utf8 (isHeaderText_intercalate (by decide) fun part member =>
      (each part member).2), parseCookies_parts (by simp) fun part member => (each part member).1,
    map_append, map_cons, foldl_append, foldl_cons,
    get?_foldl_addCookie (others login.after), addCookie, cookiePair_own]
  exact OrderedMap.get?_insert_self _ _ _

/-- The record as the callback reads it: the first line of the return address, and the other
lines in front of the verifier. -/
theorem verify_own :
    verifyStateCookie login.mac login.config.signingKey login.pkce.cookie pkceStateTtl
        login.calledAt =
      .ok (login.pkce.state, firstLine login.target, otherLines login.target login.pair.verifier) := by
  rw [pkce, newStateCookie]
  exact (verifyStateCookie_signed ..).trans
    (readState_statePayload (base64_oneLine _) login.unexpired)

theorem verify_own_iff :
    verifyStateCookie login.mac login.config.signingKey login.pkce.cookie pkceStateTtl
        login.calledAt = .ok (login.pkce.state, login.target, login.pair.verifier) ↔
      '\n' ∉ login.target.toList := by
  rw [verify_own, ← lines_iff login.target login.pair.verifier]
  simp

theorem callback_own : login.callback login.pkce.cookie = match login.error, login.code with
      | some error, _ =>
        some (errorPage ("Authorization failed: " ++ error) (login.errorDescription.getD ""))
      | none, none => some (errorPage "Missing authorization code" "")
      | none, some code =>
        match exchangeCodeForToken login.provider login.config code
            (otherLines login.target login.pair.verifier) with
        | .error _ =>
          some (errorPage "Token exchange failed"
            "could not complete login with the identity provider")
        | .ok tokens =>
          finishLogin login.provider login.config (firstLine login.target) tokens := by
  obtain ⟨bytes, cookie⟩ := login.pkce_cookie
  have received := login.cookie_received bytes
  rw [← cookie] at received
  unfold callback handleCallback
  cases login.error with
  | some error => rfl
  | none =>
    cases login.code with
    | none => rfl
    | some code =>
      cases exchanged : exchangeCodeForToken login.provider login.config code
          (otherLines login.target login.pair.verifier) with
      | error error | ok tokens =>
        simp [received, resumeLogin, verify_own, exchanged]

/-- A cookie that could be set can be cleared. -/
theorem clearSession_plain (started : login.start = some response) :
    isHeaderText (clearSession login.config) = true := by
  have set := (login.start_some started).2
  have expires : isHeaderText
      "; HttpOnly; SameSite=Lax; Max-Age=0; Expires=Thu, 01 Jan 1970 00:00:00 GMT" = true := by
    decide +kernel
  simp only [buildCookie, cookieText, isHeaderText_append, Bool.and_eq_true] at set
  obtain ⟨⟨⟨⟨⟨⟨⟨name, -⟩, -⟩, -⟩, path⟩, -⟩, secure⟩, -⟩ := set
  rw [clearSession, buildClearCookie, isHeaderText_append, isHeaderText_append, isHeaderText_append,
    isHeaderText_append, name, path, secure, expires]
  decide

end Attempt

section

variable {provider : Provider} {config : OAuthPkceConfig} {returnTo : String} {tokens : TokenSet}

theorem externalLocation_plain : isHeaderText (externalLocation returnTo tokens) = isHeaderText returnTo := by
  have mark : isHeaderText (if returnTo.toList.contains '#' then "&" else "#") = true := by
    split <;> decide
  rw [externalLocation, isHeaderText_append, isHeaderText_append, mark, tokenFragment,
    isHeaderText_encodeQuery, Bool.and_true, Bool.and_true]

theorem authCookie_plain (token : String) (secure : Bool) :
    isHeaderText (buildCookie authCookieName token none "" secure) = isHeaderText token := by
  have rest : isHeaderText (secureFlag secure) = true := by cases secure <;> decide
  have flags : isHeaderText "; HttpOnly; SameSite=Lax" = true := by decide +kernel
  simp only [buildCookie, cookieText, isHeaderText_append, rest, flags]
  have name : isHeaderText authCookieName = true ∧ isHeaderText "=" = true ∧
      isHeaderText "; Path=" = true ∧ isHeaderText (cookiePath "") = true ∧
      isHeaderText (maxAgeText none) = true := by decide
  obtain ⟨name, equals, path, root, none⟩ := name
  rw [name, equals, path, root, none]
  simp

theorem relativeLocation_plain :
    isHeaderText (if returnTo = "" then "/" else returnTo) = isHeaderText returnTo := by
  split
  · next empty =>
    rw [empty]
    decide
  · rfl

theorem identityHeaders_location (tail : List (String × String)) :
    (identityHeaders provider config tokens ++ tail).lookup "location" = tail.lookup "location" := by
  unfold identityHeaders
  split
  · rfl
  · dsimp only
    split
    · rfl
    · rfl

/-- The last step sends the browser on exactly when its headers can be written. -/
theorem finishLogin_eq (provider : Provider) (returnTo : String) (tokens : TokenSet)
    (clear : isHeaderText (clearSession config) = true) :
    (isHeaderText returnTo = true ∧
        (isAbsoluteUrl returnTo = false → isHeaderText tokens.idOrAccess = true) →
      ∃ response, finishLogin provider config returnTo tokens = some response ∧
        response.status = 302 ∧ response.headers.lookup "location" =
          some (if isAbsoluteUrl returnTo then externalLocation returnTo tokens
            else if returnTo = "" then "/" else returnTo)) ∧
      (¬ (isHeaderText returnTo = true ∧
        (isAbsoluteUrl returnTo = false → isHeaderText tokens.idOrAccess = true)) →
      finishLogin provider config returnTo tokens = none) := by
  unfold finishLogin
  simp only [headerValue, clear, if_true, Option.bind_eq_bind, Option.bind_some,
    externalLocation_plain, authCookie_plain, relativeLocation_plain]
  cases absolute : isAbsoluteUrl returnTo with
  | true =>
    cases plain : isHeaderText returnTo with
    | true => exact ⟨fun _ => ⟨_, rfl, rfl, rfl⟩, fun other => absurd ⟨rfl, by simp⟩ other⟩
    | false => exact ⟨fun other => absurd other.1 (by simp), fun _ => rfl⟩
  | false =>
    cases token : isHeaderText tokens.idOrAccess with
    | false => exact ⟨fun other => absurd (other.2 rfl) (by simp), fun _ => rfl⟩
    | true =>
      cases plain : isHeaderText returnTo with
      | false => exact ⟨fun other => absurd other.1 (by simp), fun _ => rfl⟩
      | true =>
        refine ⟨fun _ => ⟨_, rfl, rfl, ?_⟩, fun other => absurd ⟨rfl, fun _ => rfl⟩ other⟩
        exact identityHeaders_location _

end

/-- A login comes back as it was started exactly when its return address is one line, and the
headers of the answer can be written. -/
theorem honoured_iff_clean (login : Attempt) {response : Response} {cookie : String} (started :
    login.start = some response) (stored : response.storedCookie pkceSessionCookie = some cookie) :
    login.Honoured cookie ↔ login.Clean := by
  rw [login.storedCookie_start started] at stored
  cases stored
  unfold Attempt.Honoured Attempt.Clean
  rw [login.verify_own_iff, login.callback_own]
  refine and_congr_right fun oneLine => ?_
  obtain ⟨line, verifier⟩ := (lines_iff login.target login.pair.verifier).mpr oneLine
  rw [line, verifier]
  unfold Attempt.Answers Attempt.tokens
  cases login.error with
  | some error => exact ⟨fun _ tokens => (by rintro ⟨⟩), fun _ => ⟨_, rfl, rfl⟩⟩
  | none =>
    cases login.code with
    | none => exact ⟨fun _ tokens => (by rintro ⟨⟩), fun _ => ⟨_, rfl, rfl⟩⟩
    | some code =>
      dsimp only
      cases exchanged : exchangeCodeForToken login.provider login.config code
          login.pair.verifier with
      | error error => exact ⟨fun _ tokens => (by rintro ⟨⟩), fun _ => ⟨_, rfl, rfl⟩⟩
      | ok tokens =>
        obtain ⟨sends, fails⟩ := finishLogin_eq login.provider login.target tokens
          (login.clearSession_plain started)
        constructor
        · rintro ⟨response, finished, -⟩ given ⟨⟩
          by_contra unclean
          exact Option.some_ne_none _ (finished.symm.trans (fails unclean))
        · intro clean
          exact sends (clean tokens rfl)

namespace Sample

def mac : Mac := ⟨fun _ _ => List.replicate 32 7, fun _ _ => List.length_replicate⟩

/-- A provider that gives a token for every code and verifier. -/
def provider : Provider where
  post _ _ := .ok (.object [("id_token", .string "abc")])
  fromSlice _ := none
  text _ := ""

def config : OAuthPkceConfig where
  authorizationEndpoint := "https://idp.example/authorize"
  tokenEndpoint := "https://idp.example/token"
  clientId := "client"
  clientSecret := none
  redirectUri := "https://app.example/_oauth/callback"
  scope := "openid"
  signingKey := [7]
  urlPrefix := ""
  allowedReturnOrigins := []
  secureCookie := false

theorem in_time : (60 : UInt64).toNat - (0 : UInt64).toNat ≤ pkceStateTtl := by decide

def attempt (returnTo : String) : Attempt where
  mac := mac
  sha256 bytes := bytes
  provider := provider
  config := config
  returnTo := some returnTo
  verifierRandom := [1, 2, 3]
  stateRandom := [4, 5, 6]
  startedAt := 0
  code := some "code"
  error := none
  errorDescription := none
  before := []
  after := []
  calledAt := 60
  unexpired := in_time

end Sample

open Sample

theorem home_honoured : ∃ response cookie, (attempt "/home").start = some response ∧
      response.storedCookie pkceSessionCookie = some cookie ∧
      (attempt "/home").Honoured cookie := by
  have issued : (attempt "/home").start.isSome = true := by decide +kernel
  obtain ⟨response, started⟩ := Option.isSome_iff_exists.mp issued
  have stored := (attempt "/home").storedCookie_start started
  refine ⟨response, _, started, stored, (honoured_iff_clean _ started stored).mpr ⟨by decide, ?_⟩⟩
  rintro tokens ⟨⟩
  exact ⟨by decide, fun _ => by decide⟩

/-- A return address of two lines goes to its first line with another verifier, and one that is no
text of a header ends in a panic. -/
theorem own_cookie_misread : (∃ response cookie, (attempt "/a\nb").start = some response ∧
      response.storedCookie pkceSessionCookie = some cookie ∧ (attempt "/a\nb").target = "/a\nb" ∧
      verifyStateCookie mac config.signingKey cookie pkceStateTtl 60 =
        .ok ((attempt "/a\nb").pkce.state, "/a", "b\n" ++ (attempt "/a\nb").pair.verifier)) ∧
      ∃ response cookie, (attempt "/é").start = some response ∧
        response.storedCookie pkceSessionCookie = some cookie ∧
        (attempt "/é").callback cookie = none := by
  constructor
  · have issued : (attempt "/a\nb").start.isSome = true := by decide +kernel
    obtain ⟨response, started⟩ := Option.isSome_iff_exists.mp issued
    refine ⟨response, _, started, (attempt "/a\nb").storedCookie_start started, rfl, ?_⟩
    refine (attempt "/a\nb").verify_own.trans ?_
    decide +kernel
  · have issued : (attempt "/é").start.isSome = true := by decide +kernel
    obtain ⟨response, started⟩ := Option.isSome_iff_exists.mp issued
    refine ⟨response, _, started, (attempt "/é").storedCookie_start started, ?_⟩
    have accented : isHeaderText "/é" = false := by decide +kernel
    rw [(attempt "/é").callback_own]
    refine (finishLogin_eq _ _ _ ((attempt "/é").clearSession_plain started)).2 ?_
    rintro ⟨plain, -⟩
    exact absurd (plain.symm.trans accented) (by decide)

end VgiRpc.Login
