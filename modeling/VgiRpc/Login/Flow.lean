import VgiRpc.Auth.Xfcc
import VgiRpc.Login.Cookie

/-!
# Signing in with a browser

The start of a login notes where the browser is to go afterwards, in a cookie, and sends it to
the provider.  The callback reads the cookie, exchanges the code for tokens and sends the browser
on: with the token in the fragment when the address is absolute, and with a cookie otherwise.
-/

namespace VgiRpc.Login

open Library
open Library.ByteStream (Bytes)
open Http (utf8)
open Identity (headerToStr isHeaderText percentEncode)

def pkceSessionCookie : String := "_vgi_pkce"
def authCookieName : String := "_vgi_auth"
def identityCookieName : String := "_vgi_identity"

def pkceStateTtl : Nat := 600

structure Response where
  status : Nat
  headers : List (String × String)
  body : String
  deriving DecidableEq, Repr

variable (text : String)

/-- The value of a header that is unwrapped; there is none where that panics. -/
def headerValue : Option String := if isHeaderText text then some text else none

def cookiePath (path : String) : String := if path = "" then "/" else path

def secureFlag (secure : Bool) : String := if secure then "; Secure" else ""

def maxAgeText (maxAge : Option Nat) : String :=
  match maxAge with
  | some age => "; Max-Age=" ++ toString age
  | none => ""

def cookieText (name value flags : String) (maxAge : Option Nat) (path : String) (secure : Bool) :
    String :=
  name ++ "=" ++ value ++ "; Path=" ++ cookiePath path ++ flags ++ secureFlag secure ++
    maxAgeText maxAge

variable (name value : String) (maxAge : Option Nat) (path : String) (secure : Bool)

def buildCookie : String :=
  cookieText name value "; HttpOnly; SameSite=Lax" maxAge path secure

/-- A cookie that a script may read. -/
def buildJsCookie : String :=
  cookieText name value "; SameSite=Lax" maxAge path secure

def buildClearCookie (name path : String) (secure : Bool) : String :=
  name ++ "=; Path=" ++ cookiePath path ++
    "; HttpOnly; SameSite=Lax; Max-Age=0; Expires=Thu, 01 Jan 1970 00:00:00 GMT" ++
    secureFlag secure

def cookiePair (part : List Char) : Option (String × String) :=
  (Auth.splitOnce (Auth.trim part)).map fun pair =>
    (String.ofList (Auth.trim pair.1), String.ofList (Auth.trim pair.2))

def addCookie (cookies : OrderedMap String String) (part : List Char) : OrderedMap String String :=
  match cookiePair part with
  | some (name, value) => cookies.insert name value
  | none => cookies

variable (raw : Option String)

def parseCookies : OrderedMap String String :=
  match raw with
  | none => .empty
  | some raw => (raw.toList.splitOn ';').foldl addCookie .empty

def noCache : String × String := ("cache-control", "no-cache, no-store, must-revalidate")

def redirectWithCookie (location cookie : String) : Option Response := do
  let location ← headerValue location
  let cookie ← headerValue cookie
  some ⟨302, [("location", location), ("set-cookie", cookie), noCache], ""⟩

def htmlEscape : String :=
  String.ofList (text.toList.flatMap fun char =>
    if char = '&' then "&amp;".toList else if char = '<' then "&lt;".toList
    else if char = '>' then "&gt;".toList else [char])

def errorPage (title detail : String) : Response :=
  ⟨400, [("content-type", "text/html; charset=utf-8")],
    "<!doctype html><html><head><meta charset=\"utf-8\"><title>OAuth error</title></head>" ++
      "<body><h1>" ++ htmlEscape title ++ "</h1><p>" ++ htmlEscape detail ++ "</p></body></html>"⟩

/-- The texts before and behind the first `://`. -/
def cutScheme : List Char → Option (List Char × List Char)
  | [] => none
  | char :: rest =>
    if "://".toList.isPrefixOf (char :: rest) then some ([], rest.drop 2)
    else (cutScheme rest).map fun parts => (char :: parts.1, parts.2)

def isHostEnd (char : Char) : Bool := char = '/' || char = '?' || char = '#'

def isAllowedReturnOrigin (returnTo : String) (allow : List String) : Bool :=
  match cutScheme returnTo.toList with
  | none => false
  | some (scheme, afterScheme) =>
    let host := afterScheme.takeWhile fun char => !isHostEnd char
    allow.contains (String.ofList (scheme ++ "://".toList ++ host))

def sanitizeReturnTo (allowed : List String) : String :=
  match raw with
  | none => ""
  | some raw =>
    if "/".toList.isPrefixOf raw.toList && !"//".toList.isPrefixOf raw.toList then raw
    else if isAllowedReturnOrigin raw allowed then raw
    else ""

def isAbsoluteUrl : Bool :=
  "http://".toList.isPrefixOf text.toList || "https://".toList.isPrefixOf text.toList

structure OAuthPkceConfig where
  authorizationEndpoint : String
  tokenEndpoint : String
  clientId : String
  clientSecret : Option String
  redirectUri : String
  scope : String
  signingKey : Bytes
  urlPrefix : String
  allowedReturnOrigins : List String
  secureCookie : Bool

/-- The provider's token endpoint, and the JSON library. -/
structure Provider where
  post : String → List (String × String) → Except RpcError Json
  fromSlice : Bytes → Option Json
  text : Json → String

structure TokenSet where
  idOrAccess : String
  refresh : Option String
  expiresIn : Option String

def jsonField (value : Json) (key : String) : Option Json :=
  value.asObject.bind fun entries => entries.lookup key

def tokenSet (text : Json → String) (answer : Json) : Except RpcError TokenSet :=
  match ((jsonField answer "id_token").bind Json.asStr).or
      ((jsonField answer "access_token").bind Json.asStr) with
  | none => .error (.runtimeError "token response missing id_token / access_token")
  | some token =>
    .ok ⟨token, (jsonField answer "refresh_token").bind Json.asStr,
      (jsonField answer "expires_in").map fun value => (value.asStr).getD (text value)⟩

variable (provider : Provider)

def exchangeCodeForToken (config : OAuthPkceConfig) (code verifier : String) :
    Except RpcError TokenSet :=
  match provider.post config.tokenEndpoint
      ([("grant_type", "authorization_code"), ("code", code), ("redirect_uri", config.redirectUri),
        ("client_id", config.clientId), ("code_verifier", verifier)] ++
        (config.clientSecret.map fun secret => ("client_secret", secret)).toList) with
  | .error error => .error error
  | .ok answer => tokenSet provider.text answer

def identityClaims : List String := ["sub", "email", "preferred_username", "name", "picture"]

def decodeJwtPayload (token : String) : Option Json := do
  let payload ← (token.toList.splitOn '.')[1]?
  let bytes ← base64Decode (String.ofList (payload.rdropWhile (· = '=')))
  provider.fromSlice bytes

def isNull : Json → Bool
  | .null => true
  | _ => false

def identityCookieValue (token : String) : Option String := do
  let claims ← decodeJwtPayload provider token
  let _ ← claims.asObject
  let shown := identityClaims.filterMap fun key =>
    ((jsonField claims key).filter fun value => !isNull value).map fun value => (key, value)
  if shown.isEmpty then none else some (base64 (utf8 (provider.text (.object shown))))

def encodeQuery (params : List (String × String)) : String :=
  "&".intercalate (params.map fun param => percentEncode param.1 ++ "=" ++ percentEncode param.2)

section

variable (mac : Mac) (sha256 : Bytes → Bytes) (provider : Provider) (config : OAuthPkceConfig)

def authorizeQuery (external : Bool) (challenge state : String) : String :=
  encodeQuery ([("response_type", "code"), ("client_id", config.clientId),
    ("redirect_uri", config.redirectUri), ("code_challenge", challenge),
    ("code_challenge_method", "S256"), ("state", state), ("scope", config.scope)] ++
    if external then [("access_type", "offline"), ("prompt", "consent")] else [])

def handleStart (returnTo : Option String) (verifierRandom stateRandom : Bytes) (now : UInt64) :
    Option Response :=
  let returnTo := sanitizeReturnTo returnTo config.allowedReturnOrigins
  let pair := generatePkcePair sha256 verifierRandom
  let pkce := newStateCookie mac config.signingKey returnTo pair stateRandom now
  redirectWithCookie
    (config.authorizationEndpoint ++ "?" ++
      authorizeQuery config (isAbsoluteUrl returnTo) pair.challenge pkce.state)
    (buildCookie pkceSessionCookie pkce.cookie (some pkceStateTtl) config.urlPrefix
      config.secureCookie)

structure CallbackParams where
  code : Option String
  state : Option String
  error : Option String
  errorDescription : Option String

def tokenFragment (tokens : TokenSet) : String :=
  encodeQuery ([("token", tokens.idOrAccess)] ++
    (tokens.refresh.map fun token => ("refresh_token", token)).toList ++
    (tokens.expiresIn.map fun seconds => ("expires_in", seconds)).toList)

variable (returnTo : String) (tokens : TokenSet)

def externalLocation : String :=
  returnTo ++ (if returnTo.toList.contains '#' then "&" else "#") ++ tokenFragment tokens

def identityHeaders : List (String × String) :=
  match identityCookieValue provider tokens.idOrAccess with
  | none => []
  | some identity =>
    let cookie := buildJsCookie identityCookieName identity none "" config.secureCookie
    if isHeaderText cookie then [("set-cookie", cookie)] else []

def clearSession : String := buildClearCookie pkceSessionCookie config.urlPrefix config.secureCookie

def finishLogin : Option Response := do
  let clear ← headerValue (clearSession config)
  if isAbsoluteUrl returnTo then do
    let location ← headerValue (externalLocation returnTo tokens)
    some ⟨302, [("set-cookie", clear), noCache, ("location", location)], ""⟩
  else do
    let auth ← headerValue
      (buildCookie authCookieName tokens.idOrAccess none "" config.secureCookie)
    let location ← headerValue (if returnTo = "" then "/" else returnTo)
    some ⟨302, [("set-cookie", clear), noCache, ("set-cookie", auth)] ++
      identityHeaders provider config tokens ++ [("location", location)], ""⟩

/-- A callback whose state was returned, with the session that its cookie holds. -/
def resumeLogin (code state cookie : String) (now : UInt64) : Option Response :=
  match verifyStateCookie mac config.signingKey cookie pkceStateTtl now with
  | .error _ => some (errorPage "Invalid session" "your login session is invalid or has expired")
  | .ok (nonce, returnTo, verifier) =>
    if nonce ≠ state then
      some (errorPage "State mismatch" "your login session does not match the returned state")
    else
      match exchangeCodeForToken provider config code verifier with
      | .error _ =>
        some (errorPage "Token exchange failed"
          "could not complete login with the identity provider")
      | .ok tokens => finishLogin provider config returnTo tokens

def handleCallback (params : CallbackParams) (cookieHeader : Option Bytes) (now : UInt64) :
    Option Response :=
  match params.error, params.code, params.state with
  | some error, _, _ =>
    some (errorPage ("Authorization failed: " ++ error) (params.errorDescription.getD ""))
  | none, none, _ => some (errorPage "Missing authorization code" "")
  | none, some _, none => some (errorPage "Missing state parameter" "")
  | none, some code, some state =>
    match (parseCookies (cookieHeader.bind headerToStr)).get? pkceSessionCookie with
    | none => some (errorPage "Missing session cookie" "")
    | some cookie => resumeLogin mac provider config code state cookie now

end

end VgiRpc.Login
