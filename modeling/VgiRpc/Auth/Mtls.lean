import VgiRpc.Auth.Xfcc
import VgiRpc.Library.Scanner

/-!
# Authentication with a client certificate

The authenticators for mutual TLS have a reader of their own for the header of the proxy.  It
divides the header at the commas outside quotes and brackets, takes the first hop that is not
blank, and divides it at the semicolons outside quotes.  A quote is a quote wherever it stands:
neither division knows of escapes.  The last field of a key counts.
-/

namespace VgiRpc.Auth.Mtls

open Library
open Http (AuthContext)

/-- A key in lower case leads to its value. -/
structure XfccElement where
  fields : OrderedMap String String
  deriving DecidableEq

namespace XfccElement

variable (element : XfccElement)

def hash : Option String := element.fields.get? "hash"
def subject : Option String := element.fields.get? "subject"
def uri : Option String := element.fields.get? "uri"
def dns : Option String := element.fields.get? "dns"

end XfccElement

/-- Whether quotes are open, and how many brackets are. -/
abbrev Nesting : Type := Bool × Nat

def bracket (depth : Nat) (char : Char) : Nat :=
  if char = '(' || char = '[' then depth + 1
  else if char = ')' || char = ']' then depth - 1
  else depth

def topLevel : Scanner Nesting Char where
  step nesting char :=
    if char = '"' then (!nesting.1, nesting.2)
    else (nesting.1, if nesting.1 then nesting.2 else bracket nesting.2 char)
  cuts nesting char := char = ',' && !nesting.1 && nesting.2 = 0

def keyValues : Scanner Bool Char where
  step quoted char := if char = '"' then !quoted else quoted
  cuts quoted char := char = ';' && !quoted

/-- The parts without the blanks around them, and none that is blank. -/
def trimmed (parts : List (List Char)) : List (List Char) :=
  (parts.map trim).filter fun part => !part.isEmpty

def splitTopLevel (text : List Char) : List (List Char) :=
  trimmed (topLevel.split (false, 0) [] text)

variable (hop : List Char)

def splitKv : List (List Char) := trimmed (keyValues.split false [] hop)

def stripQuotes (text : List Char) : List Char :=
  match text with
  | '"' :: rest => if rest.getLast? = some '"' then rest.dropLast else '"' :: rest
  | _ => text

/-- A part without an equals sign, or without a key, is passed over. -/
def readPart (part : List Char) : Option (String × String) :=
  (splitOnce part).bind fun pair =>
    let key := (trim pair.1).map Char.toLower
    if key.isEmpty then none
    else some (String.ofList key, String.ofList (stripQuotes (trim pair.2)))

/-- The fields in the order in which they are put into the element. -/
def readFields : List (String × String) := (splitKv hop).filterMap readPart

def parseKvList : Option XfccElement :=
  let fields := OrderedMap.ofEntries (readFields hop)
  if fields.isEmpty then none else some ⟨fields⟩

def firstHop (header : String) : Option (List Char) := (splitTopLevel header.toList).head?

def parseXfcc (header : String) : Option XfccElement := (firstHop header).bind parseKvList

def headerName : String := "x-forwarded-client-cert"

/-- Whoever is not accepted is anonymous. -/
def mtlsAuthenticateXfcc (handler : XfccElement → Option AuthContext) : Authenticate := fun request =>
  .ok ((((request.header headerName).bind parseXfcc).bind handler).getD anonymous)

variable (allow : List String)

/-- The principal of an allowed fingerprint is the subject, if there is one. -/
def acceptFingerprint (element : XfccElement) : Option AuthContext :=
  element.hash.bind fun fingerprint =>
    let lower := String.ofList (fingerprint.toList.map Char.toLower)
    if allow.contains lower then
      some ⟨true, "mtls", element.subject.getD ("sha256:" ++ lower), element.fields⟩
    else none

def mtlsAuthenticateFingerprint : Authenticate :=
  mtlsAuthenticateXfcc (acceptFingerprint allow)

def mtlsAuthenticateSubject (accepts : String → Option AuthContext) : Authenticate :=
  mtlsAuthenticateXfcc fun element => element.subject.bind accepts

def mtlsAuthenticatePem {PemCert : Type} (parsePemCert : String → Option PemCert)
    (handler : PemCert → Option AuthContext) : Authenticate :=
  mtlsAuthenticateXfcc fun element => ((element.fields.get? "cert").bind parsePemCert).bind handler

end VgiRpc.Auth.Mtls
