import VgiRpc.Auth.Proof
import VgiRpc.Http.Identity
import VgiRpc.Library.Base64Url

/-!
# What a proof is bound to

A secret is derived from two identifiers joined by a NUL byte, and the MAC of a proof is over
four parts joined so.  The verifier takes no key id, time or nonce with a NUL in it and a gate
has an origin without one, so it can be told for what a proof was minted, although the minting
side does not look at the nonce.
-/

namespace VgiRpc.Auth

open Library List
open Library.ByteStream (Bytes)
open Http (utf8 utf8_append utf8_nul utf8_injective)
open String (ofList toList toList_inj)

def deriveLabel : Bytes := utf8 "vgi.proxy.proof.v1/"

def derivationMessage (proxyId originId : String) : Bytes :=
  deriveLabel ++ utf8 proxyId ++ 0 :: utf8 originId

variable (hmac : Bytes → Bytes → Bytes)

def deriveProofSecret (baseKey : Bytes) (proxyId originId : String) : Except RpcError Bytes :=
  if !isOrigin proxyId.toList || !isOrigin originId.toList then
    .error (.valueError "invalid proxy_id or origin_id")
  else .ok (hmac baseKey (derivationMessage proxyId originId))

/-- What a proof is minted from. -/
structure Mint where
  secret : Bytes
  kid : String
  originId : String
  now : Int
  nonce : String

def Mint.mac (mint : Mint) : Bytes :=
  hmac mint.secret (canonicalString mint.kid (toString mint.now) mint.nonce mint.originId)

def mintProof (mint : Mint) : Except RpcError String :=
  if !isKid mint.kid.toList || !isOrigin mint.originId.toList then
    .error (.valueError "invalid kid or origin_id")
  else
    .ok (ofList (['.'].intercalate [proofVersion, mint.kid.toList,
      (toString mint.now).toList, mint.nonce.toList, Base64Url.encode (mint.mac hmac)]))

/-- What the verifier at an origin computes the MAC of. -/
def ProofFields.message (fields : ProofFields) (originId : String) : Bytes :=
  canonicalString (ofList fields.kid) (ofList fields.ts) (ofList fields.nonce) originId

variable {text : List Char}

theorem nul_notMem {kept : Char → Bool} (all : text.all kept = true) (nul : kept '\x00' = false) :
    '\x00' ∉ text := by
  intro member
  rw [all_eq_true.mp all _ member] at nul
  cases nul

theorem isOrigin_nul (origin : isOrigin text = true) : '\x00' ∉ text := by
  unfold isOrigin at origin
  exact nul_notMem (Bool.and_eq_true_iff.mp origin).2 (by decide)

variable {hmac}

theorem deriveProofSecret_ok {baseKey secret : Bytes} {proxyId originId : String}
    (derived : deriveProofSecret hmac baseKey proxyId originId = .ok secret) :
    '\x00' ∉ proxyId.toList := by
  unfold deriveProofSecret at derived
  split_ifs at derived with valid
  exact isOrigin_nul (by simp_all)

theorem derivationMessage_inj {proxyId originId otherProxy otherOrigin : String}
    (plain : '\x00' ∉ proxyId.toList) (also : '\x00' ∉ otherProxy.toList)
    (same : derivationMessage proxyId originId = derivationMessage otherProxy otherOrigin) :
    proxyId = otherProxy ∧ originId = otherOrigin := by
  simp only [derivationMessage, append_assoc, append_cancel_left_eq, utf8_nul,
    ← utf8_append] at same
  have texts := congrArg toList (utf8_injective same)
  simp only [String.toList_append] at texts
  obtain ⟨proxy, origin⟩ := append_cons_inj plain also texts
  exact ⟨toList_inj.mp proxy, toList_inj.mp origin⟩

section

variable {fields others : ProofFields} {token other originId otherOrigin : String}

theorem parseProof_nul (parsed : parseProof token = some fields) :
    '\x00' ∉ fields.kid ∧ '\x00' ∉ fields.ts ∧ '\x00' ∉ fields.nonce := by
  unfold parseProof at parsed
  split_ifs at parsed
  split at parsed
  · split_ifs at parsed with checked
    cases parsed
    simp only [isKid, isTs, isNonce, Bool.and_eq_true] at checked
    obtain ⟨⟨⟨⟨-, _, kid⟩, _, ts⟩, _, nonce⟩, -⟩ := checked
    exact ⟨nul_notMem kid (by decide), nul_notMem ts (by decide), nul_notMem nonce (by decide)⟩
  · cases parsed

variable {kid ts nonce : String}

theorem joined_eq_of_message_eq
    (same : fields.message originId = canonicalString kid ts nonce otherOrigin) :
    ['\x00'].intercalate [fields.kid, fields.ts, fields.nonce, originId.toList] =
      ['\x00'].intercalate [kid.toList, ts.toList, nonce.toList, otherOrigin.toList] := by
  simp only [ProofFields.message, canonicalString, append_cancel_left_eq, flatMap_cons,
    flatMap_nil, append_nil, utf8_nul, ← utf8_append] at same
  simpa [intercalate_cons_cons] using congrArg toList (utf8_injective same)

theorem message_inj (parsed : parseProof token = some fields) (also : parseProof other = some
    others) (same : fields.message originId = others.message otherOrigin) :
    fields.kid = others.kid ∧ fields.ts = others.ts ∧ fields.nonce = others.nonce ∧
      originId = otherOrigin := by
  have joined := joined_eq_of_message_eq same
  simp only [intercalate_cons_cons, intercalate_singleton, String.toList_ofList, append_assoc,
    singleton_append] at joined
  obtain ⟨kid, ts, nonce⟩ := parseProof_nul parsed
  obtain ⟨otherKid, otherTs, otherNonce⟩ := parseProof_nul also
  obtain ⟨sameKid, joined⟩ := append_cons_inj kid otherKid joined
  obtain ⟨sameTs, joined⟩ := append_cons_inj ts otherTs joined
  obtain ⟨sameNonce, joined⟩ := append_cons_inj nonce otherNonce joined
  exact ⟨sameKid, sameTs, sameNonce, toList_inj.mp joined⟩

/-- With no NUL in any part on the verifier's side, nothing need be known of the other. -/
theorem message_eq_canonicalString (parsed : parseProof token = some fields)
    (origin : isOrigin originId.toList = true)
    (same : fields.message originId = canonicalString kid ts nonce otherOrigin) :
    kid.toList = fields.kid ∧ ts.toList = fields.ts ∧ nonce.toList = fields.nonce ∧
      otherOrigin = originId := by
  have separable : Separable '\x00' [fields.kid, fields.ts, fields.nonce, originId.toList] := by
    simpa [Separable, isOrigin_nul origin] using parseProof_nul parsed
  have parts := intercalate_injective (by rfl) separable (joined_eq_of_message_eq same)
  simpa [toList_inj, eq_comm] using parts

end

variable {decodeMac : String → Option Bytes}

theorem verifyProof_accepted {config : ProofConfig} {token : String} {now : Int}
    {cache : Option NonceCache}
    (accepted : (verifyProof hmac decodeMac config token now cache).1.isAccepted = true) :
    ∃ fields secret, parseProof token = some fields ∧ decodeMac (ofList fields.mac) =
        some (hmac secret (fields.message config.originId)) := by
  unfold verifyProof at accepted
  split at accepted
  · cases accepted
  next fields parsed =>
  split at accepted
  · cases accepted
  next label passed =>
  obtain ⟨secret, _, -, -, -, -, decoded⟩ := (checkProof_eq_ok hmac decodeMac).mp passed
  exact ⟨fields, secret, parsed, decoded⟩

variable (hmac) (decodeMac)

/-- What a MAC is of tells the four parts, and what a secret is derived from the two identifiers.
So, as no two messages share a MAC, a token accepted at an origin a gate can have carries the MAC
of no mint but for its own key id, time text and nonce and that origin, and no other origin
accepts it. -/
theorem proof_bound :
    (∀ (token other : String) (fields others : ProofFields) (originId otherOrigin : String),
      parseProof token = some fields → parseProof other = some others →
      fields.message originId = others.message otherOrigin →
      fields.kid = others.kid ∧ fields.ts = others.ts ∧ fields.nonce = others.nonce ∧
        originId = otherOrigin) ∧
    (∀ (baseKey : Bytes) (proxyId originId otherProxy otherOrigin : String) (secret also : Bytes),
      deriveProofSecret hmac baseKey proxyId originId = .ok secret →
      deriveProofSecret hmac baseKey otherProxy otherOrigin = .ok also →
      derivationMessage proxyId originId = derivationMessage otherProxy otherOrigin →
      proxyId = otherProxy ∧ originId = otherOrigin) ∧
    ((∀ key other message again, hmac key message = hmac other again → message = again) →
      ∀ (config : ProofConfig) (token : String) (now : Int) (cache : Option NonceCache),
      (verifyProof hmac decodeMac config token now cache).1.isAccepted = true →
      ∃ fields, parseProof token = some fields ∧
        (isOrigin config.originId.toList = true → ∀ (mint : Mint) (minted : String),
          mintProof hmac mint = .ok minted → decodeMac (ofList fields.mac) = some (mint.mac hmac) →
          mint.kid.toList = fields.kid ∧ (toString mint.now).toList = fields.ts ∧
            mint.nonce.toList = fields.nonce ∧ mint.originId = config.originId) ∧
        ∀ (other : ProofConfig) (later : Int) (cache : Option NonceCache),
          (verifyProof hmac decodeMac other token later cache).1.isAccepted = true →
          other.originId = config.originId) := by
  refine ⟨fun _ _ _ _ _ _ => message_inj, ?_, ?_⟩
  · intro _ _ _ _ _ _ _ derived also
    exact derivationMessage_inj (deriveProofSecret_ok derived) (deriveProofSecret_ok also)
  · intro distinct config token now cache accepted
    obtain ⟨fields, secret, parsed, decoded⟩ := verifyProof_accepted accepted
    refine ⟨fields, parsed, ?_, ?_⟩
    · intro origin mint minted _ made
      rw [decoded] at made
      exact message_eq_canonicalString parsed origin (distinct _ _ _ _ (Option.some.inj made))
    · intro other later cache also
      obtain ⟨_, _, again, alsoDecoded⟩ := verifyProof_accepted also
      cases parsed.symm.trans again
      rw [decoded] at alsoDecoded
      exact (message_inj parsed parsed (distinct _ _ _ _ (Option.some.inj alsoDecoded))).2.2.2.symm

end VgiRpc.Auth
