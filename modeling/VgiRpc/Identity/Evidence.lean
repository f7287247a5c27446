import VgiRpc.Identity.Peers

/-!
# Evidence from the results of providers

Every provider answers with one result: identities of its own, or a status without any.
The results of a request are put together into one set of evidence, in the order in which
they came.  What the set says of a provider is what that provider's result said, whatever
stands before or behind it.
-/

namespace VgiRpc.Identity

open Library List OrderedMap
open Http (AuthContext Primitives isAsciiAlphanumeric)
open Auth (AuthError)
open PeerEvidenceSet (requireUsableProvider rejectStatus rejectAmbiguousProvider)

/-! ## Results -/

/-- What a provider found.  Only an available result has identities, and they are of the
provider that answered. -/
structure PeerIdentityResult where
  provider : String
  status : PeerIdentityStatus
  identities : List PeerIdentity
  coherent : status = .available ↔ identities ≠ []
  owned : ∀ identity ∈ identities, identity.provider = provider

def valueError (message : String) : AuthError := ⟨.valueError message, none, none⟩

def isSafeIdentifier (provider : String) : Bool :=
  provider != "" && provider.toList.all fun char =>
      isAsciiAlphanumeric char || char == '-' || char == '_' || char == '.'

namespace PeerIdentityResult

variable (identity : PeerIdentity)

theorem coherent_available : PeerIdentityStatus.available = .available ↔ [identity] ≠ [] := by simp

theorem owned_available : ∀ found ∈ [identity], found.provider = identity.provider := by simp

theorem coherent_absent {status : PeerIdentityStatus} (absent : status ≠ .available) :
    status = .available ↔ ([] : List PeerIdentity) ≠ [] := by simp [absent]

theorem owned_absent (provider : String) :
    ∀ found ∈ ([] : List PeerIdentity), found.provider = provider := by simp

def available : PeerIdentityResult where
  provider := identity.provider
  status := .available
  identities := [identity]
  coherent := coherent_available identity
  owned := owned_available identity

def withoutIdentity (provider : String) (status : PeerIdentityStatus) :
    Except AuthError PeerIdentityResult :=
  if absent : status = .available then
    .error (valueError "available peer identity result requires an identity")
  else if !isSafeIdentifier provider then
    .error (valueError "peer identity provider must be a non-empty safe identifier")
  else .ok ⟨provider, status, [], coherent_absent absent, owned_absent provider⟩

end PeerIdentityResult

namespace PeerEvidenceSet

def none : PeerEvidenceSet := ⟨[], OrderedMap.empty⟩

def addResult (evidence : PeerEvidenceSet) (result : PeerIdentityResult) :
    Except AuthError PeerEvidenceSet :=
  if evidence.providerStatus.contains result.provider then
    .error (valueError "duplicate peer identity provider")
  else if (result.status == .available) != !result.identities.isEmpty then
    .error (valueError "invalid peer identity provider result")
  else if result.identities.any fun identity => identity.provider != result.provider then
    .error (valueError "peer identity provider mismatch")
  else
    .ok ⟨evidence.identities ++ result.identities,
      evidence.providerStatus.insert result.provider result.status⟩

def addResults (evidence : PeerEvidenceSet) :
    List PeerIdentityResult → Except AuthError PeerEvidenceSet
  | [] => .ok evidence
  | result :: rest => do
      let evidence ← evidence.addResult result
      evidence.addResults rest

def fromResults (results : List PeerIdentityResult) : Except AuthError PeerEvidenceSet :=
  none.addResults results

/-- A result is refused only for the name of an earlier one. -/
theorem addResult_eq (evidence : PeerEvidenceSet) (result : PeerIdentityResult) :
    evidence.addResult result = if result.provider ∈ evidence.providerStatus.keys then
        .error (valueError "duplicate peer identity provider")
      else
        .ok ⟨evidence.identities ++ result.identities,
          evidence.providerStatus.insert result.provider result.status⟩ := by
  have fitting : ((result.status == .available) != !result.identities.isEmpty) = false := by
    have coherent := result.coherent
    cases identities : result.identities with
    | nil => simp_all
    | cons => simp_all
  have owned : (result.identities.any fun identity => identity.provider != result.provider) = false := by
    rw [any_eq_false]
    intro identity member
    simp [result.owned identity member]
  rw [addResult, fitting, owned]
  simp [OrderedMap.contains]

theorem addResults_ok {evidence final : PeerEvidenceSet} {results : List PeerIdentityResult}
    (built : evidence.addResults results = .ok final) :
    final.identities = evidence.identities ++ results.flatMap PeerIdentityResult.identities ∧
      final.providerStatus.entries = evidence.providerStatus.entries ++
        results.map fun result => (result.provider, result.status) := by
  induction results generalizing evidence with
  | nil =>
    cases built
    simp
  | cons result rest ih =>
    obtain ⟨next, added, later⟩ := exceptBind_eq_ok built
    rw [addResult_eq] at added
    split_ifs at added with fresh
    cases added
    obtain ⟨identities, statuses⟩ := ih later
    constructor
    · rw [identities, flatMap_cons, append_assoc]
    · rw [statuses, entries_insert_of_fresh fresh, map_cons, append_assoc]
      rfl

/-- Results make a set of evidence as long as no two of them are of one provider. -/
theorem addResults_isOk {evidence : PeerEvidenceSet} {results : List PeerIdentityResult}
    (distinct : (evidence.providerStatus.keys ++ results.map PeerIdentityResult.provider).Nodup) :
    ∃ final, evidence.addResults results = .ok final := by
  induction results generalizing evidence with
  | nil => exact ⟨evidence, rfl⟩
  | cons result rest ih =>
    have fresh : result.provider ∉ evidence.providerStatus.keys := fun known =>
      (nodup_append.mp distinct).2.2 _ known _ mem_cons_self rfl
    rw [addResults, addResult_eq, if_neg fresh]
    refine ih ?_
    rwa [keys_insert, if_neg fresh, append_assoc]

/-- Results of others are no identities of a provider. -/
theorem filter_others {results : List PeerIdentityResult} {provider : String}
    (absent : provider ∉ results.map PeerIdentityResult.provider) :
    (results.flatMap PeerIdentityResult.identities).filter
      (fun identity => identity.provider == provider) = [] := by
  rw [filter_eq_nil_iff]
  intro identity found same
  obtain ⟨result, among, holds⟩ := mem_flatMap.mp found
  rw [result.owned identity holds, beq_iff_eq] at same
  exact absent (mem_map.mpr ⟨result, among, same⟩)

section

variable {results : List PeerIdentityResult} {evidence : PeerEvidenceSet}
  (built : fromResults results = .ok evidence)

include built

theorem keys_of_built : evidence.providerStatus.keys = results.map PeerIdentityResult.provider := by
  rw [OrderedMap.keys, (addResults_ok built).2]
  simp [PeerEvidenceSet.none, OrderedMap.empty, Function.comp_def]

theorem distinct_of_built : (results.map PeerIdentityResult.provider).Nodup :=
  keys_of_built built ▸ evidence.providerStatus.distinct

theorem identities_of_built : evidence.identities = results.flatMap PeerIdentityResult.identities :=
  (addResults_ok built).1

variable {result : PeerIdentityResult}

theorem status_of_mem (member : result ∈ results) : evidence.status result.provider = result.status := by
  have found : evidence.providerStatus.get? result.provider = some result.status := by
    apply mem_entries_iff.mp
    rw [(addResults_ok built).2]
    exact mem_append_right _ (mem_map.mpr ⟨result, member, rfl⟩)
  rw [status, found]
  rfl

variable {provider : String}

theorem status_of_not_mem (absent : provider ∉ results.map PeerIdentityResult.provider) :
    evidence.status provider = .off := by
  have missing : evidence.providerStatus.get? provider = Option.none := by
    rwa [← Option.not_isSome_iff_eq_none, get?_isSome_iff, keys_of_built built]
  rw [status, missing]
  rfl

theorem forProvider_of_mem (member : result ∈ results) :
    evidence.forProvider result.provider = result.identities := by
  obtain ⟨front, back, rfl⟩ := append_of_mem member
  have distinct := distinct_of_built built
  rw [map_append, map_cons, nodup_middle, nodup_cons, mem_append, not_or] at distinct
  rw [forProvider, identities_of_built built, flatMap_append, flatMap_cons, filter_append,
    filter_append, filter_others distinct.1.1, filter_others distinct.1.2, nil_append, append_nil]
  exact filter_eq_self.mpr fun identity found => by simp [result.owned identity found]

theorem forProvider_of_not_mem (absent : provider ∉ results.map PeerIdentityResult.provider) :
    evidence.forProvider provider = [] := by
  rw [forProvider, identities_of_built built, filter_others absent]

theorem status_of_forProvider (some_identity : evidence.forProvider provider ≠ []) :
    evidence.status provider = .available := by
  by_cases member : provider ∈ results.map PeerIdentityResult.provider
  · obtain ⟨result, among, rfl⟩ := mem_map.mp member
    rw [forProvider_of_mem built among] at some_identity
    rw [status_of_mem built among]
    exact result.coherent.mpr some_identity
  · exact absurd (forProvider_of_not_mem built member) some_identity

end

/-- What a set of evidence says of every provider. -/
structure SameEvidence (first second : PeerEvidenceSet) : Prop where
  status : ∀ provider, first.status provider = second.status provider
  identities : ∀ provider, first.forProvider provider = second.forProvider provider

/-- The order of the results does not matter. -/
theorem sameEvidence_of_perm {first second : List PeerIdentityResult} {one two : PeerEvidenceSet}
    (builtOne : fromResults first = .ok one) (builtTwo : fromResults second = .ok two)
    (perm : first.Perm second) : SameEvidence one two := by
  have both : ∀ provider, one.status provider = two.status provider ∧
        one.forProvider provider = two.forProvider provider := by
    intro provider
    by_cases member : provider ∈ first.map PeerIdentityResult.provider
    · obtain ⟨result, among, rfl⟩ := mem_map.mp member
      have also := perm.mem_iff.mp among
      rw [status_of_mem builtOne among, status_of_mem builtTwo also,
        forProvider_of_mem builtOne among, forProvider_of_mem builtTwo also]
      exact ⟨rfl, rfl⟩
    · have absent : provider ∉ second.map PeerIdentityResult.provider :=
        fun other => member ((perm.map _).mem_iff.mpr other)
      rw [status_of_not_mem builtOne member, status_of_not_mem builtTwo absent,
        forProvider_of_not_mem builtOne member, forProvider_of_not_mem builtTwo absent]
      exact ⟨rfl, rfl⟩
  exact ⟨fun provider => (both provider).1, fun provider => (both provider).2⟩

end PeerEvidenceSet

section

variable (P : Primitives) (codec : Json.Codec) {evidence : PeerEvidenceSet} {provider : String}

def PeerEvidenceSet.Bad (evidence : PeerEvidenceSet) (provider : String) : Prop :=
  evidence.status provider = .invalid ∨ evidence.status provider = .untrustedProxy ∨
    1 < (evidence.verifiedSubjects provider).length

def PeerEvidenceSet.Down (evidence : PeerEvidenceSet) (provider : String) : Prop :=
  evidence.status provider = .unavailable ∨ evidence.status provider = .permissionDenied

/-- A provider's one verified stable subject. -/
def PeerEvidenceSet.Names (evidence : PeerEvidenceSet) (provider : String) (identity : PeerIdentity) :
    Prop :=
  evidence.verifiedSubjects provider = [identity]

variable {identity : PeerIdentity}

theorem uniqueVerifiedSubject_ok :
    evidence.uniqueVerifiedSubject provider = .ok identity ↔ evidence.Names provider identity := by
  unfold PeerEvidenceSet.uniqueVerifiedSubject PeerEvidenceSet.Names
  cases evidence.verifiedSubjects provider with
  | nil => simp
  | cons first rest => cases rest <;> simp

theorem requireUsableProvider_ok (usable : evidence.requireUsableProvider provider = .ok identity) :
    evidence.Names provider identity := by
  obtain ⟨-, -, unique⟩ := exceptBind_eq_ok usable
  exact uniqueVerifiedSubject_ok.mp unique

variable {auth : AuthContext}

section

variable (coherent : ∀ provider, evidence.forProvider provider ≠ [] → evidence.status provider = .available)
include coherent

theorem rejectBadEvidence_cons (provider : String) (rest : List String) :
    (evidence.Bad provider ∧ ∃ error, rejectBadEvidence evidence (provider :: rest) = .error error ∧
        error.isAuthUnavailable = false) ∨
      (¬ evidence.Bad provider ∧
        rejectBadEvidence evidence (provider :: rest) = rejectBadEvidence evidence rest) := by
  have verified : 1 < (evidence.verifiedSubjects provider).length →
      evidence.status provider = .available := by
    intro many
    apply coherent
    intro empty
    simp [PeerEvidenceSet.verifiedSubjects, empty] at many
  unfold PeerEvidenceSet.Bad
  rw [rejectBadEvidence]
  cases status : evidence.status provider with
  | invalid =>
    rw [requireUsableProvider, rejectStatus, status]
    exact .inl ⟨.inl rfl, _, rfl, AuthError.isAuthUnavailable_authFailure _ _⟩
  | untrustedProxy =>
    rw [requireUsableProvider, rejectStatus, status]
    exact .inl ⟨.inr (.inl rfl), _, rfl, AuthError.isAuthUnavailable_authFailure _ _⟩
  | available =>
    by_cases many : 1 < (evidence.verifiedSubjects provider).length
    · rw [rejectAmbiguousProvider, if_pos many]
      exact .inl ⟨.inr (.inr many), _, rfl, AuthError.isAuthUnavailable_authFailure _ _⟩
    · rw [rejectAmbiguousProvider, if_neg many]
      exact .inr ⟨by simp [many], rfl⟩
  | _ =>
    refine .inr ⟨?_, rfl⟩
    rintro (impossible | impossible | many)
    · cases impossible
    · cases impossible
    · rw [verified many] at status
      cases status

variable {providers : List String}

/-- Bad evidence at any provider of the list is a refusal, and never an outage. -/
theorem rejectBadEvidence_of_bad (member : provider ∈ providers) (bad : evidence.Bad provider) :
    ∃ error, rejectBadEvidence evidence providers = .error error ∧
      error.isAuthUnavailable = false := by
  induction providers with
  | nil => cases member
  | cons first rest ih =>
    rcases rejectBadEvidence_cons coherent first rest with
      ⟨-, refused⟩ | ⟨good, passed⟩
    · exact refused
    · rw [passed]
      rcases mem_cons.mp member with rfl | later
      · exact absurd bad good
      · exact ih later

theorem rejectBadEvidence_of_good (good : ∀ provider ∈ providers, ¬ evidence.Bad provider) :
    rejectBadEvidence evidence providers = .ok () := by
  induction providers with
  | nil => rfl
  | cons first rest ih =>
    rcases rejectBadEvidence_cons coherent first rest with ⟨bad, -⟩ | ⟨-, passed⟩
    · exact absurd bad (good first (mem_cons_self ..))
    · rw [passed]
      exact ih (forall_mem_cons.mp good).2

end

structure NoDowngrade (evidence : PeerEvidenceSet) (providers : List String) (existing : AuthContext)
    (outcome : Except AuthError AuthContext) : Prop where
  identity : ∀ auth, outcome = .ok auth → (existing.authenticated = true ∧ auth = existing) ∨
    ∃ provider ∈ providers, ∃ identity, evidence.Names provider identity ∧
      auth.authenticated = true ∧ auth.domain = provider ∧
      identity.canonicalPrincipal = .ok auth.principal
  refusal : ∀ provider ∈ providers, evidence.Bad provider →
    ∃ error, outcome = .error error ∧ error.isAuthUnavailable = false
  outage : existing.authenticated = false →
    (∀ provider ∈ providers, ¬ evidence.Bad provider ∧ ∀ identity, ¬ evidence.Names provider identity) →
    (∃ provider ∈ providers, evidence.Down provider) →
    ∃ error, outcome = .error error ∧ error.isAuthUnavailable = true

/-- Every provider of a list supplied one subject, and the linker took all of them. -/
def Supplied (evidence : PeerEvidenceSet) (providers : List String) (linker : PeerIdentityLinker)
    (existing : AuthContext) : Prop :=
  ∃ identities : List (String × PeerIdentity), identities.map Prod.fst = providers ∧
    (∀ entry ∈ identities, evidence.Names entry.1 entry.2) ∧
    linker existing (OrderedMap.ofEntries identities) = .ok ()

variable {existing : AuthContext}

/-- With nothing else to go by, a provider that is down is an outage. -/
theorem anyOfPeerIdentities_of_down (passed : rejectBadEvidence evidence providers = .ok ())
    (anonymous : existing.authenticated = false)
    (nameless : ∀ provider ∈ providers, ∀ identity, ¬ evidence.Names provider identity)
    (member : provider ∈ providers) (down : evidence.Down provider) :
    anyOfPeerIdentities P codec providers evidence existing =
      .error (.authUnavailable "no usable authentication factor; a peer provider is unavailable") := by
  have unfound : (providers.find? fun provider =>
      (evidence.uniqueVerifiedSubject provider).isOk) = none := by
    rw [find?_eq_none]
    intro other among usable
    cases subject : evidence.uniqueVerifiedSubject other with
    | error error =>
      rw [subject] at usable
      cases usable
    | ok identity => exact nameless other among identity (uniqueVerifiedSubject_ok.mp subject)
  have lacking : (providers.any fun provider => decide (evidence.status provider = .unavailable) ||
      decide (evidence.status provider = .permissionDenied)) = true := by
    rw [any_eq_true]
    refine ⟨provider, member, ?_⟩
    simpa [PeerEvidenceSet.Down] using down
  rw [anyOfPeerIdentities, passed]
  simp only [bind, Except.bind, anonymous, unfound]
  rw [if_pos lacking]
  rfl

theorem mapM_requireUsableProvider {identities : List (String × PeerIdentity)}
    (ran : (providers.mapM fun provider => do
      let identity ← evidence.requireUsableProvider provider
      pure (provider, identity)) = .ok identities) :
    identities.map Prod.fst = providers ∧ ∀ entry ∈ identities, evidence.Names entry.1 entry.2 := by
  induction providers generalizing identities with
  | nil =>
    cases ran
    simp
  | cons provider rest ih =>
    rw [mapM_cons] at ran
    obtain ⟨entry, first, others⟩ := exceptBind_eq_ok ran
    obtain ⟨entries, later, made⟩ := exceptBind_eq_ok others
    obtain ⟨identity, usable, paired⟩ := exceptBind_eq_ok first
    cases made
    cases paired
    obtain ⟨names, all⟩ := ih later
    exact ⟨by rw [map_cons, names], forall_mem_cons.mpr ⟨requireUsableProvider_ok usable, all⟩⟩

theorem allOfPeerIdentities_ok {selected : String} {linker : PeerIdentityLinker}
    (accepted : allOfPeerIdentities P codec providers selected linker evidence existing = .ok auth) :
    existing.authenticated = true ∧ Supplied evidence providers linker existing := by
  unfold allOfPeerIdentities at accepted
  split_ifs at accepted with authenticated
  obtain ⟨identities, collected, rest⟩ := exceptBind_eq_ok accepted
  obtain ⟨⟨⟩, linked, -⟩ := exceptBind_eq_ok rest
  obtain ⟨names, all⟩ := mapM_requireUsableProvider collected
  exact ⟨by simpa using authenticated, identities, names, all, linked⟩

/-- Over the evidence of any results, any-of takes nobody's word but a usable one's, and
all-of takes everybody's. -/
theorem combining_policies_never_downgrade {results : List PeerIdentityResult}
    (built : PeerEvidenceSet.fromResults results = .ok evidence) (providers : List String)
    (existing : AuthContext) :
    NoDowngrade evidence providers existing
        (anyOfPeerIdentities P codec providers evidence existing) ∧
      ∀ selected linker auth,
        allOfPeerIdentities P codec providers selected linker evidence existing = .ok auth →
        existing.authenticated = true ∧ Supplied evidence providers linker existing := by
  have coherent : ∀ provider, evidence.forProvider provider ≠ [] →
      evidence.status provider = .available :=
    fun provider => PeerEvidenceSet.status_of_forProvider built
  refine ⟨⟨?_, ?_, ?_⟩, fun selected linker auth => allOfPeerIdentities_ok P codec⟩
  · intro auth accepted
    obtain ⟨-, -, rest⟩ := exceptBind_eq_ok accepted
    split at rest
    · next authenticated =>
      cases rest
      exact .inl ⟨authenticated, rfl⟩
    · split at rest
      · next provider found =>
        obtain ⟨identity, usable, rest⟩ := exceptBind_eq_ok rest
        obtain ⟨principal, named, result⟩ := exceptBind_eq_ok rest
        cases result
        exact .inr ⟨provider, mem_of_find?_eq_some found, identity, requireUsableProvider_ok usable,
          rfl, rfl, named⟩
      · split at rest <;> cases rest
  · intro provider member bad
    obtain ⟨error, refused, rejected⟩ := rejectBadEvidence_of_bad coherent member bad
    refine ⟨error, ?_, rejected⟩
    rw [anyOfPeerIdentities, refused]
    rfl
  · rintro anonymous idle ⟨provider, member, down⟩
    have passed := rejectBadEvidence_of_good coherent fun other among => (idle other among).1
    exact ⟨_, anyOfPeerIdentities_of_down P codec passed anonymous
      (fun other among => (idle other among).2) member down, rfl⟩

end

namespace Sample

def identityOf (provider subject : String) : PeerIdentity where
  provider := provider
  evidenceSource := "header"
  assurance := .configuredProxy
  issuer := "corp"
  transport := "http"
  subjectKind := .user
  subjectKey := some subject
  subjectStability := .stable
  subjectVerified := true
  attributes := .object []
  capabilities := .object []
  capabilitiesVerified := false

def down : PeerIdentityResult :=
  ⟨"mesh", .unavailable, [], PeerIdentityResult.coherent_absent (by decide),
    PeerIdentityResult.owned_absent "mesh"⟩

def results : List PeerIdentityResult := [.available (identityOf "proxy" "alice"), down]

def evidence : PeerEvidenceSet :=
  ⟨[identityOf "proxy" "alice"],
    OrderedMap.ofEntries [("proxy", .available), ("mesh", .unavailable)]⟩

theorem built : PeerEvidenceSet.fromResults results = .ok evidence := rfl

end Sample

open Sample

/-- A provider that is down beside one that names the caller does not matter, and alone it
is an outage. -/
theorem no_downgrade_with_provider_down : NoDowngrade evidence ["proxy", "mesh"] Auth.anonymous
        (anyOfPeerIdentities Http.Sample.primitives Json.unaryCodec ["proxy", "mesh"] evidence
          Auth.anonymous) ∧
      ∃ error, anyOfPeerIdentities Http.Sample.primitives Json.unaryCodec ["mesh"] evidence
        Auth.anonymous = .error error ∧ error.isAuthUnavailable = true := by
  refine ⟨(combining_policies_never_downgrade Http.Sample.primitives Json.unaryCodec built
    ["proxy", "mesh"] Auth.anonymous).1, ?_⟩
  refine (combining_policies_never_downgrade Http.Sample.primitives Json.unaryCodec built
    ["mesh"] Auth.anonymous).1.outage rfl ?_ ⟨"mesh", by simp, .inl rfl⟩
  intro provider member
  obtain rfl := mem_singleton.mp member
  have none_verified : evidence.verifiedSubjects "mesh" = [] := rfl
  have status : evidence.status "mesh" = .unavailable := rfl
  constructor
  · rintro (invalid | untrusted | many)
    · rw [status] at invalid
      cases invalid
    · rw [status] at untrusted
      cases untrusted
    · rw [none_verified] at many
      cases many
  · intro identity names
    rw [PeerEvidenceSet.Names, none_verified] at names
    cases names

end VgiRpc.Identity
