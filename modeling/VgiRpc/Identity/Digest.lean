import VgiRpc.Http.Identity
import VgiRpc.Identity.Evidence
import VgiRpc.Library.Framed

/-!
# What an evidence binding binds

The binding of evidence is a digest over framed fields: for every provider its name, its
status and the rows of its identities, and behind all of them the application's identity
if there is one.  Providers and rows are sorted first.  Equal bytes are hashed exactly for
the same providers with the same status and the same identities, and the same application.
-/

namespace VgiRpc.Identity

open Library List
open Library.ByteStream (Bytes)
open Library.Framed (Block frame)
open Http (AuthContext Primitives utf8)
open PeerEvidenceSet (fromResults sameEvidence_of_perm)
open PeerIdentityStatus (asStr)

section

variable (codec : Json.Codec)

variable (evidence : PeerEvidenceSet) (provider : String)

def boundRows : List (List String) :=
  ((evidence.forProvider provider).map (boundFields codec)).insertionSort (· ≤ ·)

theorem mem_boundRows {evidence : PeerEvidenceSet} {provider : String} {row : List String}
    (member : row ∈ boundRows codec evidence provider) :
    ∃ identity ∈ evidence.forProvider provider, boundFields codec identity = row := by
  rw [boundRows, mem_insertionSort] at member
  exact mem_map.mp member

theorem boundRows_wide : ∀ row ∈ boundRows codec evidence provider, row.length = 14 := by
  intro row member
  obtain ⟨identity, -, rfl⟩ := mem_boundRows codec member
  rfl

theorem boundRows_keyed : ∀ row ∈ boundRows codec evidence provider, row.head? = some provider := by
  intro row member
  obtain ⟨identity, found, rfl⟩ := mem_boundRows codec member
  have own : identity.provider = provider := beq_iff_eq.mp (mem_filter.mp found).2
  rw [boundFields, head?_cons, own]

def providerBlock : Block String 14 where
  key := provider
  mark := (evidence.status provider).asStr
  rows := boundRows codec evidence provider
  wide := boundRows_wide codec evidence provider
  keyed := boundRows_keyed codec evidence provider

variable (providers : List String)

def boundProviders : List String := (providers.insertionSort (· ≤ ·)).dedup

variable (auth : Option AuthContext)

def applicationFields : List String :=
  match auth with
  | none => []
  | some auth => ["application_auth", auth.domain, auth.principal]

def bindingFields : List String :=
  ((boundProviders providers).map (providerBlock codec evidence)).flatMap Block.fields ++
    applicationFields auth

def bindingPreimage : Bytes :=
  (bindingFields codec evidence providers auth).flatMap hashField

theorem bindingDigest_eq (P : Primitives) (evidence : PeerEvidenceSet) (providers : List String)
    (auth : Option AuthContext) :
    bindingDigest P codec evidence providers auth =
      String.ofList ((P.sha256 (bindingPreimage codec evidence providers auth)).flatMap
        Http.hexByte) := by
  have blocks : ∀ names : List String,
      ((names.map (providerBlock codec evidence)).flatMap Block.fields).flatMap hashField =
        names.flatMap fun provider => hashField provider ++
          hashField (evidence.status provider).asStr ++
          (boundRows codec evidence provider).flatten.flatMap hashField := by
    intro names
    rw [flatMap_map, flatMap_assoc]
    simp [Block.fields, providerBlock, flatMap_cons]
  have trailer : (applicationFields auth).flatMap hashField = match auth with
      | none => []
      | some auth =>
        hashField "application_auth" ++ hashField auth.domain ++ hashField auth.principal := by
    cases auth <;> simp [applicationFields]
  rw [bindingPreimage, bindingFields, flatMap_append, blocks, trailer]
  rfl

/-- Every field is a text of a machine. -/
def Fits : Prop :=
  ∀ field ∈ bindingFields codec evidence providers auth, (utf8 field).length < 2 ^ 64

/-- The same providers, each with the same status and the same identities in any order, and
the same application. -/
structure SameBinding (first second : PeerEvidenceSet) (providersOne providersTwo : List String)
    (authOne authTwo : Option AuthContext) : Prop where
  providers : ∀ provider, provider ∈ providersOne ↔ provider ∈ providersTwo
  status : ∀ provider ∈ providersOne, first.status provider = second.status provider
  identities : ∀ provider ∈ providersOne,
    ((first.forProvider provider).map (boundFields codec)).Perm
      ((second.forProvider provider).map (boundFields codec))
  application : authOne.map (fun auth => (auth.domain, auth.principal)) =
    authTwo.map fun auth => (auth.domain, auth.principal)

end

theorem asStr_injective : Function.Injective asStr := by
  intro first second same
  cases first <;> cases second <;> first | rfl | simp [asStr] at same

theorem mem_boundProviders {providers : List String} {provider : String} :
    provider ∈ boundProviders providers ↔ provider ∈ providers := by
  rw [boundProviders, mem_dedup, mem_insertionSort]

theorem boundProviders_eq_iff {first second : List String} :
    boundProviders first = boundProviders second ↔ ∀ provider, provider ∈ first ↔ provider ∈ second := by
  constructor
  · intro same provider
    rw [← mem_boundProviders, same, mem_boundProviders]
  · intro same
    have sorted : ∀ names : List String, (boundProviders names).Pairwise (· ≤ ·) := fun names =>
      (pairwise_insertionSort (· ≤ ·) names).sublist (dedup_sublist _)
    refine List.Perm.eq_of_pairwise (fun _ _ _ _ => le_antisymm) (sorted first) (sorted second) ?_
    refine (perm_ext_iff_of_nodup (nodup_dedup _) (nodup_dedup _)).mpr ?_
    intro provider
    exact mem_boundProviders.trans ((same provider).trans mem_boundProviders.symm)

section

variable {codec : Json.Codec} {first second : PeerEvidenceSet}
  {providersOne providersTwo : List String} {authOne authTwo : Option AuthContext}
  {provider : String}

theorem boundRows_eq_iff : boundRows codec first provider = boundRows codec second provider ↔
      ((first.forProvider provider).map (boundFields codec)).Perm
        ((second.forProvider provider).map (boundFields codec)) := by
  constructor
  · intro same
    have perm := perm_insertionSort (· ≤ ·) ((second.forProvider provider).map (boundFields codec))
    rw [← boundRows, ← same] at perm
    exact (perm_insertionSort (· ≤ ·) _).symm.trans perm
  · intro perm
    refine List.Perm.eq_of_pairwise (fun _ _ _ _ => le_antisymm)
      (pairwise_insertionSort (· ≤ ·) _) (pairwise_insertionSort (· ≤ ·) _) ?_
    exact ((perm_insertionSort (· ≤ ·) _).trans perm).trans (perm_insertionSort (· ≤ ·) _).symm

theorem providerBlock_eq_iff :
    providerBlock codec first provider = providerBlock codec second provider ↔
      first.status provider = second.status provider ∧
        ((first.forProvider provider).map (boundFields codec)).Perm
          ((second.forProvider provider).map (boundFields codec)) := by
  constructor
  · intro same
    exact ⟨asStr_injective (congrArg Block.mark same), boundRows_eq_iff.mp (congrArg Block.rows same)⟩
  · rintro ⟨status, perm⟩
    exact Block.ext rfl (congrArg asStr status) (boundRows_eq_iff.mpr perm)

theorem map_providerBlock_keys (evidence : PeerEvidenceSet) (names : List String) :
    (names.map (providerBlock codec evidence)).map Block.key = names := by
  rw [map_map]
  exact map_id names

/-- The blocks are those of the same providers with the same evidence. -/
theorem map_providerBlock_eq_iff : (boundProviders providersOne).map (providerBlock codec first) =
        (boundProviders providersTwo).map (providerBlock codec second) ↔
      (∀ provider, provider ∈ providersOne ↔ provider ∈ providersTwo) ∧
        ∀ provider ∈ providersOne, first.status provider = second.status provider ∧
          ((first.forProvider provider).map (boundFields codec)).Perm
            ((second.forProvider provider).map (boundFields codec)) := by
  constructor
  · intro same
    have names := congrArg (List.map Block.key) same
    rw [map_providerBlock_keys, map_providerBlock_keys] at names
    rw [← names, map_inj_left] at same
    refine ⟨boundProviders_eq_iff.mp names, ?_⟩
    intro provider member
    exact providerBlock_eq_iff.mp (same provider (mem_boundProviders.mpr member))
  · rintro ⟨names, each⟩
    rw [← boundProviders_eq_iff.mpr names, map_inj_left]
    intro provider member
    exact providerBlock_eq_iff.mpr (each provider (mem_boundProviders.mp member))

theorem applicationFields_eq_iff : applicationFields authOne = applicationFields authTwo ↔
      authOne.map (fun auth => (auth.domain, auth.principal)) =
        authTwo.map fun auth => (auth.domain, auth.principal) := by
  cases authOne <;> cases authTwo <;> simp [applicationFields]

theorem applicationFields_length (auth : Option AuthContext) :
    (applicationFields auth).length = 0 ∨ (applicationFields auth).length = 3 := by
  cases auth with
  | none => exact .inl rfl
  | some auth => exact .inr rfl

theorem bindingFields_of_preimage (fitsOne : Fits codec first providersOne authOne) (fitsTwo : Fits
    codec second providersTwo authTwo) (same : bindingPreimage codec first providersOne authOne =
    bindingPreimage codec second providersTwo authTwo) :
    bindingFields codec first providersOne authOne =
      bindingFields codec second providersTwo authTwo := by
  have framed : ∀ fields : List String,
      fields.flatMap hashField = (fields.map utf8).flatMap (frame 8) := by
    intro fields
    rw [flatMap_map]
    rfl
  have short : ∀ {fields : List String}, (∀ field ∈ fields, (utf8 field).length < 2 ^ 64) →
      ∀ field ∈ fields.map utf8, field.length < 256 ^ 8 := by
    intro fields fits field member
    obtain ⟨text, among, rfl⟩ := mem_map.mp member
    exact fits text among
  rw [bindingPreimage, bindingPreimage, framed, framed] at same
  have texts := Framed.frames_inj (short fitsOne) (short fitsTwo) (by decide) same
  exact map_injective_iff.mpr (fun _ _ => Http.utf8_injective) texts

/-- The bytes that are hashed are equal exactly for the same binding. -/
theorem bindingPreimage_eq_iff (fitsOne : Fits codec first providersOne authOne)
    (fitsTwo : Fits codec second providersTwo authTwo) :
    bindingPreimage codec first providersOne authOne =
        bindingPreimage codec second providersTwo authTwo ↔
      SameBinding codec first second providersOne providersTwo authOne authTwo := by
  have distinct : ∀ (evidence : PeerEvidenceSet) (names : List String),
      (((boundProviders names).map (providerBlock codec evidence)).map Block.key).Nodup := by
    intro evidence names
    rw [map_providerBlock_keys]
    exact nodup_dedup _
  constructor
  · intro same
    obtain ⟨blocks, trailers⟩ := Block.blocks_append_inj (by decide) (distinct first providersOne)
      (distinct second providersTwo) (applicationFields_length authOne)
      (applicationFields_length authTwo) (bindingFields_of_preimage fitsOne fitsTwo same)
    obtain ⟨names, each⟩ := map_providerBlock_eq_iff.mp blocks
    exact ⟨names, fun provider member => (each provider member).1,
      fun provider member => (each provider member).2, applicationFields_eq_iff.mp trailers⟩
  · intro same
    have blocks := map_providerBlock_eq_iff.mpr ⟨same.providers, fun provider member =>
      ⟨same.status provider member, same.identities provider member⟩⟩
    rw [bindingPreimage, bindingPreimage, bindingFields, bindingFields, blocks,
      applicationFields_eq_iff.mpr same.application]

/-- The bytes hashed over the evidence of any results are equal exactly for the same
binding, and the order of results and of providers does not change them. -/
theorem evidence_binding_exact {resultsOne resultsTwo : List PeerIdentityResult} (builtOne :
    fromResults resultsOne = .ok first) (builtTwo : fromResults resultsTwo = .ok second) (fitsOne :
    Fits codec first providersOne authOne) (fitsTwo : Fits codec second providersTwo authTwo) :
    (bindingPreimage codec first providersOne authOne =
        bindingPreimage codec second providersTwo authTwo ↔
      SameBinding codec first second providersOne providersTwo authOne authTwo) ∧
    (resultsOne.Perm resultsTwo → providersOne.Perm providersTwo → authOne = authTwo →
      bindingPreimage codec first providersOne authOne =
        bindingPreimage codec second providersTwo authTwo) := by
  refine ⟨bindingPreimage_eq_iff fitsOne fitsTwo, ?_⟩
  rintro arrived listed rfl
  have same := sameEvidence_of_perm builtOne builtTwo arrived
  exact (bindingPreimage_eq_iff fitsOne fitsTwo).mpr ⟨fun _ => listed.mem_iff,
    fun provider _ => same.status provider, fun provider _ => by rw [same.identities provider], rfl⟩

end

/-! ## Canonical principals -/

/-- The byte that an escape stands for. -/
def unescape : List Char → Nat
  | [char] => char.toNat
  | [_, high, low] =>
    16 * "0123456789ABCDEF".toList.idxOf high + "0123456789ABCDEF".toList.idxOf low
  | _ => 0

theorem escape_read (byte : UInt8) : unescape (escape byte) = byte.toNat ∧ '/' ∉ escape byte ∧
      (escape byte).length = if (escape byte).head? = some '%' then 3 else 1 := by
  have each : ∀ byte : Fin 256, unescape (escape (UInt8.ofNat byte)) = byte ∧
      '/' ∉ escape (UInt8.ofNat byte) ∧ (escape (UInt8.ofNat byte)).length =
        if (escape (UInt8.ofNat byte)).head? = some '%' then 3 else 1 := by
    decide +kernel
  simpa using each ⟨byte.toNat, byte.toNat_lt⟩

/-- An encoded text ends at the next slash, and determines the text. -/
theorem percentEncode_append_inj {first second : String} {restOne restTwo : List Char} (same :
    (percentEncode first).toList ++ '/' :: restOne = (percentEncode second).toList ++ '/' ::
    restTwo) : first = second ∧ restOne = restTwo := by
  have slashless : ∀ value, '/' ∉ (percentEncode value).toList := by
    intro value
    rw [percentEncode_eq, String.toList_ofList, mem_flatMap]
    rintro ⟨byte, -, member⟩
    exact (escape_read byte).2.1 member
  have nonempty : ∀ byte, escape byte ≠ [] := by
    intro byte empty
    have length := (escape_read byte).2.2
    rw [empty] at length
    cases length
  obtain ⟨codes, rests⟩ := append_cons_inj (slashless first) (slashless second) same
  rw [percentEncode_eq, percentEncode_eq, String.toList_ofList, String.toList_ofList] at codes
  refine ⟨Http.utf8_injective (Framed.flatMap_inj nonempty ?_ codes), rests⟩
  intro one _ two _ restOne restTwo begins
  obtain ⟨readOne, -, lengthOne⟩ := escape_read one
  obtain ⟨readTwo, -, lengthTwo⟩ := escape_read two
  have heads := congrArg head? begins
  rw [head?_append_of_ne_nil _ (nonempty one), head?_append_of_ne_nil _ (nonempty two)] at heads
  obtain ⟨codes, rests⟩ := append_inj begins (by rw [lengthOne, lengthTwo, heads])
  exact ⟨UInt8.toNat_inj.mp (by rw [← readOne, codes, readTwo]), rests⟩

theorem canonicalPrincipal_eq_iff (first second : PeerIdentity) :
    (∃ principal, first.canonicalPrincipal = .ok principal ∧
        second.canonicalPrincipal = .ok principal) ↔
      first.provider = second.provider ∧ first.issuer = second.issuer ∧
        ∃ subject, first.subjectKey = some subject ∧ second.subjectKey = some subject := by
  unfold PeerIdentity.canonicalPrincipal
  constructor
  · rintro ⟨principal, one, two⟩
    split at one
    · cases one
    split at two
    · cases two
    rename_i subject keyOne _ other keyTwo
    have texts := congrArg String.toList (Except.ok.inj (one.trans two.symm))
    simp only [String.toList_append, append_assoc, append_cancel_left_eq] at texts
    obtain ⟨provider, texts⟩ := percentEncode_append_inj texts
    obtain ⟨issuer, texts⟩ := percentEncode_append_inj texts
    obtain ⟨rfl, -⟩ := percentEncode_append_inj (congrArg (· ++ ['/']) texts)
    exact ⟨provider, issuer, subject, keyOne, keyTwo⟩
  · rintro ⟨provider, issuer, subject, one, two⟩
    rw [one, two, provider, issuer]
    exact ⟨_, rfl, rfl⟩

namespace Sample

def unmatched : PeerIdentityResult :=
  ⟨"proxy", .noMatch, [], PeerIdentityResult.coherent_absent (by decide),
    PeerIdentityResult.owned_absent "proxy"⟩

def early : PeerEvidenceSet :=
  ⟨[], OrderedMap.ofEntries [("mesh", .unavailable), ("proxy", .noMatch)]⟩

def late : PeerEvidenceSet :=
  ⟨[], OrderedMap.ofEntries [("proxy", .noMatch), ("mesh", .unavailable)]⟩

theorem early_fields (codec : Json.Codec) :
    bindingFields codec early ["proxy", "mesh"] none = ["mesh", "unavailable", "proxy", "no_match"] := by
  have order : boundProviders ["proxy", "mesh"] = ["mesh", "proxy"] := by decide +kernel
  rw [bindingFields, order]
  rfl

theorem late_fields (codec : Json.Codec) : bindingFields codec late ["mesh", "proxy", "mesh"] none =
      ["mesh", "unavailable", "proxy", "no_match"] := by
  have order : boundProviders ["mesh", "proxy", "mesh"] = ["mesh", "proxy"] := by decide +kernel
  rw [bindingFields, order]
  rfl

end Sample

open Sample

/-- Results in two orders, with a provider listed twice, are bound alike. -/
theorem evidence_binding_of_two_orders :
    bindingPreimage Json.unaryCodec early ["proxy", "mesh"] none =
      bindingPreimage Json.unaryCodec late ["mesh", "proxy", "mesh"] none := by
  have short : ∀ field ∈ ["mesh", "unavailable", "proxy", "no_match"],
      (utf8 field).length < 2 ^ 64 := by decide +kernel
  have fitsEarly : Fits Json.unaryCodec early ["proxy", "mesh"] none := by
    rw [Fits, early_fields]
    exact short
  have fitsLate : Fits Json.unaryCodec late ["mesh", "proxy", "mesh"] none := by
    rw [Fits, late_fields]
    exact short
  have builtEarly : fromResults [down, unmatched] = .ok early := rfl
  have builtLate : fromResults [unmatched, down] = .ok late := rfl
  have same := sameEvidence_of_perm builtEarly builtLate (List.Perm.swap _ _ _)
  refine (evidence_binding_exact builtEarly builtLate fitsEarly fitsLate).1.mpr
    ⟨?_, fun provider _ => same.status provider, fun provider _ => ?_, rfl⟩
  · intro provider
    simp [or_comm]
  · rw [same.identities provider]

end VgiRpc.Identity
