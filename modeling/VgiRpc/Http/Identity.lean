import VgiRpc.Http.Token
import VgiRpc.Library.Separated

/-!
# Callers

Every token is sealed under associated data that names its caller: a label, then the
domain, the principal and the peer-evidence binding joined by NUL bytes.  Two callers
are told apart exactly as far as the joined text can be split again.
-/

namespace VgiRpc.Http

open Library List ByteStream
open String (toList ofList toList_inj toList_ofList)

/-- Who a caller is; an empty binding counts as none. -/
@[ext]
structure Identity where
  authenticated : Bool
  domain : String
  principal : String
  binding : Option String
  bindingNonempty : binding ≠ some ""

theorem peerEvidenceBinding_nonempty (auth : AuthContext) : peerEvidenceBinding auth ≠ some "" := by
  unfold peerEvidenceBinding
  intro empty
  have kept := (Option.filter_eq_some_iff.mp empty).2
  simp at kept

def AuthContext.identity (auth : AuthContext) : Identity where
  authenticated := auth.authenticated
  domain := auth.domain
  principal := auth.principal
  binding := peerEvidenceBinding auth
  bindingNonempty := peerEvidenceBinding_nonempty auth

namespace Identity

variable (who : Identity)

def auth : AuthContext where
  authenticated := who.authenticated
  domain := who.domain
  principal := who.principal
  claims :=
    match who.binding with
    | some binding => OrderedMap.empty.insert "peer_evidence_binding" binding
    | none => OrderedMap.empty

theorem auth_identity : who.auth.identity = who := by
  obtain ⟨authenticated, domain, principal, binding, nonempty⟩ := who
  cases binding with
  | none => rfl
  | some binding =>
    have kept : binding ≠ "" := fun empty => nonempty (congrArg some empty)
    have found : peerEvidenceBinding
        (auth ⟨authenticated, domain, principal, some binding, nonempty⟩) = some binding := by
      rw [peerEvidenceBinding, auth, OrderedMap.get?_insert_self]
      simp [Option.filter, kept]
    ext1
    · rfl
    · rfl
    · rfl
    · exact found

/-- The texts that name an authenticated caller, in the order they are joined. -/
def parts : List (List Char) :=
  who.domain.toList :: who.principal.toList :: (who.binding.map toList).toList

/-- Callers with one and the same associated data. -/
def Alike (first second : Identity) : Prop :=
  first.authenticated = second.authenticated ∧
  first.binding.isSome = second.binding.isSome ∧
  if first.authenticated then
    ['\x00'].intercalate first.parts = ['\x00'].intercalate second.parts
  else first.binding = second.binding

theorem Alike.refl : who.Alike who := by
  refine ⟨rfl, rfl, ?_⟩
  split <;> rfl

/-- A caller that was not authenticated has neither a domain nor a principal. -/
def WellFormed : Prop :=
  who.authenticated = false → who.domain = "" ∧ who.principal = ""

/-- The joined text of the caller splits in one way only: its parts hold no NUL, but for
the last character of the binding. -/
def Plain : Prop :=
  if who.authenticated then
    '\x00' ∉ who.domain.toList ∧ '\x00' ∉ who.principal.toList ∧
      '\x00' ∉ (who.binding.getD "").toList.dropLast
  else who.domain = "" ∧ who.principal = ""

instance (who : Identity) : Decidable who.Plain := by
  unfold Plain
  infer_instance

end Identity

theorem utf8_append
    (first second : String) : utf8 (first ++ second) = utf8 first ++ utf8 second := by
  simp [utf8]

theorem utf8_injective {first second : String} (same : utf8 first = utf8 second) :
    first = second := by
  have decoded := fromUtf8_utf8 second
  rw [← same, fromUtf8_utf8] at decoded
  exact Option.some.inj decoded

theorem utf8_nul (text : String) : 0 :: utf8 text = utf8 ("\x00" ++ text) := by
  rw [utf8_append]
  rfl

variable {auth : AuthContext}

/-- The joined parts of a caller, as the labels of a token and of a session spell them. -/
theorem ofList_parts : ofList (['\x00'].intercalate auth.identity.parts) =
    auth.domain ++ "\x00" ++ auth.principal ++
      ((peerEvidenceBinding auth).map ("\x00" ++ ·)).getD "" := by
  cases given : peerEvidenceBinding auth <;>
    simp [Identity.parts, AuthContext.identity, given, intercalate_cons_cons,
      String.ofList_append, String.append_assoc]

theorem computeAadWith_authenticated (known : auth.authenticated = true) : computeAadWith [] auth =
      1 :: utf8 (ofList (['\x00'].intercalate auth.identity.parts)) := by
  rw [computeAadWith, if_pos known, bindingSuffix, ofList_parts]
  cases peerEvidenceBinding auth <;> simp [utf8_append, utf8_nul]

theorem computeAadWith_anonymous (unknown : auth.authenticated = false) :
    computeAadWith [] auth = utf8 "\x00anonymous" ++ bindingSuffix auth := by
  simp [computeAadWith, unknown]

variable {first second : AuthContext}

theorem bindingSuffix_injective (same : bindingSuffix first = bindingSuffix second) :
    peerEvidenceBinding first = peerEvidenceBinding second := by
  unfold bindingSuffix at same
  cases one : peerEvidenceBinding first <;> cases two : peerEvidenceBinding second <;>
    rw [one, two] at same
  · cases same
  · cases same
  · rw [utf8_injective (List.cons.inj same).2]

/-- What follows the label is the same for callers that are alike. -/
theorem computeAadWith_eq_iff
    (bound : (peerEvidenceBinding first).isSome = (peerEvidenceBinding second).isSome) :
    computeAadWith [] first = computeAadWith [] second ↔ first.identity.Alike second.identity := by
  have anonymous : utf8 "\x00anonymous" = 0 :: utf8 "anonymous" := rfl
  unfold Identity.Alike
  cases one : first.authenticated <;> cases two : second.authenticated
  · have flags : first.identity.authenticated = second.identity.authenticated := one.trans two.symm
    rw [computeAadWith_anonymous one, computeAadWith_anonymous two, append_cancel_left_eq,
      if_neg (by simp [AuthContext.identity, one])]
    constructor
    · intro same
      exact ⟨flags, bound, bindingSuffix_injective same⟩
    · rintro ⟨_, _, same⟩
      unfold bindingSuffix
      rw [show peerEvidenceBinding first = peerEvidenceBinding second from same]
  · rw [computeAadWith_anonymous one, computeAadWith_authenticated two, anonymous]
    simp [AuthContext.identity, one, two]
  · rw [computeAadWith_authenticated one, computeAadWith_anonymous two, anonymous]
    simp [AuthContext.identity, one, two]
  · have flags : first.identity.authenticated = second.identity.authenticated := one.trans two.symm
    rw [computeAadWith_authenticated one, computeAadWith_authenticated two,
      if_pos (show first.identity.authenticated = true from one)]
    constructor
    · intro same
      exact ⟨flags, bound, String.ofList_injective (utf8_injective (List.cons.inj same).2)⟩
    · rintro ⟨_, _, same⟩
      rw [same]

/-- Associated data under one of two labels, by whether the caller has a binding. -/
def labelledAad (plain bound : String) (auth : AuthContext) : Bytes :=
  computeAadWith (if (peerEvidenceBinding auth).isSome then utf8 bound else utf8 plain) auth

/-- Two labels of one length that differ. -/
structure Labels (plain bound : String) : Prop where
  length : (utf8 plain).length = (utf8 bound).length
  apart : utf8 plain ≠ utf8 bound

theorem labelledAad_eq_iff {plain bound : String} (labels : Labels plain bound)
    (first second : AuthContext) :
    labelledAad plain bound first = labelledAad plain bound second ↔
      first.identity.Alike second.identity := by
  unfold labelledAad
  rw [computeAadWith_label _ first, computeAadWith_label _ second]
  constructor
  · intro same
    obtain ⟨heads, callers⟩ := append_inj same (by split <;> split <;> simp [labels.length])
    refine (computeAadWith_eq_iff ?_).mp callers
    cases one : (peerEvidenceBinding first).isSome <;>
      cases two : (peerEvidenceBinding second).isSome <;> rw [one, two] at heads
    · exact absurd heads labels.apart
    · exact absurd heads.symm labels.apart
  · intro alike
    have bound : (peerEvidenceBinding first).isSome = (peerEvidenceBinding second).isSome :=
      alike.2.1
    rw [bound, (computeAadWith_eq_iff bound).mpr alike]

variable (first second : AuthContext)

theorem computeAad_eq_iff :
    computeAad first = computeAad second ↔ first.identity.Alike second.identity :=
  labelledAad_eq_iff ⟨by decide, by decide⟩ first second

theorem computeCallAad_eq_iff :
    computeCallAad first = computeCallAad second ↔ first.identity.Alike second.identity :=
  labelledAad_eq_iff ⟨by decide, by decide⟩ first second

namespace Identity

/-- Parts behind which one more text follows, that text taken off its last character. -/
theorem intercalate_last (first second third : List Char) (last : Char) :
    ['\x00'].intercalate [first, second, third ++ [last]] =
      ['\x00'].intercalate [first, second, third] ++ [last] := by
  simp [intercalate_cons_cons, intercalate_singleton]

variable {who : Identity}

/-- The joined text of a plain caller is the joined text of no other. -/
theorem Plain.parts_eq {other : Identity} (plain : who.Plain) (known : who.authenticated = true)
    (bound : other.binding.isSome = who.binding.isSome)
    (same : ['\x00'].intercalate other.parts = ['\x00'].intercalate who.parts) :
    other.domain = who.domain ∧ other.principal = who.principal ∧ other.binding = who.binding := by
  unfold Plain at plain
  rw [if_pos known] at plain
  obtain ⟨domain, principal, binding⟩ := plain
  unfold parts at same
  cases mine : who.binding with
  | none =>
    cases others : other.binding with
    | some _ => rw [mine, others] at bound; cases bound
    | none =>
      rw [mine, others] at same
      have separable : Separable '\x00' [who.domain.toList, who.principal.toList] := by
        simp [Separable, domain, principal]
      have equal := intercalate_injective (by rfl) separable same.symm
      injection equal with domains rest
      injection rest with principals _
      exact ⟨(toList_inj.mp domains).symm, (toList_inj.mp principals).symm, rfl⟩
  | some mineText =>
    cases others : other.binding with
    | none => rw [mine, others] at bound; cases bound
    | some otherText =>
      rw [mine, others] at same
      have mineNonempty : mineText.toList ≠ [] := fun empty =>
        who.bindingNonempty (by rw [mine, String.toList_eq_nil_iff.mp empty])
      have otherNonempty : otherText.toList ≠ [] := fun empty =>
        other.bindingNonempty (by rw [others, String.toList_eq_nil_iff.mp empty])
      change ['\x00'].intercalate [_, _, otherText.toList] =
        ['\x00'].intercalate [_, _, mineText.toList] at same
      rw [← dropLast_append_getLast mineNonempty,
        ← dropLast_append_getLast otherNonempty, intercalate_last, intercalate_last] at same
      obtain ⟨heads, lasts⟩ := append_inj' same rfl
      rw [mine] at binding
      have separable : Separable '\x00'
          [who.domain.toList, who.principal.toList, mineText.toList.dropLast] := by
        simpa [Separable, domain, principal] using binding
      have equal := intercalate_injective (by rfl) separable heads.symm
      injection equal with domains rest
      injection rest with principals rest
      injection rest with bindings _
      refine ⟨(toList_inj.mp domains).symm, (toList_inj.mp principals).symm, ?_⟩
      have texts : otherText.toList = mineText.toList := by
        rw [← dropLast_append_getLast mineNonempty,
          ← dropLast_append_getLast otherNonempty, lasts, bindings]
      rw [toList_inj.mp texts]

/-- A NUL inside the first of two parts may as well be the separator between them. -/
theorem intercalate_shift (first middle last : List Char) (rest : List (List Char)) :
    ['\x00'].intercalate ((first ++ '\x00' :: middle) :: last :: rest) =
      ['\x00'].intercalate (first :: (middle ++ '\x00' :: last) :: rest) := by
  cases rest with
  | nil => simp [intercalate_cons_cons, intercalate_singleton]
  | cons next others => simp [intercalate_cons_cons]

/-- A caller that no other is alike has only one way to split its joined text. -/
theorem split_unique (known : who.authenticated = true) (only : ∀ other : Identity, other.WellFormed
    → other.Alike who → other = who) {domain principal : List Char} {binding : Option String}
    (nonempty : binding ≠ some "") (bound : binding.isSome = who.binding.isSome) (same :
    ['\x00'].intercalate (domain :: principal :: (binding.map toList).toList) = ['\x00'].intercalate
    who.parts) :
    domain = who.domain.toList ∧ principal = who.principal.toList := by
  let other : Identity := ⟨true, ofList domain, ofList principal, binding, nonempty⟩
  have alike : other.Alike who := by
    refine ⟨known.symm, bound, ?_⟩
    rw [if_pos rfl, parts, toList_ofList, toList_ofList]
    exact same
  have equal := only other (fun unknown => Bool.noConfusion unknown) alike
  constructor
  · rw [← equal, toList_ofList]
  · rw [← equal, toList_ofList]

/-- A NUL in a domain or a principal, or inside a binding, can be read as a separator. -/
theorem plain_of_alike_eq (known : who.authenticated = true)
    (only : ∀ other : Identity, other.WellFormed → other.Alike who → other = who) : who.Plain := by
  unfold Plain
  rw [if_pos known]
  refine ⟨?_, ?_, ?_⟩
  · intro member
    obtain ⟨first, middle, text⟩ := append_of_mem member
    have moved := split_unique known only who.bindingNonempty rfl
      ((intercalate_shift first middle who.principal.toList _).symm.trans (by rw [← text, parts]))
    have lengths := congrArg List.length (moved.1.trans text)
    simp at lengths
  · intro member
    obtain ⟨middle, last, text⟩ := append_of_mem member
    have moved := split_unique known only who.bindingNonempty rfl
      ((intercalate_shift who.domain.toList middle last _).trans (by rw [← text, parts]))
    have lengths := congrArg List.length moved.1
    simp at lengths
  · intro member
    obtain ⟨middle, rest, text⟩ := append_of_mem member
    cases given : who.binding with
    | none => rw [given] at text; simp at text
    | some binding =>
      rw [given] at text
      have nonempty : binding.toList ≠ [] := by
        intro empty
        simp [empty] at text
      obtain ⟨last, whole⟩ : ∃ last, binding.toList = middle ++ '\x00' :: (rest ++ [last]) := by
        refine ⟨binding.toList.getLast nonempty, ?_⟩
        have split := (dropLast_append_getLast nonempty).symm
        rw [show binding.toList.dropLast = _ from text, append_assoc] at split
        exact split
      have shifted : ['\x00'].intercalate (who.domain.toList ::
          (who.principal.toList ++ '\x00' :: middle) ::
            ((some (ofList (rest ++ [last]))).map toList).toList) =
          ['\x00'].intercalate who.parts := by
        rw [parts, given, Option.map_some, Option.map_some, whole, toList_ofList]
        simp [intercalate_cons_cons, intercalate_singleton]
      have moved := split_unique known only (by simp) (by rw [given]; rfl) shifted
      have lengths := congrArg List.length moved.2
      simp at lengths

/-- A caller shares its associated data with no other caller exactly when it is plain. -/
theorem plain_iff (who : Identity) :
    (∀ other : Identity, other.WellFormed → other.Alike who → other = who) ↔ who.Plain := by
  constructor
  · intro only
    cases known : who.authenticated with
    | true => exact plain_of_alike_eq known only
    | false =>
      have alike : (⟨false, "", "", who.binding, who.bindingNonempty⟩ : Identity).Alike who :=
        ⟨known.symm, rfl, rfl⟩
      have equal := only _ (fun _ => ⟨rfl, rfl⟩) alike
      unfold Plain
      rw [if_neg (by simp [known]), ← equal]
      exact ⟨rfl, rfl⟩
  · rintro plain other wellFormed ⟨flags, bound, same⟩
    cases known : who.authenticated with
    | true =>
      rw [if_pos (flags.trans known)] at same
      obtain ⟨domain, principal, binding⟩ := plain.parts_eq known bound same
      exact Identity.ext flags domain principal binding
    | false =>
      have unknown := flags.trans known
      rw [if_neg (by simp [unknown])] at same
      unfold Plain at plain
      rw [if_neg (by simp [known])] at plain
      obtain ⟨domain, principal⟩ := wellFormed unknown
      exact Identity.ext flags (domain.trans plain.1.symm) (principal.trans plain.2.symm) same

end Identity

end VgiRpc.Http
