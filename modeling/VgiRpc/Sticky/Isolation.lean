import VgiRpc.Sticky.Lifetime

/-!
# Whose session it is

A session belongs to the caller that opened it: the token names the caller in its
associated data, the registry once more in the key of the entry.  The two texts are not
the same, but callers with one associated data have one key, so it is the associated
data that decides who may use a session and who may delete it.
-/

namespace VgiRpc.Sticky

open Library List Http

theorem principalKey_authenticated {auth : AuthContext} (known : auth.authenticated = true) :
    principalKey auth = String.ofList (['\x00'].intercalate auth.identity.parts) := by
  have nonempty := peerEvidenceBinding_nonempty auth
  rw [principalKey, if_pos known, ofList_parts]
  cases given : peerEvidenceBinding auth with
  | none => simp
  | some binding =>
    have present : binding ≠ "" := fun empty => nonempty (by rw [given, empty])
    simp [present, String.append_assoc]

/-- Callers with one associated data have one registry key. -/
theorem principalKey_alike {first second : AuthContext}
    (alike : first.identity.Alike second.identity) : principalKey first = principalKey second := by
  obtain ⟨flags, _, same⟩ := alike
  cases known : first.authenticated with
  | true =>
    rw [if_pos (show first.identity.authenticated = true from known)] at same
    rw [principalKey_authenticated known, principalKey_authenticated (flags.symm.trans known), same]
  | false =>
    rw [if_neg (by simp [AuthContext.identity, known])] at same
    have other : second.authenticated = false := flags.symm.trans known
    have bindings : peerEvidenceBinding first = peerEvidenceBinding second := same
    simp [principalKey, known, other, bindings]

section

variable {S : Type} (P : SessionPrimitives) (ctx : StickyContext)

/-- What the cipher stands for: a session token that opens for a caller was sealed for that
caller, by this server or by another one with this key, whose random ids are others. -/
def AuthenticSession (openings : List (Opening S)) (auth : AuthContext) (token : String) : Prop :=
  ∀ session, openSessionToken P token ctx.tokenKey (computeSessionAad auth) = .ok session →
    (∃ opening ∈ openings, token = opening.token P ctx ∧
      computeSessionAad auth = computeSessionAad opening.auth) ∨
    session.2.1 ∉ openings.map Opening.sessionId

/-- The request takes the session out of the registry: a deletion does it, or the handler
that was given the request closes it. -/
def Deletes (run : Sessions S) (auth : AuthContext)
    (acceptOpens : Bool) (header : Option String) (now : Nat) (opening : Opening S) : Prop :=
  ((handleDelete P ctx auth header now run.registry).1 = .closed ∧
    run.registry.entries.get? opening.sessionId = some opening.entry ∧
    (handleDelete P ctx auth header now run.registry).2.entries.get? opening.sessionId = none) ∨
  ∃ sink after, resolve P ctx auth acceptOpens header now run.registry = (.sink sink, after) ∧
    after.entries.get? opening.sessionId = some opening.entry ∧
    (sink.close after).2.entries.get? opening.sessionId = none

variable {P : SessionPrimitives} {ctx : StickyContext} {auth : AuthContext} {now : Nat}
  {run : Sessions S} {opening : Opening S} {token : String}

/-- A session that is found with an authentic token was opened by a caller alike. -/
theorem present_alike (lawful : P.Lawful) (invariant : SessionInvariant run) (member : opening ∈
    run.openings) {state : S} (authentic : AuthenticSession P ctx run.openings auth token) (found :
    (present P ctx auth token now run.registry).1 = .ok (state, opening.sessionId)) :
    (utf8 ctx.serverId).length < 256 ∧ auth.identity.Alike opening.auth.identity := by
  obtain ⟨⟨expiresAt, opens⟩, _⟩ := present_eq_ok_iff.mp found
  rcases authentic _ opens with ⟨other, known, rfl, aad⟩ | foreign
  · rw [aad, other.token_opens lawful ctx] at opens
    split_ifs at opens with short
    cases inj_on_of_nodup_map invariant.distinct known member
      (congrArg (fun session => session.2.1) (Except.ok.inj opens))
    exact ⟨short, (computeSessionAad_eq_iff _ _).mp aad⟩
  · exact absurd (mem_map_of_mem member) foreign

variable {registry : SessionRegistry S}

theorem present_found {session : S × SessionId}
    (found : (present P ctx auth token now registry).1 = .ok session) :
    present P ctx auth token now registry = (.ok session, registry) := by
  obtain ⟨⟨expiresAt, opens⟩, live⟩ := present_eq_ok_iff.mp found
  have same := SessionRegistry.get_found live
  unfold present
  rw [opens]
  simp only [ne_eq, not_true_eq_false, if_false]
  rw [show registry.get session.2 (principalKey auth) now = (some session.1, registry) from
    Prod.ext live same]

theorem close_other {sessionId other : SessionId} {entry : SessionEntry S}
    (held : registry.entries.get? sessionId = some entry)
    (gone : (registry.close other).2.entries.get? sessionId = none) : other = sessionId := by
  rw [SessionRegistry.close_without, held] at gone
  split_ifs at gone with member
  exact (mem_singleton.mp member).symm

theorem Deletes.present {acceptOpens : Bool} {header : Option String}
    (deletes : Deletes P ctx run auth acceptOpens header now opening) :
    ∃ token state, presented header = some token ∧
      (present P ctx auth token now run.registry).1 = .ok (state, opening.sessionId) := by
  unfold Deletes handleDelete resolve at deletes
  cases shown : presented header with
  | none =>
    rw [shown] at deletes
    rcases deletes with ⟨closed, _⟩ | ⟨sink, after, resolved, held, gone⟩
    · cases closed
    · cases resolved
      exact absurd (held.symm.trans gone) (by simp)
  | some token =>
    rw [shown] at deletes
    dsimp only at deletes
    cases looked : Sticky.present P ctx auth token now run.registry with
    | mk found after =>
      rw [looked] at deletes
      cases found with
      | error error =>
        rcases deletes with ⟨closed, _⟩ | ⟨sink, after, resolved, _⟩
        · cases closed
        · cases resolved
      | ok session =>
        obtain ⟨state, sessionId⟩ := session
        cases looked.symm.trans (present_found (congrArg Prod.fst looked))
        refine ⟨token, state, rfl, ?_⟩
        rcases deletes with ⟨_, held, gone⟩ | ⟨sink, after, resolved, held, gone⟩
        · have same : sessionId = opening.sessionId := close_other held gone
          rw [looked, same]
        · cases resolved
          unfold StickySink.close newSink at gone
          simp only [Option.map_some, Option.bind_some, hexToSid_bytesToHex] at gone
          rw [looked, close_other held gone]

variable (P : SessionPrimitives) (ctx : StickyContext)

/-- No other caller uses or deletes the session, whatever it presents. -/
def KeptApart (run : Sessions S) (opening : Opening S) : Prop :=
  ∀ (auth : AuthContext) (acceptOpens : Bool) (header : Option String) (now : Nat),
    auth.identity.WellFormed →
    (∀ token, presented header = some token → AuthenticSession P ctx run.openings auth token) →
    Given P ctx run auth acceptOpens header now opening ∨
      Deletes P ctx run auth acceptOpens header now opening →
    auth.identity = opening.auth.identity

/-- In every run, a session that the registry holds and whose token opens is kept apart from
all other callers exactly when the texts of its own caller split in one way; a session
that came to its end is kept apart from everyone. -/
theorem sessions_kept_apart_iff (lawful : P.Lawful) {run : Sessions S} (reachable : (sessionSystem S
    ctx).Reachable run) {opening : Opening S} (member : opening ∈ run.openings) :
    KeptApart P ctx run opening ↔ (opening.sessionId ∉ run.ended → opening.sessionId ∉ run.evicted →
        (utf8 ctx.serverId).length < 256 → opening.auth.identity.Plain) := by
  have invariant := (sessionInvariant ctx).reachable reachable
  constructor
  · intro apart unended unevicted short
    rw [← Identity.plain_iff]
    intro other wellFormed alike
    have named : other.auth.identity = other := other.auth_identity
    rw [← named] at wellFormed alike ⊢
    have aad := (computeSessionAad_eq_iff _ _).mpr alike
    refine apart other.auth true (some (opening.token P ctx)) opening.expiresAt wellFormed ?_
      (.inl ((given_token_iff lawful invariant member unended unevicted (Nat.le_refl _) aad
        (principalKey_alike alike)).mpr short))
    intro token shown session _
    rw [presented_token lawful] at shown
    cases shown
    exact .inl ⟨opening, member, rfl, aad⟩
  · intro plain auth acceptOpens header now wellFormed authentic uses
    obtain ⟨token, state, shown, found⟩ : ∃ token state, presented header = some token ∧
        (present P ctx auth token now run.registry).1 = .ok (state, opening.sessionId) := by
      rcases uses with given | deletes
      · obtain ⟨token, shown, found⟩ := given_iff.mp given
        exact ⟨token, opening.state, shown, found⟩
      · exact deletes.present
    obtain ⟨short, alike⟩ := present_alike lawful invariant member (authentic token shown) found
    obtain ⟨_, unended, unevicted, _⟩ :=
      (invariant.get_iff member).mp (present_eq_ok_iff.mp found).2
    exact (Identity.plain_iff _).mpr (plain unended unevicted short) _ wellFormed alike

end

namespace Sample

def caller (domain principal : String) : AuthContext := ⟨true, domain, principal, OrderedMap.empty⟩

def anonymous : AuthContext := ⟨false, "", "", OrderedMap.empty⟩

variable (auth : AuthContext)

/-- The cipher of a server whose only session so far is of this caller. -/
def sealing : SessionPrimitives := primitives (computeSessionAad auth)

theorem sealing_lawful : (sealing auth).Lawful := primitives_lawful _

/-- The token of the one session opens for its own caller only. -/
theorem authentic_own (other : AuthContext) (serverId : String) :
    AuthenticSession (sealing auth) (context serverId) [opening auth] other
      ((opening auth).token (sealing auth) (context serverId)) := by
  intro session opens
  refine .inl ⟨opening auth, mem_singleton_self _, rfl, ?_⟩
  unfold openSessionToken Opening.token sealSessionToken at opens
  rw [(sealing_lawful auth).base64Url_decode] at opens
  dsimp only at opens
  split at opens
  · cases opens
  · rename_i plaintext opened
    exact opens_only_known opened

theorem running_invariant : SessionInvariant (running auth) :=
  (sessionInvariant (context "")).reachable (running_reachable "" auth)

/-- The key alone does not tell these two callers apart. -/
example : principalKey anonymous = principalKey (caller "" "anonymous") := by decide

end Sample

open Sticky.Sample

/-- A caller who is known by the name of the anonymous one does not get its session. -/
theorem sessions_kept_apart_iff_anonymous : ¬ Given (sealing anonymous) (context "worker-1")
      (running anonymous) (caller "" "anonymous") true
      (some ((opening anonymous).token (sealing anonymous)
        (context "worker-1"))) 0 (opening anonymous) := by
  have apart := (sessions_kept_apart_iff (sealing anonymous)
    (context "worker-1") (sealing_lawful _) (running_reachable _ anonymous)
    (running_live anonymous).1).mpr fun _ _ _ => by decide
  intro given
  have same := apart (caller "" "anonymous") true _ 0 (fun unknown => Bool.noConfusion unknown)
    (fun _ shown => by
      rw [presented_token (sealing_lawful anonymous)] at shown
      obtain rfl := Option.some.inj shown
      exact authentic_own _ _ _)
    (.inl given)
  exact absurd (congrArg Identity.authenticated same) (by decide)

/-- A NUL that one caller has in its domain another has in its principal, and the session
of the one is given to the other. -/
theorem nul_moves_session : (caller "a" "b\x00c").identity ≠ (caller "a\x00b" "c").identity ∧
    AuthenticSession (sealing (caller "a\x00b" "c")) (context "worker-1")
      (running (caller "a\x00b" "c")).openings (caller "a" "b\x00c")
      ((opening (caller "a\x00b" "c")).token (sealing (caller "a\x00b" "c")) (context "worker-1")) ∧
    Given (sealing (caller "a\x00b" "c")) (context "worker-1")
      (running (caller "a\x00b" "c")) (caller "a" "b\x00c") true
      (some ((opening (caller "a\x00b" "c")).token
        (sealing (caller "a\x00b" "c")) (context "worker-1"))) 0
      (opening (caller "a\x00b" "c")) := by
  have alike : (caller "a" "b\x00c").identity.Alike (caller "a\x00b" "c").identity :=
    ⟨rfl, rfl, by decide⟩
  refine ⟨?_, authentic_own _ _ _, ?_⟩
  · intro same
    exact absurd (congrArg Identity.domain same) (by decide)
  · refine (given_token_iff (sealing_lawful _) (running_invariant _)
      (running_live _).1 not_mem_nil not_mem_nil (Nat.zero_le _)
      ((computeSessionAad_eq_iff _ _).mpr alike) (principalKey_alike alike)).mpr ?_
    decide

end VgiRpc.Sticky
