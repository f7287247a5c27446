import VgiRpc.Sticky.Sessions

/-!
# How long a session lives

A session is given to requests from the moment it is opened until it is closed, expires or
is shut down, and to none afterwards.  Its own token finds it as long as the token can
carry the id of the server.
-/

namespace VgiRpc.Sticky

open Library List Http

section

variable {S : Type} {P : SessionPrimitives} {ctx : StickyContext} {auth : AuthContext} {now : Nat}
  {registry : SessionRegistry S} {acceptOpens : Bool} {header : Option String} {token : String}

theorem present_eq_ok_iff {state : S} {sessionId : SessionId} :
    (present P ctx auth token now registry).1 = .ok (state, sessionId) ↔
      (∃ expiresAt, openSessionToken P token ctx.tokenKey (computeSessionAad auth) =
        .ok (ctx.serverId, sessionId, expiresAt)) ∧
      (registry.get sessionId (principalKey auth) now).1 = some state := by
  unfold present
  cases opens : openSessionToken P token ctx.tokenKey (computeSessionAad auth) with
  | error error => simp
  | ok session =>
    obtain ⟨serverId, named, expiresAt⟩ := session
    by_cases issued : serverId = ctx.serverId
    · subst issued
      cases looked : registry.get named (principalKey auth) now with
      | mk found after =>
        cases found with
        | none =>
          simp only [ne_eq, not_true_eq_false, if_false, looked]
          refine iff_of_false (by simp) ?_
          rintro ⟨⟨_, same⟩, found⟩
          cases same
          rw [looked] at found
          cases found
        | some live =>
          simp only [ne_eq, not_true_eq_false, if_false, looked]
          constructor
          · intro same
            cases same
            exact ⟨⟨expiresAt, rfl⟩, by rw [looked]⟩
          · rintro ⟨⟨_, same⟩, found⟩
            cases same
            rw [looked] at found
            cases found
            rfl
    · simp [issued]

def Given (P : SessionPrimitives) (ctx : StickyContext) (run : Sessions S) (auth : AuthContext)
    (acceptOpens : Bool) (header : Option String) (now : Nat) (opening : Opening S) : Prop :=
  ∃ sink, (resolve P ctx auth acceptOpens header now run.registry).1 = .sink sink ∧
    sink.currentState = some opening.state ∧
    sink.currentSid = some (bytesToHex opening.sessionId.bytes)

theorem resolve_unpresented (shown : presented header = none) :
    resolve P ctx auth acceptOpens header now registry =
      (.sink (newSink auth acceptOpens none), registry) := by
  unfold resolve
  rw [shown]

theorem resolve_presented (shown : presented header = some token) :
    (resolve P ctx auth acceptOpens header now registry).1 =
      match (present P ctx auth token now registry).1 with
      | .ok session => .sink (newSink auth acceptOpens (some session))
      | .error error => .lost error := by
  unfold resolve
  rw [shown]
  dsimp only
  cases present P ctx auth token now registry with
  | mk found after => cases found <;> rfl

theorem given_iff {run : Sessions S} {opening : Opening S} :
    Given P ctx run auth acceptOpens header now opening ↔ ∃ token, presented header = some token ∧
      (present P ctx auth token now run.registry).1 = .ok (opening.state, opening.sessionId) := by
  unfold Given
  cases shown : presented header with
  | none =>
    refine iff_of_false ?_ (by simp)
    rintro ⟨_, same, given, _⟩
    rw [resolve_unpresented shown] at same
    cases same
    cases given
  | some token =>
    simp only [resolve_presented shown, Option.some.injEq, exists_eq_left']
    constructor
    · rintro ⟨_, same, given, named⟩
      cases found : (present P ctx auth token now run.registry).1 with
      | error error => rw [found] at same; cases same
      | ok session =>
        rw [found] at same
        cases same
        have ids := bytesToHex_injective (Option.some.inj named)
        exact congrArg Except.ok (Prod.ext (Option.some.inj given) ids)
    · intro found
      rw [found]
      exact ⟨_, rfl, rfl, rfl⟩

end

section

variable {S : Type} {P : SessionPrimitives} {ctx : StickyContext}

/-- The session was neither closed nor shut down, and its time has not passed. -/
def Sessions.Live (run : Sessions S) (opening : Opening S) : Prop :=
  opening ∈ run.openings ∧ opening.sessionId ∉ run.ended ∧ run.clock ≤ opening.expiresAt

variable {run : Sessions S} {opening : Opening S} {now : Nat}

theorem SessionInvariant.get_iff (invariant : SessionInvariant run)
    (member : opening ∈ run.openings) {principal : String} {state : S} :
    (run.registry.get opening.sessionId principal now).1 = some state ↔
      opening.state = state ∧ opening.sessionId ∉ run.ended ∧ opening.sessionId ∉ run.evicted ∧
        now ≤ opening.expiresAt ∧ principalKey opening.auth = principal := by
  rw [SessionRegistry.get_eq_some_iff]
  constructor
  · rintro ⟨entry, found, live, owned, same⟩
    obtain ⟨other, known, named, rfl, unfinished⟩ := (invariant.holds _ _).mp found
    cases inj_on_of_nodup_map invariant.distinct known member named
    exact ⟨same, fun ended => unfinished (.inl ended), fun evicted => unfinished (.inr evicted),
      live, owned⟩
  · rintro ⟨same, ended, evicted, live, owned⟩
    refine ⟨opening.entry, (invariant.holds _ _).mpr ⟨opening, member, rfl, rfl, ?_⟩, live, owned,
      same⟩
    rintro (finished | finished)
    · exact ended finished
    · exact evicted finished

theorem presented_token (lawful : P.Lawful) (opening : Opening S) :
    presented (some (opening.token P ctx)) = some (opening.token P ctx) := by
  unfold presented Opening.token sealSessionToken
  rw [Option.map_some, trim_visible (lawful.base64Url_visible _)]
  refine Option.filter_eq_some_iff.mpr ⟨rfl, decide_eq_true ?_⟩
  exact lawful.base64Url_nonempty _ (cons_ne_nil _ _)

theorem Opening.token_opens (lawful : P.Lawful) (ctx : StickyContext) (opening : Opening S) :
    openSessionToken P (opening.token P ctx) ctx.tokenKey (computeSessionAad opening.auth) =
      if (utf8 ctx.serverId).length < 256 then
        .ok (ctx.serverId, opening.sessionId, opening.expiresAtUnix)
      else .error lostToken :=
  openSessionToken_seal lawful ctx.serverId opening.sessionId opening.expiresAtUnix ctx.tokenKey
    (computeSessionAad opening.auth) opening.sealedAt opening.nonce

/-- The token of a session that the registry holds finds it for callers with the opener's
associated data and registry key, if the token opens at all. -/
theorem given_token_iff (lawful : P.Lawful) (invariant : SessionInvariant run) (member : opening ∈
    run.openings) (unended : opening.sessionId ∉ run.ended) (unevicted : opening.sessionId ∉
    run.evicted) {auth : AuthContext} {acceptOpens : Bool} (unexpired : now ≤ opening.expiresAt)
    (aad : computeSessionAad auth = computeSessionAad opening.auth) (key : principalKey auth =
    principalKey opening.auth) :
    Given P ctx run auth acceptOpens (some (opening.token P ctx)) now opening ↔
      (utf8 ctx.serverId).length < 256 := by
  have opens := opening.token_opens lawful ctx
  rw [← aad] at opens
  have found := (invariant.get_iff member).mpr ⟨rfl, unended, unevicted, unexpired, key.symm⟩
  rw [given_iff, presented_token lawful]
  constructor
  · rintro ⟨_, same, given⟩
    cases same
    obtain ⟨⟨_, ok⟩, _⟩ := present_eq_ok_iff.mp given
    by_contra long
    rw [opens, if_neg long] at ok
    cases ok
  · intro short
    rw [if_pos short] at opens
    exact ⟨_, rfl, present_eq_ok_iff.mpr ⟨⟨_, opens⟩, found⟩⟩

theorem SessionInvariant.unevicted (invariant : SessionInvariant run) (live : run.Live opening) :
    opening.sessionId ∉ run.evicted := by
  intro evicted
  have passed := invariant.expired opening live.1 evicted
  have unexpired := live.2.2
  omega

variable {before after : Sessions S}

/-- What has come to its end stays so. -/
theorem SessionStep.grows (step : SessionStep before after) :
    before.openings ⊆ after.openings ∧ before.ended ⊆ after.ended ∧
      before.evicted ⊆ after.evicted := by
  cases step with
  | tick => exact ⟨.refl _, .refl _, .refl _⟩
  | opened => exact ⟨subset_cons_self _ _, .refl _, .refl _⟩
  | lookup => exact ⟨.refl _, .refl _, subset_append_right _ _⟩
  | closed => exact ⟨.refl _, subset_append_right _ _, .refl _⟩
  | swept => exact ⟨.refl _, .refl _, subset_append_right _ _⟩
  | drain => exact ⟨.refl _, .refl _, .refl _⟩
  | shutdown => exact ⟨.refl _, subset_append_right _ _, .refl _⟩

theorem steps_grow (steps : Relation.ReflTransGen SessionStep before after) :
    before.openings ⊆ after.openings ∧ before.ended ⊆ after.ended ∧
      before.evicted ⊆ after.evicted := by
  induction steps with
  | refl => exact ⟨.refl _, .refl _, .refl _⟩
  | tail _ step ih =>
    obtain ⟨openings, ended, evicted⟩ := step.grows
    exact ⟨List.Subset.trans ih.1 openings, List.Subset.trans ih.2.1 ended,
      List.Subset.trans ih.2.2 evicted⟩

theorem reachable_steps (reachable : (sessionSystem S ctx).Reachable before)
    (steps : Relation.ReflTransGen SessionStep before after) :
    (sessionSystem S ctx).Reachable after := by
  induction steps with
  | refl => exact reachable
  | tail _ step ih => exact .next ih step

/-- A session that was closed, shut down or swept is given to no later request, nor to one
that comes when its time has passed, whatever the request presents; and a session that is
live is found by its owner with its own token exactly when one byte can say how long the
server id is. -/
theorem session_lifetime_iff (P : SessionPrimitives) (ctx : StickyContext) (lawful : P.Lawful)
    {run : Sessions S} (reachable : (sessionSystem S ctx).Reachable run) :
    (∀ opening ∈ run.openings, ∀ later, Relation.ReflTransGen SessionStep run later →
      ∀ auth acceptOpens header now,
        opening.sessionId ∈ run.ended ∨ opening.sessionId ∈ run.evicted ∨ opening.expiresAt < now →
        ¬ Given P ctx later auth acceptOpens header now opening) ∧
    ∀ opening, run.Live opening → ∀ auth : AuthContext, auth.identity = opening.auth.identity →
      ∀ acceptOpens, ∀ now ≤ run.clock,
        (Given P ctx run auth acceptOpens (some (opening.token P ctx)) now opening ↔
          (utf8 ctx.serverId).length < 256) := by
  constructor
  · intro opening member later steps auth acceptOpens header now finished given
    have invariant := (sessionInvariant ctx).reachable (reachable_steps reachable steps)
    obtain ⟨openings, ended, evicted⟩ := steps_grow steps
    obtain ⟨token, _, shown⟩ := given_iff.mp given
    obtain ⟨_, unended, unevicted, unexpired, _⟩ :=
      (invariant.get_iff (openings member)).mp (present_eq_ok_iff.mp shown).2
    rcases finished with finished | finished | passed
    · exact unended (ended finished)
    · exact unevicted (evicted finished)
    · omega
  · intro opening live auth same acceptOpens now taken
    have invariant := (sessionInvariant ctx).reachable reachable
    have unexpired : now ≤ opening.expiresAt := Nat.le_trans taken live.2.2
    refine given_token_iff lawful invariant live.1 live.2.1 (invariant.unevicted live) unexpired ?_
      (principalKey_identity same)
    exact (computeSessionAad_eq_iff _ _).mpr (same ▸ Identity.Alike.refl _)

end

namespace Sample

def context (serverId : String) : StickyContext := ⟨List.replicate 32 0, 10, serverId⟩

theorem nonce_length : (List.replicate 24 (0 : UInt8)).length = 24 := rfl

def sessionId : SessionId := ⟨List.replicate 12 7, rfl⟩

variable (auth : AuthContext)

def opening : Opening Nat := ⟨auth, sessionId, 5, 10, 0, 0, ⟨.replicate 24 0, nonce_length⟩⟩

def running : Sessions Nat where
  registry := ⟨10, OrderedMap.empty.insert sessionId (opening auth).entry, false⟩
  clock := 0
  openings := [opening auth]
  ended := []
  evicted := []

theorem running_reachable (serverId : String) (auth : AuthContext) :
    (sessionSystem Nat (context serverId)).Reachable (running auth) :=
  .next (.start ⟨0, rfl⟩) (.opened _ auth 5 none ⟨0, 0, sessionId, 0, ⟨.replicate 24 0, rfl⟩⟩ 0 _
    (Nat.le_refl 0) not_mem_nil (by
      simp [SessionRegistry.openSession, SessionRegistry.new, context, opening, Opening.entry]))

theorem running_live : (running auth).Live (opening auth) :=
  ⟨mem_singleton_self _, not_mem_nil, Nat.zero_le _⟩

def longId (count : Nat) : String := String.ofList (List.replicate count 'a')

theorem utf8_replicate (count : Nat) :
    (utf8 (String.ofList (List.replicate count 'a'))).length = count := by
  induction count with
  | zero => rfl
  | succ count ih =>
    have letter : (utf8 (String.ofList ['a'])).length = 1 := rfl
    rw [replicate_succ, ← singleton_append, String.ofList_append, utf8_append,
      length_append, ih, letter, Nat.add_comm]

theorem longId_long {count : Nat} (long : 256 ≤ count) : ¬ (utf8 (longId count)).length < 256 := by
  rw [longId, utf8_replicate]
  exact Nat.not_lt.mpr long

def ada : AuthContext := ⟨true, "mtls", "ada", OrderedMap.empty⟩

theorem lost_long {serverId : String} (long : ¬ (utf8 serverId).length < 256) :
    ¬ Given (primitives []) (context serverId) (running ada) ada true
      (some ((opening ada).token (primitives []) (context serverId))) 0 (opening ada) := by
  intro given
  have invariant := (sessionInvariant (context serverId)).reachable (running_reachable serverId ada)
  exact long ((given_token_iff (primitives_lawful []) invariant (running_live ada).1
    not_mem_nil not_mem_nil (Nat.zero_le _) rfl rfl).mp given)

end Sample

open Sticky.Sample

/-- On a server with a short id the caller that opened a session gets it back. -/
theorem session_lifetime_iff_found : Given (primitives []) (context "worker-1") (running ada) ada
      true (some ((opening ada).token (primitives []) (context "worker-1"))) 0 (opening ada) :=
  ((session_lifetime_iff (primitives []) (context "worker-1")
    (primitives_lawful []) (running_reachable _ _)).2 _ (running_live _) _ rfl
      true 0 (Nat.le_refl 0)).mpr (by decide)

/-- On a server whose id has 256 bytes the caller loses a session as soon as it is opened. -/
theorem long_server_id_loses_session : (running ada).Live (opening ada) ∧
    ¬ Given (primitives []) (context (longId 256)) (running ada)
      ada true (some ((opening ada).token (primitives [])
        (context (longId 256)))) 0 (opening ada) :=
  ⟨running_live _, lost_long (longId_long (Nat.le_refl 256))⟩

end VgiRpc.Sticky
