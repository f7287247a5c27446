import VgiRpc.Http.ResponseCap
import VgiRpc.Sticky.Conversation

/-!
# Client and server agree on the session

Along a run whose steps meet the condition there is at most one live session of the
client, and once the headers of the call in flight are read the client holds its token.
-/

namespace VgiRpc.Sticky

open Arrow List Option Library Http

section

variable {S : Type} {P : SessionPrimitives} {ctx : StickyContext}

/-- What a token was sealed from can be read off it, whether or not it opens. -/
theorem Opening.token_injective (lawful : P.Lawful) {first second : Opening S}
    (caller : first.auth.identity = second.auth.identity)
    (same : first.token P ctx = second.token P ctx) : first.sessionId = second.sessionId := by
  have aad : computeSessionAad first.auth = computeSessionAad second.auth :=
    (computeSessionAad_eq_iff _ _).mpr (caller ▸ Identity.Alike.refl _)
  have raw := congrArg P.base64UrlDecode same
  simp only [Opening.token, sealSessionToken, lawful.base64Url_decode, Option.some.injEq] at raw
  have opened := congrArg
    (openBytes P.toPrimitives · ctx.tokenKey (computeSessionAad first.auth) tokenVersion) raw
  simp only [openBytes_sealBytes lawful.toLawful] at opened
  rw [aad, openBytes_sealBytes lawful.toLawful, Option.some.injEq] at opened
  have fields := congrArg (List.drop 8) opened
  rw [sessionPlaintext_drop, sessionPlaintext_drop] at fields
  have ids := append_cancel_left (List.cons.inj fields).2
  refine SessionId.ext (append_inj ids ?_).1
  rw [first.sessionId.length, second.sessionId.length]

/-- Resolving a request is a lookup of the session it names, or nothing. -/
theorem Sessions.resolved_eq (run : Sessions S) (auth : AuthContext) (header : Option String)
    (now : Nat) :
    run.resolved P ctx auth header now = match namedSession P ctx auth header with
      | none => run
      | some sessionId =>
        { run with
          registry := (run.registry.get sessionId (principalKey auth) now).2
          evicted := run.registry.evictedBy sessionId now ++ run.evicted } := by
  unfold resolved namedSession resolve
  cases shown : presented header with
  | none => rfl
  | some token =>
    simp only [map_some, present]
    cases openSessionToken P token ctx.tokenKey (computeSessionAad auth) with
    | error error => rfl
    | ok session =>
      obtain ⟨serverId, sessionId, expiresAt⟩ := session
      by_cases issued : serverId = ctx.serverId
      · simp only [ne_eq, issued, not_true_eq_false, if_false, if_true, Option.elim]
        cases run.registry.get sessionId (principalKey auth) now with
        | mk found after => cases found <;> rfl
      · simp only [ne_eq, issued, not_false_eq_true, if_true, if_false, Option.elim]
        rfl

variable {now : Nat}

theorem Sessions.resolved_kept {run : Sessions S} (invariant : SessionInvariant run)
    (auth : AuthContext) (header : Option String) (taken : now ≤ run.clock) :
    SessionInvariant (run.resolved P ctx auth header now) := by
  rw [resolved_eq]
  cases namedSession P ctx auth header with
  | none => exact invariant
  | some sessionId => exact invariant.step (.lookup run sessionId _ now taken)

end

section

variable {S : Type}

def Current (talk : Conversation S) (current : Option (Opening S)) : Prop :=
  ∀ opening, current = some opening ↔ opening ∈ talk.own ∧ talk.server.Live opening

variable {current : Option (Opening S)} {now : Nat} {after : Conversation S}

theorem Current.congr {talk : Conversation S} (now : Current talk current) (own : after.own =
    talk.own) (live : ∀ opening ∈ talk.own, after.server.Live opening ↔ talk.server.Live opening) :
    Current after current := by
  intro opening
  rw [now opening, own]
  exact and_congr_right fun member => (live opening member).symm

variable (P : SessionPrimitives) (ctx : StickyContext) (caller : Identity)

/-- A call in flight, whose sink tells of the client's session. -/
structure Waiting (talk : Conversation S) (busy : InFlight S) (current : Option (Opening S)) :
    Prop where
  alike : busy.auth.identity = caller
  aad : busy.sink.aad = computeSessionAad busy.auth
  key : busy.sink.principalKey = principalKey busy.auth
  state : busy.sink.currentState.isSome = current.isSome
  headers : processSessionHeaders talk.token (stampSessionHeaders busy.sink) =
    current.map (·.token P ctx)
  named : ∀ opening, current = some opening →
    busy.sink.currentSid = some (bytesToHex opening.sessionId.bytes)
  known : ∀ text, busy.sink.currentSid = some text →
    ∃ opening ∈ talk.own, text = bytesToHex opening.sessionId.bytes
  fresh : ∀ text, busy.sink.mintToken = some text → talk.token ≠ some text

/-- Between calls the client holds the token of its live session. -/
def Phase (talk : Conversation S) (current : Option (Opening S)) : Prop :=
  match talk.call with
  | none => talk.token = current.map (·.token P ctx)
  | some busy => Waiting P ctx caller talk busy current

/-- The client's sessions were opened under its identity, and its token is one of theirs. -/
structure Owned (talk : Conversation S) : Prop where
  sessions : SessionInvariant talk.server
  own : talk.own ⊆ talk.server.openings
  alike : ∀ opening ∈ talk.own, opening.auth.identity = caller
  held : ∀ text, talk.token = some text → ∃ opening ∈ talk.own, text = opening.token P ctx

structure Kept (talk : Conversation S) : Prop extends owned : Owned P ctx caller talk where
  phase : ∃ current, Current talk current ∧ Phase P ctx caller talk current

variable {P ctx caller} {talk : Conversation S}

/-- Two sessions of the client do not share a token. -/
theorem Owned.token_injective (lawful : P.Lawful) (owned : Owned P ctx caller talk)
    {first second : Opening S} (one : first ∈ talk.own) (two : second ∈ talk.own)
    (same : first.token P ctx = second.token P ctx) : first = second := by
  have alike : first.auth.identity = second.auth.identity :=
    (owned.alike first one).trans (owned.alike second two).symm
  exact inj_on_of_nodup_map owned.sessions.distinct (owned.own one) (owned.own two)
    (Opening.token_injective lawful alike same)

theorem Owned.agreement_iff (lawful : P.Lawful) (owned : Owned P ctx caller talk)
    (now : Current talk current) :
    Agreement P ctx talk ↔ talk.token = current.map (·.token P ctx) := by
  constructor
  · rintro ⟨tokens, held⟩
    cases current with
    | some opening =>
      obtain ⟨member, live⟩ := (now opening).mp rfl
      exact (tokens opening member).mpr live
    | none =>
      cases text : talk.token with
      | none => rfl
      | some text' =>
        obtain ⟨opening, member, rfl⟩ := held text' text
        cases (now opening).mpr ⟨member, (tokens opening member).mp text⟩
  · intro same
    refine ⟨fun opening member => ?_, owned.held⟩
    constructor
    · intro token
      obtain ⟨other, there, equal⟩ := map_eq_some_iff.mp (same.symm.trans token)
      obtain ⟨own, live⟩ := (now other).mp there
      rw [← owned.token_injective lawful own member equal]
      exact live
    · intro live
      rw [same, (now opening).mpr ⟨member, live⟩]
      rfl

/-! ## Steps -/

theorem Waiting.congr {busy : InFlight S} (waiting : Waiting P ctx caller talk busy current)
    (own : after.own = talk.own) (token : after.token = talk.token) :
    Waiting P ctx caller after busy current :=
  { waiting with
    headers := token ▸ waiting.headers
    known := own ▸ waiting.known
    fresh := token ▸ waiting.fresh }

/-- A step that touches neither the client nor its sessions. -/
theorem Kept.server (kept : Kept P ctx caller talk) {after : Sessions S}
    (sessions : SessionInvariant after) (grows : talk.server.openings ⊆ after.openings)
    (live : ∀ opening ∈ talk.own, after.Live opening ↔ talk.server.Live opening) :
    Kept P ctx caller { talk with server := after } := by
  obtain ⟨current, now, phase⟩ := kept.phase
  refine ⟨⟨sessions, fun _ member => grows (kept.own member), kept.alike, kept.held⟩, current,
    now.congr rfl live, ?_⟩
  unfold Phase at phase ⊢
  dsimp only
  cases busy : talk.call with
  | none => rw [busy] at phase; exact phase
  | some call => rw [busy] at phase; exact phase.congr rfl rfl

theorem Kept.elsewhere (kept : Kept P ctx caller talk) {after : Sessions S} (step : SessionStep
    talk.server after) (spared : ∀ opening ∈ talk.own, talk.server.Live opening → opening.sessionId
    ∉ after.ended ∧ after.clock ≤ opening.expiresAt) :
    Kept P ctx caller { talk with server := after } := by
  obtain ⟨openings, ended, -⟩ := step.grows
  have passes : talk.server.clock ≤ after.clock := by
    cases step with
    | tick later passes => exact passes
    | opened | lookup | closed | swept | drain | shutdown => exact Nat.le_refl _
  refine kept.server (kept.sessions.step step) openings fun opening member => ?_
  constructor
  · rintro ⟨-, unended, unexpired⟩
    exact ⟨kept.own member, fun finished => unended (ended finished), Nat.le_trans passes unexpired⟩
  · intro live
    obtain ⟨unended, unexpired⟩ := spared opening member live
    exact ⟨openings live.1, unended, unexpired⟩

theorem Kept.turnedAway (kept : Kept P ctx caller talk) (auth : AuthContext)
    (taken : now ≤ talk.server.clock) :
    Kept P ctx caller { talk with server := talk.server.resolved P ctx auth talk.token now } :=
  kept.server (Sessions.resolved_kept kept.sessions auth talk.token taken) (List.Subset.refl _)
    fun _ _ => Iff.rfl

variable {auth : AuthContext} {sink : StickySink S} {registry : SessionRegistry S}

/-- A call that presents the token of its live session is given that session. -/
theorem resolve_current (lawful : P.Lawful) {opening : Opening S}
    (alike : auth.identity = opening.auth.identity)
    (found : (resolve P ctx auth true (some (opening.token P ctx)) now registry).1 = .sink sink) :
    ∃ state, sink = newSink auth true (some (state, opening.sessionId)) := by
  have opens := opening.token_opens lawful ctx
  have aad : computeSessionAad auth = computeSessionAad opening.auth :=
    (computeSessionAad_eq_iff _ _).mpr (alike ▸ Identity.Alike.refl _)
  rw [← aad] at opens
  rw [resolve_presented (presented_token lawful opening)] at found
  cases given : (present P ctx auth (opening.token P ctx) now registry).1 with
  | error error => rw [given] at found; cases found
  | ok session =>
    obtain ⟨state, sessionId⟩ := session
    rw [given] at found
    cases found
    obtain ⟨⟨expiresAt, ok⟩, -⟩ := present_eq_ok_iff.mp given
    rw [opens] at ok
    split_ifs at ok
    cases ok
    exact ⟨state, rfl⟩

theorem Kept.begun (lawful : P.Lawful) (kept : Kept P ctx caller talk) (idle : talk.call = none)
    (known : auth.identity = caller) (taken : now ≤ talk.server.clock)
    (found : (resolve P ctx auth true talk.token now talk.server.registry).1 = .sink sink) :
    Kept P ctx caller { talk with
        server := talk.server.resolved P ctx auth talk.token now
        call := some ⟨auth, sink⟩ } := by
  obtain ⟨current, there, phase⟩ := kept.phase
  unfold Phase at phase
  rw [idle] at phase
  refine ⟨⟨Sessions.resolved_kept kept.sessions auth talk.token taken, kept.own, kept.alike,
    kept.held⟩, current, there.congr rfl fun _ _ => Iff.rfl, ?_⟩
  show Waiting P ctx caller _ ⟨auth, sink⟩ current
  cases current with
  | none =>
    rw [phase, map_none, resolve_unpresented rfl] at found
    cases found
    exact ⟨known, rfl, rfl, rfl, phase, nofun, nofun, nofun⟩
  | some opening =>
    obtain ⟨member, -⟩ := (there opening).mp rfl
    rw [phase, map_some] at found
    obtain ⟨state, rfl⟩ :=
      resolve_current lawful (known.trans (kept.alike opening member).symm) found
    refine ⟨known, rfl, rfl, rfl, phase, ?_, ?_, nofun⟩
    · rintro _ ⟨⟩
      rfl
    · rintro _ ⟨⟩
      exact ⟨opening, member, rfl⟩

/-- A handler opens a session only when the client has no live one. -/
theorem Kept.opened (lawful : P.Lawful) (kept : Kept P ctx caller talk) {sink after : StickySink S}
    {state : S} {ttl : Option Nat} {readings : OpenReadings} (busy : talk.call = some ⟨auth, sink⟩)
    (taken : readings.now ≤ talk.server.clock) (unused : readings.sessionId ∉
    talk.server.openings.map Opening.sessionId) (result : sink.handlerOpen P ctx state ttl readings
    talk.server.registry = .ok (after, registry)) (lasting : talk.server.clock ≤ readings.now +
    ttl.getD talk.server.registry.defaultTtl) :
    Kept P ctx caller { talk with
        server := { talk.server with
          registry := registry
          openings := talk.server.opening auth state ttl readings :: talk.server.openings }
        own := talk.server.opening auth state ttl readings :: talk.own
        call := some ⟨auth, after⟩ } := by
  obtain ⟨current, there, phase⟩ := kept.phase
  unfold Phase at phase
  rw [busy] at phase
  unfold StickySink.handlerOpen at result
  split_ifs at result with _ free
  obtain ⟨⟨expiresAt, registry⟩, stored, made⟩ := exceptBind_eq_ok result
  cases made
  obtain rfl := (openSession_ok stored).2
  obtain rfl : current = none := by
    have absent := phase.state
    rw [not_isSome_iff_eq_none.mp free] at absent
    exact isNone_iff_eq_none.mp (isSome_eq_false_iff.mp absent.symm)
  rw [phase.key] at stored
  have token : sealSessionToken P ctx.serverId readings.sessionId
      (readings.nowUnix + UInt64.ofNat (ttl.getD talk.server.registry.defaultTtl / 10 ^ 9))
      ctx.tokenKey sink.aad readings.sealedAt readings.nonce =
      (talk.server.opening auth state ttl readings).token P ctx := by
    rw [phase.aad]
    rfl
  have finished : readings.sessionId ∉ talk.server.ended := fun ended =>
    unused (kept.sessions.known _ (.inl ended))
  refine ⟨⟨kept.sessions.step (.opened talk.server auth state ttl readings _ registry taken unused
    stored), cons_subset_cons _ kept.own, ?_, ?_⟩,
    some (talk.server.opening auth state ttl readings), ?_, ?_⟩
  · exact forall_mem_cons.mpr ⟨phase.alike, kept.alike⟩
  · intro text held
    obtain ⟨opening, member, same⟩ := kept.held text held
    exact ⟨opening, mem_cons_of_mem _ member, same⟩
  · intro opening
    constructor
    · rintro ⟨⟩
      exact ⟨mem_cons_self, mem_cons_self, finished, lasting⟩
    · rintro ⟨member, -, unended, unexpired⟩
      rcases mem_cons.mp member with rfl | member
      · rfl
      · cases (there opening).mpr ⟨member, kept.own member, unended, unexpired⟩
  · refine ⟨phase.alike, phase.aad, phase.key, rfl, congrArg some token, ?_, ?_, ?_⟩
    · rintro _ ⟨⟩
      rfl
    · rintro _ ⟨⟩
      exact ⟨_, mem_cons_self, rfl⟩
    · rintro _ ⟨⟩ held
      obtain ⟨opening, member, same⟩ := kept.held _ held
      have ids : readings.sessionId = opening.sessionId := Opening.token_injective lawful
        (phase.alike.trans (kept.alike opening member).symm) (token.symm.trans same)
      exact unused (ids ▸ mem_map_of_mem (kept.own member))

theorem Sessions.closing_kept {run : Sessions S} (invariant : SessionInvariant run) (known : ∀ text,
    sink.currentSid = some text → ∃ opening ∈ run.openings, text = bytesToHex
    opening.sessionId.bytes) :
    SessionInvariant (run.closing sink) := by
  unfold closing StickySink.close
  cases named : sink.currentSid with
  | none => exact invariant
  | some text =>
    obtain ⟨opening, member, rfl⟩ := known text named
    simp only [bind_some, hexToSid_bytesToHex]
    exact invariant.step (.closed run opening.sessionId (mem_map_of_mem member))

/-- Once a handler has closed its session the client has no live one. -/
theorem Kept.closed (kept : Kept P ctx caller talk) (busy : talk.call = some ⟨auth, sink⟩) :
    Kept P ctx caller { talk with
        server := talk.server.closing sink
        call := some ⟨auth, (sink.close talk.server.registry).1⟩ } := by
  obtain ⟨current, there, phase⟩ := kept.phase
  unfold Phase at phase
  rw [busy] at phase
  have sessions : SessionInvariant (talk.server.closing sink) := by
    refine Sessions.closing_kept kept.sessions fun text named => ?_
    obtain ⟨opening, member, same⟩ := phase.known text named
    exact ⟨opening, kept.own member, same⟩
  refine ⟨⟨sessions, kept.own, kept.alike, kept.held⟩, none, ?_, ?_⟩
  · intro opening
    refine iff_of_false nofun ?_
    rintro ⟨member, opened, unended, unexpired⟩
    have ended : opening.sessionId ∉ talk.server.ended := fun ended =>
      unended (mem_append_right _ ended)
    have named := phase.named opening ((there opening).mpr ⟨member, opened, ended, unexpired⟩)
    refine unended (mem_append_left _ ?_)
    rw [named, bind_some, hexToSid_bytesToHex]
    exact mem_singleton_self _
  · exact ⟨phase.alike, phase.aad, phase.key, rfl, rfl, nofun, phase.known, phase.fresh⟩

section

variable {A : ArrowIpc} {σ : Type}

def tokenAfter (talk : Conversation S) (sink : StickySink S) (call : HttpCall A σ)
    (received : Bool) : Option String :=
  if received then processSessionHeaders talk.token (call.headers sink) else talk.token

variable {sink : StickySink S} {auth : AuthContext} {call : HttpCall A σ} {received : Bool}

theorem tokenAfter_carried (stamped : call.stamped = true ∧ received = true) :
    tokenAfter talk sink call received =
      processSessionHeaders talk.token (stampSessionHeaders sink) := by
  rw [tokenAfter, if_pos stamped.2, HttpCall.headers, if_pos stamped.1]

theorem tokenAfter_lost (lost : ¬ (call.stamped = true ∧ received = true)) :
    tokenAfter talk sink call received = talk.token := by
  unfold tokenAfter
  split
  · next got =>
    rw [HttpCall.headers, if_neg fun stamped => lost ⟨stamped, got⟩]
    rfl
  · rfl

variable {current : Option (Opening S)}

/-- A call whose headers are lost does no harm exactly when it was quiet. -/
theorem Waiting.quiet_iff (waiting : Waiting P ctx caller talk ⟨auth, sink⟩ current) :
    talk.token = current.map (·.token P ctx) ↔ Quiet sink talk.token := by
  have state := waiting.state
  have headers := waiting.headers
  have fresh := waiting.fresh
  unfold Quiet
  cases current with
  | none =>
    have absent : sink.currentState.isSome = false := state
    rw [absent]
    exact Iff.rfl
  | some opening =>
    have there : sink.currentState.isSome = true := state
    have unclosed : ¬ sink.closed = true := fun closed => by
      rw [processSessionHeaders, stampSessionHeaders, if_pos closed] at headers
      cases headers
    rw [if_pos there]
    rw [processSessionHeaders, stampSessionHeaders, if_neg unclosed] at headers
    dsimp only at headers
    cases minted : sink.mintToken with
    | none =>
      rw [minted] at headers
      exact iff_of_true headers rfl
    | some text =>
      rw [minted] at headers
      refine iff_of_false (fun same => fresh text minted ?_) nofun
      rw [same, ← headers]

theorem Waiting.tokenAfter_iff (busy : talk.call = some ⟨auth, sink⟩) (waiting : Waiting P ctx
    caller talk ⟨auth, sink⟩ current) (call : HttpCall A σ) (received : Bool) :
    tokenAfter talk sink call received = current.map (·.token P ctx) ↔
      Meets talk (.responded call received : Event S A σ) := by
  unfold Meets
  rw [busy]
  by_cases carried : call.stamped = true ∧ received = true
  · rw [tokenAfter_carried carried]
    exact iff_of_true waiting.headers fun _ _ => .inl carried
  · rw [tokenAfter_lost carried, waiting.quiet_iff]
    simp [carried, forall_eq']

/-- Whatever becomes of the headers, the client holds no token but one of its own. -/
theorem Kept.responded_owned (kept : Kept P ctx caller talk) (there : Current talk current) (waiting
    : Waiting P ctx caller talk ⟨auth, sink⟩ current) (call : HttpCall A σ) (received : Bool) :
    Owned P ctx caller { talk with token := tokenAfter talk sink call received, call := none } := by
  refine ⟨kept.sessions, kept.own, kept.alike, fun text held => ?_⟩
  dsimp only at held ⊢
  by_cases carried : call.stamped = true ∧ received = true
  · rw [tokenAfter_carried carried, waiting.headers] at held
    obtain ⟨opening, same, rfl⟩ := map_eq_some_iff.mp held
    exact ⟨opening, ((there opening).mp same).1, rfl⟩
  · rw [tokenAfter_lost carried] at held
    exact kept.held text held

/-- After a response client and server agree exactly when the response met the
condition. -/
theorem Kept.responded (lawful : P.Lawful) (kept : Kept P ctx caller talk)
    (busy : talk.call = some ⟨auth, sink⟩) (call : HttpCall A σ) (received : Bool) :
    (Agreement P ctx { talk with token := tokenAfter talk sink call received, call := none } ↔
      Meets talk (.responded call received : Event S A σ)) ∧
    (Meets talk (.responded call received : Event S A σ) → Kept P ctx caller
        { talk with token := tokenAfter talk sink call received, call := none }) := by
  obtain ⟨current, there, phase⟩ := kept.phase
  unfold Phase at phase
  rw [busy] at phase
  have owned := kept.responded_owned there phase call received
  have now : Current { talk with token := tokenAfter talk sink call received, call := none }
      current := there.congr rfl fun _ _ => Iff.rfl
  have met := Waiting.tokenAfter_iff busy phase call received
  exact ⟨(owned.agreement_iff lawful now).trans met,
    fun meets => ⟨owned, current, now, met.mpr meets⟩⟩

theorem Kept.step (lawful : P.Lawful) (kept : Kept P ctx caller talk) {event : Event S A σ}
    {after : Conversation S} (step : Step P ctx caller talk event after)
    (meets : Meets talk event) : Kept P ctx caller after := by
  cases step with
  | elsewhere step => exact kept.elsewhere step meets
  | turnedAway idle known taken => exact kept.turnedAway _ taken
  | begun idle known taken found => exact kept.begun lawful idle known taken found
  | opened busy taken unused result =>
    exact kept.opened lawful busy taken unused result meets
  | closed busy => exact kept.closed busy
  | responded busy call received => exact (kept.responded lawful busy call received).2 meets

theorem Starts.kept (starts : Starts P ctx caller talk) : Kept P ctx caller talk := by
  obtain ⟨reachable, idle, resumed, own, token, live⟩ := starts
  refine ⟨⟨(sessionInvariant ctx).reachable reachable, ?_, ?_, ?_⟩, resumed, ?_, ?_⟩
  · intro opening member
    rw [own] at member
    exact (live opening (mem_toList.mp member)).1.1
  · intro opening member
    rw [own] at member
    exact (live opening (mem_toList.mp member)).2
  · intro text held
    obtain ⟨opening, same, rfl⟩ := map_eq_some_iff.mp (token.symm.trans held)
    exact ⟨opening, by rw [own, same]; exact mem_singleton_self _, rfl⟩
  · intro opening
    rw [own, mem_toList]
    exact ⟨fun same => ⟨same, (live opening same).1⟩, fun held => held.1⟩
  · unfold Phase
    rw [idle]
    exact token

theorem conversation_kept (lawful : P.Lawful) :
    (conversationSystem P ctx A σ caller).Invariant (Kept P ctx caller (S := S)) where
  initial _ starts := starts.kept
  step _ _ kept stepped := by
    obtain ⟨event, step, meets⟩ := stepped
    exact kept.step lawful step meets

end

end

namespace Sample

open Http.Dispatch.SampleServer (server origin mint)
open Server.Sample (tables counting)

def worker : StickyContext := context "worker-1"

def readings : OpenReadings := ⟨0, 0, sessionId, 0, ⟨.replicate 24 0, nonce_length⟩⟩

def sessionToken : String := (opening ada).token (primitives []) worker

def silent : Conversation Nat := ⟨⟨.new 10, 0, [], [], []⟩, none, [], none⟩

def emptySink : StickySink Nat := newSink ada true none

def openSink : StickySink Nat :=
  { emptySink with
    currentState := some 5
    currentSid := some (bytesToHex sessionId.bytes)
    mintToken := some sessionToken }

def calling : Conversation Nat := { silent with call := some ⟨ada, emptySink⟩ }

/-- The handler of the call has opened a session. -/
def holding : Conversation Nat := ⟨running ada, none, [opening ada], some ⟨ada, openSink⟩⟩

variable {A : ArrowIpc} {σ : Type}

theorem silent_calls :
    Step (primitives []) worker ada.identity silent (.begun ada 0 : Event Nat A σ) calling :=
  .begun rfl rfl (Nat.le_refl 0) rfl

theorem emptySink_opens :
    emptySink.handlerOpen (primitives []) worker 5 none readings calling.server.registry =
      .ok (openSink, (running ada).registry) := by
  simp [StickySink.handlerOpen, StickySink.openSession, SessionRegistry.openSession, emptySink,
    openSink, newSink, calling, silent, SessionRegistry.new, readings, running, opening,
    Opening.entry, sessionToken, Opening.token, worker, context]

theorem calling_holds :
    Step (primitives []) worker ada.identity calling (.opened 5 none readings : Event Nat A σ)
      holding := by
  have made : calling.server.opening ada 5 none readings = opening ada := by
    simp [Sessions.opening, calling, silent, SessionRegistry.new, opening, readings]
  have step : Step (primitives []) worker ada.identity calling
      (.opened 5 none readings : Event Nat A σ) _ :=
    .opened rfl (Nat.le_refl 0) not_mem_nil emptySink_opens
  rw [made] at step
  exact step

def failing : HttpCall tables Nat where
  server := server
  origin := origin
  accepted := none
  request := .init (mint (.ok "cursor"))
    ⟨.empty, [], .returned (.error (.valueError "no such table")), counting⟩ .empty

def succeeding : HttpCall tables Nat where
  server := server
  origin := origin
  accepted := none
  request := .unary ⟨.empty, [], none, .returned (.ok none)⟩

end Sample

end VgiRpc.Sticky
