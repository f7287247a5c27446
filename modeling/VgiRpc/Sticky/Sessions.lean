import VgiRpc.Sticky.Registry

/-!
# Runs of the session registry

Handlers of any callers open and close sessions while requests look them up, the reaper
sweeps, and an operator drains or shuts down, each operation whole under the lock.  A run
remembers every session it opened and how each came to its end, and the registry holds
exactly the sessions that came to none.
-/

namespace VgiRpc.Sticky

open Library List SessionRegistry Http

/-- One session that was opened, and what went into its token. -/
structure Opening (S : Type) where
  auth : AuthContext
  sessionId : SessionId
  state : S
  expiresAt : Nat
  expiresAtUnix : UInt64
  sealedAt : UInt64
  nonce : Nonce

variable {S : Type}

def Opening.entry (opening : Opening S) : SessionEntry S :=
  ⟨opening.state, opening.expiresAt, principalKey opening.auth⟩

def Opening.token (P : SessionPrimitives) (ctx : StickyContext) (opening : Opening S) : String :=
  sealSessionToken P ctx.serverId opening.sessionId opening.expiresAtUnix ctx.tokenKey
    (computeSessionAad opening.auth) opening.sealedAt opening.nonce

/-- The registry at an instant and every session opened before, with the ids of those
that were closed or shut down and of those that were swept or found expired. -/
structure Sessions (S : Type) where
  registry : SessionRegistry S
  clock : Nat
  openings : List (Opening S)
  ended : List SessionId
  evicted : List SessionId

/-- A reading of the clock is taken before the lock is. -/
inductive SessionStep {S : Type} : Sessions S → Sessions S → Prop where
  | tick (run : Sessions S) (later : Nat) (passes : run.clock ≤ later) :
      SessionStep run { run with clock := later }
  /-- The random id of a session is new. -/
  | opened (run : Sessions S) (auth : AuthContext) (state : S) (ttl : Option Nat)
      (readings : OpenReadings) (expiresAtUnix : UInt64) (after : SessionRegistry S)
      (taken : readings.now ≤ run.clock)
      (unused : readings.sessionId ∉ run.openings.map Opening.sessionId)
      (result : run.registry.openSession state ttl (principalKey auth) readings.now
        readings.nowUnix readings.sessionId = .ok (expiresAtUnix, after)) :
      SessionStep run { run with
        registry := after
        openings := ⟨auth, readings.sessionId, state,
          readings.now + ttl.getD run.registry.defaultTtl, expiresAtUnix, readings.sealedAt,
          readings.nonce⟩ :: run.openings }
  | lookup (run : Sessions S) (sessionId : SessionId) (principalKey : String) (now : Nat)
      (taken : now ≤ run.clock) :
      SessionStep run { run with
        registry := (run.registry.get sessionId principalKey now).2
        evicted := run.registry.evictedBy sessionId now ++ run.evicted }
  /-- A handler closes the session it was given or opened, a deletion the one it found. -/
  | closed (run : Sessions S) (sessionId : SessionId)
      (known : sessionId ∈ run.openings.map Opening.sessionId) :
      SessionStep run { run with
        registry := (run.registry.close sessionId).2
        ended := [sessionId] ++ run.ended }
  | swept (run : Sessions S) (now : Nat) (taken : now ≤ run.clock) :
      SessionStep run { run with
        registry := (run.registry.drainExpired now).2
        evicted := run.registry.expired now ++ run.evicted }
  | drain (run : Sessions S) (value : Bool) :
      SessionStep run { run with registry := run.registry.setDraining value }
  | shutdown (run : Sessions S) :
      SessionStep run { run with
        registry := run.registry.shutdown
        ended := run.openings.map Opening.sessionId ++ run.ended }

def sessionSystem (S : Type) (ctx : StickyContext) : TransitionSystem (Sessions S) where
  initial run := ∃ clock, run = ⟨.new ctx.defaultTtl, clock, [], [], []⟩
  step := SessionStep

/-- The registry holds the sessions that were opened and are not over. -/
def Holds (registry : SessionRegistry S) (openings : List (Opening S))
    (finished : SessionId → Prop) : Prop :=
  ∀ sessionId entry, registry.entries.get? sessionId = some entry ↔
    ∃ opening ∈ openings, opening.sessionId = sessionId ∧ opening.entry = entry ∧ ¬ finished sessionId

structure SessionInvariant {S : Type} (run : Sessions S) : Prop where
  distinct : (run.openings.map Opening.sessionId).Nodup
  holds : Holds run.registry run.openings
    fun sessionId => sessionId ∈ run.ended ∨ sessionId ∈ run.evicted
  known : ∀ sessionId, sessionId ∈ run.ended ∨ sessionId ∈ run.evicted →
    sessionId ∈ run.openings.map Opening.sessionId
  expired : ∀ opening ∈ run.openings, opening.sessionId ∈ run.evicted →
    opening.expiresAt < run.clock

section

variable {S : Type} {gone : List SessionId} {now : Nat} {run : Sessions S}
  {after : SessionRegistry S} {openings : List (Opening S)} {finished : SessionId → Prop}

/-- What leaves the registry is over. -/
theorem Holds.without {before : SessionRegistry S} {finishedAfter : SessionId → Prop}
    (holds : Holds before openings finished) (without : SessionRegistry.Without gone before after)
    (covers : ∀ sessionId, finishedAfter sessionId ↔ sessionId ∈ gone ∨ finished sessionId) :
    Holds after openings finishedAfter := by
  intro sessionId entry
  rw [without sessionId]
  split_ifs with member
  · refine iff_of_false (by simp) ?_
    rintro ⟨_, _, _, _, live⟩
    exact live ((covers sessionId).mpr (.inl member))
  · rw [holds sessionId entry]
    simp [covers, member]

variable {sessionId : SessionId}

theorem SessionInvariant.expired_opening (invariant : SessionInvariant run)
    (member : sessionId ∈ run.registry.expired now) :
    ∃ opening ∈ run.openings, opening.sessionId = sessionId ∧ opening.expiresAt < now := by
  obtain ⟨entry, found, passed⟩ := mem_expired.mp member
  obtain ⟨opening, known, named, rfl, _⟩ := (invariant.holds sessionId entry).mp found
  exact ⟨opening, known, named, passed⟩

/-- Sessions that had expired by a reading may leave the registry. -/
theorem SessionInvariant.evict (invariant : SessionInvariant run) (taken : now ≤ run.clock)
    (without : SessionRegistry.Without gone run.registry after)
    (passed : ∀ sessionId ∈ gone, sessionId ∈ run.registry.expired now) :
    SessionInvariant { run with registry := after, evicted := gone ++ run.evicted } where
  distinct := invariant.distinct
  holds := by
    refine invariant.holds.without without fun sessionId => ?_
    simp only [mem_append]
    tauto
  known sessionId member := by
    rcases member with ended | evicted
    · exact invariant.known sessionId (.inl ended)
    · rcases mem_append.mp evicted with gone | evicted
      · obtain ⟨opening, known, rfl, _⟩ := invariant.expired_opening (passed sessionId gone)
        exact mem_map_of_mem known
      · exact invariant.known sessionId (.inr evicted)
  expired opening member evicted := by
    rcases mem_append.mp evicted with gone | evicted
    · obtain ⟨other, known, named, expired⟩ := invariant.expired_opening (passed _ gone)
      have same : other = opening :=
        inj_on_of_nodup_map invariant.distinct known member named
      rw [← same]
      exact Nat.lt_of_lt_of_le expired taken
    · exact invariant.expired opening member evicted

/-- Any known sessions may end. -/
theorem SessionInvariant.finish (invariant : SessionInvariant run)
    (without : SessionRegistry.Without gone run.registry after)
    (known : ∀ sessionId ∈ gone, sessionId ∈ run.openings.map Opening.sessionId) :
    SessionInvariant { run with registry := after, ended := gone ++ run.ended } where
  distinct := invariant.distinct
  holds := by
    refine invariant.holds.without without fun sessionId => ?_
    simp only [mem_append]
    tauto
  known sessionId member := by
    rcases member with ended | evicted
    · rcases mem_append.mp ended with gone | ended
      · exact known sessionId gone
      · exact invariant.known sessionId (.inl ended)
    · exact invariant.known sessionId (.inr evicted)
  expired := invariant.expired

theorem openSession_ok {registry : SessionRegistry S} {state : S} {ttl : Option Nat} {principalKey :
    String} {nowUnix expiresAt : UInt64} (result : registry.openSession state ttl principalKey now
    nowUnix sessionId = .ok (expiresAt, after)) :
    after.entries = registry.entries.insert sessionId
        ⟨state, now + ttl.getD registry.defaultTtl, principalKey⟩ ∧
      expiresAt = nowUnix + UInt64.ofNat (ttl.getD registry.defaultTtl / 10 ^ 9) := by
  unfold openSession at result
  split_ifs at result
  cases result
  exact ⟨rfl, rfl⟩

theorem Holds.insert {before : SessionRegistry S} (holds : Holds before openings finished) (opening
    : Opening S) (inserted : after.entries = before.entries.insert opening.sessionId opening.entry)
    (unused : opening.sessionId ∉ openings.map Opening.sessionId) (live : ¬ finished
    opening.sessionId) : Holds after (opening :: openings) finished := by
  intro sessionId entry
  rw [inserted, OrderedMap.get?_insert]
  by_cases same : sessionId = opening.sessionId
  · subst same
    rw [if_pos rfl]
    constructor
    · intro found
      exact ⟨opening, mem_cons_self .., rfl, Option.some.inj found, live⟩
    · rintro ⟨other, member, named, rfl, _⟩
      rcases mem_cons.mp member with rfl | member
      · rfl
      · exact absurd (named ▸ mem_map_of_mem member) unused
  · rw [if_neg same, holds sessionId entry]
    constructor
    · rintro ⟨other, member, rest⟩
      exact ⟨other, mem_cons_of_mem _ member, rest⟩
    · rintro ⟨other, member, named, rest⟩
      rcases mem_cons.mp member with rfl | member
      · exact absurd named.symm same
      · exact ⟨other, member, named, rest⟩

theorem SessionInvariant.step {run after : Sessions S} (invariant : SessionInvariant run)
    (step : SessionStep run after) : SessionInvariant after := by
  cases step with
  | tick later passes =>
    exact ⟨invariant.distinct, invariant.holds, invariant.known, fun opening member evicted =>
      Nat.lt_of_lt_of_le (invariant.expired opening member evicted) passes⟩
  | opened auth state ttl readings expiresAtUnix registry taken unused result =>
    have live : ¬ (readings.sessionId ∈ run.ended ∨ readings.sessionId ∈ run.evicted) :=
      fun finished => unused (invariant.known _ finished)
    refine ⟨nodup_cons.mpr ⟨unused, invariant.distinct⟩,
      invariant.holds.insert _ (openSession_ok result).1 unused live, ?_, ?_⟩
    · intro sessionId finished
      exact mem_cons_of_mem _ (invariant.known sessionId finished)
    · intro opening member evicted
      rcases mem_cons.mp member with rfl | member
      · exact absurd (.inr evicted) live
      · exact invariant.expired opening member evicted
  | lookup sessionId principalKey now taken =>
    refine invariant.evict taken (run.registry.get_without sessionId principalKey now) ?_
    intro other member
    unfold evictedBy at member
    split at member
    · rename_i passed
      rw [mem_singleton.mp member]
      exact passed
    · cases member
  | closed sessionId known =>
    refine invariant.finish (run.registry.close_without sessionId) ?_
    intro other member
    rw [mem_singleton.mp member]
    exact known
  | swept now taken =>
    exact invariant.evict taken (run.registry.drainExpired_without now) fun _ member => member
  | drain value => exact ⟨invariant.distinct, invariant.holds, invariant.known, invariant.expired⟩
  | shutdown =>
    refine invariant.finish ?_ fun _ member => member
    intro sessionId
    cases found : run.registry.entries.get? sessionId with
    | none => simp [shutdown, OrderedMap.get?_empty]
    | some entry =>
      obtain ⟨opening, member, rfl, _⟩ := (invariant.holds sessionId entry).mp found
      rw [if_pos (mem_map_of_mem member)]
      rfl

theorem sessionInvariant (ctx : StickyContext) :
    (sessionSystem S ctx).Invariant SessionInvariant where
  initial run initial := by
    obtain ⟨clock, rfl⟩ := initial
    refine ⟨nodup_nil, ?_, ?_, ?_⟩
    · intro sessionId entry
      refine iff_of_false (by simp [new, OrderedMap.get?_empty]) ?_
      rintro ⟨opening, member, _⟩
      cases member
    · rintro sessionId (member | member) <;> cases member
    · intro opening member
      cases member
  step _ _ invariant step := invariant.step step

end

end VgiRpc.Sticky
