import VgiRpc.Sticky.Lifetime

/-!
# Operations in two steps

Opening a session reads the drain flag before it takes the lock, and a deletion takes the
lock twice, to look the session up and to remove it.  Between the two steps there may be
any of other requests, of the reaper and of the operator.
-/

namespace VgiRpc.Sticky

open Library SessionRegistry Http
open Relation (ReflTransGen)

/-- What lookups, handlers and the reaper do to the registry under the lock. -/
inductive Removal {S : Type} : SessionRegistry S → SessionRegistry S → Prop where
  | lookup (registry : SessionRegistry S) (sessionId : SessionId) (principalKey : String)
      (now : Nat) : Removal registry (registry.get sessionId principalKey now).2
  | close (registry : SessionRegistry S) (sessionId : SessionId) :
      Removal registry (registry.close sessionId).2
  | sweep (registry : SessionRegistry S) (now : Nat) :
      Removal registry (registry.drainExpired now).2

section

variable {S : Type} {before after : SessionRegistry S}

theorem Removal.draining (removal : Removal before after) : after.draining = before.draining := by
  cases removal with
  | lookup sessionId key now =>
    unfold SessionRegistry.get
    cases before.entries.get? sessionId with
    | none => rfl
    | some entry =>
      dsimp only
      split
      · rfl
      · split <;> rfl
  | close => rfl
  | sweep => rfl

theorem Removal.absent (removal : Removal before after) {sessionId : SessionId}
    (gone : before.entries.get? sessionId = none) : after.entries.get? sessionId = none := by
  have kept {list : List SessionId} (without : SessionRegistry.Without list before after) :
      after.entries.get? sessionId = none := by
    rw [without sessionId, gone, ite_self]
  cases removal with
  | lookup => exact kept (get_without _ _ _ _)
  | close => exact kept (close_without _ _)
  | sweep => exact kept (drainExpired_without _ _)

end

/-- An open that has found the flag down, with what it is about to insert. -/
structure PassedOpen (S : Type) where
  sessionId : SessionId
  entry : SessionEntry S

/-- The registry, the opens between their two steps, and the sessions registered so far. -/
structure Shared (S : Type) where
  registry : SessionRegistry S
  passed : List (PassedOpen S)
  registered : List SessionId

section

variable {S : Type} (registry : SessionRegistry S)

def SessionRegistry.insertSession (opening : PassedOpen S) : SessionRegistry S :=
  { registry with entries := registry.entries.insert opening.sessionId opening.entry }

/-- With nothing between them the two steps are an open. -/
theorem openSession_eq (state : S) (ttl : Option Nat)
    (key : String) (now : Nat) (nowUnix : UInt64) (sessionId : SessionId) :
    registry.openSession state ttl key now nowUnix sessionId = if registry.draining then
        .error (.serverDrainingError "server is draining — new sessions are rejected")
      else
        .ok (nowUnix + UInt64.ofNat (ttl.getD registry.defaultTtl / 10 ^ 9),
          registry.insertSession ⟨sessionId, state, now + ttl.getD registry.defaultTtl, key⟩) :=
  rfl

variable (shared : Shared S)

def Shared.drain : Shared S :=
  { shared with registry := shared.registry.setDraining true }

def Shared.shutdown : Shared S :=
  { shared with registry := shared.registry.shutdown }

/-- The flag is never lowered; an open that finds it up changes nothing. -/
inductive OpenStep : Shared S → Shared S → Prop where
  | pass {shared : Shared S} (opening : PassedOpen S) (down : shared.registry.draining = false) :
      OpenStep shared { shared with passed := opening :: shared.passed }
  | insert {shared : Shared S} (first : List (PassedOpen S)) {last : List (PassedOpen S)}
      {opening : PassedOpen S}
      (due : shared.passed = first ++ opening :: last) :
      OpenStep shared
        { registry := shared.registry.insertSession opening
          passed := first ++ last
          registered := opening.sessionId :: shared.registered }
  | removal {shared : Shared S} {after : SessionRegistry S} (made : Removal shared.registry after) :
      OpenStep shared { shared with registry := after }
  | drain (shared : Shared S) : OpenStep shared shared.drain
  | shutdown (shared : Shared S) : OpenStep shared shared.shutdown

/-- The flag is up and no open is under way. -/
structure Shared.Quiet (registered : List SessionId) (shared : Shared S) : Prop where
  draining : shared.registry.draining = true
  passed : shared.passed = []
  registered : shared.registered = registered

def Shared.Empty : Prop :=
  ∀ sessionId, shared.registry.entries.get? sessionId = none

variable {registered : List SessionId} {shared later : Shared S}

theorem Shared.Quiet.step (quiet : shared.Quiet registered) (step : OpenStep shared later) :
    later.Quiet registered ∧ (shared.Empty → later.Empty) := by
  cases step with
  | pass opening down =>
    rw [quiet.draining] at down
    cases down
  | insert first due =>
    rw [quiet.passed] at due
    exact absurd due (by simp)
  | removal made =>
    exact ⟨⟨made.draining.trans quiet.draining, quiet.passed, quiet.registered⟩,
      fun empty sessionId => made.absent (empty sessionId)⟩
  | drain => exact ⟨⟨rfl, quiet.passed, quiet.registered⟩, id⟩
  | shutdown => exact ⟨⟨quiet.draining, quiet.passed, quiet.registered⟩, fun _ => OrderedMap.get?_empty⟩

theorem Shared.Quiet.run (quiet : shared.Quiet registered)
    (run : ReflTransGen OpenStep shared later) :
    later.Quiet registered ∧ (shared.Empty → later.Empty) := by
  induction run with
  | refl => exact ⟨quiet, id⟩
  | tail _ step ih =>
    obtain ⟨kept, empty⟩ := ih.1.step step
    exact ⟨kept, empty ∘ ih.2⟩

/-- After a drain nothing is registered, and the registry stays empty once it is shut down,
exactly when no open was between its two steps at the drain. -/
theorem drain_final_iff (shared : Shared S) :
    (∀ later, ReflTransGen OpenStep shared.drain later → later.registered = shared.registered ∧
      ∀ last, ReflTransGen OpenStep later.shutdown last → last.Empty) ↔ shared.passed = [] := by
  constructor
  · intro final
    cases passed : shared.passed with
    | nil => rfl
    | cons opening rest =>
      have grown := (final _ (.single (.insert [] passed))).1
      exact absurd grown (List.cons_ne_self _ _)
  · intro none later run
    have quiet : shared.drain.Quiet shared.registered := ⟨rfl, none, rfl⟩
    have after := (quiet.run run).1
    refine ⟨after.registered, fun last more => ?_⟩
    obtain ⟨still, empty⟩ := after.step (.shutdown later)
    exact (still.run more).2 (fun _ => OrderedMap.get?_empty _)

end

namespace Sample

def opened : PassedOpen Unit := ⟨sessionId, (), 60, "ada"⟩

/-- The flag is down, and one open has seen it. -/
def racing : Shared Unit := ⟨.new 60, [opened], []⟩

end Sample

open Sample in
/-- An open that saw the flag down registers its session behind the drain and the shutdown. -/
theorem open_outlives_shutdown : ReflTransGen OpenStep ⟨.new 60, [], []⟩ racing ∧
      ReflTransGen OpenStep racing.drain.shutdown
        ⟨racing.drain.shutdown.registry.insertSession opened, [], [sessionId]⟩ ∧
      (racing.drain.shutdown.registry.insertSession opened).entries.get? sessionId =
        some opened.entry :=
  ⟨.single (.pass opened rfl), .single (.insert [] rfl), OrderedMap.get?_insert_self _ _ _⟩

/-- The registry, the number of deletions that have found the session and not yet removed
it, and what each of the others reported, with whether it removed the session. -/
structure Deletions (S : Type) where
  registry : SessionRegistry S
  found : Nat
  reports : List (DeleteOutcome × Bool)

section

variable {S : Type}

inductive DeleteStep (sessionId : SessionId) : Deletions S → Deletions S → Prop where
  | find {deletions : Deletions S} (key : String) (now : Nat)
      (live : ((deletions.registry.get sessionId key now).1).isSome) :
      DeleteStep sessionId deletions { deletions with found := deletions.found + 1 }
  | miss {deletions : Deletions S} {key : String} {now : Nat}
      (lost : (deletions.registry.get sessionId key now).1 = none) :
      DeleteStep sessionId deletions
        { deletions with
          registry := (deletions.registry.get sessionId key now).2
          reports := (.idempotent, false) :: deletions.reports }
  /-- What the removal finds does not matter to the report. -/
  | close {deletions : Deletions S} (found : Nat) (due : deletions.found = found + 1) :
      DeleteStep sessionId deletions
        { registry := (deletions.registry.close sessionId).2
          found := found
          reports := (.closed, (deletions.registry.close sessionId).1) :: deletions.reports }
  | other {deletions : Deletions S} {after : SessionRegistry S}
      (made : Removal deletions.registry after) :
      DeleteStep sessionId deletions { deletions with registry := after }

/-- With nothing between them the two steps are a deletion. -/
theorem handleDelete_run (P : SessionPrimitives) (ctx : StickyContext) {auth : AuthContext} {header
    : Option String} {token : String} {sessionId : SessionId} {expiresAt : UInt64} (now : Nat)
    (registry : SessionRegistry S) (shown : presented header = some token) (opened :
    openSessionToken P token ctx.tokenKey (computeSessionAad auth) = .ok (ctx.serverId, sessionId,
    expiresAt)) :
    ∃ hit, ReflTransGen (DeleteStep sessionId) ⟨registry, 0, []⟩
      ⟨(handleDelete P ctx auth header now registry).2, 0,
        [((handleDelete P ctx auth header now registry).1, hit)]⟩ := by
  rw [handleDelete, shown]
  simp only [present, opened, ne_eq, not_true, if_false]
  cases looked : registry.get sessionId (principalKey auth) now with
  | mk found after =>
    have first : (registry.get sessionId (principalKey auth) now).1 = found := by rw [looked]
    have second : (registry.get sessionId (principalKey auth) now).2 = after := by rw [looked]
    cases found with
    | none =>
      rw [← second]
      exact ⟨false, .single (.miss first)⟩
    | some state =>
      rw [← second, get_found first]
      exact ⟨_, .head (.find _ now (by rw [first]; rfl)) (.single (.close 0 rfl))⟩

variable (sessionId : SessionId)

def Deletions.Present (deletions : Deletions S) : Prop :=
  (deletions.registry.entries.get? sessionId).isSome

/-- Who reports that it closed the session removed it, and there is at most one. -/
structure Deletions.Right (deletions : Deletions S) : Prop where
  removed : ∀ hit, (DeleteOutcome.closed, hit) ∈ deletions.reports → hit = true
  one : (deletions.reports.filter (·.1 = .closed)).length ≤ 1

/-- A step that takes the session away leaves no deletion behind that has found it. -/
def AloneStep (deletions after : Deletions S) : Prop :=
  DeleteStep sessionId deletions after ∧
    (deletions.Present sessionId → ¬ after.Present sessionId → after.found = 0)

variable {sessionId : SessionId} {deletions after : Deletions S} {registry : SessionRegistry S}
  {found : Nat}

theorem Deletions.Right.miss (right : deletions.Right) :
    (⟨registry, found, (.idempotent, false) :: deletions.reports⟩ : Deletions S).Right where
  removed hit member := by
    rcases List.mem_cons.mp member with same | known
    · cases same
    · exact right.removed hit known
  one := right.one

theorem removal_present (made : Removal deletions.registry registry) {reports : List (DeleteOutcome
    × Bool)} (present : (⟨registry, found, reports⟩ : Deletions S).Present sessionId) :
    deletions.Present sessionId := by
  rw [Deletions.Present, Option.isSome_iff_ne_none] at present ⊢
  exact fun gone => present (made.absent gone)

/-- The session that some deletion has found is there, and while it is nobody has closed it. -/
structure Deletions.Fair (sessionId : SessionId) (deletions : Deletions S) : Prop where
  found : deletions.found ≠ 0 → deletions.Present sessionId
  unclosed : deletions.Present sessionId → deletions.reports.filter (·.1 = .closed) = []
  right : deletions.Right

theorem Deletions.Fair.step (fair : deletions.Fair sessionId)
    (step : AloneStep sessionId deletions after) : after.Fair sessionId := by
  obtain ⟨step, alone⟩ := step
  have left (made : Removal deletions.registry after.registry) (same : after.found = deletions.found) :
      after.found ≠ 0 → after.Present sessionId := by
    intro found
    by_contra gone
    exact found (alone (fair.found (same ▸ found)) gone)
  cases step with
  | find key now live =>
    refine ⟨fun _ => ?_, fair.unclosed, fair.right.1, fair.right.2⟩
    obtain ⟨state, found⟩ := Option.isSome_iff_exists.mp live
    obtain ⟨entry, present, -⟩ := get_eq_some_iff.mp found
    exact Option.isSome_iff_exists.mpr ⟨entry, present⟩
  | miss lost =>
    exact ⟨left (.lookup ..) rfl, fun present => fair.unclosed (removal_present (.lookup ..) present),
      fair.right.miss⟩
  | close found due =>
    have present : deletions.Present sessionId := fair.found (by omega)
    have gone : ¬ Deletions.Present sessionId ⟨(deletions.registry.close sessionId).2, found,
        (.closed, (deletions.registry.close sessionId).1) :: deletions.reports⟩ := by
      simp [Deletions.Present, close, OrderedMap.get?_remove]
    refine ⟨fun others => absurd (alone present gone) others, fun still => absurd still gone,
      fun hit member => ?_, ?_⟩
    · rcases List.mem_cons.mp member with same | known
      · cases same
        exact present
      · exact fair.right.removed hit known
    · rw [List.filter_cons_of_pos (by rfl), fair.unclosed present]
      rfl
  | other made =>
    exact ⟨left made rfl, fun present => fair.unclosed (removal_present made present),
      fair.right.1, fair.right.2⟩

theorem gone_step (right : deletions.Right) (none : deletions.found = 0)
    (gone : ¬ deletions.Present sessionId) (step : DeleteStep sessionId deletions after) :
    after.Right ∧ after.found = 0 ∧ ¬ after.Present sessionId := by
  cases step with
  | find key now live =>
    obtain ⟨state, found⟩ := Option.isSome_iff_exists.mp live
    obtain ⟨entry, present, -⟩ := get_eq_some_iff.mp found
    exact absurd (Option.isSome_iff_exists.mpr ⟨entry, present⟩) gone
  | miss lost => exact ⟨right.miss, none, fun present => gone (removal_present (.lookup ..) present)⟩
  | close found due => omega
  | other made => exact ⟨⟨right.1, right.2⟩, none, fun present => gone (removal_present made present)⟩

/-- In a run where no step takes the session from under a deletion that has found it, the
reports are right; and a step that does is followed by one that is wrong. -/
theorem deletions_right (registry : SessionRegistry S)
    (run : ReflTransGen (AloneStep sessionId) ⟨registry, 0, []⟩ deletions) :
    deletions.Right ∧ ∀ after, DeleteStep sessionId deletions after →
      deletions.Present sessionId → ¬ after.Present sessionId →
        ((∀ later, ReflTransGen (DeleteStep sessionId) after later → later.Right) ↔
          after.found = 0) := by
  have fair : deletions.Fair sessionId := by
    induction run with
    | refl => exact ⟨fun found => absurd rfl found, fun _ => rfl, by simp, by simp⟩
    | tail _ step ih => exact ih.step step
  refine ⟨fair.right, fun after step present gone => ⟨fun right => ?_, fun none later more => ?_⟩⟩
  · by_contra others
    obtain ⟨found, due⟩ := Nat.exists_eq_succ_of_ne_zero others
    have wrong := (right _ (.single (.close found due))).removed _ List.mem_cons_self
    exact gone wrong
  · have kept : later.Right ∧ later.found = 0 ∧ ¬ later.Present sessionId := by
      induction more with
      | refl => exact ⟨(fair.step ⟨step, fun _ _ => none⟩).right, none, gone⟩
      | tail _ step ih => exact gone_step ih.1 ih.2.1 ih.2.2 step
    exact kept.1

end

namespace Sample

def found (deletions : Nat) : Deletions Unit :=
  ⟨(SessionRegistry.new 60).insertSession opened, deletions, []⟩

end Sample

open Sample in
theorem deletions_right_once :
    ReflTransGen (AloneStep sessionId) (found 0) ⟨.new 60, 0, [(.closed, true)]⟩ ∧
      (⟨.new 60, 0, [(.closed, true)]⟩ : Deletions Unit).Right := by
  have run : ReflTransGen (AloneStep sessionId) (found 0) ⟨.new 60, 0, [(.closed, true)]⟩ :=
    .head ⟨.find "ada" 0 rfl, fun _ gone => absurd rfl gone⟩
      (.single ⟨.close 0 rfl, fun _ _ => rfl⟩)
  exact ⟨run, (deletions_right _ run).1⟩

open Sample in
/-- Two deletions find the session before either removes it, and both report the close. -/
theorem two_deletions_close : ReflTransGen (DeleteStep sessionId) (found 0)
        ⟨.new 60, 0, [(.closed, false), (.closed, true)]⟩ ∧
      ¬ (⟨.new 60, 0, [(.closed, false), (.closed, true)]⟩ : Deletions Unit).Right := by
  refine ⟨.head (.find "ada" 0 rfl) (.head (.find "ada" 0 rfl)
    (.head (.close 1 rfl) (.single (.close 0 rfl)))), fun right => ?_⟩
  exact absurd right.one (by decide)

end VgiRpc.Sticky
