import VgiRpc.Identity.Resolution

/-!
# Every schedule of the providers

A calm schedule, in which every provider answers, is late, is refused a slot or reports an
outage, tells one result for each provider.  The loop records exactly what the schedule tells
when the names of the providers are distinct and safe, whatever the order, and a built-in
policy sees what the evidence says of each provider and not its order.
-/

namespace VgiRpc.Identity

open Library List PeerEvidenceSet
open Http (AuthContext Primitives)
open Auth (AuthError)
open PeerEvidenceSet (fromResults)

namespace PeerIdentityResult

theorem unavailable_ne_available : PeerIdentityStatus.unavailable ≠ .available := by decide

def absent (provider : String) : PeerIdentityResult :=
  ⟨provider, .unavailable, [], coherent_absent unavailable_ne_available, owned_absent provider⟩

end PeerIdentityResult

theorem map_absent_provider (names : List String) :
    (names.map PeerIdentityResult.absent).map PeerIdentityResult.provider = names := by
  rw [map_map]
  exact map_id _

/-- A task that ends with a result of its provider or with an outage. -/
def Finished.Calm (task : Finished) : Prop :=
  match task.outcome with
  | .answered (.ok result) => result.provider = task.provider
  | .answered (.error error) => error.isAuthUnavailable = true
  | .panicked => False

def Finished.told (task : Finished) : PeerIdentityResult :=
  match task.outcome with
  | .answered (.ok result) => result
  | _ => .absent task.provider

theorem Finished.told_provider {task : Finished} (calm : task.Calm) :
    task.told.provider = task.provider := by
  obtain ⟨provider, outcome⟩ := task
  match outcome with
  | .answered (.ok result) => exact calm
  | .answered (.error error) => rfl
  | .panicked => rfl

namespace Schedule

variable {names : List String} (schedule : Schedule names)

/-- Every provider finishes, times out, is refused a slot or reports an outage. -/
def Calm : Prop := ∀ task ∈ schedule.finished, task.Calm

def granted : List String := withSlot names schedule.slots true

def refused : List String := withSlot names schedule.slots false

def ended : List String := schedule.finished.map Finished.provider

/-- One result for each provider, by how its task went. -/
def tells : List PeerIdentityResult :=
  schedule.refused.map .absent ++ schedule.finished.map Finished.told ++
    (schedule.granted.diff schedule.ended).map .absent

theorem ended_append_pending :
    (schedule.ended ++ schedule.granted.diff schedule.ended).Perm schedule.granted :=
  subperm_append_diff_self_of_count_le fun name _ =>
    subperm_iff_count.mp schedule.started name

theorem refused_append_granted : (schedule.refused ++ schedule.granted).Perm names := by
  have split := filter_append_perm (fun entry : String × Bool => entry.2 == false)
    (names.zip schedule.slots)
  have flipped : (fun entry : String × Bool => !(entry.2 == false)) = fun entry => entry.2 == true := by
    funext entry
    cases entry.2 <;> rfl
  rw [flipped] at split
  have mapped := split.map Prod.fst
  rw [map_append, map_fst_zip (Nat.le_of_eq schedule.perProvider.symm)] at mapped
  exact mapped

theorem tells_names (calm : schedule.Calm) :
    (schedule.tells.map PeerIdentityResult.provider).Perm names := by
  have told : (schedule.finished.map Finished.told).map PeerIdentityResult.provider = schedule.ended := by
    rw [ended, map_map]
    exact map_congr_left fun task member => task.told_provider (calm task member)
  rw [tells, map_append, map_append, told, map_absent_provider, map_absent_provider, append_assoc]
  exact ((schedule.ended_append_pending).append_left _).trans schedule.refused_append_granted

theorem tells_perm {first second : Schedule names} (slots : first.slots = second.slots)
    (order : first.finished.Perm second.finished) : first.tells.Perm second.tells := by
  have granted : first.granted = second.granted := by rw [Schedule.granted, slots, Schedule.granted]
  have refused : first.refused = second.refused := by rw [Schedule.refused, slots, Schedule.refused]
  have pending : first.granted.diff first.ended = second.granted.diff second.ended := by
    rw [granted]
    exact (order.map _).diff_left _
  rw [tells, tells, refused, pending]
  exact ((order.map _).append_left _).append_right _

end Schedule

section

variable {ε : Type} (raise : AuthError → ε) {join : Collecting → Finished → Except ε Collecting}
  (state : Collecting)

theorem recordAbsent_eq (provider : String) : recordAbsent raise state provider =
      if isSafeIdentifier provider then .ok { state with results := state.results ++ [.absent provider] }
      else .error (raise (valueError "peer identity provider must be a non-empty safe identifier")) := by
  rw [recordAbsent, PeerIdentityResult.withoutIdentity, dif_neg PeerIdentityResult.unavailable_ne_available]
  cases isSafeIdentifier provider <;> rfl

theorem recordAbsent_safe {provider : String} (safe : isSafeIdentifier provider = true) :
    recordAbsent raise state provider = .ok { state with results := state.results ++ [.absent provider] } := by
  rw [recordAbsent_eq, if_pos safe]

variable {pending : List String}

theorem markPending_safe (state : Collecting)
    (safe : ∀ name ∈ pending, isSafeIdentifier name = true) :
    markPending raise pending state =
      .ok { state with results := state.results ++ pending.map .absent } := by
  induction pending generalizing state with
  | nil => simp [markPending]
  | cons name rest ih =>
    rw [markPending, recordAbsent_safe raise state (safe name (mem_cons_self ..))]
    refine (ih _ (forall_mem_cons.mp safe).2).trans ?_
    simp

/-- The slots of a start: who is marked at once and who is pending. -/
theorem startProviders_safe {entries : List (String × Bool)} {state : Collecting}
    (safe : ∀ entry ∈ entries, isSafeIdentifier entry.1 = true)
    (fresh : (state.pending ++ (entries.filter fun entry => entry.2 == true).map Prod.fst).Nodup) :
    ∃ pending, pending.Perm (state.pending ++ (entries.filter fun entry => entry.2 == true).map Prod.fst) ∧
      startProviders raise entries state =
        .ok ⟨state.results ++ ((entries.filter fun entry => entry.2 == false).map Prod.fst).map .absent,
          pending⟩ := by
  induction entries generalizing state with
  | nil => exact ⟨state.pending, by simp, by simp [startProviders]⟩
  | cons entry rest ih =>
    obtain ⟨name, slot⟩ := entry
    have later : ∀ entry ∈ rest, isSafeIdentifier entry.1 = true := (forall_mem_cons.mp safe).2
    cases slot with
    | false =>
      obtain ⟨pending, perm, run⟩ := @ih { state with results := state.results ++ [.absent name] } later fresh
      refine ⟨pending, perm, ?_⟩
      rw [startProviders, recordAbsent_safe raise state (safe _ (mem_cons_self ..))]
      refine run.trans ?_
      simp
    | true =>
      have apart : name ∉ state.pending := by
        intro member
        rw [nodup_append] at fresh
        exact fresh.2.2 name member name (by simp) rfl
      have moved : (state.pending.insert name ++
          (rest.filter fun entry => entry.2 == true).map Prod.fst).Perm
          (state.pending ++ (((name, true) :: rest).filter fun entry => entry.2 == true).map Prod.fst) := by
        rw [insert_of_not_mem apart]
        exact perm_middle.symm
      obtain ⟨pending, perm, run⟩ := @ih { state with pending := state.pending.insert name } later
        (moved.nodup_iff.mpr fresh)
      exact ⟨pending, perm.trans moved, run⟩

def Records (join : Collecting → Finished → Except ε Collecting) : Prop :=
  ∀ (state : Collecting) (task : Finished), task.Calm → isSafeIdentifier task.provider = true →
    task.provider ∈ state.pending →
    join state task = .ok ⟨state.results ++ [task.told], state.pending.erase task.provider⟩

theorem running_cons {task : Finished} {rest : List Finished}
    (running : ((task :: rest).map Finished.provider).Subperm pending) :
    task.provider ∈ pending ∧
      (rest.map Finished.provider).Subperm (pending.erase task.provider) := by
  refine ⟨running.subset (mem_cons_self ..), ?_⟩
  have shorter := running.erase task.provider
  rwa [map_cons, erase_cons_head] at shorter

section

variable {raise} (records : Records join) {state : Collecting} {tasks : List Finished}
  (calm : ∀ task ∈ tasks, task.Calm)
  (safe : ∀ task ∈ tasks, isSafeIdentifier task.provider = true)
  (running : (tasks.map Finished.provider).Subperm state.pending)

include records calm safe running

theorem joinDrained_calm : joinDrained join tasks state =
      .ok ⟨state.results ++ tasks.map Finished.told, state.pending.diff (tasks.map Finished.provider)⟩ := by
  induction tasks generalizing state with
  | nil => simp [joinDrained]
  | cons task rest ih =>
    obtain ⟨member, later⟩ := running_cons running
    rw [joinDrained, records state task (calm task (mem_cons_self ..))
      (safe task (mem_cons_self ..)) member]
    refine (@ih ⟨_, _⟩ (forall_mem_cons.mp calm).2 (forall_mem_cons.mp safe).2 later).trans ?_
    simp

theorem joinWaited_calm : joinWaited join tasks state =
      .ok (⟨state.results ++ tasks.map Finished.told,
        state.pending.diff (tasks.map Finished.provider)⟩, []) := by
  induction tasks generalizing state with
  | nil => simp [joinWaited]
  | cons task rest ih =>
    obtain ⟨member, later⟩ := running_cons running
    rw [joinWaited, if_neg (ne_nil_of_mem member), records state task (calm task (mem_cons_self ..))
      (safe task (mem_cons_self ..)) member]
    refine (@ih ⟨_, _⟩ (forall_mem_cons.mp calm).2 (forall_mem_cons.mp safe).2 later).trans ?_
    simp

end

variable {names : List String}

theorem mem_of_mem_withSlot {slots : List Bool} {slot : Bool} {name : String}
    (member : name ∈ withSlot names slots slot) : name ∈ names := by
  obtain ⟨entry, found, rfl⟩ := mem_map.mp member
  exact (of_mem_zip (mem_filter.mp found).1).1

structure Schedule.Recordable {names : List String} (schedule : Schedule names) : Prop where
  calm : schedule.Calm
  distinct : names.Nodup
  safe : ∀ name ∈ names, isSafeIdentifier name = true

variable {schedule : Schedule names} {atClose : Collecting → Except ε Unit}

theorem Schedule.Recordable.starts (fine : schedule.Recordable) :
    ∃ pending, pending.Perm schedule.granted ∧
      startProviders raise (names.zip schedule.slots) ⟨[], []⟩ =
        .ok ⟨schedule.refused.map .absent, pending⟩ := by
  have safeEntry : ∀ entry ∈ names.zip schedule.slots, isSafeIdentifier entry.1 = true :=
    fun entry member => fine.safe _ (of_mem_zip member).1
  have distinct : schedule.granted.Nodup :=
    (nodup_append.mp (schedule.refused_append_granted.nodup_iff.mpr fine.distinct)).2.1
  exact @startProviders_safe ε raise _ ⟨[], []⟩ safeEntry distinct

/-- The names that ended late are still pending after the early ones. -/
theorem subperm_diff_of_append {early late : List String}
    (running : (early ++ late).Subperm pending) : late.Subperm (pending.diff early) := by
  rw [subperm_iff_count] at running ⊢
  intro name
  have both := running name
  rw [count_append] at both
  rw [count_diff]
  omega

theorem collect_calm (records : Records join) (fine : schedule.Recordable) (closes : ∀ state :
    Collecting, state.pending.length + schedule.waited.length = schedule.granted.length → atClose
    state = .ok ()) :
    ∃ results, collect raise join atClose schedule = .ok results ∧ results.Perm schedule.tells := by
  obtain ⟨pending, perm, started⟩ := fine.starts raise
  have safeGranted : ∀ name ∈ schedule.granted, isSafeIdentifier name = true :=
    fun name member => fine.safe _ (mem_of_mem_withSlot member)
  have safeTask : ∀ task ∈ schedule.finished, isSafeIdentifier task.provider = true :=
    fun task member => safeGranted _ (schedule.started.subset (mem_map.mpr ⟨task, member, rfl⟩))
  have splits : schedule.ended =
      schedule.waited.map Finished.provider ++ schedule.drained.map Finished.provider :=
    map_append
  have running : schedule.ended.Subperm pending := schedule.started.trans perm.symm.subperm
  rw [splits] at running
  have early : (schedule.waited.map Finished.provider).Subperm pending :=
    (sublist_append_left _ _).subperm.trans running
  have waited := @joinWaited_calm ε join records ⟨schedule.refused.map .absent, pending⟩
    schedule.waited (fun task member => fine.calm task (mem_append_left _ member))
    (forall_mem_append.mp safeTask).1 early
  have drained := @joinDrained_calm ε join records
    ⟨schedule.refused.map .absent ++ schedule.waited.map Finished.told,
      pending.diff (schedule.waited.map Finished.provider)⟩
    schedule.drained (fun task member => fine.calm task (mem_append_right _ member))
    (forall_mem_append.mp safeTask).2
    (subperm_diff_of_append running)
  have left : ((pending.diff (schedule.waited.map Finished.provider)).diff
      (schedule.drained.map Finished.provider)).Perm (schedule.granted.diff schedule.ended) := by
    rw [← diff_append, ← splits]
    exact perm.diff_right _
  have sorted := (perm_insertionSort (· ≤ ·) ((pending.diff
    (schedule.waited.map Finished.provider)).diff (schedule.drained.map Finished.provider))).trans left
  have closing : (pending.diff (schedule.waited.map Finished.provider)).length +
      schedule.waited.length = schedule.granted.length := by
    have whole := (subperm_append_diff_self_of_count_le fun name _ =>
      subperm_iff_count.mp early name).length_eq
    rw [length_append, length_map] at whole
    have same := perm.length_eq
    omega
  have marked (state : Collecting) := markPending_safe raise state
    fun name member => safeGranted _ ((diff_subset _ _) (sorted.subset member))
  have closed (results : List PeerIdentityResult) := closes ⟨results, _⟩ closing
  simp only [collect, started, waited, closed, nil_append, drained, marked, bind,
    Except.bind, pure, Except.pure, Except.ok.injEq, exists_eq_left']
  rw [Schedule.tells, Schedule.finished, map_append, ← append_assoc]
  exact (sorted.map _).append_left _

end

theorem records_http : Records joinHttpTask := by
  rintro state ⟨provider, outcome⟩ calm safe member
  match outcome, calm with
  | .answered (.ok result), calm =>
    have attributed : result.provider = provider := calm
    simp only [joinHttpTask, recordHttpPeerProviderResult, recordPeerProviderResult]
    rw [if_pos member, if_pos attributed]
    rfl
  | .answered (.error error), calm =>
    have outage : error.isAuthUnavailable = true := calm
    simp only [joinHttpTask, recordHttpPeerProviderResult, recordPeerProviderResult]
    rw [if_pos member, if_pos outage, recordAbsent_safe _ _ safe]
    rfl

theorem records_tcp : Records joinTcpTask := by
  intro state task calm safe member
  have recorded := records_http state task calm safe member
  obtain ⟨provider, outcome⟩ := task
  match outcome, calm with
  | .answered result, _ =>
    have same : recordTcpPeerProviderResult state provider result = _ := recorded
    simp only [joinTcpTask, same]

/-! ## What the policy is given -/

/-- One result for each provider, and those of the connection itself. -/
structure OneEach {names : List String} (own : List PeerIdentityResult) (schedule : Schedule names)
    (evidence : PeerEvidenceSet) : Prop where
  listed : evidence.providerStatus.keys.Perm (names ++ own.map PeerIdentityResult.provider)
  told : ∀ task ∈ schedule.finished, evidence.status task.provider = task.told.status ∧
    evidence.forProvider task.provider = task.told.identities
  missing : ∀ name ∈ names, name ∉ schedule.ended →
    evidence.status name = .unavailable ∧ evidence.forProvider name = []
  kept : ∀ result ∈ own, evidence.status result.provider = result.status ∧
    evidence.forProvider result.provider = result.identities

variable {evidence : PeerEvidenceSet} {results : List PeerIdentityResult}

variable {names : List String}

theorem Schedule.absent_mem_tells (schedule : Schedule names) {name : String}
    (member : name ∈ names) (unended : name ∉ schedule.ended) :
    PeerIdentityResult.absent name ∈ schedule.tells := by
  rcases mem_append.mp (schedule.refused_append_granted.mem_iff.mpr member) with refused | granted
  · exact mem_append_left _ (mem_append_left _ (mem_map.mpr ⟨name, refused, rfl⟩))
  · exact mem_append_right _ (mem_map.mpr ⟨name, mem_diff_of_mem granted unended, rfl⟩)

variable {schedule : Schedule names}

theorem oneEach_of_built {results own : List PeerIdentityResult} (calm : schedule.Calm)
    (perm : results.Perm schedule.tells) (built : fromResults (results ++ own) = .ok evidence) :
    OneEach own schedule evidence := by
  have found : ∀ {result : PeerIdentityResult}, result ∈ schedule.tells ++ own →
      evidence.status result.provider = result.status ∧
        evidence.forProvider result.provider = result.identities := by
    intro result member
    have among := (perm.append_right own).mem_iff.mpr member
    exact ⟨status_of_mem built among, forProvider_of_mem built among⟩
  refine ⟨?_, ?_, ?_, ?_⟩
  · rw [keys_of_built built, map_append]
    exact ((perm.map _).trans (schedule.tells_names calm)).append_right _
  · intro task member
    have among : task.told ∈ schedule.tells :=
      mem_append_left _ (mem_append_right _ (mem_map.mpr ⟨task, member, rfl⟩))
    have both := found (mem_append_left own among)
    rwa [Finished.told_provider (calm task member)] at both
  · intro name member unended
    exact found (mem_append_left own (schedule.absent_mem_tells member unended))
  · exact fun result member => found (mem_append_right _ member)

namespace PeerEvidenceSet

section

variable {first second : PeerEvidenceSet} (same : SameEvidence first second)

include same

variable (P : Primitives) (codec : Json.Codec) (providers : List String)

theorem SameEvidence.bindingDigest (auth : Option AuthContext) :
    bindingDigest P codec first providers auth = bindingDigest P codec second providers auth := by
  have blocks : ∀ provider, providerBlock codec first provider = providerBlock codec second provider :=
    fun provider => providerBlock_eq_iff.mpr
      ⟨same.status provider, by rw [same.identities provider]⟩
  rw [bindingDigest_eq, bindingDigest_eq, bindingPreimage, bindingPreimage, bindingFields,
    bindingFields, funext blocks]

theorem SameEvidence.requireUsableProvider :
    first.requireUsableProvider = second.requireUsableProvider := by
  funext provider
  simp only [PeerEvidenceSet.requireUsableProvider, rejectStatus, uniqueVerifiedSubject,
    verifiedSubjects, same.status, same.identities]

theorem SameEvidence.rejectBadEvidence :
    rejectBadEvidence first providers = rejectBadEvidence second providers := by
  induction providers with
  | nil => rfl
  | cons provider rest ih =>
    simp only [Identity.rejectBadEvidence, rejectAmbiguousProvider, same.requireUsableProvider,
      verifiedSubjects, same.status, same.identities, ih]
    rfl

theorem SameEvidence.primary (provider : String) :
    peerIdentityPrimary P codec provider first = peerIdentityPrimary P codec provider second := by
  rw [peerIdentityPrimary, same.requireUsableProvider, same.bindingDigest P codec,
    peerIdentityPrimary]

end

/-- A provider has a first block of identities when it has any. -/
theorem firstBlock_isEmpty (evidence : PeerEvidenceSet) (provider : String) :
    ((evidence.identities.dropWhile fun identity => identity.provider != provider).takeWhile
      fun identity => identity.provider == provider).isEmpty =
        (evidence.forProvider provider).isEmpty := by
  rw [forProvider]
  induction evidence.identities with
  | nil => rfl
  | cons identity rest ih =>
    by_cases own : identity.provider = provider
    · simp [own]
    · rw [dropWhile_cons_of_pos (by simpa using own), ih, filter_cons_of_neg (by simpa using own)]

variable {first second : PeerEvidenceSet}

theorem SameEvidence.requireAvailable (same : SameEvidence first second) (provider : String) :
    (first.requireAvailableProvider provider).map (fun _ => ()) =
      (second.requireAvailableProvider provider).map fun _ => () := by
  have rejected : first.rejectStatus provider = second.rejectStatus provider := by
    rw [rejectStatus, same.status, rejectStatus]
  simp only [requireAvailableProvider, rejected, firstBlock_isEmpty, same.status, same.identities]
  cases second.rejectStatus provider with
  | error error => rfl
  | ok usable =>
    cases decide (second.status provider = .available) && !(second.forProvider provider).isEmpty <;> rfl

/-- A policy sees what the evidence says of each provider, not its order. -/
theorem SameEvidence.apply (same : SameEvidence first second)
    (P : Primitives) (codec : Json.Codec) (policy : PeerPolicy) (existing : AuthContext) :
    policy.apply P codec first existing = policy.apply P codec second existing := by
  cases policy with
  | observe => rfl
  | require provider =>
    have available := same.requireAvailable provider
    have bound : withEvidenceBinding P codec existing first [provider] =
        withEvidenceBinding P codec existing second [provider] := by
      rw [withEvidenceBinding, same.bindingDigest P codec, withEvidenceBinding]
    have ignored : ∀ usable : Except AuthError (List PeerIdentity),
        (usable >>= fun _ => pure (withEvidenceBinding P codec existing second [provider])) =
          (usable.map fun _ => ()).map
            fun _ => withEvidenceBinding P codec existing second [provider] := by
      intro usable
      cases usable <;> rfl
    rw [PeerPolicy.apply, PeerPolicy.apply, bound, ignored, ignored, available]
  | primary provider => exact same.primary P codec provider
  | anyOf providers =>
    simp only [PeerPolicy.apply, anyOfPeerIdentities, same.rejectBadEvidence, same.primary,
      uniqueVerifiedSubject, verifiedSubjects, same.status, same.identities]
  | allOf providers selected linker =>
    simp only [PeerPolicy.apply, allOfPeerIdentities, same.requireUsableProvider,
      same.bindingDigest P codec]

end PeerEvidenceSet

/-! ## Every schedule -/

/-- The evidence of every calm schedule has one result for each provider, and what is decided
on it does not depend on the order in which the tasks end. -/
structure Resolves (P : Primitives) (codec : Json.Codec) {ε : Type} {names : List String}
    (own : List PeerIdentityResult) (evidenceOf : Schedule names → Except ε PeerEvidenceSet)
    (decided : PeerPolicy → AuthContext → Schedule names → Except ε AuthContext) : Prop where
  oneEach : ∀ schedule, schedule.Calm →
    ∃ evidence, evidenceOf schedule = .ok evidence ∧ OneEach own schedule evidence
  orderFree : ∀ first second : Schedule names, first.Calm → first.slots = second.slots →
    first.finished.Perm second.finished →
    (∀ policy existing, decided policy existing first = decided policy existing second) ∧
      ∀ one two, evidenceOf first = .ok one → evidenceOf second = .ok two →
        ∀ providers auth, bindingDigest P codec one providers auth = bindingDigest P codec two providers auth

section

variable {names : List String} {own : List PeerIdentityResult}

def Schedule.saturated (names : List String) : Schedule names where
  slots := names.map fun _ => false
  waited := []
  drained := []
  closed := false
  perProvider := List.length_map _
  started := List.nil_subperm
  allEnded := fun closing => absurd closing Bool.false_ne_true

theorem Schedule.saturated_calm : (Schedule.saturated names).Calm := by
  intro task member
  cases member

variable {ε : Type} (raise : AuthError → ε)

theorem startProviders_refused (names : List String) (state : Collecting) :
    startProviders raise (names.zip (names.map fun _ => false)) state =
      if ∀ name ∈ names, isSafeIdentifier name = true then
        .ok ⟨state.results ++ names.map .absent, state.pending⟩
      else
        .error (raise (valueError "peer identity provider must be a non-empty safe identifier")) := by
  induction names generalizing state with
  | nil => simp [startProviders]
  | cons name rest ih =>
    rw [map_cons, zip_cons_cons, startProviders, recordAbsent_eq]
    by_cases safe : isSafeIdentifier name = true
    · rw [if_pos safe]
      exact (ih _).trans (by simp [safe])
    · rw [if_neg safe, if_neg fun all => safe (all name mem_cons_self)]
      rfl

theorem collect_saturated {join : Collecting → Finished → Except ε Collecting}
    {atClose : Collecting → Except ε Unit} {results : List PeerIdentityResult}
    (collected : collect raise join atClose (Schedule.saturated names) = .ok results) :
    (∀ name ∈ names, isSafeIdentifier name = true) ∧ results = names.map .absent := by
  obtain ⟨state, started, rest⟩ := exceptBind_eq_ok collected
  rw [Schedule.saturated, startProviders_refused] at started
  split_ifs at started with safe
  cases started
  obtain ⟨_, joined, rest⟩ := exceptBind_eq_ok rest
  cases joined
  obtain ⟨_, -, rest⟩ := exceptBind_eq_ok rest
  obtain ⟨_, drained, rest⟩ := exceptBind_eq_ok rest
  cases drained
  cases rest
  exact ⟨safe, by simp⟩

/-- A path that collects what calm schedules tell, builds the evidence from it together with
results of its own, and decides on the evidence alone. -/
structure CollectsBy (P : Primitives) (codec : Json.Codec) {ε : Type} (own : List PeerIdentityResult)
    (collected : Schedule names → Except ε (List PeerIdentityResult))
    (evidenceOf : Schedule names → Except ε PeerEvidenceSet)
    (decided : PeerPolicy → AuthContext → Schedule names → Except ε AuthContext) : Prop where
  calm : ∀ schedule, schedule.Recordable →
    ∃ results, collected schedule = .ok results ∧ results.Perm schedule.tells
  saturated : ∀ results, collected (Schedule.saturated names) = .ok results →
    (∀ name ∈ names, isSafeIdentifier name = true) ∧ results = names.map .absent
  evidence : ∀ schedule evidence, evidenceOf schedule = .ok evidence ↔
    ∃ results, collected schedule = .ok results ∧
      fromResults (results ++ own) = .ok evidence
  decision : ∀ first second one two, evidenceOf first = .ok one → evidenceOf second = .ok two →
    PeerEvidenceSet.SameEvidence one two →
      ∀ policy existing, decided policy existing first = decided policy existing second

section

variable {P : Primitives} {codec : Json.Codec} {ε : Type}
  {collected : Schedule names → Except ε (List PeerIdentityResult)}
  {evidenceOf : Schedule names → Except ε PeerEvidenceSet}
  {decided : PeerPolicy → AuthContext → Schedule names → Except ε AuthContext}
  (path : CollectsBy P codec own collected evidenceOf decided)

include path

theorem CollectsBy.builds (distinct : (names ++ own.map PeerIdentityResult.provider).Nodup)
    (safe : ∀ name ∈ names, isSafeIdentifier name = true) {schedule : Schedule names}
    (calm : schedule.Calm) :
    ∃ results evidence, results.Perm schedule.tells ∧ evidenceOf schedule = .ok evidence ∧
      fromResults (results ++ own) = .ok evidence := by
  obtain ⟨results, collects, perm⟩ :=
    path.calm schedule ⟨calm, (nodup_append.mp distinct).1, safe⟩
  have named : ((results ++ own).map PeerIdentityResult.provider).Perm
      (names ++ own.map PeerIdentityResult.provider) := by
    rw [map_append]
    exact ((perm.map _).trans (schedule.tells_names calm)).append_right _
  obtain ⟨evidence, built⟩ :=
    @addResults_isOk .none _ (named.nodup_iff.mpr distinct)
  exact ⟨results, evidence, perm, (path.evidence schedule evidence).mpr ⟨results, collects, built⟩, built⟩

theorem CollectsBy.resolves_iff : Resolves P codec own evidenceOf decided ↔
      (names ++ own.map PeerIdentityResult.provider).Nodup ∧
        ∀ name ∈ names, isSafeIdentifier name = true := by
  constructor
  · intro resolves
    obtain ⟨evidence, told, -⟩ := resolves.oneEach _ Schedule.saturated_calm
    obtain ⟨results, collects, built⟩ := (path.evidence _ _).mp told
    obtain ⟨safe, rfl⟩ := path.saturated results collects
    have distinct := distinct_of_built built
    rw [map_append, map_absent_provider] at distinct
    exact ⟨distinct, safe⟩
  · rintro ⟨distinct, safe⟩
    refine ⟨fun schedule calm => ?_, fun first second calm slots order => ?_⟩
    · obtain ⟨results, evidence, perm, told, built⟩ := path.builds distinct safe calm
      exact ⟨evidence, told, oneEach_of_built calm perm built⟩
    · have calmSecond : second.Calm := fun task member => calm task (order.mem_iff.mpr member)
      obtain ⟨resultsOne, one, permOne, toldOne, builtOne⟩ := path.builds distinct safe calm
      obtain ⟨resultsTwo, two, permTwo, toldTwo, builtTwo⟩ := path.builds distinct safe calmSecond
      have perm : (resultsOne ++ own).Perm (resultsTwo ++ own) :=
        ((permOne.trans (Schedule.tells_perm slots order)).trans permTwo.symm).append_right own
      have same := sameEvidence_of_perm builtOne builtTwo perm
      refine ⟨path.decision first second one two toldOne toldTwo same, ?_⟩
      intro other another toldOther toldAnother providers auth
      cases toldOne.symm.trans toldOther
      cases toldTwo.symm.trans toldAnother
      exact same.bindingDigest P codec providers auth

end

end

/-! ## The two paths -/

theorem tells_of_no_providers (empty : names = []) (schedule : Schedule names) :
    schedule.Calm ∧ schedule.tells = [] := by
  subst empty
  have none : schedule.finished = [] := by
    have short := schedule.started
    rw [withSlot, zip_nil_left, filter_nil, map_nil, subperm_nil, map_eq_nil_iff] at short
    exact short
  have calm : schedule.Calm := by
    intro task member
    rw [none] at member
    cases member
  refine ⟨calm, ?_⟩
  have names := schedule.tells_names calm
  rwa [perm_nil, map_eq_nil_iff] at names

theorem http_collects (P : Primitives) (codec : Json.Codec)
    (providers : List PeerIdentityProvider) :
    CollectsBy P codec [] httpResults (httpEvidence providers) fun policy existing schedule =>
        (httpPeerIdentity providers (some (policy.apply P codec)) existing schedule).map
          RequestIdentity.auth where
  calm := by
    intro schedule fine
    rw [httpResults]
    split
    · next empty => exact ⟨[], rfl, by rw [(tells_of_no_providers empty schedule).2]⟩
    · exact collect_calm _ records_http fine fun _ _ => rfl
  saturated := by
    intro results collected
    rw [httpResults] at collected
    split at collected
    · next empty =>
      cases collected
      simp [empty]
    · exact collect_saturated _ collected
  evidence := by
    intro schedule evidence
    rw [httpEvidence]
    cases httpResults schedule with
    | error failure => simp
    | ok results =>
      simp only [append_nil, Except.ok.injEq, exists_eq_left']
      cases fromResults results <;> simp
  decision := by
    intro first second one two toldOne toldTwo same policy existing
    simp only [httpPeerIdentity, toldOne, toldTwo, same.apply P codec policy existing]
    cases policy.apply P codec two existing <;> rfl

theorem tcpAtClose_calm (schedule : Schedule names) (state : Collecting)
    (counted : state.pending.length + schedule.waited.length = schedule.granted.length) :
    tcpAtClose schedule.closed state = .ok () := by
  cases closing : schedule.closed with
  | false => rfl
  | true =>
    have all := schedule.allEnded closing
    have none : state.pending = [] := by
      rw [← length_eq_zero_iff]
      rw [Schedule.granted] at counted
      omega
    rw [tcpAtClose, none]
    rfl

theorem tcpResults_calm (fine : schedule.Recordable) :
    ∃ results, tcpResults schedule = .ok results ∧ results.Perm schedule.tells := by
  rw [tcpResults, if_pos fine.distinct]
  exact collect_calm _ records_tcp fine (tcpAtClose_calm schedule)

theorem tcpResults_of_no_providers (schedule : Schedule []) : tcpResults schedule = .ok [] := by
  obtain ⟨calm, tells⟩ := tells_of_no_providers rfl schedule
  obtain ⟨results, collected, perm⟩ :=
    tcpResults_calm ⟨calm, nodup_nil, by rintro name ⟨⟩⟩
  rw [tells, perm_nil] at perm
  rw [collected, perm]

variable {options : TcpIdentityOptions} {direct : Option PeerIdentityResult}
  {forwarded : Option PeerIdentity}

theorem tcpEvidence_ok_iff (schedule : Schedule (providerNames options.providers))
    (evidence : PeerEvidenceSet) :
    tcpEvidence options direct forwarded schedule = .ok evidence ↔
      ∃ results, tcpResults schedule = .ok results ∧
        fromResults (results ++ tcpOwnResults direct forwarded) = .ok evidence := by
  obtain ⟨providers, policy, application⟩ := options
  rw [tcpEvidence]
  split
  · next empty =>
    obtain ⟨noProviders, -, noDirect, noForwarded⟩ := empty
    simp only at noProviders
    subst noProviders
    rw [Option.isNone_iff_eq_none] at noDirect noForwarded
    subst noDirect noForwarded
    have collected : tcpResults schedule = .ok [] := tcpResults_of_no_providers schedule
    simp [collected, tcpOwnResults, fromResults, addResults]
  · cases tcpResults schedule with
    | error error => simp
    | ok results =>
      simp only [Except.ok.injEq, exists_eq_left']
      cases fromResults (results ++ tcpOwnResults direct forwarded) <;> simp

/-- The decision of a connection under a policy, for a caller the application knows. -/
def TcpIdentityOptions.under (options : TcpIdentityOptions) (policy : PeerAuthenticationPolicy)
    (existing : AuthContext) : TcpIdentityOptions :=
  { options with policy := some policy, applicationAuth := existing }

theorem resolveTcpIdentity_under {schedule : Schedule (providerNames options.providers)}
    (told : tcpEvidence options direct forwarded schedule = .ok evidence)
    (policy : PeerAuthenticationPolicy) (existing : AuthContext) :
    (resolveTcpIdentity (options.under policy existing) direct forwarded schedule).map
        ConnectionContext.auth =
      (policy evidence existing).mapError peerPolicyErrorToIo := by
  have under : tcpEvidence (options.under policy existing) direct forwarded schedule = .ok evidence :=
    (@tcpEvidence_ok_iff (options.under policy existing) _ _ schedule evidence).mpr
      ((tcpEvidence_ok_iff schedule evidence).mp told)
  unfold resolveTcpIdentity
  rw [under]
  simp only [TcpIdentityOptions.under]
  cases policy evidence existing <;> rfl

variable (P : Primitives) (codec : Json.Codec)

theorem tcp_collects (options : TcpIdentityOptions)
    (direct : Option PeerIdentityResult) (forwarded : Option PeerIdentity) :
    CollectsBy P codec (tcpOwnResults direct forwarded) tcpResults
      (tcpEvidence options direct forwarded)
      fun policy existing schedule =>
        (resolveTcpIdentity (options.under (policy.apply P codec) existing) direct forwarded
          schedule).map ConnectionContext.auth where
  calm := fun _ fine => tcpResults_calm fine
  saturated := by
    intro results collected
    rw [tcpResults] at collected
    split_ifs at collected
    exact collect_saturated _ collected
  evidence := tcpEvidence_ok_iff
  decision := by
    intro first second one two toldOne toldTwo same policy existing
    rw [resolveTcpIdentity_under toldOne, resolveTcpIdentity_under toldTwo,
      same.apply P codec policy existing]

/-- On both paths every schedule gives the policy one result for each provider, and no order
of answers matters, exactly when the names are distinct and safe. -/
theorem resolves_iff_distinct_safe_names :
    (∀ providers : List PeerIdentityProvider, Resolves P codec [] (httpEvidence providers)
          (fun policy existing schedule =>
            (httpPeerIdentity providers (some (policy.apply P codec)) existing schedule).map
              RequestIdentity.auth) ↔
        (providerNames providers).Nodup ∧
          ∀ name ∈ providerNames providers, isSafeIdentifier name = true) ∧
      ∀ (options : TcpIdentityOptions) (direct : Option PeerIdentityResult)
        (forwarded : Option PeerIdentity),
        Resolves P codec (tcpOwnResults direct forwarded) (tcpEvidence options direct forwarded)
            (fun policy existing schedule =>
              (resolveTcpIdentity (options.under (policy.apply P codec) existing) direct forwarded
                schedule).map ConnectionContext.auth) ↔
          (providerNames options.providers ++
              (tcpOwnResults direct forwarded).map PeerIdentityResult.provider).Nodup ∧
            ∀ name ∈ providerNames options.providers, isSafeIdentifier name = true := by
  constructor
  · intro providers
    have path := (http_collects P codec providers).resolves_iff
    rwa [map_nil, append_nil] at path
  · exact fun options direct forwarded => (tcp_collects P codec options direct forwarded).resolves_iff

namespace Sample

theorem corp_named : "corp idp" ≠ "" := by decide

theorem mesh_named : "mesh" ≠ "" := by decide

def providers : List PeerIdentityProvider := [⟨"mesh", mesh_named⟩, ⟨"corp idp", corp_named⟩]

def waited : List Finished :=
  [⟨"mesh", .answered (.ok (.available (identityOf "mesh" "alice")))⟩,
    ⟨"corp idp", .answered (.error (.authUnavailable "directory is down"))⟩]

def outage : Schedule (providerNames providers) where
  slots := [true, true]
  waited := waited
  drained := []
  closed := true
  perProvider := rfl
  started := List.Subperm.refl _
  allEnded := fun _ => rfl

end Sample

open Sample

/-- An outage of a provider whose name is not safe is an error, and nothing reaches the policy. -/
theorem outage_of_unsafe_name_is_lost : outage.Calm ∧ httpEvidence providers outage =
        .error ⟨.outage, valueError "peer identity provider must be a non-empty safe identifier"⟩ ∧
      tcpEvidence ⟨providers, none, Auth.anonymous⟩ none none outage = .error ⟨.permissionDenied,
          valueError "peer identity provider must be a non-empty safe identifier"⟩ := by
  refine ⟨?_, rfl, rfl⟩
  intro task member
  simp only [Schedule.finished, outage, waited, append_nil, mem_cons,
    not_mem_nil, or_false] at member
  rcases member with rfl | rfl
  · exact rfl
  · exact rfl

end VgiRpc.Identity
