import VgiRpc.Hooks.Observed
import VgiRpc.Http.Reports

/-!
# Every start has its end

A dispatch that has called the hook comes to its other callback by the code of its
transport: on a byte stream behind the serve function, unless that is left early, and over
HTTP behind the body, unless something unwinds on the way.
-/

namespace VgiRpc.Hooks

open Arrow List Option Observed Server Http Dispatch
open Library (TransitionSystem)
open Function (update_self update_of_ne)

/-- A dispatched call.  On a byte stream `closing` is what ending and flushing its streams
came to. -/
inductive Work (A : ArrowIpc) : Type 1 where
  | unary (engine : Engine A) (shm : Option Channel) (envelope : EnvelopeMeta)
      (call : UnaryCall A) (closing : Except RpcError Unit)
  | stream (engine : Engine A) (shm : Option Channel) (envelope : EnvelopeMeta) (σ : Type)
      (call : StreamCall A σ) (input : Except RpcError (Wire.StreamRead A))
      (closing : Except RpcError Unit)
  | reflection (engine : Engine A) (envelope : EnvelopeMeta) (result : ReflectionResult A)
  | http (server : HttpServer A) (origin : Origin) (accepted : Option ByteBudget) (σ : Type)
      (request : Request A σ)

/-- Behind the `?` of `_serve_one`. -/
def servedEnd (mishaps : Mishaps) : Except Failure Ending → Except RpcError Unit →
    Option (Option RpcError)
  | .ok _, .ok () => some mishaps.appErr
  | .error _, _ | .ok _, .error _ => none

/-- `serve_reflection_logged` takes the result as it comes. -/
def reflectionEnd : Except Failure Unit → Option (Option RpcError)
  | .error .panicked => none
  | .error (.error error) => some (some error)
  | .ok () => some none

variable {A : ArrowIpc}

/-- The record of a stream is closed on the response, that of another call before it. -/
def endsBehindCap {σ : Type} : Request A σ → Bool
  | .unary _ | .reflection _ => false
  | .init _ _ _ | .continuation _ _ _ _ _ _ => true

/-- The error that `on_dispatch_end` is given, if it is called. -/
def Work.dispatchEnd : Work A → Option (Option RpcError)
  | .unary engine shm envelope call closing =>
    servedEnd (unaryMishaps call) (serveUnary engine shm call ⟨envelope, []⟩).1 closing
  | .stream engine shm envelope _ call input closing =>
    servedEnd (streamMishaps engine shm call input)
      (serveStream engine shm call input ⟨envelope, []⟩).1 closing
  | .reflection engine envelope result =>
    reflectionEnd (serveReflection engine envelope result).1
  | .http server origin accepted _ request =>
    (dispatch server origin (hardLimit server.limits accepted) request).bind fun answer =>
      if endsBehindCap request then
        (conclude server origin (request.limit (hardLimit server.limits accepted)) answer).map
          fun _ => answer.error
      else some answer.error

/-- Nothing of the call is left early: on a byte stream no batch fails to be encoded or
written, no pointer to be resolved and no input to be opened, and the streams are ended;
anywhere, the library does not panic outside the handler. -/
def Work.Undisturbed : Work A → Prop
  | .unary engine shm envelope call closing =>
    (∃ ending, (serveUnary engine shm call ⟨envelope, []⟩).1 = .ok ending) ∧ closing = .ok ()
  | .stream engine shm envelope _ call input closing =>
    (∃ ending, (serveStream engine shm call input ⟨envelope, []⟩).1 = .ok ending) ∧ closing = .ok ()
  | .reflection engine envelope result =>
    (serveReflection engine envelope result).1 ≠ .error .panicked
  | .http server origin accepted _ request =>
    ∃ answer, dispatch server origin (hardLimit server.limits accepted) request = some answer ∧
      (endsBehindCap request = true → ∃ response,
        conclude server origin (request.limit (hardLimit server.limits accepted)) answer =
          some response)

section

variable {A : ArrowIpc}

theorem servedEnd_isSome_iff (mishaps : Mishaps) (result : Except Failure Ending)
    (closing : Except RpcError Unit) :
    (servedEnd mishaps result closing).isSome = true ↔
      (∃ ending, result = .ok ending) ∧ closing = .ok () := by
  cases result with
  | error failure => exact iff_of_false nofun (by rintro ⟨⟨_, ⟨⟩⟩, _⟩)
  | ok ending =>
    cases closing with
    | error error => exact iff_of_false nofun (by rintro ⟨_, ⟨⟩⟩)
    | ok _ => exact iff_of_true rfl ⟨⟨ending, rfl⟩, rfl⟩

theorem reflectionEnd_isSome_iff {outcome : Except Failure Unit} :
    (reflectionEnd outcome).isSome = true ↔ outcome ≠ .error .panicked := by
  rcases outcome with (error | _) | _
  · exact iff_of_true rfl nofun
  · exact iff_of_false nofun fun undisturbed => undisturbed rfl
  · exact iff_of_true rfl nofun

theorem dispatchEnd_isSome_iff (work : Work A) :
    work.dispatchEnd.isSome = true ↔ work.Undisturbed := by
  cases work with
  | unary engine shm envelope call closing
  | stream engine shm envelope σ call input closing => exact servedEnd_isSome_iff _ _ _
  | reflection engine envelope result => exact reflectionEnd_isSome_iff
  | http server origin accepted σ request =>
    rw [Work.dispatchEnd, Work.Undisturbed]
    cases made : dispatch server origin (hardLimit server.limits accepted) request with
    | none => exact iff_of_false nofun fun ⟨_, absent, _⟩ => nomatch absent
    | some answer =>
      simp only [bind_some, Option.some.injEq, exists_eq_left']
      split_ifs with behind
      · rw [isSome_map, isSome_iff_exists]
        exact (imp_iff_right behind).symm
      · exact iff_of_true rfl fun present => absurd present behind

/-- Over HTTP this is the error that is compared with the response. -/
theorem http_dispatchEnd (server : HttpServer A) (origin : Origin) (accepted : Option ByteBudget)
    (σ : Type) (request : Request A σ) :
    (Work.http server origin accepted σ request).dispatchEnd.join =
      reportedError server origin accepted request := by
  rw [Work.dispatchEnd, reportedError, bind_eq_bind]
  cases made : dispatch server origin (hardLimit server.limits accepted) request with
  | none => rfl
  | some answer =>
    rw [bind_some, bind_some]
    cases request with
    | unary call => rfl
    | reflection result => rfl
    | init mint call tick | continuation mint methods call resumed batch metadata =>
      dsimp only [endsBehindCap]
      cases conclude server origin _ answer <;> rfl

end

section

variable (A : ArrowIpc) (hook : DispatchHook)

/-- A call starts, or a running one is left. -/
inductive Step (seat : Seat) : Observed hook → Observed hook → Prop where
  | start {observed : Observed hook} : Step seat observed observed.start
  | leave {observed : Observed hook} {call : Nat} {token : HookToken}
      (running : observed.running call = some token) (work : Work A) :
      Step seat observed (observed.leave seat call token work.dispatchEnd)

variable {hook}

/-- The same steps, where no token is handed out twice at a time, no call is left early,
and the hook gets back its own tokens. -/
inductive FairStep (table : InFlight hook) (seat : Seat) : Observed hook → Observed hook → Prop where
  | start {observed : Observed hook}
      (unused : (hook.onDispatchStart observed.state).1 ∉ table.table observed.state) :
      FairStep table seat observed observed.start
  | leave {observed : Observed hook} {call : Nat} {token : HookToken}
      (running : observed.running call = some token) (work : Work A)
      (undisturbed : work.Undisturbed) (handed : seat.handed token = token) :
      FairStep table seat observed (observed.leave seat call token work.dispatchEnd)

def fairlyObserving (table : InFlight hook) (seat : Seat) : TransitionSystem (Observed hook) where
  initial observed := observed = .new hook
  step := FairStep A table seat

variable {A} {table : InFlight hook} {seat : Seat} {observed : Observed hook}

structure Observed.Sound (table : InFlight hook) (observed : Observed hook) : Prop where
  fresh : observed.Fresh
  paired : observed.Paired
  tabled : observed.Tabled table

theorem new_sound (table : InFlight hook) : (Observed.new hook).Sound table where
  fresh _ _ := ⟨rfl, rfl⟩
  paired _ := .inl rfl
  tabled := by
    refine ⟨fun token => ?_, nofun⟩
    show token ∈ table.table hook.initial ↔ _
    rw [table.initial]
    exact iff_of_false (Finset.notMem_empty token) nofun

/-- The end of a call keeps the pairs and the table exactly when it is reported, with the
token that the hook returned. -/
theorem leave_sound_iff (sound : observed.Sound table) {call : Nat} {token : HookToken}
    (running : observed.running call = some token) (work : Work A) :
    ((observed.leave seat call token work.dispatchEnd).Paired ∧
        (observed.leave seat call token work.dispatchEnd).Tabled table) ↔
      work.Undisturbed ∧ seat.handed token = token := by
  rw [← dispatchEnd_isSome_iff]
  constructor
  · rintro ⟨paired, -⟩
    exact (leave_paired_iff sound.paired running _).mp paired
  · intro fair
    refine ⟨(leave_paired_iff sound.paired running _).mpr fair, ?_⟩
    obtain ⟨error, ended⟩ := isSome_iff_exists.mp fair.1
    rw [ended]
    exact leave_tabled sound.tabled running fair.2 error

theorem sound_invariant (table : InFlight hook) (seat : Seat) :
    (fairlyObserving A table seat).Invariant (Observed.Sound table) where
  initial observed first := by
    rw [show observed = .new hook from first]
    exact new_sound table
  step observed after sound step := by
    cases step with
    | start unused =>
      exact ⟨start_fresh sound.fresh, start_paired sound.fresh sound.paired,
        (start_tabled_iff sound.fresh sound.tabled).mpr unused⟩
    | leave running work undisturbed handed =>
      obtain ⟨paired, tabled⟩ := (leave_sound_iff sound running work).mpr ⟨undisturbed, handed⟩
      exact ⟨leave_fresh sound.fresh running _, paired, tabled⟩

end

namespace Sample

open Server.Sample

def started : Observed accessLogHook := (Observed.new accessLogHook).start

/-- A call on a byte stream that succeeds, up to the end of its stream. -/
def work (closing : Except RpcError Unit) : Work tables :=
  .unary engine none (.new "server" "1" none) ⟨.empty, [], none, .returned (.ok none)⟩ closing

end Sample

/-! ## Chains -/

/-- A hook of a chain, or of a chain inside it. -/
inductive Member : DispatchHook → DispatchHook → Type 1 where
  | of {count : Nat} (inner : Fin count → DispatchHook) (place : Fin count) :
      Member (chainHook inner) (inner place)
  | inside {count : Nat} (inner : Fin count → DispatchHook) (place : Fin count)
      {hook : DispatchHook} : Member (inner place) hook → Member (chainHook inner) hook

def Member.see {outer hook : DispatchHook} : Member outer hook → outer.State → hook.State
  | .of _ place, states => states place
  | .inside _ place member, states => member.see (states place)

/-- What the calls of a server do: one starts, or a running one is left. -/
inductive Action where
  | start
  | leave (call : Nat) (ended : Option (Option RpcError))

variable {hook : DispatchHook}

def Observed.act (seat : Seat) (observed : Observed hook) : Action → Observed hook
  | .start => observed.start
  | .leave call ended =>
    match observed.running call with
    | some token => observed.leave seat call token ended
    | none => observed

def Observed.after (hook : DispatchHook) (seat : Seat) (actions : List Action) : Observed hook :=
  actions.foldl (Observed.act seat) (.new hook)

/-- Every end has the token that the start of its call returned. -/
def Observed.Returned (observed : Observed hook) : Prop :=
  ∀ call token error, .ended call token error ∈ observed.events →
    .started call token ∈ observed.events

section

variable {outer hook : DispatchHook}

theorem after_append (seat : Seat) (actions : List Action) (action : Action) :
    Observed.after hook seat (actions ++ [action]) = (Observed.after hook seat actions).act seat action := by
  rw [Observed.after, foldl_append]
  rfl

theorem Member.initial (member : Member outer hook) : member.see outer.initial = hook.initial := by
  induction member with
  | of => rfl
  | inside _ _ _ ih => exact ih

theorem Member.started (member : Member outer hook) (state : outer.State) :
    (outer.onDispatchStart state).1 = 0 ∧
      member.see (outer.onDispatchStart state).2 = (hook.onDispatchStart (member.see state)).2 := by
  induction member with
  | of => exact ⟨rfl, rfl⟩
  | inside _ _ _ ih => exact ⟨rfl, (ih _).2⟩

theorem Member.ended (member : Member outer hook) (token : HookToken) (error : Option RpcError)
    (state : outer.State) :
    member.see (outer.onDispatchEnd token error state) =
      hook.onDispatchEnd token error (member.see state) := by
  induction member with
  | of => rfl
  | inside _ _ _ ih => exact ih _

/-- A hook of a chain sees the calls of the chain, under tokens of its own. -/
structure Seated (member : Member outer hook) (chain : Observed outer) (own : Observed hook) :
    Prop where
  state : member.see chain.state = own.state
  calls : own.calls = chain.calls
  running : ∀ call, (own.running call).isSome = (chain.running call).isSome
  tokens : ∀ call token, chain.running call = some token → token = 0

variable {member : Member outer hook} {chain : Observed outer} {own : Observed hook}

theorem Seated.start (seated : Seated member chain own) : Seated member chain.start own.start where
  state := (member.started chain.state).2.trans
    (congrArg (fun state => (hook.onDispatchStart state).2) seated.state)
  calls := congrArg (· + 1) seated.calls
  running call := by
    by_cases same : call = chain.calls
    · rw [same, start_running_self, ← seated.calls, start_running_self]
      rfl
    · rw [start_running_other same, start_running_other (seated.calls ▸ same), seated.running]
  tokens call token running := by
    by_cases same : call = chain.calls
    · rw [same, start_running_self] at running
      exact (Option.some.inj running).symm.trans (member.started chain.state).1
    · rw [start_running_other same] at running
      exact seated.tokens call token running

theorem Seated.leave (seated : Seated member chain own) {call : Nat} {token mine : HookToken}
    (running : chain.running call = some token) (ended : Option (Option RpcError)) :
    Seated member (chain.leave .registered call token ended)
      (own.leave .chained call mine ended) where
  state := by
    cases ended with
    | none => exact seated.state
    | some error =>
      rw [seated.tokens call token running]
      exact (member.ended 0 error chain.state).trans
        (congrArg (hook.onDispatchEnd 0 error) seated.state)
  calls := by cases ended <;> exact seated.calls
  running other := by
    rw [leave_running, leave_running]
    by_cases same : other = call
    · rw [same, update_self, update_self]
    · rw [update_of_ne same, update_of_ne same, seated.running]
  tokens other another there := by
    rw [leave_running] at there
    by_cases same : other = call
    · rw [same, update_self] at there
      cases there
    · rw [update_of_ne same] at there
      exact seated.tokens other another there

/-- A run of a registered chain is, for each of its hooks, a run in that seat. -/
theorem chain_seats (member : Member outer hook) (actions : List Action) :
    Seated member (.after outer .registered actions) (.after hook .chained actions) := by
  induction actions using reverseRecOn with
  | nil => exact ⟨member.initial, rfl, fun _ => rfl, by rintro _ _ ⟨⟩⟩
  | append_singleton actions action seated =>
    rw [after_append, after_append]
    cases action with
    | start => exact seated.start
    | leave call ended =>
      have alike := seated.running call
      rw [act, act]
      cases running : (after outer .registered actions).running call with
      | none =>
        rw [running, isSome_none, isSome_eq_false_iff, isNone_iff_eq_none] at alike
        rw [alike]
        exact seated
      | some token =>
        rw [running, isSome_some, isSome_iff_exists] at alike
        obtain ⟨mine, there⟩ := alike
        rw [there]
        exact seated.leave running ended

/-- The events of a run: an end in a chain has the token 0, and where a hook sits alone
its tokens come back. -/
theorem after_events (seat : Seat) (actions : List Action) :
    (∀ call token error, .ended call token error ∈ (Observed.after hook seat actions).events →
      ∃ returned, token = seat.handed returned ∧
        .started call returned ∈ (Observed.after hook seat actions).events) ∧
    ∀ call token, (Observed.after hook seat actions).running call = some token →
      .started call token ∈ (Observed.after hook seat actions).events := by
  induction actions using reverseRecOn with
  | nil => exact ⟨by rintro _ _ _ ⟨⟩, by rintro _ _ ⟨⟩⟩
  | append_singleton actions action ih =>
    obtain ⟨ends, starts⟩ := ih
    rw [after_append]
    cases action with
    | start =>
      refine ⟨fun call token error member => ?_, fun call token running => ?_⟩
      · rcases mem_append.mp member with known | new
        · obtain ⟨returned, same, there⟩ := ends call token error known
          exact ⟨returned, same, mem_append_left _ there⟩
        · simp at new
      · rw [act] at running ⊢
        by_cases same : call = (after hook seat actions).calls
        · rw [same, start_running_self] at running
          cases running
          rw [same]
          exact mem_append_right _ (mem_singleton_self _)
        · rw [start_running_other same] at running
          exact mem_append_left _ (starts call token running)
    | leave call ended =>
      rw [act]
      cases running : (after hook seat actions).running call with
      | none => exact ⟨ends, starts⟩
      | some token =>
        have kept : ∀ event ∈ (after hook seat actions).events,
            event ∈ ((after hook seat actions).leave seat call token ended).events := by
          cases ended with
          | none => exact fun _ => id
          | some error => exact fun _ => mem_append_left _
        refine ⟨fun other mine error member => ?_, fun other mine there => ?_⟩
        · cases ended with
          | none => exact ends other mine error member
          | some last =>
            rcases mem_append.mp member with known | new
            · obtain ⟨returned, same, there⟩ := ends other mine error known
              exact ⟨returned, same, kept _ there⟩
            · cases mem_singleton.mp new
              exact ⟨token, rfl, kept _ (starts call token running)⟩
        · dsimp only at there
          rw [leave_running] at there
          by_cases same : other = call
          · rw [same, update_self] at there
            cases there
          · rw [update_of_ne same] at there
            exact kept _ (starts other mine there)

/-- A hook that only ever got back 0 would have seen the same in a chain. -/
theorem after_chained (actions : List Action) (zero : ∀ call token error, .ended call token error ∈
    (Observed.after hook .registered actions).events → token = 0) :
    Observed.after hook .chained actions = Observed.after hook .registered actions := by
  induction actions using reverseRecOn with
  | nil => rfl
  | append_singleton actions action ih =>
    rw [after_append] at zero ⊢
    rw [after_append]
    cases action with
    | start =>
      rw [ih fun call token error member => zero call token error (mem_append_left _ member)]
      rfl
    | leave call ended =>
      rw [act] at zero ⊢
      rw [act]
      cases running : (after hook .registered actions).running call with
      | none =>
        rw [running] at zero
        rw [ih zero, running]
      | some token =>
        rw [running] at zero
        cases ended with
        | none =>
          rw [ih zero, running]
          rfl
        | some last =>
          have back := zero call token last (mem_append_right _ (mem_singleton_self _))
          rw [ih fun call token error member =>
            zero call token error (mem_append_left _ member), running, back]
          rfl

/-- What a member of a chain goes through is its run in that seat, and it sees what it would
see alone, with its own tokens, exactly when every token that came back to it alone was 0. -/
theorem chain_transparent_iff (member : Member outer hook) (actions : List Action) :
    member.see (Observed.after outer .registered actions).state =
        (Observed.after hook .chained actions).state ∧
      (((Observed.after hook .chained actions).events =
          (Observed.after hook .registered actions).events ∧
        (Observed.after hook .chained actions).Returned) ↔
      ∀ call token error,
        .ended call token error ∈ (Observed.after hook .registered actions).events → token = 0) := by
  refine ⟨(chain_seats member actions).state, ?_, fun zero => ?_⟩
  · rintro ⟨same, -⟩ call token error ended
    rw [← same] at ended
    obtain ⟨_, zero, _⟩ := (after_events .chained actions).1 call token error ended
    exact zero
  · rw [after_chained actions zero]
    refine ⟨rfl, fun call token error ended => ?_⟩
    obtain ⟨returned, same, started⟩ := (after_events .registered actions).1 call token error ended
    cases same
    exact started

end

/-- An access log in a chain inside a chain keeps the one call that has started and ended. -/
theorem chained_log_keeps_call :
    accessLogTable.table ((Member.inside (fun _ : Fin 1 => chainHook fun _ : Fin 1 => accessLogHook) 0
        (.of _ 0)).see
      (Observed.after _ .registered [.start, .leave 0 (some none)]).state) = {1} ∧
    accessLogTable.table
      (Observed.after accessLogHook .registered [.start, .leave 0 (some none)]).state = ∅ := by
  decide

end VgiRpc.Hooks
