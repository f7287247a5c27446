import Mathlib.Data.Finset.Basic
import VgiRpc.Errors
import VgiRpc.Library.Transition

/-!
# Dispatch hooks

A hook is called when the dispatch of a call starts and when it ends, and hands out a
token to tell the calls apart.  Calls run side by side, so between the two callbacks of
one call there may be any of the others'.
-/

namespace VgiRpc.Hooks

open Function (update update_self update_of_ne)

abbrev HookToken := UInt64

/-- What the callbacks of a hook do to its own state. -/
structure DispatchHook where
  State : Type
  initial : State
  onDispatchStart : State → HookToken × State
  onDispatchEnd : HookToken → Option RpcError → State → State

/-- A table of calls in flight that a hook keys by token. -/
structure InFlight (hook : DispatchHook) where
  table : hook.State → Finset HookToken
  initial : table hook.initial = ∅
  started : ∀ state,
    table (hook.onDispatchStart state).2 = insert (hook.onDispatchStart state).1 (table state)
  ended : ∀ token error state,
    table (hook.onDispatchEnd token error state) = (table state).erase token

/-- The start times of the access log, by token, and the next token; the counter wraps. -/
structure AccessLog where
  starts : Finset HookToken
  nextToken : HookToken

def accessLogHook : DispatchHook where
  State := AccessLog
  initial := ⟨∅, 1⟩
  onDispatchStart log := (log.nextToken, ⟨insert log.nextToken log.starts, log.nextToken + 1⟩)
  onDispatchEnd token _ log := { log with starts := log.starts.erase token }

def accessLogTable : InFlight accessLogHook where
  table := AccessLog.starts
  initial := rfl
  started _ := rfl
  ended _ _ _ := rfl

/-- Hooks in sequence.  Their own tokens are dropped, and each is given that of the chain. -/
def chainHook {count : Nat} (inner : Fin count → DispatchHook) : DispatchHook where
  State := ∀ place, (inner place).State
  initial place := (inner place).initial
  onDispatchStart states := (0, fun place => ((inner place).onDispatchStart (states place)).2)
  onDispatchEnd token error states place := (inner place).onDispatchEnd token error (states place)

/-- Where a hook sits: it is the one that is registered, or one of a chain. -/
inductive Seat where
  | registered
  | chained
  deriving DecidableEq

/-- The token that comes back to the hook for one that it returned. -/
def Seat.handed : Seat → HookToken → HookToken
  | .registered, token => token
  | .chained, _ => 0

inductive Event where
  | started (call : Nat) (token : HookToken)
  | ended (call : Nat) (token : HookToken) (error : Option RpcError)

def Event.call : Event → Nat
  | .started call _ | .ended call _ _ => call

/-- A hook with the calls that have started, the tokens of those that are running, and
the callbacks so far. -/
structure Observed (hook : DispatchHook) where
  state : hook.State
  calls : Nat
  running : Nat → Option HookToken
  events : List Event

section

variable {hook : DispatchHook}

variable (hook) in
def Observed.new : Observed hook := ⟨hook.initial, 0, fun _ => none, []⟩

variable (observed : Observed hook)

def Observed.history (call : Nat) : List Event :=
  observed.events.filter (·.call = call)

def Observed.start : Observed hook where
  state := (hook.onDispatchStart observed.state).2
  calls := observed.calls + 1
  running := update observed.running observed.calls
    (some (hook.onDispatchStart observed.state).1)
  events := observed.events ++ [.started observed.calls (hook.onDispatchStart observed.state).1]

/-- A call is left, and its end reported with an error or none, or not reported at all. -/
def Observed.leave (seat : Seat) (call : Nat) (token : HookToken) :
    Option (Option RpcError) → Observed hook
  | none => { observed with running := update observed.running call none }
  | some error =>
    { observed with
      state := hook.onDispatchEnd (seat.handed token) error observed.state
      running := update observed.running call none
      events := observed.events ++ [.ended call (seat.handed token) error] }

/-- A running call was started and not ended, and any other was started and ended once,
with one token, or never started. -/
def Observed.Paired : Prop :=
  ∀ call, match observed.running call with
    | some token => observed.history call = [.started call token]
    | none => observed.history call = [] ∨
        ∃ token error, observed.history call = [.started call token, .ended call token error]

/-- The table holds the running calls and no others, each under its own token. -/
def Observed.Tabled (table : InFlight hook) (observed : Observed hook) : Prop :=
  (∀ token, token ∈ table.table observed.state ↔ ∃ call, observed.running call = some token) ∧
  ∀ call other token, observed.running call = some token → observed.running other = some token →
    call = other

/-- Calls that have not started have left no trace. -/
def Observed.Fresh : Prop :=
  ∀ call, observed.calls ≤ call → observed.running call = none ∧ observed.history call = []

theorem history_event (events : List Event) (event : Event) (call : Nat) :
    (events ++ [event]).filter (·.call = call) =
      events.filter (·.call = call) ++ if event.call = call then [event] else [] := by
  rw [List.filter_append, List.filter_singleton]
  split_ifs with same
  · rw [decide_eq_true same]
    rfl
  · rw [decide_eq_false same]
    rfl

variable {observed : Observed hook} {table : InFlight hook} {seat : Seat} {call : Nat}
  {token : HookToken}

theorem start_running_self : observed.start.running observed.calls =
    some (hook.onDispatchStart observed.state).1 :=
  update_self ..

theorem start_running_other (other : call ≠ observed.calls) :
    observed.start.running call = observed.running call :=
  update_of_ne other ..

theorem start_history (call : Nat) : observed.start.history call = observed.history call ++
      if observed.calls = call then
        [.started observed.calls (hook.onDispatchStart observed.state).1]
      else [] :=
  history_event observed.events (.started observed.calls _) call

theorem start_history_other (other : call ≠ observed.calls) :
    observed.start.history call = observed.history call := by
  rw [start_history, if_neg (Ne.symm other), List.append_nil]

theorem start_fresh (fresh : observed.Fresh) : observed.start.Fresh := by
  intro call later
  have other : call ≠ observed.calls := by
    rintro rfl
    exact absurd later (Nat.not_succ_le_self _)
  rw [start_running_other other, start_history_other other]
  exact fresh call (Nat.le_of_succ_le later)

theorem start_paired (fresh : observed.Fresh) (paired : observed.Paired) :
    observed.start.Paired := by
  intro call
  by_cases same : call = observed.calls
  · rw [same, start_running_self]
    dsimp only
    rw [start_history, if_pos rfl, (fresh _ (Nat.le_refl _)).2]
    rfl
  · rw [start_running_other same, start_history_other same]
    exact paired call

/-- The table tells the calls apart as long as the token of a new one is not in use. -/
theorem start_tabled_iff (fresh : observed.Fresh) (tabled : observed.Tabled table) :
    observed.start.Tabled table ↔
      (hook.onDispatchStart observed.state).1 ∉ table.table observed.state := by
  have unstarted := (fresh observed.calls (Nat.le_refl _)).1
  have other : ∀ {call token}, observed.running call = some token → call ≠ observed.calls := by
    rintro call token running rfl
    rw [unstarted] at running
    cases running
  constructor
  · rintro ⟨-, single⟩ used
    obtain ⟨call, running⟩ := (tabled.1 _).mp used
    refine other running (single call observed.calls _ ?_ start_running_self)
    rw [start_running_other (other running), running]
  · intro unused
    refine ⟨fun token => ?_, fun call another token one two => ?_⟩
    · show token ∈ table.table (hook.onDispatchStart observed.state).2 ↔ _
      rw [table.started, Finset.mem_insert, tabled.1]
      constructor
      · rintro (rfl | ⟨call, running⟩)
        · exact ⟨observed.calls, start_running_self⟩
        · exact ⟨call, by rw [start_running_other (other running), running]⟩
      · rintro ⟨call, running⟩
        by_cases same : call = observed.calls
        · rw [same, start_running_self] at running
          exact .inl (Option.some.inj running).symm
        · rw [start_running_other same] at running
          exact .inr ⟨call, running⟩
    · -- A running call with the new token would have it in the table.
      have unlike : ∀ {call}, call ≠ observed.calls → observed.start.running call = some token →
          observed.start.running observed.calls ≠ some token := by
        intro call different running same
        rw [start_running_other different] at running
        rw [start_running_self] at same
        rw [Option.some.inj same] at unused
        exact unused ((tabled.1 token).mpr ⟨call, running⟩)
      by_cases first : call = observed.calls
      · by_cases second : another = observed.calls
        · rw [first, second]
        · exact absurd (first ▸ one) (unlike second two)
      · by_cases second : another = observed.calls
        · exact absurd (second ▸ two) (unlike first one)
        · rw [start_running_other first] at one
          rw [start_running_other second] at two
          exact tabled.2 call another token one two

variable (ended : Option (Option RpcError))

theorem leave_running : (observed.leave seat call token ended).running =
      update observed.running call none := by
  cases ended <;> rfl

theorem leave_history (other : Nat) :
    (observed.leave seat call token ended).history other = observed.history other ++
        if call = other then
          (ended.map fun error => Event.ended call (seat.handed token) error).toList
        else [] := by
  cases ended with
  | none => exact (List.append_nil _).symm.trans (congrArg _ (ite_self _).symm)
  | some error => exact history_event observed.events (.ended call (seat.handed token) error) other

theorem leave_fresh (fresh : observed.Fresh) (running : observed.running call = some token)
    (ended : Option (Option RpcError)) : (observed.leave seat call token ended).Fresh := by
  intro other later
  have unstarted := fresh other (by cases ended <;> exact later)
  have different : call ≠ other := by
    rintro rfl
    rw [unstarted.1] at running
    cases running
  rw [leave_running, leave_history, if_neg different, List.append_nil,
    update_of_ne (Ne.symm different)]
  exact unstarted

/-- A call is paired when its end is reported with the token of its start. -/
theorem leave_paired_iff (paired : observed.Paired) (running : observed.running call = some token)
    (ended : Option (Option RpcError)) :
    (observed.leave seat call token ended).Paired ↔
      ended.isSome = true ∧ seat.handed token = token := by
  have opened : observed.history call = [.started call token] := by
    have here := paired call
    rw [running] at here
    exact here
  constructor
  · intro after
    have left := after call
    rw [leave_running, update_self, leave_history, if_pos rfl, opened] at left
    cases ended with
    | none => rcases left with empty | ⟨_, _, pair⟩ <;> simp at *
    | some error =>
      rcases left with empty | ⟨_, _, pair⟩
      · cases empty
      · simp only [Option.map_some, Option.toList_some, List.singleton_append] at pair
        injection pair with first second
        injection first with _ same
        injection second with last
        injection last with _ handed
        exact ⟨rfl, handed.trans same.symm⟩
  · rintro ⟨reported, handed⟩ other
    obtain ⟨error, rfl⟩ := Option.isSome_iff_exists.mp reported
    rw [leave_running, leave_history]
    by_cases same : call = other
    · rw [← same, update_self, if_pos rfl, opened, handed]
      exact .inr ⟨token, error, rfl⟩
    · rw [if_neg same, List.append_nil, update_of_ne (Ne.symm same)]
      exact paired other

theorem leave_tabled (tabled : observed.Tabled table) (running : observed.running call = some token)
    (handed : seat.handed token = token) (error : Option RpcError) :
    (observed.leave seat call token (some error)).Tabled table := by
  refine ⟨fun other => ?_, fun one two other first second => ?_⟩
  · show other ∈ table.table (hook.onDispatchEnd (seat.handed token) error observed.state) ↔ _
    rw [handed, table.ended, Finset.mem_erase, tabled.1, leave_running]
    constructor
    · rintro ⟨different, another, there⟩
      refine ⟨another, ?_⟩
      rw [update_of_ne, there]
      rintro rfl
      exact different (Option.some.inj (there.symm.trans running))
    · rintro ⟨another, there⟩
      by_cases same : another = call
      · rw [same, update_self] at there
        cases there
      · rw [update_of_ne same] at there
        refine ⟨?_, another, there⟩
        rintro rfl
        exact same (tabled.2 another call other there running)
  · rw [leave_running] at first second
    have kept : ∀ {another}, update observed.running call none another = some other →
        observed.running another = some other := by
      intro another there
      by_cases same : another = call
      · rw [same, update_self] at there
        cases there
      · rwa [update_of_ne same] at there
    exact tabled.2 one two other (kept first) (kept second)

end

end VgiRpc.Hooks

