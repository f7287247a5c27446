import Mathlib.Algebra.Order.BigOperators.Group.List
import VgiRpc.Auth.Request
import VgiRpc.Library.Document
import VgiRpc.Library.Json
import VgiRpc.Library.Program

/-!
# Limits of the JSON in evidence

The attributes and capabilities of a peer are JSON objects, and their depth, the number of
their values and the size of their compact text are limited.  The walk over a value counts
the values and the bytes of the texts and keys it has met, and gives up before anything is
written when these alone are too many.
-/

namespace VgiRpc.Identity

open Library List
open Auth (byteLength)

def maxJsonBytes : Nat := 65536
def maxJsonDepth : Nat := 16
def maxJsonValues : Nat := 4096

/-- The bytes of the text or the keys of a value itself. -/
def sourceBytes : Json → Nat
  | .string text => byteLength text.toList
  | .object entries => (entries.map fun entry => byteLength entry.1.toList).sum
  | _ => 0

/-- The values the walk goes on to from a value. -/
def children : Json → List Json
  | .array items => items
  | .object entries => entries.map Prod.snd
  | _ => []

theorem sizeOf_child {value child : Json} (member : child ∈ children value) :
    sizeOf child < sizeOf value := by
  cases value with
  | null | bool _ | number _ | string _ => cases member
  | array items =>
    have small : sizeOf child < sizeOf items := sizeOf_lt_of_mem member
    simp only [Json.array.sizeOf_spec]
    omega
  | object entries =>
    obtain ⟨⟨key, child⟩, among, rfl⟩ := mem_map.mp member
    have small := sizeOf_lt_of_mem among
    simp only [Json.object.sizeOf_spec, Prod.mk.sizeOf_spec] at small ⊢
    omega

variable (path : String)

/-- The state is the number of values met and the bytes of their texts.  Both saturate in the
source, far above what is allowed. -/
def validateJsonValue (depth : Nat) (value : Json) (state : Nat × Nat) :
    Except RpcError (Nat × Nat) :=
  if maxJsonDepth < depth then .error (.valueError (path ++ " exceeds maximum JSON depth"))
  else if maxJsonValues < state.1 + 1 then
    .error (.valueError (path ++ " exceeds maximum JSON value count"))
  else do
    let after ← (children value).attach.foldlM
      (fun state child => validateJsonValue (depth + 1) child.1 state)
      (state.1 + 1, state.2 + sourceBytes value)
    if maxJsonBytes < after.2 then
      .error (.valueError (path ++ " exceeds maximum JSON byte size"))
    else .ok after
termination_by sizeOf value
decreasing_by exact sizeOf_child child.2

def validateItems (depth : Nat) (items : List Json) (state : Nat × Nat) :
    Except RpcError (Nat × Nat) :=
  items.foldlM (fun state item => validateJsonValue path depth item state) state

theorem validateJsonValue_eq_ok {depth : Nat} {value : Json} {state after : Nat × Nat} :
    validateJsonValue path depth value state = .ok after ↔
      depth ≤ maxJsonDepth ∧ state.1 + 1 ≤ maxJsonValues ∧
        validateItems path (depth + 1) (children value)
          (state.1 + 1, state.2 + sourceBytes value) = .ok after ∧
        after.2 ≤ maxJsonBytes := by
  rw [validateJsonValue]
  simp only [foldlM_subtype, unattach_attach]
  change (if _ then _ else if _ then _ else validateItems _ _ _ _ >>= _) = _ ↔ _
  cases validateItems path (depth + 1) (children value)
    (state.1 + 1, state.2 + sourceBytes value) <;>
    simp only [bind, Except.bind] <;> grind

/-- The values inside a value in the order of the walk, each with its depth. -/
def visits (depth : Nat) (value : Json) : List (Nat × Json) :=
  (depth, value) :: (children value).attach.flatMap fun child => visits (depth + 1) child.1
termination_by sizeOf value
decreasing_by exact sizeOf_child child.2

theorem visits_eq (depth : Nat) (value : Json) :
    visits depth value = (depth, value) :: (children value).flatMap (visits (depth + 1)) := by
  rw [visits]
  simp only [flatMap_subtype, unattach_attach]

def textBytes (visited : List (Nat × Json)) : Nat :=
  (visited.map fun visit => sourceBytes visit.2).sum

/-- What the walk does over values that are within the limits. -/
structure Within (visited : List (Nat × Json)) (state after : Nat × Nat) : Prop where
  depths : ∀ visit ∈ visited, visit.1 ≤ maxJsonDepth
  total : after = (state.1 + visited.length, state.2 + textBytes visited)
  few : visited = [] ∨ after.1 ≤ maxJsonValues ∧ after.2 ≤ maxJsonBytes

section Within

variable {visit : Nat × Json} {visited more : List (Nat × Json)} {state after : Nat × Nat}

theorem within_append :
    Within (visited ++ more) state after ↔
      ∃ between, Within visited state between ∧ Within more between after := by
  have sum : textBytes (visited ++ more) = textBytes visited + textBytes more := by
    simp [textBytes]
  constructor
  · rintro ⟨depths, rfl, few⟩
    rw [forall_mem_append] at depths
    rw [append_eq_nil_iff] at few
    rw [length_append, sum, ← Nat.add_assoc, ← Nat.add_assoc] at few ⊢
    refine ⟨_, ⟨depths.1, rfl, few.imp And.left fun few => ?_⟩, depths.2, rfl,
      few.imp_left And.right⟩
    exact few.imp Nat.le_of_add_right_le Nat.le_of_add_right_le
  · rintro ⟨_, ⟨depths, rfl, few⟩, also, rfl, alsoFew⟩
    refine ⟨forall_mem_append.mpr ⟨depths, also⟩, ?_, ?_⟩
    · rw [length_append, sum, Nat.add_assoc, Nat.add_assoc]
    · rcases alsoFew with rfl | alsoFew
      · simpa [textBytes] using few
      · exact .inr alsoFew

theorem within_cons :
    Within (visit :: visited) state after ↔
      visit.1 ≤ maxJsonDepth ∧ state.1 + 1 ≤ maxJsonValues ∧
        Within visited (state.1 + 1, state.2 + sourceBytes visit.2) after ∧
        after.2 ≤ maxJsonBytes := by
  rw [← singleton_append, within_append]
  constructor
  · rintro ⟨_, ⟨depth, rfl, few⟩, rest⟩
    have few := few.resolve_left (cons_ne_nil _ _)
    refine ⟨depth _ mem_cons_self, few.1, rest, ?_⟩
    rcases rest.few with rfl | bounds
    · exact rest.total ▸ few.2
    · exact bounds.2
  · rintro ⟨depth, count, rest, bytes⟩
    refine ⟨_, ⟨by simpa, rfl, .inr ⟨count, ?_⟩⟩, rest⟩
    exact Nat.le_of_add_right_le (rest.total ▸ bytes)

end Within

theorem validateItems_eq_ok {depth : Nat} {items : List Json}
    (each : ∀ item ∈ items, ∀ state after, validateJsonValue path depth item state = .ok after ↔
      Within (visits depth item) state after) {state after : Nat × Nat} :
    validateItems path depth items state = .ok after ↔
      Within (items.flatMap (visits depth)) state after := by
  unfold validateItems
  induction items generalizing state with
  | nil =>
    rw [foldlM_nil, flatMap_nil]
    constructor
    · rintro ⟨⟩
      exact ⟨by simp, rfl, .inl rfl⟩
    · rintro ⟨-, rfl, -⟩
      rfl
  | cons item items ih =>
    rw [forall_mem_cons] at each
    simp only [foldlM_cons, flatMap_cons, within_append, ← each.1, ← ih each.2]
    constructor
    · exact exceptBind_eq_ok
    · rintro ⟨between, one, two⟩
      rw [one]
      exact two

/-- The bytes of a value are counted before the values in it and looked at behind them. -/
theorem validateJsonValue_iff_within (depth : Nat) (value : Json) (state after : Nat × Nat) :
    validateJsonValue path depth value state = .ok after ↔
      Within (visits depth value) state after := by
  rw [validateJsonValue_eq_ok, visits_eq, within_cons, validateItems_eq_ok _ fun child member =>
    validateJsonValue_iff_within (depth + 1) child]
termination_by sizeOf value
decreasing_by exact sizeOf_child member

theorem byteLength_append (first second : List Char) :
    byteLength (first ++ second) = byteLength first + byteLength second := by
  simp [byteLength]

theorem byteLength_cons (char : Char) (text : List Char) :
    byteLength (char :: text) = char.utf8Size + byteLength text := rfl

theorem sum_le_byteLength {α : Type} {weight : α → Nat} {text : α → List Char} {items : List α}
    (each : ∀ item ∈ items, weight item ≤ byteLength (text item)) :
    (items.map weight).sum ≤ byteLength ([','].intercalate (items.map text)) := by
  induction items with
  | nil => exact Nat.le_refl 0
  | cons item items ih =>
    obtain ⟨one, rest⟩ := forall_mem_cons.mp each
    have rest := ih rest
    rw [map_cons, sum_cons, map_cons]
    cases given : items.map text with
    | nil =>
      rw [map_eq_nil_iff.mp given, intercalate_singleton]
      exact one
    | cons next others =>
      rw [intercalate_cons_cons, byteLength_append, byteLength_append, ← given]
      omega

theorem utf8Size_le_escape (char : Char) : char.utf8Size ≤ byteLength (Document.escape char) := by
  obtain ⟨letter, short, written⟩ | ⟨-, written⟩ | ⟨-, -, written⟩ := Document.escape_cases char
  · rw [written]
    unfold Document.shortEscape at short
    split_ifs at short
    all_goals
      cases short
      subst_vars
      decide
  · have start : byteLength ['\\', 'u', '0', '0'] = 4 := by decide
    rw [written]
    change _ ≤ byteLength (['\\', 'u', '0', '0'] ++ [_, _])
    rw [byteLength_append, start]
    exact Nat.le_add_right_of_le char.utf8Size_le_four
  · exact written ▸ Nat.le_refl _

theorem byteLength_le_quote (text : String) :
    byteLength text.toList ≤ byteLength (Document.quote text) := by
  have escapes : byteLength text.toList ≤ byteLength (text.toList.flatMap Document.escape) := by
    rw [byteLength, byteLength, map_flatMap, flatMap_def, sum_flatten, map_map]
    exact sum_le_sum fun char _ => utf8Size_le_escape char
  rw [Document.quote, byteLength_cons, byteLength_append]
  omega

variable (number : JsonNumber → List Char)

/-- The compact text of a value, given the texts of numbers. -/
def compact : Json → List Char
  | .null => "null".toList
  | .bool value => if value then "true".toList else "false".toList
  | .number value => number value
  | .string text => Document.quote text
  | .array items => '[' :: ([','].intercalate (items.map compact) ++ [']'])
  | .object entries =>
    '\x7b' :: ([','].intercalate (entries.map fun entry =>
      Document.quote entry.1 ++ ':' :: compact entry.2) ++ ['\x7d'])
decreasing_by
  · exact sizeOf_child ‹_›
  · exact sizeOf_child (mem_map_of_mem ‹_›)

theorem textBytes_flatMap (items : List Json) (depth : Nat) :
    textBytes (items.flatMap (visits depth)) =
      (items.map fun item => textBytes (visits depth item)).sum := by
  simp [textBytes, flatMap_def, sum_flatten, Function.comp_def]

/-- What the walk counts of the texts is never more than what is written. -/
theorem textBytes_le (depth : Nat) (value : Json) :
    textBytes (visits depth value) ≤ byteLength (compact number value) := by
  have each : ∀ child ∈ children value,
      textBytes (visits (depth + 1) child) ≤ byteLength (compact number child) :=
    fun child member => textBytes_le (depth + 1) child
  have own : ∀ rest, textBytes ((depth, value) :: rest) = sourceBytes value + textBytes rest :=
    fun _ => rfl
  rw [visits_eq, own, textBytes_flatMap]
  cases value with
  | null | bool _ | number _ => exact Nat.zero_le _
  | string text =>
    rw [compact]
    exact byteLength_le_quote text
  | array items =>
    have sums := sum_le_byteLength each
    simp only [compact, byteLength_cons, byteLength_append, sourceBytes, children] at *
    omega
  | object entries =>
    have entry : ∀ entry ∈ entries, byteLength entry.1.toList +
        textBytes (visits (depth + 1) entry.2) ≤
          byteLength (Document.quote entry.1 ++ ':' :: compact number entry.2) := by
      intro entry member
      have key := byteLength_le_quote entry.1
      have inner := each entry.2 (mem_map_of_mem member)
      rw [byteLength_append, byteLength_cons]
      omega
    have sums := sum_le_byteLength entry
    rw [sum_map_add] at sums
    simp only [compact, byteLength_cons, byteLength_append, sourceBytes, children, map_map,
      Function.comp_def]
    omega
termination_by sizeOf value
decreasing_by exact sizeOf_child member

variable (entries : List (String × Json))

def validateJsonObject : Except RpcError Unit := do
  let _ ← validateItems path 1 (children (.object entries)) (1, sourceBytes (.object entries))
  if maxJsonBytes < byteLength (compact number (.object entries)) then
    .error (.valueError (path ++ " exceeds maximum JSON byte size"))
  else .ok ()

/-- An object passes exactly when its depth, the number of its values, itself among them, and the
bytes of its compact text are within the limits. -/
theorem validateJsonObject_accepts :
    validateJsonObject path number entries = .ok () ↔
      (∀ visit ∈ visits 0 (.object entries), visit.1 ≤ maxJsonDepth) ∧
        (visits 0 (.object entries)).length ≤ maxJsonValues ∧
        byteLength (compact number (.object entries)) ≤ maxJsonBytes := by
  have texts := textBytes_le number 0 (.object entries)
  have walk := @validateItems_eq_ok path 1 (children (.object entries))
    (fun item _ => validateJsonValue_iff_within path 1 item) (1, sourceBytes (.object entries))
  rw [visits_eq] at texts ⊢
  rw [forall_mem_cons, length_cons, Nat.add_comm (length _)]
  constructor
  · intro passed
    obtain ⟨after, walked, written⟩ := exceptBind_eq_ok passed
    obtain ⟨depths, rfl, few⟩ := walk.mp walked
    split_ifs at written with large
    refine ⟨⟨Nat.zero_le _, depths⟩, ?_, Nat.le_of_not_lt large⟩
    rcases few with none | few
    · rw [none]
      decide
    · exact few.1
  · rintro ⟨⟨-, depths⟩, values, fits⟩
    rw [validateJsonObject, walk.mpr ⟨depths, rfl, .inr ⟨values, texts.trans fits⟩⟩]
    exact if_neg (Nat.not_lt.mpr fits)

end VgiRpc.Identity
