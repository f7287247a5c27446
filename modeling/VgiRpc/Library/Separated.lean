import Mathlib.Algebra.GroupWithZero.Nat
import Mathlib.Data.List.Basic

/-!
# Joined lists

Lists joined by a separator.  The parts come back from the whole when none of them
holds the separator; it is enough to know this of one of two lists of parts of the
same number, because the separators can be counted.
-/

namespace VgiRpc.Library

open List

variable {α : Type} [DecidableEq α] {separator : α} {parts : List (List α)}

theorem count_intercalate (separator : α) (nonempty : parts ≠ []) :
    ([separator].intercalate parts).count separator + 1 =
      (parts.map (List.count separator)).sum + parts.length := by
  induction parts with
  | nil => exact absurd rfl nonempty
  | cons part rest ih =>
    cases rest with
    | nil => simp [intercalate_singleton]
    | cons next others =>
      have tail := ih (cons_ne_nil _ _)
      rw [intercalate_cons_cons, count_append, count_append,
        count_singleton_self, map_cons, sum_cons, length_cons]
      omega

def Separable (separator : α) (parts : List (List α)) : Prop := ∀ part ∈ parts, separator ∉ part

theorem separable_iff_count : Separable separator parts ↔ (parts.map (List.count separator)).sum = 0 := by
  induction parts with
  | nil => simp [Separable]
  | cons part rest ih =>
    unfold Separable at ih ⊢
    rw [forall_mem_cons, ih, map_cons, sum_cons, Nat.add_eq_zero_iff, count_eq_zero]

theorem intercalate_injective {first second : List (List α)}
    (lengths : first.length = second.length) (separable : Separable separator first)
    (same : [separator].intercalate first = [separator].intercalate second) : first = second := by
  by_cases empty : first = []
  · rw [empty] at lengths ⊢
    exact (length_eq_zero_iff.mp lengths.symm).symm
  have others : second ≠ [] := by
    intro none
    rw [none] at lengths
    exact empty (length_eq_zero_iff.mp lengths)
  have firstCount := count_intercalate separator empty
  have secondCount := count_intercalate separator others
  have also : Separable separator second := by
    rw [separable_iff_count] at separable ⊢
    rw [same] at firstCount
    omega
  rw [← splitOn_intercalate separator separable empty, same,
    splitOn_intercalate separator also others]

/-- Symbols are read one after the other when no code begins another and none begins what
follows. -/
theorem flatMap_append_inj {β γ : Type} {code : β → List γ} {first second : List β} {rest more :
    List γ} (apart : ∀ one ∈ first, ∀ two ∈ second, ∀ restOne restTwo, code one ++ restOne = code
    two ++ restTwo → one = two ∧ restOne = restTwo) (ends : ∀ two ∈ second, ∀ tail, rest ≠ code two
    ++ tail) (alsoEnds : ∀ one ∈ first, ∀ tail, more ≠ code one ++ tail) (same : first.flatMap code
    ++ rest = second.flatMap code ++ more) :
    first = second ∧ rest = more := by
  induction first generalizing second with
  | nil =>
    cases second with
    | nil => exact ⟨rfl, same⟩
    | cons two others =>
      rw [flatMap_nil, nil_append, flatMap_cons, append_assoc] at same
      exact absurd same (ends two mem_cons_self _)
  | cons one others ih =>
    cases second with
    | nil =>
      rw [flatMap_nil, nil_append, flatMap_cons, append_assoc] at same
      exact absurd same.symm (alsoEnds one mem_cons_self _)
    | cons two later =>
      rw [flatMap_cons, flatMap_cons, append_assoc, append_assoc] at same
      obtain ⟨rfl, behind⟩ := apart one mem_cons_self two mem_cons_self _ _ same
      obtain ⟨rfl, tail⟩ := ih (fun one member two among => apart one (mem_cons_of_mem _ member) two
        (mem_cons_of_mem _ among)) (forall_mem_cons.mp ends).2 (forall_mem_cons.mp alsoEnds).2 behind
      exact ⟨rfl, tail⟩

/-- A run of elements ends at the first one that is not of its kind. -/
theorem append_inj_of_stops {keep : α → Prop} {first second rest more : List α} (kept : ∀ element ∈
    first, keep element) (alsoKept : ∀ element ∈ second, keep element) (stops : ∀ element ∈
    rest.head?, ¬ keep element) (alsoStops : ∀ element ∈ more.head?, ¬ keep element) (same : first
    ++ rest = second ++ more) : first = second ∧ rest = more := by
  have ends {run text : List α} (kept : ∀ element ∈ run, keep element)
      (stops : ∀ element ∈ text.head?, ¬ keep element) :
      ∀ element ∈ run, ∀ tail, text ≠ [element] ++ tail := by
    rintro element member tail rfl
    exact stops element rfl (kept element member)
  refine flatMap_append_inj (fun _ _ _ _ _ _ => List.cons.inj) (ends alsoKept stops)
    (ends kept alsoStops) ?_
  simpa using same

/-- A list ends in front of the first of an element it does not hold. -/
theorem append_cons_inj {mark : α} {first second rest more : List α} (free : mark ∉ first)
    (alsoFree : mark ∉ second) (same : first ++ mark :: rest = second ++ mark :: more) :
    first = second ∧ rest = more := by
  have stops : ∀ text : List α, ∀ element ∈ (mark :: text).head?, ¬ element ≠ mark :=
    fun text element member other => other (Option.some.inj member).symm
  obtain ⟨same, behind⟩ := append_inj_of_stops (fun _ member => ne_of_mem_of_not_mem member free)
    (fun _ member => ne_of_mem_of_not_mem member alsoFree) (stops rest) (stops more) same
  exact ⟨same, (List.cons.inj behind).2⟩

end VgiRpc.Library
