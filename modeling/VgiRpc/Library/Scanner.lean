import Mathlib.Data.List.Basic

/-!
# Dividing a list with a state

A scanner goes through a list with a state and says at each symbol whether the list is divided
there.  Two scanners that share their states find, one inside the other, what a single scanner
with both reasons to divide finds.
-/

namespace VgiRpc.Library

open List

structure Scanner (σ α : Type) where
  step : σ → α → σ
  cuts : σ → α → Bool

namespace Scanner

variable {σ τ α : Type} (scanner : Scanner σ α)

/-- The parts of a list behind what has been read of the first. -/
def split : σ → List α → List α → List (List α)
  | _, current, [] => [current]
  | state, current, symbol :: rest =>
    if scanner.cuts state symbol then current :: split (scanner.step state symbol) [] rest
    else split (scanner.step state symbol) (current ++ [symbol]) rest

def piece : σ → List α → List α
  | _, [] => []
  | state, symbol :: rest =>
    if scanner.cuts state symbol then [] else symbol :: piece (scanner.step state symbol) rest

def run (state : σ) (symbols : List α) : σ := symbols.foldl scanner.step state

def whole : σ → List α → Bool
  | _, [] => true
  | state, symbol :: rest => !scanner.cuts state symbol && whole (scanner.step state symbol) rest

variable {scanner}

theorem split_piece (scanner : Scanner σ α) (state : σ) (current symbols : List α) :
    ∃ others, scanner.split state current symbols =
      (current ++ scanner.piece state symbols) :: others := by
  induction symbols generalizing state current with
  | nil => exact ⟨[], by rw [split, piece, append_nil]⟩
  | cons symbol rest ih =>
    rw [split, piece]
    cases scanner.cuts state symbol with
    | true => exact ⟨_, by rw [if_pos rfl, if_pos rfl, append_nil]⟩
    | false =>
      obtain ⟨others, same⟩ := ih (scanner.step state symbol) (current ++ [symbol])
      refine ⟨others, ?_⟩
      rw [if_neg Bool.false_ne_true, if_neg Bool.false_ne_true, same, append_assoc,
        singleton_append]

variable {state : σ} {symbol : α}

theorem whole_cons {rest : List α} : scanner.whole state (symbol :: rest) = true ↔
      scanner.cuts state symbol = false ∧ scanner.whole (scanner.step state symbol) rest = true := by
  rw [whole, Bool.and_eq_true, Bool.not_eq_true']

variable {front : List α}

theorem whole_append {rest : List α} : scanner.whole state (front ++ rest) = true ↔
      scanner.whole state front = true ∧ scanner.whole (scanner.run state front) rest = true := by
  induction front generalizing state with
  | nil => simp [whole, run]
  | cons symbol front ih =>
    rw [cons_append, whole_cons, whole_cons, ih, and_assoc]
    rfl

theorem split_append (undivided : scanner.whole state front = true) (current rest : List α) :
    scanner.split state current (front ++ rest) =
      scanner.split (scanner.run state front) (current ++ front) rest := by
  induction front generalizing state current with
  | nil => rw [nil_append, append_nil, run, foldl_nil]
  | cons symbol front ih =>
    obtain ⟨uncut, others⟩ := whole_cons.mp undivided
    rw [cons_append, split, uncut, if_neg Bool.false_ne_true, ih others, append_assoc,
      singleton_append]
    rfl

theorem piece_append (undivided : scanner.whole state front = true) (rest : List α) :
    scanner.piece state (front ++ rest) =
      front ++ scanner.piece (scanner.run state front) rest := by
  induction front generalizing state with
  | nil => rfl
  | cons symbol front ih =>
    obtain ⟨uncut, others⟩ := whole_cons.mp undivided
    rw [cons_append, piece, uncut, if_neg Bool.false_ne_true, ih others]
    rfl

/-- Symbols that divide in no state, at the end of a list, are the end of its last part. -/
theorem split_trailing {trailing : List α} (uncut : ∀ state, ∀ symbol ∈ trailing, scanner.cuts state
    symbol = false) (state : σ) (current symbols : List α) :
    ∃ parts last, scanner.split state current symbols = parts ++ [last] ∧
      scanner.split state current (symbols ++ trailing) = parts ++ [last ++ trailing] := by
  induction symbols generalizing state current with
  | nil =>
    refine ⟨[], current, rfl, ?_⟩
    have undivided : scanner.whole state trailing = true := by
      clear current
      induction trailing generalizing state with
      | nil => rfl
      | cons symbol rest ih =>
        refine whole_cons.mpr ⟨uncut state symbol (mem_cons_self ..), ih ?_ _⟩
        exact fun state symbol member => uncut state symbol (mem_cons_of_mem _ member)
    have read := split_append undivided current []
    rw [append_nil] at read
    rw [nil_append, read]
    rfl
  | cons symbol rest ih =>
    rw [cons_append, split, split]
    cases scanner.cuts state symbol with
    | true =>
      obtain ⟨parts, last, first, second⟩ := ih (scanner.step state symbol) []
      exact ⟨current :: parts, last, by rw [if_pos rfl, first]; rfl,
        by rw [if_pos rfl, second]; rfl⟩
    | false => exact ih (scanner.step state symbol) (current ++ [symbol])

/-- Divide for the reasons of a second scanner, too. -/
def also (outer : Scanner σ α) (view : σ → τ) (inner : Scanner τ α) : Scanner σ α where
  step := outer.step
  cuts state symbol := outer.cuts state symbol || inner.cuts (view state) symbol

variable {outer : Scanner σ α} {inner : Scanner τ α} {view : σ → τ}

theorem piece_piece (agree : ∀ state symbol, view (outer.step state symbol) = inner.step (view
    state) symbol) (state : σ) (symbols : List α) :
    inner.piece (view state) (outer.piece state symbols) =
      (outer.also view inner).piece state symbols := by
  induction symbols generalizing state with
  | nil => rfl
  | cons symbol rest ih =>
    have cuts : (outer.also view inner).cuts state symbol =
        (outer.cuts state symbol || inner.cuts (view state) symbol) := rfl
    rw [piece, piece, cuts]
    cases outer.cuts state symbol with
    | true => rfl
    | false =>
      rw [if_neg Bool.false_ne_true, Bool.false_or, piece, ← agree, ih]
      rfl

theorem whole_of_also
    (agree : ∀ state symbol, view (outer.step state symbol) = inner.step (view state) symbol)
    {symbols : List α} (undivided : (outer.also view inner).whole state symbols = true) :
    outer.whole state symbols = true ∧ inner.whole (view state) symbols = true ∧
      inner.run (view state) symbols = view (outer.run state symbols) := by
  induction symbols generalizing state with
  | nil => exact ⟨rfl, rfl, rfl⟩
  | cons symbol rest ih =>
    obtain ⟨uncut, others⟩ := whole_cons.mp undivided
    obtain ⟨first, second⟩ := Bool.or_eq_false_iff.mp uncut
    obtain ⟨outside, inside, same⟩ := ih others
    change inner.whole (view (outer.step state symbol)) rest = true at inside
    change inner.run (view (outer.step state symbol)) rest = _ at same
    rw [agree] at inside same
    exact ⟨whole_cons.mpr ⟨first, outside⟩, whole_cons.mpr ⟨second, inside⟩, same⟩

end Scanner

end VgiRpc.Library
