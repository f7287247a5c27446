import Mathlib.Data.Rat.Encodable
import Mathlib.Logic.Equiv.List
import Mathlib.Tactic.DeriveCountable
import VgiRpc.Library.Float64

/-!
# JSON values

The values of JSON, with integers of 64 bits apart from doubles, and an object as the
entries of a map.  Printing and parsing are any two functions of which the second undoes
the first.
-/

namespace VgiRpc.Library

open List

inductive JsonNumber where
  | integer (value : ℤ) (fits : -2 ^ 63 ≤ value ∧ value < 2 ^ 64)
  | float (value : Float64) (finite : value.isFinite = true)

theorem natAbs_le_of_fits {value : ℤ} (fits : -2 ^ 63 ≤ value ∧ value < 2 ^ 64) :
    value.natAbs ≤ 2 ^ 64 := by
  omega

def JsonNumber.asF64 : JsonNumber → Float64
  | .integer value fits => .ofInt value (natAbs_le_of_fits fits)
  | .float value _ => value

inductive Json where
  | null
  | bool (value : Bool)
  | number (value : JsonNumber)
  | string (value : String)
  | array (items : List Json)
  | object (entries : List (String × Json))

namespace Json

def asObject : Json → Option (List (String × Json))
  | .object entries => some entries
  | _ => none

theorem asObject_object (entries : List (String × Json)) :
    (object entries).asObject = some entries := rfl

def asStr : Json → Option String
  | .string value => some value
  | _ => none

def asF64 : Json → Option Float64
  | .number value => some value.asF64
  | _ => none

def isObject : Json → Bool
  | .object _ => true
  | _ => false

def isBoolean : Json → Bool
  | .bool _ => true
  | _ => false

/-- A double that is no number of JSON becomes `null`. -/
def ofFloat64 (value : Float64) : Json :=
  if finite : value.isFinite = true then .number (.float value finite) else .null

/-- Every object has each key once. -/
inductive WellFormed : Json → Prop where
  | null : WellFormed .null
  | bool (value : Bool) : WellFormed (.bool value)
  | number (value : JsonNumber) : WellFormed (.number value)
  | string (value : String) : WellFormed (.string value)
  | array {items : List Json} : (∀ item ∈ items, WellFormed item) → WellFormed (.array items)
  | object {entries : List (String × Json)} : (entries.map Prod.fst).Nodup →
      (∀ entry ∈ entries, WellFormed entry.2) → WellFormed (.object entries)

theorem WellFormed.of_mem {items : List Json} (wellFormed : (Json.array items).WellFormed)
    {item : Json} (member : item ∈ items) : item.WellFormed := by
  cases wellFormed with
  | array all => exact all item member

theorem WellFormed.of_lookup {entries : List (String × Json)}
    (wellFormed : (Json.object entries).WellFormed) {key : String} {value : Json}
    (found : entries.lookup key = some value) : value.WellFormed := by
  cases wellFormed with
  | object _ all =>
    obtain ⟨before, after, split, -⟩ := lookup_eq_some_iff.mp found
    exact all (key, value) (by rw [split]; simp)

/-- A printer and a parser that reads back what was printed. -/
structure Codec where
  print : Json → String
  parse : String → Option Json
  parse_print : ∀ value : Json, value.WellFormed → parse (print value) = some value
  parse_wellFormed : ∀ {text : String} {value : Json}, parse text = some value → value.WellFormed

/-! ## A codec

Values are countable, so texts can stand for them. -/

instance : Countable String := by
  have chars : Function.Injective Char.toNat := fun one two equal =>
    Char.ext (UInt32.toNat_inj.mp equal)
  exact Function.Injective.countable (f := fun text : String => text.toList.map Char.toNat)
    fun first second same => String.toList_injective (chars.list_map same)

deriving instance Countable for Float64
deriving instance Countable for JsonNumber

inductive Token where
  | mark (kind : Fin 5)
  | bool (value : Bool)
  | number (value : JsonNumber)
  | text (value : String)
  deriving Countable

mutual

def tokens : Json → List Token
  | .null => [.mark 0]
  | .bool value => [.bool value]
  | .number value => [.number value]
  | .string value => [.text value]
  | .array items => .mark 1 :: itemTokens items
  | .object entries => .mark 2 :: entryTokens entries

def itemTokens : List Json → List Token
  | [] => [.mark 3]
  | item :: rest => .mark 4 :: (tokens item ++ itemTokens rest)

def entryTokens : List (String × Json) → List Token
  | [] => [.mark 3]
  | entry :: rest => .text entry.1 :: (tokens entry.2 ++ entryTokens rest)

end

mutual

/-- A value is told from what follows it. -/
theorem tokens_append_inj {value other : Json} {rest more : List Token}
    (same : tokens value ++ rest = tokens other ++ more) : value = other ∧ rest = more := by
  cases value with
  | null | bool value | number value | string value => cases other <;> simp_all [tokens]
  | array items =>
    cases other with
    | array others =>
      simp only [tokens, cons_append, List.cons.injEq, true_and] at same
      obtain ⟨rfl, rest⟩ := itemTokens_append_inj same
      exact ⟨rfl, rest⟩
    | _ => simp_all [tokens]
  | object entries =>
    cases other with
    | object others =>
      simp only [tokens, cons_append, List.cons.injEq, true_and] at same
      obtain ⟨rfl, rest⟩ := entryTokens_append_inj same
      exact ⟨rfl, rest⟩
    | _ => simp_all [tokens]

theorem itemTokens_append_inj {items others : List Json} {rest more : List Token}
    (same : itemTokens items ++ rest = itemTokens others ++ more) : items = others ∧ rest = more := by
  cases items with
  | nil => cases others <;> simp_all [itemTokens]
  | cons item items =>
    cases others with
    | nil => simp_all [itemTokens]
    | cons other others =>
      simp only [itemTokens, cons_append, append_assoc, List.cons.injEq, true_and] at same
      obtain ⟨rfl, tail⟩ := tokens_append_inj same
      obtain ⟨rfl, rest⟩ := itemTokens_append_inj tail
      exact ⟨rfl, rest⟩

theorem entryTokens_append_inj {entries others : List (String × Json)} {rest more : List Token}
    (same : entryTokens entries ++ rest = entryTokens others ++ more) :
    entries = others ∧ rest = more := by
  cases entries with
  | nil => cases others <;> simp_all [entryTokens]
  | cons entry entries =>
    cases others with
    | nil => simp_all [entryTokens]
    | cons other others =>
      simp only [entryTokens, cons_append, append_assoc, List.cons.injEq, Token.text.injEq] at same
      obtain ⟨key, tail⟩ := same
      obtain ⟨value, tail⟩ := tokens_append_inj tail
      obtain ⟨rfl, rest⟩ := entryTokens_append_inj tail
      exact ⟨by rw [Prod.ext key value], rest⟩

end

instance : Countable Json :=
  Function.Injective.countable (f := tokens) fun value other same =>
    (@tokens_append_inj value other [] [] (by rw [same])).1

/-- Texts of one letter, as many as the number of the value. -/
noncomputable def unaryPrint (value : Json) : String :=
  .ofList (List.replicate ((exists_injective_nat Json).choose value) '1')

theorem unaryPrint_injective : Function.Injective unaryPrint := by
  intro value other same
  have count := congrArg (fun text => text.toList.length) same
  simp only [unaryPrint, String.toList_ofList, length_replicate] at count
  exact (exists_injective_nat Json).choose_spec count

open Classical in
noncomputable def unaryCodec : Codec where
  print := unaryPrint
  parse text :=
    if known : ∃ value, value.WellFormed ∧ unaryPrint value = text then some known.choose else none
  parse_print value wellFormed := by
    have known : ∃ other, other.WellFormed ∧ unaryPrint other = unaryPrint value :=
      ⟨value, wellFormed, rfl⟩
    rw [dif_pos known, unaryPrint_injective known.choose_spec.2]
  parse_wellFormed {text value} parsed := by
    split_ifs at parsed with known
    cases parsed
    exact known.choose_spec.1

end Json
end VgiRpc.Library
