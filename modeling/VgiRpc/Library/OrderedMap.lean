import Mathlib.Data.List.Sort

/-!
# Finite maps with an iteration order

A finite map is the list of its entries, one per key, in the order an iteration
visits them.  Overwriting keeps an entry's place and a new key goes last, so a
map rebuilt from its own iteration is the same map.
-/

namespace VgiRpc.Library

open List

@[ext]
structure OrderedMap (κ α : Type) where
  entries : List (κ × α)
  distinct : (entries.map Prod.fst).Nodup
  deriving DecidableEq

namespace OrderedMap

variable {κ α : Type}

def empty : OrderedMap κ α := ⟨[], List.nodup_nil⟩

variable (map : OrderedMap κ α)

def keys : List κ := map.entries.map Prod.fst

def size : Nat := map.entries.length

def isEmpty : Bool := map.entries.isEmpty

variable [DecidableEq κ] (map : OrderedMap κ α) (key : κ)

def get? : Option α := map.entries.lookup key

def contains : Bool := decide (key ∈ map.keys)

variable (value : α) (entry : κ × α)

/-- Put `value` at the place of the entry for `key`. -/
def overwrite : κ × α :=
  if entry.1 = key then (key, value) else entry

theorem overwrite_fst :
    (overwrite key value entry).1 = entry.1 := by
  unfold overwrite
  split
  · exact (‹entry.1 = key›).symm
  · rfl

def insert : OrderedMap κ α :=
  if present : key ∈ map.keys then
    ⟨map.entries.map (overwrite key value), by
      simpa only [List.map_map, Function.comp_def, overwrite_fst] using map.distinct⟩
  else
    ⟨map.entries ++ [(key, value)], by
      rw [List.map_append, List.nodup_append]
      refine ⟨map.distinct, by simp, ?_⟩
      intro first inMap second inNew same
      simp only [List.map_cons, List.map_nil, List.mem_singleton] at inNew
      exact present (inNew ▸ same ▸ inMap)⟩

def remove : OrderedMap κ α :=
  ⟨map.entries.filter (fun entry => entry.1 ≠ key),
    map.distinct.sublist (List.filter_sublist.map _)⟩

variable (entries : List (κ × α))

def ofEntries : OrderedMap κ α :=
  entries.foldl (fun map entry => map.insert entry.1 entry.2) empty

@[simp]
theorem get?_empty (key : κ) : (empty : OrderedMap κ α).get? key = none := rfl

theorem lookup_overwrite (key other : κ) (value : α) :
    (entries.map (overwrite key value)).lookup other =
      if other = key ∧ key ∈ entries.map Prod.fst then some value else entries.lookup other := by
  induction entries with
  | nil => simp
  | cons entry rest ih =>
    obtain ⟨first, held⟩ := entry
    by_cases atKey : first = key
    · subst atKey
      by_cases same : other = first
      · subst same; simp [overwrite]
      · have apart : (other == first) = false := by simpa using same
        simp only [map_cons, overwrite, if_true, lookup_cons, apart]
        rw [show (List.map (overwrite first value) rest).lookup other = _ from ih]
        simp [same]
    · by_cases same : other = first
      · subst same
        simp [overwrite, atKey]
      · have apart : (other == first) = false := by simpa using same
        simp only [map_cons, overwrite, if_neg atKey, lookup_cons, apart]
        rw [show (List.map (overwrite key value) rest).lookup other = _ from ih]
        have narrow : key ∈ first :: rest.map Prod.fst ↔ key ∈ rest.map Prod.fst := by
          rw [mem_cons]
          exact or_iff_right (Ne.symm atKey)
        simp only [narrow]

variable (map : OrderedMap κ α)

theorem get?_isSome_iff (key : κ) : (map.get? key).isSome ↔ key ∈ map.keys := by
  unfold get? keys
  induction map.entries with
  | nil => simp
  | cons entry rest ih =>
    obtain ⟨first, held⟩ := entry
    by_cases same : key = first
    · subst same; simp
    · have apart : (key == first) = false := by simpa using same
      simp only [lookup_cons, apart, map_cons, mem_cons, same, false_or]
      exact ih

theorem get?_insert (key other : κ) (value : α) :
    (map.insert key value).get? other = if other = key then some value else map.get? other := by
  unfold insert
  by_cases present : key ∈ map.keys
  · rw [dif_pos present]
    have := lookup_overwrite map.entries key other value
    simp only [get?]
    rw [this]
    by_cases same : other = key
    · subst same; rw [if_pos ⟨rfl, present⟩, if_pos rfl]
    · simp [same]
  · rw [dif_neg present]
    simp only [get?, lookup_append]
    by_cases same : other = key
    · subst same
      have missing : map.entries.lookup other = none := by
        have absent := (get?_isSome_iff map other).not.mpr present
        exact Option.not_isSome_iff_eq_none.mp absent
      simp [missing]
    · have apart : (other == key) = false := by simpa using same
      simp [lookup_cons, apart, same]

@[simp]
theorem get?_insert_self (key : κ) (value : α) : (map.insert key value).get? key = some value := by
  simp [get?_insert]

theorem get?_remove (key other : κ) :
    (map.remove key).get? other = if other = key then none else map.get? other := by
  unfold remove get?
  simp only
  induction map.entries with
  | nil => simp
  | cons entry rest ih =>
    obtain ⟨first, held⟩ := entry
    by_cases atKey : first = key
    · subst atKey
      rw [filter_cons_of_neg (by simp), ih]
      by_cases same : other = first
      · simp [same]
      · have apart : (other == first) = false := by simpa using same
        simp [lookup_cons, apart, same]
    · rw [filter_cons_of_pos (by simpa using atKey)]
      by_cases same : other = first
      · subst same
        simp [atKey]
      · have apart : (other == first) = false := by simpa using same
        simp only [lookup_cons, apart, ih]

/-- The entries of the removed keys are gone, the others are as they were. -/
theorem get?_foldl_remove (removed : List κ) (map : OrderedMap κ α) (key : κ) :
    (removed.foldl remove map).get? key = if key ∈ removed then none else map.get? key := by
  induction removed generalizing map with
  | nil => simp
  | cons first rest ih =>
    rw [foldl_cons, ih, get?_remove]
    by_cases same : key = first
    · simp [same]
    · simp [same]

variable {map : OrderedMap κ α} {key : κ}

theorem mem_entries_iff {value : α} : (key, value) ∈ map.entries ↔ map.get? key = some value := by
  constructor
  · intro member
    have present : key ∈ map.keys := mem_map.mpr ⟨(key, value), member, rfl⟩
    obtain ⟨held, found⟩ := Option.isSome_iff_exists.mp ((get?_isSome_iff map key).mpr present)
    obtain ⟨before, after, split, _⟩ := lookup_eq_some_iff.mp found
    have other : (key, held) ∈ map.entries := by rw [split]; simp
    have same := inj_on_of_nodup_map map.distinct member other rfl
    rw [found, (Prod.mk.inj same).2]
  · intro found
    obtain ⟨before, after, split, _⟩ := lookup_eq_some_iff.mp found
    rw [split]
    simp

theorem size_remove_le (map : OrderedMap κ α) (key : κ) : (map.remove key).size ≤ map.size :=
  length_filter_le _ _

theorem size_insert (map : OrderedMap κ α) (key : κ) (value : α) :
    (map.insert key value).size = if key ∈ map.keys then map.size else map.size + 1 := by
  unfold insert
  split <;> simp [size]

theorem keys_insert (map : OrderedMap κ α) (key : κ) (value : α) :
    (map.insert key value).keys = if key ∈ map.keys then map.keys else map.keys ++ [key] := by
  unfold insert
  split
  · simp [keys, overwrite_fst]
  · simp [keys]

theorem entries_insert_of_fresh (fresh : key ∉ map.keys) (value : α) :
    (map.insert key value).entries = map.entries ++ [(key, value)] := by
  unfold insert
  rw [dif_neg fresh]

variable (pending : List (κ × α)) (map : OrderedMap κ α)

theorem foldl_insert_entries (apart : (map.keys ++ pending.map Prod.fst).Nodup) :
    (pending.foldl (fun acc entry => acc.insert entry.1 entry.2) map).entries =
      map.entries ++ pending := by
  induction pending generalizing map with
  | nil => simp
  | cons entry rest ih =>
    have fresh : entry.1 ∉ map.keys := by
      intro member
      rw [map_cons, nodup_append] at apart
      exact apart.2.2 _ member _ (mem_cons_self ..) rfl
    rw [foldl_cons, ih, entries_insert_of_fresh fresh]
    · simp
    · rw [keys_insert, if_neg fresh]
      simpa using apart

variable (key : κ)

theorem get?_foldl_insert (distinct : (pending.map Prod.fst).Nodup) :
    (pending.foldl (fun acc entry => acc.insert entry.1 entry.2) map).get? key =
      (pending.lookup key).or (map.get? key) := by
  induction pending generalizing map with
  | nil => rfl
  | cons entry rest ih =>
    rw [map_cons, nodup_cons] at distinct
    rw [foldl_cons, ih _ distinct.2, get?_insert, lookup_cons]
    by_cases same : key = entry.1
    · have absent : rest.lookup key = none := by
        rw [lookup_eq_none_iff]
        intro other member
        rw [bne_iff_ne]
        intro found
        exact distinct.1 (same ▸ found ▸ mem_map_of_mem member)
      rw [absent, if_pos same, beq_iff_eq.mpr same]
      rfl
    · rw [if_neg same, beq_eq_false_iff_ne.mpr same]

theorem get?_foldl_insert_last :
    (entries.foldl (fun map entry => map.insert entry.1 entry.2) map).get? key =
      (((entries.filter fun entry => entry.1 = key).map Prod.snd).getLast?).or (map.get? key) := by
  induction entries generalizing map with
  | nil => rfl
  | cons entry rest ih =>
    rw [foldl_cons, ih, get?_insert]
    split_ifs with same
    · rw [filter_cons_of_pos (by simp [same]), map_cons, getLast?_cons]
      cases ((rest.filter fun entry => entry.1 = key).map Prod.snd).getLast? <;> rfl
    · rw [filter_cons_of_neg (by simpa using Ne.symm same)]

/-- The last entry of a key counts. -/
theorem get?_ofEntries : (ofEntries entries).get? key =
      ((entries.filter fun entry => entry.1 = key).map Prod.snd).getLast? := by
  rw [ofEntries, get?_foldl_insert_last, get?_empty, Option.or_none]

/-- A map is rebuilt by inserting what its own iteration yields. -/
theorem ofEntries_entries : ofEntries map.entries = map := by
  apply OrderedMap.ext
  have rebuilt := foldl_insert_entries map.entries empty (by simpa [keys, empty] using map.distinct)
  simpa [ofEntries, empty] using rebuilt

end OrderedMap

end VgiRpc.Library

