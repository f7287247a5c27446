import VgiRpc.Library.LittleEndian

/-!
# Flat memory

A mapped region as a list of cells, read by slices and changed by overwriting a
range in place.  An access is described by where it falls: a slice inside the
range written last reads the write, and a slice apart from it reads what was there
before.
-/

namespace VgiRpc.Library.Memory

open List

variable {α : Type} (memory : List α)

def slice (start count : Nat) : List α := (memory.drop start).take count

/-- The memory with a range starting at the given cell replaced. -/
def overwrite (start : Nat) (chunk : List α) : List α :=
  memory.take start ++ chunk ++ memory.drop (start + chunk.length)

theorem slice_getElem? (start count index : Nat) :
    (slice memory start count)[index]? = if index < count then memory[start + index]? else none := by
  unfold slice
  rw [getElem?_take, getElem?_drop]

/-- Read one part of a memory laid out in parts, and go on to the next. -/
theorem slice_part {memory before chunk after : List α} (layout : memory = before ++ (chunk ++
    after)) {start count : Nat} (starts : before.length = start) (size : chunk.length = count) :
    slice memory start count = chunk ∧ memory = (before ++ chunk) ++ after ∧
      (before ++ chunk).length = start + count := by
  subst starts size
  rw [slice, layout, drop_left, take_left, append_assoc, length_append]
  exact ⟨rfl, rfl, rfl⟩

theorem slice_slice {memory : List α} {outer count start size : Nat}
    (inside : start + size ≤ count) :
    slice (slice memory outer count) start size = slice memory (outer + start) size := by
  unfold slice
  rw [drop_take, drop_drop, take_take, Nat.min_eq_left (by omega)]

variable {β : Type} {encode : β → List α} {width : Nat}

/-- Records of one width, stored one after another, are read back by index. -/
theorem slice_flatMap (fixed : ∀ record, (encode record).length = width) {records : List β}
    {index : Nat} {record : β} (stored : records[index]? = some record) :
    slice (records.flatMap encode) (width * index) width = encode record := by
  induction records generalizing index with
  | nil => cases stored
  | cons first rest ih =>
    rw [flatMap_cons, slice]
    cases index with
    | zero =>
      rw [Nat.mul_zero, drop_zero, take_left' (fixed first)]
      exact congrArg encode (Option.some.inj stored)
    | succ index =>
      rw [Nat.mul_succ, drop_append, drop_eq_nil_of_le (by rw [fixed]; omega),
        nil_append, fixed, Nat.add_sub_cancel]
      exact ih stored

theorem flatMap_length (fixed : ∀ record, (encode record).length = width) (records : List β) :
    (records.flatMap encode).length = width * records.length := by
  induction records with
  | nil => rfl
  | cons first rest ih =>
    rw [flatMap_cons, length_append, fixed, ih, length_cons, Nat.mul_succ]
    omega

section

variable {memory chunk : List α} {start : Nat}

section

variable (inside : start + chunk.length ≤ memory.length)
include inside

theorem overwrite_length : (overwrite memory start chunk).length = memory.length := by
  simp only [overwrite, length_append, length_take, length_drop]
  omega

theorem overwrite_getElem? (index : Nat) : (overwrite memory start chunk)[index]? =
      if index < start ∨ start + chunk.length ≤ index then memory[index]?
      else chunk[index - start]? := by
  have before : (memory.take start).length = start := by
    rw [length_take, Nat.min_eq_left (by omega)]
  unfold overwrite
  by_cases left : index < start
  · rw [if_pos (.inl left), append_assoc, getElem?_append_left (by omega), getElem?_take_of_lt left]
  by_cases right : start + chunk.length ≤ index
  · rw [if_pos (.inr right), getElem?_append_right (by rw [length_append]; omega),
      getElem?_drop, length_append, before]
    congr 1
    omega
  · rw [if_neg (by omega), getElem?_append_left (by rw [length_append]; omega),
      getElem?_append_right (by omega), before]

theorem slice_overwrite_same : slice (overwrite memory start chunk) start chunk.length = chunk := by
  refine ext_getElem? fun index => ?_
  rw [slice_getElem?, overwrite_getElem? inside]
  by_cases within : index < chunk.length
  · rw [if_pos within, if_neg (by omega), Nat.add_sub_cancel_left]
  · rw [if_neg within, getElem?_eq_none (by omega)]

theorem slice_overwrite_apart {other count : Nat}
    (apart : other + count ≤ start ∨ start + chunk.length ≤ other) :
    slice (overwrite memory start chunk) other count = slice memory other count := by
  refine ext_getElem? fun index => ?_
  rw [slice_getElem?, slice_getElem?, overwrite_getElem? inside]
  by_cases within : index < count
  · rw [if_pos within, if_pos within, if_pos (by omega)]
  · rw [if_neg within, if_neg within]

end

end

end VgiRpc.Library.Memory
