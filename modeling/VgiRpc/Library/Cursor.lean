import VgiRpc.Library.ByteStream
import VgiRpc.Library.LittleEndian

/-!
# Cursors over bytes

A cursor takes a value off the front of a byte string.  It agrees with a writer when it
takes back what the writer writes and nothing else, so that every value has one encoding and
every text it accepts is one.
-/

namespace VgiRpc.Library

open List
open ByteStream (Bytes)
open LittleEndian (toLe ofLe)

abbrev Cursor (ε α : Type) : Type := StateT Bytes (Except ε) α

namespace Cursor

variable {ε δ α β : Type}

/-- Take a number of bytes, which is an error when there are fewer. -/
def take (truncated : ε) (count : Nat) : Cursor ε Bytes := fun bytes =>
  if count ≤ bytes.length then .ok (bytes.take count, bytes.drop count) else .error truncated

def many (cursor : Cursor ε α) : Nat → Cursor ε (List α)
  | 0 => pure []
  | count + 1 => do
      let first ← cursor
      let others ← many cursor count
      pure (first :: others)

variable {next : α → Cursor ε β} {input rest : Bytes} {cursor : Cursor ε α}

theorem bind_ok {value : β} (read : (cursor >>= next) input = .ok (value, rest)) :
    ∃ first middle, cursor input = .ok (first, middle) ∧ next first middle = .ok (value, rest) := by
  change (cursor input >>= fun step => next step.1 step.2) = _ at read
  obtain ⟨taken, step, read⟩ := exceptBind_eq_ok read
  exact ⟨taken.1, taken.2, step, read⟩

theorem bind_of_ok {middle : Bytes} {first : α}
    (step : cursor input = .ok (first, middle)) : (cursor >>= next) input = next first middle := by
  change (cursor input >>= fun step => next step.1 step.2) = _
  rw [step]
  rfl

theorem take_append (truncated : ε) (bytes rest : Bytes) :
    take truncated bytes.length (bytes ++ rest) = .ok (bytes, rest) := by
  rw [take, if_pos (by simp), take_left, drop_left]

variable {truncated : ε} {bytes : Bytes}

theorem take_ok {count : Nat} (read : take truncated count input = .ok (bytes, rest)) :
    bytes.length = count ∧ input = bytes ++ rest := by
  unfold take at read
  split_ifs at read with enough
  cases read
  exact ⟨length_take_of_le enough, (take_append_drop _ _).symm⟩

/-- The cursor takes back what the writer writes, and nothing else. -/
structure Agrees (write : α → Except δ Bytes) (cursor : Cursor ε α) : Prop where
  back : ∀ {value bytes} (rest : Bytes), write value = .ok bytes →
    cursor (bytes ++ rest) = .ok (value, rest)
  only : ∀ {input value rest}, cursor input = .ok (value, rest) →
    ∃ bytes, write value = .ok bytes ∧ input = bytes ++ rest

def writeAll (write : α → Except δ Bytes) : List α → Except δ Bytes
  | [] => .ok []
  | value :: rest => do
      let bytes ← write value
      let others ← writeAll write rest
      .ok (bytes ++ others)

theorem writeAll_cons_ok {write : α → Except δ Bytes} {value : α} {rest : List α}
    (written : writeAll write (value :: rest) = .ok bytes) :
    ∃ first others, write value = .ok first ∧ writeAll write rest = .ok others ∧
      bytes = first ++ others := by
  obtain ⟨head, first, written⟩ := exceptBind_eq_ok written
  obtain ⟨tail, others, written⟩ := exceptBind_eq_ok written
  cases written
  exact ⟨head, tail, first, others, rfl⟩

namespace Agrees

variable {write : α → Except δ Bytes} {cursor : Cursor ε α} {values : List α}

theorem many_back (agrees : Agrees write cursor) {bytes : Bytes} (rest : Bytes)
    (written : writeAll write values = .ok bytes) :
    many cursor values.length (bytes ++ rest) = .ok (values, rest) := by
  induction values generalizing bytes with
  | nil =>
    cases written
    rfl
  | cons value others ih =>
    obtain ⟨first, tail, wrote, more, rfl⟩ := writeAll_cons_ok written
    rw [length_cons, many, append_assoc, bind_of_ok (agrees.back (tail ++ rest) wrote),
      bind_of_ok (ih more)]
    rfl

theorem many_only (agrees : Agrees write cursor) {count : Nat} {input rest : Bytes}
    (read : many cursor count input = .ok (values, rest)) :
    values.length = count ∧ ∃ bytes, writeAll write values = .ok bytes ∧ input = bytes ++ rest := by
  induction count generalizing input values with
  | zero =>
    cases read
    exact ⟨rfl, [], rfl, rfl⟩
  | succ count ih =>
    rw [many] at read
    obtain ⟨first, middle, taken, more⟩ := bind_ok read
    obtain ⟨others, last, others_taken, ended⟩ := bind_ok more
    cases ended
    obtain ⟨bytes, wrote, rfl⟩ := agrees.only taken
    obtain ⟨lengths, tail, wroteAll, rfl⟩ := ih others_taken
    refine ⟨by rw [length_cons, lengths], bytes ++ tail, ?_, by rw [append_assoc]⟩
    rw [writeAll, wrote, wroteAll]
    rfl

end Agrees

def word (truncated : ε) (width : Nat) : Cursor ε Nat := do
  let bytes ← take truncated width
  pure (ofLe bytes)

theorem word_append (truncated : ε) {width value : Nat} (fits : value < 256 ^ width)
    (rest : Bytes) : word truncated width (toLe width value ++ rest) = .ok (value, rest) := by
  have taken := take_append truncated (toLe width value) rest
  rw [LittleEndian.toLe_length] at taken
  rw [word, bind_of_ok taken, LittleEndian.ofLe_toLe_of_lt fits]
  rfl

theorem word_ok {width value : Nat} (read : word truncated width input = .ok (value, rest)) :
    value < 256 ^ width ∧ input = toLe width value ++ rest := by
  obtain ⟨bytes, middle, taken, ended⟩ := bind_ok read
  cases ended
  obtain ⟨rfl, rfl⟩ := take_ok taken
  exact ⟨LittleEndian.ofLe_lt bytes, by rw [LittleEndian.toLe_ofLe]⟩

end Cursor
end VgiRpc.Library
