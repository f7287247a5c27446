import Mathlib.Algebra.GroupWithZero.Nat
import VgiRpc.Library.OrderedMap

/-!
# Access records

An asynchronous access log counts the records that its queue refuses and writes the count into the
next one.  A record that is too large sheds its claims, and then all but the required fields.
-/

namespace VgiRpc.Hooks.Records

open Library OrderedMap

/-- A value of a record: a number, or the text of anything else. -/
inductive Value where
  | count (value : Nat)
  | other (text : String)

abbrev Record := OrderedMap String Value

/-- The fields that `on_dispatch_end` has put together, and whether the call failed. -/
structure Offer where
  fields : Record
  failed : Bool
  plain : fields.get? "dropped_records" = none

def requiredRecordFields : List String :=
  ["timestamp", "level", "logger", "message", "server_id", "protocol", "protocol_hash", "method",
    "method_type", "principal", "auth_domain", "authenticated", "remote_addr", "duration_ms",
    "status", "error_type"]

variable (record : Record)

def sentinel : Record :=
  let keep (kept : Record) (key : String) :=
    match record.get? key with
    | some value => kept.insert key value
    | none => kept
  ((requiredRecordFields ++ ["error_message", "error_code"]).foldl keep .empty).insert "truncated"
    (.other "record_too_large")

def shed : Record :=
  (record.insert "claims" (.other "\x7b\x7d")).insert "truncated" (.other "true")

/-- The records offered, the drops not yet reported, and what was written for which offer. -/
structure Log where
  offered : Nat
  pending : Nat
  written : List (Offer × Record)

def droppedRecords : Nat :=
  match record.get? "dropped_records" with
  | some (.count value) => value
  | _ => 0

/-- No record is forgotten, and every record that sampling kept states the rate. -/
structure Log.Conserved (log : Log) (sampling : Bool) : Prop where
  counted : log.offered =
    log.written.length + (log.written.map (droppedRecords ·.2)).sum + log.pending
  stated : sampling = true → ∀ line ∈ log.written, line.1.failed = false →
    (line.2.get? "sample_rate").isSome

section

variable (size : Record → Nat) (maxRecordBytes : Nat) (sampling : Bool) (record : Record)

def render : Record :=
  if maxRecordBytes = 0 ∨ size record ≤ maxRecordBytes then record
  else if record.contains "claims" then
    if size (shed record) ≤ maxRecordBytes then shed record else sentinel (shed record)
  else sentinel record

/-- With a rate below one, a record that did not fail states it; then comes the count of drops. -/
def stamped (pending : Nat) (offer : Offer) : Record :=
  let record := if sampling && !offer.failed then
    offer.fields.insert "sample_rate" (.other "rate") else offer.fields
  if 0 < pending then record.insert "dropped_records" (.count pending) else record

def writeRecord (accepted : Bool) (offer : Offer) (log : Log) : Log :=
  if accepted then
    ⟨log.offered + 1, 0,
      (offer, render size maxRecordBytes (stamped sampling log.pending offer)) :: log.written⟩
  else ⟨log.offered + 1, log.pending + 1, log.written⟩

/-- A record loses its claims at most. -/
def Kept : Prop :=
  (maxRecordBytes = 0 ∨ size record ≤ maxRecordBytes) ∨
    record.contains "claims" = true ∧ size (shed record) ≤ maxRecordBytes

/-- The runs in which every record that the queue takes is kept. -/
inductive Reached : Log → Prop where
  | start : Reached ⟨0, 0, []⟩
  | offer {log : Log} (before : Reached log) (accepted : Bool) (offer : Offer)
      (kept : accepted = true → Kept size maxRecordBytes (stamped sampling log.pending offer)) :
      Reached (writeRecord size maxRecordBytes sampling accepted offer log)

variable {size maxRecordBytes sampling}

theorem get?_render {record : Record} (kept : Kept size maxRecordBytes record) {key : String}
    (claims : key ≠ "claims") (truncated : key ≠ "truncated") :
    (render size maxRecordBytes record).get? key = record.get? key := by
  unfold render
  split
  · rfl
  · next large =>
    obtain ⟨present, fits⟩ := kept.resolve_left large
    rw [if_pos present, if_pos fits, shed, get?_insert, if_neg truncated,
      get?_insert, if_neg claims]

theorem get?_stamped (pending : Nat) (offer : Offer) :
    (stamped sampling pending offer).get? "dropped_records" =
      if 0 < pending then some (.count pending) else none := by
  unfold stamped
  dsimp only
  split
  · rw [get?_insert_self]
  · split
    · rw [get?_insert, if_neg (by decide), offer.plain]
    · exact offer.plain

/-- In every run that keeps its records no drop is forgotten and every rate is stated. -/
theorem Reached.conserved {log : Log} (reached : Reached size maxRecordBytes sampling log) :
    log.Conserved sampling := by
  induction reached with
  | start => exact ⟨rfl, fun _ => nofun⟩
  | @offer log before accepted offer kept ih =>
    have counted := ih.counted
    cases accepted with
    | false =>
      refine ⟨?_, ih.stated⟩
      simp only [writeRecord, Bool.false_eq_true, if_false]
      omega
    | true =>
      refine ⟨?_, fun rate => List.forall_mem_cons.mpr ⟨fun sound => ?_, ih.stated rate⟩⟩
      · have dropped : droppedRecords (render size maxRecordBytes
            (stamped sampling log.pending offer)) = log.pending := by
          rw [droppedRecords, get?_render (kept rfl) (by decide) (by decide), get?_stamped]
          by_cases missed : 0 < log.pending
          · rw [if_pos missed]
          · rw [if_neg missed]
            exact (Nat.eq_zero_of_not_pos missed).symm
        simp only [writeRecord, if_true, List.length_cons, List.map_cons, List.sum_cons, dropped]
        omega
      · rw [get?_render (kept rfl) (by decide) (by decide), stamped, rate, sound, Bool.not_false,
          Bool.and_true, if_pos rfl]
        split
        · rw [get?_insert, if_neg (by decide), get?_insert_self]
          rfl
        · rw [get?_insert_self]
          rfl

end

/-- A call that succeeded, with one of the required fields. -/
def Sample.offer : Offer := ⟨OrderedMap.empty.insert "status" (.other "ok"), false, rfl⟩

theorem Reached.conserved_single :
    (writeRecord (fun _ => 0) 0 true true Sample.offer ⟨0, 0, []⟩).Conserved true :=
  (Reached.start.offer true Sample.offer fun _ => .inl (.inl rfl)).conserved

/-- A record of two fields is too large; the first is refused and the second taken. -/
def Sample.log : Log :=
  writeRecord OrderedMap.size 1 true true offer
    (writeRecord OrderedMap.size 1 true false offer ⟨0, 0, []⟩)

/-- The second record goes out without its count and its rate. -/
theorem shortened_record_forgets : ¬ Sample.log.Conserved true ∧
      Sample.log.written.map (·.2.keys) = [["status", "truncated"]] :=
  ⟨fun conserved => absurd conserved.counted (by decide), by decide⟩

end VgiRpc.Hooks.Records
