import VgiRpc.Server.Completion

/-!
# What the batches of a response say

Every batch of a response was written for something: a log, an error, a token of the
transport, or data of the method.  A piece keeps that with the batch, and with it how a
client reads the batch; of a batch with data nothing is known, since its metadata is the
method's own.
-/

namespace VgiRpc.Server

open Arrow

abbrev Item (A : ArrowIpc) := A.Batch × Option Metadata

inductive Purpose where
  | log (message : LogMessage)
  | error (error : RpcError)
  | data
  | token

variable {A : ArrowIpc}

def kindOf (json : JsonReader) (item : Item A) : BatchKind :=
  classify json (A.numRows item.1) (item.2.getD .empty)

theorem rowless (empty : { batch : A.Batch // A.numRows batch = 0 }) :
    A.numRows empty.val = 0 :=
  empty.property

/-- A batch that says something reads as what it says. -/
def Purpose.Genuine (render : Rendering) (item : Item A) : Purpose → Prop
  | .log message => ∀ json, kindOf json item = (message.values render).kind json
  | .error raised =>
    ∃ tracebacks, ∀ json, kindOf json item = (raised.values render tracebacks).kind json
  | .token => ∀ json, kindOf json item = .data
  | .data => True

structure Piece (A : ArrowIpc) (render : Rendering) where
  purpose : Purpose
  item : Item A
  genuine : purpose.Genuine render item

section

variable {A : ArrowIpc} {render : Rendering} (batch : A.Batch)

/-- The envelope of a log, on a batch without rows. -/
def Piece.log (empty : A.numRows batch = 0) (envelope : EnvelopeMeta)
    (message : LogMessage) : Piece A render where
  purpose := .log message
  item := (batch, some (envelope.log render message).map)
  genuine json := by
    rw [kindOf, empty, Option.getD_some, EnvelopeMeta.log, classify_fill]

def Piece.error (empty : A.numRows batch = 0) (envelope : EnvelopeMeta)
    (error : RpcError) : Piece A render where
  purpose := .error error
  item := (batch, some (envelope.error render error).map)
  genuine := ⟨envelope.tracebacks, fun json => by
    rw [kindOf, empty, Option.getD_some, EnvelopeMeta.error, classify_fill]⟩

def Piece.data (item : Item A) : Piece A render := ⟨.data, item, trivial⟩

def Engine.blank (engine : Engine A) (schema : Schema) :
    Except Failure { batch : A.Batch // A.numRows batch = 0 } :=
  match built : engine.emptyBatch schema with
  | .error failure => .error failure
  | .ok batch => .ok ⟨batch, engine.emptyBatch_rows schema batch built⟩

theorem Engine.blank_eq_ok {engine : Engine A} {schema : Schema}
    {empty : { batch : A.Batch // A.numRows batch = 0 }}
    (made : engine.blank schema = .ok empty) : engine.emptyBatch schema = .ok empty.val := by
  unfold Engine.blank at made
  split at made
  · cases made
  · next built => cases made; exact built

/-- A stream of a response, with what its batches were written for. -/
structure Sheet (A : ArrowIpc) (render : Rendering) where
  schema : Schema
  pieces : List (Piece A render)

def Sheet.response (sheet : Sheet A render) : Response A :=
  ⟨sheet.schema, sheet.pieces.map Piece.item⟩

variable (json : JsonReader)

theorem isException_eq (item : Item A) : isException json item = match kindOf json item with
      | .exception _ => true
      | _ => false := rfl

variable {piece : Piece A render}

/-- A log reads as an error exactly when it was logged as one. -/
theorem Piece.isException_log {message : LogMessage} (said : piece.purpose = .log message) :
    isException json piece.item = true ↔ message.level = .exception := by
  have genuine := piece.genuine
  rw [said] at genuine
  rw [isException_eq, genuine json, EnvelopeValues.kind]
  simp only [LogMessage.values, LogLevel.asStr_eq_exception]
  by_cases level : message.level = .exception
  · rw [if_pos level]
    exact iff_of_true rfl level
  · rw [if_neg level]
    exact iff_of_false (by rintro ⟨⟩) level

variable {error : RpcError}

theorem Piece.isException_error (said : piece.purpose = .error error) :
    isException json piece.item = true := by
  have genuine := piece.genuine
  rw [said] at genuine
  obtain ⟨tracebacks, reads⟩ := genuine
  rw [isException_eq, reads json]
  rfl

theorem Piece.isException_token (said : piece.purpose = .token) :
    isException json piece.item = false := by
  have genuine := piece.genuine
  rw [said] at genuine
  rw [isException_eq, genuine json]

variable (pieces : List (Piece A render))

/-- Each EXCEPTION of a response was written for the reported error, and the reported
error is on the response. -/
def Reported (reported : Option RpcError) : Prop :=
  (∀ piece ∈ pieces, isException json piece.item = true →
    ∃ error, piece.purpose = .error error ∧ reported = some error) ∧
  ∀ error, reported = some error →
    ∃ piece ∈ pieces, piece.purpose = .error error ∧ isException json piece.item = true

/-- No log is at the level EXCEPTION, and no batch with data reads as an error. -/
def Unmistaken : Prop :=
  ∀ piece ∈ pieces, (∀ message, piece.purpose = .log message → message.level ≠ .exception) ∧
    (piece.purpose = .data → isException json piece.item = false)

/-- The error that pieces were written for, if they were written for one. -/
def Tells (told : Option RpcError) : Prop :=
  ∀ error, (∃ piece ∈ pieces, piece.purpose = .error error) ↔ told = some error

theorem tells_nil : Tells ([] : List (Piece A render)) none :=
  fun _ => iff_of_false (by rintro ⟨_, ⟨⟩, _⟩) nofun

theorem tells_single (purposed : piece.purpose = .error error) : Tells [piece] (some error) := by
  intro other
  constructor
  · rintro ⟨piece, member, purpose⟩
    rw [List.mem_singleton.mp member, purposed] at purpose
    cases purpose
    rfl
  · rintro ⟨⟩
    exact ⟨_, List.mem_singleton_self _, purposed⟩

variable {reported : Option RpcError}

theorem reported_iff {pieces : List (Piece A render)} {told : Option RpcError}
    (tells : Tells pieces told) :
    Reported json pieces reported ↔ Unmistaken json pieces ∧ reported = told := by
  constructor
  · rintro ⟨sound, complete⟩
    refine ⟨fun piece member => ⟨fun message said level => ?_, fun said => ?_⟩, ?_⟩
    · obtain ⟨error, other, -⟩ := sound piece member ((piece.isException_log json said).mpr level)
      cases said.symm.trans other
    · by_contra exception
      obtain ⟨error, other, -⟩ := sound piece member (Bool.eq_true_of_not_eq_false exception)
      cases said.symm.trans other
    · cases reported with
      | some error =>
        obtain ⟨piece, member, said, -⟩ := complete error rfl
        exact ((tells error).mp ⟨piece, member, said⟩).symm
      | none =>
        cases told with
        | none => rfl
        | some error =>
          obtain ⟨piece, member, said⟩ := (tells error).mpr rfl
          obtain ⟨other, -, absent⟩ := sound piece member (piece.isException_error json said)
          cases absent
  · rintro ⟨unmistaken, rfl⟩
    refine ⟨fun piece member exception => ?_, fun error same => ?_⟩
    · cases said : piece.purpose with
      | log message =>
        exact absurd ((piece.isException_log json said).mp exception)
          ((unmistaken piece member).1 message said)
      | error error => exact ⟨error, rfl, (tells error).mp ⟨piece, member, said⟩⟩
      | data =>
        rw [(unmistaken piece member).2 said] at exception
        cases exception
      | token =>
        rw [piece.isException_token json said] at exception
        cases exception
    · obtain ⟨piece, member, said⟩ := (tells error).mpr same
      exact ⟨piece, member, said, piece.isException_error json said⟩

theorem reported_nil_iff : Reported json ([] : List (Piece A render)) reported ↔ reported = none := by
  rw [reported_iff json tells_nil]
  exact and_iff_right nofun

end
end VgiRpc.Server
