import VgiRpc.Server.Pieces

/-!
# Reflection

The protocol by which a server describes itself is served outside the method tables.
What it has to say is one batch, or a refusal that is written like any other error.
-/

namespace VgiRpc.Server

open Arrow

/-- What the description of a server comes to: a result batch, a refusal for an unknown
protocol or method, or a failure to build the description. -/
inductive ReflectionResult (A : ArrowIpc) where
  | answered (batch : A.Batch)
  | refused (error : RpcError)
  | failed (error : RpcError)

section

variable {A : ArrowIpc} (engine : Engine A)

/-- A stream of one batch; what is left of it when the writing fails ends all the same. -/
def sheetOf (schema : Schema) (piece : Except Failure (Piece A engine.render)) :
    Except Failure Unit × List (Sheet A engine.render) :=
  match engine.opens schema, piece with
  | .error failure, _ => (.error failure, [])
  | .ok _, .error failure => (.error failure, [⟨schema, []⟩])
  | .ok tracker, .ok piece =>
    match engine.writes tracker piece.item.1 piece.item.2 with
    | .error failure => (.error failure, [⟨schema, []⟩])
    | .ok _ => (.ok (), [⟨schema, [piece]⟩])

def serveReflection (envelope : EnvelopeMeta) :
    ReflectionResult A → Except Failure Unit × List (Sheet A engine.render)
  | .answered batch =>
    sheetOf engine (A.schemaOf batch)
      (.ok (.data (batch, some (buildEnvelopeMetadata envelope.serverId envelope.requestId))))
  | .refused error =>
    sheetOf engine .empty
      ((engine.blank .empty).map fun empty => .error empty.val (rowless empty) envelope error)
  | .failed error => (.error (.error error), [])

end
end VgiRpc.Server
