import VgiRpc.Http.Reports

/-!
# The flag for a failure over HTTP

A call that failed is answered with the status 200, and a header tells its response from a
result.  The header is set by the dispatch that noted the failure, beside the body.
-/

namespace VgiRpc.Http.Dispatch

open Server

section

variable {A : Arrow.ArrowIpc} {σ : Type} {server : HttpServer A} {origin : Origin}

theorem exception_iff {render : Rendering} {pieces : List (Piece A render)}
    {told : Option RpcError} (json : JsonReader) (tells : Tells pieces told) :
    (∃ piece ∈ pieces, isException json piece.item = true) ↔
      ¬ (Unmistaken json pieces ∧ none = told) := by
  rw [← reported_iff json tells]
  constructor
  · rintro ⟨piece, member, exception⟩ reported
    obtain ⟨error, -, absent⟩ := reported.1 piece member exception
    cases absent
  · intro unreported
    by_contra! silent
    exact unreported
      ⟨fun piece member exception => absurd exception (silent piece member), by rintro error ⟨⟩⟩

/-- A success is flagged when its body was replaced or carried a failure that was noted. -/
theorem conclude_flag {limit : Option Nat} {answer : Answer A server.render} {response :
    HttpResponse A server.render} (concluded : conclude server origin limit answer = some response)
    (success : response.status = 200) :
    answer.exit ≠ .refused ∧ response.rpcError =
      ((replacement server origin limit answer).isSome || answer.error.isSome) := by
  unfold conclude at concluded
  unfold replacement
  cases exit : answer.exit with
  | guarded | capped =>
    rw [exit] at concluded
    dsimp only [enforceCap] at concluded
    split at concluded
    · next kept =>
      cases concluded
      simp [kept]
    · next replaced =>
      obtain ⟨sheet, -, concluded⟩ := Option.bind_eq_some_iff.mp concluded
      cases concluded
      simp [replaced]
  | early =>
    rw [exit] at concluded
    cases concluded
    simp
  | refused =>
    rw [exit] at concluded
    cases concluded
    cases success

end

namespace SampleServer

open Server.Sample

def undescribed : Request tables Nat :=
  .reflection (.refused (.runtimeError "Protocol 'Other' is not supported"))

end SampleServer

end VgiRpc.Http.Dispatch
