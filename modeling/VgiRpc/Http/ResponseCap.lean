import VgiRpc.Http.Dispatch

/-!
# The cap on a response

Every limit in force holds for the body of a response, or the body is replaced by an
EXCEPTION.  One exit of an exchange turn leaves the dispatch before the cap is tried.
-/

namespace VgiRpc.Http.Dispatch

open Arrow Option Metadata Server

section

variable {A : ArrowIpc} {σ : Type}

def Request.negotiated : Request A σ → Option Nat
  | .continuation _ _ call _ _ _ => call.responseLimitBytes.map fun limit => limit.val.toNat
  | _ => none

def Request.applicable (limits : ResponseLimits) (accepted : Option ByteBudget)
    (request : Request A σ) : List (Option Nat) :=
  [limits.maxResponseBytes.map Subtype.val, limits.hostingMaxResponseBytes.map Subtype.val,
    accepted.map Subtype.val, request.negotiated]

variable (json : JsonReader)

/-- An EXCEPTION with no cursor and no call token. -/
def Bare (item : Item A) : Prop :=
  isException json item = true ∧ mdGet (item.2.getD .empty) stateKey = none ∧
    mdGet (item.2.getD .empty) callStateKey = none

def ExceptionOnly {render : Rendering} (sheets : List (Sheet A render)) : Prop :=
  ∃ sheet, sheets = [sheet] ∧ sheet.pieces ≠ [] ∧ ∀ piece ∈ sheet.pieces, Bare json piece.item

variable (server : HttpServer A)

/-- A successful response keeps every limit, or it is a flagged EXCEPTION. -/
def Capped (accepted : Option ByteBudget) (request : Request A σ)
    (response : HttpResponse A server.render) : Prop :=
  response.status = 200 → (∀ limit ∈ request.applicable server.limits accepted,
      Within limit (lengthOf server response.sheets)) ∨
    (response.rpcError = true ∧ ExceptionOnly json response.sheets)

/-- A fresh writer does not refuse a batch without rows of its own schema. -/
def EnvelopesTaken : Prop :=
  ∀ schema tracker batch metadata error, server.opens schema = .ok tracker →
    server.emptyBatch schema = .ok batch → server.writes tracker batch metadata ≠ .error (.error error)

variable (origin : Origin)

/-- The stream that is left of an exchange turn whose state cannot be encoded: its logs,
and the failure. -/
def unencodedTurn (mint : TokenMint σ) (schema : Schema) (turn : Turn A σ) :
    Option (Sheet A server.render) :=
  match callGuard turn.outcome, mint.cursorToken (.exchange turn.state) with
  | .ok (), .error error => do
      let logs ← logPieces server origin schema turn.logs
      let piece ← errorPiece server origin schema error
      bodyStream server schema (logs ++ [piece])
  | _, _ => none

def unencoded : Request A σ → Option (Sheet A server.render)
  | .continuation mint methods _ resumed batch metadata =>
    if (mdGet metadata cancelKey).isSome then none
    else
      match resumed.state with
      | .producer _ => none
      | .exchange state =>
        match castInput server.toEngine resumed.inputSchema batch with
        | .error _ => none
        | .ok input =>
          unencodedTurn server origin mint resumed.outputSchema
            (methods.exchange state input (stripFrameworkTickMetadata metadata)
              (.new A resumed.outputSchema false))
  | _ => none

/-- What is left of a turn whose state cannot be encoded fits the limit of its stream, or
exceeds the limits of the request too, or holds no log. -/
def UnencodedFits (accepted : Option ByteBudget) (request : Request A σ) : Prop :=
  ∀ sheet, unencoded server origin request = some sheet →
    Within request.negotiated (lengthOf server [sheet]) ∨
    ¬ Within (hardLimit server.limits accepted) (lengthOf server [sheet]) ∨
    ExceptionOnly json [sheet]

variable {json server} {accepted : Option ByteBudget} {request : Request A σ} {error : RpcError}
  {piece : Piece A server.render} {schema : Schema} {sheet : Sheet A server.render}
  {answer : Answer A server.render} {limit : Option Nat} {limits : ResponseLimits} {length : Nat}

theorem within_limit : Within (request.limit (hardLimit limits accepted)) length ↔
      ∀ limit ∈ request.applicable limits accepted, Within limit length := by
  have hard : Within (hardLimit limits accepted) length ↔ _ := within_smallest
  have unlimited : Within none length := by rintro _ ⟨⟩
  cases request with
  | continuation mint methods call resumed batch metadata =>
    simp [Request.limit, continuationLimit, within_smallest, hard, Request.applicable,
      Request.negotiated, and_assoc]
  | unary call => simpa [Request.limit, Request.applicable, Request.negotiated, unlimited] using hard
  | reflection result | init mint call tick =>
    simpa [Request.limit, Request.applicable, Request.negotiated, unlimited] using hard

theorem within_hardLimit : Within (request.limit (hardLimit limits accepted)) length ↔
      Within (hardLimit limits accepted) length ∧ Within request.negotiated length := by
  have hard : Within (hardLimit limits accepted) length ↔ _ := within_smallest
  simp [within_limit, hard, Request.applicable, and_assoc]

/-! ## Error streams -/

/-- An envelope holds the keys of an envelope and no others. -/
theorem envelopeError_absent {render : Rendering} (serverId requestId : String) (tracebacks : Option
    String) (error : RpcError) {key : String} (apart : key ∉ [serverIdKey, requestIdKey,
    logLevelKey, logMessageKey, logExtraKey, errorCodeKey, errorKindKey, errorDetailsKey]) :
    mdGet ((EnvelopeMeta.new serverId requestId tracebacks).error render error).map key = none := by
  simp only [List.mem_cons, List.not_mem_nil, or_false, not_or] at apart
  obtain ⟨server, request, level, message, extra, code, kind, details⟩ := apart
  show mdGet (EnvelopeMeta.fillEntries _ _) key = none
  simp only [EnvelopeMeta.fillEntries, EnvelopeMeta.mdGet_setOrClear, if_neg, *, not_false_eq_true]
  show mdGet (EnvelopeMeta.insertNonEmpty (EnvelopeMeta.insertNonEmpty _ _ _) _ _) key = none
  rw [EnvelopeMeta.mdGet_insertNonEmpty request, EnvelopeMeta.mdGet_insertNonEmpty server]
  rfl

variable {origin : Origin}

section

variable (made : errorPiece server origin schema error = some piece)

include made

theorem errorPiece_bare : Bare json piece.item := by
  obtain ⟨empty, -, made⟩ := bind_eq_some_iff.mp made
  cases made
  exact ⟨Piece.isException_error json rfl, envelopeError_absent _ _ _ _ (by decide),
    envelopeError_absent _ _ _ _ (by decide)⟩

theorem errorPiece_blank : server.emptyBatch schema = .ok piece.item.1 := by
  obtain ⟨empty, built, made⟩ := bind_eq_some_iff.mp made
  cases made
  cases blank : server.blank schema with
  | error failure => rw [blank] at built; cases built
  | ok batch => rw [blank] at built; cases built; exact Engine.blank_eq_ok blank

variable (taken : EnvelopesTaken server) (body : bodyStream server schema [piece] = some sheet)

include taken body

theorem bodyStream_errorPiece : sheet.pieces = [piece] := by
  unfold bodyStream at body
  split at body
  · cases body
  rename_i tracker opened
  simp only [writePieces] at body
  split at body
  · cases body; rfl
  · next refused =>
    exact absurd refused (taken schema tracker _ _ _ opened (errorPiece_blank made))
  · cases body

theorem failing_only : ExceptionOnly json [sheet] := by
  have pieces := bodyStream_errorPiece made taken body
  refine ⟨sheet, rfl, ?_, ?_⟩
  · rw [pieces]
    exact List.cons_ne_nil _ _
  · rw [pieces]
    exact List.forall_mem_singleton.mpr (errorPiece_bare made)

end

theorem errorStream_only (taken : EnvelopesTaken server)
    (made : errorStream server origin schema error = some sheet) : ExceptionOnly json [sheet] := by
  obtain ⟨piece, built, body⟩ := bind_eq_some_iff.mp made
  exact failing_only built taken body

/-! ## The exits of a dispatch -/

theorem oneStream_eq_some {named : Origin} {written : Written A server.render}
    {exit : Exit} (made : oneStream server named schema written exit = some answer) :
    ∃ sheet, bodyStream server schema written.pieces = some sheet ∧
      answer = ⟨[sheet], schema, written.error, 0, exit, named⟩ := by
  obtain ⟨sheet, body, made⟩ := bind_eq_some_iff.mp made
  cases made
  exact ⟨sheet, body, rfl⟩

theorem unaryDispatch_exit {call : UnaryCall A}
    (made : unaryDispatch server origin limit call = some answer) : answer.exit = .guarded := by
  obtain ⟨logs, -, made⟩ := bind_eq_some_iff.mp made
  obtain ⟨written, -, made⟩ := bind_eq_some_iff.mp made
  obtain ⟨sheet, -, made⟩ := bind_eq_some_iff.mp made
  cases made
  rfl

theorem reflectionDispatch_exit {result : ReflectionResult A}
    (made : reflectionDispatch server origin result = some answer) : answer.exit ≠ .early := by
  unfold reflectionDispatch at made
  split at made
  · cases made
    exact nofun
  · obtain ⟨sheet, -, made⟩ := bind_eq_some_iff.mp made
    cases made
    exact nofun
  · cases made

theorem cancelTurn_exit {logs : List LogMessage} {outcome : Outcome Unit}
    (made : cancelTurn server origin schema logs outcome = some answer) : answer.exit = .guarded := by
  obtain ⟨items, -, made⟩ := bind_eq_some_iff.mp made
  split at made
  · obtain ⟨written, -, made⟩ := bind_eq_some_iff.mp made
    obtain ⟨sheet, -, rfl⟩ := oneStream_eq_some made
    rfl
  · obtain ⟨sheet, -, rfl⟩ := oneStream_eq_some made
    rfl

variable {mint : TokenMint σ}

/-- An init that fails is answered with its error, before the cap. -/
theorem streamInitDispatch_early (taken : EnvelopesTaken server) {call : Server.StreamCall A σ}
    {tick : Metadata} (made : streamInitDispatch server origin limit mint call tick = some answer)
    (early : answer.exit = .early) : answer.error.isSome = true ∧ ExceptionOnly json answer.sheets := by
  unfold streamInitDispatch at made
  split at made
  · obtain ⟨sheet, body, made⟩ := bind_eq_some_iff.mp made
    cases made
    exact ⟨rfl, errorStream_only taken body⟩
  · obtain ⟨headers, -, made⟩ := bind_eq_some_iff.mp made
    obtain ⟨logs, -, made⟩ := bind_eq_some_iff.mp made
    obtain ⟨written, -, made⟩ := bind_eq_some_iff.mp made
    obtain ⟨sheet, -, made⟩ := bind_eq_some_iff.mp made
    cases made
    cases early

variable {turn : Turn A σ}

/-- A turn whose state was encoded, or that failed, is capped. -/
theorem exchangeTurn_early (made : exchangeTurn server origin limit mint schema turn = some answer)
    (early : answer.exit = .early) :
    ∃ sheet, unencodedTurn server origin mint schema turn = some sheet := by
  obtain ⟨logs, logged, made⟩ := bind_eq_some_iff.mp made
  split at made
  · obtain ⟨written, -, made⟩ := bind_eq_some_iff.mp made
    obtain ⟨sheet, -, rfl⟩ := oneStream_eq_some made
    cases early
  · next returned =>
    split at made
    · next error failed =>
      obtain ⟨written, wrote, made⟩ := bind_eq_some_iff.mp made
      obtain ⟨piece, built, wrote⟩ := bind_eq_some_iff.mp wrote
      cases wrote
      obtain ⟨sheet, body, -⟩ := oneStream_eq_some made
      refine ⟨sheet, ?_⟩
      simp only [unencodedTurn, returned, failed, logged, built, bind_eq_bind, bind_some]
      exact body
    · obtain ⟨written, -, made⟩ := bind_eq_some_iff.mp made
      obtain ⟨sheet, -, rfl⟩ := oneStream_eq_some made
      cases early

/-- A turn whose state cannot be encoded is answered before the cap. -/
theorem exchangeTurn_unencoded (limit : Option Nat)
    (left : unencodedTurn server origin mint schema turn = some sheet) :
    ∃ error, exchangeTurn server origin limit mint schema turn =
      some ⟨[sheet], schema, some error, 0, .early, unnamed⟩ := by
  unfold unencodedTurn at left
  split at left
  · next error returned failed =>
    obtain ⟨logs, logged, left⟩ := bind_eq_some_iff.mp left
    obtain ⟨piece, built, body⟩ := bind_eq_some_iff.mp left
    refine ⟨error, ?_⟩
    simp [exchangeTurn, logged, returned, failed, failing, built, oneStream, Written.behind, body]
  · cases left

/-- Only a state that cannot be encoded takes more than an EXCEPTION past the cap. -/
theorem dispatch_early (taken : EnvelopesTaken server) {hard : Option Nat}
    (made : dispatch server origin hard request = some answer) (early : answer.exit = .early)
    (encoded : unencoded server origin request = none) :
    answer.error.isSome = true ∧ ExceptionOnly json answer.sheets := by
  cases request with
  | unary call => exact absurd (unaryDispatch_exit made ▸ early) nofun
  | reflection result => exact absurd early (reflectionDispatch_exit made)
  | init mint call tick => exact streamInitDispatch_early taken made early
  | continuation mint methods call resumed batch metadata =>
    simp only [dispatch, streamExchangeDispatch] at made
    simp only [unencoded] at encoded
    split at made
    · exact absurd (cancelTurn_exit made ▸ early) nofun
    · next going =>
      rw [if_neg going] at encoded
      split at made
      · obtain ⟨written, -, made⟩ := bind_eq_some_iff.mp made
        obtain ⟨sheet, -, rfl⟩ := oneStream_eq_some made
        cases early
      · next state exchanging =>
        split at made
        · obtain ⟨written, wrote, made⟩ := bind_eq_some_iff.mp made
          obtain ⟨piece, built, wrote⟩ := bind_eq_some_iff.mp wrote
          cases wrote
          obtain ⟨sheet, body, rfl⟩ := oneStream_eq_some made
          exact ⟨rfl, failing_only built taken body⟩
        · next input cast =>
          obtain ⟨sheet, left⟩ := exchangeTurn_early made early
          simp only [exchanging, cast, left] at encoded
          cases encoded

theorem dispatch_unencoded (hard : Option Nat) (left : unencoded server origin request = some sheet) :
    ∃ schema error, dispatch server origin hard request =
      some ⟨[sheet], schema, some error, 0, .early, unnamed⟩ := by
  unfold unencoded at left
  split at left
  · next mint methods call resumed batch metadata =>
    split_ifs at left with going
    split at left
    · cases left
    rename_i state exchanging
    split at left
    · cases left
    rename_i input cast
    obtain ⟨error, turned⟩ :=
      exchangeTurn_unencoded (continuationLimit hard call) left
    refine ⟨resumed.outputSchema, error, ?_⟩
    simp only [dispatch, streamExchangeDispatch, if_neg going, exchanging, cast, turned]
  · cases left

/-! ## Responses -/

theorem capError_eq_none (fits : capError server origin limit answer = none) :
    Within limit (lengthOf server answer.sheets) := by
  rintro bytes rfl
  by_contra beyond
  have exceeded : (some bytes).filter (fun limit => lengthOf server answer.sheets > limit) =
      some bytes := by simpa using beyond
  rw [capError, exceeded] at fits
  cases fits

variable {response : HttpResponse A server.render}

theorem enforceCap_capped (taken : EnvelopesTaken server) {stamped : Bool}
    (made : enforceCap server origin limit answer stamped = some response) :
    Within limit (lengthOf server response.sheets) ∨
      (response.rpcError = true ∧ ExceptionOnly json response.sheets) := by
  unfold enforceCap at made
  split at made
  · next fits =>
    cases made
    exact .inl (capError_eq_none fits)
  · obtain ⟨sheet, body, made⟩ := bind_eq_some_iff.mp made
    cases made
    exact .inr ⟨rfl, errorStream_only taken body⟩

/-- What a response is before the outermost layer, when it is a success. -/
theorem respond_success (success : (respond server origin accepted request).status = 200) :
    ∃ answer, dispatch server origin (hardLimit server.limits accepted) request = some answer ∧
      conclude server origin (request.limit (hardLimit server.limits accepted)) answer =
        some (respond server origin accepted request) := by
  unfold respond at success ⊢
  cases made : dispatch server origin (hardLimit server.limits accepted) request with
  | none => rw [made] at success; cases success
  | some answer =>
    refine ⟨answer, rfl, ?_⟩
    rw [made, bind_eq_bind, bind_some] at success
    rw [bind_eq_bind, bind_some]
    cases concluded : conclude server origin
      (request.limit (hardLimit server.limits accepted)) answer with
    | none => rw [concluded] at success; cases success
    | some response =>
      rw [concluded] at success
      simp only [postprocess] at success ⊢
      split at success
      · next fits => rw [if_pos fits]
      · cases success

theorem respond_unencoded (left : unencoded server origin request = some sheet) :
    respond server origin accepted request =
      if Within (hardLimit server.limits accepted) (lengthOf server [sheet]) then
        ⟨200, [sheet], true, false⟩
      else bareFailure := by
  obtain ⟨schema, error, made⟩ := dispatch_unencoded (hardLimit server.limits accepted) left
  rw [respond, made, responseBufferCeiling_hardLimit]
  rfl

/-- The limits hold for every response, except that what is left of an exchange turn whose
state cannot be encoded has to keep the limit of its sheet by itself. -/
theorem capped_iff_unencodedFits (json : JsonReader) (server : HttpServer A) (taken : EnvelopesTaken
    server) (origin : Origin) (accepted : Option ByteBudget) (request : Request A σ) :
    Capped json server accepted request (respond server origin accepted request) ↔
      UnencodedFits json server origin accepted request := by
  unfold Capped UnencodedFits
  cases left : unencoded server origin request with
  | none =>
    refine iff_of_true (fun success => ?_) nofun
    obtain ⟨answer, made, concluded⟩ := respond_success success
    rw [← within_limit]
    generalize respond server origin accepted request = response at success concluded ⊢
    unfold conclude at concluded
    split at concluded
    · exact enforceCap_capped taken concluded
    · exact enforceCap_capped taken concluded
    · next early =>
      cases concluded
      exact .inr (dispatch_early taken made early left)
    · cases concluded
      cases success
  | some sheet =>
    rw [← within_limit, respond_unencoded left, within_hardLimit]
    split_ifs with fits
    · simp [fits]
    · simp [fits, bareFailure]

end

namespace SampleServer

open Server.Sample

/-- A server without limits; each of its batches takes 32 KiB. -/
def server : HttpServer tables where
  toEngine := engine
  serverId := "server"
  omitTracebacks := true
  limits := ⟨none, none, none, none⟩
  storage := none
  bodyLength streams := 32768 * (streams.map fun stream => stream.items.length).sum

theorem envelopesTaken : EnvelopesTaken server := nofun

def origin : Origin := ⟨"", "search", "1"⟩

def logging : StreamState tables Nat where
  produce count _ out := ⟨[], out, count + 1, .returned (.ok ())⟩
  exchange count _ _ out :=
    ⟨[⟨.info, "scanned", []⟩, ⟨.info, "merged", []⟩], out, count + 1, .returned (.ok ())⟩
  onCancel _ _ := ([], .returned (.ok ()))

variable (cursor : Except RpcError String)

def mint : TokenMint Nat where
  initTokens _ := .ok ("cursor", "call")
  cursorToken _ := cursor

def turn : Request tables Nat :=
  .continuation (mint cursor) logging ⟨[], [], "", some ⟨65536, by decide⟩, none⟩
    ⟨.exchange 0, .empty, none⟩ (.empty, 1) .empty

def unencodable : Request tables Nat := turn (.error (.runtimeError "bincode encode: Io"))

end SampleServer

open SampleServer Server.Sample in
theorem capped_iff_unencodedFits_encoded : EnvelopesTaken server ∧
      Capped json server none (turn (.ok "cursor")) (respond server origin none (turn (.ok "cursor"))) :=
  ⟨envelopesTaken, (capped_iff_unencodedFits json server envelopesTaken origin none _).mpr nofun⟩

open SampleServer Server.Sample in
/-- Two logs and the failure to encode the state are 96 KiB, for a client that set a
limit of 64 KiB when it opened the sheet. -/
theorem unencoded_turn_exceeds_limit : (respond server origin none unencodable).status = 200 ∧
      lengthOf server (respond server origin none unencodable).sheets = 98304 ∧
      ¬ Capped json server none unencodable (respond server origin none unencodable) := by
  refine ⟨rfl, rfl, fun capped => ?_⟩
  rcases capped rfl with within | ⟨-, sheet, only, -, bare⟩
  · exact absurd (within (some 65536) (by decide) 65536 rfl) (by decide)
  · cases only
    exact absurd (bare _ List.mem_cons_self).1 (by decide)

end VgiRpc.Http.Dispatch
