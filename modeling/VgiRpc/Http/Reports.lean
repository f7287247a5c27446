import VgiRpc.Http.Bodies

/-!
# What the dispatch hook is told over HTTP

Over HTTP the failure of a call is kept beside the body that carries it.  Behind both,
the cap may replace the body by another error, and the outermost layer may drop it.
-/

namespace VgiRpc.Http.Dispatch

open Arrow List Option Server

section

variable {A : ArrowIpc} {σ : Type} (server : HttpServer A)

/-- The writer does not refuse a batch without rows. -/
def BlanksTaken : Prop :=
  ∀ schema tracker batch metadata error, server.emptyBatch schema = .ok batch →
    server.writes tracker batch metadata ≠ .error (.error error)

/-- The error that `on_dispatch_end` is given.  It is called before the cap for a unary
call and for reflection, and behind it for a stream; a panic on the way leaves it out. -/
def reportedError (origin : Origin) (accepted : Option ByteBudget) (request : Request A σ) :
    Option RpcError := do
  let answer ← dispatch server origin (hardLimit server.limits accepted) request
  match request with
  | .unary _ | .reflection _ => answer.error
  | .init _ _ _ | .continuation _ _ _ _ _ _ =>
    let _ ← conclude server origin (request.limit (hardLimit server.limits accepted)) answer
    answer.error

def HttpResponse.pieces {render : Rendering} (response : HttpResponse A render) :
    List (Piece A render) :=
  response.sheets.flatMap Sheet.pieces

/-- The pieces tell of this error, and are on batches without rows where they do. -/
structure Telling (pieces : List (Piece A server.render)) (told : Option RpcError) : Prop where
  tells : Tells pieces told
  blanks : ∀ piece ∈ pieces, piece.purpose.isError = true →
    ∃ schema, server.emptyBatch schema = .ok piece.item.1

variable {server}

theorem telling_nil : Telling server [] none := ⟨tells_nil, nofun⟩

variable {told : Option RpcError} {piece : Piece A server.render} {error : RpcError}
  {schema : Schema} {origin : Origin} {logs : List LogMessage} {limit : Option Nat}
  {sheet : Sheet A server.render} {answer : Answer A server.render} {mint : TokenMint σ}

theorem Telling.append {first second : List (Piece A server.render)}
    (silent : Telling server first none) (telling : Telling server second told) :
    Telling server (first ++ second) told := by
  refine ⟨fun error => ?_, forall_mem_append.mpr ⟨silent.blanks, telling.blanks⟩⟩
  rw [← telling.tells error]
  constructor
  · rintro ⟨piece, member, purpose⟩
    rcases mem_append.mp member with member | member
    · cases (silent.tells error).mp ⟨piece, member, purpose⟩
    · exact ⟨piece, member, purpose⟩
  · rintro ⟨piece, member, purpose⟩
    exact ⟨piece, mem_append_right _ member, purpose⟩

/-- Pieces that are no errors tell of none. -/
theorem telling_none {pieces : List (Piece A server.render)}
    (silent : ∀ piece ∈ pieces, piece.purpose.isError = false) : Telling server pieces none := by
  refine ⟨fun error => iff_of_false ?_ nofun, fun piece member isError => ?_⟩
  · rintro ⟨piece, member, purpose⟩
    have absent := silent piece member
    rw [purpose] at absent
    cases absent
  · rw [silent piece member] at isError
    cases isError

theorem telling_single (silent : piece.purpose.isError = false) : Telling server [piece] none :=
  telling_none (forall_mem_singleton.mpr silent)

theorem telling_error (purposed : piece.purpose = .error error)
    (blank : server.emptyBatch schema = .ok piece.item.1) :
    Telling server [piece] (some error) :=
  ⟨tells_single purposed, forall_mem_singleton.mpr fun _ => ⟨schema, blank⟩⟩

theorem errorPiece_telling (made : errorPiece server origin schema error = some piece) :
    Telling server [piece] (some error) := by
  have blank := errorPiece_blank made
  obtain ⟨empty, -, made⟩ := bind_eq_some_iff.mp made
  cases made
  exact telling_error rfl blank

variable {written : Written A server.render}

theorem failing_telling (made : failing server origin schema error = some written) :
    Telling server written.pieces written.error := by
  obtain ⟨piece, built, made⟩ := bind_eq_some_iff.mp made
  cases made
  exact errorPiece_telling built

theorem Composed.telling {said : List Purpose} (composed : Composed server written said) :
    Telling server written.pieces written.error := by
  induction composed with
  | nil => exact telling_nil
  | failing made => exact failing_telling made
  | token rows tokens => exact telling_single rfl
  | behind silent spoken rest ih => exact (telling_single silent).append ih

theorem telling_sheet (telling : Telling server sheet.pieces told) :
    Telling server ([sheet].flatMap Sheet.pieces) told := by
  rw [flatMap_singleton]
  exact telling

def Answer.Told (answer : Answer A server.render) : Prop :=
  Telling server (answer.sheets.flatMap Sheet.pieces) answer.error

/-! ## What is written -/

section

variable {tracker : server.Tracker} {pieces written : List (Piece A server.render)}
  (taken : BlanksTaken server)

include taken

/-- What the writer leaves out is no EXCEPTION. -/
theorem writePieces_errors (blanks : ∀ piece ∈ pieces, piece.purpose.isError = true → ∃ schema,
    server.emptyBatch schema = .ok piece.item.1) (made : writePieces server tracker pieces = some
    written) :
    written ⊆ pieces ∧ ∀ piece ∈ pieces, piece.purpose.isError = true → piece ∈ written := by
  induction pieces generalizing tracker written with
  | nil => cases made; exact ⟨List.Subset.refl _, nofun⟩
  | cons piece rest ih =>
    obtain ⟨blank, others⟩ := forall_mem_cons.mp blanks
    unfold writePieces at made
    split at made
    · obtain ⟨more, later, rfl⟩ := map_eq_some_iff.mp made
      obtain ⟨inside, kept⟩ := ih others later
      refine ⟨cons_subset_cons _ inside, forall_mem_cons.mpr ⟨?_, ?_⟩⟩
      · exact fun _ => mem_cons_self
      · exact fun other member isError => mem_cons_of_mem _ (kept other member isError)
    · next refused =>
      obtain ⟨inside, kept⟩ := ih others made
      refine ⟨subset_cons_of_subset _ inside, forall_mem_cons.mpr ⟨?_, kept⟩⟩
      intro isError
      obtain ⟨schema, built⟩ := blank isError
      exact absurd refused (taken schema tracker _ _ _ built)
    · cases made

theorem Telling.kept (telling : Telling server pieces told)
    (made : writePieces server tracker pieces = some written) : Telling server written told := by
  obtain ⟨inside, kept⟩ := writePieces_errors taken telling.blanks made
  refine ⟨fun error => ?_, fun piece member => telling.blanks piece (inside member)⟩
  rw [← telling.tells error]
  constructor
  · rintro ⟨piece, member, purpose⟩
    exact ⟨piece, inside member, purpose⟩
  · rintro ⟨piece, member, purpose⟩
    exact ⟨piece, kept piece member (by rw [purpose]; rfl), purpose⟩

theorem Telling.body (telling : Telling server pieces told) (made : bodyStream server schema pieces = some sheet) :
    Telling server sheet.pieces told := by
  unfold bodyStream at made
  split at made
  · cases made
  · obtain ⟨written, wrote, rfl⟩ := map_eq_some_iff.mp made
    exact telling.kept taken wrote

theorem errorStream_telling (made : errorStream server origin schema error = some sheet) :
    Telling server ([sheet].flatMap Sheet.pieces) (some error) := by
  obtain ⟨piece, built, body⟩ := bind_eq_some_iff.mp made
  exact telling_sheet ((errorPiece_telling built).body taken body)

theorem Carries.telling {sheets : List (Sheet A server.render)}
    {said : List (Logging.HttpReader × List Purpose)} (carries : Carries server sheets told said) :
    Telling server (sheets.flatMap Sheet.pieces) told := by
  induction carries with
  | last composed body reader => exact telling_sheet (composed.telling.body taken body)
  | header composed sound body reader rest ih =>
    have silent := composed.telling
    rw [sound] at silent
    exact (silent.body taken body).append ih

/-- The error in the body of a reflection: the hook is not told of a refusal. -/
theorem reflectionDispatch_told {result : ReflectionResult A}
    (made : reflectionDispatch server origin result = some answer) :
    (answer.exit = .refused ∧ answer.Told) ∨
    (answer.exit = .capped ∧ answer.error = none ∧
      ∃ told, Telling server (answer.sheets.flatMap Sheet.pieces) told ∧
        (told = none ↔ ∀ error, result ≠ .refused error)) := by
  unfold reflectionDispatch at made
  split at made
  · next sheets served =>
    cases made
    refine .inr ⟨rfl, rfl, ?_⟩
    rcases serveReflection_ok served with
      ⟨batch, rfl, pieces⟩ | ⟨error, piece, rfl, pieces, purpose, blank⟩
    · dsimp only
      rw [pieces]
      exact ⟨none, telling_single rfl, iff_of_true rfl nofun⟩
    · dsimp only
      rw [pieces]
      refine ⟨some error, telling_error purpose blank, ?_⟩
      exact iff_of_false nofun fun unrefused => unrefused error rfl
  · obtain ⟨sheet, body, made⟩ := bind_eq_some_iff.mp made
    cases made
    exact .inl ⟨rfl, errorStream_telling taken body⟩
  · cases made

end

/-! ## Responses -/

variable (server)

def replacement (origin : Origin) (limit : Option Nat) (answer : Answer A server.render) :
    Option RpcError :=
  match answer.exit with
  | .guarded | .capped => capError server origin limit answer
  | .early | .refused => none

/-- The hook hears of what goes out.  A body that is dropped or that cannot be replaced
carried no error; one that is replaced carried the very same; and one that goes out holds
nothing that is mistaken for an error, and is not a refusal of reflection. -/
def HeardOverHttp (json : JsonReader) (origin : Origin) (accepted : Option ByteBudget)
    (request : Request A σ) : Prop :=
  ∀ answer, dispatch server origin (hardLimit server.limits accepted) request = some answer →
    match conclude server origin (request.limit (hardLimit server.limits accepted)) answer with
    | none => ∀ call, request = .unary call → answer.error = none
    | some response =>
      if Within (hardLimit server.limits accepted) (lengthOf server response.sheets) then
        match replacement server origin (request.limit (hardLimit server.limits accepted))
            answer with
        | some error => answer.error = some error
        | none =>
          Unmistaken json response.pieces ∧
            ∀ error, request = .reflection (.refused error) → answer.exit = .refused
      else answer.error = none

variable {server}

section

variable {origin : Origin} {accepted : Option ByteBudget} {request : Request A σ}
  {answer : Answer A server.render} {response : HttpResponse A server.render}

theorem respond_concluded (made : dispatch server origin (hardLimit server.limits accepted) request
    = some answer) (concluded : conclude server origin (request.limit (hardLimit server.limits
    accepted)) answer = some response) :
    respond server origin accepted request =
        (if Within (hardLimit server.limits accepted) (lengthOf server response.sheets) then
          response else bareFailure) ∧
      reportedError server origin accepted request = answer.error := by
  constructor
  · rw [respond, made, bind_eq_bind, bind_some, concluded, responseBufferCeiling_hardLimit]
    rfl
  · rw [reportedError, made, bind_eq_bind, bind_some]
    cases request with
    | unary call => rfl
    | reflection result => rfl
    | init mint call tick | continuation mint methods call resumed batch metadata =>
      dsimp only
      rw [concluded]
      rfl

/-- A body goes out as it is, or an EXCEPTION in its place. -/
def Replaced (answer : Answer A server.render) (response : HttpResponse A server.render) :
    Option RpcError → Prop
  | none => response.sheets = answer.sheets
  | some error => ∃ sheet, errorStream server answer.named answer.schema error = some sheet ∧
      response.sheets = [sheet]

theorem enforceCap_replaced {limit : Option Nat} {stamped : Bool}
    (made : enforceCap server origin limit answer stamped = some response) :
    Replaced answer response (capError server origin limit answer) := by
  unfold enforceCap at made
  split at made
  · next uncapped =>
    rw [uncapped]
    cases made
    rfl
  · next error capped =>
    rw [capped]
    obtain ⟨sheet, body, made⟩ := bind_eq_some_iff.mp made
    cases made
    exact ⟨sheet, body, rfl⟩

theorem conclude_replaced {limit : Option Nat}
    (concluded : conclude server origin limit answer = some response) :
    Replaced answer response (replacement server origin limit answer) := by
  unfold conclude at concluded
  unfold replacement
  cases exit : answer.exit with
  | guarded | capped =>
    rw [exit] at concluded
    exact enforceCap_replaced concluded
  | early | refused =>
    rw [exit] at concluded
    cases concluded
    rfl

variable (taken : BlanksTaken server)

include taken

theorem dispatch_told {hard : Option Nat}
    (made : dispatch server origin hard request = some answer) :
    ∃ told, Telling server (answer.sheets.flatMap Sheet.pieces) told ∧ (answer.error = told ↔
        ∀ error, request = .reflection (.refused error) → answer.exit = .refused) := by
  have told (handled : Logging.Handled request) :
      Telling server (answer.sheets.flatMap Sheet.pieces) answer.error := by
    obtain ⟨spoken, carries, -⟩ := dispatch_carries handled made
    exact carries.telling taken
  cases request with
  | unary call | init mint call tick => exact ⟨_, told trivial, iff_of_true rfl nofun⟩
  | continuation mint methods call resumed batch metadata =>
    exact ⟨_, told trivial, iff_of_true rfl nofun⟩
  | reflection result =>
    rcases reflectionDispatch_told taken made with
      ⟨exit, told⟩ | ⟨exit, silent, told, telling, same⟩
    · exact ⟨_, told, iff_of_true rfl fun _ _ => exit⟩
    · refine ⟨told, telling, ?_⟩
      rw [silent, eq_comm, same, exit]
      constructor
      · rintro unrefused error ⟨⟩
        exact absurd rfl (unrefused error)
      · rintro refused error rfl
        cases refused error rfl

/-- Without a response the hook is told of an error only for a unary call. -/
theorem reportedError_unconcluded (made : dispatch server origin (hardLimit server.limits accepted)
    request = some answer) (concluded : conclude server origin (request.limit (hardLimit
    server.limits accepted)) answer = none) :
    reportedError server origin accepted request = none ↔
      ∀ call, request = .unary call → answer.error = none := by
  rw [reportedError, made, bind_eq_bind, bind_some]
  cases request with
  | unary call =>
    constructor
    · rintro silent _ ⟨⟩
      exact silent
    · intro silent
      exact silent call rfl
  | init mint call tick | continuation mint methods call resumed batch metadata =>
    dsimp only
    rw [concluded]
    exact iff_of_true rfl nofun
  | reflection result =>
    refine iff_of_true ?_ nofun
    rcases reflectionDispatch_told taken made with ⟨exit, -⟩ | ⟨-, silent, -⟩
    · rw [conclude, exit] at concluded
      cases concluded
    · exact silent

theorem errorStream_unmistaken (json : JsonReader) {schema : Schema} {error : RpcError}
    {sheet : Sheet A server.render} (made : errorStream server origin schema error = some sheet) :
    Unmistaken json ([sheet].flatMap Sheet.pieces) := by
  obtain ⟨piece, built, body⟩ := bind_eq_some_iff.mp made
  have blanks := (errorPiece_telling built).blanks
  obtain ⟨empty, -, built⟩ := bind_eq_some_iff.mp built
  cases built
  rw [flatMap_singleton]
  intro piece member
  unfold bodyStream at body
  split at body
  · cases body
  obtain ⟨written, wrote, rfl⟩ := map_eq_some_iff.mp body
  have same := (writePieces_errors taken blanks wrote).1 member
  rw [mem_singleton.mp same]
  exact ⟨nofun, nofun⟩

end

/-- The hook is given an error exactly when the response carries an EXCEPTION, and that
one, unless one of the last stages goes behind its back. -/
theorem http_reported_iff (taken : BlanksTaken server) (json : JsonReader) (origin : Origin)
    (accepted : Option ByteBudget) (request : Request A σ) :
    Reported json (respond server origin accepted request).pieces
        (reportedError server origin accepted request) ↔
      HeardOverHttp server json origin accepted request := by
  unfold HeardOverHttp
  cases made : dispatch server origin (hardLimit server.limits accepted) request with
  | none =>
    rw [respond, reportedError, made]
    exact iff_of_true ((reported_nil_iff json).mpr rfl) (by rintro _ ⟨⟩)
  | some answer =>
    simp only [Option.some.injEq, forall_eq']
    cases concluded : conclude server origin
      (request.limit (hardLimit server.limits accepted)) answer with
    | none =>
      rw [respond, made, bind_eq_bind, bind_some, concluded]
      exact (reported_nil_iff json).trans (reportedError_unconcluded taken made concluded)
    | some response =>
      obtain ⟨final, reported⟩ := respond_concluded made concluded
      rw [final, reported]
      dsimp only
      by_cases fits : Within (hardLimit server.limits accepted) (lengthOf server response.sheets)
      · rw [if_pos fits, if_pos fits]
        have body := conclude_replaced concluded
        cases replaced : replacement server origin
          (request.limit (hardLimit server.limits accepted)) answer with
        | some error =>
          rw [replaced] at body
          obtain ⟨sheet, made, sheets⟩ := body
          rw [HttpResponse.pieces, sheets, reported_iff json (errorStream_telling taken made).tells]
          exact and_iff_right (errorStream_unmistaken taken json made)
        | none =>
          rw [replaced] at body
          obtain ⟨told, telling, same⟩ := dispatch_told taken made
          rw [HttpResponse.pieces, body, reported_iff json telling.tells, same]
      · rw [if_neg fits, if_neg fits]
        exact reported_nil_iff json

/-- What `on_dispatch_end` is given is the error on the response: for a unary call, for a
stream and for reflection on a byte stream, and for every request over HTTP. -/
theorem dispatch_end_reported_iff (engine : Engine A) (server : HttpServer A)
    (taken : BlanksTaken server) (json : JsonReader) :
    (∀ shm envelope call,
      HeardOnPipe engine json ((unarySaid call).map Reply.purpose) (unaryMishaps call)
        (serveUnary engine shm call ⟨envelope, []⟩)) ∧
    (∀ (σ : Type) shm envelope (call : Server.StreamCall A σ) input,
      HeardOnPipe engine json ((streamSaid engine shm call input).map Reply.purpose)
        (streamMishaps engine shm call input) (serveStream engine shm call input ⟨envelope, []⟩)) ∧
    (∀ envelope result outcome sheets, serveReflection engine envelope result = (outcome, sheets) →
        (Reported json (sheets.flatMap Sheet.pieces) (reflectionError outcome) ↔
          (outcome = .ok () ∧ ∃ batch, result = .answered batch) ∨ outcome = .error .panicked)) ∧
    ∀ (σ : Type) origin accepted (request : Request A σ),
      Reported json (respond server origin accepted request).pieces
          (reportedError server origin accepted request) ↔
        HeardOverHttp server json origin accepted request := by
  refine ⟨fun shm envelope call => ?_, fun σ shm envelope call input => ?_,
    fun envelope result outcome sheets served => ?_, fun σ origin accepted request => ?_⟩
  · exact heardOnPipe json (serveUnary_voices call) (unarySaid_errs call) envelope
  · exact heardOnPipe json (serveStream_voices call input) (streamSaid_errs call input) envelope
  · exact reflection_reported_iff json envelope result served
  · exact http_reported_iff taken json origin accepted request

end

namespace SampleServer

open Server.Sample

theorem blanksTaken : BlanksTaken server := nofun

def scan (logs : Nat) : Request tables Nat :=
  .unary ⟨.empty, List.replicate logs ⟨.info, "scanned", []⟩, none, .returned (.ok none)⟩

end SampleServer

open SampleServer Server.Sample in
theorem dispatch_end_reported_iff_scan : BlanksTaken server ∧
      (Reported json (respond server origin none (scan 1)).pieces
          (reportedError server origin none (scan 1)) ↔
        HeardOverHttp server json origin none (scan 1)) :=
  ⟨blanksTaken, (dispatch_end_reported_iff engine server blanksTaken json).2.2.2 Nat origin none _⟩

open SampleServer Server.Sample in
/-- Two logs and the result are 96 KiB, for a client that takes 64: the client is sent the
EXCEPTION of the cap, and the hook is told of a success. -/
theorem capped_call_reported_as_success :
    reportedError server origin (some ⟨65536, by decide⟩) (scan 2) = none ∧
      ((respond server origin (some ⟨65536, by decide⟩) (scan 2)).pieces.map fun piece =>
        isException json piece.item) = [true] ∧
      ¬ Reported json (respond server origin (some ⟨65536, by decide⟩) (scan 2)).pieces
        (reportedError server origin (some ⟨65536, by decide⟩) (scan 2)) := by
  have exceptions : ((respond server origin (some ⟨65536, by decide⟩) (scan 2)).pieces.map
      fun piece => isException json piece.item) = [true] := by decide
  refine ⟨rfl, exceptions, fun reported => ?_⟩
  obtain ⟨piece, member, exception⟩ := mem_map.mp (exceptions ▸ mem_singleton_self true)
  obtain ⟨error, -, absent⟩ := reported.1 piece member exception
  cases absent

end VgiRpc.Http.Dispatch
