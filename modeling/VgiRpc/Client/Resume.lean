import VgiRpc.Client.HttpSession

/-!
# Reading a stream in pieces

A producer stream is read to its end with `tick`, or batch by batch with
`nextWithToken`, where after any batch the session may be dropped and another one put
at the position that came with it.  Both are compared with what the server's responses
come to when they are followed cursor by cursor.
-/

namespace VgiRpc.Client

open HttpStreamSession
open HttpStreamSession (tick nextWithToken continuation)

section

variable {β : Type} (config : ClientConfig β) (server : Responder β)

/-- The batches a reader got, and the error that ended its reading. -/
abbrev Delivered (β : Type) := List (Item β) × Option RpcError

def readTicks (fuel : Nat) : Nat → HttpStreamSession β → Option (Delivered β)
  | 0, _ => none
  | rounds + 1, session =>
    match tick config server fuel session with
    | none => none
    | some (.error error, _) => some ([], some error)
    | some (.ok none, _) => some ([], none)
    | some (.ok (some item), after) =>
      (readTicks fuel rounds after).map fun rest => (item :: rest.1, rest.2)

/-- What the reader does after a batch: go on with its session, drop it and resume from
the token, or point another session at the token. -/
inductive Move (β : Type) where
  | stay
  | resume
  | seek (session : HttpStreamSession β)

/-- A stream at its end has no token to move with. -/
def Move.apply (move : Move β) (session : HttpStreamSession β) (token : Option String) :
    HttpStreamSession β :=
  match token with
  | none => session
  | some token =>
    match move with
    | .stay => session
    | .resume => resumeStream token
    | .seek other => other.seekToToken token

/-- Call `nextWithToken` until it returns nothing or fails, with a move after each batch. -/
def readCuts (moves : Nat → Move β) : Nat → HttpStreamSession β → Option (Delivered β)
  | 0, _ => none
  | rounds + 1, session =>
    match nextWithToken config server session with
    | (.error error, _) => some ([], some error)
    | (.ok none, _) => some ([], none)
    | (.ok (some (item, token)), after) =>
      (readCuts moves rounds ((moves rounds).apply after token)).map fun rest =>
        (item :: rest.1, rest.2)

variable (callToken : Option String)

def respond (token : String) : Except RpcError (ParsedStream β) :=
  match server ⟨token, callToken, false, none⟩ with
  | .error error => .error error
  | .ok body => (parseResponse config false body).1

/-- The responses of a stream from a cursor on: for each whether it carried a batch, and
how the last one ended. -/
inductive Follows (callToken : Option String) :
    Option String → List (Option (Item β)) → Option RpcError → Prop where
  | ended : Follows callToken none [] none
  | failed {token : String} {error : RpcError} (answer : respond config server callToken token =
      .error error) : Follows callToken (some token) [] (some error)
  | turn {token : String} {parsed : ParsedStream β} {turns : List (Option (Item β))}
      {ending : Option RpcError} (answer : respond config server callToken token = .ok parsed)
      (later : Follows callToken parsed.token turns ending) :
      Follows callToken (some token) (parsed.batches.head? :: turns) ending

/-- The cursors a server hands out, with the call token of the stream, are base64 texts. -/
def IssuesTexts : Prop :=
  ∀ token parsed cursor, respond config server callToken token = .ok parsed →
    parsed.token = some cursor → TokenText cursor callToken

/-- After a turn without a batch nothing comes any more, neither a batch nor an error. -/
def QuietAfterGap (turns : List (Option (Item β))) (ending : Option RpcError) : Prop :=
  ∀ before after, turns = before ++ none :: after → (∀ turn ∈ after, turn = none) ∧ ending = none

def batchesOf : List (Option (Item β)) → List (Item β)
  | [] => []
  | none :: rest => batchesOf rest
  | some item :: rest => item :: batchesOf rest

/-- What reading batch by batch makes of the turns: it stops at the first gap. -/
def untilGap : List (Option (Item β)) → Option RpcError → Delivered β
  | [], ending => ([], ending)
  | none :: _, _ => ([], none)
  | some item :: rest, ending => (item :: (untilGap rest ending).1, (untilGap rest ending).2)

theorem batchesOf_eq_nil {turns : List (Option (Item β))} :
    batchesOf turns = [] ↔ ∀ turn ∈ turns, turn = none := by
  induction turns with
  | nil => simp [batchesOf]
  | cons turn rest ih => cases turn <;> simp [batchesOf, ih]

variable {rest : List (Option (Item β))}

theorem QuietAfterGap.gap {ending : Option RpcError} :
    QuietAfterGap (none :: rest) ending ↔ (∀ turn ∈ rest, turn = none) ∧ ending = none := by
  constructor
  · intro quiet
    exact quiet [] rest rfl
  · rintro ⟨quiet, fine⟩ before after split
    refine ⟨?_, fine⟩
    intro turn member
    cases before with
    | nil =>
      cases split
      exact quiet turn member
    | cons first before =>
      cases split
      exact quiet turn (List.mem_append_right _ (List.mem_cons_of_mem _ member))

theorem QuietAfterGap.batch {item : Item β} {ending : Option RpcError} :
    QuietAfterGap (some item :: rest) ending ↔ QuietAfterGap rest ending := by
  constructor
  · intro quiet before after split
    exact quiet (some item :: before) after (by rw [split]; rfl)
  · intro quiet before after split
    cases before with
    | nil => cases split
    | cons first before =>
      cases split
      exact quiet before after rfl

theorem untilGap_eq_iff (turns : List (Option (Item β))) (ending : Option RpcError) :
    untilGap turns ending = (batchesOf turns, ending) ↔ QuietAfterGap turns ending := by
  induction turns with
  | nil =>
    refine iff_of_true rfl ?_
    intro before after split
    cases before <;> cases split
  | cons turn rest ih =>
    cases turn with
    | none =>
      rw [QuietAfterGap.gap, ← batchesOf_eq_nil]
      simp [untilGap, batchesOf, eq_comm]
    | some item =>
      rw [QuietAfterGap.batch, ← ih]
      simp only [untilGap, batchesOf, Prod.ext_iff, List.cons.injEq, true_and]

/-! ## Sessions at a cursor -/

/-- The session stands at a cursor of the stream and holds no batch. -/
structure Positioned (session : HttpStreamSession β) (callToken token : Option String) : Prop where
  live : session.cancelled = false
  empty : session.pending = []
  sameCall : session.callToken = callToken
  sameToken : session.token = token
  unfinished : session.finished = true → token = none

section

variable {config server} {callToken token : Option String} {turns : List (Option (Item β))}
  {ending : Option RpcError} {session : HttpStreamSession β}

/-- Posting the cursor of a session changes nothing in it but the logs. -/
theorem Positioned.posts {token : String} (stands : Positioned session callToken (some token))
    {answer : Except RpcError (ParsedStream β)}
    (answered : respond config server callToken token = answer) :
    ∃ logs, continuation config server session token none =
      (answer, { session with logs := logs }) := by
  subst answered
  rw [← stands.sameCall]
  unfold continuation respond
  cases server ⟨token, session.callToken, false, none⟩ with
  | error error => exact ⟨session.logs, rfl⟩
  | ok body => exact ⟨_, rfl⟩

theorem Positioned.goesOn {token : String}
    (stands : Positioned session callToken (some token)) : ¬ session.finished = true := by
  intro done
  cases stands.unfinished done

theorem respond_ok {token : String} {parsed : ParsedStream β}
    (answer : respond config server callToken token = .ok parsed) :
    parsed.batches = parsed.batches.head?.toList ∧ parsed.finished = parsed.token.isNone := by
  unfold respond at answer
  split at answer
  · cases answer
  obtain ⟨few, finished⟩ := parseResponse_ok answer
  refine ⟨?_, finished⟩
  match parsed.batches, few with
  | [], _ => rfl
  | [item], _ => rfl
  | _ :: _ :: _, few => simp at few

section

variable (fuel : Nat)

theorem tick_pending {item : Item β} (live : session.cancelled = false)
    (pending : session.pending = [item]) :
    tick config server (fuel + 1) session =
      some (.ok (some item), { session with pending := [] }) := by
  rw [tick, tickWithMetadata, if_neg (by simp [live]), pending]

/-- A turn puts what it carried into the session, and `tick` goes on there. -/
theorem tick_turn {token : String} {parsed : ParsedStream β} (stands : Positioned session callToken
    (some token)) (answer : respond config server callToken token = .ok parsed) :
    ∃ after, tick config server (fuel + 1) session = tick config server fuel after ∧
      after.pending = parsed.batches ∧
      Positioned ({ after with pending := [] } : HttpStreamSession β) callToken parsed.token := by
  have finished := (respond_ok answer).2
  obtain ⟨logs, posted⟩ := stands.posts answer
  refine ⟨{ session with
    logs := logs, pending := parsed.batches, token := parsed.token,
    finished := parsed.finished }, ?_, rfl, stands.live, rfl, stands.sameCall, rfl, ?_⟩
  · rw [tick, tickWithMetadata, if_neg (by simp [stands.live])]
    simp only [stands.empty, stands.sameToken, if_neg stands.goesOn, posted]
  · intro done
    exact Option.isNone_iff_eq_none.mp (finished ▸ done)

end

def atEnd {α : Type} : Option RpcError → Except RpcError (Option α)
  | none => .ok none
  | some error => .error error

/-- One `tick` from a cursor follows the turns up to the first batch, or to the end. -/
theorem tick_follows (follows : Follows config server callToken token turns ending) {fuel : Nat}
    (enough : turns.length + 1 < fuel) (stands : Positioned session callToken token) :
    (∃ item rest next after, batchesOf turns = item :: batchesOf rest ∧ rest.length < turns.length ∧
      tick config server fuel session = some (.ok (some item), after) ∧
      Positioned after callToken next ∧ Follows config server callToken next rest ending) ∨
    (batchesOf turns = [] ∧ ∃ after,
      tick config server fuel session = some (atEnd ending, after)) := by
  induction follows generalizing session fuel with
  | ended =>
    obtain ⟨fuel, rfl⟩ := Nat.exists_eq_succ_of_ne_zero (Nat.ne_zero_of_lt enough)
    refine .inr ⟨rfl, { session with finished := true }, ?_⟩
    rw [tick, tickWithMetadata, if_neg (by simp [stands.live]), stands.empty, stands.sameToken]
    rfl
  | failed answer =>
    obtain ⟨fuel, rfl⟩ := Nat.exists_eq_succ_of_ne_zero (Nat.ne_zero_of_lt enough)
    obtain ⟨logs, posted⟩ := stands.posts answer
    refine .inr ⟨rfl, { session with logs := logs }, ?_⟩
    rw [tick, tickWithMetadata, if_neg (by simp [stands.live])]
    simp only [stands.empty, stands.sameToken, if_neg stands.goesOn, posted]
    rfl
  | @turn token parsed turns ending answer later ih =>
    obtain ⟨fuel, rfl⟩ := Nat.exists_eq_succ_of_ne_zero (Nat.ne_zero_of_lt enough)
    rw [List.length_cons] at enough
    obtain ⟨after, step, pending, positioned⟩ := tick_turn fuel stands answer
    rw [step]
    have batches := (respond_ok answer).1
    cases carried : parsed.batches.head? with
    | some item =>
      rw [carried] at batches
      obtain ⟨fuel, rfl⟩ := Nat.exists_eq_succ_of_ne_zero (show fuel ≠ 0 by omega)
      refine .inl ⟨item, turns, parsed.token, _, rfl, Nat.lt_succ_self _, ?_, positioned, later⟩
      exact tick_pending fuel positioned.live (pending.trans batches)
    | none =>
      rw [carried] at batches
      have same : after = { after with pending := [] } := by
        cases after
        cases pending.trans batches
        rfl
      rw [← same] at positioned
      rcases ih (show turns.length + 1 < fuel by omega) positioned with
        ⟨item, rest, next, final, held, shorter, found⟩ | rest
      · exact .inl ⟨item, rest, next, final, held, Nat.lt_succ_of_lt shorter, found⟩
      · exact .inr rest

variable {rounds : Nat}

/-- Reading with `tick` delivers every batch of the turns and their ending. -/
theorem readTicks_follows (follows : Follows config server callToken token turns ending)
    {fuel : Nat} (enough : turns.length + 1 < fuel) (more : turns.length < rounds)
    (stands : Positioned session callToken token) :
    readTicks config server fuel rounds session = some (batchesOf turns, ending) := by
  induction bound : turns.length using Nat.strongRecOn generalizing turns token rounds session with
  | ind size ih =>
    obtain ⟨rounds, rfl⟩ := Nat.exists_eq_succ_of_ne_zero (Nat.ne_zero_of_lt more)
    rcases tick_follows follows enough stands with
      ⟨item, rest, next, after, held, shorter, ticks, positioned, later⟩ | ⟨none, after, ticks⟩
    · have tail : readTicks config server fuel rounds after = some (batchesOf rest, ending) :=
        ih rest.length (bound ▸ shorter) later (by omega) (by omega) positioned rfl
      rw [readTicks, ticks, held]
      simp [tail]
    · rw [readTicks, ticks, none]
      cases ending <;> rfl

/-- Wherever the reader moves with a token, it stands where the token was handed out. -/
theorem Move.apply_positioned (move : Move β) (stands : Positioned session callToken token)
    (text : ∀ cursor, token = some cursor → TokenText cursor callToken)
    (live : ∀ other, move = .seek other → other.cancelled = false) :
    Positioned (move.apply session session.resumeToken) callToken token := by
  cases held : token with
  | none =>
    have none : session.resumeToken = none := by
      rw [resumeToken, stands.sameToken, held]
      rfl
    rw [none, Move.apply, ← held]
    exact stands
  | some cursor =>
    have resume : session.resumeToken = some (packResumeToken cursor callToken) := by
      rw [resumeToken, stands.sameToken, held, stands.sameCall]
      rfl
    have unpacked := unpackResumeToken_pack (text cursor held)
    rw [resume]
    cases move with
    | stay => exact held ▸ stands
    | resume =>
      exact ⟨rfl, rfl, congrArg Prod.snd unpacked, congrArg (some ∘ Prod.fst) unpacked,
        fun done => by cases done⟩
    | seek other =>
      exact ⟨live other rfl, rfl, congrArg Prod.snd unpacked,
        congrArg (some ∘ Prod.fst) unpacked, fun done => by cases done⟩

/-- Reading batch by batch, with any moves, delivers the turns up to the first gap. -/
theorem readCuts_follows (follows : Follows config server callToken token turns ending)
    (texts : IssuesTexts config server callToken) {moves : Nat → Move β}
    (live : ∀ index other, moves index = .seek other → other.cancelled = false)
    (more : turns.length < rounds) (stands : Positioned session callToken token) :
    readCuts config server moves rounds session = some (untilGap turns ending) := by
  obtain ⟨rounds, rfl⟩ := Nat.exists_eq_succ_of_ne_zero (Nat.ne_zero_of_lt more)
  induction follows generalizing rounds session with
  | ended =>
    rw [readCuts, nextWithToken, if_neg (by simp [stands.live])]
    simp only [stands.empty, stands.sameToken]
    rfl
  | failed answer =>
    obtain ⟨logs, posted⟩ := stands.posts answer
    rw [readCuts, nextWithToken, if_neg (by simp [stands.live])]
    simp only [stands.empty, stands.sameToken, if_neg stands.goesOn, posted]
    rfl
  | @turn token parsed turns ending answer later ih =>
    obtain ⟨logs, posted⟩ := stands.posts answer
    have batches := (respond_ok answer).1
    rw [readCuts, nextWithToken, if_neg (by simp [stands.live])]
    cases carried : parsed.batches.head? with
    | some item =>
      rw [carried] at batches
      have positioned : Positioned { session with logs := logs, token := parsed.token } callToken
          parsed.token :=
        ⟨stands.live, stands.empty, stands.sameCall, rfl, fun done => absurd done stands.goesOn⟩
      have moved := (moves rounds).apply_positioned positioned
        (fun issued held => texts token parsed issued answer held) (live rounds)
      rw [List.length_cons] at more
      obtain ⟨rounds, rfl⟩ := Nat.exists_eq_succ_of_ne_zero (show rounds ≠ 0 by omega)
      have tail := ih moved rounds (by omega)
      simp only [stands.empty] at tail
      simp only [stands.empty, stands.sameToken, if_neg stands.goesOn, posted, batches]
      simp [tail, untilGap]
    | none =>
      rw [carried] at batches
      simp only [stands.empty, stands.sameToken, if_neg stands.goesOn, posted, batches]
      rfl

/-- An opened session holds at most one batch, with its cursor behind it. -/
theorem openProducer_ok {body : Body β} (opened : openProducer config body = .ok session) :
    (session.pending = [] ∨ ∃ item, session.pending = [item]) ∧
      Positioned ({ session with pending := [] } : HttpStreamSession β) session.callToken
        session.token := by
  unfold openProducer at opened
  rcases parses : parseResponse config false body with ⟨error | parsed, logs⟩
  · rw [parses] at opened
    cases opened
  · rw [parses] at opened
    cases opened
    obtain ⟨few, finished⟩ := parseResponse_ok (congrArg Prod.fst parses)
    refine ⟨?_, rfl, rfl, rfl, rfl, fun done => Option.isNone_iff_eq_none.mp (finished ▸ done)⟩
    match batches : parsed.batches, few with
    | [], _ => exact .inl rfl
    | [item], _ => exact .inr ⟨item, rfl⟩
    | _ :: _ :: _, few => simp at few

end

end

/-- Reading an opened stream batch by batch, dropping and resuming sessions at will,
delivers what uninterrupted ticks deliver exactly when after a response without a batch
neither a batch nor an error comes. -/
theorem cut_reading_iff {β : Type} {config : ClientConfig β} {server : Responder β} {body : Body β}
    {session : HttpStreamSession β} (opened : openProducer config body = .ok session) {turns : List
    (Option (Item β))} {ending : Option RpcError} (follows : Follows config server session.callToken
    session.token turns ending) (firstText : ∀ cursor, session.token = some cursor → TokenText
    cursor session.callToken) (texts : IssuesTexts config server session.callToken) {moves : Nat →
    Move β} (live : ∀ index other, moves index = .seek other → other.cancelled = false) :
    ∃ enough, ∀ fuel, enough ≤ fuel → ∃ whole cut,
      readTicks config server fuel fuel session = some whole ∧
      readCuts config server moves fuel session = some cut ∧
      (cut = whole ↔ QuietAfterGap turns ending) := by
  refine ⟨turns.length + 2, ?_⟩
  intro fuel enough
  obtain ⟨held, stands⟩ := openProducer_ok opened
  obtain ⟨fuel, rfl⟩ := Nat.exists_eq_succ_of_ne_zero (show fuel ≠ 0 by omega)
  rcases held with empty | ⟨item, pending⟩
  · have same : ({ session with pending := [] } : HttpStreamSession β) = session := by
      cases session
      cases empty
      rfl
    rw [same] at stands
    refine ⟨_, _, readTicks_follows follows (by omega) (by omega) stands,
      readCuts_follows follows texts live (by omega) stands, untilGap_eq_iff turns ending⟩
  · have alive : session.cancelled = false := stands.live
    have moved : Positioned ((moves fuel).apply { session with pending := [] } session.resumeToken)
        session.callToken session.token :=
      (moves fuel).apply_positioned stands firstText (live fuel)
    refine ⟨(item :: batchesOf turns, ending),
      (item :: (untilGap turns ending).1, (untilGap turns ending).2), ?_, ?_, ?_⟩
    · rw [readTicks, tick_pending fuel alive pending]
      dsimp only
      rw [readTicks_follows follows (by omega) (by omega) stands]
      rfl
    · rw [readCuts, nextWithToken, if_neg (by simp [alive]), pending]
      simp only [ne_eq, not_true_eq_false, if_false]
      rw [readCuts_follows follows texts live (by omega) moved]
      rfl
    · rw [← untilGap_eq_iff]
      simp only [Prod.ext_iff, List.cons.injEq, true_and]

/-! ## A response without a batch

Batches are their row counts.  The `/init` response carries a batch and the cursor `a`;
in one stream `a` is answered with a batch, in the other with a cursor alone. -/

namespace Sample

open Metadata

def config : ClientConfig Nat := ⟨id, fun _ => none, fun _ => none, none⟩

def batch (rows : Nat) : Item Nat := (rows, .empty)

def cursor (token : String) : Item Nat := (0, .ofEntries [(stateKey, token)])

def init : Body Nat :=
  ⟨[batch 1, (0, .ofEntries [(stateKey, "YQ=="), (callStateKey, "Y2FsbA==")])], none⟩

def session : HttpStreamSession Nat :=
  ⟨[batch 1], some "YQ==", some "Y2FsbA==", false, false, []⟩

def server (gap : Bool) : Responder Nat := fun request =>
  if request.token = "YQ==" ∧ gap then .ok ⟨[cursor "Yg=="], none⟩ else .ok ⟨[batch 3], none⟩

theorem session_opened : openProducer config init = .ok session := rfl

theorem tokenText {token : String} (plain : ':' ∉ token.toList)
    (short : byteLength token.toList < 2 ^ 64) : TokenText token session.callToken :=
  ⟨plain, short, by decide⟩

/-- Without the gap the second response is the last one. -/
theorem server_follows : Follows config (server false) session.callToken session.token
    [some (batch 3)] none := by
  have answer : respond config (server false) session.callToken "YQ==" =
      .ok ⟨[batch 3], none, none, true⟩ := rfl
  exact .turn answer .ended

theorem server_texts : IssuesTexts config (server false) session.callToken := by
  intro token parsed cursor answer handed
  have last : respond config (server false) session.callToken token =
      .ok ⟨[batch 3], none, none, true⟩ := by
    simp only [respond, server, Bool.false_eq_true, and_false, if_false]
    rfl
  cases last.symm.trans answer
  cases handed

end Sample

open Sample

/-- The stream without a gap reads the same when its session is dropped after each batch. -/
theorem cut_reading_iff_resumed : ∃ enough, ∀ fuel, enough ≤ fuel →
      readCuts config (server false) (fun _ => .resume) fuel session =
        readTicks config (server false) fuel fuel session := by
  obtain ⟨enough, reads⟩ := cut_reading_iff session_opened server_follows (by
      intro cursor held
      cases held
      exact tokenText (by decide) (by decide))
    server_texts
    (show ∀ index other, (fun _ : Nat => Move.resume) index = .seek other → _ by
      intro index other move
      cases move)
  refine ⟨enough, ?_⟩
  intro fuel more
  obtain ⟨whole, cut, ticks, cuts, same⟩ := reads fuel more
  have quiet : QuietAfterGap [some (batch 3)] none := (untilGap_eq_iff _ _).mp rfl
  rw [ticks, cuts, same.mpr quiet]

/-- With the gap `tick` reads on to the second batch, and `nextWithToken` ends there. -/
theorem gap_ends_next_with_token : openProducer config init = .ok session ∧
    readTicks config (server true) 5 5 session = some ([batch 1, batch 3], none) ∧
    readCuts config (server true) (fun _ => .stay) 5 session = some ([batch 1], none) :=
  ⟨rfl, rfl, rfl⟩

end VgiRpc.Client
