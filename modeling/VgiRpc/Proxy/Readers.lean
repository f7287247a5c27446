import VgiRpc.Proxy.Protocol

/-!
# Reading a preamble off a connection

A bridge sends the preamble of one endpoint in front of the bytes of the application.  Two
readers take a preamble off a connection, one that blocks and one with a deadline; both
read the fixed part, then what it declares, and leave the rest to the application.
-/

namespace VgiRpc.Proxy

open Library.ByteStream List
open Library.Program (bind_error bind_ok)

/-- `read_exact`, with what becomes of its error. -/
def readExact (eof : IoError) (reported : IoError → IoError) (want : Nat) : Reader IoError Bytes := do
  match ← Reader.gather want with
  | .full bytes => pure bytes
  | .eof _ => throw (reported eof)
  | .failed error _ => throw (reported error)

def declared (fixed : Bytes) : Nat := fromBe (fixed.getD 14 0) (fixed.getD 15 0)

def readPreamble (eof : IoError) (ofFixed ofBody : IoError → IoError) (maximumBytes : Nat)
    (allowIrohIdentity : Bool) : Reader IoError Parsed := do
  let fixed ← readExact eof ofFixed fixedBytes
  if maximumBytes < fixedBytes + declared fixed then
    throw (invalid "PROXY v2 preamble exceeds configured limit")
  else do
    let body ← readExact eof ofBody (declared fixed)
    liftM (parseProxyProtocolV2WithOptions (fixed ++ body) maximumBytes allowIrohIdentity)

def truncated (part : String) (error : IoError) : IoError :=
  ⟨error.kind, "truncated PROXY v2 " ++ part ++ ": " ++ error.message⟩

def readProxyProtocolV2WithOptions (maximumBytes : Nat) (allowIrohIdentity : Bool) :
    Reader IoError Parsed := do
  let maximumBytes ← liftM (maximumBytesOrDefault maximumBytes)
  readPreamble ⟨.unexpectedEof, "failed to fill whole buffer"⟩ (truncated "fixed preamble")
    (truncated "body") maximumBytes allowIrohIdentity

/-- One turn of the loop with a deadline: the clock is read, and then the connection. -/
structure ReadTurn where
  now : Nat
  event : ReadEvent IoError

def ReadTurn.before (deadline : Nat) (turn : ReadTurn) : ReadEvent IoError :=
  if deadline ≤ turn.now then .fail ⟨.timedOut, "PROXY v2 preamble timed out"⟩ else turn.event

/-- The turns of the loop decide what becomes of its reads. -/
def readProxyUntil (deadline maximumBytes : Nat) (allowIrohIdentity : Bool) (bytes : Bytes)
    (turns : List ReadTurn) : Except IoError Parsed × Source IoError :=
  if maximumBytes < fixedBytes then
    (.error ⟨.invalidInput, "maximum PROXY v2 bytes must be at least 16"⟩, ⟨bytes, []⟩)
  else
    readPreamble ⟨.unexpectedEof, "truncated PROXY v2 preamble"⟩ id id maximumBytes
      allowIrohIdentity ⟨bytes, turns.map (ReadTurn.before deadline)⟩

structure EndpointId where
  bytes : Bytes
  length : bytes.length = 32

def identityPayloadLen : Nat := 33
def identityTlvLen : Nat := 1 + 2 + identityPayloadLen

variable (endpointId : EndpointId)

def encodeIrohProxyV2 : Bytes :=
  signature ++ (0x21 :: 0x00 :: (toBe identityTlvLen ++
    (0xe0 :: (toBe identityPayloadLen ++ (1 :: endpointId.bytes)))))

def EndpointId.header : Header where
  block := .unspecified
  records := [⟨irohEndpointTlv, irohEndpointVersion :: endpointId.bytes, by simp [endpointId.length]⟩]
  fits := by simp [Block.bytes, Record.bytes, toBe, endpointId.length]

theorem encodeIrohProxyV2_eq : encodeIrohProxyV2 endpointId = endpointId.header.bytes := by
  have body : endpointId.header.body.length = identityTlvLen := by
    simp [Header.body, EndpointId.header, Block.bytes, Record.bytes, toBe, endpointId.length,
      identityTlvLen, identityPayloadLen]
  have value : (irohEndpointVersion :: endpointId.bytes).length = identityPayloadLen := by
    simp [endpointId.length, identityPayloadLen]
  rw [Header.bytes, body, Header.body]
  simp only [EndpointId.header, flatMap_cons, flatMap_nil, Record.bytes, value,
    Block.bytes, nil_append, append_nil]
  rfl

theorem encodeIrohProxyV2_length : (encodeIrohProxyV2 endpointId).length = 52 := by
  simp [encodeIrohProxyV2, signature, toBe, endpointId.length]

section

variable (eof : IoError) (ofFixed ofBody : IoError → IoError) (maximumBytes : Nat) (allow : Bool)

theorem readExact_free (want : Nat) : Reader.SegmentationFree (readExact eof ofFixed want) :=
  .gather want (fun error _ => ⟨ofFixed error, rfl⟩) .pure fun _ => .throw _

theorem readPreamble_free :
    Reader.SegmentationFree (readPreamble eof ofFixed ofBody maximumBytes allow) :=
  .bind (readExact_free _ _ _) fun _ =>
    .ite (.throw _) (.bind (readExact_free _ _ _) fun _ => .lift _)

theorem readExact_ofBytes (want : Nat) (bytes : Bytes) :
    readExact eof ofFixed want (.ofBytes bytes) =
      (if want ≤ bytes.length then .ok (bytes.take want) else .error (ofFixed eof),
        .ofBytes (bytes.drop want)) := by
  have run : readExact eof ofFixed want (.ofBytes bytes) =
      (match ((Source.ofBytes bytes).gather want).1 with
        | .full bytes => pure bytes
        | .eof _ => throw (ofFixed eof)
        | .failed error _ => throw (ofFixed error) : Reader IoError Bytes)
          ((Source.ofBytes bytes).gather want).2 := rfl
  rw [run, gather_ofBytes]
  dsimp only
  rw [gathered]
  by_cases enough : want ≤ bytes.length
  · rw [if_pos enough, if_pos enough]
    rfl
  · rw [if_neg enough, if_neg enough]
    rfl

variable (bytes : Bytes)

/-- The preamble in front of some bytes: the fixed part and what it declares. -/
def preambleLength : Nat := fixedBytes + declared bytes

theorem declared_take : declared (bytes.take fixedBytes) = declared bytes := by
  simp [declared, fixedBytes, getD_eq_getElem?_getD]

theorem readPreamble_ofBytes : readPreamble eof ofFixed ofBody maximumBytes allow (.ofBytes bytes) =
      if bytes.length < fixedBytes then (.error (ofFixed eof), .ofBytes (bytes.drop fixedBytes))
      else if maximumBytes < preambleLength bytes then
        (.error (invalid "PROXY v2 preamble exceeds configured limit"),
          .ofBytes (bytes.drop fixedBytes))
      else if bytes.length < preambleLength bytes then
        (.error (ofBody eof), .ofBytes (bytes.drop (preambleLength bytes)))
      else
        (parseProxyProtocolV2WithOptions (bytes.take (preambleLength bytes)) maximumBytes allow,
          .ofBytes (bytes.drop (preambleLength bytes))) := by
  have first := readExact_ofBytes eof ofFixed fixedBytes bytes
  unfold readPreamble
  by_cases short : bytes.length < fixedBytes
  · rw [if_neg (by omega)] at first
    rw [if_pos short, bind_error first]
  rw [if_pos (by omega)] at first
  rw [if_neg short, bind_ok first, declared_take, ← preambleLength]
  by_cases beyond : maximumBytes < preambleLength bytes
  · rw [if_pos beyond, if_pos beyond]
    rfl
  rw [if_neg beyond, if_neg beyond]
  have second := readExact_ofBytes eof ofBody (declared bytes) (bytes.drop fixedBytes)
  rw [drop_drop, length_drop] at second
  by_cases cut : bytes.length < preambleLength bytes
  · rw [if_neg (by unfold preambleLength at cut; omega)] at second
    rw [if_pos cut, bind_error second]
    rfl
  · rw [if_pos (by unfold preambleLength at cut; omega)] at second
    rw [if_neg cut, bind_ok second, ← take_add]
    rfl

end

variable {maximumBytes : Nat}

theorem preambleLength_of_parse {preamble : Bytes} {allow : Bool} {parsed : Parsed} (rest : Bytes)
    (parses : parseProxyProtocolV2WithOptions preamble maximumBytes allow = .ok parsed) :
    preambleLength (preamble ++ rest) = preamble.length ∧ fixedBytes ≤ preamble.length ∧
      preamble.length ≤ limit maximumBytes := by
  obtain ⟨within, family, body, fits, rfl, -⟩ := (parse_eq_ok_iff ..).mp parses
  have size : declared (signature ++ (0x21 :: family :: (toBe body.length ++ body)) ++ rest) =
      body.length := fromBe_toBe fits
  have length : (signature ++ (0x21 :: family :: (toBe body.length ++ body))).length =
      fixedBytes + body.length := by
    simp [signature, toBe, fixedBytes]
    omega
  rw [preambleLength, size, length]
  exact ⟨rfl, Nat.le_add_right .., length ▸ within⟩

theorem parse_limit (preamble : Bytes) (maximumBytes : Nat) (allow : Bool) :
    parseProxyProtocolV2WithOptions preamble (limit maximumBytes) allow =
      parseProxyProtocolV2WithOptions preamble maximumBytes allow := by
  have twice : limit (limit maximumBytes) = limit maximumBytes := by
    unfold limit defaultMaxProxyV2Bytes
    split <;> simp_all
  unfold parseProxyProtocolV2WithOptions
  rw [maximumBytesOrDefault_eq, maximumBytesOrDefault_eq, twice]

/-- A whole preamble within the limit stands in front of the bytes. -/
def Whole (maximumBytes : Nat) (bytes : Bytes) : Prop :=
  fixedBytes ≤ bytes.length ∧ preambleLength bytes ≤ bytes.length ∧
    preambleLength bytes ≤ limit maximumBytes

/-- What a run of a reader on a source has to do with the parser. -/
structure Agrees (maximumBytes : Nat) (allow : Bool) (source : Source IoError)
    (run : Except IoError Parsed × Source IoError) : Prop where
  consumes : source.Reliable → Whole maximumBytes source.bytes →
    run.1 = parseProxyProtocolV2WithOptions (source.bytes.take (preambleLength source.bytes))
        maximumBytes allow ∧
      run.2.bytes = source.bytes.drop (preambleLength source.bytes)
  accepts : ∀ preamble rest parsed, source.Reliable → source.bytes = preamble ++ rest →
    parseProxyProtocolV2WithOptions preamble maximumBytes allow = .ok parsed →
    run.1 = .ok parsed ∧ run.2.bytes = rest
  accepted : ∀ parsed, run.1 = .ok parsed → ∃ preamble, source.bytes = preamble ++ run.2.bytes ∧
      parseProxyProtocolV2WithOptions preamble maximumBytes allow = .ok parsed

section

variable (eof : IoError) (ofFixed ofBody : IoError → IoError) (maximumBytes : Nat) (allow : Bool)
  (source : Source IoError)

theorem readPreamble_whole (stable : source.Reliable) (whole : Whole maximumBytes source.bytes) :
    (readPreamble eof ofFixed ofBody (limit maximumBytes) allow source).1 =
        parseProxyProtocolV2WithOptions (source.bytes.take (preambleLength source.bytes))
          maximumBytes allow ∧
      (readPreamble eof ofFixed ofBody (limit maximumBytes) allow source).2.bytes =
        source.bytes.drop (preambleLength source.bytes) := by
  obtain ⟨long, whole, within⟩ := whole
  have plain := readPreamble_ofBytes eof ofFixed ofBody (limit maximumBytes) allow source.bytes
  rw [if_neg (Nat.not_lt.mpr long), if_neg (Nat.not_lt.mpr within), if_neg (Nat.not_lt.mpr whole),
    ((readPreamble_free eof ofFixed ofBody (limit maximumBytes) allow).reliable stable).1,
    parse_limit] at plain
  exact ⟨congrArg Prod.fst plain, congrArg (·.2.bytes) plain⟩

theorem readPreamble_accepted {parsed : Parsed}
    (ran : (readPreamble eof ofFixed ofBody (limit maximumBytes) allow source).1 = .ok parsed) :
    ∃ preamble, source.bytes =
        preamble ++ (readPreamble eof ofFixed ofBody (limit maximumBytes) allow source).2.bytes ∧
      parseProxyProtocolV2WithOptions preamble maximumBytes allow = .ok parsed := by
  rcases readPreamble_free eof ofFixed ofBody (limit maximumBytes) allow source with
    ⟨error, failed, -⟩ | ⟨plain, -⟩
  · rw [failed] at ran
    cases ran
  rw [readPreamble_ofBytes, parse_limit, ran] at plain
  split_ifs at plain with short beyond cut
  · cases plain
  · cases plain
  · cases plain
  rw [Prod.mk.injEq] at plain
  have left : source.bytes.drop (preambleLength source.bytes) =
      (readPreamble eof ofFixed ofBody (limit maximumBytes) allow source).2.bytes :=
    congrArg Source.bytes plain.2
  exact ⟨_, by rw [← left, take_append_drop], plain.1⟩

/-- Of a whole preamble within the limit all is read, and nothing else is accepted. -/
theorem readPreamble_agrees : Agrees maximumBytes allow source
      (readPreamble eof ofFixed ofBody (limit maximumBytes) allow source) := by
  refine ⟨readPreamble_whole eof ofFixed ofBody maximumBytes allow source,
    fun preamble rest parsed stable split parses => ?_,
    fun parsed => readPreamble_accepted eof ofFixed ofBody maximumBytes allow source⟩
  obtain ⟨length, long, within⟩ := preambleLength_of_parse rest parses
  have whole : Whole maximumBytes source.bytes := by
    rw [Whole, split, length, length_append]
    exact ⟨by omega, by omega, within⟩
  obtain ⟨result, left⟩ :=
    readPreamble_whole eof ofFixed ofBody maximumBytes allow source stable whole
  rw [split, length, take_left] at result
  rw [split, length, drop_left] at left
  exact ⟨result.trans parses, left⟩

end

/-- A reader that refuses its limit before it reads anything does what the parser does. -/
theorem Agrees.refusing (small : limit maximumBytes < fixedBytes)
    (allow : Bool) (source rest : Source IoError) (error : IoError) :
    Agrees maximumBytes allow source (.error error, rest) := by
  refine ⟨fun _ whole => ?_, fun preamble behind parsed _ _ parses => ?_, by rintro _ ⟨⟩⟩
  · have := whole.2.2
    unfold preambleLength at this
    omega
  · have := preambleLength_of_parse behind parses
    omega

theorem readProxyProtocolV2WithOptions_agrees (maximumBytes : Nat) (allow : Bool)
    (source : Source IoError) :
    Agrees maximumBytes allow source (readProxyProtocolV2WithOptions maximumBytes allow source) := by
  unfold readProxyProtocolV2WithOptions
  rw [maximumBytesOrDefault_eq]
  split_ifs with small
  · exact .refusing small ..
  · exact readPreamble_agrees ..

theorem readProxyUntil_agrees (deadline : Nat) (configured : fixedBytes ≤ maximumBytes)
    (allow : Bool) (bytes : Bytes) (turns : List ReadTurn) :
    Agrees maximumBytes allow ⟨bytes, turns.map (ReadTurn.before deadline)⟩
      (readProxyUntil deadline maximumBytes allow bytes turns) := by
  have agrees := readPreamble_agrees ⟨.unexpectedEof, "truncated PROXY v2 preamble"⟩ id id
    maximumBytes allow ⟨bytes, turns.map (ReadTurn.before deadline)⟩
  rw [limit, if_neg (by unfold fixedBytes at configured; omega)] at agrees
  unfold readProxyUntil
  rw [if_neg (Nat.not_lt.mpr configured)]
  exact agrees

theorem parse_encodeIrohProxyV2 (enough : 52 ≤ limit maximumBytes) :
    parseProxyProtocolV2WithOptions (encodeIrohProxyV2 endpointId) maximumBytes true =
      .ok ⟨none, some endpointId.bytes⟩ := by
  have length := encodeIrohProxyV2_length endpointId
  rw [encodeIrohProxyV2_eq] at length ⊢
  exact (parse_header_iff ..).mpr ⟨by omega, .endpoint rfl endpointId.length rfl⟩

/-- The endpoint is known and the bytes of the application are left. -/
def Identifies (application : Bytes) (run : Except IoError Parsed × Source IoError) : Prop :=
  run.1 = .ok ⟨none, some endpointId.bytes⟩ ∧ run.2.bytes = application

theorem Agrees.identifies {endpointId : EndpointId} {application : Bytes}
    {source : Source IoError} {run : Except IoError Parsed × Source IoError}
    (agrees : Agrees maximumBytes true source run) (enough : 52 ≤ limit maximumBytes)
    (stable : source.Reliable) (sent : source.bytes = encodeIrohProxyV2 endpointId ++ application) :
    Identifies endpointId application run :=
  agrees.accepts _ _ _ stable sent (parse_encodeIrohProxyV2 endpointId enough)

/-- A reader of either kind does to a connection what the parser does to the bytes of the
preamble, and knows the bridge's endpoint once the limit lets the preamble through. -/
theorem readers_agree (allow : Bool) : (∀ maximumBytes source, Agrees maximumBytes allow source
      (readProxyProtocolV2WithOptions maximumBytes allow source)) ∧
    (∀ deadline maximumBytes bytes turns, fixedBytes ≤ maximumBytes →
      Agrees maximumBytes allow ⟨bytes, turns.map (ReadTurn.before deadline)⟩
        (readProxyUntil deadline maximumBytes allow bytes turns)) ∧
    ∀ maximumBytes endpointId application source, 52 ≤ limit maximumBytes → source.Reliable →
      source.bytes = encodeIrohProxyV2 endpointId ++ application →
      Identifies endpointId application (readProxyProtocolV2WithOptions maximumBytes true source) ∧
      ∀ deadline turns, fixedBytes ≤ maximumBytes →
        source.events = turns.map (ReadTurn.before deadline) →
        Identifies endpointId application
          (readProxyUntil deadline maximumBytes true source.bytes turns) := by
  refine ⟨fun maximumBytes => readProxyProtocolV2WithOptions_agrees maximumBytes allow,
    fun deadline maximumBytes bytes turns configured =>
      readProxyUntil_agrees deadline configured allow bytes turns,
    fun maximumBytes endpointId application source enough stable sent =>
      ⟨(readProxyProtocolV2WithOptions_agrees ..).identifies enough stable sent,
        fun deadline turns configured events => ?_⟩⟩
  have agrees := readProxyUntil_agrees deadline configured true source.bytes turns
  rw [← events] at agrees
  exact agrees.identifies enough stable sent

def zeroEndpoint : EndpointId := ⟨List.replicate 32 0, by decide⟩

/-- The bridge's preamble and one byte behind it, split after the third byte. -/
def splitConnection : Source IoError :=
  ⟨encodeIrohProxyV2 zeroEndpoint ++ [7], [.chunk 2, .interrupted]⟩

theorem readers_agree_split :
    Identifies zeroEndpoint [7] (readProxyProtocolV2WithOptions 52 true splitConnection) ∧
    Identifies zeroEndpoint [7]
      (readProxyUntil 9 52 true splitConnection.bytes [⟨3, .chunk 2⟩, ⟨5, .interrupted⟩]) := by
  obtain ⟨blocking, bounded⟩ := (readers_agree true).2.2 52 zeroEndpoint [7] splitConnection
    (by decide) (by simp [Source.Reliable, splitConnection]) rfl
  exact ⟨blocking, bounded 9 _ (by decide) rfl⟩

/-- A limit of one byte less refuses the bridge and leaves the rest of the preamble. -/
theorem limit_refuses_bridge : ¬ Identifies zeroEndpoint []
      (readProxyProtocolV2WithOptions 51 true (.ofBytes (encodeIrohProxyV2 zeroEndpoint))) ∧
    (readProxyProtocolV2WithOptions 51 true (.ofBytes (encodeIrohProxyV2 zeroEndpoint))).2.bytes =
      (encodeIrohProxyV2 zeroEndpoint).drop 16 := by
  have run : readProxyProtocolV2WithOptions 51 true (.ofBytes (encodeIrohProxyV2 zeroEndpoint)) =
      (.error (invalid "PROXY v2 preamble exceeds configured limit"),
        .ofBytes ((encodeIrohProxyV2 zeroEndpoint).drop 16)) :=
    (readPreamble_ofBytes _ _ _ 51 true _).trans
      ((if_neg (by decide)).trans (if_pos (by decide)))
  rw [run]
  exact ⟨fun known => absurd known.1 (by rintro ⟨⟩), rfl⟩

end VgiRpc.Proxy
