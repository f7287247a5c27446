import VgiRpc.External.Location

/-!
# The two resolvers

The server's resolver takes the first batch of a payload for its data.  The client's reads the
payload to the end, hands its logs on, and refuses an exception, a pointer and a second data
batch.  They agree on the payloads that begin with their data batch and have only logs behind
it, and on those from which not even a first batch can be read.
-/

namespace VgiRpc.External

open Arrow Library.OrderedMap Client.PipeClient Metadata Wire
open Client (Body Item PipeClient)
open Library.ByteStream

theorem get?_resolvedMetadata (pointer inner : Metadata) (url fetchMs key : String) :
    (PipeClient.resolvedMetadata pointer inner url fetchMs).get? key =
      if key = locationSourceKey then some url
      else if key = locationFetchMsKey then some fetchMs
      else if key ∈ PipeClient.locationKeys then none
      else (inner.get? key).or (pointer.get? key) := by
  have merged : ∀ map : Metadata, ((locationKeys.foldl remove inner).entries.foldl
      (fun entries entry => entries.insert entry.1 entry.2) map).get? key =
        ((locationKeys.foldl remove inner).get? key).or (map.get? key) :=
    fun map => get?_foldl_insert _ map key (distinct _)
  rw [resolvedMetadata, get?_insert, get?_insert, merged, get?_foldl_remove, get?_foldl_remove]
  by_cases location : key ∈ locationKeys
  · simp [location]
  · simp [location]

section

variable {A : ArrowIpc} {bytes : Bytes}

theorem deserialize_of_unreadable {error : RpcError}
    (failed : readPayload A false bytes = .error error) :
    deserializeSingleBatchWithMetadata A bytes = .error error := by
  unfold readPayload at failed
  unfold deserializeSingleBatchWithMetadata
  split at failed
  · next opened =>
    cases failed
    rfl
  · dsimp only at failed
    split at failed <;> cases failed

/-- The server's batch is the first frame of the client. -/
theorem deserialize_of_body {body : Body A.Batch} (read : readPayload A false bytes = .ok body) :
    (body.frames = [] → ∃ error, deserializeSingleBatchWithMetadata A bytes = .error error) ∧
      ∀ first rest, body.frames = first :: rest →
        deserializeSingleBatchWithMetadata A bytes = .ok first := by
  unfold readPayload at read
  split at read
  · cases read
  rename_i reader remaining opened
  have frames : body.frames = reader.readAll.1 := by
    rw [if_neg Bool.false_ne_true] at read
    dsimp only at read
    split at read <;> cases read <;> rfl
  unfold deserializeSingleBatchWithMetadata
  rw [opened, frames]
  rcases step : reader.readNext with ⟨result, next⟩
  match result, step with
  | .error error, step =>
    have all : reader.readAll.1 = [] := by rw [StreamReader.readAll_step step]
    simp only [all, step]
    exact ⟨fun _ => ⟨error, rfl⟩, by rintro first rest ⟨⟩⟩
  | .ok none, step =>
    have all : reader.readAll.1 = [] := by rw [StreamReader.readAll_step step]
    simp only [all, step]
    exact ⟨fun _ => ⟨_, rfl⟩, by rintro first rest ⟨⟩⟩
  | .ok (some item), step =>
    have all : reader.readAll.1 = item :: next.readAll.1 := by rw [StreamReader.readAll_step step]
    simp only [all, step]
    refine ⟨by rintro ⟨⟩, ?_⟩
    rintro first rest ⟨⟩
    rfl

end

section

variable {A : ArrowIpc} (client : PipeClient A)

def IsLog (frame : Item A.Batch) : Prop := ∃ message, client.kind frame = .log message

/-- Behind a data batch there may only be logs. -/
theorem unpack_some_iff (item : Item A.Batch) (frames : List (Item A.Batch))
    (result : Option (Item A.Batch)) :
    (client.unpack (some item) frames).2 = .ok result ↔
      result = some item ∧ ∀ frame ∈ frames, IsLog client frame := by
  induction frames with
  | nil =>
    rw [unpack]
    constructor
    · rintro ⟨⟩
      exact ⟨rfl, by rintro frame ⟨⟩⟩
    · rintro ⟨rfl, -⟩
      rfl
  | cons frame rest ih =>
    rw [unpack, List.forall_mem_cons]
    cases kind : client.kind frame with
    | log message =>
      have log : IsLog client frame := ⟨message, kind⟩
      exact ih.trans (by simp [log])
    | exception error | pointer | data =>
      have other : ¬ IsLog client frame := by rintro ⟨message, same⟩; rw [kind] at same; cases same
      simp [other]

theorem unpack_none_data {frames : List (Item A.Batch)} {item : Item A.Batch}
    (unpacked : (client.unpack none frames).2 = .ok (some item)) : client.kind item = .data := by
  induction frames with
  | nil => cases unpacked
  | cons frame rest ih =>
    rw [unpack] at unpacked
    cases kind : client.kind frame with
    | log message =>
      rw [kind] at unpacked
      exact ih unpacked
    | exception error | pointer =>
      rw [kind] at unpacked
      cases unpacked
    | data =>
      rw [kind] at unpacked
      dsimp only at unpacked
      rw [if_neg (by simp), unpack_some_iff] at unpacked
      cases unpacked.1
      exact kind

/-- A log and a data batch with as many rows differ in their metadata. -/
theorem logLevel_of_kinds {first item : Item A.Batch} {message : LogMessage}
    (log : client.kind first = .log message) (data : client.kind item = .data)
    (same : first.1 = item.1) : mdGet first.2 logLevelKey ≠ mdGet item.2 logLevelKey := by
  unfold kind classify at log data
  rw [← same] at data
  split_ifs at log with _ empty
  split_ifs at data
  split at log
  · cases log
  rename_i level written
  rw [written]
  split at data
  · next unwritten =>
    rw [unwritten]
    rintro ⟨⟩
  · dsimp only at data
    split at data <;> cases data

end

section

variable {A : ArrowIpc} (tools : Toolkit) (config : ExternalLocationConfig) (client : PipeClient A)

/-- Both return the same batch with the same metadata, or both refuse. -/
def Agree (server client : Except RpcError (Item A.Batch)) : Prop :=
  (∃ item, server = .ok item ∧ client = .ok item) ∨
    ∃ one two, server = .error one ∧ client = .error two

/-- A payload that begins with its data batch and has only logs behind it, or from which no
batch can be read. -/
def LeadsWithData (bytes : Bytes) : Prop :=
  match readPayload A false bytes with
  | .error _ => True
  | .ok body =>
    ∀ first rest, body.frames = first :: rest →
      client.kind first = .data ∧ (∀ frame ∈ rest, IsLog client frame) ∧ body.failure = none

def clientAnswer (fetchMs url : String) (pointer : Metadata) (bytes : Bytes) :
    Except RpcError (Item A.Batch) :=
  match readPayload A false bytes with
  | .error error => .error error
  | .ok body => PipeClient.unpacked pointer url body fetchMs (client.unpack none body.frames).2

def serverAnswer (A : ArrowIpc) (fetchMs url : String) (pointer : Metadata) (bytes : Bytes) :
    Except RpcError (Item A.Batch) :=
  (deserializeSingleBatchWithMetadata A bytes).map fun item =>
    (item.1, PipeClient.resolvedMetadata pointer item.2 url fetchMs)

variable {tools config client} {url : String} {pointer : Metadata}

/-- Either the payload is refused before anybody reads it, or both read the same bytes. -/
theorem answers_of_pointer (client : PipeClient A) (fetchMs : String) (batch : A.Batch)
    (located : mdGet pointer locationKey = some url) :
    ((∃ error, fetchChecked tools config pointer url = .error error) ∧
      ∃ one two, resolveExternalLocation tools config fetchMs batch pointer = .error one ∧
        (resolvePointer tools config client false fetchMs pointer).2 = .error two) ∨
      ∃ bytes, fetchDecoded tools config url = .ok bytes ∧
        fetchChecked tools config pointer url = .ok bytes ∧
        resolveExternalLocation tools config fetchMs batch pointer =
          serverAnswer A fetchMs url pointer bytes ∧
        (resolvePointer tools config client false fetchMs pointer).2 =
          clientAnswer client fetchMs url pointer bytes := by
  have fetches : fetchExternalIpcBytes tools config pointer =
      (fetchChecked tools config pointer url).map some := by
    rw [fetchExternalIpcBytes, located]
  cases checked : fetchChecked tools config pointer url with
  | error error =>
    rw [checked] at fetches
    refine .inl ⟨⟨error, rfl⟩, error, error, ?_, ?_⟩
    · simp only [resolveExternalLocation, located, checked]
    · simp only [resolvePointer, PipeClient.resolvePointer, located, fetchBody, fetches]
      rfl
  | ok bytes =>
    rw [checked] at fetches
    refine .inr ⟨bytes, ?_, rfl, ?_, ?_⟩
    · unfold fetchChecked at checked
      split at checked
      · cases checked
      rename_i decoded
      split at checked
      · cases checked
      · cases checked
        exact decoded
    · simp only [resolveExternalLocation, located, checked, serverAnswer]
      cases deserializeSingleBatchWithMetadata A bytes <;> rfl
    · simp only [resolvePointer, PipeClient.resolvePointer, located, fetchBody, fetches, clientAnswer]
      simp only [Except.map]
      cases readPayload A false bytes <;> rfl

theorem unpack_leading {first : Item A.Batch} {rest : List (Item A.Batch)}
    (data : client.kind first = .data) :
    client.unpack none (first :: rest) = client.unpack (some first) rest := by
  rw [PipeClient.unpack, data]
  exact if_neg (by simp)

variable {bytes : Bytes}

theorem agree_of_leads (leads : LeadsWithData client bytes) (fetchMs url : String)
    (pointer : Metadata) :
    Agree (serverAnswer A fetchMs url pointer bytes) (clientAnswer client fetchMs url pointer bytes) := by
  unfold LeadsWithData at leads
  unfold serverAnswer clientAnswer
  cases read : readPayload A false bytes with
  | error error =>
    rw [deserialize_of_unreadable read]
    exact .inr ⟨_, _, rfl, rfl⟩
  | ok body =>
    rw [read] at leads
    obtain ⟨refuses, takes⟩ := deserialize_of_body read
    obtain ⟨frames, failure⟩ := body
    cases frames with
    | nil =>
      obtain ⟨error, refused⟩ := refuses rfl
      rw [refused]
      cases failure with
      | none | some later => exact .inr ⟨_, _, rfl, rfl⟩
    | cons first rest =>
      obtain ⟨data, logs, ended⟩ := leads first rest rfl
      have unpacked := (unpack_some_iff client first rest (some first)).mpr ⟨rfl, logs⟩
      simp only at ended
      subst ended
      rw [takes first rest rfl]
      simp only [unpack_leading data, unpacked, unpacked]
      exact .inl ⟨_, rfl, rfl⟩

variable {fetchMs : String}

theorem clientAnswer_ok {item : Item A.Batch}
    (answered : clientAnswer client fetchMs url pointer bytes = .ok item) :
    ∃ body inner, readPayload A false bytes = .ok body ∧ body.failure = none ∧
      (client.unpack none body.frames).2 = .ok (some inner) ∧
      item = (inner.1, PipeClient.resolvedMetadata pointer inner.2 url fetchMs) := by
  unfold clientAnswer at answered
  split at answered
  · cases answered
  rename_i body read
  cases unpacked : (client.unpack none body.frames).2 with
  | error error =>
    rw [unpacked] at answered
    cases answered
  | ok data =>
    rw [unpacked] at answered
    simp only [PipeClient.unpacked] at answered
    split at answered
    · cases answered
    · cases answered
    · next batch inner whole =>
      cases answered
      exact ⟨body, (batch, inner), read, whole, unpacked, rfl⟩

theorem leads_of_agree (plain : pointer.get? logLevelKey = none)
    (agree : Agree (serverAnswer A fetchMs url pointer bytes)
      (clientAnswer client fetchMs url pointer bytes)) : LeadsWithData client bytes := by
  unfold LeadsWithData
  cases read : readPayload A false bytes with
  | error error => trivial
  | ok body =>
    intro first rest frames
    have taken := (deserialize_of_body read).2 first rest frames
    have served : serverAnswer A fetchMs url pointer bytes =
        .ok (first.1, resolvedMetadata pointer first.2 url fetchMs) := by
      rw [serverAnswer, taken]
      rfl
    rw [served] at agree
    rcases agree with ⟨item, same, answered⟩ | ⟨one, two, refused, -⟩
    · obtain ⟨body', inner, read', whole, unpacked, equal⟩ := clientAnswer_ok answered
      cases read.symm.trans read'
      rw [frames] at unpacked
      rw [Except.ok.injEq, equal, Prod.mk.injEq] at same
      cases kind : client.kind first with
      | data =>
        rw [unpack_leading kind, unpack_some_iff] at unpacked
        exact ⟨rfl, unpacked.2, whole⟩
      | log message =>
        -- The two batches differ in the level, which the pointer does not have.
        have levels := congrArg (fun metadata => get? metadata logLevelKey) same.2
        have apart : ∀ given : Metadata,
            (resolvedMetadata pointer given url fetchMs).get? logLevelKey =
              given.get? logLevelKey := by
          intro given
          rw [get?_resolvedMetadata, if_neg (by decide), if_neg (by decide),
            if_neg (by decide), plain, Option.or_none]
        simp only [apart] at levels
        exact absurd levels
          (logLevel_of_kinds client kind (unpack_none_data client unpacked) same.1)
      | exception error | pointer =>
        rw [unpack, kind] at unpacked
        cases unpacked
    · cases refused

/-- The resolvers agree on every pointer to a location exactly when what is stored there
begins with its data batch and has only logs behind it, or cannot be read at all. -/
theorem resolvers_agree_iff (tools : Toolkit) (config : ExternalLocationConfig)
    (client : PipeClient A) (fetchMs url : String) (batch : A.Batch) :
    (∀ pointer : Metadata, mdGet pointer locationKey = some url →
      Agree (resolveExternalLocation tools config fetchMs batch pointer)
        (resolvePointer tools config client false fetchMs pointer).2) ↔
      ∀ bytes, fetchDecoded tools config url = .ok bytes → LeadsWithData client bytes := by
  constructor
  · intro agree bytes decoded
    have located : mdGet (ofEntries [(locationKey, url)]) locationKey = some url := by
      simp [mdGet, ofEntries]
    have unchecked : fetchChecked tools config (ofEntries [(locationKey, url)]) url =
        .ok bytes := by
      have plain : mdGet (ofEntries [(locationKey, url)]) locationSha256Key = none := by
        simp [mdGet, ofEntries, get?_insert, locationKey, locationSha256Key]
      simp only [fetchChecked, decoded, checkDigest, plain]
    have same := agree _ located
    rcases answers_of_pointer client fetchMs batch located with
      ⟨⟨error, failed⟩, -⟩ | ⟨found, -, checked, served, answered⟩
    · rw [unchecked] at failed
      cases failed
    · rw [unchecked] at checked
      cases checked
      rw [served, answered] at same
      refine leads_of_agree ?_ same
      simp [ofEntries, get?_insert, locationKey, logLevelKey]
  · intro leads pointer located
    rcases answers_of_pointer client fetchMs batch located with
      ⟨-, one, two, refused, also⟩ | ⟨bytes, decoded, -, served, answered⟩
    · exact .inr ⟨one, two, refused, also⟩
    · rw [served, answered]
      exact agree_of_leads (leads bytes decoded) fetchMs url pointer

end

namespace Sample

open Arrow.Sample (library)

def rows : StreamValue library where
  schema := Arrow.Sample.Kind.empty.schema
  items := [(.row, none), (.row, none)]
  conforms := by
    intro item member
    simp only [List.mem_cons, List.not_mem_nil, or_false, or_self] at member
    cases member
    rfl

theorem rows_sends : StreamSends rows ⟨[1], []⟩ [⟨[4], []⟩, ⟨[4], []⟩] := by
  have aligned : Aligned ([] ++ [⟨[4], []⟩]) := aligned_of_empty (by simp)
  have row : Sends library .row none () ([] ++ [⟨[4], []⟩]) () := .encoded rfl rfl rfl aligned
  exact ⟨(), rfl, .cons row (.cons row (SendsAll.nil (A := library) ()))⟩

theorem rows_caps : WithinCaps rows := by
  intro opening messages sends
  obtain ⟨rfl, rfl⟩ := sends.unique rows_sends
  refine ⟨by decide, ?_⟩
  intro encoded member
  simp only [List.mem_cons, List.not_mem_nil, or_false, or_self] at member
  rw [member]
  decide

def payload : Bytes := streamBytes ⟨[1], []⟩ [⟨[4], []⟩, ⟨[4], []⟩]

def tools : Toolkit where
  sha256 bytes := bytes
  zstdEncode _ bytes := .ok bytes
  zstdDecode _ bytes := .ok ([bytes], none)
  redactUrl url := url

/-- A store with one payload, which it has at every URL. -/
def holding (bytes : Bytes) : ExternalLocationConfig where
  thresholdBytes := 0
  compression := .none
  upload _ _ := .ok "https://store/1"
  fetchWithPolicy _ _ _ _ _ := .ok ⟨bytes, .none⟩
  urlValidator _ := .ok ()
  maxDecompressedBytes := 1024
  maxEncodedBytes := 1024
  maxRedirects := 0

def client : PipeClient library where
  json _ := none
  urlHost _ := none
  external := none
  plane := ⟨fun _ => .error Arrow.Sample.unreadable, (by rintro _ _ ⟨⟩), fun _ => 0,
    fun _ => .ok none, 0⟩
  segment _ := none

def row : library.Batch := Arrow.Sample.Batch.row

def pointer : Metadata := .ofEntries [(locationKey, "https://store/1")]

theorem payload_short : ¬ 1024 < payload.length := by decide +kernel

theorem payload_fetched :
    fetchChecked tools (holding payload) pointer "https://store/1" = .ok payload := by
  have decoded : fetchDecoded tools (holding payload) "https://store/1" = .ok payload := by
    simp [fetchDecoded, holding, decompress, payload_short]
  have plain : checkDigest tools pointer payload = .ok () := rfl
  rw [fetchChecked, decoded]
  simp only [plain]

theorem payload_read :
    readPayload library false payload = .ok ⟨[(.row, .empty), (.row, .empty)], none⟩ :=
  readPayload_streamBytes Arrow.Sample.library_lawful rows_sends rows_caps

end Sample

open Sample

/-- A payload of two data batches: the server takes the first, and the client refuses. -/
theorem server_takes_what_client_refuses :
    resolveExternalLocation tools (holding payload) "0.00" row pointer = .ok (row,
        PipeClient.resolvedMetadata pointer .empty "https://store/1" "0.00") ∧
      (resolvePointer tools (holding payload) client false "0.00"
        pointer).2 = .error PipeClient.severalBatches := by
  have checked := payload_fetched
  have located : mdGet pointer locationKey = some "https://store/1" := rfl
  rcases answers_of_pointer client "0.00" row located with
    ⟨⟨error, failed⟩, -⟩ | ⟨bytes, -, found, served, answered⟩
  · rw [checked] at failed
    cases failed
  · rw [checked] at found
    cases found
    rw [served, answered, serverAnswer, clientAnswer, payload_read,
      (deserialize_of_body payload_read).2 _ _ rfl]
    exact ⟨rfl, rfl⟩

end VgiRpc.External
