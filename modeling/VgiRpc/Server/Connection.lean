import Mathlib.Data.List.Induction
import VgiRpc.Server.Sample
import VgiRpc.Shm.RoundTrip

/-!
# The segment of a connection

A client names its segment in the metadata of a request, and later requests point into it without
a name.  The server attaches to a name that appears or changes; when that fails, it goes on with the
segment that it has.
-/

namespace VgiRpc.Server

open Arrow Metadata Shm

/-- A request as the server meets it: its batch, what the system attaches to at that time, and what
the peer has made of an attached segment. -/
structure ShmRequest (A : ArrowIpc) where
  batch : A.Batch
  metadata : Metadata
  attach : String → Nat → Option Segment
  contents : Attached → Segment

structure ConnectionShm where
  name : Option String
  segment : Option Attached
  named : name = segment.map Attached.name

section

variable {A : ArrowIpc} (request : ShmRequest A)

def ShmRequest.advertises : Option String := mdGet request.metadata shmSegmentNameKey

def maybeAttachShm : Option Segment := do
  let name ← mdGet request.metadata shmSegmentNameKey
  let size ← (mdGet request.metadata shmSegmentSizeKey).bind parseU64
  request.attach name size

namespace ConnectionShm

def refresh (cache : ConnectionShm) : ConnectionShm :=
  match request.advertises with
  | none => cache
  | some name =>
    if cache.name = some name then cache
    else
      match maybeAttachShm request with
      | none => cache
      | some segment => ⟨some name, some ⟨name, segment⟩, rfl⟩

def run (history : List (ShmRequest A)) : ConnectionShm :=
  history.foldl (fun cache request => cache.refresh request) ⟨none, none, rfl⟩

variable (cache : ConnectionShm)

/-- What `read_request` makes of the batch with the refreshed cache. -/
def resolve (plane : Plane A) : Except Failure (A.Batch × Metadata × Option Nat) :=
  resolveShmBatch plane request.batch request.metadata
    (cache.segment.map fun attached => ⟨attached.name, request.contents attached⟩)

/-- The segment for the inputs and outputs of the call, if its request used one. -/
def dataPlane : Option Attached :=
  if (mdGet request.metadata shmOffsetKey).isSome || request.advertises.isSome then cache.segment
  else none

end ConnectionShm

open ConnectionShm

/-- The name that was advertised last. -/
def advertised (history : List (ShmRequest A)) : Option String :=
  history.foldl (fun last request => request.advertises.or last) none

def ShmRequest.Attaches : Prop := request.advertises.isSome → (maybeAttachShm request).isSome

variable {request}

theorem refresh_name {cache : ConnectionShm} {last : Option String} (same : cache.name = last)
    (attaches : request.Attaches) : (cache.refresh request).name = request.advertises.or last := by
  unfold refresh
  cases named : request.advertises with
  | none => exact same
  | some name =>
    obtain ⟨segment, found⟩ := Option.isSome_iff_exists.mp (attaches (by rw [named]; rfl))
    dsimp only
    split
    · assumption
    · rw [found]
      rfl

variable {history : List (ShmRequest A)}

theorem run_name (attaches : ∀ request ∈ history, request.Attaches) :
    (run history).name = advertised history := by
  induction history using List.reverseRecOn with
  | nil => rfl
  | append_singleton earlier request ih =>
    rw [run, advertised, List.foldl_concat, List.foldl_concat]
    exact refresh_name (ih fun other member => attaches other (List.mem_append_left _ member))
      (attaches request (by simp))

/-- Where every segment that is advertised can be attached, a pointer is resolved in the one that
was advertised last, and so are the inputs of the call; its outputs are stored there. -/
theorem pointer_follows_advertised (plane : Plane A)
    (attaches : ∀ other ∈ history ++ [request], other.Attaches) :
    (∀ batch metadata slot, isShmPointerBatch request.batch request.metadata = true →
      (run (history ++ [request])).resolve request plane = .ok (batch, metadata, slot) →
        (advertised (history ++ [request]) = none ∧ batch = request.batch) ∨
          ∃ name, advertised (history ++ [request]) = some name ∧
            mdGet metadata shmSourceKey = some name) ∧
      ∀ attached, (run (history ++ [request])).dataPlane request = some attached →
        advertised (history ++ [request]) = some attached.name := by
  rw [← run_name attaches, named]
  generalize run (history ++ [request]) = cache
  constructor
  · intro batch metadata slot pointer resolved
    unfold resolve at resolved
    cases segment : cache.segment with
    | none =>
      rw [segment] at resolved
      cases resolved
      exact .inl ⟨rfl, rfl⟩
    | some attached =>
      rw [segment, Option.map_some, resolveShmBatch] at resolved
      simp only [pointer, if_true, bind, Except.bind] at resolved
      split at resolved
      · cases resolved
      split at resolved
      · cases resolved
      split at resolved
      · cases resolved
      cases resolved
      exact .inr ⟨attached.name, rfl, Library.OrderedMap.get?_insert_self ..⟩
  · intro attached opened
    unfold dataPlane at opened
    split_ifs at opened
    rw [opened]
    rfl

end

namespace Sample

def coded : Schema := ⟨[.mk "tag" (.dictionary .int32 .utf8) true []], []⟩

/-- A library reader that finds a row in whatever it is given. -/
def finding : Plane tables := { engine.toPlane with readFirst := fun _ => .ok (some (coded, 1)) }

/-- A pointer that names its segment, of which only the first exists. -/
def pointing (name : String) : ShmRequest tables where
  batch := (coded, 0)
  metadata := .ofEntries [(shmSegmentNameKey, name), (shmSegmentSizeKey, "131072"),
    (shmOffsetKey, "65536"), (shmLengthKey, "8")]
  attach name _ := if name = "a" then some Shm.Sample.blank else none
  contents := Attached.segment

theorem pointing_resolves (name : String) (cache : ConnectionShm)
    (cached : cache.segment = some ⟨"a", Shm.Sample.blank⟩) :
    cache.resolve (pointing name) finding =
      .ok ((coded, 1), resolvedMetadata (pointing name).metadata "a", some 65536) := by
  have size : Shm.Sample.blank.size = 131072 := List.length_replicate ..
  unfold ConnectionShm.resolve
  rw [cached, Option.map_some, resolveShmBatch]
  simp only [bind, Except.bind, pointing, Segment.readBatch, size]
  rfl

end Sample

open ConnectionShm Sample

theorem named_segment_followed : ∃ metadata,
    (run [pointing "a"]).resolve (pointing "a") finding = .ok ((coded, 1), metadata, some 65536) ∧
      mdGet metadata shmSourceKey = some "a" := by
  have resolved := pointing_resolves "a" (run [pointing "a"]) rfl
  refine ⟨_, resolved, ?_⟩
  have attaches : ∀ other ∈ [] ++ [pointing "a"], other.Attaches :=
    List.forall_mem_singleton.mpr fun _ => rfl
  rcases (pointer_follows_advertised finding attaches).1 _ _ _ rfl resolved with
    ⟨unnamed, -⟩ | ⟨name, named, source⟩
  · cases unnamed
  · cases named
    exact source

/-- The second segment could not be attached, and the pointer into it is read in the first. -/
theorem stale_segment_resolves : advertised [pointing "a", pointing "b"] = some "b" ∧ ∃ metadata,
      (run [pointing "a", pointing "b"]).resolve (pointing "b") finding =
        .ok ((coded, 1), metadata, some 65536) ∧ mdGet metadata shmSourceKey = some "a" :=
  ⟨rfl, _, pointing_resolves "b" _ rfl, rfl⟩

end VgiRpc.Server
