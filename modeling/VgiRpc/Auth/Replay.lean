import Mathlib.Data.Finset.Card
import VgiRpc.Auth.NonceCache

/-!
# Replayed proofs

A run of the gate is the list of requests it is shown, each with the reading of the clock
at that time.  The cache holds the nonces of the last requests in the order they came; a
nonce is forgotten one window after it was accepted, while the proof is good until one
window after the time it names.
-/

namespace VgiRpc.Auth

open Library List
open Library.ByteStream (Bytes)

section

variable (hmac : Bytes → Bytes → Bytes) (decodeMac : String → Option Bytes)

structure Presentation where
  request : AuthRequest
  now : Int

variable (config : ProofConfig)

def gateStart : Option NonceCache :=
  if config.enableReplayCache then some (.free .empty) else none

variable (presented : List Presentation)

def cacheAfter : Option NonceCache :=
  presented.foldl
    (fun cache next => (verifyRequest hmac decodeMac config next.request next.now cache).2)
    (gateStart config)

/-- The proof of a request is accepted after others have been presented. -/
def Accepted (before : List Presentation) (next : Presentation) : Prop :=
  (verifyRequest hmac decodeMac config next.request next.now
    (cacheAfter hmac decodeMac config before)).1.isAccepted = true

/-- The time at which a nonce of an authentic proof arrives, and the nonce. -/
def arrival (next : Presentation) : Option (Int × String) :=
  match next.request.header proofHeader with
  | none => none
  | some raw =>
    if raw = "" then none
    else if raw.toList.contains ',' then none
    else
      match parseProof raw with
      | none => none
      | some fields =>
        match checkProof hmac decodeMac config fields next.now with
        | .error _ => none
        | .ok _ => some (next.now, String.ofList fields.nonce)

def windowNonces (now : Int) : Finset String :=
  (((presented.filterMap (arrival hmac decodeMac config)).filter fun entry =>
    now - config.skewSeconds < entry.1).map Prod.snd).toFinset

/-- A clock that does not go back, whose earlier readings are a window short of the end of
time, and no more nonces within a window than there is room for. -/
inductive Orderly (config : ProofConfig) : List Presentation → Prop where
  | start : Orderly config []
  | next {presented : List Presentation} {next : Presentation} :
      Orderly config presented →
      (∀ earlier ∈ presented, earlier.now ≤ next.now ∧ earlier.now + config.skewSeconds < 2 ^ 63) →
      0 ≤ next.now → next.now < 2 ^ 63 →
      (windowNonces hmac decodeMac config (presented ++ [next]) next.now).card ≤
        config.replayCapacity →
      Orderly config (presented ++ [next])

def proofTime (request : AuthRequest) : Option Int :=
  ((request.header proofHeader).bind parseProof).bind fun fields => parseI64 fields.ts

end

section

variable {hmac : Bytes → Bytes → Bytes} {decodeMac : String → Option Bytes} {config : ProofConfig}
  {next : Presentation} {time : Int} {nonce : String}

/-- What arrives is the nonce of the proof in the header, when the proof passes its checks. -/
theorem arrival_eq_some_iff : arrival hmac decodeMac config next = some (time, nonce) ↔
      ∃ raw fields label, next.request.header proofHeader = some raw ∧ raw ≠ "" ∧
        ¬ raw.toList.contains ',' = true ∧ parseProof raw = some fields ∧
        checkProof hmac decodeMac config fields next.now = .ok label ∧
        time = next.now ∧ nonce = String.ofList fields.nonce := by
  unfold arrival
  grind

/-- A request without an authentic proof is turned away without a look at the cache. -/
theorem verifyRequest_of_no_arrival (absent : arrival hmac decodeMac config next = none) :
    ∃ reason, ∀ cache, verifyRequest hmac decodeMac config next.request next.now cache =
      (.rejected reason, cache) := by
  unfold arrival at absent
  unfold verifyRequest verifyProof
  repeat' split at absent
  all_goals
    first
      | (cases absent; done)
      | try simp only [*, if_true, if_false]
        exact ⟨_, fun _ => rfl⟩

/-- An authentic proof is a matter of its nonce. -/
theorem verifyRequest_of_arrival
    (arrived : arrival hmac decodeMac config next = some (time, nonce)) :
    time = next.now ∧ ∃ claims, ∀ cache,
      verifyRequest hmac decodeMac config next.request next.now (some cache) =
        ((remember config nonce next.now claims cache).1,
          some (remember config nonce next.now claims cache).2) := by
  obtain ⟨raw, fields, label, header, blank, listed, parsed, passed, rfl, rfl⟩ :=
    arrival_eq_some_iff.mp arrived
  refine ⟨rfl, verifiedClaims config fields label, fun cache => ?_⟩
  simp only [verifyRequest, verifyProof, header, if_neg blank, if_neg listed, parsed, passed]

/-- After these requests the cache holds these nonces, in the order of their times. -/
structure Remembers (hmac : Bytes → Bytes → Bytes) (decodeMac : String → Option Bytes)
    (config : ProofConfig) (presented : List Presentation) (entries : List (Int × String)) :
    Prop where
  tracks : ∃ inner, cacheAfter hmac decodeMac config presented = some (.free inner) ∧
    Tracks config.skewSeconds entries inner
  sorted : entries.Pairwise fun first second => first.1 ≤ second.1
  arrived : ∀ entry ∈ entries, entry ∈ presented.filterMap (arrival hmac decodeMac config)

def unexpired (config : ProofConfig) (entries : List (Int × String)) (now : Int) :
    List (Int × String) :=
  entries.dropWhile fun entry => decide (entry.1 + config.skewSeconds ≤ now)

theorem cacheAfter_append (presented : List Presentation) (next : Presentation) :
    cacheAfter hmac decodeMac config (presented ++ [next]) =
      (verifyRequest hmac decodeMac config next.request next.now
        (cacheAfter hmac decodeMac config presented)).2 := by
  unfold cacheAfter
  rw [foldl_append]
  rfl

variable {presented : List Presentation} {entries : List (Int × String)} {nonce : String}

section

variable (remembers : Remembers hmac decodeMac config presented entries)
include remembers

/-- There is room for a nonce that is not among those of the last window. -/
theorem Remembers.room (positive : 0 < config.skewSeconds) (bounded : (windowNonces hmac decodeMac
    config (presented ++ [next]) next.now).card ≤ config.replayCapacity) (arrived : arrival hmac
    decodeMac config next = some (next.now, nonce)) (fresh : nonce ∉ (unexpired config entries
    next.now).map Prod.snd) (distinct : ((unexpired config entries next.now).map Prod.snd).Nodup) :
    (unexpired config entries next.now).length < config.replayCapacity := by
  have all : (nonce :: (unexpired config entries next.now).map Prod.snd).Nodup :=
    nodup_cons.mpr ⟨fresh, distinct⟩
  have within : (nonce :: (unexpired config entries next.now).map Prod.snd).toFinset ⊆
      windowNonces hmac decodeMac config (presented ++ [next]) next.now := by
    intro other member
    rw [mem_toFinset, mem_cons] at member
    unfold windowNonces
    rw [mem_toFinset, mem_map]
    rcases member with rfl | held
    · refine ⟨(next.now, other), mem_filter.mpr ⟨?_, by simpa using positive⟩, rfl⟩
      exact mem_filterMap.mpr ⟨next, by simp, arrived⟩
    · obtain ⟨entry, kept, rfl⟩ := mem_map.mp held
      refine ⟨entry, mem_filter.mpr ⟨?_, ?_⟩, rfl⟩
      · rw [filterMap_append]
        exact mem_append_left _ (remembers.arrived _ ((dropWhile_sublist _).subset kept))
      · exact decide_eq_true (within_of_mem_unswept remembers.sorted kept)
  have counted := Finset.card_le_card within
  rw [toFinset_card_of_nodup all, length_cons, length_map] at counted
  omega

/-- A nonce of the last window is known; the others are swept on the way. -/
theorem Remembers.replayed (arrived : arrival hmac decodeMac config next = some (next.now, nonce))
    (known : nonce ∈ (unexpired config entries next.now).map Prod.snd) :
    ¬ Accepted hmac decodeMac config presented next ∧
      Remembers hmac decodeMac config (presented ++ [next]) (unexpired config entries next.now) := by
  obtain ⟨inner, cached, tracks⟩ := remembers.tracks
  obtain ⟨-, claims, step⟩ := verifyRequest_of_arrival arrived
  have result : remember config nonce next.now claims (.free inner) =
      (.rejected "replayed", .free (NonceCacheInner.sweep next.now inner.order inner.seen)) := by
    simp only [remember, tracks.checkAndAdd_known known]
  refine ⟨?_, ⟨_, ?_, tracks.sweep next.now⟩, ?_, ?_⟩
  · unfold Accepted
    rw [cached, step, result]
    exact Bool.false_ne_true
  · rw [cacheAfter_append, cached, step, result]
  · exact remembers.sorted.sublist (dropWhile_sublist _)
  · intro entry member
    rw [filterMap_append]
    exact mem_append_left _ (remembers.arrived _ ((dropWhile_sublist _).subset member))

/-- A nonce that is not of the last window is accepted, and remembered when the time until
which it is kept can be told. -/
theorem Remembers.fresh (positive : 0 < config.skewSeconds) (bounded : (windowNonces hmac decodeMac
    config (presented ++ [next]) next.now).card ≤ config.replayCapacity) (ordered : ∀ earlier ∈
    presented, earlier.now ≤ next.now) (arrived : arrival hmac decodeMac config next = some
    (next.now, nonce)) (unknown : nonce ∉ (unexpired config entries next.now).map Prod.snd) :
    Accepted hmac decodeMac config presented next ∧
      (0 ≤ next.now → next.now + config.skewSeconds < 2 ^ 63 →
        Remembers hmac decodeMac config (presented ++ [next])
          (unexpired config entries next.now ++ [(next.now, nonce)])) := by
  obtain ⟨inner, cached, tracks⟩ := remembers.tracks
  obtain ⟨-, claims, step⟩ := verifyRequest_of_arrival arrived
  have room := remembers.room positive bounded arrived unknown (tracks.sweep next.now).distinct
  obtain ⟨after, called, holds⟩ := tracks.checkAndAdd_fresh (Nat.zero_lt_of_lt room) unknown
  have result : remember config nonce next.now claims (.free inner) =
      (.accepted claims, .free after) := by
    simp only [remember, called]
  constructor
  · unfold Accepted
    rw [cached, step, result]
    rfl
  intro low high
  have tracked := holds (by omega) high
  have roomy : (unswept config.skewSeconds next.now entries).length + 1 - config.replayCapacity = 0 :=
    Nat.sub_eq_zero_of_le room
  rw [roomy, drop_zero] at tracked
  refine ⟨⟨after, ?_, tracked⟩, ?_, ?_⟩
  · rw [cacheAfter_append, cached, step, result]
  · rw [pairwise_append]
    refine ⟨remembers.sorted.sublist (dropWhile_sublist _), by simp, ?_⟩
    intro entry member last same
    rw [mem_singleton] at same
    subst same
    obtain ⟨earlier, inside, came⟩ := mem_filterMap.mp
      (remembers.arrived _ ((dropWhile_sublist _).subset member))
    rw [(verifyRequest_of_arrival came).1]
    exact ordered _ inside
  · intro entry member
    rw [filterMap_append]
    rcases mem_append.mp member with kept | last
    · exact mem_append_left _ (remembers.arrived _ ((dropWhile_sublist _).subset kept))
    · rw [mem_singleton] at last
      subst last
      exact mem_append_right _ (mem_filterMap.mpr ⟨next, by simp, arrived⟩)

theorem Remembers.ignored (absent : arrival hmac decodeMac config next = none) :
    ¬ Accepted hmac decodeMac config presented next ∧
      Remembers hmac decodeMac config (presented ++ [next]) entries := by
  obtain ⟨inner, cached, tracks⟩ := remembers.tracks
  obtain ⟨reason, step⟩ := verifyRequest_of_no_arrival absent
  refine ⟨?_, ⟨inner, ?_, tracks⟩, remembers.sorted, ?_⟩
  · unfold Accepted
    rw [step]
    exact Bool.false_ne_true
  · rw [cacheAfter_append, step, cached]
  · intro entry member
    rw [filterMap_append]
    exact mem_append_left _ (remembers.arrived _ member)

end

/-! ## Whole runs -/

theorem ProofConfig.skew_positive (checked : config.check = .ok ()) : 0 < config.skewSeconds := by
  unfold ProofConfig.check at checked
  split_ifs at checked
  omega

theorem Orderly.of_append (orderly : Orderly hmac decodeMac config (presented ++ [next])) :
    Orderly hmac decodeMac config presented ∧ (∀ earlier ∈ presented,
        earlier.now ≤ next.now ∧ earlier.now + config.skewSeconds < 2 ^ 63) ∧
      0 ≤ next.now ∧ next.now < 2 ^ 63 ∧
      (windowNonces hmac decodeMac config (presented ++ [next]) next.now).card ≤
        config.replayCapacity := by
  generalize whole : presented ++ [next] = all at orderly
  cases orderly with
  | start => simp at whole
  | next before ordered low high bounded =>
    obtain ⟨rfl, rfl⟩ := append_singleton_inj.mp whole
    exact ⟨before, ordered, low, high, bounded⟩

/-- Whatever is presented next, no nonce is forgotten before its window is over. -/
theorem Remembers.step (remembers : Remembers hmac decodeMac config presented entries) (checked :
    config.check = .ok ()) (orderly : Orderly hmac decodeMac config (presented ++ [next])) (fits :
    next.now + config.skewSeconds < 2 ^ 63) :
    ∃ after, Remembers hmac decodeMac config (presented ++ [next]) after ∧
      unexpired config entries next.now ⊆ after := by
  obtain ⟨-, ordered, low, high, bounded⟩ := orderly.of_append
  cases came : arrival hmac decodeMac config next with
  | none => exact ⟨entries, (remembers.ignored came).2, (dropWhile_sublist _).subset⟩
  | some entry =>
    obtain ⟨time, nonce⟩ := entry
    obtain ⟨rfl, -⟩ := verifyRequest_of_arrival came
    by_cases known : nonce ∈ (unexpired config entries next.now).map Prod.snd
    · exact ⟨_, (remembers.replayed came known).2, List.Subset.refl _⟩
    · have positive := ProofConfig.skew_positive checked
      exact ⟨_, (remembers.fresh positive bounded (fun _ member => (ordered _ member).1) came
        known).2 low fits, subset_append_left ..⟩

/-- After an orderly run the cache holds some of the nonces that came. -/
theorem exists_remembers (checked : config.check = .ok ())
    (enabled : config.enableReplayCache = true) (orderly : Orderly hmac decodeMac config presented)
    (fits : ∀ earlier ∈ presented, earlier.now + config.skewSeconds < 2 ^ 63) :
    ∃ entries, Remembers hmac decodeMac config presented entries := by
  induction orderly with
  | start =>
    refine ⟨[], ⟨.empty, ?_, Tracks.empty _⟩, List.Pairwise.nil, by simp⟩
    simp [cacheAfter, gateStart, enabled]
  | @next presented next before ordered low high bounded ih =>
    obtain ⟨entries, remembers⟩ := ih fun earlier member => fits _ (by simp [member])
    obtain ⟨after, remembers, -⟩ := remembers.step checked
      (.next before ordered low high bounded) (fits next (by simp))
    exact ⟨after, remembers⟩

variable {first : Presentation}

/-- A nonce that is remembered stays so until its window is over. -/
theorem remembers_until {later : List Presentation} (checked : config.check = .ok ()) (start :
    Remembers hmac decodeMac config (presented ++ [first]) entries) (held : (first.now, nonce) ∈
    entries) (orderly : Orderly hmac decodeMac config (presented ++ first :: later)) (fits : ∀
    earlier ∈ later, earlier.now + config.skewSeconds < 2 ^ 63) (before : ∀ earlier ∈ later,
    earlier.now < first.now + config.skewSeconds) :
    ∃ entries, Remembers hmac decodeMac config (presented ++ first :: later) entries ∧
      (first.now, nonce) ∈ entries := by
  induction later using reverseRecOn with
  | nil => exact ⟨entries, start, held⟩
  | append_singleton later last ih =>
    rw [← cons_append, ← append_assoc] at orderly ⊢
    obtain ⟨entries, remembers, member⟩ := ih orderly.of_append.1
      (fun earlier inside => fits _ (by simp [inside]))
      (fun earlier inside => before _ (by simp [inside]))
    obtain ⟨after, remembers, kept⟩ := remembers.step checked orderly (fits last (by simp))
    exact ⟨after, remembers, kept (mem_unswept_of_within member (before last (by simp)))⟩

theorem exists_arrival_of_accepted (accepted : Accepted hmac decodeMac config presented next) :
    ∃ nonce, arrival hmac decodeMac config next = some (next.now, nonce) := by
  cases came : arrival hmac decodeMac config next with
  | none =>
    obtain ⟨reason, step⟩ := verifyRequest_of_no_arrival came
    unfold Accepted at accepted
    rw [step] at accepted
    cases accepted
  | some entry =>
    obtain ⟨time, nonce⟩ := entry
    obtain ⟨rfl, -⟩ := verifyRequest_of_arrival came
    exact ⟨nonce, rfl⟩

variable {before : List Presentation}

/-- A proof that is accepted at the time it names, or ahead of it, is accepted again when
its nonce has been forgotten. -/
theorem accepted_again {ts : Int} (checked : config.check = .ok ()) (orderly : Orderly hmac
    decodeMac config (before ++ [first])) (fits : first.now + config.skewSeconds < 2 ^ 63)
    (remembers : Remembers hmac decodeMac config (before ++ [first]) entries) (room : 0 <
    config.replayCapacity) (arrived : arrival hmac decodeMac config first = some (first.now, nonce))
    (named : proofTime first.request = some ts) (ahead : first.now ≤ ts) :
    Orderly hmac decodeMac config
        (before ++ [first] ++ [⟨first.request, first.now + config.skewSeconds⟩]) ∧
      Accepted hmac decodeMac config (before ++ [first])
        ⟨first.request, first.now + config.skewSeconds⟩ := by
  have positive := ProofConfig.skew_positive checked
  obtain ⟨-, ordered, low, high, -⟩ := orderly.of_append
  have earliest : ∀ earlier ∈ before ++ [first],
      earlier.now ≤ first.now ∧ earlier.now + config.skewSeconds < 2 ^ 63 :=
    forall_mem_append.mpr ⟨ordered, forall_mem_singleton.mpr ⟨le_refl _, fits⟩⟩
  obtain ⟨raw, fields, label, header, blank, listed, parsed, passed, -, rfl⟩ :=
    arrival_eq_some_iff.mp arrived
  have again : arrival hmac decodeMac config ⟨first.request, first.now + config.skewSeconds⟩ =
      some (first.now + config.skewSeconds, String.ofList fields.nonce) := by
    refine arrival_eq_some_iff.mpr ⟨raw, fields, label, header, blank, listed, parsed, ?_, rfl, rfl⟩
    obtain ⟨secret, stated, known, spelled, -, young, genuine⟩ :=
      (checkProof_ok_iff hmac decodeMac low high).mp passed
    have same : stated = ts := by
      simpa [proofTime, header, parsed, spelled] using named
    exact (checkProof_ok_iff hmac decodeMac (by omega) fits).mpr
      ⟨secret, stated, known, spelled, by omega, by omega, genuine⟩
  -- Nothing else has arrived since the first acceptance.
  have alone : windowNonces hmac decodeMac config
      (before ++ [first] ++ [⟨first.request, first.now + config.skewSeconds⟩])
      (first.now + config.skewSeconds) ⊆ {String.ofList fields.nonce} := by
    intro other member
    unfold windowNonces at member
    rw [mem_toFinset, mem_map] at member
    obtain ⟨entry, kept, rfl⟩ := member
    obtain ⟨inside, recent⟩ := mem_filter.mp kept
    obtain ⟨source, among, came⟩ := mem_filterMap.mp inside
    rcases mem_append.mp among with earlier | last
    · have time := (verifyRequest_of_arrival came).1
      have bound := (earliest _ earlier).1
      have after := of_decide_eq_true recent
      omega
    · rw [mem_singleton] at last
      subst last
      rw [again] at came
      cases came
      exact Finset.mem_singleton_self _
  have bounded : (windowNonces hmac decodeMac config
      (before ++ [first] ++ [⟨first.request, first.now + config.skewSeconds⟩])
      (first.now + config.skewSeconds)).card ≤ config.replayCapacity :=
    (Finset.card_le_card alone).trans (by rw [Finset.card_singleton]; exact room)
  have before' : ∀ earlier ∈ before ++ [first], earlier.now ≤ first.now + config.skewSeconds := by
    intro earlier member
    have bound := (earliest _ member).1
    omega
  refine ⟨.next orderly (fun earlier member => ⟨before' _ member, (earliest _ member).2⟩)
    (by dsimp; omega) fits bounded, ?_⟩
  refine (remembers.fresh positive bounded before' again ?_).1
  intro known
  obtain ⟨entry, kept, -⟩ := mem_map.mp known
  have recent := within_of_mem_unswept remembers.sorted kept
  obtain ⟨source, among, came⟩ := mem_filterMap.mp
    (remembers.arrived _ ((dropWhile_sublist _).subset kept))
  have time := (verifyRequest_of_arrival came).1
  have bound := (earliest _ among).1
  dsimp at recent
  omega

/-- In an orderly run a proof that has been accepted is never accepted again exactly when it
was accepted after the time it names. -/
theorem accepted_once_iff {first : Presentation} (checked : config.check = .ok ()) (enabled :
    config.enableReplayCache = true) (orderly : Orderly hmac decodeMac config (before ++ [first]))
    (fits : first.now + config.skewSeconds < 2 ^ 63) (accepted : Accepted hmac decodeMac config
    before first) :
    (∀ later again, Orderly hmac decodeMac config (before ++ first :: later ++ [again]) →
        again.request.header proofHeader = first.request.header proofHeader →
        ¬ Accepted hmac decodeMac config (before ++ first :: later) again) ↔
      ∀ ts, proofTime first.request = some ts → ts < first.now := by
  have positive := ProofConfig.skew_positive checked
  obtain ⟨previous, ordered, low, high, bounded⟩ := orderly.of_append
  obtain ⟨entries, remembers⟩ := exists_remembers checked enabled previous
    fun earlier member => (ordered _ member).2
  obtain ⟨nonce, arrived⟩ := exists_arrival_of_accepted accepted
  have unknown : nonce ∉ (unexpired config entries first.now).map Prod.snd :=
    fun known => (remembers.replayed arrived known).1 accepted
  have after := (remembers.fresh positive bounded (fun _ member => (ordered _ member).1) arrived
    unknown).2 low fits
  constructor
  · intro once ts named
    by_contra ahead
    obtain ⟨inner, cached, tracks⟩ := remembers.tracks
    have room := remembers.room positive bounded arrived unknown (tracks.sweep first.now).distinct
    have replay := accepted_again checked orderly fits after (by omega) arrived named (by omega)
    exact once [] _ replay.1 rfl replay.2
  · intro past later again whole same acceptedAgain
    obtain ⟨nonce', arrivedAgain⟩ := exists_arrival_of_accepted acceptedAgain
    obtain ⟨raw, fields, label, header, -, -, parsed, passed, -, rfl⟩ :=
      arrival_eq_some_iff.mp arrived
    obtain ⟨raw', fields', label', header', -, -, parsed', passed', -, rfl⟩ :=
      arrival_eq_some_iff.mp arrivedAgain
    rw [same, header, Option.some.injEq] at header'
    subst header'
    rw [parsed, Option.some.injEq] at parsed'
    subst parsed'
    obtain ⟨run, earlier, low', high', -⟩ := whole.of_append
    obtain ⟨secret, ts, -, spelled, recent, -⟩ :=
      (checkProof_ok_iff hmac decodeMac low' high').mp passed'
    have named : ts < first.now := past ts (by simp [proofTime, header, parsed, spelled])
    obtain ⟨entries, remembered, held⟩ := remembers_until checked after
      (mem_append_right _ (mem_singleton_self _)) run
      (fun earlier' member => (earlier _ (by simp [member])).2)
      (fun earlier' member => by
        have time := (earlier earlier' (by simp [member])).1
        omega)
    refine (remembered.replayed arrivedAgain ?_).1 acceptedAgain
    exact mem_map.mpr ⟨_, mem_unswept_of_within held (by dsimp; omega), rfl⟩

end

namespace Sample

def config : ProofConfig where
  mode := .require
  originId := "worker"
  secrets := OrderedMap.empty.insert "k" ([], "proxy")
  skewSeconds := 30
  replayCapacity := 4
  enableReplayCache := true

def noMac (_ _ : Bytes) : Bytes := []

def decodeNoMac (_ : String) : Option Bytes := some []

def proof : String :=
  "v1.k.100.nnnnnnnnnnnnnnnnnnnnnn.mmmmmmmmmmmmmmmmmmmmmmmmmmmmmmmmmmmmmmmmmmm"

def proofAt (now : Int) : Presentation := ⟨⟨"count", [("VGI-Proxy-Proof", proof)], none⟩, now⟩

theorem orderly_proofAt {now : Int} (low : 0 ≤ now) (high : now < 2 ^ 63)
    (bounded : (windowNonces noMac decodeNoMac config [proofAt now] now).card ≤ 4) :
    Orderly noMac decodeNoMac config ([] ++ [proofAt now]) :=
  .next .start (by simp) low high bounded

end Sample

open Sample in
theorem accepted_once_iff_past : Accepted noMac decodeNoMac config [] (proofAt 101) ∧
      ∀ later again, Orderly noMac decodeNoMac config (proofAt 101 :: later ++ [again]) →
        again.request.header proofHeader = (proofAt 101).request.header proofHeader →
        ¬ Accepted noMac decodeNoMac config (proofAt 101 :: later) again := by
  have accepted : Accepted noMac decodeNoMac config [] (proofAt 101) := by
    unfold Accepted
    decide +kernel
  refine ⟨accepted, (accepted_once_iff (by decide +kernel) rfl
    (orderly_proofAt (by decide) (by decide) (by decide +kernel)) (by decide) accepted).mpr ?_⟩
  intro ts named
  have time : proofTime (proofAt 101).request = some 100 := by decide +kernel
  cases time.symm.trans named
  decide

/-- A proof is accepted thirty seconds before the time it names, and once more at that time. -/
theorem proof_accepted_twice : ∃ first again : Presentation,
    Orderly Sample.noMac Sample.decodeNoMac Sample.config ([first] ++ [again]) ∧
      again.request = first.request ∧
      Accepted Sample.noMac Sample.decodeNoMac Sample.config [] first ∧
      Accepted Sample.noMac Sample.decodeNoMac Sample.config [first] again := by
  refine ⟨Sample.proofAt 70, Sample.proofAt 100, ?_, rfl, ?_, ?_⟩
  · refine .next (Sample.orderly_proofAt (by decide) (by decide) (by decide +kernel)) ?_ (by decide)
      (by decide) (by decide +kernel)
    intro earlier member
    rw [mem_singleton.mp member]
    decide
  · unfold Accepted
    decide +kernel
  · unfold Accepted
    decide +kernel

end VgiRpc.Auth
