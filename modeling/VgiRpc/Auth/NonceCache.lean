import VgiRpc.Auth.Proof

/-!
# The nonce cache

The history of a cache is the list of the nonces it reported as fresh, each with the time it
was added.  The cache holds an end of its history: of the last additions, as many as there is
room for, those that it does not hold have expired.
-/

namespace VgiRpc.Auth

open Library List

/-- The cache holds these nonces, each from the time it came for one window. -/
structure Tracks (ttl : Int) (entries : List (Int × String)) (cache : NonceCacheInner) : Prop where
  order : cache.order = entries.map fun entry => (entry.2, entry.1 + ttl)
  seen : ∀ nonce, cache.seen.contains nonce = true ↔ nonce ∈ entries.map Prod.snd
  distinct : (entries.map Prod.snd).Nodup

theorem Tracks.empty (ttl : Int) : Tracks ttl [] .empty where
  order := rfl
  seen := by simp [NonceCacheInner.empty, OrderedMap.contains, OrderedMap.keys, OrderedMap.empty]
  distinct := nodup_nil

theorem contains_iff_get? {map : OrderedMap String Unit} {key : String} :
    map.contains key = true ↔ map.get? key = some () := by
  unfold OrderedMap.contains
  rw [decide_eq_true_iff, ← OrderedMap.get?_isSome_iff]
  cases map.get? key <;> simp

variable {ttl now last : Int} {capacity : Nat} {nonce : String} {cache : NonceCacheInner}
  {added entries : List (Int × String)} {entry : Int × String}

/-- The oldest nonce is taken out of both the queue and the set. -/
theorem Tracks.pop {order : List (String × Int)}
    {seen : OrderedMap String Unit} (tracks : Tracks ttl (entry :: entries) ⟨order, seen⟩) :
    Tracks ttl entries
      ⟨entries.map fun entry => (entry.2, entry.1 + ttl), seen.remove entry.2⟩ := by
  have distinct := nodup_cons.mp tracks.distinct
  refine ⟨rfl, fun nonce => ?_, distinct.2⟩
  rw [contains_iff_get?, OrderedMap.get?_remove]
  by_cases same : nonce = entry.2
  · subst same
    simpa using distinct.1
  · rw [if_neg same, ← contains_iff_get?, tracks.seen]
    simp [same]

/-- What sweeping leaves. -/
def unswept (ttl now : Int) (entries : List (Int × String)) : List (Int × String) :=
  entries.dropWhile fun entry => decide (entry.1 + ttl ≤ now)

/-- Sweeping drops what came a window ago or earlier, up to the first that did not. -/
theorem Tracks.sweep (now : Int) (tracks : Tracks ttl entries cache) :
    Tracks ttl (unswept ttl now entries) (NonceCacheInner.sweep now cache.order cache.seen) := by
  obtain ⟨order, seen⟩ := cache
  obtain rfl := tracks.order
  induction entries generalizing seen with
  | nil => exact tracks
  | cons entry rest ih =>
    rw [map_cons, NonceCacheInner.sweep, unswept]
    split_ifs with fresh
    · rw [dropWhile_cons_of_neg (by simpa using fresh)]
      exact tracks
    · rw [dropWhile_cons_of_pos (by simpa using fresh)]
      exact ih _ tracks.pop

/-- Making room drops what came first, and no more than is needed. -/
theorem Tracks.evict (tracks : Tracks ttl entries cache) (room : 0 < capacity) :
    ∃ left, NonceCacheInner.evict capacity cache.order cache.seen = some left ∧
      Tracks ttl (entries.drop (entries.length + 1 - capacity)) left := by
  obtain ⟨order, seen⟩ := cache
  obtain rfl := tracks.order
  induction entries generalizing seen with
  | nil => exact ⟨_, if_neg (by omega), by simpa using tracks⟩
  | cons entry rest ih =>
    rw [map_cons, NonceCacheInner.evict, length_map, length_cons]
    split_ifs with full
    · rw [Nat.sub_add_comm full, drop_succ_cons]
      exact ih _ tracks.pop
    · rw [Nat.sub_eq_zero_of_le (by omega)]
      exact ⟨_, rfl, tracks⟩

theorem Tracks.add (tracks : Tracks ttl entries cache) (fresh : nonce ∉ entries.map Prod.snd) :
    Tracks ttl (entries ++ [(now, nonce)]) (cache.add nonce (now + ttl)) where
  order := by simp [NonceCacheInner.add, tracks.order]
  seen := by
    intro other
    rw [NonceCacheInner.add, contains_iff_get?, OrderedMap.get?_insert]
    by_cases same : other = nonce
    · simp [same]
    · rw [if_neg same, ← contains_iff_get?, tracks.seen]
      simp [same]
  distinct := by
    rw [map_append, nodup_append]
    refine ⟨tracks.distinct, by simp, ?_⟩
    intro first member second last same
    simp only [map_cons, map_nil, mem_singleton] at last
    exact fresh (last ▸ same ▸ member)

/-- What is left after sweeping came within the last window. -/
theorem within_of_mem_unswept (sorted : entries.Pairwise fun first second => first.1 ≤ second.1)
    {entry : Int × String} (member : entry ∈ unswept ttl now entries) : now - ttl < entry.1 := by
  unfold unswept at member
  induction entries with
  | nil => cases member
  | cons head rest ih =>
    rw [pairwise_cons] at sorted
    by_cases old : head.1 + ttl ≤ now
    · rw [dropWhile_cons_of_pos (by simpa using old)] at member
      exact ih sorted.2 member
    · rw [dropWhile_cons_of_neg (by simpa using old)] at member
      rcases mem_cons.mp member with rfl | later
      · omega
      · have after := sorted.1 _ later
        omega

theorem mem_unswept_of_within (member : entry ∈ entries)
    (within : now < entry.1 + ttl) : entry ∈ unswept ttl now entries := by
  rw [← takeWhile_append_dropWhile (p := fun entry => decide (entry.1 + ttl ≤ now))
    (l := entries), mem_append] at member
  refine member.resolve_left fun old => ?_
  have past : entry.1 + ttl ≤ now := by simpa using mem_takeWhile_imp old
  omega

/-- A nonce that is left after sweeping is known. -/
theorem Tracks.checkAndAdd_known (tracks : Tracks ttl entries cache)
    (known : nonce ∈ (unswept ttl now entries).map Prod.snd) :
    cache.checkAndAdd ttl capacity nonce now =
      some (false, NonceCacheInner.sweep now cache.order cache.seen) :=
  if_pos (((tracks.sweep now).seen nonce).mpr known)

/-- Any other is added behind those there is room for, with a time that wraps around. -/
theorem Tracks.checkAndAdd_fresh (tracks : Tracks ttl entries cache) (room : 0 < capacity)
    (fresh : nonce ∉ (unswept ttl now entries).map Prod.snd) :
    ∃ next, cache.checkAndAdd ttl capacity nonce now = some (true, next) ∧
      (-2 ^ 63 ≤ now + ttl → now + ttl < 2 ^ 63 →
        Tracks ttl ((unswept ttl now entries).drop ((unswept ttl now entries).length + 1 - capacity) ++
          [(now, nonce)]) next) := by
  have swept := tracks.sweep now
  obtain ⟨kept, made, holds⟩ := swept.evict room
  refine ⟨kept.add nonce (wrapI64 (now + ttl)), ?_, fun low high => ?_⟩
  · unfold NonceCacheInner.checkAndAdd
    simp [if_neg fun found => fresh ((swept.seen nonce).mp found), made]
  · rw [wrapI64_of_fits low high]
    exact holds.add fun member => fresh (((drop_sublist _ _).map _).subset member)

/-! ## Histories -/

/-- A nonce that is presented at a time.  A history is what was added, with the cache. -/
def NonceCacheInner.present (ttl : Int) (capacity : Nat)
    (history : List (Int × String) × NonceCacheInner) (next : Int × String) :
    Option (List (Int × String) × NonceCacheInner) :=
  (history.2.checkAndAdd ttl capacity next.2 next.1).map fun result =>
    (if result.1 then history.1 ++ [next] else history.1, result.2)

def NonceCacheInner.run (ttl : Int) (capacity : Nat) (presented : List (Int × String)) :
    Option (List (Int × String) × NonceCacheInner) :=
  presented.foldlM (present ttl capacity) ([], .empty)

/-- The last additions, as many as there is room for. -/
def lastAdded (capacity : Nat) (added : List (Int × String)) : List (Int × String) :=
  added.drop (added.length - capacity)

/-- The cache holds an end of its history, with all of the last additions that have not
expired. -/
structure Recalls (ttl now : Int) (capacity : Nat) (added entries : List (Int × String))
    (cache : NonceCacheInner) : Prop where
  tracks : Tracks ttl entries cache
  small : entries.length ≤ capacity
  suffix : entries <:+ added
  held : ∀ entry ∈ lastAdded capacity added, now < entry.1 + ttl → entry ∈ entries
  sorted : added.Pairwise fun first second => first.1 ≤ second.1
  past : ∀ entry ∈ added, entry.1 ≤ now

theorem Recalls.mono (recalls : Recalls ttl last capacity added entries cache)
    (later : last ≤ now) : Recalls ttl now capacity added entries cache where
  __ := recalls
  held entry member within := recalls.held entry member (by omega)
  past entry member := (recalls.past entry member).trans later

/-- No addition of a nonce is left after sweeping when all the last ones have expired. -/
theorem Recalls.unknown_iff (recalls : Recalls ttl now capacity added entries cache) :
    nonce ∉ (unswept ttl now entries).map Prod.snd ↔
      ∀ entry ∈ lastAdded capacity added, entry.2 = nonce → entry.1 + ttl ≤ now := by
  constructor
  · rintro unknown entry member rfl
    by_contra late
    have within : now < entry.1 + ttl := by omega
    have live := mem_unswept_of_within (recalls.held _ member within) within
    exact unknown (mem_map_of_mem live)
  · rintro lapsed known
    obtain ⟨entry, live, rfl⟩ := mem_map.mp known
    have within := within_of_mem_unswept (recalls.sorted.sublist recalls.suffix.sublist) live
    have among : entries <:+ lastAdded capacity added := by
      refine suffix_of_suffix_length_le recalls.suffix (drop_suffix _ _) ?_
      have small := recalls.small
      have whole := recalls.suffix.length_le
      rw [lastAdded, length_drop]
      omega
    have expired := lapsed _ (among.subset ((dropWhile_sublist _).subset live)) rfl
    omega

theorem lastAdded_append (room : 0 < capacity) (entry : Int × String) :
    lastAdded capacity (added ++ [entry]) = added.drop (added.length + 1 - capacity) ++ [entry] := by
  rw [lastAdded, length_append, length_singleton]
  exact drop_append_of_le_length (by omega)

/-- One call tells a nonce that is among the last additions and has not expired from one
that is fresh. -/
theorem Recalls.step (recalls : Recalls ttl now capacity added entries cache) (room : 0 < capacity)
    (fits : -2 ^ 63 ≤ now + ttl ∧ now + ttl < 2 ^ 63) (nonce : String) :
    ∃ fresh next, cache.checkAndAdd ttl capacity nonce now = some (fresh, next) ∧
      (fresh = true ↔ ∀ entry ∈ lastAdded capacity added, entry.2 = nonce → entry.1 + ttl ≤ now) ∧
      ∃ entries', Recalls ttl now capacity (if fresh then added ++ [(now, nonce)] else added)
        entries' next := by
  have live : ∀ entry ∈ lastAdded capacity added, now < entry.1 + ttl →
      entry ∈ unswept ttl now entries :=
    fun entry member within => mem_unswept_of_within (recalls.held _ member within) within
  have suffix : unswept ttl now entries <:+ entries := dropWhile_suffix _
  have small := suffix.length_le.trans recalls.small
  replace suffix := suffix.trans recalls.suffix
  by_cases known : nonce ∈ (unswept ttl now entries).map Prod.snd
  · exact ⟨false, _, recalls.tracks.checkAndAdd_known known,
      iff_of_false Bool.false_ne_true fun lapsed => recalls.unknown_iff.mpr lapsed known, _,
      recalls.tracks.sweep now, small, suffix, live, recalls.sorted, recalls.past⟩
  · obtain ⟨next, called, tracks⟩ := recalls.tracks.checkAndAdd_fresh room known
    refine ⟨true, next, called, iff_of_true rfl (recalls.unknown_iff.mp known), _,
      tracks fits.1 fits.2, ?_, ?_, ?_, ?_, ?_⟩
    · rw [length_append, length_drop, length_singleton]
      omega
    · obtain ⟨before, joined⟩ := (drop_suffix _ _).trans suffix
      exact ⟨before, by rw [if_pos rfl, ← append_assoc, joined]⟩
    · intro entry member within
      rw [if_pos rfl, lastAdded_append room, mem_append] at member
      refine mem_append.mpr (member.imp_left fun old => ?_)
      have earlier : entry ∈ lastAdded capacity added :=
        (drop_sublist_drop_left _ (by omega)).subset old
      -- What is evicted is not among the last additions once one more has been made.
      by_cases full : (unswept ttl now entries).length < capacity
      · rw [Nat.sub_eq_zero_of_le full, drop_zero]
        exact live _ earlier within
      · refine (suffix_of_suffix_length_le (drop_suffix _ _)
          ((drop_suffix _ _).trans suffix) ?_).subset old
        rw [length_drop, length_drop]
        omega
    · rw [if_pos rfl, pairwise_append]
      refine ⟨recalls.sorted, pairwise_singleton _ _, fun entry member other same => ?_⟩
      rw [mem_singleton.mp same]
      exact recalls.past _ member
    · exact forall_mem_append.mpr ⟨recalls.past, forall_mem_singleton.mpr (le_refl _)⟩

/-- Every run ends, and the cache holds what its history says. -/
theorem exists_recalls {presented : List (Int × String)} (room : 0 < capacity) (ordered :
    presented.Pairwise fun first second => first.1 ≤ second.1) (fits : ∀ entry ∈ presented, -2 ^ 63
    ≤ entry.1 + ttl ∧ entry.1 + ttl < 2 ^ 63) (later : ∀ entry ∈ presented, entry.1 ≤ now) :
    ∃ added cache entries, NonceCacheInner.run ttl capacity presented = some (added, cache) ∧
      Recalls ttl now capacity added entries cache := by
  induction presented using reverseRecOn generalizing now with
  | nil =>
    exact ⟨[], .empty, [], rfl, Tracks.empty ttl, Nat.zero_le _, suffix_refl _, by simp [lastAdded],
      List.Pairwise.nil, by simp⟩
  | append_singleton before next ih =>
    obtain ⟨earlier, -, below⟩ := pairwise_append.mp ordered
    obtain ⟨added, cache, entries, ran, recalls⟩ := ih earlier (forall_mem_append.mp fits).1
      (fun entry member => below _ member _ (mem_singleton_self _))
    have own : next ∈ before ++ [next] := mem_append_right _ (mem_singleton_self _)
    obtain ⟨fresh, after, called, -, entries', recalls'⟩ := recalls.step room (fits _ own) next.2
    refine ⟨_, after, entries', ?_, recalls'.mono (later _ own)⟩
    unfold NonceCacheInner.run at ran ⊢
    rw [foldlM_append, ran]
    simp [NonceCacheInner.present, called]

/-- With room for at least one nonce, every call ends, the queue is no longer than the room
there is and holds what the set holds, and a nonce is fresh exactly when each of the last
additions, as many as there is room for, is of another nonce or has expired. -/
theorem checkAndAdd_fresh_iff (ttl : Int) (presented : List (Int × String)) (now : Int) (nonce :
    String) (room : 0 < capacity) (ordered : (presented ++ [(now, nonce)]).Pairwise fun first second
    => first.1 ≤ second.1) (fits : ∀ entry ∈ presented ++ [(now, nonce)], -2 ^ 63 ≤ entry.1 + ttl ∧
    entry.1 + ttl < 2 ^ 63) :
    ∃ added cache fresh next, NonceCacheInner.run ttl capacity presented = some (added, cache) ∧
      cache.checkAndAdd ttl capacity nonce now = some (fresh, next) ∧
      next.order.length ≤ capacity ∧
      (∀ other, next.seen.contains other = true ↔ other ∈ next.order.map Prod.fst) ∧
      (fresh = true ↔ ∀ entry ∈ lastAdded capacity added, entry.2 = nonce → entry.1 + ttl ≤ now) := by
  obtain ⟨earlier, -, below⟩ := pairwise_append.mp ordered
  obtain ⟨added, cache, entries, ran, recalls⟩ := exists_recalls room earlier
    (forall_mem_append.mp fits).1
    (fun entry member => below _ member _ (mem_singleton_self _))
  obtain ⟨fresh, next, called, decides, held, after⟩ := recalls.step room
    (fits _ (mem_append_right _ (mem_singleton_self _))) nonce
  refine ⟨added, cache, fresh, next, ran, called, ?_, fun other => ?_, decides⟩
  · rw [after.tracks.order, length_map]
    exact after.small
  · rw [after.tracks.seen, after.tracks.order, map_map]
    rfl

theorem checkAndAdd_fresh_iff_evicted : ∃ added cache fresh next,
    NonceCacheInner.run 30 1 [(0, "a"), (1, "b")] = some (added, cache) ∧
      cache.checkAndAdd 30 1 "a" 2 = some (fresh, next) ∧
      (fresh = true ↔ ∀ entry ∈ lastAdded 1 added, entry.2 = "a" → entry.1 + 30 ≤ 2) := by
  obtain ⟨added, cache, fresh, next, ran, called, -, -, decides⟩ :=
    checkAndAdd_fresh_iff 30 [(0, "a"), (1, "b")] 2 "a" Nat.one_pos (by decide) (by decide)
  exact ⟨added, cache, fresh, next, ran, called, decides⟩

/-- A cache without room goes round for ever at its first nonce. -/
theorem checkAndAdd_without_room :
    ∃ ttl nonce now, NonceCacheInner.empty.checkAndAdd ttl 0 nonce now = none :=
  ⟨30, "a", 0, by decide⟩

end VgiRpc.Auth
