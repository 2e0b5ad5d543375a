import IsalesEngine.Providers.TtsCache

/-!
The cache store is a bounded map that forgets what was used least recently. Its
counter is the exact size of what it stores, so the loop of `_evict` takes out as
many entries as the abstract map does. What `get` returns is read off the journal
of the store: what was put, what was refused for its size, and what was evicted.
-/
namespace IsalesEngine
open Binary Refinement

namespace TtsCacheStore
variable {V : Type} {limits : Lru.Limits V} {s : TtsCacheStore V}
  {entries : List (PhraseKey × V)} {key : PhraseKey} {chunks : V}

/-- The store has the limits, holds the entries in their order and counts their size. -/
structure Counts (limits : Lru.Limits V) (s : TtsCacheStore V)
    (entries : List (PhraseKey × V)) : Prop where
  maxEntries : s.maxEntries = limits.maxEntries
  maxTotalBytes : s.maxTotalBytes = limits.maxWeight
  stored : s.store.entries = entries
  total : s.totalBytes = Lru.total limits entries

namespace Counts

variable (counts : Counts limits s entries)
include counts

theorem lookup (key : PhraseKey) : s.store.get? key = Lru.lookup key entries := by
  rw [← counts.stored]
  rfl

/-- The test of the loop. -/
theorem full_iff : (s.maxEntries < s.store.length ∨ s.maxTotalBytes < s.totalBytes) ↔
      ¬ Lru.Fits limits entries := by
  rw [OrderedDict.length, Lru.Fits, counts.maxEntries, counts.maxTotalBytes, counts.stored,
    counts.total]
  omega

/-- The loop takes out the oldest entries until the others fit. -/
theorem evictLoop {fuel : Nat} (enough : entries.length ≤ fuel) :
    Counts limits (evictLoop limits.weight fuel s) (Lru.trim limits entries) := by
  induction fuel generalizing s entries with
  | zero =>
      obtain rfl : entries = [] := List.eq_nil_of_length_eq_zero (Nat.le_zero.mp enough)
      rwa [Lru.trim_nil]
  | succ fuel ih =>
      have full := counts.full_iff
      obtain ⟨maxEntries, maxTotalBytes, ⟨stored, nodup⟩, totalBytes⟩ := s
      obtain rfl : stored = entries := counts.stored
      cases stored with
      | nil => rwa [Lru.trim_nil]
      | cons entry rest =>
          by_cases fits : Lru.Fits limits (entry :: rest)
          · rw [Lru.trim_of_fits fits, TtsCacheStore.evictLoop]
            simp only [OrderedDict.popFirst]
            rw [if_neg (mt full.mp (not_not.mpr fits))]
            exact counts
          · rw [Lru.trim_cons fits, TtsCacheStore.evictLoop]
            simp only [OrderedDict.popFirst]
            rw [if_pos (full.mpr fits)]
            refine ih ⟨counts.maxEntries, counts.maxTotalBytes, rfl, ?_⟩
              (Nat.le_of_succ_le_succ enough)
            have total := counts.total
            rw [Lru.total_cons] at total
            dsimp only at total ⊢
            omega

theorem forget (key : PhraseKey) :
    Counts limits (s.forget limits.weight key) (Lru.without key entries) := by
  obtain rfl := counts.stored
  rw [TtsCacheStore.forget]
  split
  · rename_i old found
    have total := counts.total
    rw [Lru.total_perm (OrderedDict.entries_perm found), Lru.total_append, Lru.total_cons] at total
    refine ⟨counts.maxEntries, counts.maxTotalBytes, rfl, ?_⟩
    change s.totalBytes - limits.weight old = Lru.total limits (s.store.delete key).entries
    change s.totalBytes = (Lru.total limits _ + (limits.weight old + 0) : Nat) at total
    omega
  · rename_i missing
    have same : Lru.without key s.store.entries = s.store.entries :=
      OrderedDict.entries_delete_of_none missing
    rwa [same]

/-- The store right before `_evict`. -/
theorem insert (key : PhraseKey) (chunks : V) :
    Counts limits ((s.forget limits.weight key).insert limits.weight key chunks)
      (Lru.use key chunks entries) := by
  have forgotten := counts.forget key
  refine ⟨forgotten.maxEntries, forgotten.maxTotalBytes, ?_, ?_⟩
  · rw [TtsCacheStore.insert, OrderedDict.set_of_fresh keys_forget, forgotten.stored]
    rfl
  · rw [TtsCacheStore.insert, forgotten.total, Lru.use, Lru.total_append, Lru.total_cons]
    rfl

theorem put (key : PhraseKey) (chunks : V) :
    Counts limits (s.put limits.weight key chunks) (Lru.put limits key chunks entries) := by
  have forgotten := counts.forget key
  rw [TtsCacheStore.put, Lru.put]
  rw [forgotten.maxTotalBytes]
  by_cases light : limits.weight chunks ≤ limits.maxWeight
  · rw [if_neg (Nat.not_lt.mpr light), if_pos light]
    have inserted := counts.insert key chunks
    apply inserted.evictLoop
    rw [OrderedDict.length, inserted.stored]
  · rw [if_pos (Nat.lt_of_not_le light), if_neg light]
    exact forgotten

theorem get (key : PhraseKey) : (s.get key).1 = Lru.lookup key entries ∧
      Counts limits (s.get key).2 (Lru.serve limits entries (.get key)).2 := by
  have same := counts.lookup key
  rw [TtsCacheStore.get, Lru.serve]
  cases found : Lru.lookup key entries with
  | none =>
      rw [same, found]
      exact ⟨rfl, counts⟩
  | some chunks =>
      rw [found] at same
      rw [same]
      obtain rfl := counts.stored
      refine ⟨rfl, counts.maxEntries, counts.maxTotalBytes, ?_, ?_⟩
      · exact OrderedDict.moveToEnd_of_some same
      · apply counts.total.trans
        exact congrArg Nat.cast (Lru.total_perm (OrderedDict.entries_perm same))

end Counts

/-- The store answers as the abstract map does, with its entries in the same order. -/
theorem refines_lru (limits : Lru.Limits V) :
    Refines (object limits.weight) (Lru.object limits) (Counts limits) where
  answer s entries request counts := by
    cases request with
    | get key =>
        change Lru.Answer.value (s.get key).1 = (Lru.serve limits entries (.get key)).1
        rw [(counts.get key).1, Lru.serve]
        cases Lru.lookup key entries <;> rfl
    | put key chunks => rfl
    | length => exact congrArg (fun l => Lru.Answer.number (List.length l : Nat)) counts.stored
    | weight => exact congrArg Lru.Answer.number counts.total
  related s entries request counts := by
    cases request with
    | get key => exact (counts.get key).2
    | put key chunks => exact counts.put key chunks
    | length | weight => exact counts

section Journal

/-- What happens to the entries of the store beside their order. -/
inductive Event (V : Type) where
  | stored (key : PhraseKey) (chunks : V)
  | oversized (key : PhraseKey)
  | evicted (key : PhraseKey)

/-- The keys that `_evict` takes out during a `put` that fits. -/
def evictedKeys (size : V → Nat) (s : TtsCacheStore V) (key : PhraseKey) (chunks : V) :
    List PhraseKey :=
  ((s.forget size key).insert size key chunks).store.keys.filter
    (· ∉ (s.put size key chunks).store.keys)

def events (size : V → Nat) (s : TtsCacheStore V) : Lru.Request PhraseKey V → List (Event V)
  | .put key chunks =>
      if s.maxTotalBytes < size chunks then [.oversized key]
      else .stored key chunks :: (s.evictedKeys size key chunks).map .evicted
  | _ => []

def Event.apply (key : PhraseKey) (before : Option V) : Event V → Option V
  | .stored k chunks => if k = key then some chunks else before
  | .oversized k | .evicted k => if k = key then none else before

/-- The chunks of the last put of a key, unless it was oversized or evicted since. -/
def lastPut (journal : List (Event V)) (key : PhraseKey) : Option V :=
  journal.foldl (Event.apply key) none

theorem foldl_evicted (keys : List PhraseKey) (before : Option V) :
    (keys.map Event.evicted).foldl (Event.apply key) before =
      if key ∈ keys then none else before := by
  induction keys generalizing before with
  | nil => simp
  | cons first keys ih =>
      rw [List.map_cons, List.foldl_cons, ih]
      by_cases same : first = key
      · simp [Event.apply, same]
      · simp [Event.apply, same, Ne.symm same]

theorem get?_forget (size : V → Nat) {other : PhraseKey} (distinct : other ≠ key) :
    (s.forget size key).store.get? other = s.store.get? other := by
  rw [forget]
  split
  · rw [OrderedDict.get?_delete, if_neg distinct]
  · rfl

theorem get?_get (other : PhraseKey) : (s.get key).2.store.get? other = s.store.get? other := by
  rw [get]
  split
  · rename_i chunks found
    exact OrderedDict.get?_moveToEnd found other
  · rfl

variable (counts : Counts limits s entries)
include counts

theorem get?_put_oversized (heavy : s.maxTotalBytes < limits.weight chunks) (other : PhraseKey) :
    (s.put limits.weight key chunks).store.get? other =
      if key = other then none else s.store.get? other := by
  have forgotten := counts.forget key
  rw [put, if_pos (by rwa [forgotten.maxTotalBytes, ← counts.maxTotalBytes])]
  by_cases same : key = other
  · subst same
    rw [if_pos rfl, OrderedDict.get?_eq_none.mpr keys_forget]
  · rw [if_neg same, get?_forget _ (Ne.symm same)]

theorem get?_put (light : ¬ s.maxTotalBytes < limits.weight chunks) (other : PhraseKey) :
    (s.put limits.weight key chunks).store.get? other =
      if other ∈ s.evictedKeys limits.weight key chunks then none
      else if key = other then some chunks else s.store.get? other := by
  have inserted := counts.insert key chunks
  have suffix : (s.put limits.weight key chunks).store.entries <:+
      ((s.forget limits.weight key).insert limits.weight key chunks).store.entries := by
    rw [(counts.put key chunks).stored, inserted.stored, Lru.put,
      if_pos (by rw [← counts.maxTotalBytes]; exact Nat.le_of_not_lt light)]
    exact Lru.trim_suffix _
  have before : ((s.forget limits.weight key).insert limits.weight key chunks).store.get? other =
      if key = other then some chunks else s.store.get? other := by
    rw [insert, OrderedDict.get?_set_of_fresh keys_forget]
    by_cases same : key = other
    · rw [if_pos same, if_pos same.symm]
    · rw [if_neg same, if_neg (Ne.symm same), get?_forget _ (Ne.symm same)]
  rw [OrderedDict.get?_of_suffix suffix, ← before]
  simp only [evictedKeys, List.mem_filter, decide_eq_true_eq]
  by_cases left : other ∈ (s.put limits.weight key chunks).store.keys
  · simp [left]
  · by_cases there : other ∈
        ((s.forget limits.weight key).insert limits.weight key chunks).store.keys
    · simp [left, there]
    · simp [left, there, OrderedDict.get?_eq_none.mpr there]

/-- What `get` finds is what the journal says of the key. -/
theorem get?_step (request : Lru.Request PhraseKey V)
    (journal : List (Event V)) (known : ∀ key, s.store.get? key = lastPut journal key)
    (key : PhraseKey) : (s.serve limits.weight request).2.store.get? key =
      lastPut (journal ++ s.events limits.weight request) key := by
  rw [lastPut, List.foldl_append]
  change _ = (s.events limits.weight request).foldl (Event.apply key) (lastPut journal key)
  rw [← known]
  cases request with
  | get k => exact get?_get key
  | put k chunks =>
      rw [events]
      change (s.put limits.weight k chunks).store.get? key = _
      by_cases heavy : s.maxTotalBytes < limits.weight chunks
      · rw [get?_put_oversized counts heavy, if_pos heavy]
        rfl
      · rw [get?_put counts heavy, if_neg heavy, List.foldl_cons, foldl_evicted]
        rfl
  | length | weight => rfl

theorem get?_after (fresh : ∀ key, s.store.get? key = none)
    (requests : List (Lru.Request PhraseKey V)) (key : PhraseKey) :
    ((object limits.weight).after s requests).store.get? key =
      lastPut ((object limits.weight).collect (events limits.weight) s requests) key := by
  have start : (∃ entries, Counts limits s entries) ∧ ∀ key, s.store.get? key = lastPut [] key :=
    ⟨⟨entries, counts⟩, fresh⟩
  apply (Object.collect_invariant (O := object limits.weight)
    (J := fun s journal => (∃ entries, Counts limits s entries) ∧
      ∀ key, s.store.get? key = lastPut journal key) ?_ start requests).2
  intro s request journal holds
  obtain ⟨⟨entries, counts⟩, known⟩ := holds
  exact ⟨⟨_, (refines_lru limits).related s entries request counts⟩,
    get?_step counts request journal known⟩

end Journal
end TtsCacheStore

namespace Guarantees
open TtsCacheStore

/-- The cache store is a bounded map that forgets what was used least recently. After every sequence
of requests its entries are those of the abstract map, in the same order, which is the order of the
last use of their keys; its counter is their total size and both bounds hold; `get` finds what was
put last, unless that was oversized or evicted since; and what fits is evicted by its own `put` only
if no entry at all is allowed. -/
theorem cache_store_is_lru (maxEntries maxTotalBytes : Nat)
    (requests : List (Lru.Request PhraseKey (List Bytes))) :
    let limits : Lru.Limits (List Bytes) := ⟨maxEntries, maxTotalBytes, chunksSize⟩
    let start : TtsCacheStore (List Bytes) := { maxEntries, maxTotalBytes }
    let s := (object chunksSize).after start requests
    (object chunksSize).answers start requests = (Lru.object limits).answers [] requests ∧
    s.store.entries = (Lru.object limits).after [] requests ∧
    s.store.keys.Sublist ((object chunksSize).collect (fun s => Lru.uses s.store.entries) start
      requests).dedup ∧
    s.totalBytes = (s.store.entries.map fun entry => chunksSize entry.2).sum ∧
    s.store.length ≤ maxEntries ∧ s.totalBytes ≤ maxTotalBytes ∧
    (∀ key, (s.get key).1 =
      lastPut ((object chunksSize).collect (events chunksSize) start requests) key) ∧
    ∀ key chunks, chunksSize chunks ≤ maxTotalBytes →
      ((s.put chunksSize key chunks).store.get? key = none ↔ maxEntries = 0) := by
  intro limits start s
  have refines := refines_lru limits
  have empty : Counts limits start [] := ⟨rfl, rfl, rfl, rfl⟩
  have counts : Counts limits s ((Lru.object limits).after [] requests) :=
    refines.after empty requests
  have fits : Lru.Fits limits ((Lru.object limits).after [] requests) :=
    Object.invariant (J := Lru.Fits limits) (fun _ request fits => Lru.fits_serve fits request)
      (Lru.fits_nil limits) requests
  refine ⟨refines.answers empty requests, counts.stored, ?_, ?_, ?_, ?_, ?_, ?_⟩
  · have used : (object chunksSize).collect (fun s => Lru.uses s.store.entries) start requests =
        (Lru.object limits).collect Lru.uses [] requests :=
      refines.collect (fun s entries request counts => by rw [counts.stored]) empty requests
    rw [OrderedDict.keys, counts.stored, used]
    exact Lru.ordered_by_use requests
  · rw [counts.stored]
    exact counts.total
  · rw [OrderedDict.length, counts.stored]
    exact fits.1
  · rw [counts.total]
    exact Int.ofNat_le.mpr fits.2
  · intro key
    have found := get?_after empty (fun _ => rfl) requests key
    rw [(counts.get key).1, ← counts.lookup]
    exact found
  · intro key chunks light
    rw [(counts.put key chunks).lookup]
    exact Lru.lookup_put light

/-- The phrase that was asked for in between stays; the other one goes. -/
theorem unused_phrase_evicted :
    ((object chunksSize).after { maxEntries := 2, maxTotalBytes := 10 }
      [.put (['a'], ['v']) [[1]], .put (['b'], ['v']) [[2], [2]], .get (['a'], ['v']),
        .put (['c'], ['v']) [[3]]]).store.entries =
      [((['a'], ['v']), [[1]]), ((['c'], ['v']), [[3]])] ∧
    ((((object chunksSize).after { maxEntries := 2, maxTotalBytes := 10 } []).put chunksSize
      (['d'], ['v']) [[4]]).store.get? (['d'], ['v']) = none ↔ 2 = 0) := by
  refine ⟨?_, ?_⟩
  · rw [(cache_store_is_lru 2 10 _).2.1]
    decide +kernel
  · obtain ⟨-, -, -, -, -, -, -, kept⟩ := cache_store_is_lru 2 10 []
    exact kept (['d'], ['v']) [[4]] (by decide)

end Guarantees
end IsalesEngine
