import IsalesEngine.Guarantees.CacheStore

/-!
Caching is invisible to listeners. A list is open while a stream fills it and only
that stream knows it; once it is sealed nothing changes it any more. The store and
the streams that replay refer to sealed lists only, each the complete sequence of
its key, because a list is stored at the moment the inner stream has ended. So the
sizes that the store has counted are still those of its lists.
-/
namespace IsalesEngine
open Asyncio Binary TtsCacheStore

namespace TtsCacheStore
variable {V : Type} {s : TtsCacheStore V} {key : PhraseKey} {chunks : V} {entry : PhraseKey × V}

theorem mem_get : entry ∈ (s.get key).2.store.entries ↔ entry ∈ s.store.entries := by
  rw [get]
  split
  · rename_i chunks found
    rw [OrderedDict.moveToEnd_of_some found]
    exact (OrderedDict.entries_perm found).mem_iff.symm
  · exact Iff.rfl

/-- A `put` stores what it was given or nothing new. -/
theorem Counts.mem_put {limits : Lru.Limits V} {entries : List (PhraseKey × V)}
    (counts : Counts limits s entries)
    (inside : entry ∈ (s.put limits.weight key chunks).store.entries) :
    entry ∈ s.store.entries ∨ entry = (key, chunks) := by
  rw [(counts.put key chunks).stored, Lru.put] at inside
  rw [counts.stored]
  split at inside
  · have used := List.mem_append.mp ((Lru.trim_suffix _).subset inside)
    exact used.imp List.mem_of_mem_filter List.mem_singleton.mp
  · exact Or.inl (List.mem_of_mem_filter inside)

end TtsCacheStore

namespace CachingTTSProvider
variable {inner : PhraseKey → List Bytes} {longest : Int} {m n ref : Nat} {s s' : State}
  {shared shared' : Shared} {stream stream' : Stream} {event : Event} {label : Label}
  {chunks : List Bytes}

/-- The list the stream fills. -/
def Stage.open? : Stage → Option Nat
  | .awaiting buf | .yielded buf => buf
  | _ => none

variable (inner longest shared stream) in
/-- What a step can make of a stream and of what the streams share. -/
inductive Turn : Shared → Stream → Prop where
  | hit {ref : Nat} (created : stream.stage = .created)
      (stored : (stream.key, ref) ∈ shared.store.store.entries) :
      Turn { shared with store := (shared.store.get stream.key).2 }
        (replay shared.lists stream ref 0)
  | replayed {hit next : Nat} (replaying : stream.stage = .replaying hit next) :
      Turn shared (replay shared.lists stream hit next)
  | passes (created : stream.stage = .created) :
      Turn shared { stream with stage := .awaiting none }
  | misses (created : stream.stage = .created) (short : stream.key.1.length ≤ longest) :
      Turn { shared with lists := shared.lists ++ [[]] }
        { stream with stage := .awaiting (some shared.lists.length) }
  | resumed {buf : Option Nat} (yielded : stream.stage = .yielded buf) :
      Turn shared { stream with stage := .awaiting buf }
  | given {buf : Option Nat} (awaiting : stream.stage = .awaiting buf) (chunk : Bytes) :
      Turn (append shared buf chunk)
        { stream with
          stage := .yielded buf
          given := stream.given ++ [chunk]
          received := stream.received ++ [chunk] }
  | filled {buf : Option Nat} (awaiting : stream.stage = .awaiting buf)
      (complete : stream.given = inner stream.key) :
      Turn (fill shared stream.key buf) { stream with stage := .ended }
  | aborted : Turn shared { stream with stage := .aborted }

theorem begin_turn (created : stream.stage = .created) :
    Turn inner longest shared stream (begin longest shared stream).1
      (begin longest shared stream).2 := by
  rw [begin]
  cases found : shared.store.store.get? stream.key with
  | some hit =>
      have turn : Turn inner longest shared stream _ _ :=
        .hit created (OrderedDict.get?_eq_some.mp found)
      rw [TtsCacheStore.get, found] at turn ⊢
      exact turn
  | none =>
      rw [TtsCacheStore.get, found]
      dsimp only
      split
      · exact .passes created
      · exact .misses created (Int.not_lt.mp ‹_›)

theorem react_turn (reacts : react inner longest shared stream event =
    some (shared', stream')) : Turn inner longest shared stream shared' stream' := by
  cases event with
  | anext =>
      rw [react] at reacts
      split at reacts
      · rename_i created
        have turn : Turn inner longest shared stream _ _ := begin_turn created
        rw [Option.some.inj reacts] at turn
        exact turn
      · cases reacts
        exact .replayed ‹_›
      · cases reacts
        exact .resumed ‹_›
      all_goals cases reacts
  | innerYields chunk =>
      rw [react] at reacts
      split at reacts <;> cases reacts
      exact .given ‹_› chunk
  | innerEnds =>
      rw [react] at reacts
      split at reacts
      · obtain ⟨complete, same⟩ := of_guard reacts
        cases same
        exact .filled ‹_› complete
      · cases reacts
  | innerRaises | aclose =>
      rw [react] at reacts
      split at reacts <;> cases reacts
      all_goals exact .aborted

theorem open?_replay (lists : List (List Bytes)) (hit next : Nat) :
    (replay lists stream hit next).stage.open? = none := by
  rw [replay]
  split <;> rfl

namespace Turn
variable {ref : Nat} {chunks : List Bytes}
  (turn : Turn inner longest shared stream shared' stream')
include turn

/-- A stream changes no list but the one it fills. -/
theorem lists (other : stream.stage.open? ≠ some ref) (there : shared.lists[ref]? = some chunks) :
    shared'.lists[ref]? = some chunks := by
  cases turn with
  | misses created short => rwa [List.getElem?_append_left (List.getElem?_eq_some_iff.mp there).1]
  | @given buf awaiting chunk =>
      cases buf with
      | none => exact there
      | some buf =>
          have distinct : buf ≠ ref := by
            rintro rfl
            rw [awaiting] at other
            exact other rfl
          change (shared.lists.modify buf _)[ref]? = _
          rwa [List.getElem?_modify_ne _ _ distinct]
  | @filled buf awaiting complete => cases buf <;> exact there
  | hit | replayed | passes | resumed | aborted => exact there

/-- The list a stream fills is its old one or a new one. -/
theorem opened (fills : stream'.stage.open? = some ref) :
    stream.stage.open? = some ref ∨ ref = shared.lists.length := by
  cases turn with
  | misses created short => exact Or.inr (Option.some.inj fills).symm
  | resumed stage | given stage =>
      rw [stage]
      exact Or.inl fills
  | hit | replayed =>
      rw [open?_replay] at fills
      cases fills
  | passes | filled | aborted => cases fills

/-- The store is looked up, or takes a list when the stream that filled it has ended with it. -/
theorem store : shared'.store = shared.store ∨ shared'.lists = shared.lists ∧
    (shared'.store = (shared.store.get stream.key).2 ∨
      ∃ ref, shared'.store = shared.store.put (listSize shared.lists) stream.key ref ∧
        stream.stage = .awaiting (some ref) ∧ stream'.stage = .ended ∧
          stream.given = inner stream.key) := by
  cases turn with
  | hit => exact Or.inr ⟨rfl, Or.inl rfl⟩
  | @given buf => cases buf <;> exact Or.inl rfl
  | @filled buf awaiting complete =>
      cases buf with
      | none => exact Or.inl rfl
      | some ref => exact Or.inr ⟨rfl, Or.inr ⟨ref, rfl, awaiting, rfl, complete⟩⟩
  | replayed | passes | misses | resumed | aborted => exact Or.inl rfl

end Turn

/-- A step opens a stream or is a turn of one. -/
theorem step_cases (stepped : (system inner longest).step s label = some s') :
    (∃ key, s' = { s with streams := s.streams ++ [{ key }] }) ∨
      ∃ i old shared' new, s.streams[i]? = some old ∧ Turn inner longest s.shared old shared' new ∧
          s' = { shared := shared', streams := s.streams.set i new } := by
  cases label with
  | synthesizeStream text voiceId => exact Or.inl ⟨_, (Option.some.inj stepped).symm⟩
  | stream i event =>
      obtain ⟨old, own, reacted⟩ := Option.bind_eq_some_iff.mp stepped
      obtain ⟨⟨shared', new⟩, reacts, same⟩ := Option.map_eq_some_iff.mp reacted
      exact Or.inr ⟨i, old, shared', new, own, react_turn reacts, same.symm⟩

/-- A list that no stream fills any more. -/
structure Sealed (s : State) (ref : Nat) (chunks : List Bytes) : Prop where
  there : s.shared.lists[ref]? = some chunks
  closed : ∀ {i : Nat} {stream : Stream}, s.streams[i]? = some stream →
    stream.stage.open? ≠ some ref

/-- A sealed list stays as it is. -/
theorem Sealed.step (done : Sealed s ref chunks)
    (stepped : (system inner longest).step s label = some s') : Sealed s' ref chunks := by
  obtain ⟨key, rfl⟩ | ⟨i, old, shared', new, own, turn, rfl⟩ := step_cases stepped
  · refine ⟨done.there, ?_⟩
    intro j stream there
    rcases getElem?_concat_iff.mp there with before | ⟨-, rfl⟩
    · exact done.closed before
    · intro fills
      cases fills
  · refine ⟨turn.lists (done.closed own) done.there, ?_⟩
    intro j stream there fills
    rcases (getElem?_set_iff own).mp there with ⟨-, rfl⟩ | ⟨-, before⟩
    · rcases turn.opened fills with already | fresh
      · exact done.closed own already
      · have inside := (List.getElem?_eq_some_iff.mp done.there).1
        omega
    · exact done.closed before fills

/-- What is known of the list a stream fills, and of what was heard at each of its stages. -/
structure Stream.Sound (inner : PhraseKey → List Bytes) (longest : Int) (s : State)
    (stream : Stream) : Prop where
  filled : ∀ {ref}, stream.stage.open? = some ref →
    s.shared.lists[ref]? = some stream.given ∧ stream.key.1.length ≤ longest
  heard : match stream.stage with
    | .created => stream.given = [] ∧ stream.received = []
    | .replaying hit next =>
        Sealed s hit (inner stream.key) ∧ stream.received = (inner stream.key).take next
    | .awaiting _ | .yielded _ => stream.received = stream.given
    | .ended => stream.received = inner stream.key
    | .aborted => True

/-- What is known of a stream depends on the sealed lists and on the one it fills. -/
theorem Stream.Sound.kept (before : stream.Sound inner longest s)
    (lasts : ∀ {ref chunks}, Sealed s ref chunks → Sealed s' ref chunks)
    (lists : ∀ {ref chunks}, stream.stage.open? = some ref →
      s.shared.lists[ref]? = some chunks → s'.shared.lists[ref]? = some chunks) :
    stream.Sound inner longest s' := by
  refine ⟨fun fills => (before.filled fills).imp_left (lists fills), ?_⟩
  have heard := before.heard
  cases stage : stream.stage with
  | replaying hit next =>
      rw [stage] at heard
      exact ⟨lasts heard.1, heard.2⟩
  | created | awaiting | yielded | ended | aborted =>
      rw [stage] at heard
      exact heard

/-- The store counts its lists as they are, and they fit. -/
def Counted (m n : Nat) (shared : Shared) : Prop :=
  ∃ entries, Counts ⟨m, n, listSize shared.lists⟩ shared.store entries ∧
    Lru.Fits ⟨m, n, listSize shared.lists⟩ entries

theorem Counted.resize (counted : Counted m n shared) (store : shared'.store = shared.store)
    (sizes : ∀ entry ∈ shared.store.store.entries,
      listSize shared'.lists entry.2 = listSize shared.lists entry.2) : Counted m n shared' := by
  obtain ⟨_, ⟨maxEntries, maxTotalBytes, rfl, total⟩, fits⟩ := counted
  have same := congrArg List.sum (List.map_congr_left sizes)
  refine ⟨_, ⟨?_, ?_, ?_, ?_⟩, fits.1, Nat.le_trans (Nat.le_of_eq same) fits.2⟩
  all_goals rw [store]
  · exact maxEntries
  · exact maxTotalBytes
  · exact total.trans (congrArg Nat.cast same.symm)

structure Sound (inner : PhraseKey → List Bytes) (longest : Int) (m n : Nat) (s : State) :
    Prop where
  streams : ∀ {i : Nat} {stream : Stream}, s.streams[i]? = some stream →
    stream.Sound inner longest s
  alone : ∀ {i j ref : Nat} {a b : Stream}, s.streams[i]? = some a → s.streams[j]? = some b →
    a.stage.open? = some ref → b.stage.open? = some ref → i = j
  stored : ∀ {key : PhraseKey} {ref : Nat}, (key, ref) ∈ s.shared.store.store.entries →
    Sealed s ref (inner key) ∧ key.1.length ≤ longest
  counted : Counted m n s.shared

namespace Sound
variable {i j : Nat} {old new other : Stream}

theorem start : Sound inner longest m n (start m n) where
  streams there := by cases there
  alone there := by cases there
  stored inside := by cases inside
  counted := ⟨[], ⟨rfl, rfl, rfl, rfl⟩, Lru.fits_nil _⟩

/-- A round of the loop over a sealed list. -/
theorem replay {hit next : Nat} {lists : List (List Bytes)}
    (whole : listAt lists hit = inner stream.key) (sealed : Sealed s hit (inner stream.key))
    (received : stream.received = (inner stream.key).take next) :
    (replay lists stream hit next).Sound inner longest s := by
  refine ⟨fun fills => ?_, ?_⟩
  · rw [open?_replay] at fills
    cases fills
  · rw [CachingTTSProvider.replay, whole]
    cases chunk : (inner stream.key)[next]? with
    | some chunk =>
        refine ⟨sealed, ?_⟩
        change stream.received ++ [_] = List.take (next + 1) _
        rw [received, List.take_add_one, chunk]
        rfl
    | none =>
        change stream.received = inner stream.key
        rw [received]
        exact List.take_of_length_le (List.getElem?_eq_none_iff.mp chunk)

theorem listAt_sealed (sealed : Sealed s ref chunks) : listAt s.shared.lists ref = chunks := by
  rw [listAt, List.getD_eq_getElem?_getD, sealed.there]
  rfl

section
variable (sound : Sound inner longest m n s) (own : s.streams[i]? = some old)
  (turn : Turn inner longest s.shared old shared' new)
include sound own turn

/-- The stream whose turn it is. -/
theorem turn_own (lasts : ∀ {ref chunks}, Sealed s ref chunks →
    Sealed { shared := shared', streams := s.streams.set i new } ref chunks) :
    new.Sound inner longest { shared := shared', streams := s.streams.set i new } := by
  obtain ⟨filled, heard⟩ := sound.streams own
  cases turn with
  | hit created stored =>
      rw [created] at heard
      have sealed := (sound.stored stored).1
      exact replay (listAt_sealed sealed) (lasts sealed) heard.2
  | replayed replaying =>
      rw [replaying] at heard
      exact replay (listAt_sealed heard.1) (lasts heard.1) heard.2
  | passes created =>
      rw [created] at heard
      exact ⟨fun fills => (by cases fills), heard.2.trans heard.1.symm⟩
  | misses created short =>
      rw [created] at heard
      refine ⟨fun fills => ?_, heard.2.trans heard.1.symm⟩
      obtain rfl := Option.some.inj fills
      refine ⟨?_, short⟩
      change (s.shared.lists ++ [[]])[s.shared.lists.length]? = some old.given
      rw [heard.1]
      simp
  | resumed yielded =>
      rw [yielded] at filled heard
      exact ⟨filled, heard⟩
  | @given buf awaiting chunk =>
      rw [awaiting] at filled heard
      refine ⟨fun {ref} fills => ?_, congrArg (· ++ [chunk]) heard⟩
      obtain rfl : buf = some ref := fills
      refine (filled rfl).imp_left fun there => ?_
      change (s.shared.lists.modify ref (· ++ [chunk]))[ref]? = some (old.given ++ [chunk])
      rw [List.getElem?_modify_eq, there]
      rfl
  | filled awaiting complete =>
      rw [awaiting] at heard
      exact ⟨fun fills => (by cases fills), heard.trans complete⟩
  | aborted => exact ⟨fun fills => (by cases fills), trivial⟩

theorem turn_alone (there : s.streams[j]? = some other) (fills : new.stage.open? = some ref)
    (shares : other.stage.open? = some ref) : i = j := by
  rcases turn.opened fills with mine | fresh
  · exact sound.alone own there mine shares
  · have inside := ((sound.streams there).filled shares).1
    have bound := (List.getElem?_eq_some_iff.mp inside).1
    omega

variable (lasts : ∀ {ref chunks}, Sealed s ref chunks →
  Sealed { shared := shared', streams := s.streams.set i new } ref chunks)
include lasts

/-- A list is sealed when it is stored. -/
theorem turn_stored {key : PhraseKey} (inside : (key, ref) ∈ shared'.store.store.entries) :
    Sealed { shared := shared', streams := s.streams.set i new } ref (inner key) ∧
      key.1.length ≤ longest := by
  rcases turn.store with same | ⟨lists, got | ⟨filled, put, awaiting, ended, complete⟩⟩
  · rw [same] at inside
    exact (sound.stored inside).imp_left lasts
  · rw [got] at inside
    exact (sound.stored (mem_get.mp inside)).imp_left lasts
  · obtain ⟨entries, counts, -⟩ := sound.counted
    rw [put] at inside
    rcases counts.mem_put inside with before | same
    · exact (sound.stored before).imp_left lasts
    obtain ⟨rfl, rfl⟩ := Prod.mk.inj same
    obtain ⟨content, short⟩ := (sound.streams own).filled (congrArg Stage.open? awaiting)
    refine ⟨⟨?_, ?_⟩, short⟩
    · rwa [lists, ← complete]
    · intro j stream there fills
      rcases (getElem?_set_iff own).mp there with ⟨-, rfl⟩ | ⟨distinct, elsewhere⟩
      · rw [ended] at fills
        cases fills
      · apply distinct
        apply sound.alone elsewhere own fills
        rw [awaiting]
        rfl

omit own in
theorem turn_counted : Counted m n shared' := by
  rcases turn.store with same | ⟨lists, changed⟩
  · apply sound.counted.resize same
    rintro ⟨key, ref⟩ inside
    have sealed := (sound.stored inside).1
    exact congrArg chunksSize ((listAt_sealed (lasts sealed)).trans (listAt_sealed sealed).symm)
  · obtain ⟨entries, counts, fits⟩ := sound.counted
    rw [Counted, lists]
    rcases changed with got | ⟨ref, put, -⟩
    · rw [got]
      exact ⟨_, (counts.get old.key).2, Lru.fits_serve fits (.get old.key)⟩
    · rw [put]
      exact ⟨_, counts.put old.key ref, Lru.fits_serve fits (.put old.key ref)⟩

end

theorem call (sound : Sound inner longest m n s) (key : PhraseKey)
    (lasts : ∀ {ref chunks}, Sealed s ref chunks →
      Sealed { s with streams := s.streams ++ [{ key }] } ref chunks) :
    Sound inner longest m n { s with streams := s.streams ++ [{ key }] } := by
  constructor
  · intro j stream there
    rcases getElem?_concat_iff.mp there with before | ⟨-, rfl⟩
    · exact (sound.streams before).kept lasts fun _ content => content
    · exact ⟨fun fills => (by cases fills), rfl, rfl⟩
  · intro j k ref a b first second fills shares
    rcases getElem?_concat_iff.mp first with old | ⟨-, rfl⟩
    · rcases getElem?_concat_iff.mp second with other | ⟨-, rfl⟩
      · exact sound.alone old other fills shares
      · cases shares
    · cases fills
  · intro key ref inside
    exact (sound.stored inside).imp_left lasts
  · exact sound.counted

theorem step (sound : Sound inner longest m n s)
    (stepped : (system inner longest).step s label = some s') : Sound inner longest m n s' := by
  have lasts : ∀ {ref chunks}, Sealed s ref chunks → Sealed s' ref chunks :=
    fun sealed => sealed.step stepped
  obtain ⟨key, rfl⟩ | ⟨i, old, shared', new, own, turn, rfl⟩ := step_cases stepped
  · exact sound.call key lasts
  · constructor
    · intro j stream there
      rcases (getElem?_set_iff own).mp there with ⟨-, rfl⟩ | ⟨distinct, before⟩
      · exact sound.turn_own own turn lasts
      · apply (sound.streams before).kept lasts
        intro ref chunks fills
        apply turn.lists
        intro mine
        exact distinct (sound.alone before own fills mine)
    · intro j k ref a b first second fills shares
      rcases (getElem?_set_iff own).mp first with ⟨rfl, rfl⟩ | ⟨-, before⟩
      · rcases (getElem?_set_iff own).mp second with ⟨rfl, -⟩ | ⟨-, other⟩
        · rfl
        · exact sound.turn_alone own turn other fills shares
      · rcases (getElem?_set_iff own).mp second with ⟨rfl, rfl⟩ | ⟨-, other⟩
        · exact (sound.turn_alone own turn before shares fills).symm
        · exact sound.alone before other fills shares
    · intro key ref inside
      exact sound.turn_stored own turn lasts inside
    · exact sound.turn_counted turn lasts

theorem run {labels : List Label} (run : (system inner longest).exec (CachingTTSProvider.start m n)
    labels = some s) : Sound inner longest m n s :=
  System.invariant (fun sound stepped => sound.step stepped) run start

end Sound
end CachingTTSProvider

namespace Guarantees
open CachingTTSProvider

/-- Caching is invisible to listeners. However the streams interleave and wherever they are left, a
stream that has ended has yielded the sequence of the inner stream for its key; every stored list is
that sequence, of a phrase that is not too long, and no later step changes it. -/
theorem caching_is_invisible (inner : PhraseKey → List Bytes) (maxCacheableChars : Int)
    (maxEntries maxTotalBytes : Nat) {labels more : List Label} {s s' : State}
    (run : (system inner maxCacheableChars).exec (start maxEntries maxTotalBytes) labels = some s)
    (later : (system inner maxCacheableChars).exec s more = some s') :
    (∀ (i : Nat) (stream : CachingTTSProvider.Stream), s.streams[i]? = some stream →
      stream.stage = .ended → stream.received = inner stream.key) ∧
    ∀ (key : PhraseKey) (ref : Nat), (key, ref) ∈ s.shared.store.store.entries →
      s.shared.lists[ref]? = some (inner key) ∧ s'.shared.lists[ref]? = some (inner key) ∧
        key.1.length ≤ maxCacheableChars := by
  have sound : Sound inner maxCacheableChars maxEntries maxTotalBytes s := .run run
  constructor
  · intro i stream there ended
    have heard := (sound.streams there).heard
    rwa [ended] at heard
  · intro key ref inside
    obtain ⟨sealed, short⟩ := sound.stored inside
    have lasts : Sealed s' ref (inner key) :=
      System.invariant (J := fun s => Sealed s ref (inner key))
        (fun sealed stepped => sealed.step stepped) later sealed
    exact ⟨sealed.there, lasts.there, short⟩

/-- Two streams fill for one key, a third starts to replay the first list, and that list is replaced
in the store before the third has ended. -/
theorem replaced_list_replayed :
    let inner : PhraseKey → List Bytes := fun _ => [[1], [2]]
    let filled (i : Nat) : List Label :=
      [.stream i (.innerYields [1]), .stream i .anext, .stream i (.innerYields [2]),
        .stream i .anext, .stream i .innerEnds]
    let call : Label := .synthesizeStream ['a'] ['v']
    ∃ s, (system inner 60).exec (start 256 100)
        ([call, call, .stream 0 .anext, .stream 1 .anext] ++ filled 0 ++
          [call, .stream 2 .anext] ++ filled 1 ++ [.stream 2 .anext, .stream 2 .anext]) = some s ∧
      s.streams.map (·.stage) = [.ended, .ended, .ended] ∧
      s.shared.store.store.entries = [((['a'], ['v']), 1)] ∧
      ∀ stream, s.streams[2]? = some stream → stream.stage = .ended →
        stream.received = [[1], [2]] := by
  intro inner filled call
  refine exists_of_map (fun s => (s.streams.map (·.stage), s.shared.store.store.entries))
    ([.ended, .ended, .ended], [((['a'], ['v']), 1)]) (by decide +kernel) fun s run seen => ?_
  obtain ⟨stages, entries⟩ := Prod.mk.inj seen
  obtain ⟨heard, -⟩ := @caching_is_invisible inner 60 256 100 _ [] s s run rfl
  exact ⟨stages, entries, heard 2⟩

/-- The store counts objects that others hold. Nevertheless, however the streams interleave, its
counter is the size its lists have at any moment, and both of its bounds hold. -/
theorem cached_bytes_exact (inner : PhraseKey → List Bytes) (maxCacheableChars : Int)
    (maxEntries maxTotalBytes : Nat) {labels : List Label} {s : State}
    (run : (system inner maxCacheableChars).exec (start maxEntries maxTotalBytes) labels = some s) :
    s.shared.store.totalBytes =
      (s.shared.store.store.entries.map fun entry => listSize s.shared.lists entry.2).sum ∧
    s.shared.store.store.length ≤ maxEntries ∧ s.shared.store.totalBytes ≤ maxTotalBytes := by
  obtain ⟨_, ⟨-, -, rfl, total⟩, fits⟩ := (Sound.run run).counted
  refine ⟨total, fits.1, ?_⟩
  rw [total]
  exact Int.ofNat_le.mpr fits.2

/-- The second of two phrases evicts the first, whose list stays with its stream. -/
theorem second_phrase_counted :
    let inner : PhraseKey → List Bytes := fun key => [[1], List.replicate key.1.length 2]
    let fills (i : Nat) (text : Text) : List Label :=
      [.synthesizeStream text ['v'], .stream i .anext, .stream i (.innerYields [1]),
        .stream i .anext, .stream i (.innerYields (List.replicate text.length 2)),
        .stream i .anext, .stream i .innerEnds]
    ∃ s, (system inner 60).exec (start 1 100) (fills 0 ['a'] ++ fills 1 ['b', 'b']) = some s ∧
      s.shared.lists.map chunksSize = [2, 3] ∧ s.shared.store.totalBytes = 3 ∧
      s.shared.store.store.length ≤ 1 := by
  intro inner fills
  refine exists_of_map (fun s => (s.shared.lists.map chunksSize, s.shared.store.totalBytes))
    ([2, 3], 3) (by decide +kernel) fun s run seen => ?_
  obtain ⟨sizes, total⟩ := Prod.mk.inj seen
  exact ⟨sizes, total, (cached_bytes_exact inner 60 1 100 run).2.1⟩

end Guarantees
end IsalesEngine
