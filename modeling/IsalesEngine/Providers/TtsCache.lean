import IsalesEngine.Asyncio.System
import IsalesEngine.Binary.Struct
import IsalesEngine.Lru
import IsalesEngine.OrderedDict
import IsalesEngine.Text

/-!
The cache of synthesised phrases. `TtsCacheStore` is shared by all calls of the
process: it maps a text and a voice to the chunks of its audio, bounded by the
number of entries and by their total size. What it stores are references to lists,
whose size is computed anew whenever it is needed, so the operations here take the
size of a stored value as a parameter.

`CachingTTSProvider` puts the store before a provider. Any number of its streams
run over one store: each is an asynchronous generator that stops at every `yield`
until it is asked for the next chunk, and where it waits for its inner stream. Lists
are objects here, since the list a stream fills is the one the store then keeps and
the others iterate over.
-/
namespace IsalesEngine
open Asyncio Binary Refinement

/-- `(text, voice_id)`. -/
abbrev PhraseKey : Type := Text × Text

/-- `sum(len(c) for c in chunks)`. -/
def chunksSize (chunks : List Bytes) : Nat := (chunks.map List.length).sum

structure TtsCacheStore (V : Type) where
  maxEntries : Nat := 256
  maxTotalBytes : Nat := 32 * 2 ^ 20
  store : OrderedDict PhraseKey V := .empty
  totalBytes : Int := 0

namespace TtsCacheStore
variable {V : Type}

def get (s : TtsCacheStore V) (key : PhraseKey) : Option V × TtsCacheStore V :=
  match s.store.get? key with
  | some chunks => (some chunks, { s with store := s.store.moveToEnd key })
  | none => (none, s)

variable (size : V → Nat)

/-- The loop of `_evict`, at most `fuel` rounds of it. -/
def evictLoop : Nat → TtsCacheStore V → TtsCacheStore V
  | 0, s => s
  | fuel + 1, s =>
      match s.store.popFirst with
      | some ((_, chunks), rest) =>
          if s.maxEntries < s.store.length ∨ s.maxTotalBytes < s.totalBytes then
            evictLoop fuel { s with store := rest, totalBytes := s.totalBytes - size chunks }
          else s
      | none => s

/-- Every round takes an entry out, so there are no more rounds than entries. -/
def evict (s : TtsCacheStore V) : TtsCacheStore V := evictLoop size s.store.length s

/-- The first statement of `put`. -/
def forget (s : TtsCacheStore V) (key : PhraseKey) : TtsCacheStore V :=
  match s.store.get? key with
  | some old =>
      { s with totalBytes := s.totalBytes - size old, store := s.store.delete key }
  | none => s

variable {size} in
theorem keys_forget {s : TtsCacheStore V} {key : PhraseKey} :
    key ∉ (s.forget size key).store.keys := by
  rw [forget]
  split
  · exact OrderedDict.not_mem_keys_delete _ key
  · rename_i missing
    exact OrderedDict.get?_eq_none.mp missing

def insert (s : TtsCacheStore V) (key : PhraseKey) (chunks : V) : TtsCacheStore V :=
  { s with store := s.store.set key chunks, totalBytes := s.totalBytes + size chunks }

def put (s : TtsCacheStore V) (key : PhraseKey) (chunks : V) : TtsCacheStore V :=
  let s := s.forget size key
  if s.maxTotalBytes < size chunks then s else evict size (s.insert size key chunks)

def serve (s : TtsCacheStore V) : Lru.Request PhraseKey V → Lru.Answer V × TtsCacheStore V
  | .get key =>
      let (chunks, s) := s.get key
      (.value chunks, s)
  | .put key chunks => (.done, s.put size key chunks)
  | .length => (.number s.store.length, s)
  | .weight => (.number s.totalBytes, s)

def object : Object (TtsCacheStore V) (Lru.Request PhraseKey V) (Lru.Answer V) where
  step := serve size

end TtsCacheStore
namespace CachingTTSProvider

/-- Where a call of `synthesize_stream` is. -/
inductive Stage where
  /-- Nothing of it has run. -/
  | created
  /-- At the `yield` of the loop over `hit`, whose iterator stands at `next`. -/
  | replaying (hit next : Nat)
  /-- Waits for the inner stream, in the loop with `buf` or in the one that passes through. -/
  | awaiting (buf : Option Nat)
  /-- At the `yield` of that loop. -/
  | yielded (buf : Option Nat)
  /-- Returned. -/
  | ended
  /-- Left by an exception, which may be a cancellation or a close. -/
  | aborted
  deriving DecidableEq, Repr

/-- The chunks its inner stream has given and the chunks it has yielded are recorded. -/
structure Stream where
  key : PhraseKey
  stage : Stage := .created
  given : List Bytes := []
  received : List Bytes := []
  deriving DecidableEq, Repr

/-- The list objects, and the store that refers to them by their position. -/
structure Shared where
  lists : List (List Bytes) := []
  store : TtsCacheStore Nat

structure State where
  shared : Shared
  streams : List Stream := []

def start (maxEntries maxTotalBytes : Nat) : State where
  shared := { store := { maxEntries, maxTotalBytes } }

def listAt (lists : List (List Bytes)) (ref : Nat) : List Bytes := lists.getD ref []

def listSize (lists : List (List Bytes)) (ref : Nat) : Nat := chunksSize (listAt lists ref)

/-- The next round of the loop over `hit`, which looks at the list as it is now. -/
def replay (lists : List (List Bytes)) (stream : Stream) (hit next : Nat) : Stream :=
  match (listAt lists hit)[next]? with
  | some chunk =>
      { stream with stage := .replaying hit (next + 1), received := stream.received ++ [chunk] }
  | none => { stream with stage := .ended }

/-- The body up to its first `yield` or `await`. -/
def begin (maxCacheableChars : Int) (shared : Shared) (stream : Stream) : Shared × Stream :=
  let (hit, store) := shared.store.get stream.key
  match hit with
  | some hit => ({ shared with store }, replay shared.lists stream hit 0)
  | none =>
      if maxCacheableChars < stream.key.1.length then
        ({ shared with store }, { stream with stage := .awaiting none })
      else
        ({ lists := shared.lists ++ [[]], store },
          { stream with stage := .awaiting (some shared.lists.length) })

/-- `buf.append(chunk)`, in the loop that has a `buf`. -/
def append (shared : Shared) (buf : Option Nat) (chunk : Bytes) : Shared :=
  match buf with
  | some buf => { shared with lists := shared.lists.modify buf (· ++ [chunk]) }
  | none => shared

/-- What comes after the loop. -/
def fill (shared : Shared) (key : PhraseKey) (buf : Option Nat) : Shared :=
  match buf with
  | some buf => { shared with store := shared.store.put (listSize shared.lists) key buf }
  | none => shared

/-- What can happen to a stream. -/
inductive Event where
  /-- It is asked for the next chunk. -/
  | anext
  | innerYields (chunk : Bytes)
  | innerEnds
  /-- The inner stream fails, or the task that waits for it is cancelled. -/
  | innerRaises
  /-- It is closed, or an exception is thrown into it. -/
  | aclose

/-- An inner stream that ends has given all of its chunks. -/
def react (inner : PhraseKey → List Bytes) (maxCacheableChars : Int) (shared : Shared)
    (stream : Stream) : Event → Option (Shared × Stream)
  | .anext =>
      match stream.stage with
      | .created => some (begin maxCacheableChars shared stream)
      | .replaying hit next => some (shared, replay shared.lists stream hit next)
      | .yielded buf => some (shared, { stream with stage := .awaiting buf })
      | .awaiting _ | .ended | .aborted => none
  | .innerYields chunk =>
      match stream.stage with
      | .awaiting buf =>
          some (append shared buf chunk,
            { stream with
              stage := .yielded buf
              given := stream.given ++ [chunk]
              received := stream.received ++ [chunk] })
      | _ => none
  | .innerEnds =>
      match stream.stage with
      | .awaiting buf =>
          if stream.given = inner stream.key then
            some (fill shared stream.key buf, { stream with stage := .ended })
          else none
      | _ => none
  | .innerRaises =>
      match stream.stage with
      | .awaiting _ => some (shared, { stream with stage := .aborted })
      | _ => none
  | .aclose =>
      match stream.stage with
      | .created | .replaying _ _ | .yielded _ => some (shared, { stream with stage := .aborted })
      | .awaiting _ | .ended | .aborted => none

inductive Label where
  | synthesizeStream (text voiceId : Text)
  | stream (i : Nat) (event : Event)

def step (inner : PhraseKey → List Bytes) (maxCacheableChars : Int) (s : State) :
    Label → Option State
  | .synthesizeStream text voiceId =>
      some { s with streams := s.streams ++ [{ key := (text, voiceId) }] }
  | .stream i event =>
      s.streams[i]?.bind fun stream =>
        (react inner maxCacheableChars s.shared stream event).map fun (shared, stream) =>
          { shared, streams := s.streams.set i stream }

def system (inner : PhraseKey → List Bytes) (maxCacheableChars : Int) : System State Label where
  step := step inner maxCacheableChars

end CachingTTSProvider
end IsalesEngine
