import Mathlib.Data.List.Basic
import IsalesEngine.Asyncio.System

/-!
Token usage of streamed replies. The registry gives streams with the same provider
and model the same client. A stream resets the client's counters when its request
starts, overwrites them with the usage its response reports, and reads them after
the response has been closed, which takes further awaits. The counters are those of
whichever stream wrote last, so a stream reads its own usage exactly if that stream
has reported the same.
-/
namespace IsalesEngine
open Asyncio

/-- The usage of a response, an entry that is not an integer being `none`. -/
structure TokenUsage where
  promptTokens : Option Int := none
  completionTokens : Option Int := none
  deriving DecidableEq, Repr

namespace TokenUsage

/-- What a stream takes over: `last_call_tokens_in or 0` and `last_call_tokens_out or 0`. -/
def tokens (u : TokenUsage) : Int × Int := (u.promptTokens.getD 0, u.completionTokens.getD 0)

end TokenUsage

/-- A client with its counters. Which stream wrote them last is a history variable. -/
structure UsageClient where
  lastCallTokens : TokenUsage := {}
  writer : Option Nat := none
  deriving DecidableEq, Repr

inductive UsageStage where
  | created
  | streaming
  | unwinding
  | finished
  deriving DecidableEq, Repr

/-- A stream on its client. What its own response has reported is a history variable. -/
structure UsageStream where
  client : Nat
  stage : UsageStage := .created
  reported : TokenUsage := {}
  tokens : Int × Int := (0, 0)
  deriving DecidableEq, Repr

/-- The clients, the first being the default, the registry's cache, and the streams. -/
structure UsageRegistry where
  clients : List UsageClient := [{}]
  cache : List ((String × Option String) × Nat) := []
  streams : List UsageStream := []
  deriving DecidableEq, Repr

/-- A stream is set up, with a client that can or cannot be built. Its request starts, it reads a
line with or without usage, its response ends or fails, and it reads the counters. -/
inductive UsageStep where
  | setUp (provider model : Option String) (built : Bool)
  | start (stream : Nat)
  | line (stream : Nat) (usage : Option TokenUsage)
  | responseEnds (stream : Nat)
  | finish (stream : Nat)
  deriving DecidableEq, Repr

namespace UsageRegistry

/-- The client for a provider and a model, which is built at most once for each. -/
def resolve (s : UsageRegistry) (provider model : Option String) (built : Bool) :
    Nat × UsageRegistry :=
  match provider with
  | none | some "" => (0, s)
  | some provider => match s.cache.lookup (provider, model) with
      | some k => (k, s)
      | none =>
          if built then
            (s.clients.length,
              { s with
                clients := s.clients ++ [{}]
                cache := ((provider, model), s.clients.length) :: s.cache })
          else (0, { s with cache := ((provider, model), 0) :: s.cache })

def setUp (s : UsageRegistry) (provider model : Option String) (built : Bool) : UsageRegistry :=
  let resolved := s.resolve provider model built
  { resolved.2 with streams := resolved.2.streams ++ [{ client := resolved.1 }] }

/-- Stream `i` writes the counters of its client. -/
def write (s : UsageRegistry) (i : Nat) (t : UsageStream) (usage : TokenUsage) : UsageRegistry :=
  { s with
    clients := s.clients.set t.client ⟨usage, some i⟩
    streams := s.streams.set i { t with stage := .streaming, reported := usage } }

def setStream (s : UsageRegistry) (i : Nat) (t : UsageStream) : UsageRegistry :=
  { s with streams := s.streams.set i t }

def step (s : UsageRegistry) : UsageStep → Option UsageRegistry
  | .setUp provider model built => some (s.setUp provider model built)
  | .start i => match s.streams[i]? with
      | some t => if t.stage = .created then some (s.write i t {}) else none
      | none => none
  | .line i usage => match s.streams[i]? with
      | some t =>
          if t.stage = .streaming then
            some (match usage with
              | some usage => s.write i t usage
              | none => s)
          else none
      | none => none
  | .responseEnds i => match s.streams[i]? with
      | some t =>
          if t.stage = .streaming then some (s.setStream i { t with stage := .unwinding }) else none
      | none => none
  | .finish i => match s.streams[i]? with
      | some t => match s.clients[t.client]? with
          | some c =>
              if t.stage = .unwinding then
                some (s.setStream i
                  { t with stage := .finished, tokens := c.lastCallTokens.tokens })
              else none
          | none => none
      | none => none

def system : System UsageRegistry UsageStep := ⟨step⟩

/-- Every stream that has run to completion has taken over what its own response reported. -/
def Attributed (s : UsageRegistry) : Prop :=
  ∀ (i : Nat) (t : UsageStream), s.streams[i]? = some t → t.stage = .finished →
    t.tokens = t.reported.tokens

/-- The usage reported so far by the stream that last wrote the counters of a client. -/
def lastReport (s : UsageRegistry) (client : Nat) : Option TokenUsage := do
  let c ← s.clients[client]?
  let w ← c.writer
  let t ← s.streams[w]?
  some t.reported

/-- A stream reads the counters while the last stream to write them, itself or another one, has
reported the same usage. -/
def careful (s : UsageRegistry) : UsageStep → Bool
  | .finish i => s.streams[i]?.all fun t =>
      (s.lastReport t.client).all fun usage => usage.tokens == t.reported.tokens
  | _ => true

/-- Clients hold what their last writer has reported, and a stream that has started has a client
that was written. -/
structure Owned (s : UsageRegistry) : Prop where
  fallback : 0 < s.clients.length
  cached : ∀ (key : String × Option String) (k : Nat), s.cache.lookup key = some k →
    k < s.clients.length
  resolved : ∀ (i : Nat) (t : UsageStream), s.streams[i]? = some t → t.client < s.clients.length
  started : ∀ (i : Nat) (t : UsageStream) (c : UsageClient), s.streams[i]? = some t →
    s.clients[t.client]? = some c → t.stage ≠ .created → c.writer.isSome = true
  counters : ∀ (k w : Nat) (c : UsageClient), s.clients[k]? = some c → c.writer = some w →
    ∃ t, s.streams[w]? = some t ∧ t.client = k ∧ t.reported = c.lastCallTokens

variable {s s' : UsageRegistry} {i : Nat} {t : UsageStream}

namespace Owned
variable (owned : s.Owned)
include owned

theorem lastReport {c : UsageClient} (own : s.streams[i]? = some t)
    (client : s.clients[t.client]? = some c) (begun : t.stage ≠ .created) :
    s.lastReport t.client = some c.lastCallTokens := by
  obtain ⟨w, writer⟩ := Option.isSome_iff_exists.mp (owned.started i t c own client begun)
  obtain ⟨t', other, _, reported⟩ := owned.counters t.client w c client writer
  simp [UsageRegistry.lastReport, client, writer, other, reported]

/-- A client is remembered in the cache. -/
theorem remember (key : String × Option String) {k : Nat} (built : k < s.clients.length) :
    Owned { s with cache := (key, k) :: s.cache } := by
  refine ⟨owned.fallback, ?_, owned.resolved, owned.started, owned.counters⟩
  intro key' k' found
  by_cases same : key' = key
  · subst same
    rw [List.lookup_cons_self] at found
    exact Option.some.inj found ▸ built
  · rw [List.lookup_cons, beq_eq_false_iff_ne.mpr same] at found
    exact owned.cached key' k' found

/-- A client is built. -/
theorem build : Owned { s with clients := s.clients ++ [{}] } := by
  have longer : (s.clients ++ [({} : UsageClient)]).length = s.clients.length + 1 := by simp
  refine ⟨?_, ?_, ?_, ?_, ?_⟩
  · exact longer ▸ Nat.succ_pos _
  · intro key k found
    exact longer ▸ Nat.lt_succ_of_lt (owned.cached key k found)
  · intro i t own
    exact longer ▸ Nat.lt_succ_of_lt (owned.resolved i t own)
  · intro i t c own client begun
    obtain client | ⟨beyond, _⟩ := getElem?_concat_iff.mp client
    · exact owned.started i t c own client begun
    · exact absurd beyond (Nat.ne_of_lt (owned.resolved i t own))
  · intro k w c client writer
    obtain client | ⟨_, rfl⟩ := getElem?_concat_iff.mp client
    · exact owned.counters k w c client writer
    · exact nomatch writer

theorem resolve (provider model : Option String) (built : Bool) :
    (s.resolve provider model built).2.Owned ∧
      (s.resolve provider model built).1 < (s.resolve provider model built).2.clients.length := by
  unfold UsageRegistry.resolve
  split
  · exact ⟨owned, owned.fallback⟩
  · exact ⟨owned, owned.fallback⟩
  · next provider _ =>
      cases found : s.cache.lookup (provider, model) with
      | some k => exact ⟨owned, owned.cached _ k found⟩
      | none =>
          cases built with
          | true =>
              have inside : s.clients.length < (s.clients ++ [({} : UsageClient)]).length := by simp
              exact ⟨owned.build.remember _ inside, inside⟩
          | false => exact ⟨owned.remember _ owned.fallback, owned.fallback⟩

theorem setUp (provider model : Option String) (built : Bool) :
    (s.setUp provider model built).Owned := by
  obtain ⟨owned, inside⟩ := owned.resolve provider model built
  refine ⟨owned.fallback, owned.cached, ?_, ?_, ?_⟩
  · intro i t own
    obtain own | ⟨_, rfl⟩ := getElem?_concat_iff.mp own
    · exact owned.resolved i t own
    · exact inside
  · intro i t c own client begun
    obtain own | ⟨_, rfl⟩ := getElem?_concat_iff.mp own
    · exact owned.started i t c own client begun
    · exact absurd rfl begun
  · intro k w c client writer
    obtain ⟨t, own, same, reported⟩ := owned.counters k w c client writer
    exact ⟨t, getElem?_concat_iff.mpr (Or.inl own), same, reported⟩

theorem write (own : s.streams[i]? = some t) (usage : TokenUsage) : (s.write i t usage).Owned := by
  obtain ⟨old, client⟩ : ∃ c, s.clients[t.client]? = some c :=
    ⟨_, List.getElem?_eq_getElem (owned.resolved i t own)⟩
  refine ⟨?_, ?_, ?_, ?_, ?_⟩
  · simpa [UsageRegistry.write] using owned.fallback
  · simpa [UsageRegistry.write] using owned.cached
  · intro j t' held
    simp only [UsageRegistry.write, List.length_set]
    obtain ⟨rfl, rfl⟩ | ⟨_, held⟩ := (getElem?_set_iff own).mp held
    · exact owned.resolved j t own
    · exact owned.resolved j t' held
  · intro j t' c held at' begun
    obtain ⟨_, rfl⟩ | ⟨apart, at'⟩ := (getElem?_set_iff client).mp at'
    · rfl
    · obtain ⟨rfl, rfl⟩ | ⟨_, held⟩ := (getElem?_set_iff own).mp held
      · exact absurd rfl apart
      · exact owned.started j t' c held at' begun
  · intro k w c at' writer
    obtain ⟨rfl, rfl⟩ | ⟨apart, at'⟩ := (getElem?_set_iff client).mp at'
    · obtain rfl := Option.some.inj writer
      exact ⟨_, (getElem?_set_iff own).mpr (Or.inl ⟨rfl, rfl⟩), rfl, rfl⟩
    · obtain ⟨t', held, same, reported⟩ := owned.counters k w c at' writer
      have other : w ≠ i := by
        rintro rfl
        obtain rfl := Option.some.inj (own.symm.trans held)
        exact apart same.symm
      exact ⟨t', (getElem?_set_iff own).mpr (Or.inr ⟨other, held⟩), same, reported⟩

/-- A stream moves on without writing. -/
theorem setStream {t' : UsageStream} (own : s.streams[i]? = some t) (begun : t.stage ≠ .created)
    (client : t'.client = t.client) (reported : t'.reported = t.reported) :
    (s.setStream i t').Owned := by
  refine ⟨owned.fallback, owned.cached, ?_, ?_, ?_⟩
  · intro j u held
    obtain ⟨rfl, rfl⟩ | ⟨_, held⟩ := (getElem?_set_iff own).mp held
    · exact client ▸ owned.resolved j t own
    · exact owned.resolved j u held
  · intro j u c held at' later
    obtain ⟨rfl, rfl⟩ | ⟨_, held⟩ := (getElem?_set_iff own).mp held
    · exact owned.started j t c own (client ▸ at') begun
    · exact owned.started j u c held at' later
  · intro k w c at' writer
    obtain ⟨u, held, same, usage⟩ := owned.counters k w c at' writer
    by_cases mine : w = i
    · subst mine
      obtain rfl := Option.some.inj (own.symm.trans held)
      exact ⟨t', (getElem?_set_iff own).mpr (Or.inl ⟨rfl, rfl⟩), client.trans same,
        reported.trans usage⟩
    · exact ⟨u, (getElem?_set_iff own).mpr (Or.inr ⟨mine, held⟩), same, usage⟩

end Owned

theorem resolve_streams (s : UsageRegistry) (provider model : Option String) (built : Bool) :
    (s.resolve provider model built).2.streams = s.streams := by
  unfold UsageRegistry.resolve
  split
  · rfl
  · rfl
  · split
    · rfl
    · split <;> rfl

/-- Attribution is not touched while the stream that changes has not finished. -/
theorem attributed_set (attributed : s.Attributed) (own : s.streams[i]? = some t)
    {streams : List UsageStream} {t' : UsageStream} (changed : streams = s.streams.set i t')
    (mine : t'.stage = .finished → t'.tokens = t'.reported.tokens) (j : Nat) (u : UsageStream)
    (held : streams[j]? = some u) (finished : u.stage = .finished) :
    u.tokens = u.reported.tokens := by
  rw [changed] at held
  obtain ⟨_, rfl⟩ | ⟨_, held⟩ := (getElem?_set_iff own).mp held
  · exact mine finished
  · exact attributed j u held finished

/-- One section keeps the counters' owner, and keeps attribution if and only if it is a careful
one. -/
theorem step_attributed {label : UsageStep} (owned : s.Owned) (attributed : s.Attributed)
    (stepped : step s label = some s') : s'.Owned ∧ (careful s label = true ↔ s'.Attributed) := by
  cases label with
  | setUp provider model built =>
      obtain rfl := Option.some.inj stepped
      refine ⟨owned.setUp provider model built, fun _ => ?_, fun _ => rfl⟩
      intro i t own finished
      obtain own | ⟨_, rfl⟩ := getElem?_concat_iff.mp own
      · have same := congrArg (fun streams => streams[i]?) (resolve_streams s provider model built)
        exact attributed i t (same.symm.trans own) finished
      · exact nomatch finished
  | start i =>
      cases own : s.streams[i]? with
      | none => simp [step, own] at stepped
      | some t =>
          simp only [step, own] at stepped
          obtain ⟨_, rfl⟩ := of_guard stepped
          exact ⟨owned.write own {}, fun _ => attributed_set attributed own rfl nofun, fun _ => rfl⟩
  | line i usage =>
      cases own : s.streams[i]? with
      | none => simp [step, own] at stepped
      | some t =>
          simp only [step, own] at stepped
          obtain ⟨_, rfl⟩ := of_guard stepped
          cases usage with
          | none => exact ⟨owned, fun _ => attributed, fun _ => rfl⟩
          | some usage =>
              exact ⟨owned.write own usage, fun _ => attributed_set attributed own rfl nofun,
                fun _ => rfl⟩
  | responseEnds i =>
      cases own : s.streams[i]? with
      | none => simp [step, own] at stepped
      | some t =>
          simp only [step, own] at stepped
          obtain ⟨streaming, rfl⟩ := of_guard stepped
          have begun : t.stage ≠ .created := by simp [streaming]
          exact ⟨owned.setStream own begun rfl rfl,
            fun _ => attributed_set attributed own rfl nofun, fun _ => rfl⟩
  | finish i =>
      cases own : s.streams[i]? with
      | none => simp [step, own] at stepped
      | some t =>
          cases client : s.clients[t.client]? with
          | none => simp [step, own, client] at stepped
          | some c =>
              simp only [step, own, client] at stepped
              obtain ⟨unwinding, rfl⟩ := of_guard stepped
              have begun : t.stage ≠ .created := by simp [unwinding]
              refine ⟨owned.setStream own begun rfl rfl, ?_⟩
              simp only [careful, own, Option.all_some, owned.lastReport own client begun,
                beq_iff_eq]
              constructor
              · intro same
                exact attributed_set attributed own rfl fun _ => same
              · intro attributed'
                exact attributed' i _ ((getElem?_set_iff own).mpr (Or.inl ⟨rfl, rfl⟩)) rfl

end UsageRegistry

namespace Guarantees
open Asyncio UsageRegistry

/-- Streams over shared clients take over their own usage throughout a run if and only if each reads
the counters while the stream that wrote them last has reported the same usage. -/
theorem usage_attributed_iff (steps : List UsageStep) (s : UsageRegistry)
    (run : system.exec {} steps = some s) :
    (system.restrict careful).exec {} steps = some s ↔
      ∀ before t, before <+: steps → system.exec {} before = some t → t.Attributed := by
  have owned : Owned {} := by
    refine ⟨Nat.one_pos, ?_, ?_, ?_, ?_⟩
    · intro key k found
      simp at found
    · intro i t own
      simp at own
    · intro i t c own
      simp at own
    · intro k w c client writer
      obtain rfl : c = {} := List.mem_singleton.mp (List.mem_of_getElem? client)
      simp at writer
  have fresh : Attributed {} := by
    intro i t own
    simp at own
  refine System.exec_restrict_iff (J := fun s => s.Owned ∧ s.Attributed) (P := Attributed) ?_ ?_
    ⟨owned, fresh⟩ fresh run
  · intro s label s' sound allowed stepped
    obtain ⟨owned, kept⟩ := step_attributed sound.1 sound.2 stepped
    exact ⟨owned, kept.mp allowed⟩
  · intro s label s' sound stepped
    exact (step_attributed sound.1 sound.2 stepped).2

/-- Two streams share a client and run one after the other; the second reports nothing. -/
theorem sequential_streams_attributed :
    ∃ s, system.exec {} [.setUp (some "ark") none true, .setUp (some "ark") none true,
      .start 0, .line 0 (some ⟨some 10, some 5⟩), .responseEnds 0, .finish 0, .start 1,
      .responseEnds 1, .finish 1] = some s ∧ s.Attributed ∧
      s.streams.map (fun t => t.tokens) = [(10, 5), (0, 0)] := by
  refine exists_of_map (fun s => s.streams.map fun t => t.tokens) [(10, 5), (0, 0)] (by decide)
    fun s run tokens => ?_
  have allowed := System.restrict_exec careful run (by decide)
  have attributed := (usage_attributed_iff _ s run).mp allowed _ s List.prefix_rfl run
  exact ⟨attributed, tokens⟩

/-- Two streams of one turn overlap on a client: the first takes over the usage of the second. -/
theorem overlapping_streams_misattributed :
    ∃ s, system.exec {} [.setUp (some "ark") none true, .setUp (some "ark") none true,
      .start 0, .start 1, .line 0 (some ⟨some 10, some 5⟩), .line 1 (some ⟨some 20, some 7⟩),
      .responseEnds 0, .finish 0] = some s ∧ ¬ s.Attributed ∧
      s.streams.map (fun t => t.tokens) = [(20, 7), (0, 0)] := by
  refine ⟨_, rfl, fun attributed => ?_, rfl⟩
  exact absurd (attributed 0 _ rfl rfl) (by decide)

end Guarantees
end IsalesEngine
