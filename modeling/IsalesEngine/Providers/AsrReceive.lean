import Mathlib.Data.List.Induction
import Mathlib.Data.List.Nodup
import Mathlib.Data.Rat.Defs
import IsalesEngine.Providers.AsrFrame

/-!
The receive loop of a recogniser connection. A binary message is decoded, its
payload read as JSON, and every utterance of the response yields one result. A
final is dropped when text and time in whole milliseconds are those of the final
before it, and of that one only. An end time `int` cannot convert makes the
response fail as a whole and ends the loop, as does an error frame.
-/
namespace IsalesEngine
namespace Providers
open Binary

/-- A number as `json.loads` returns it; infinities and NaN are `nonFinite`. -/
inductive JsonNumber where
  | int (n : Int)
  | float (q : Rat)
  | nonFinite

inductive Json where
  | null
  | bool (b : Bool)
  | number (n : JsonNumber)
  | string (t : Text)
  | array (items : List Json)
  | object (fields : List (Text × Json))

namespace Json

/-- `fields.get(key)`, with `None` for a key that is missing. -/
def get (fields : List (Text × Json)) (key : Text) : Json := (fields.lookup key).getD .null

/-- `bool(x)`. -/
def truthy : Json → Bool
  | .null => false
  | .bool b => b
  | .number (.int n) => n != 0
  | .number (.float q) => q != 0
  | .number .nonFinite => true
  | .string t => !t.isEmpty
  | .array items => !items.isEmpty
  | .object fields => !fields.isEmpty

end Json

/-- An `end_time`: milliseconds, a number that is not finite, or not a number. -/
inductive EndTime where
  | ms (q : Rat)
  | nonFinite
  | missing
  deriving DecidableEq, Repr

/-- `isinstance(end_ms, int | float)` holds of truth values, too. -/
def Json.endTime : Json → EndTime
  | .number (.int n) => .ms n
  | .number (.float q) => .ms q
  | .number .nonFinite => .nonFinite
  | .bool b => .ms (if b then 1 else 0)
  | _ => .missing

/-- `endTime` is a history variable: what the vendor gave with the utterance. -/
structure AsrResult where
  text : Text
  isFinal : Bool
  timestampMs : Int
  endTime : EndTime
  deriving DecidableEq, Repr

/-- A response with the readings of the clock while its utterances are parsed. -/
structure V3Response where
  data : Json
  clock : Nat → Int

/-- The end time towards zero, refused for infinities and NaN, or the clock where there is none. -/
def timestampMs (now : Int) : EndTime → Option Int
  | .ms q => some (q.num.tdiv q.den)
  | .nonFinite => none
  | .missing => some now

/-- Text, definiteness and end time of an utterance that has a text. -/
def utteranceOf : Json → Option (Text × Bool × EndTime)
  | .object utt => match Json.get utt "text".toList with
      | .string text =>
          if text.isEmpty then none
          else some (text, (Json.get utt "definite".toList).truthy,
            (Json.get utt "end_time".toList).endTime)
      | _ => none
  | _ => none

/-- The result of an utterance, if it has a text; `none` when the end time is refused. -/
def parseUtterance (now : Int) (utt : Json) : Option (List AsrResult) :=
  match utteranceOf utt with
  | some (text, isFinal, endTime) =>
      (timestampMs now endTime).map fun t => [{ text, isFinal, timestampMs := t, endTime }]
  | none => some []

def parseUtterances (clock : Nat → Int) : Nat → List Json → Option (List AsrResult)
  | _, [] => some []
  | i, utt :: utts => do
      let here ← parseUtterance (clock i) utt
      let rest ← parseUtterances clock (i + 1) utts
      return here ++ rest

/-- The utterances of a response; `none` if it has no result that is an object. -/
def V3Response.result (response : V3Response) : Option (List (Text × Json)) :=
  match response.data with
  | .object fields => match Json.get fields "result".toList with
      | .object result => some result
      | _ => none
  | _ => none

def V3Response.utterances (response : V3Response) : List Json :=
  match response.result with
  | some result => match Json.get result "utterances".toList with
      | .array utts => utts
      | _ => []
  | none => []

/-- The aggregate text, a partial result that stands in for missing utterances. -/
def V3Response.aggregate (response : V3Response) : List AsrResult :=
  match response.result with
  | some result => match Json.get result "text".toList with
      | .string text =>
          if text.isEmpty then []
          else [{ text, isFinal := false, timestampMs := response.clock 0, endTime := .missing }]
      | _ => []
  | none => []

def parseV3Response (response : V3Response) : Option (List AsrResult) :=
  match response.utterances with
  | [] => some response.aggregate
  | utts => parseUtterances response.clock 0 utts

/-- What the loop has yielded, and the text and time of the last final. -/
structure AsrReceiver where
  lastFinalSig : Option (Text × Int) := none
  yielded : List AsrResult := []
  deriving DecidableEq, Repr

/-- Why the loop ended early. -/
inductive ReceiveError where
  | structError
  | providerInvalidRequest (message : Text) (vendorCode : Option Int)
  | badEndTime
  deriving DecidableEq, Repr

inductive WsMessage where
  | text
  | binary (raw : Bytes)
  deriving DecidableEq, Repr

/-- Decompression, JSON, and the text of an error payload. -/
structure AsrCodecs where
  gunzip : Bytes → Option Bytes
  loads : Bytes → Option Json
  decodeReplace : Bytes → Text

namespace AsrReceiver

def deliver (r : AsrReceiver) (result : AsrResult) : AsrReceiver :=
  if result.isFinal then
    if r.lastFinalSig = some (result.text, result.timestampMs) then r
    else {
      lastFinalSig := some (result.text, result.timestampMs), yielded := r.yielded ++ [result] }
  else { r with yielded := r.yielded ++ [result] }

/-- `volcengine_asr error code=… message=…`. -/
def errorText (codecs : AsrCodecs) (frame : AsrFrame) : Text :=
  "volcengine_asr error code=".toList ++
    (frame.errorCode.elim "None".toList fun code => (toString code).toList) ++
    " message=".toList ++
    (if frame.payload.isEmpty then [] else codecs.decodeReplace frame.payload)

/-- The JSON of a message, if it carries a response; bad frames and payloads are skipped. -/
def payloadOf (codecs : AsrCodecs) : WsMessage → Except ReceiveError (Option Json)
  | .text => .ok none
  | .binary raw => match AsrFrame.decodeFrame codecs.gunzip raw with
      | .error (.valueError _) => .ok none
      | .error .structError => .error .structError
      | .ok frame =>
          if frame.msgType = AsrFrame.msgErrorResponse then
            .error (.providerInvalidRequest (errorText codecs frame) frame.errorCode)
          else if frame.msgType ≠ AsrFrame.msgFullServerResponse ∨ frame.payload = [] then .ok none
          else .ok (codecs.loads frame.payload)

/-- The loop, over messages with the readings of the clock while they are handled. -/
def receive (codecs : AsrCodecs) :
    AsrReceiver → List (WsMessage × (Nat → Int)) → AsrReceiver × Option ReceiveError
  | r, [] => (r, none)
  | r, (message, clock) :: messages => match payloadOf codecs message with
      | .error error => (r, some error)
      | .ok none => receive codecs r messages
      | .ok (some data) => match parseV3Response { data, clock } with
          | some results => receive codecs (results.foldl deliver r) messages
          | none => (r, some .badEndTime)

/-- The responses on a connection, up to a message that ends it. -/
def responses (codecs : AsrCodecs) : List (WsMessage × (Nat → Int)) → List V3Response
  | [] => []
  | (message, clock) :: messages => match payloadOf codecs message with
      | .error _ => []
      | .ok none => responses codecs messages
      | .ok (some data) => { data, clock } :: responses codecs messages

/-- The results of the responses before the first one that cannot be parsed. -/
def heard : List V3Response → List AsrResult
  | [] => []
  | response :: responses => match parseV3Response response with
      | some results => results ++ heard responses
      | none => []

/-- The responses from the first one on that cannot be parsed. -/
def unheard : List V3Response → List V3Response
  | [] => []
  | response :: responses => match parseV3Response response with
      | some _ => unheard responses
      | none => response :: responses

theorem receive_eq (codecs : AsrCodecs) (messages : List (WsMessage × (Nat → Int)))
    (r : AsrReceiver) :
    (receive codecs r messages).1 = (heard (responses codecs messages)).foldl deliver r := by
  induction messages generalizing r with
  | nil => rfl
  | cons entry messages ih =>
      obtain ⟨message, clock⟩ := entry
      rw [receive, responses]
      cases payloadOf codecs message with
      | error error => rfl
      | ok payload =>
          cases payload with
          | none => exact ih r
          | some data =>
              simp only [heard]
              cases parseV3Response { data, clock } with
              | none => rfl
              | some results =>
                  simp only [List.foldl_append]
                  exact ih _

def sig (r : AsrResult) : Text × Int := (r.text, r.timestampMs)

/-- Text and end time, as the vendor gave them. -/
def key (r : AsrResult) : Text × EndTime := (r.text, r.endTime)

def finals (results : List AsrResult) : List (Text × EndTime) :=
  (results.filter AsrResult.isFinal).map key

/-- Text and timestamp of the last final. -/
def lastSig (results : List AsrResult) : Option (Text × Int) :=
  (results.filter AsrResult.isFinal).getLast?.map sig

variable {results xs : List AsrResult} {result x : AsrResult} {r : AsrReceiver}

theorem finals_append (front back : List AsrResult) :
    finals (front ++ back) = finals front ++ finals back := by
  simp [finals]

theorem mem_finals {u : Text × EndTime} :
    u ∈ finals results ↔ ∃ y ∈ results, y.isFinal = true ∧ key y = u := by
  simp [finals, and_assoc]

theorem eraseDups_concat : (results ++ [result]).eraseDups =
      if result ∈ results then results.eraseDups else results.eraseDups ++ [result] := by
  rw [List.eraseDups_append]
  split
  · next member => simp [List.removeAll, member]
  · next absent => simp [List.removeAll, absent, List.eraseDups_cons]

theorem eraseDups_prefix (front back : List AsrResult) :
    front.eraseDups <+: (front ++ back).eraseDups := by
  rw [List.eraseDups_append]
  exact List.prefix_append _ _

/-- The loop drops the result. -/
def Drops (r : AsrReceiver) (x : AsrResult) : Prop :=
  x.isFinal = true ∧ r.lastFinalSig = some (sig x)

theorem deliver_of_drops (drops : r.Drops x) : r.deliver x = r := by
  unfold deliver
  rw [if_pos drops.1, if_pos (by exact drops.2)]

theorem deliver_of_yields (yields : ¬ r.Drops x) : r.deliver x =
    ⟨if x.isFinal then some (sig x) else r.lastFinalSig, r.yielded ++ [x]⟩ := by
  unfold deliver
  split
  · next final => exact if_neg fun same => yields ⟨final, same⟩
  · rfl

theorem yielded_prefix (xs : List AsrResult) (r : AsrReceiver) :
    r.yielded <+: (xs.foldl deliver r).yielded := by
  induction xs generalizing r with
  | nil => exact List.prefix_rfl
  | cons x xs ih =>
      refine List.IsPrefix.trans ?_ (ih (r.deliver x))
      by_cases drops : r.Drops x
      · exact ⟨[], by rw [deliver_of_drops drops, List.append_nil]⟩
      · rw [deliver_of_yields drops]
        exact List.prefix_append _ _

theorem foldl_deliver (results : List AsrResult) :
    (results.foldl deliver {}).lastFinalSig = lastSig results ∧
      (results.foldl deliver {}).yielded ⊆ results := by
  induction results using List.reverseRecOn with
  | nil => exact ⟨rfl, List.Subset.refl _⟩
  | append_singleton results x ih =>
      rw [List.foldl_concat]
      by_cases drops : (results.foldl deliver {}).Drops x
      · rw [deliver_of_drops drops]
        refine ⟨?_, fun y member => List.mem_append_left _ (ih.2 member)⟩
        simp [lastSig, drops.1, drops.2]
      · rw [deliver_of_yields drops, ih.1]
        refine ⟨?_, List.append_subset.mpr ⟨fun y member => List.mem_append_left _ (ih.2 member),
          List.subset_append_right _ _⟩⟩
        cases final : x.isFinal <;> simp [lastSig, final]

/-- No two finals have the same text and end time, and the results come in the order in which they
were first heard. -/
def Good (results yielded : List AsrResult) : Prop :=
  (finals yielded).Nodup ∧ yielded.eraseDups = results.eraseDups

theorem Good.mem_iff {yielded : List AsrResult} (good : Good results yielded) :
    x ∈ yielded ↔ x ∈ results := by
  rw [← List.mem_eraseDups, good.2, List.mem_eraseDups]

theorem Good.finals_iff {yielded : List AsrResult} (good : Good results yielded)
    (u : Text × EndTime) : u ∈ finals yielded ↔ u ∈ finals results := by
  simp only [mem_finals, good.mem_iff]

theorem Good.yield {yielded : List AsrResult} (good : Good results yielded) :
    (yielded ++ [x]).eraseDups = (results ++ [x]).eraseDups := by
  rw [eraseDups_concat, eraseDups_concat, good.2]
  simp only [good.mem_iff]

/-- A new result that was dropped comes too late: before the same final can be yielded, another has
to be. -/
theorem blocked (xs : List AsrResult) (drops : r.Drops x) (absent : x ∉ r.yielded)
    (once : (finals (xs.foldl deliver r).yielded).Nodup) :
    ¬ r.yielded.eraseDups ++ [x] <+: (xs.foldl deliver r).yielded.eraseDups := by
  induction xs generalizing r with
  | nil =>
      intro next
      exact absent (List.mem_eraseDups.mp (next.subset (by simp)))
  | cons z xs ih =>
      rw [List.foldl_cons] at once ⊢
      by_cases again : r.Drops z
      · rw [deliver_of_drops again] at once ⊢
        exact ih drops absent once
      obtain ⟨late, grown⟩ := yielded_prefix xs (r.deliver z)
      have now := deliver_of_yields again
      have other : x ≠ z := fun same => again (same ▸ drops)
      by_cases old : z ∈ r.yielded
      · cases final : z.isFinal with
        | true =>
            -- a final that was yielded before is yielded a second time
            rw [← grown, now, finals_append, finals_append] at once
            refine absurd (List.Nodup.of_append_left once) fun twice => ?_
            exact List.disjoint_of_nodup_append twice (mem_finals.mpr ⟨z, old, final, rfl⟩)
              (mem_finals.mpr ⟨z, by simp, final, rfl⟩)
        | false =>
            have same : (r.deliver z).yielded.eraseDups = r.yielded.eraseDups := by
              rw [now, eraseDups_concat, if_pos old]
            rw [← same]
            refine ih ⟨drops.1, ?_⟩ ?_ once
            · simp [now, final, drops.2]
            · simp [now, absent, other]
      · intro next
        have first := eraseDups_prefix (r.yielded ++ [z]) late
        rw [now] at grown next
        rw [eraseDups_concat, if_neg old, show r.yielded ++ [z] ++ late = _ from grown] at first
        have same := (List.prefix_of_prefix_length_le next first (by simp)).eq_of_length (by simp)
        exact other (by simpa using same)

/-- What was good stays good only if it was good before. -/
theorem good_of_append (xs ys : List AsrResult)
    (good : Good (xs ++ ys) ((xs ++ ys).foldl deliver {}).yielded) :
    Good xs (xs.foldl deliver {}).yielded := by
  induction xs using List.reverseRecOn generalizing ys with
  | nil => exact ⟨List.nodup_nil, rfl⟩
  | append_singleton xs x ih =>
      have before := ih (x :: ys) (by simpa using good)
      have once : (finals ((xs ++ [x]).foldl deliver {}).yielded).Nodup := by
        obtain ⟨late, grown⟩ := yielded_prefix ys ((xs ++ [x]).foldl deliver {})
        rw [List.foldl_append, ← grown, Good, finals_append] at good
        exact good.1.of_append_left
      refine ⟨once, ?_⟩
      rw [List.foldl_concat]
      by_cases drops : (xs.foldl deliver {}).Drops x
      · rw [deliver_of_drops drops]
        by_cases old : x ∈ xs
        · rw [eraseDups_concat, if_pos old, before.2]
        · have next := eraseDups_prefix (xs ++ [x]) ys
          rw [← good.2, eraseDups_concat, if_neg old, ← before.2, List.foldl_append,
            List.foldl_concat, deliver_of_drops drops] at next
          refine absurd next (blocked ys drops (fun member => old (before.mem_iff.mp member)) ?_)
          simpa [List.foldl_append, deliver_of_drops drops] using good.1
      · rw [deliver_of_yields drops]
        exact before.yield

/-- A final with the text and end time of an earlier one, or the text and time of the last one, has
been heard before, with the time of the last one. -/
def Follows (front : List AsrResult) (x : AsrResult) : Prop :=
  x.isFinal = true → key x ∈ finals front ∨ lastSig front = some (sig x) →
    x ∈ front ∧ lastSig front = some (sig x)

theorem good_concat (good : Good xs (xs.foldl deliver {}).yielded) :
    Good (xs ++ [x]) ((xs ++ [x]).foldl deliver {}).yielded ↔ Follows xs x := by
  have last := (foldl_deliver xs).1
  rw [List.foldl_concat]
  by_cases drops : (xs.foldl deliver {}).Drops x
  · have same : lastSig xs = some (sig x) := last ▸ drops.2
    rw [deliver_of_drops drops]
    constructor
    · intro also _ _
      refine ⟨good.mem_iff.mp (also.mem_iff.mpr (by simp)), same⟩
    · intro follows
      obtain ⟨old, -⟩ := follows drops.1 (Or.inr same)
      exact ⟨good.1, by rw [eraseDups_concat, if_pos old, good.2]⟩
  · rw [deliver_of_yields drops]
    have new : x.isFinal = true → lastSig xs ≠ some (sig x) :=
      fun final same => drops ⟨final, last.trans same⟩
    constructor
    · intro also final seen
      obtain known | same := seen
      · refine absurd also.1 fun once => ?_
        rw [finals_append] at once
        exact List.disjoint_of_nodup_append once ((good.finals_iff _).mpr known)
          (mem_finals.mpr ⟨x, by simp, final, rfl⟩)
      · exact absurd same (new final)
    · intro follows
      refine ⟨?_, good.yield⟩
      rw [finals_append]
      cases final : x.isFinal with
      | false => simpa [finals, final] using good.1
      | true =>
          have unknown : key x ∉ finals xs :=
            fun known => new final (follows final (Or.inl known)).2
          simp only [finals, List.filter_cons, final, if_true, List.filter_nil, List.map_cons,
            List.map_nil, List.nodup_append]
          refine ⟨good.1, by simp, fun u member v single => ?_⟩
          rw [List.mem_singleton.mp single]
          exact fun same => unknown (same ▸ (good.finals_iff u).mp member)

theorem good_iff (xs : List AsrResult) : Good xs (xs.foldl deliver {}).yielded ↔
    ∀ front x, front ++ [x] <+: xs → Follows front x := by
  induction xs using List.reverseRecOn with
  | nil => simp [Good, finals]
  | append_singleton xs x ih =>
      constructor
      · intro good front y start
        have before := good_of_append xs [x] good
        obtain same | start := List.prefix_concat_iff.mp start
        · obtain ⟨rfl, rfl⟩ : front = xs ∧ y = x := by simpa using same
          exact (good_concat before).mp good
        · exact ih.mp before front y start
      · intro follows
        have before := ih.mpr fun front y start => follows front y (start.trans (by simp))
        exact (good_concat before).mpr (follows xs x List.prefix_rfl)

end AsrReceiver

/-- A definite utterance with a text, and its end time. -/
def definiteUtterance (utt : Json) : List (Text × EndTime) :=
  match utteranceOf utt with
  | some (text, true, endTime) => [(text, endTime)]
  | _ => []

def V3Response.definite (response : V3Response) : List (Text × EndTime) :=
  response.utterances.flatMap definiteUtterance

namespace AsrReceiver

/-- Every definite utterance with a text is reported as a final, no text and end time twice, and
the results come in the order in which the responses first bring them. -/
structure Reports (responses : List V3Response) (yielded : List AsrResult) : Prop where
  once : (finals yielded).Nodup
  reported : ∀ response ∈ responses, ∀ u ∈ response.definite, u ∈ finals yielded
  ordered : yielded.eraseDups = (heard responses).eraseDups

/-- A definite utterance comes again only directly behind itself, times in whole milliseconds tell
neighbours apart, and from a response with an end time that is not finite on no new one comes. -/
structure Orderly (responses : List V3Response) : Prop where
  follows : ∀ front x, front ++ [x] <+: heard responses → Follows front x
  covered : ∀ response ∈ unheard responses, ∀ u ∈ response.definite, u ∈ finals (heard responses)

variable {results : List AsrResult} {response : V3Response}

theorem definiteUtterance_eq {now : Int} {utt : Json}
    (parsed : parseUtterance now utt = some results) :
    definiteUtterance utt = finals results := by
  unfold parseUtterance at parsed
  unfold definiteUtterance
  cases utterance : utteranceOf utt with
  | none =>
      simp only [utterance, Option.some.injEq] at parsed
      subst parsed
      rfl
  | some found =>
      obtain ⟨text, isFinal, endTime⟩ := found
      simp only [utterance] at parsed
      obtain ⟨t, -, rfl⟩ := Option.map_eq_some_iff.mp parsed
      cases isFinal <;> rfl

theorem definiteUtterances_eq {clock : Nat → Int} {i : Nat} {utts : List Json}
    (parsed : parseUtterances clock i utts = some results) :
    utts.flatMap definiteUtterance = finals results := by
  induction utts generalizing i results with
  | nil =>
      obtain rfl := Option.some.inj parsed
      rfl
  | cons utt utts ih =>
      obtain ⟨here, first, rest⟩ := Option.bind_eq_some_iff.mp parsed
      obtain ⟨later, second, made⟩ := Option.bind_eq_some_iff.mp rest
      obtain rfl := Option.some.inj made
      rw [List.flatMap_cons, definiteUtterance_eq first, ih second, finals_append]

theorem definite_eq (parsed : parseV3Response response = some results) :
    response.definite = finals results := by
  unfold parseV3Response at parsed
  unfold V3Response.definite
  cases utts : response.utterances with
  | nil =>
      simp only [utts, Option.some.injEq] at parsed
      subst parsed
      unfold V3Response.aggregate
      split
      · split
        · split <;> rfl
        · rfl
      · rfl
  | cons utt rest =>
      simp only [utts] at parsed
      exact definiteUtterances_eq parsed

/-- The definite utterances of a response that was parsed, or of one from the first bad one on. -/
theorem definite_cases {responses : List V3Response} (member : response ∈ responses) :
    (∀ u ∈ response.definite, u ∈ finals (heard responses)) ∨
      response ∈ unheard responses := by
  induction responses with
  | nil => cases member
  | cons first responses ih =>
      rw [heard, unheard]
      cases parsed : parseV3Response first with
      | none => exact Or.inr member
      | some results =>
          simp only [finals_append]
          obtain rfl | later := List.mem_cons.mp member
          · refine Or.inl fun u definite => List.mem_append_left _ ?_
            rwa [← definite_eq parsed]
          · exact (ih later).imp_left fun covered u definite =>
              List.mem_append_right _ (covered u definite)

theorem unheard_subset {responses : List V3Response} (member : response ∈ unheard responses) :
    response ∈ responses := by
  induction responses with
  | nil => exact member
  | cons first responses ih =>
      rw [unheard] at member
      split at member
      · exact List.mem_cons_of_mem _ (ih member)
      · exact member

theorem reports_iff (responses : List V3Response) :
    Reports responses ((heard responses).foldl deliver {}).yielded ↔ Orderly responses := by
  constructor
  · intro reports
    have good : Good _ _ := ⟨reports.once, reports.ordered⟩
    refine ⟨(good_iff _).mp good, fun response member u definite => ?_⟩
    exact (good.finals_iff u).mp (reports.reported response (unheard_subset member) u definite)
  · intro orderly
    have good := (good_iff _).mpr orderly.follows
    refine ⟨good.1, fun response member u definite => (good.finals_iff u).mpr ?_, good.2⟩
    obtain here | bad := definite_cases member
    · exact here u definite
    · exact orderly.covered response bad u definite

end AsrReceiver

end Providers

namespace Guarantees
open Providers AsrReceiver

/-- On a connection every definite utterance is reported as a final exactly once per text and end
time if and only if one is repeated only directly behind itself, the times in whole milliseconds
tell neighbours apart, and no new one comes in or after a response that cannot be parsed. -/
theorem finals_reported_iff (codecs : AsrCodecs) (messages : List (WsMessage × (Nat → Int))) :
    Reports (responses codecs messages) (receive codecs {} messages).1.yielded ↔
      Orderly (responses codecs messages) := by
  rw [receive_eq]
  exact reports_iff _

/-- An utterance as the vendor reports it. -/
def utterance (text : String) (endTime : Int) : Json :=
  .object [("text".toList, .string text.toList), ("definite".toList, .bool true),
    ("end_time".toList, .number (.int endTime))]

/-- Every payload is a response with the same two finished utterances. -/
def twoUtterances : AsrCodecs where
  gunzip _ := none
  loads _ := some (.object [("result".toList, .object [("utterances".toList,
    .array [utterance "你好" 100, utterance "在吗" 200])])])
  decodeReplace _ := []

def repeatedResponse : List (WsMessage × (Nat → Int)) :=
  List.replicate 2 (.binary [0x11, 0x90, 0x10, 0, 0, 0, 0, 1, 123], fun _ => 0)

/-- A response that repeats two utterances makes four finals. -/
theorem repeated_response_doubles_finals :
    ¬ Reports (responses twoUtterances repeatedResponse)
      (receive twoUtterances {} repeatedResponse).1.yielded := by
  intro reports
  have finals : finals (receive twoUtterances {} repeatedResponse).1.yielded =
      [("你好".toList, .ms 100), ("在吗".toList, .ms 200),
        ("你好".toList, .ms 100), ("在吗".toList, .ms 200)] := by
    decide +kernel
  have once := reports.once
  rw [finals] at once
  exact absurd once (by decide)

end Guarantees
end IsalesEngine
