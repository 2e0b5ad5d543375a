import Mathlib.Data.Char
import Mathlib.Data.List.Lex
import Mathlib.Data.List.Sort
import Mathlib.Data.Prod.Lex
import IsalesEngine.Binary.Base64
import IsalesEngine.Text

/-!
Tokens for the RTC service. A token is signed over a body of length-prefixed
fields, padded with zeros to a power-of-two multiple of 256 bytes; signature and
padded body are padded once more before they are compressed. A number or a
length of 32 bits or more is refused. The keyed hash and the compression are
parameters.
-/
namespace IsalesEngine
open Binary

/-- `str.encode("utf-8")`. -/
def encodeUtf8 (t : Text) : Bytes := t.flatMap String.utf8EncodeChar

/-- A `dict[str, str]`, in insertion order. -/
structure TokenOptions where
  items : List (Text × Text)
  distinct : (items.map Prod.fst).Nodup

/-- What a token is about. -/
structure TokenGrant where
  appId : Text
  issueTs : Int
  salt : Int
  expiresAt : Int
  channel : Text
  userId : Text
  privilege : Option Int
  engineOptions : Option TokenOptions

structure TokenPrimitives where
  hmacSha256 : Bytes → Bytes → Bytes
  zlibCompress : Bytes → Bytes

namespace RtcToken

def version0 : Text := "000".toList

/-- The loop that doubles `fixed` until it is at least `n`. -/
def doubled (n : Nat) : Nat → Nat → Nat
  | 0, fixed => fixed
  | fuel + 1, fixed => if fixed < n then doubled n fuel (fixed * 2) else fixed

def nextPow2MultipleOf256 (n : Nat) : Nat := if n = 0 then 0 else doubled n n 256

def pad256 (src : Bytes) : Bytes :=
  let target := nextPow2MultipleOf256 src.length
  if target ≤ src.length then src.take target
  else src ++ List.replicate (target - src.length) 0

def packText (t : Text) : Option Bytes :=
  join (packU32 (encodeUtf8 t).length) (some (encodeUtf8 t))

def packService (channelId userId : Text) (privilege : Option Int) : Option Bytes :=
  join (packText channelId) (join (packText userId) (packOptional packU32 privilege))

def packEntry (entry : Text × Text) : Option Bytes := join (packText entry.1) (packText entry.2)

/-- `sorted(engine_options.items())`: tuples in lexicographic order, texts by code points. -/
def sortedItems (options : TokenOptions) : List (Text × Text) :=
  options.items.insertionSort fun a b => toLex a ≤ toLex b

def packOptions : Option TokenOptions → Option Bytes
  | none => packBool false
  | some options =>
      join (packBool true)
        (join (packU32 options.items.length) (many packEntry (sortedItems options)))

def body (g : TokenGrant) : Option Bytes :=
  join (packText g.appId) <| join (packU32 g.issueTs) <| join (packU32 g.salt) <|
    join (packU32 g.expiresAt) <| join (packService g.channel g.userId g.privilege) <|
      packOptions g.engineOptions

def outerPayload (signature bodyPadded : Bytes) : Option Bytes :=
  (join (packU32 signature.length) (some (signature ++ bodyPadded))).map pad256

def generateSignKey (prims : TokenPrimitives) (appKey : Text) (issueTs salt : Int) :
    Option Bytes := do
  let issued ← packU32 issueTs
  let salted ← packU32 salt
  return prims.hmacSha256 salted (prims.hmacSha256 issued (encodeUtf8 appKey))

def buildToken (prims : TokenPrimitives) (appKey : Text) (g : TokenGrant) : Option Text := do
  let signKey ← generateSignKey prims appKey g.issueTs g.salt
  let bodyPadded := pad256 (← body g)
  let outer ← outerPayload (prims.hmacSha256 signKey bodyPadded) bodyPadded
  return version0 ++ Base64.encode (prims.zlibCompress outer)

end RtcToken

/-- Numbers and lengths are below 2^32. -/
structure TokenGrant.InRange (g : TokenGrant) : Prop where
  appId : (encodeUtf8 g.appId).length < 0x100000000
  issueTs : 0 ≤ g.issueTs ∧ g.issueTs < 0x100000000
  salt : 0 ≤ g.salt ∧ g.salt < 0x100000000
  expiresAt : 0 ≤ g.expiresAt ∧ g.expiresAt < 0x100000000
  channel : (encodeUtf8 g.channel).length < 0x100000000
  userId : (encodeUtf8 g.userId).length < 0x100000000
  privilege : ∀ p, g.privilege = some p → 0 ≤ p ∧ p < 0x100000000
  options : ∀ o, g.engineOptions = some o → o.items.length < 0x100000000 ∧ ∀ entry ∈ o.items,
    (encodeUtf8 entry.1).length < 0x100000000 ∧ (encodeUtf8 entry.2).length < 0x100000000

/-- Two grants are the same, with options that are the same map. -/
structure TokenGrant.Same (g h : TokenGrant) : Prop where
  appId : g.appId = h.appId
  issueTs : g.issueTs = h.issueTs
  salt : g.salt = h.salt
  expiresAt : g.expiresAt = h.expiresAt
  channel : g.channel = h.channel
  userId : g.userId = h.userId
  privilege : g.privilege = h.privilege
  options : Option.Rel (fun o p => o.items.Perm p.items) g.engineOptions h.engineOptions

namespace RtcToken

theorem encodeUtf8_injective : Function.Injective encodeUtf8 := by
  intro t u same
  have bytes : List.utf8Encode t = List.utf8Encode u := congrArg List.toByteArray same
  have decoded := congrArg ByteArray.utf8Decode? bytes
  rw [List.utf8Decode?_utf8Encode, List.utf8Decode?_utf8Encode, Option.some.injEq] at decoded
  simpa using congrArg Array.toList decoded

/-- The loop has reached `n` when its fuel is used up. -/
theorem le_doubled {n fuel fixed : Nat} (positive : 0 < fixed) (enough : n ≤ fixed + fuel) :
    n ≤ doubled n fuel fixed := by
  induction fuel generalizing fixed with
  | zero => exact enough
  | succ fuel ih =>
      rw [doubled]
      split
      · exact ih (by omega) (by omega)
      · omega

theorem le_nextPow2MultipleOf256 (n : Nat) : n ≤ nextPow2MultipleOf256 n := by
  unfold nextPow2MultipleOf256
  split
  · omega
  · exact le_doubled (by omega) (by omega)

/-- Padding only adds zeros. -/
theorem pad256_eq (src : Bytes) : ∃ k, pad256 src = src ++ List.replicate k 0 := by
  have room := le_nextPow2MultipleOf256 src.length
  simp only [pad256]
  split
  · next reached => exact ⟨0, by simp [List.take_of_length_le room]⟩
  · exact ⟨_, rfl⟩

theorem selfDelimiting_packText : SelfDelimiting packText :=
  selfDelimiting_lengthPrefixed encodeUtf8_injective

theorem selfDelimiting_packEntry : SelfDelimiting packEntry :=
  selfDelimiting_packText.pair selfDelimiting_packText

theorem selfDelimiting_packService :
    SelfDelimiting fun s : Text × Text × Option Int => packService s.1 s.2.1 s.2.2 := by
  have texts := selfDelimiting_packText.pair
    (selfDelimiting_packText.pair selfDelimiting_packU32.optional)
  exact texts.of_eq fun s => by rw [packService]

/-- A number of entries and the entries. -/
theorem selfDelimiting_entries : SelfDelimiting fun entries : List (Text × Text) =>
    join (packU32 entries.length) (many packEntry entries) := by
  have counted : SelfDelimiting fun n : Nat => packU32 n := fun m n =>
    (selfDelimiting_packU32 m n).imp rfl rfl Int.ofNat.inj
  exact counted.headed List.length fun _ _ same => selfDelimiting_packEntry.many same

theorem packOptions_eq (o : Option TokenOptions) : packOptions o =
    packOptional (fun entries => join (packU32 entries.length) (many packEntry entries))
      (o.map sortedItems) := by
  cases o with
  | none => rfl
  | some options => simp [packOptions, packOptional, sortedItems, List.length_insertionSort]

/-- The fields in the order of the body, the options sorted. -/
def fields (g : TokenGrant) : Text × Int × Int × Int × (Text × Text × Option Int) ×
    Option (List (Text × Text)) :=
  (g.appId, g.issueTs, g.salt, g.expiresAt, (g.channel, g.userId, g.privilege),
    g.engineOptions.map sortedItems)

theorem sortedItems_perm (o : TokenOptions) : (sortedItems o).Perm o.items :=
  List.perm_insertionSort _ _

theorem sortedItems_eq {o p : TokenOptions} (same : o.items.Perm p.items) :
    sortedItems o = sortedItems p := by
  refine List.Perm.eq_of_pairwise (fun a b _ _ below above => ?_)
    (List.pairwise_insertionSort _ _) (List.pairwise_insertionSort _ _)
    ((sortedItems_perm o).trans (same.trans (sortedItems_perm p).symm))
  exact toLex.injective (le_antisymm below above)

variable {g h : TokenGrant}

theorem same_iff_fields : g.Same h ↔ fields g = fields h := by
  constructor
  · rintro ⟨appId, issueTs, salt, expiresAt, channel, userId, privilege, options⟩
    have sorted : g.engineOptions.map sortedItems = h.engineOptions.map sortedItems := by
      generalize g.engineOptions = left, h.engineOptions = right at options
      cases options with
      | none => rfl
      | some perm => exact congrArg some (sortedItems_eq perm)
    simp [fields, *]
  · intro same
    simp only [fields, Prod.mk.injEq] at same
    obtain ⟨appId, issueTs, salt, expiresAt, ⟨channel, userId, privilege⟩, sorted⟩ := same
    refine ⟨appId, issueTs, salt, expiresAt, channel, userId, privilege, ?_⟩
    cases left : g.engineOptions with
    | none =>
        cases right : h.engineOptions with
        | none => exact .none
        | some p => simp [left, right] at sorted
    | some o =>
        cases right : h.engineOptions with
        | none => simp [left, right] at sorted
        | some p =>
            simp only [left, right, Option.map_some, Option.some.injEq] at sorted
            exact .some ((sortedItems_perm o).symm.trans (sorted ▸ sortedItems_perm p))

/-- The body encodes the fields one behind the other. -/
theorem exists_code : ∃ code, SelfDelimiting code ∧ ∀ g, body g = code (fields g) := by
  refine ⟨_, selfDelimiting_packText.pair (selfDelimiting_packU32.pair (selfDelimiting_packU32.pair
    (selfDelimiting_packU32.pair (selfDelimiting_packService.pair
      selfDelimiting_entries.optional)))), fun g => ?_⟩
  simp only [body, fields, packOptions_eq]

/-- Whatever follows two bodies, equal bytes come from equal grants. -/
theorem same_of_append {u v s t : Bytes} (first : body g = some u) (second : body h = some v)
    (same : u ++ s = v ++ t) : g.Same h := by
  obtain ⟨code, delimited, coded⟩ := exists_code
  exact same_iff_fields.mpr
    (delimited.eq_of_append ((coded g).symm.trans first) ((coded h).symm.trans second) same)

theorem body_congr (same : g.Same h) : body g = body h := by
  obtain ⟨code, _, coded⟩ := exists_code
  rw [coded g, coded h, same_iff_fields.mp same]

theorem isSome_packText {t : Text} :
    (packText t).isSome = true ↔ (encodeUtf8 t).length < 0x100000000 := by
  rw [packText, isSome_join, isSome_packU32]
  constructor
  · rintro ⟨⟨_, small⟩, _⟩
    omega
  · intro small
    exact ⟨⟨by omega, by omega⟩, rfl⟩

theorem isSome_packOptions {o : TokenOptions} : (packOptions (some o)).isSome = true ↔
    o.items.length < 0x100000000 ∧ ∀ entry ∈ o.items,
      (encodeUtf8 entry.1).length < 0x100000000 ∧ (encodeUtf8 entry.2).length < 0x100000000 := by
  have entries : (∀ entry ∈ sortedItems o, (packEntry entry).isSome = true) ↔
      ∀ entry ∈ o.items,
        (encodeUtf8 entry.1).length < 0x100000000 ∧ (encodeUtf8 entry.2).length < 0x100000000 := by
    refine forall_congr' fun entry => ?_
    rw [(sortedItems_perm o).mem_iff, packEntry, isSome_join, isSome_packText, isSome_packText]
  have count : 0 ≤ (o.items.length : Int) ∧ (o.items.length : Int) < 0x100000000 ↔
      o.items.length < 0x100000000 := by omega
  rw [packOptions, isSome_join, isSome_join, isSome_packU32, isSome_many, entries, count]
  simp [packBool]

/-- A body is refused only for a number or a length of 32 bits or more. -/
theorem isSome_body : (body g).isSome = true ↔ g.InRange := by
  have privilege : (packOptional packU32 g.privilege).isSome = true ↔
      ∀ p, g.privilege = some p → 0 ≤ p ∧ p < 0x100000000 := by
    cases g.privilege with
    | none => simp [packOptional, packBool]
    | some p => simp [packOptional, isSome_join, packBool, isSome_packU32]
  have options : (packOptions g.engineOptions).isSome = true ↔ ∀ o, g.engineOptions = some o →
      o.items.length < 0x100000000 ∧ ∀ entry ∈ o.items,
        (encodeUtf8 entry.1).length < 0x100000000 ∧ (encodeUtf8 entry.2).length < 0x100000000 := by
    cases g.engineOptions with
    | none => simp [packOptions, packBool]
    | some o => simp only [isSome_packOptions, Option.some.injEq, forall_eq']
  simp only [body, packService, isSome_join, isSome_packText, isSome_packU32, privilege, options]
  constructor
  · rintro ⟨appId, issueTs, salt, expiresAt, ⟨channel, userId, privilege⟩, options⟩
    exact ⟨appId, issueTs, salt, expiresAt, channel, userId, privilege, options⟩
  · rintro ⟨appId, issueTs, salt, expiresAt, channel, userId, privilege, options⟩
    exact ⟨appId, issueTs, salt, expiresAt, ⟨channel, userId, privilege⟩, options⟩

section Recovery
variable {g h : TokenGrant} {u v : Bytes}

theorem same_of_pad256 (first : body g = some u) (second : body h = some v)
    (padded : pad256 u = pad256 v) : g.Same h := by
  obtain ⟨k, grown⟩ := pad256_eq u
  obtain ⟨l, grown'⟩ := pad256_eq v
  exact same_of_append first second (grown.symm.trans (padded.trans grown'))

/-- The outer payload can be taken apart. -/
theorem outerPayload_parts {signature signature' outer : Bytes} (first : body g = some u)
    (second : body h = some v) (left : outerPayload signature (pad256 u) = some outer)
    (right : outerPayload signature' (pad256 v) = some outer) :
    signature = signature' ∧ pad256 u = pad256 v := by
  obtain ⟨w, packed, rfl⟩ := Option.map_eq_some_iff.mp left
  obtain ⟨x, packed', padded⟩ := Option.map_eq_some_iff.mp right
  obtain ⟨n, _, size, rest, rfl⟩ := join_eq_some.mp packed
  obtain ⟨m, _, size', rest', rfl⟩ := join_eq_some.mp packed'
  obtain rfl := Option.some.inj rest
  obtain rfl := Option.some.inj rest'
  -- behind the two lengths stand the signatures, the padded bodies and zeros
  obtain ⟨k, grown⟩ := pad256_eq (n ++ (signature ++ pad256 u))
  obtain ⟨l, grown'⟩ := pad256_eq (m ++ (signature' ++ pad256 v))
  simp only [grown, grown', List.append_assoc] at padded
  obtain ⟨lengths, behind⟩ := selfDelimiting_packU32 _ _ size' size padded
  obtain ⟨rfl, bodies⟩ := List.append_inj behind (by omega)
  obtain ⟨i, zeros⟩ := pad256_eq u
  obtain ⟨j, zeros'⟩ := pad256_eq v
  rw [zeros, zeros', List.append_assoc, List.append_assoc] at bodies
  have same := same_of_append second first bodies
  rw [Option.some.inj (second.symm.trans ((body_congr same).trans first))]
  exact ⟨rfl, rfl⟩

theorem buildToken_some {prims : TokenPrimitives} {appKey token : Text}
    (built : buildToken prims appKey g = some token) : ∃ u signature outer, body g = some u ∧
      outerPayload signature (pad256 u) = some outer ∧
      token = version0 ++ Base64.encode (prims.zlibCompress outer) := by
  obtain ⟨signKey, -, built⟩ := Option.bind_eq_some_iff.mp built
  obtain ⟨u, first, built⟩ := Option.bind_eq_some_iff.mp built
  obtain ⟨outer, payload, built⟩ := Option.bind_eq_some_iff.mp built
  exact ⟨u, _, outer, first, payload, (Option.some.inj built).symm⟩

/-- Equal tokens grant the same, whatever keys they were signed with, as long as compression loses
nothing. -/
theorem same_of_buildToken {prims : TokenPrimitives} {appKey appKey' token : Text}
    (compressed : Function.Injective prims.zlibCompress)
    (left : buildToken prims appKey g = some token)
    (right : buildToken prims appKey' h = some token) : g.Same h := by
  obtain ⟨u, signature, outer, first, payload, rfl⟩ := buildToken_some left
  obtain ⟨v, signature', outer', second, payload', texts⟩ := buildToken_some right
  obtain rfl := compressed (Base64.encode_injective (List.append_cancel_left texts))
  exact same_of_pad256 first second (outerPayload_parts first second payload payload').2

end Recovery

/-- The bytes of a number, the last `n` of them. -/
def lastBytes (n number : Nat) : Bytes :=
  (List.range n).reverse.map fun i => UInt8.ofNat (number >>> (8 * i))

/-- Options that were set in another order, with the values that the hash and the compression have
for this grant and the key `k`. -/
theorem reordered_options_same :
    let g : TokenGrant :=
      ⟨['a'], 5, 6, 7, ['c'], ['u'], none, some ⟨[(['x'], []), (['y'], [])], by decide⟩⟩
    let h : TokenGrant := { g with engineOptions := some ⟨[(['y'], []), (['x'], [])], by decide⟩ }
    let derived := lastBytes 32 0xd6aad6ab7ed1007d935bc7c16dc7b184d0b422242a56cf5181d930ae4e642ec0
    let signKey := lastBytes 32 0xa2426cb402f5f7cddecb10b75a30691a3954fc3f5250bce7e26c11453c3387c2
    let signature := lastBytes 32 0x9e3f0349791b63ff4ff4374f32719da84e22d63f34b51921ec10265efce916e9
    let outer := (body g).bind fun u => outerPayload signature (pad256 u)
    let deflated := lastBytes 80 (0x789c636060509867cfec59299dfcdfff8bb9bf51e1dc157e <<< 448 +
      0x4ad7ec4db64a2abe11508bfbf352ec2503030363 <<< 288 +
      0x2290600562362066070924838852064620c50462563040006325c328183a0000d7031041)
    let prims : TokenPrimitives := ⟨fun _ message =>
      if message = encodeUtf8 ['k'] then derived else if message = derived then signKey
      else signature, fun bytes => if some bytes = outer then deflated else 0 :: bytes⟩
    let token := ("000eJxjYGBQmGfP7Fkpnfzf/4u5v1Hh3BV+StfsTbZKKr4RUIv781LsJQMDA2MikGAFYjYg" ++
      "ZgcJJIOIUgZGIMUEYlYwQABjJcMoGDoAANcDEEE=").toList
    buildToken prims ['k'] g = some token ∧ buildToken prims ['k'] h = some token ∧ g.Same h := by
  intro g h derived signKey signature outer deflated prims token
  have compressed : Function.Injective prims.zlibCompress := by
    have first : deflated.head? = some 0x78 := by decide +kernel
    intro a b same
    have heads := congrArg List.head? same
    simp only [prims] at same heads
    split at same
    · next here =>
        split at same
        · next there => exact Option.some.inj (here.trans there.symm)
        · next other =>
            rw [if_pos here, if_neg other, first] at heads
            cases heads
    · next other =>
        split at same
        · next there =>
            rw [if_neg other, if_pos there, first] at heads
            cases heads
        · exact (List.cons.inj same).2
  have left : buildToken prims ['k'] g = some token := by decide +kernel
  have right : buildToken prims ['k'] h = some token := by decide +kernel
  exact ⟨left, right, same_of_buildToken compressed left right⟩

end RtcToken

namespace Guarantees
open RtcToken

/-- The bytes of a token determine what it grants. A grant with numbers and lengths below 2^32 has a
body, which does not depend on the order of the options; grants with the same padded body are the
same; and of the padded outer payload both the signature and the padded body can be recovered. -/
theorem token_determines_grant :
    (∀ g : TokenGrant, g.InRange → ∃ bytes, body g = some bytes) ∧
    (∀ g h : TokenGrant, g.Same h → body g = body h) ∧
    (∀ (g h : TokenGrant) (u v : Bytes), body g = some u → body h = some v →
      pad256 u = pad256 v → g.Same h) ∧
    ∀ (g h : TokenGrant) (u v signature signature' outer : Bytes), body g = some u →
      body h = some v → outerPayload signature (pad256 u) = some outer →
      outerPayload signature' (pad256 v) = some outer →
      signature = signature' ∧ pad256 u = pad256 v := by
  refine ⟨fun g range => ?_, fun g h => body_congr, ?_, ?_⟩
  · exact Option.isSome_iff_exists.mp (isSome_body.mpr range)
  · exact fun g h u v first second padded => same_of_pad256 first second padded
  · intro g h u v signature signature' outer first second left right
    exact outerPayload_parts first second left right

/-- From the payload of a grant with a privilege: whoever else has it has the grant and the
signature. -/
theorem grant_recovered :
    let g : TokenGrant := ⟨['a'], 5, 6, 7, ['c'], ['u'], some 1, none⟩
    ∃ u outer, body g = some u ∧ outerPayload [1, 2] (pad256 u) = some outer ∧
      ∀ (h : TokenGrant) (v signature : Bytes), body h = some v →
        outerPayload signature (pad256 v) = some outer → signature = [1, 2] ∧ h.Same g := by
  intro g
  have range : g.InRange :=
    ⟨by decide, by decide, by decide, by decide, by decide, by decide,
      fun p given => Option.some.inj given ▸ by decide, fun _ given => nomatch given⟩
  obtain ⟨u, packed⟩ := token_determines_grant.1 g range
  refine ⟨u, _, packed, rfl, fun h v signature other same => ?_⟩
  obtain ⟨rfl, padded⟩ :=
    token_determines_grant.2.2.2 h g v u signature [1, 2] _ other packed same rfl
  exact ⟨rfl, token_determines_grant.2.2.1 h g v u other packed padded⟩

end Guarantees
end IsalesEngine
