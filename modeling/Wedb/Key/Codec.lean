import Wedb.Key.Varint

/-!
# Physical keys

A key is the namespace, the database, a tag and what the user gave. The two numbers in front are
self-delimiting, so the keys of a session are those that start with its prefix. Several readers take a
key apart in ways of their own: they look at the first byte of a number only, or compare the prefix
without decoding it.
-/

namespace Wedb.Key

inductive Error
  | bufferTooShort (expected actual : Nat)
  | nonCanonicalEncoding
  | invalidKeyTag (b : UInt8)
  deriving DecidableEq, Repr

/-- The tags; `metadata` is `Meta`. -/
inductive KeyTag
  | string
  | metadata
  | ttl
  | vector
  | etag
  | objectEnvelope
  | acl
  | dbMeta
  | vectorRegistry
  deriving DecidableEq, Repr

namespace KeyTag

def asU8 : KeyTag → UInt8
  | string => 0x00
  | metadata => 0x01
  | ttl => 0x09
  | vector => 0x0A
  | etag => 0x0B
  | objectEnvelope => 0x0C
  | acl => 0x0D
  | dbMeta => 0x0E
  | vectorRegistry => 0x0F

def fromU8 (val : UInt8) : Option KeyTag :=
  if val = 0x00 then some string
  else if val = 0x01 then some metadata
  else if val = 0x09 then some ttl
  else if val = 0x0A then some vector
  else if val = 0x0B then some etag
  else if val = 0x0C then some objectEnvelope
  else if val = 0x0D then some acl
  else if val = 0x0E then some dbMeta
  else if val = 0x0F then some vectorRegistry
  else none

def isUserVisible : KeyTag → Bool
  | string | metadata | objectEnvelope => true
  | _ => false

end KeyTag

/-- `split_at_checked`. -/
def splitAtChecked (slice : List UInt8) (mid : Nat) : Option (List UInt8 × List UInt8) :=
  if mid ≤ slice.length then some (slice.take mid, slice.drop mid) else none

/-! ### Session prefixes -/

def minSessionPrefixLen : Nat := 2

def maxSessionPrefixLen : Nat := 18

/-- `encode_session_prefix_to_array`. -/
def encodeSessionPrefixToArray (ns db : UInt64) : List UInt8 × Nat :=
  let buf := List.replicate maxSessionPrefixLen 0
  if ns.toNat < varint1bMax ∧ db.toNat < varint1bMax then
    (Slice.overwrite (Slice.overwrite buf 0 [UInt8.ofNat ns.toNat]) 1 [UInt8.ofNat db.toNat], 2)
  else
    let (nsBuf, nsLen) := encodeU64ToArray ns
    let (dbBuf, dbLen) := encodeU64ToArray db
    (Slice.overwrite (Slice.overwrite buf 0 (nsBuf.take nsLen)) nsLen (dbBuf.take dbLen), nsLen + dbLen)

def decodeVarint (slice : List UInt8) : Except Error (UInt64 × Nat) :=
  match decodeU64 slice with
  | .ok v => .ok v
  | .error (.bufferTooShort expected actual) => .error (.bufferTooShort expected actual)
  | .error .nonCanonical => .error .nonCanonicalEncoding

def decodeSessionPrefix (key : List UInt8) : Except Error ((UInt64 × UInt64) × Nat) :=
  match decodeVarint key with
  | .error e => .error e
  | .ok (ns, nsLen) =>
    match splitAtChecked key nsLen with
    | none => .error (.bufferTooShort nsLen key.length)
    | some (_, rest) =>
      match decodeVarint rest with
      | .error e => .error e
      | .ok (db, dbLen) => .ok ((ns, db), nsLen + dbLen)

structure SessionPrefixBuf where
  buf : List UInt8
  len : Nat
  deriving DecidableEq, Repr

namespace SessionPrefixBuf

def new (ns db : UInt64) : SessionPrefixBuf :=
  let (buf, len) := encodeSessionPrefixToArray ns db
  ⟨buf, len⟩

def asSlice (p : SessionPrefixBuf) : List UInt8 :=
  p.buf.take (if p.len < maxSessionPrefixLen then p.len else maxSessionPrefixLen)

end SessionPrefixBuf

/-! ### Keys -/

/-- `STACK_KEY_CAP`. -/
def stackKeyCap : Nat := 62

/-- A key is kept in a fixed buffer when it is short. -/
inductive TaggedKeyBuf
  | stack (buf : List UInt8) (len : Nat)
  | heap (vec : List UInt8)
  deriving DecidableEq, Repr

def TaggedKeyBuf.asSlice : TaggedKeyBuf → List UInt8
  | stack buf len => buf.take (min len stackKeyCap)
  | heap vec => vec

def buildKey (parts : List (List UInt8)) : TaggedKeyBuf :=
  let totalLen := (parts.map List.length).sum
  if totalLen ≤ stackKeyCap then .stack (Slice.copyParts (List.replicate stackKeyCap 0) 0 parts) totalLen
  else .heap parts.flatten

def encodeWithSessionPrefix (sessionPrefix : List UInt8) (tag : KeyTag) (payload : List UInt8) :
    TaggedKeyBuf :=
  buildKey [sessionPrefix, [tag.asU8], payload]

def encodeTaggedKey (ns db : UInt64) (tag : KeyTag) (payload : List UInt8) : TaggedKeyBuf :=
  encodeWithSessionPrefix (SessionPrefixBuf.new ns db).asSlice tag payload

/-- What follows the prefix of two numbers, in the slow branch of `decode_tagged_key`. -/
def decodeTagged (key : List UInt8) : Except Error (UInt64 × UInt64 × KeyTag × List UInt8) :=
  match decodeSessionPrefix key with
  | .error e => .error e
  | .ok ((ns, db), prefixLen) =>
    match splitAtChecked key prefixLen with
    | none => .error (.bufferTooShort prefixLen key.length)
    | some (_, []) => .error (.bufferTooShort 1 0)
    | some (_, tagByte :: payload) =>
      match KeyTag.fromU8 tagByte with
      | some tag => .ok (ns, db, tag, payload)
      | none => .error (.invalidKeyTag tagByte)

/-- `decode_tagged_key`: numbers of one byte are read without decoding. -/
def decodeTaggedKey (key : List UInt8) : Except Error (UInt64 × UInt64 × KeyTag × List UInt8) :=
  match key with
  | nsB :: dbB :: tagByte :: payload =>
    if nsB < varint1bFirstByteLimit ∧ dbB < varint1bFirstByteLimit then
      match KeyTag.fromU8 tagByte with
      | some tag => .ok (UInt64.ofNat nsB.toNat, UInt64.ofNat dbB.toNat, tag, payload)
      | none => .error (.invalidKeyTag tagByte)
    else decodeTagged key
  | _ => decodeTagged key

/-- `strip_prefix` of a slice. -/
def stripPrefix (sessionPrefix key : List UInt8) : Option (List UInt8) :=
  if sessionPrefix <+: key then some (key.drop sessionPrefix.length) else none

def stripSessionPrefix (key sessionPrefix : List UInt8) : Option (KeyTag × List UInt8) := do
  match ← stripPrefix sessionPrefix key with
  | [] => none
  | tagByte :: payload => (KeyTag.fromU8 tagByte).map (·, payload)

def stripSessionPrefixWithTag (key sessionPrefix : List UInt8) (expectedTag : KeyTag) :
    Option (List UInt8) := do
  match ← stripPrefix sessionPrefix key with
  | [] => none
  | tagByte :: payload => if tagByte = expectedTag.asU8 then some payload else none

def extractLiveUserKey (key sessionPrefix : List UInt8) : Option (KeyTag × List UInt8) :=
  match stripSessionPrefix key sessionPrefix with
  | some (tag, userKey) => if tag.isUserVisible then some (tag, userKey) else none
  | none => none

def varintLenFromByte (first : UInt8) : Option Nat :=
  let len := varintLenLut first
  if len ≠ 0 then some len else none

/-- The slow branch of `session_prefix_len_from_slice`: the lengths from the first bytes. -/
def prefixLenFromFirstBytes (key : List UInt8) : Option Nat :=
  match key with
  | [] => none
  | first :: _ =>
    match varintLenFromByte first with
    | none => none
    | some nsLen =>
      match splitAtChecked key nsLen with
      | none | some (_, []) => none
      | some (_, dbFirst :: _) =>
        match varintLenFromByte dbFirst with
        | none => none
        | some dbLen => if nsLen + dbLen ≤ key.length then some (nsLen + dbLen) else none

def sessionPrefixLenFromSlice (key : List UInt8) : Option Nat :=
  match key with
  | nsB :: dbB :: _ =>
    if nsB < varint1bFirstByteLimit ∧ dbB < varint1bFirstByteLimit then some minSessionPrefixLen
    else prefixLenFromFirstBytes key
  | _ => prefixLenFromFirstBytes key

/-- What stands behind the prefix: the tag byte and the payload. -/
def afterPrefix (key : List UInt8) : Option (UInt8 × List UInt8) :=
  match sessionPrefixLenFromSlice key with
  | none => none
  | some prefixLen =>
    match splitAtChecked key prefixLen with
    | some (_, tagByte :: payload) => some (tagByte, payload)
    | _ => none

def decodeTag (key : List UInt8) : Option KeyTag :=
  match key with
  | nsB :: dbB :: tagByte :: _ =>
    if nsB < varint1bFirstByteLimit ∧ dbB < varint1bFirstByteLimit then KeyTag.fromU8 tagByte
    else (afterPrefix key).bind fun p => KeyTag.fromU8 p.1
  | _ => (afterPrefix key).bind fun p => KeyTag.fromU8 p.1

/-- The payload behind the tag of a metadata record. -/
def metaPayload (p : UInt8 × List UInt8) : Option (List UInt8) :=
  if p.1 = KeyTag.metadata.asU8 then some p.2 else none

def decodeMetaUserKey (key : List UInt8) : Option (List UInt8) :=
  match key with
  | nsB :: dbB :: tagByte :: payload =>
    if nsB < varint1bFirstByteLimit ∧ dbB < varint1bFirstByteLimit then metaPayload (tagByte, payload)
    else (afterPrefix key).bind metaPayload
  | _ => (afterPrefix key).bind metaPayload

end Wedb.Key
