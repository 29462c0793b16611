import Futils.Hpack.Codec

/-!
# QPACK tables and references

Entries of the dynamic table have absolute indices, counted from the first insertion on.  The encoder
looks for entries to refer to; the decoder looks entries up.
-/

namespace Futils.Qpack

open Hpack (Header text)

inductive QpackError where
  | inputLength
  | outputLength
  | undefinedInstruction
  | encodingError
  | unexpectedError
  | largeCapacity
  | smallCapacity
  | largeField
  | invalidStaticTableRef
  | invalidDynamicTableAbsRef
  | noEntryForIndex
  | invalidIncrement
  | invalidRequiredInsertCount
  | invalidIndex
  | invalidPostBaseIndex
  | invalidStreamId
  | noEntryExists
  | dynamicRefExists
  | negativeBase
  | headOfBlocking
  deriving DecidableEq

def convertHpackError : Hpack.HpackError → QpackError
  | .inputLength => .inputLength
  | .outputLength => .outputLength
  | .tooLargeNumber | .tooShortNumber => .encodingError
  | _ => .unexpectedError

/-- `predefined_headers`: the static table, spelled out by `header_text`. -/
def predefinedHeaders : List Header := List.map (fun entry => (text entry.1, text entry.2))
  [(":authority", ""), (":path", "/"), ("age", "0"), ("content-disposition", ""),
   ("content-length", "0"), ("cookie", ""), ("date", ""), ("etag", ""), ("if-modified-since", ""),
   ("if-none-match", ""), ("last-modified", ""), ("link", ""), ("location", ""), ("referer", ""),
   ("set-cookie", ""), (":method", "CONNECT"), (":method", "DELETE"), (":method", "GET"),
   (":method", "HEAD"), (":method", "OPTIONS"), (":method", "POST"), (":method", "PUT"),
   (":scheme", "http"), (":scheme", "https"), (":status", "103"), (":status", "200"),
   (":status", "304"), (":status", "404"), (":status", "503"), ("accept", "*/*"),
   ("accept", "application/dns-message"), ("accept-encoding", "gzip, deflate, br"),
   ("accept-ranges", "bytes"), ("access-control-allow-headers", "cache-control"),
   ("access-control-allow-headers", "content-type"), ("access-control-allow-origin", "*"),
   ("cache-control", "max-age=0"), ("cache-control", "max-age=2592000"),
   ("cache-control", "max-age=604800"), ("cache-control", "no-cache"),
   ("cache-control", "no-store"), ("cache-control", "public, max-age=31536000"),
   ("content-encoding", "br"), ("content-encoding", "gzip"),
   ("content-type", "application/dns-message"), ("content-type", "application/javascript"),
   ("content-type", "application/json"), ("content-type", "application/x-www-form-urlencoded"),
   ("content-type", "image/gif"), ("content-type", "image/jpeg"), ("content-type", "image/png"),
   ("content-type", "text/css"), ("content-type", "text/html; charset=utf-8"),
   ("content-type", "text/plain"), ("content-type", "text/plain;charset=utf-8"),
   ("range", "bytes=0-"), ("strict-transport-security", "max-age=31536000"),
   ("strict-transport-security", "max-age=31536000; includesubdomains"),
   ("strict-transport-security", "max-age=31536000; includesubdomains; preload"),
   ("vary", "accept-encoding"), ("vary", "origin"), ("x-content-type-options", "nosniff"),
   ("x-xss-protection", "1; mode=block"), (":status", "100"), (":status", "204"),
   (":status", "206"), (":status", "302"), (":status", "400"), (":status", "403"),
   (":status", "421"), (":status", "425"), (":status", "500"), ("accept-language", ""),
   ("access-control-allow-credentials", "FALSE"), ("access-control-allow-credentials", "TRUE"),
   ("access-control-allow-headers", "*"), ("access-control-allow-methods", "get"),
   ("access-control-allow-methods", "get, post, options"),
   ("access-control-allow-methods", "options"),
   ("access-control-expose-headers", "content-length"),
   ("access-control-request-headers", "content-type"), ("access-control-request-method", "get"),
   ("access-control-request-method", "post"), ("alt-svc", "clear"), ("authorization", ""),
   ("content-security-policy", "script-src 'none';object-src 'none';base-uri 'none'"),
   ("early-data", "1"), ("expect-ct", ""), ("forwarded", ""), ("if-range", ""), ("origin", ""),
   ("purpose", "prefetch"), ("server", ""), ("timing-allow-origin", "*"),
   ("upgrade-insecure-requests", "1"), ("user-agent", ""), ("x-forwarded-for", ""),
   ("x-frame-options", "deny"), ("x-frame-options", "sameorigin")]

theorem lt_of_predefinedHeaders {index : Nat} {entry : Header}
    (static : predefinedHeaders[index]? = some entry) : index < 99 := by
  have within := (List.getElem?_eq_some_iff.1 static).1
  exact within

/-- `Reference`: an entry with the name, and one with the name and the value. -/
structure Reference where
  head : Option Nat
  headValue : Option Nat
  deriving DecidableEq

/-- `find_static_ref`; the hash tables of the source only narrow the search down. -/
def findStaticRef (head value : Bytes) : Reference :=
  match predefinedHeaders.findIdx? fun entry => entry.1 == head && entry.2 == value with
  | some index => ⟨some index, some index⟩
  | none => ⟨predefinedHeaders.findIdx? fun entry => entry.1 == head, none⟩

def calcFieldUsage (head value : Bytes) : Nat := head.length + value.length + 32

/-- `Track`, with the counters of `InsertDropManager`. -/
structure Track where
  inserted : Nat := 0
  dropped : Nat := 0
  knownInsertCount : Nat := 0
  maxCapacity : Nat := 0
  capacity : Nat := 0
  usage : Nat := 0
  deriving DecidableEq

def Track.absToRel (track : Track) (index : Nat) : Option Nat :=
  if index < track.dropped ∨ track.inserted ≤ index then none
  else some (track.inserted - 1 - index)

/-- `FieldEncodeContext`; the table grows at its end. -/
structure FieldEncodeContext where
  idRef : Nat → Option (List Nat) := fun _ => none
  refCount : Nat → Nat := fun _ => 0
  encTable : List Header := []
  track : Track := {}

namespace FieldEncodeContext

variable (enc : FieldEncodeContext)

def setMaxCapacity (capa : Nat) : FieldEncodeContext :=
  { enc with track := { enc.track with maxCapacity := capa } }

def updateCapacity (capa : Nat) : Except QpackError FieldEncodeContext :=
  if enc.track.maxCapacity < capa then .error .largeCapacity
  else if capa < enc.track.usage then .error .smallCapacity
  else .ok { enc with track := { enc.track with capacity := capa } }

/-- `add_field`: the index of the new entry, `none` if there is no room for it. -/
def addField (head value : Bytes) : Option (Nat × FieldEncodeContext) :=
  let add := calcFieldUsage head value
  if enc.track.capacity < enc.track.usage + add then none
  else
    some (enc.track.inserted, { enc with
      encTable := enc.encTable ++ [(head, value)]
      track := { enc.track with
        usage := enc.track.usage + add
        inserted := enc.track.inserted + 1 } })

/-- The loop of `find_ref`, over the entries from the newest on. -/
def findRefLoop (head value : Bytes) (maxIndex : Nat) : Nat → List Header → Reference → Reference
  | _, [], ref => ref
  | i, (hd, val) :: rest, ref =>
    if hd = head then
      let ref := if ref.head ≠ none then { ref with head := some (maxIndex - i) } else ref
      if val = value then { ref with headValue := some (maxIndex - i) }
      else findRefLoop head value maxIndex (i + 1) rest ref
    else findRefLoop head value maxIndex (i + 1) rest ref

/-- `find_ref` of a name and a value -/
def findRef (head value : Bytes) : Reference :=
  findRefLoop head value (enc.track.inserted - 1) 0 enc.encTable.reverse ⟨none, none⟩

def addRef (ref id : Nat) : Except QpackError FieldEncodeContext :=
  if ref < enc.track.dropped ∨ enc.track.inserted ≤ ref then .error .invalidDynamicTableAbsRef
  else
    .ok { enc with
      refCount := Function.update enc.refCount ref (enc.refCount ref + 1)
      idRef := Function.update enc.idRef id (some ((enc.idRef id).getD [] ++ [ref])) }

/-- The loop of `remove_ref` over the references of a stream. -/
def removeRefs (isAck : Bool) : FieldEncodeContext → List Nat →
    FieldEncodeContext × Option QpackError
  | enc, [] => (enc, none)
  | enc, ref :: refs =>
    if enc.refCount ref = 0 then (enc, some .invalidStreamId)
    else
      let known := if isAck && decide (enc.track.knownInsertCount < ref + 1) then ref + 1
        else enc.track.knownInsertCount
      removeRefs isAck { enc with
        refCount := Function.update enc.refCount ref (enc.refCount ref - 1)
        track := { enc.track with knownInsertCount := known } } refs

def removeRef (id : Nat) (isAck : Bool) : FieldEncodeContext × Option QpackError :=
  match enc.idRef id with
  | none => (enc, some .invalidStreamId)
  | some acked =>
    match removeRefs isAck enc acked with
    | (enc, some error) => (enc, some error)
    | (enc, none) => ({ enc with idRef := Function.update enc.idRef id none }, none)

def increment (incr : Nat) : FieldEncodeContext × Option QpackError :=
  if enc.track.inserted < add64 enc.track.knownInsertCount incr then (enc, some .invalidIncrement)
  else
    ({ enc with track := { enc.track with
        knownInsertCount := add64 enc.track.knownInsertCount incr } }, none)

def dropField : Except QpackError FieldEncodeContext :=
  if enc.track.inserted - enc.track.dropped = 0 then .error .noEntryExists
  else
    let toDrop := enc.track.dropped
    if toDrop ≤ enc.track.knownInsertCount then .error .dynamicRefExists
    else if enc.refCount toDrop ≠ 0 then .error .dynamicRefExists
    else
      let rem := enc.encTable.headD ([], [])
      .ok { enc with
        encTable := enc.encTable.tail
        refCount := Function.update enc.refCount toDrop 0
        track := { enc.track with
          usage := enc.track.usage - calcFieldUsage rem.1 rem.2
          dropped := enc.track.dropped + 1 } }

end FieldEncodeContext

/-- `FieldDecodeContext`; the table grows at its end. -/
structure FieldDecodeContext where
  decQue : List Header := []
  track : Track := {}
  deriving DecidableEq

namespace FieldDecodeContext

/-- `drop_usage`: at most every entry is dropped. -/
def dropUsage : Nat → FieldDecodeContext → FieldDecodeContext
  | 0, dec => dec
  | rounds + 1, dec =>
    if dec.track.capacity < dec.track.usage then
      let field := dec.decQue.headD ([], [])
      dropUsage rounds { dec with
        decQue := dec.decQue.tail
        track := { dec.track with
          usage := dec.track.usage - calcFieldUsage field.1 field.2
          dropped := dec.track.dropped + 1 } }
    else dec

theorem dropUsage_of_fits {dec : FieldDecodeContext} (rounds : Nat)
    (fits : dec.track.usage ≤ dec.track.capacity) : dropUsage rounds dec = dec := by
  cases rounds with
  | zero => rfl
  | succ rounds => rw [dropUsage, if_neg (not_lt.2 fits)]

variable (dec : FieldDecodeContext)

/-- `update_capacity`; `none` stands for `false`. -/
def updateCapacity (capa : Nat) : Option FieldDecodeContext :=
  if dec.track.maxCapacity < capa then none
  else
    some (dropUsage dec.decQue.length { dec with track := { dec.track with capacity := capa } })

/-- `add_field`: an entry that is larger than the table is not added. -/
def addField (head value : Bytes) : Except QpackError FieldDecodeContext :=
  let fieldUsage := calcFieldUsage head value
  if dec.track.capacity < fieldUsage then .error .largeField
  else
    .ok (dropUsage (dec.decQue.length + 1) { dec with
      decQue := dec.decQue ++ [(head, value)]
      track := { dec.track with
        usage := dec.track.usage + fieldUsage
        inserted := dec.track.inserted + 1 } })

def toAbs (rel : Nat) : Nat :=
  sub64 (add64 rel dec.track.inserted) 1

/-- `find_ref`: the entry is looked up from the newest one on although the table grows at its end. -/
def findRef (absIndex : Nat) : Option Header :=
  match dec.track.absToRel absIndex with
  | none => none
  | some index => dec.decQue[index]?

end FieldDecodeContext

end Futils.Qpack
