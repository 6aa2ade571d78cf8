/-
# The pending-handshake ledger

The responder remembers each handshake it has answered in a fixed array of slots,
one per handshake id, from the moment its ServerHello leaves until the entry
expires. A slot is free, holds a live entry, or holds a tombstone: the id was
consumed by a completed handshake, or it was given up after too many bad
signatures. This file embeds the ledger functions of `protocol/handshake.c`.
Every function that reads the store's clock takes the readings as arguments, in
the order in which the source makes them.
-/

import MldsaAuth.Foundation.Bytes
import MldsaAuth.Foundation.Slots

namespace MldsaAuth.Protocol

open Foundation

/-- `UINT64_MAX`, which a clock that cannot be read also reports. -/
def uint64Max : ℕ := 2 ^ 64 - 1

/-- `HANDSHAKE_PENDING_MAX`: capacity limit of the slots inside the store. -/
def handshakePendingMax : ℕ := 256

/-- `HANDSHAKE_PENDING_EXT_MAX`: capacity limit of slots the caller provides. -/
def handshakePendingExtMax : ℕ := 2048

/-- `HANDSHAKE_AUTH_FAILURE_LIMIT`. -/
def handshakeAuthFailureLimit : ℕ := 3

/-- The wire form of a handshake id. -/
abbrev HandshakeId := Blob 16

/-- A transcript digest. -/
abbrev Digest := Blob 32

/-- What a slot can hold. The source's fifth value, `PENDING_SLOT_EXPIRED`, is
never stored; it is what `inspect` reports, see `PendingReport`. -/
inductive PendingSlotState where
  | free
  | active
  | consumed
  | authLimited
deriving DecidableEq, Repr

/-- `pending_status_t`. -/
inductive PendingStatus where
  | ok
  | invalidArg
  | notFound
  | expired
  | consumed
  | authLimit
  | full
deriving DecidableEq, Repr

/-- `handshake_pending_entry_t`. -/
structure PendingEntry where
  state : PendingSlotState
  handshakeId : HandshakeId
  thClientAuth : Digest
  deadlineMs : ℕ
  failureCount : ℕ
deriving DecidableEq

namespace PendingEntry

/-- The zeroed slot `free_slot` leaves behind. -/
def blank : PendingEntry where
  state := .free
  handshakeId := Blob.zero 16
  thClientAuth := Blob.zero 32
  deadlineMs := 0
  failureCount := 0

/-- The id a slot is held under; a free slot is held under none, whatever its bytes. -/
def key (entry : PendingEntry) : Option HandshakeId :=
  if entry.state = .free then none else some entry.handshakeId

/-- `entry_expired`. -/
def expired (entry : PendingEntry) (now : ℕ) : Bool := decide (entry.deadlineMs ≤ now)

/-- `tombstone`: the state changes and the digest is wiped, the deadline stays. -/
def tombstone (entry : PendingEntry) (state : PendingSlotState) : PendingEntry :=
  { entry with state := state, thClientAuth := Blob.zero 32 }

end PendingEntry

/-- `handshake_pending_store_t`. A store that was wiped, or whose initialisation
was refused, has a NULL slot pointer; it is the store without slots. -/
structure PendingStore where
  slots : List PendingEntry
  external : Bool
  ttlMs : ℕ
deriving DecidableEq

namespace PendingStore

/-- The zeroed store. -/
def blank : PendingStore where
  slots := []
  external := true
  ttlMs := 0

/-- `cap_limit_for`: which limit applies follows from where the slots are. -/
def capLimitFor (external : Bool) : ℕ :=
  if external then handshakePendingExtMax else handshakePendingMax

/-- `store_usable`. -/
def storeUsable (store : PendingStore) : Bool :=
  decide (1 ≤ store.slots.length) &&
    decide (store.slots.length ≤ capLimitFor store.external) && decide (0 < store.ttlMs)

/-- `store_init_common`, behind both public initialisers. A refused call leaves
the store unusable; a successful one zeroes every slot. -/
def storeInitCommon (external : Bool) (capacity : ℕ) (ttlMs : UInt64) :
    PendingStatus × PendingStore :=
  if capacity < 1 ∨ capLimitFor external < capacity ∨ ttlMs = 0 then (.invalidArg, blank)
  else
    (.ok,
      { slots := List.replicate capacity .blank, external := external, ttlMs := ttlMs.toNat })

variable (store : PendingStore)

/-- `find_slot`: the first slot in use under the id. -/
def findSlot (id : HandshakeId) : Option ℕ :=
  Slots.slotOf PendingEntry.key id store.slots

/-- Overwrite one slot. -/
def setSlot (index : ℕ) (entry : PendingEntry) : PendingStore :=
  { store with slots := store.slots.set index entry }

/-- `handshake_pending_sweep`: free every slot in use whose deadline has come. -/
def sweep (now : ℕ) : PendingStore :=
  if store.storeUsable then
    { store with
      slots := Slots.clear (fun entry => entry.state != .free && entry.expired now) .blank
        store.slots }
  else store

/-- The deadline of an entry inserted at `now`, saturating instead of wrapping. -/
def deadline (now : ℕ) : ℕ :=
  if uint64Max - store.ttlMs < now then uint64Max else now + store.ttlMs

/-- `handshake_pending_insert`. The clock is read once by the sweep and once more
for the deadline. -/
def insert (id : HandshakeId) (thClientAuth : Digest)
    (sweepNow now : ℕ) : PendingStatus × PendingStore :=
  if store.storeUsable then
    let swept := store.sweep sweepNow
    match swept.findSlot id with
    | some _ => (.invalidArg, swept)
    | none =>
      match swept.slots.findIdx? fun entry => entry.state = .free with
      | some index =>
        (.ok, swept.setSlot index
          { state := .active
            handshakeId := id
            thClientAuth := thClientAuth
            deadlineMs := swept.deadline now
            failureCount := 0 })
      | none => (.full, swept)
  else (.invalidArg, store)

/-- What the common prologue of the functions on one entry finds. -/
inductive Located where
  /-- The call ends here, with this status and this store. -/
  | refused (status : PendingStatus) (store : PendingStore)
  /-- The entry is live and sits in this slot. -/
  | live (index : ℕ) (entry : PendingEntry)

variable (id : HandshakeId)

/-- The prologue shared by `get_digest`, `record_failure`, `consume_success` and
`cancel`: usable store, present entry, expiry before state, then tombstones. -/
def locate (now : ℕ) : Located :=
  if store.storeUsable then
    match store.findSlot id with
    | none => .refused .notFound store
    | some index =>
      let entry := store.slots.getD index .blank
      if entry.expired now then .refused .expired (store.setSlot index .blank)
      else
        match entry.state with
        | .consumed => .refused .consumed store
        | .authLimited => .refused .authLimit store
        | .free | .active => .live index entry
  else .refused .invalidArg store

/-- `handshake_pending_get_digest`. -/
def getDigest (now : ℕ) : PendingStatus × Digest × PendingStore :=
  match store.locate id now with
  | .refused status store => (status, Blob.zero 32, store)
  | .live _ entry => (.ok, entry.thClientAuth, store)

/-- `handshake_pending_record_failure`. The counter is a `uint8_t`. -/
def recordFailure (now : ℕ) : PendingStatus × PendingStore :=
  match store.locate id now with
  | .refused status store => (status, store)
  | .live index entry =>
    let counted := { entry with failureCount := (entry.failureCount + 1) % 256 }
    if handshakeAuthFailureLimit ≤ counted.failureCount then
      (.authLimit, store.setSlot index (counted.tombstone .authLimited))
    else (.ok, store.setSlot index counted)

/-- `handshake_pending_consume_success`. -/
def consumeSuccess (now : ℕ) : PendingStatus × PendingStore :=
  match store.locate id now with
  | .refused status store => (status, store)
  | .live index entry => (.ok, store.setSlot index (entry.tombstone .consumed))

/-- `handshake_pending_cancel`. -/
def cancel (now : ℕ) : PendingStatus × PendingStore :=
  match store.locate id now with
  | .refused status store => (status, store)
  | .live index _ => (.ok, store.setSlot index .blank)

/-- What `inspect` says about an entry: its slot state, or that it has expired. -/
inductive PendingReport where
  | slot (state : PendingSlotState)
  | expired
deriving DecidableEq, Repr

/-- `handshake_pending_inspect`, which never changes the store. -/
def inspect (id : HandshakeId) (now : ℕ) : PendingStatus × PendingReport × ℕ :=
  if store.storeUsable then
    match store.findSlot id with
    | none => (.notFound, .slot .free, 0)
    | some index =>
      let entry := store.slots.getD index .blank
      if entry.expired now then (.expired, .expired, entry.failureCount)
      else
        match entry.state with
        | .consumed => (.consumed, .slot .consumed, entry.failureCount)
        | .authLimited => (.authLimit, .slot .authLimited, entry.failureCount)
        | .free | .active => (.ok, .slot entry.state, entry.failureCount)
  else (.invalidArg, .slot .free, 0)

/-- `handshake_pending_active_count`. -/
def activeCount (now : ℕ) : ℕ :=
  if store.storeUsable then
    store.slots.countP fun entry => entry.state = .active && !entry.expired now
  else 0

end PendingStore

end MldsaAuth.Protocol
