/-
# The transport rate limiter

Each client address has a token bucket and a count of its open connections in a
fixed, open-addressed table; one more bucket bounds the whole daemon. Admission
takes one token from both buckets and counts the connection, a release gives the
connection back, a refund the address's token. This file embeds `authd/ratelimit.c`
with its unsigned 64-bit arithmetic; the observable counters are left out.
-/

import MldsaAuth.Authd.Codecs
import MldsaAuth.Authd.ProxyV2

namespace MldsaAuth.Authd

open Foundation

/-- `RATELIMIT_ENTRIES`. -/
def ratelimitEntries : ℕ := 1024

/-- `ratelimit_verdict_t`. -/
inductive RatelimitVerdict where
  | allow
  | denyConns
  | denyAddr
  | denyGlobal
  | denyTable
  | denyNoAddr
deriving DecidableEq, Repr

/-- A token bucket, in thousandths of a token. -/
structure Bucket where
  tokensMilli : ℕ
  lastMs : ℕ
deriving DecidableEq

/-- `refill`: what the elapsed time has earned, capped. The time is only advanced by what
produced whole thousandths. -/
def Bucket.refill (bucket : Bucket) (now num den capMilli : ℕ) : Bucket :=
  if now ≤ bucket.lastMs then bucket
  else
    let add := (now - bucket.lastMs) * num % 2 ^ 64 / den
    if add = 0 then bucket
    else
      { tokensMilli := min ((bucket.tokensMilli + add) % 2 ^ 64) capMilli
        lastMs := (bucket.lastMs + add * den % 2 ^ 64 / num) % 2 ^ 64 }

/-- `ratelimit_entry_t`; an entry with an empty key is free. -/
structure RatelimitEntry where
  key : Bytes
  bucket : Bucket
  conns : ℕ
deriving DecidableEq

/-- The zeroed entry. -/
def RatelimitEntry.blank : RatelimitEntry where
  key := []
  bucket := ⟨0, 0⟩
  conns := 0

/-- `ratelimit_t`. -/
structure Ratelimit where
  perMin : ℕ
  burst : ℕ
  globalPerSec : ℕ
  maxConns : ℕ
  globalBucket : Bucket
  entries : List RatelimitEntry
deriving DecidableEq

/-- `clamp_u32`. -/
def clamp (value low high : ℕ) : ℕ :=
  if value < low then low else if high < value then high else value

namespace Ratelimit

/-- `ratelimit_init`. -/
def init (perMin burst globalPerSec maxConns now : ℕ) : Ratelimit where
  perMin := clamp perMin 1 10000
  burst := clamp burst 1 10000
  globalPerSec := clamp globalPerSec 1 10000
  maxConns := clamp maxConns 1 4096
  globalBucket := ⟨clamp globalPerSec 1 10000 * 1000, now⟩
  entries := List.replicate ratelimitEntries .blank

variable (limiter : Ratelimit)

/-- The capacity of an address's bucket. -/
def capMilli : ℕ := limiter.burst * 1000

/-- `refill_addr`. -/
def refillAddr (entry : RatelimitEntry) (now : ℕ) : RatelimitEntry :=
  { entry with bucket := entry.bucket.refill now limiter.perMin 60 limiter.capMilli }

/-- `refill_global`. -/
def refillGlobal (now : ℕ) : Ratelimit :=
  { limiter with
    globalBucket := limiter.globalBucket.refill now limiter.globalPerSec 1
      (limiter.globalPerSec * 1000) }

/-- The entry at a position of the table. -/
def entryAt (index : ℕ) : RatelimitEntry :=
  limiter.entries.getD index .blank

/-- Overwrite one entry. -/
def setEntry (index : ℕ) (entry : RatelimitEntry) : Ratelimit :=
  { limiter with entries := limiter.entries.set index entry }

/-- `bucket_of`: where the probe for a key starts. -/
def bucketOf (prims : DaemonPrimitives) (key : Bytes) : ℕ :=
  beNat (prims.shorthash key).toList % ratelimitEntries

/-- `reclaimable`: free, or idle with a bucket that is full again. -/
def reclaimable (limiter : Ratelimit) (entry : RatelimitEntry) (now : ℕ) : Bool :=
  decide (entry.key = []) ||
    (entry.conns == 0 &&
      decide (limiter.capMilli ≤ (limiter.refillAddr entry now).bucket.tokensMilli))

/-- The loop of `find_idx`, with the number of positions still to probe. -/
def findIdxFrom (limiter : Ratelimit) (key : Bytes) (start : ℕ) : ℕ → Option ℕ
  | 0 => none
  | left + 1 =>
    let index := (start + (ratelimitEntries - (left + 1))) % ratelimitEntries
    let entry := limiter.entryAt index
    if entry.key = [] then none
    else if entry.key = key then some index
    else limiter.findIdxFrom key start left

/-- `find_idx`. -/
def findIdx (prims : DaemonPrimitives) (limiter : Ratelimit) (key : Bytes) : Option ℕ :=
  limiter.findIdxFrom key (bucketOf prims key) ratelimitEntries

/-- The second loop of `find_or_add`: the first position that may be taken over. -/
def reclaimFrom (limiter : Ratelimit) (start now : ℕ) : ℕ → Option ℕ
  | 0 => none
  | left + 1 =>
    let index := (start + (ratelimitEntries - (left + 1))) % ratelimitEntries
    if limiter.reclaimable (limiter.entryAt index) now then some index
    else limiter.reclaimFrom start now left

variable (prims : DaemonPrimitives)

/-- `find_or_add`: the position of a key, which may be added for it. -/
def findOrAdd (limiter : Ratelimit) (key : Bytes) (now : ℕ) : Option ℕ × Ratelimit :=
  match limiter.findIdx prims key with
  | some index => (some index, limiter)
  | none =>
    match limiter.reclaimFrom (bucketOf prims key) now ratelimitEntries with
    | some index =>
      (some index, limiter.setEntry index
        { key := key, bucket := ⟨limiter.capMilli, now⟩, conns := 0 })
    | none => (none, limiter)

/-- `ratelimit_admit`. -/
def admitAddr (limiter : Ratelimit) (addr : AuthdAddr) (now : ℕ) : RatelimitVerdict × Ratelimit :=
  match addr.key with
  | none => (.denyNoAddr, limiter)
  | some key =>
    match limiter.findOrAdd prims key now with
    | (none, limiter) => (.denyTable, limiter)
    | (some index, limiter) =>
      if limiter.maxConns ≤ (limiter.entryAt index).conns then (.denyConns, limiter)
      else
        let entry := limiter.refillAddr (limiter.entryAt index) now
        let limiter := limiter.setEntry index entry
        if entry.bucket.tokensMilli < 1000 then (.denyAddr, limiter)
        else
          let limiter := limiter.refillGlobal now
          if limiter.globalBucket.tokensMilli < 1000 then (.denyGlobal, limiter)
          else
            (.allow,
              { limiter.setEntry index
                  { entry with
                    bucket :=
                      { entry.bucket with tokensMilli := entry.bucket.tokensMilli - 1000 }
                    conns := (entry.conns + 1) % 2 ^ 32 } with
                globalBucket :=
                  { limiter.globalBucket with
                    tokensMilli := limiter.globalBucket.tokensMilli - 1000 } })

/-- `ratelimit_release`. -/
def release (limiter : Ratelimit) (addr : AuthdAddr) : Ratelimit :=
  match addr.key.bind (limiter.findIdx prims) with
  | none => limiter
  | some index =>
    let entry := limiter.entryAt index
    if 0 < entry.conns then limiter.setEntry index { entry with conns := entry.conns - 1 }
    else limiter

/-- `ratelimit_refund`. -/
def refund (limiter : Ratelimit) (addr : AuthdAddr) (now : ℕ) : Ratelimit :=
  match addr.key.bind (limiter.findIdx prims) with
  | none => limiter
  | some index =>
    let entry := limiter.refillAddr (limiter.entryAt index) now
    limiter.setEntry index
      { entry with
        bucket :=
          { entry.bucket with
            tokensMilli := min (entry.bucket.tokensMilli + 1000) limiter.capMilli } }

end Ratelimit

end MldsaAuth.Authd
