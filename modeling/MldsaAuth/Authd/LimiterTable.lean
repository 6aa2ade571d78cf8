/-
# The table of the limiter over any calls

The limiter's table is open-addressed, and entries are replaced in place by other keys.
This file shows what holds of it after any calls from initialisation, whatever the hash
function and the clock: every key is found where it stands, only an entry that says nothing
any more is handed to another key, and the table is full only if there is no such entry.
-/

import MldsaAuth.Authd.Admissions

namespace MldsaAuth.Authd

open Foundation Foundation.Probing Function

/-- A call on the limiter. -/
inductive LimiterCall where
  | admission (addr : AuthdAddr) (now : ℕ)
  | release (addr : AuthdAddr)
  | refund (addr : AuthdAddr) (now : ℕ)

namespace Ratelimit

variable {prims : DaemonPrimitives} {limiter next : Ratelimit} {key : Bytes} {index now : ℕ}
  {addr : AuthdAddr}

/-- One call. -/
def step (prims : DaemonPrimitives) (limiter : Ratelimit) : LimiterCall → Ratelimit
  | .admission addr now => (limiter.admitAddr prims addr now).2
  | .release addr => limiter.release prims addr
  | .refund addr now => limiter.refund prims addr now

theorem Sound.step (hsound : limiter.Sound prims) (call : LimiterCall) :
    (limiter.step prims call).Sound prims := by
  cases call with
  | admission addr now =>
    have hadmission := @Sound.admission prims limiter addr now hsound
    dsimp only [Ratelimit.step]
    generalize limiter.admitAddr prims addr now = result at hadmission ⊢
    cases hadmission with
    | allowed _ hcounts | denied _ hcounts => exact hcounts.sound
  | release => exact hsound.release.1.sound
  | refund => exact hsound.refund.1.sound

/-- `find_or_add` only gives a position to a key if it may be taken over. -/
theorem Sound.keyAt_findOrAdd (hsound : limiter.Sound prims)
    (hkeys : (limiter.findOrAdd prims key now).2.keyAt index ≠ limiter.keyAt index) :
    limiter.reclaimable (limiter.entryAt index) now = true := by
  unfold Ratelimit.findOrAdd at hkeys
  split at hkeys
  · exact absurd rfl hkeys
  split at hkeys
  · rename_i found hreclaim
    rw [reclaimFrom_eq] at hreclaim
    obtain ⟨steps, -, hprobe, hstops, -⟩ := firstFrom_eq_some le_rfl hreclaim
    rw [keyAt_setEntry hsound.length (hprobe ▸ probe_lt (by decide) steps), update_apply] at hkeys
    split at hkeys
    · rename_i hhere
      exact hhere ▸ hstops
    · exact absurd rfl hkeys
  · exact absurd rfl hkeys

/-- Past `find_or_add` an admission leaves the keys alone. -/
theorem Sound.keyAt_admitAddr (hsound : limiter.Sound prims) (hkey : addr.key = some key) :
    (limiter.admitAddr prims addr now).2.keyAt = (limiter.findOrAdd prims key now).2.keyAt := by
  obtain ⟨hadded, hposition⟩ :=
    @Sound.findOrAdd prims limiter key now hsound (AuthdAddr.key_ne_nil hkey)
  unfold admitAddr
  rw [hkey]
  dsimp only
  generalize limiter.findOrAdd prims key now = found at hadded hposition ⊢
  obtain ⟨position, table⟩ := found
  cases position with
  | none => rfl
  | some index =>
    obtain ⟨hindex, -⟩ := hposition index rfl
    have hkey : (table.refillAddr (table.entryAt index) now).key = table.keyAt index := rfl
    dsimp only at hadded ⊢
    generalize table.refillAddr (table.entryAt index) now = filled at hkey ⊢
    have hfilled := keyAt_setEntry_same hadded.sound hindex hkey
    have htwice : ∀ entry : RatelimitEntry, entry.key = table.keyAt index →
        ((table.setEntry index filled).setEntry index entry).keyAt = table.keyAt := by
      intro entry hentry
      rw [keyAt_setEntry ((List.length_set).trans hadded.sound.length) hindex, hfilled, hentry,
        update_eq_self]
    split
    · rfl
    split
    · exact hfilled
    split
    · exact hfilled
    · rw [← htwice
        { filled with
          bucket := { filled.bucket with tokensMilli := filled.bucket.tokensMilli - 1000 }
          conns := (filled.conns + 1) % 2 ^ 32 } hkey]
      exact keyAt_of_entries rfl

/-- A call only hands a position to another key if it may be taken over. -/
theorem Sound.keyAt_step (hsound : limiter.Sound prims) {call : LimiterCall}
    (hkeys : (limiter.step prims call).keyAt index ≠ limiter.keyAt index) :
    ∃ addr now, call = .admission addr now ∧
      limiter.reclaimable (limiter.entryAt index) now = true := by
  cases call with
  | release => exact absurd (congrFun hsound.release.2 index) hkeys
  | refund => exact absurd (congrFun hsound.refund.2 index) hkeys
  | admission addr now =>
    refine ⟨addr, now, rfl, ?_⟩
    cases hkey : addr.key with
    | some key =>
      dsimp only [Ratelimit.step] at hkeys
      rw [hsound.keyAt_admitAddr hkey] at hkeys
      exact hsound.keyAt_findOrAdd hkeys
    | none =>
      dsimp only [Ratelimit.step] at hkeys
      unfold admitAddr at hkeys
      rw [hkey] at hkeys
      exact absurd rfl hkeys

/-- The table is only full for a key that is not in it, with no position to take over. -/
theorem admitAddr_denyTable (hdenied : (limiter.admitAddr prims addr now).1 = .denyTable) :
    ∃ key, addr.key = some key ∧ limiter.findIdx prims key = none ∧
      limiter.reclaimFrom (bucketOf prims key) now ratelimitEntries = none := by
  unfold admitAddr at hdenied
  split at hdenied
  · cases hdenied
  rename_i key hkey
  refine ⟨key, hkey, ?_⟩
  unfold findOrAdd at hdenied
  split at hdenied
  · rename_i hfound
    split at hfound
    · cases hfound
    rename_i hfind
    split at hfound
    · cases hfound
    rename_i hreclaim
    exact ⟨hfind, hreclaim⟩
  · split at hdenied
    · cases hdenied
    dsimp only at hdenied
    split at hdenied
    · cases hdenied
    split at hdenied
    · cases hdenied
    · cases hdenied

/-- An entry that is in use may be taken over if it counts no connection and its bucket is full
at that time. -/
theorem reclaimable_iff {entry : RatelimitEntry} (hused : entry.key ≠ []) :
    limiter.reclaimable entry now = true ↔
      entry.conns = 0 ∧ limiter.capMilli ≤ (limiter.refillAddr entry now).bucket.tokensMilli := by
  unfold reclaimable
  rw [decide_eq_false hused, Bool.false_or, Bool.and_eq_true, beq_iff_eq, decide_eq_true_iff]

end Ratelimit

open Ratelimit in
/-- After any calls from initialisation, under any hash function and clock: a key in the table
stands once, the probe from its home reaches it before any free entry, and it is found. A call
hands an entry that is in use to another key only if it counts no connection and its bucket,
refilled to the time of the call, is full. And an admission answers that the table is full only
if every entry is in use by another key and may not be handed over. -/
theorem limiter_table (prims : DaemonPrimitives)
    (perMin burst globalPerSec maxConns start : ℕ) (calls : List LimiterCall) :
    let limiter := calls.foldl (step prims) (init perMin burst globalPerSec maxConns start)
    (∀ index < ratelimitEntries, limiter.keyAt index ≠ [] →
      (∀ other < ratelimitEntries, limiter.keyAt other = limiter.keyAt index → other = index) ∧
      (∃ steps < ratelimitEntries,
        probe ratelimitEntries (bucketOf prims (limiter.keyAt index)) steps = index ∧
        ∀ earlier < steps, limiter.keyAt
          (probe ratelimitEntries (bucketOf prims (limiter.keyAt index)) earlier) ≠ []) ∧
      limiter.findIdx prims (limiter.keyAt index) = some index) ∧
    (∀ call index, limiter.keyAt index ≠ [] →
      (limiter.step prims call).keyAt index ≠ limiter.keyAt index →
      ∃ addr now, call = .admission addr now ∧ (limiter.entryAt index).conns = 0 ∧
        limiter.capMilli ≤
          (limiter.refillAddr (limiter.entryAt index) now).bucket.tokensMilli) ∧
    ∀ addr now, (limiter.admitAddr prims addr now).1 = .denyTable →
      ∀ index < ratelimitEntries, limiter.keyAt index ≠ [] ∧
        addr.key ≠ some (limiter.keyAt index) ∧
        ¬((limiter.entryAt index).conns = 0 ∧ limiter.capMilli ≤
          (limiter.refillAddr (limiter.entryAt index) now).bucket.tokensMilli) := by
  intro limiter
  have hsound : limiter.Sound prims :=
    List.foldlRecOn calls (step prims) sound_init fun _ hsound call _ => hsound.step call
  refine ⟨fun index hindex hused => ⟨fun other hother hsame =>
      hsound.proper.unique other hother index hindex (hsame ▸ hused) hsame,
    hsound.proper.reached index hindex hused, ?_⟩, fun call index hused hkeys => ?_,
    fun addr now hdenied index hindex => ?_⟩
  · rw [findIdx_eq]
    exact hsound.proper.lookup_of_key hindex rfl hused
  · obtain ⟨addr, now, hcall, hreclaim⟩ := hsound.keyAt_step hkeys
    exact ⟨addr, now, hcall, (reclaimable_iff hused).mp hreclaim⟩
  · obtain ⟨key, hkey, hfind, hreclaim⟩ := admitAddr_denyTable hdenied
    rw [reclaimFrom_eq] at hreclaim
    obtain ⟨steps, hsteps, hprobe⟩ := @exists_probe _ (bucketOf prims key) _ hindex
    have hpassed := firstFrom_eq_none le_rfl hreclaim (by omega) hsteps
    rw [hprobe] at hpassed
    have hused : limiter.keyAt index ≠ [] := by
      intro hfree
      unfold reclaimable at hpassed
      rw [decide_eq_true (by exact hfree), Bool.true_or] at hpassed
      cases hpassed
    refine ⟨hused, fun hsame => ?_, ?_⟩
    · rw [hkey] at hsame
      exact hsound.proper.ne_of_lookup (findIdx_eq ▸ hfind) (AuthdAddr.key_ne_nil hkey) hindex
        (Option.some.inj hsame).symm
    · rw [← reclaimable_iff hused, hpassed]
      exact Bool.false_ne_true

end MldsaAuth.Authd
