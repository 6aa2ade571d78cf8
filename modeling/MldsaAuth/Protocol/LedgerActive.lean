/-
# Active ledger entries

A context reads its transcript digest back from the ledger and trusts it, so what
matters about a ledger is which digests are active in it and under which ids. Only an
insertion makes a digest active; a consumption takes exactly one away. These facts
hold for every ledger of a process, whether or not it has been initialised.
-/

import MldsaAuth.Protocol.Calls
import MldsaAuth.Protocol.LedgerLifetime

namespace MldsaAuth.Protocol

open Crypto PendingOp PendingEntry Function

variable {after : PendingEntry} {sweepNow : ℕ}

namespace PendingStore

variable {store mid next : PendingStore} {id wanted : HandshakeId} {digest found : Digest}
  {op : PendingOp} {now : ℕ}

/-- A store that is usable only when it is well formed. -/
def Sound (store : PendingStore) : Prop := store.storeUsable = true → store.WellFormed

/-- The digest is active under the id. -/
def ActiveAt (store : PendingStore) (id : HandshakeId) (digest : Digest) : Prop :=
  ∃ entry, store.entry id = some entry ∧ entry.state = .active ∧ entry.thClientAuth = digest

/-- An unusable store refuses every call that is about an entry and never changes. -/
theorem apply_of_unusable (hunusable : store.storeUsable = false) (op : PendingOp) :
    (store.apply op).2 = store ∧ (op.subject.isSome = true → (store.apply op).1.status ≠ .ok) := by
  cases op <;>
    simp [apply, insert, getDigest, recordFailure, consumeSuccess, cancel, sweep, inspect, locate,
      hunusable, subject]

/-- A call keeps a store sound. -/
theorem sound_apply (hsound : store.Sound) (op : PendingOp) : (store.apply op).2.Sound := by
  cases husable : store.storeUsable with
  | false =>
    rw [(apply_of_unusable husable op).1]
    exact hsound
  | true => exact fun _ => (stepped_apply (hsound husable) op).wellFormed

/-- A freshly initialised store is sound and holds nothing, as is a refused one. -/
theorem sound_storeInitCommon {external : Bool} {capacity : ℕ} {ttlMs : UInt64} :
    (storeInitCommon external capacity ttlMs).2.Sound ∧
      ∀ id, (storeInitCommon external capacity ttlMs).2.entry id = none := by
  cases hinit : storeInitCommon external capacity ttlMs with
  | mk status store =>
    by_cases hok : status = .ok
    · subst hok
      obtain ⟨hwf, hempty⟩ := wellFormed_of_storeInitCommon hinit
      exact ⟨fun _ => hwf, fun id => congrFun hempty id⟩
    have hblank : store = blank := by
      unfold storeInitCommon at hinit
      split at hinit
      · exact (Prod.mk.inj hinit).2.symm
      · exact absurd (Prod.mk.inj hinit).1.symm hok
    subst hblank
    exact ⟨fun husable => absurd husable (show ¬ blank.storeUsable = true by decide), fun id => rfl⟩

section

variable (hsound : store.Sound)

include hsound

/-- An active entry was there before the call, with the same digest and deadline, unless the
call inserted it. -/
theorem active_before_apply (op : PendingOp)
    (hop : op.isInsert = true → op.subject = some id → (store.apply op).1.status ≠ .ok)
    (hafter : (store.apply op).2.entry id = some after) (hactive : after.state = .active) :
    ∃ before, store.entry id = some before ∧ before.state = .active ∧
      before.thClientAuth = after.thClientAuth ∧ before.deadlineMs = after.deadlineMs := by
  cases husable : store.storeUsable with
  | false =>
    rw [(apply_of_unusable husable op).1] at hafter
    exact ⟨after, hafter, hactive, rfl, rfl⟩
  | true =>
    have hstep := (stepped_apply (hsound husable) op).entry id
    rw [hafter] at hstep
    generalize hbefore : store.entry id = before at hstep
    generalize hsome : some after = next at hstep
    cases hstep with
    | untouched | refused | read => exact ⟨after, hsome.symm, hactive, rfl, rfl⟩
    | evicted => cases hsome
    | cancelled => cases hsome
    | @failed found now hstate =>
      obtain rfl := Option.some.inj hsome
      exact ⟨found, rfl, hstate, rfl, rfl⟩
    | limited hstate hlive hrecord hcount hreply hnext =>
      obtain rfl := Option.some.inj hsome
      rw [hnext] at hactive
      cases hactive
    | consumed =>
      obtain rfl := Option.some.inj hsome
      simp [tombstone] at hactive
    | inserted hold hinsert hreply =>
      exact absurd hreply (hop (by rw [hinsert]; rfl) (by rw [hinsert]; rfl))

/-- Only a successful insertion makes a digest active. -/
theorem activeAt_of_apply (hop : op.isInsert = true → (store.apply op).1.status ≠ .ok)
    (hactive : (store.apply op).2.ActiveAt id digest) : store.ActiveAt id digest := by
  obtain ⟨after, hafter, hstate, hdigest⟩ := hactive
  obtain ⟨before, hbefore, hactive, hsame, -⟩ :=
    active_before_apply hsound op (fun hinsert _ => hop hinsert) hafter hstate
  exact ⟨before, hbefore, hactive, hsame.trans hdigest⟩

/-- A sound successor in which nothing new is active. -/
structure Shrinks (store next : PendingStore) : Prop where
  sound : next.Sound
  active : ∀ id digest, next.ActiveAt id digest → store.ActiveAt id digest

theorem Shrinks.refl : store.Shrinks store := ⟨hsound, fun _ _ => id⟩

theorem shrinks_apply (op : PendingOp)
    (hop : op.isInsert = true → (store.apply op).1.status ≠ .ok) :
    store.Shrinks (store.apply op).2 :=
  ⟨sound_apply hsound op, fun _ _ => activeAt_of_apply hsound hop⟩

theorem shrinks_getDigest (id : HandshakeId) (now : ℕ) :
    store.Shrinks (store.getDigest id now).2.2 :=
  shrinks_apply hsound (.getDigest id now) (by simp [isInsert])

theorem shrinks_recordFailure (id : HandshakeId) (now : ℕ) :
    store.Shrinks (store.recordFailure id now).2 :=
  shrinks_apply hsound (.recordFailure id now) (by simp [isInsert])

theorem shrinks_consumeSuccess (id : HandshakeId) (now : ℕ) :
    store.Shrinks (store.consumeSuccess id now).2 :=
  shrinks_apply hsound (.consumeSuccess id now) (by simp [isInsert])

theorem shrinks_cancel (id : HandshakeId) (now : ℕ) : store.Shrinks (store.cancel id now).2 :=
  shrinks_apply hsound (.cancel id now) (by simp [isInsert])

/-- An insertion that fails. -/
theorem shrinks_insert (hfailed : (store.insert id digest sweepNow now).1 ≠ .ok) :
    store.Shrinks (store.insert id digest sweepNow now).2 :=
  shrinks_apply hsound (.insert id digest sweepNow now) fun _ => hfailed

theorem sound_insert (id : HandshakeId) (digest : Digest)
    (sweepNow now : ℕ) : (store.insert id digest sweepNow now).2.Sound :=
  sound_apply hsound (.insert id digest sweepNow now)

/-- A successful insertion makes its digest active under its id, and no other. -/
theorem activeAt_of_insert (hinsert : store.insert id digest sweepNow now = (.ok, next))
    (hactive : next.ActiveAt wanted found) :
    (wanted = id ∧ found = digest) ∨ (wanted ≠ id ∧ store.ActiveAt wanted found) := by
  cases husable : store.storeUsable with
  | false => simp [insert, husable] at hinsert
  | true =>
    have hview := insert_view (hsound husable) id digest sweepNow now
    rw [hinsert] at hview
    cases hview with
    | inserted habsent hupdated =>
      obtain ⟨entry, hentry, hstate, hdigest⟩ := hactive
      rw [hupdated.entry] at hentry
      by_cases hwanted : wanted = id
      · subst hwanted
        rw [update_self] at hentry
        obtain rfl := Option.some.inj hentry
        exact Or.inl ⟨rfl, hdigest.symm⟩
      · rw [update_of_ne hwanted] at hentry
        have hold := (entry_of_entry_sweep (hsound husable) hentry).1
        exact Or.inr ⟨hwanted, entry, hold, hstate, hdigest⟩

/-- A successful insertion leaves a fresh entry. -/
theorem insert_eq_ok (hinsert : store.insert id digest sweepNow now = (.ok, next)) :
    next.entry id = some (store.fresh id digest now) := by
  cases husable : store.storeUsable with
  | false => simp [insert, husable] at hinsert
  | true =>
    have hview := insert_view (hsound husable) id digest sweepNow now
    rw [hinsert] at hview
    cases hview with
    | inserted habsent hupdated => rw [hupdated.entry, update_self]

/-- What `get_digest` hands out is active and in time, and reading it changes nothing. -/
theorem getDigest_eq_ok (hread : store.getDigest id now = (.ok, digest, mid)) :
    mid = store ∧ ∃ entry, store.entry id = some entry ∧ entry.state = .active ∧
      entry.thClientAuth = digest ∧ now < entry.deadlineMs := by
  cases husable : store.storeUsable with
  | false => simp [getDigest, locate, husable] at hread
  | true =>
    have hview := locate_view (hsound husable) id now
    unfold getDigest at hread
    generalize store.locate id now = located at hview hread
    cases hview with
    | live hentry hlive hstate =>
      simp only [Prod.mk.injEq, true_and] at hread
      exact ⟨hread.2.symm, _, hentry, hstate, hread.1, hlive⟩
    | absent => simp at hread
    | expired => simp at hread
    | consumed => simp at hread
    | authLimited => simp at hread

/-- A consumption finds an active entry in time and leaves its tombstone. -/
theorem consumeSuccess_eq_ok (hconsume : store.consumeSuccess id now = (.ok, next)) :
    ∃ entry, store.entry id = some entry ∧ entry.state = .active ∧ now < entry.deadlineMs ∧
      Updated store next id (some (entry.tombstone .consumed)) := by
  cases husable : store.storeUsable with
  | false => simp [consumeSuccess, locate, husable] at hconsume
  | true =>
    have hview := locate_view (hsound husable) id now
    unfold consumeSuccess at hconsume
    generalize store.locate id now = located at hview hconsume
    cases hview with
    | live hentry hlive hstate hreplaced =>
      simp only [Prod.mk.injEq, true_and] at hconsume
      have hid := handshakeId_of_entry hentry
      refine ⟨_, hentry, hstate, hlive, ?_⟩
      rw [← hconsume]
      exact hreplaced _ (key_eq_some.mpr ⟨by simp [tombstone], hid⟩)
    | absent | expired | consumed | authLimited => simp at hconsume

/-- Consuming an id takes its digest away. -/
theorem activeAt_of_consumeSuccess (hconsume : store.consumeSuccess id now = (.ok, next))
    (hactive : next.ActiveAt wanted found) : wanted ≠ id ∧ store.ActiveAt wanted found := by
  obtain ⟨entry, -, -, -, hupdated⟩ := consumeSuccess_eq_ok hsound hconsume
  obtain ⟨kept, hkept, hstate, hdigest⟩ := hactive
  rw [hupdated.entry] at hkept
  by_cases hwanted : wanted = id
  · subst hwanted
    rw [update_self] at hkept
    obtain rfl := Option.some.inj hkept
    simp [tombstone] at hstate
  · rw [update_of_ne hwanted] at hkept
    exact ⟨hwanted, kept, hkept, hstate, hdigest⟩

end

/-! ## What a call leaves alone, and what it ends -/

variable {entry : PendingEntry}

/-- A call leaves an entry in time alone unless it is about its id; an insertion leaves it
alone even then. -/
theorem entry_apply_of_lt (hwf : store.WellFormed) (op : PendingOp)
    (hentry : store.entry id = some entry) (htime : op.time < entry.deadlineMs)
    (hop : op.subject ≠ some id ∨ op.isInsert = true) :
    (store.apply op).2.entry id = some entry := by
  have hstep := (stepped_apply hwf op).entry id
  rw [hentry] at hstep
  generalize (store.apply op).2.entry id = after at hstep ⊢
  cases hstep with
  | untouched => rfl
  | refused => rfl
  | read => rfl
  | evicted hexpired => exact absurd hexpired (Nat.not_le.mpr htime)
  | failed _ _ hrecord | limited _ _ hrecord =>
    rw [hrecord] at hop
    simp [subject, isInsert] at hop
  | consumed hstate hlive hconsume =>
    rw [hconsume] at hop
    simp [subject, isInsert] at hop
  | cancelled hstate hlive hcancel =>
    rw [hcancel] at hop
    simp [subject, isInsert] at hop
  | inserted hold hinsert =>
    rw [hinsert] at htime
    exact absurd (hold entry rfl) (Nat.not_le.mpr htime)

/-- A sequence of such calls leaves the entry alone. -/
theorem entry_exec_of_lt (hwf : store.WellFormed) (ops : List PendingOp)
    (hentry : store.entry id = some entry)
    (hops : ∀ op ∈ ops, op.time < entry.deadlineMs ∧ (op.subject ≠ some id ∨ op.isInsert = true)) :
    (store.exec ops).entry id = some entry := by
  induction ops generalizing store with
  | nil => exact hentry
  | cons op ops ih =>
    obtain ⟨htime, hop⟩ := hops op List.mem_cons_self
    exact ih (stepped_apply hwf op).wellFormed (entry_apply_of_lt hwf op hentry htime hop)
      fun other hother => hops other (List.mem_cons_of_mem op hother)

/-- Without an insertion, what is active after a sequence of calls was active before. -/
theorem active_before_exec (hwf : store.WellFormed) (ops : List PendingOp)
    (hops : ∀ op ∈ ops, op.isInsert = false) (hafter : (store.exec ops).entry id = some after)
    (hactive : after.state = .active) :
    ∃ before, store.entry id = some before ∧ before.state = .active := by
  induction ops generalizing store with
  | nil => exact ⟨after, hafter, hactive⟩
  | cons op ops ih =>
    obtain ⟨middle, hmiddle, hstate⟩ := ih (stepped_apply hwf op).wellFormed
      (fun other hother => hops other (List.mem_cons_of_mem op hother)) hafter
    obtain ⟨before, hbefore, hbeforeState, -⟩ := active_before_apply (fun _ => hwf) op
      (by simp [hops op List.mem_cons_self]) hmiddle hstate
    exact ⟨before, hbefore, hbeforeState⟩

/-- Nothing is active under the id. -/
def Inactive (store : PendingStore) (id : HandshakeId) : Prop :=
  ∀ entry, store.entry id = some entry → entry.state ≠ .active

theorem inactive_of_updated {value : Option PendingEntry} (hupdated : Updated store next id value)
    (hvalue : ∀ entry, value = some entry → entry.state ≠ .active) : next.Inactive id := by
  intro entry hentry
  rw [hupdated.entry, update_self] at hentry
  exact hvalue entry hentry

section

variable (hwf : store.WellFormed)

include hwf

/-- An entry that is not live is not active afterwards. -/
theorem inactive_of_locate {status : PendingStatus}
    (hlocate : store.locate id now = .refused status next) : next.Inactive id := by
  have hview := locate_view hwf id now
  rw [hlocate] at hview
  cases hview with
  | absent habsent =>
    intro entry hentry
    simp [habsent] at hentry
  | expired hfound hexpired hfreed => exact inactive_of_updated hfreed (by simp)
  | consumed hfound _ hstate | authLimited hfound _ hstate =>
    intro entry hentry
    obtain rfl := Option.some.inj (hentry.symm.trans hfound)
    simp [hstate]

theorem inactive_getDigest (hfailed : (store.getDigest id now).1 ≠ .ok) :
    (store.getDigest id now).2.2.Inactive id := by
  cases hlocate : store.locate id now with
  | refused =>
    simp only [getDigest, hlocate]
    exact inactive_of_locate hwf hlocate
  | live => simp [getDigest, hlocate] at hfailed

theorem inactive_cancel (id : HandshakeId) (now : ℕ) : (store.cancel id now).2.Inactive id := by
  have hview := locate_view hwf id now
  cases hlocate : store.locate id now with
  | refused =>
    simp only [cancel, hlocate]
    exact inactive_of_locate hwf hlocate
  | live =>
    simp only [cancel, hlocate]
    rw [hlocate] at hview
    cases hview with
    | live hfound hbefore hstate hreplaced hfreed => exact inactive_of_updated hfreed (by simp)

/-- A consumption ends the entry, whether or not it succeeds. -/
theorem inactive_consumeSuccess (id : HandshakeId) (now : ℕ) :
    (store.consumeSuccess id now).2.Inactive id := by
  have hview := locate_view hwf id now
  cases hlocate : store.locate id now with
  | refused =>
    simp only [consumeSuccess, hlocate]
    exact inactive_of_locate hwf hlocate
  | live index entry =>
    simp only [consumeSuccess, hlocate]
    rw [hlocate] at hview
    cases hview with
    | live hfound hbefore hstate hreplaced =>
      have hid := handshakeId_of_entry hfound
      have hkey := key_eq_some.mpr
        (⟨by simp [tombstone], hid⟩ :
          (entry.tombstone .consumed).state ≠ .free ∧ (entry.tombstone .consumed).handshakeId = id)
      exact inactive_of_updated (hreplaced _ hkey) (by simp [tombstone])

theorem inactive_recordFailure (hfailed : (store.recordFailure id now).1 ≠ .ok) :
    (store.recordFailure id now).2.Inactive id := by
  have hview := locate_view hwf id now
  cases hlocate : store.locate id now with
  | refused =>
    simp only [recordFailure, hlocate]
    exact inactive_of_locate hwf hlocate
  | live index entry =>
    simp only [recordFailure, hlocate] at hfailed ⊢
    rw [hlocate] at hview
    split at hfailed
    · rename_i hlimit
      rw [if_pos hlimit]
      cases hview with
      | live hfound hbefore hstate hreplaced =>
        have hid := handshakeId_of_entry hfound
        have hkey : ({ entry with
            failureCount := (entry.failureCount + 1) % 256 }.tombstone .authLimited).key =
              some id :=
          key_eq_some.mpr ⟨by simp [tombstone], hid⟩
        exact inactive_of_updated (hreplaced _ hkey) (by simp [tombstone])
    · simp at hfailed

/-! ## Calls that succeed -/

/-- There is a free slot, or one whose entry a sweep would free. -/
def HasRoom (store : PendingStore) (now : ℕ) : Prop :=
  ∃ slot ∈ store.slots, slot.state = .free ∨ slot.deadlineMs ≤ now

/-- An insertion succeeds when there is room and no entry in time has the id. -/
theorem insert_of_hasRoom (hroom : store.HasRoom sweepNow)
    (hnew : ∀ found, store.entry id = some found → found.deadlineMs ≤ sweepNow) (digest : Digest)
    (now : ℕ) :
    ∃ next, store.insert id digest sweepNow now = (.ok, next) ∧ next.WellFormed ∧
      next.entry id = some (store.fresh id digest now) := by
  have hview := insert_view hwf id digest sweepNow now
  generalize store.insert id digest sweepNow now = result at hview ⊢
  cases hview with
  | duplicate hentry hlive => exact absurd (hnew _ hentry) (Nat.not_le.mpr hlive)
  | full habsent hfull =>
    obtain ⟨slot, hslot, hfree | hexpired⟩ := hroom
    · exact absurd hfree (hfull slot hslot).1
    · exact absurd hexpired (Nat.not_le.mpr (hfull slot hslot).2)
  | inserted habsent hupdated =>
    exact ⟨_, rfl, hupdated.wellFormed, by rw [hupdated.entry, update_self]⟩

end

section Active

variable (hwf : store.WellFormed) (hentry : store.entry id = some entry)
  (hactive : entry.state = .active) (hlive : now < entry.deadlineMs)

include hwf hentry hactive hlive

/-- An active entry in time is live, in a slot that can be overwritten. -/
theorem locate_of_active : ∃ index, store.locate id now = .live index entry ∧
    ∀ value : PendingEntry, value.key = some id →
      Updated store (store.setSlot index value) id (some value) := by
  have hview := locate_view hwf id now
  generalize store.locate id now = located at hview ⊢
  cases hview with
  | absent habsent => simp [habsent] at hentry
  | expired hfound hexpired =>
    obtain rfl := Option.some.inj (hentry.symm.trans hfound)
    exact absurd hexpired (Nat.not_le.mpr hlive)
  | consumed hfound _ hstate | authLimited hfound _ hstate =>
    obtain rfl := Option.some.inj (hentry.symm.trans hfound)
    simp [hactive] at hstate
  | live hfound hbefore hstate hreplaced =>
    obtain rfl := Option.some.inj (hentry.symm.trans hfound)
    exact ⟨_, rfl, hreplaced⟩

theorem getDigest_of_active : store.getDigest id now = (.ok, entry.thClientAuth, store) := by
  obtain ⟨index, hlocate, -⟩ := locate_of_active hwf hentry hactive hlive
  rw [getDigest, hlocate]

theorem consumeSuccess_of_active : ∃ next, store.consumeSuccess id now = (.ok, next) := by
  obtain ⟨index, hlocate, -⟩ := locate_of_active hwf hentry hactive hlive
  rw [consumeSuccess, hlocate]
  exact ⟨_, rfl⟩

/-- A failure below the limit is counted and the entry stays active. -/
theorem recordFailure_of_active (hcount : entry.failureCount + 1 < handshakeAuthFailureLimit) :
    ∃ next, store.recordFailure id now = (.ok, next) ∧
      Updated store next id (some { entry with failureCount := entry.failureCount + 1 }) := by
  obtain ⟨index, hlocate, hreplaced⟩ := locate_of_active hwf hentry hactive hlive
  have hlimit : handshakeAuthFailureLimit = 3 := rfl
  have hmod : (entry.failureCount + 1) % 256 = entry.failureCount + 1 := Nat.mod_eq_of_lt (by omega)
  refine ⟨store.setSlot index { entry with failureCount := entry.failureCount + 1 }, ?_,
    hreplaced _ ?_⟩
  · simp only [recordFailure, hlocate, hmod, Nat.not_le.mpr hcount, if_false]
  have hid : entry.handshakeId = id := handshakeId_of_entry hentry
  exact key_eq_some.mpr ⟨by simp [hactive], hid⟩

end Active

end PendingStore

/-! ## The calls of a context -/

open PendingStore in
/-- A call on a context makes nothing active in its ledger, unless it hands out an answer. -/
theorem shrinks_of_step {prims : Primitives} {ctx : HandshakeCtx} {ledger : PendingStore}
    {call : CtxCall} {result : LedgerResult} (hstep : CallStep prims ctx ledger call result)
    (hsound : ledger.Sound)
    (hcall : (∀ env out, call ≠ .createServerHello env out) ∨ result.status ≠ .ok) :
    ledger.Shrinks result.ledger := by
  cases hstep with
  | wipedPending => exact shrinks_cancel hsound _ _
  | answerNotInserted _ hinsert hinserted =>
    subst hinsert
    exact shrinks_insert hsound hinserted
  | answered => simp at hcall
  | entryGone _ hdigest =>
    subst hdigest
    exact shrinks_getDigest hsound _ _
  | @wrongSignature env _ _ _ _ _ hdigest hfailure =>
    obtain ⟨rfl, -⟩ := getDigest_eq_ok hsound hdigest
    have hshrinks := shrinks_recordFailure hsound ctx.handshakeId env.later
    rwa [hfailure] at hshrinks
  | lockedOut _ hdigest hfailure =>
    obtain ⟨rfl, -⟩ := getDigest_eq_ok hsound hdigest
    subst hfailure
    exact shrinks_recordFailure hsound _ _
  | deriveFailed _ hdigest =>
    obtain ⟨rfl, -⟩ := getDigest_eq_ok hsound hdigest
    exact shrinks_cancel hsound _ _
  | notConsumed _ hdigest hconsume =>
    obtain ⟨rfl, -⟩ := getDigest_eq_ok hsound hdigest
    subst hconsume
    exact shrinks_consumeSuccess hsound _ _
  | @authVerified env _ _ _ _ _ _ _ _ _ _ _ hdigest _ _ _ _ _ hconsume =>
    obtain ⟨rfl, -⟩ := getDigest_eq_ok hsound hdigest
    have hshrinks := shrinks_consumeSuccess hsound ctx.handshakeId env.later
    rwa [hconsume] at hshrinks
  | _ => exact .refl hsound

end MldsaAuth.Protocol
