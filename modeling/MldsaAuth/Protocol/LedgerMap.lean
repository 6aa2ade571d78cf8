/-
# The ledger as a map with deadlines

A ledger answers like a finite map from handshake ids to deadlines. An insertion takes a
slot that is free or whose deadline has come, and no other slot notices; it is refused
when the id is there already, or when every slot is held in time. And the number of
active entries can be told from the calls and their answers alone: it is the number of
ids that were inserted, whose deadline has not come, and that no call has cancelled,
consumed or given up since.
-/

import MldsaAuth.Protocol.LedgerLifetime
import MldsaAuth.Crypto.Primitives

namespace MldsaAuth.Protocol

open Foundation Crypto PendingEntry PendingStore

variable {store : PendingStore} {id : HandshakeId} {thClientAuth : Digest} {now : ℕ}
  {found : PendingEntry} {index : ℕ}

namespace PendingStore

/-! ## Insertion -/

theorem mem_of_entry (hentry : store.entry id = some found) :
    found ∈ store.slots := Slots.mem_of_entryOf hentry

/-- A sweep leaves a slot that is held in time where it is. -/
theorem getElem?_sweep (hat : store.slots[index]? = some found) (hlive : now < found.deadlineMs) :
    (store.sweep now).slots[index]? = some found := by
  unfold sweep
  split
  · simp only [Slots.clear, List.getElem?_map, hat, Option.map_some]
    simp [expired, Nat.not_le.mpr hlive]
  · exact hat

/-- Where a sweep leaves a free slot, the slot was free or its deadline had come. -/
theorem free_of_sweep {swept : PendingEntry} (hat : (store.sweep now).slots[index]? = some swept)
    (hfree : swept.state = .free) :
    ∃ slot, store.slots[index]? = some slot ∧ (slot.state = .free ∨ slot.deadlineMs ≤ now) := by
  unfold sweep at hat
  split at hat
  · simp only [Slots.clear, List.getElem?_map, Option.map_eq_some_iff] at hat
    obtain ⟨slot, hslot, hswept⟩ := hat
    refine ⟨slot, hslot, ?_⟩
    split at hswept
    · rename_i hdropped
      simp only [Bool.and_eq_true, expired_iff] at hdropped
      exact .inr hdropped.2
    · exact .inl (hswept ▸ hfree)
  · exact ⟨swept, hat, .inl hfree⟩

/-- A successful insertion fills a slot that is free after the sweep. -/
theorem slots_of_insert_ok {sweepNow : ℕ}
    (hok : (store.insert id thClientAuth sweepNow now).1 = .ok) :
    ∃ index swept, (store.sweep sweepNow).slots[index]? = some swept ∧ swept.state = .free ∧
      (store.insert id thClientAuth sweepNow now).2.slots =
        (store.sweep sweepNow).slots.set index (store.fresh id thClientAuth now) := by
  unfold insert at hok ⊢
  split at hok
  · rename_i husable
    rw [if_pos husable]
    dsimp only at hok ⊢
    split at hok
    · cases hok
    split at hok
    · rename_i index hindex
      obtain ⟨hlt, hfree, -⟩ := List.findIdx?_eq_some_iff_getElem.mp hindex
      refine ⟨index, _, List.getElem?_eq_getElem hlt, of_decide_eq_true hfree, ?_⟩
      unfold setSlot fresh
      rw [deadline_sweep]
    · cases hok
  · cases hok

/-- An insertion succeeds exactly if the id is not held in time and some slot is not. -/
theorem insert_ok_iff (hwf : store.WellFormed) (id : HandshakeId) (thClientAuth : Digest)
    (now : ℕ) :
    (store.insert id thClientAuth now now).1 = .ok ↔
      (∀ slot ∈ store.slots, slot.state ≠ .free → slot.handshakeId = id → slot.deadlineMs ≤ now) ∧
      ∃ slot ∈ store.slots, slot.state = .free ∨ slot.deadlineMs ≤ now := by
  have hview := insert_view hwf id thClientAuth now now
  have hslots := @slots_of_insert_ok store id thClientAuth now now
  generalize store.insert id thClientAuth now now = result at hview hslots ⊢
  cases hview with
  | duplicate hentry hlive =>
    refine iff_of_false nofun fun hfits => Nat.not_le.mpr hlive ?_
    exact hfits.1 _ (mem_of_entry hentry) (state_ne_free_of_entry hentry)
      (handshakeId_of_entry hentry)
  | full _ hfull =>
    refine iff_of_false nofun ?_
    rintro ⟨-, slot, hslot, hfree | hexpired⟩
    · exact (hfull slot hslot).1 hfree
    · exact Nat.not_le.mpr (hfull slot hslot).2 hexpired
  | inserted habsent =>
    refine iff_of_true rfl ⟨?_, ?_⟩
    · rintro slot hslot hused rfl
      exact deadline_le_of_swept hwf habsent (entry_of_mem hwf hslot hused)
    · obtain ⟨index, swept, hat, hfree, -⟩ := hslots rfl
      obtain ⟨slot, hslot, havailable⟩ := free_of_sweep hat hfree
      exact ⟨slot, List.mem_of_getElem? hslot, havailable⟩

/-- An insertion finds the ledger full exactly if every slot is held in time under another
id. -/
theorem insert_full_iff (hwf : store.WellFormed) (id : HandshakeId) (thClientAuth : Digest)
    (now : ℕ) :
    (store.insert id thClientAuth now now).1 = .full ↔
      ∀ slot ∈ store.slots, slot.state ≠ .free ∧ now < slot.deadlineMs ∧ slot.handshakeId ≠ id := by
  have hview := insert_view hwf id thClientAuth now now
  have hslots := @slots_of_insert_ok store id thClientAuth now now
  generalize store.insert id thClientAuth now now = result at hview hslots ⊢
  cases hview with
  | duplicate hentry =>
    refine iff_of_false nofun fun hpacked => ?_
    exact (hpacked _ (mem_of_entry hentry)).2.2 (handshakeId_of_entry hentry)
  | full habsent hfull =>
    refine iff_of_true rfl fun slot hslot => ⟨(hfull slot hslot).1, (hfull slot hslot).2, ?_⟩
    rintro rfl
    have hentry := entry_of_mem hwf hslot (hfull slot hslot).1
    exact Nat.not_le.mpr (hfull slot hslot).2 (deadline_le_of_swept hwf habsent hentry)
  | inserted =>
    refine iff_of_false nofun fun hpacked => ?_
    obtain ⟨index, swept, hat, hfree, -⟩ := hslots rfl
    obtain ⟨slot, hslot, hused | hexpired⟩ := free_of_sweep hat hfree
    · exact (hpacked slot (List.mem_of_getElem? hslot)).1 hused
    · exact Nat.not_le.mpr (hpacked slot (List.mem_of_getElem? hslot)).2.1 hexpired

/-- Whatever comes of an insertion, a slot that is held in time is left as it is. -/
theorem getElem?_insert (hwf : store.WellFormed) (hat : store.slots[index]? = some found)
    (hused : found.state ≠ .free) (hlive : now < found.deadlineMs) :
    (store.insert id thClientAuth now now).2.slots[index]? = some found := by
  have hview := insert_view hwf id thClientAuth now now
  have hslots := @slots_of_insert_ok store id thClientAuth now now
  generalize store.insert id thClientAuth now now = result at hview hslots ⊢
  cases hview with
  | duplicate | full => exact getElem?_sweep hat hlive
  | inserted =>
    obtain ⟨position, swept, hswept, hfree, hset⟩ := hslots rfl
    rw [hset, List.getElem?_set_ne]
    · exact getElem?_sweep hat hlive
    rintro rfl
    rw [getElem?_sweep hat hlive] at hswept
    exact hused (Option.some.inj hswept ▸ hfree)

end PendingStore

/-! ## The ids that are waiting -/

/-- An id is not waiting any more. -/
def dropId (id : HandshakeId) (ids : List (HandshakeId × ℕ)) : List (HandshakeId × ℕ) :=
  ids.filter fun waiting => waiting.1 ≠ id

/-- The ids that are waiting, each with its deadline, after one more call and its answer. -/
def await (deadline : ℕ → ℕ) (ids : List (HandshakeId × ℕ)) :
    PendingOp × PendingReply → List (HandshakeId × ℕ)
  | (.insert id _ _ now, reply) =>
    if reply.status = .ok then (id, deadline now) :: dropId id ids else ids
  | (.cancel id _, reply) | (.consumeSuccess id _, reply) =>
    if reply.status = .ok then dropId id ids else ids
  | (.recordFailure id _, reply) => if reply.status = .authLimit then dropId id ids else ids
  | _ => ids

/-- The ids that wait after a sequence of calls to a new ledger. -/
def PendingStore.waiting (store : PendingStore) (ops : List PendingOp) : List (HandshakeId × ℕ) :=
  (store.calls ops).foldl (await store.deadline) []

section Await

variable {ids : List (HandshakeId × ℕ)} {deadline : ℕ → ℕ} {op : PendingOp} {reply : PendingReply}
  {waiting : HandshakeId × ℕ}

theorem mem_dropId : waiting ∈ dropId id ids ↔ waiting ∈ ids ∧ waiting.1 ≠ id := by
  simp [dropId]

/-- A call about another id changes nothing. -/
theorem mem_await_of_ne (hsubject : op.subject ≠ some waiting.1) :
    waiting ∈ await deadline ids (op, reply) ↔ waiting ∈ ids := by
  have hdrop : ∀ other, some other ≠ some waiting.1 →
      (waiting ∈ dropId other ids ↔ waiting ∈ ids) := fun other hother =>
    mem_dropId.trans (and_iff_left fun hsame => hother (congrArg some hsame.symm))
  unfold await
  cases op with
  | insert other =>
    dsimp only
    split
    · rw [List.mem_cons, hdrop other hsubject]
      exact or_iff_right fun hnew => hsubject (congrArg some (congrArg Prod.fst hnew).symm)
    · rfl
  | cancel other | consumeSuccess other | recordFailure other =>
    dsimp only
    split
    · exact hdrop other hsubject
    · rfl
  | _ => rfl

/-- Nor does a call that is refused, unless it reports a failure and is told the limit. -/
theorem await_of_refused (hstatus : reply.status ≠ .ok)
    (hlimit : ∀ id now, op = .recordFailure id now → reply.status ≠ .authLimit) :
    await deadline ids (op, reply) = ids := by
  cases op with
  | insert | cancel | consumeSuccess => exact if_neg hstatus
  | recordFailure id now => exact if_neg (hlimit id now rfl)
  | _ => rfl

theorem nodup_await (hnodup : (ids.map Prod.fst).Nodup) (call : PendingOp × PendingReply) :
    ((await deadline ids call).map Prod.fst).Nodup := by
  have hdrop : ∀ id, ((dropId id ids).map Prod.fst).Nodup := fun id =>
    hnodup.sublist (List.filter_sublist.map _)
  obtain ⟨op, reply⟩ := call
  unfold await
  cases op with
  | insert id =>
    dsimp only
    split
    · refine List.nodup_cons.mpr ⟨fun hmem => ?_, hdrop id⟩
      obtain ⟨waiting, hwaiting, hsame⟩ := List.mem_map.mp hmem
      exact (mem_dropId.mp hwaiting).2 hsame
    · exact hnodup
  | cancel id | consumeSuccess id | recordFailure id =>
    dsimp only
    split
    · exact hdrop id
    · exact hnodup
  | _ => exact hnodup

end Await

/-! ## Waiting ids and active entries -/

/-- An id waits for a deadline later than a time exactly if its entry is active until then. -/
structure Tracked (id : HandshakeId) (ids : List (HandshakeId × ℕ)) (now : ℕ)
    (entry : Option PendingEntry) : Prop where
  held : ∀ deadline, (id, deadline) ∈ ids → now < deadline →
    ∃ found, entry = some found ∧ found.state = .active ∧ found.deadlineMs = deadline
  known : ∀ found, entry = some found → found.state = .active → (id, found.deadlineMs) ∈ ids

variable {entry : Option PendingEntry} {ids : List (HandshakeId × ℕ)}

theorem Tracked.of_dropped (hinactive : ∀ found, entry = some found → found.state ≠ .active) :
    Tracked id (dropId id ids) now entry where
  held := fun _ hmem => absurd rfl (mem_dropId.mp hmem).2
  known := fun found hentry hactive => absurd hactive (hinactive found hentry)

/-- Every call that is made by then keeps track of every id. -/
theorem Tracked.step {op : PendingOp} {reply : PendingReply} {next : Option PendingEntry}
    (htracked : Tracked id ids now entry) (hstep : EntryStep store id op reply entry next)
    (htime : op.time ≤ now) : Tracked id (await store.deadline ids (op, reply)) now next := by
  cases hstep with
  | untouched hsubject =>
    have hsame : ∀ deadline, (id, deadline) ∈ await store.deadline ids (op, reply) ↔
        (id, deadline) ∈ ids := fun deadline => mem_await_of_ne hsubject
    exact ⟨fun deadline hmem => htracked.held deadline ((hsame deadline).mp hmem),
      fun found hentry hactive => (hsame _).mpr (htracked.known found hentry hactive)⟩
  | refused hsubject hrefusal hlimit =>
    by_cases hlimited : reply.status = .authLimit ∧ ∃ time, op = .recordFailure id time
    · obtain ⟨hstatus, time, rfl⟩ := hlimited
      obtain ⟨found, rfl, hstate⟩ := hlimit hstatus
      rw [await, if_pos hstatus]
      refine .of_dropped fun other hother => ?_
      rw [← Option.some.inj hother, hstate]
      exact nofun
    · rw [await_of_refused hrefusal.1]
      · exact htracked
      · rintro other time rfl hstatus
        obtain rfl := Option.some.inj hsubject
        exact hlimited ⟨hstatus, time, rfl⟩
  | @evicted found hexpired hreply =>
    refine ⟨fun deadline hmem hlater => ?_, nofun⟩
    have hold : (id, deadline) ∈ ids := by
      by_cases hsubject : op.subject = some id
      · obtain ⟨hrefusal, hlimit⟩ := hreply hsubject
        rwa [await_of_refused hrefusal.1 fun _ _ _ => hlimit] at hmem
      · exact (mem_await_of_ne hsubject).mp hmem
    obtain ⟨other, hother, -, hdeadline⟩ := htracked.held deadline hold hlater
    obtain rfl := Option.some.inj hother
    omega
  | read _ _ hop =>
    rcases hop with ⟨time, rfl⟩ | ⟨time, rfl⟩
    · exact htracked
    · exact htracked
  | @failed found time hstate hlive hop hcount hreply =>
    subst hop
    rw [await, if_neg (by rw [hreply]; exact nofun)]
    refine ⟨fun deadline hmem hlater => ?_, fun other hother hactive => ?_⟩
    · obtain ⟨other, hother, -, hdeadline⟩ := htracked.held deadline hmem hlater
      obtain rfl := Option.some.inj hother
      exact ⟨_, rfl, hstate, hdeadline⟩
    obtain rfl := Option.some.inj hother
    exact htracked.known found rfl hstate
  | limited _ _ hop _ hreply hnext =>
    subst hop
    rw [await, if_pos hreply]
    refine .of_dropped fun other hother => ?_
    rw [← Option.some.inj hother, hnext]
    exact nofun
  | consumed _ _ hop hreply =>
    subst hop
    rw [await, if_pos hreply]
    refine .of_dropped fun other hother => ?_
    rw [← Option.some.inj hother]
    exact nofun
  | cancelled _ _ hop hreply =>
    subst hop
    rw [await, if_pos hreply]
    exact .of_dropped nofun
  | @inserted _ digest sweepNow time _ hop hreply =>
    subst hop
    rw [await, if_pos hreply]
    refine ⟨fun deadline hmem _ => ?_, fun other hother _ => ?_⟩
    · rcases List.mem_cons.mp hmem with hnew | hold
      · exact ⟨_, rfl, rfl, (congrArg Prod.snd hnew).symm⟩
      · exact absurd rfl (mem_dropId.mp hold).2
    obtain rfl := Option.some.inj hother
    exact List.mem_cons_self

/-- Calls and answers tell which ids have active entries. -/
structure PendingStore.Matches (store : PendingStore) (ids : List (HandshakeId × ℕ)) (now : ℕ) :
    Prop where
  nodup : (ids.map Prod.fst).Nodup
  tracked : ∀ id, Tracked id ids now (store.entry id)

namespace PendingStore

theorem Matches.exec {ops : List PendingOp} (hmatches : store.Matches ids now)
    (hwf : store.WellFormed) (htimes : ∀ op ∈ ops, op.time ≤ now) :
    (store.exec ops).Matches ((store.calls ops).foldl (await store.deadline) ids) now := by
  induction ops generalizing store ids with
  | nil => exact hmatches
  | cons op ops ih =>
    have hstep := stepped_apply hwf op
    have hnext : (store.apply op).2.Matches
        (await store.deadline ids (op, (store.apply op).1)) now :=
      ⟨nodup_await hmatches.nodup _, fun id =>
        (hmatches.tracked id).step (hstep.entry id) (htimes op List.mem_cons_self)⟩
    have hrest := ih hnext hstep.wellFormed fun other hother =>
      htimes other (List.mem_cons_of_mem op hother)
    have hdeadline : (store.apply op).2.deadline = store.deadline :=
      funext fun now => deadline_congr hstep.ttlMs now
    rwa [hdeadline] at hrest

/-- The active entries that are in time are as many as the ids that still wait. -/
theorem Matches.activeCount_eq (hmatches : store.Matches ids now) (hwf : store.WellFormed) :
    store.activeCount now = ids.countP fun waiting => now < waiting.2 := by
  let live : PendingEntry → Bool := fun entry => entry.state = .active && !entry.expired now
  have hcount : store.activeCount now = ((store.slots.filter live).map handshakeId).length := by
    unfold activeCount
    rw [if_pos hwf.usable, List.length_map, List.countP_eq_length_filter]
  have hwaiting : (ids.countP fun waiting => now < waiting.2) =
      ((ids.filter fun waiting => now < waiting.2).map Prod.fst).length := by
    rw [List.length_map, List.countP_eq_length_filter]
  have hkeys : (store.slots.filter live).filterMap key =
      (store.slots.filter live).map handshakeId := by
    rw [← List.filterMap_eq_map]
    refine List.filterMap_congr fun entry hentry => ?_
    have hlive := (List.mem_filter.mp hentry).2
    simp only [live, Bool.and_eq_true, decide_eq_true_eq] at hlive
    exact key_eq_some.mpr ⟨by rw [hlive.1]; exact nofun, rfl⟩
  rw [hcount, hwaiting]
  refine ((List.perm_ext_iff_of_nodup ?_ ?_).mpr fun id => ?_).length_eq
  · rw [← hkeys]
    exact hwf.unique.nodup.sublist (List.filter_sublist.filterMap _)
  · exact hmatches.nodup.sublist (List.filter_sublist.map _)
  · simp only [List.mem_map, List.mem_filter, live, Bool.and_eq_true, decide_eq_true_eq,
      Bool.not_eq_true', expired_eq_false_iff]
    constructor
    · rintro ⟨entry, ⟨hmem, hactive, hlive⟩, rfl⟩
      have hentry := entry_of_mem hwf hmem (by rw [hactive]; exact nofun)
      exact ⟨_, ⟨(hmatches.tracked _).known entry hentry hactive, hlive⟩, rfl⟩
    rintro ⟨⟨id, deadline⟩, ⟨hmem, hlater⟩, rfl⟩
    obtain ⟨entry, hentry, hactive, rfl⟩ := (hmatches.tracked id).held deadline hmem hlater
    exact ⟨entry, ⟨mem_of_entry hentry, hactive, hlater⟩, handshakeId_of_entry hentry⟩

end PendingStore

/-- A ledger after any sequence of calls is a finite map with deadlines: no two slots in use
have one id; an insertion succeeds exactly if its id is not held in time and some slot is not,
finds the ledger full exactly if all slots are held in time under other ids, and leaves every
slot that is held in time alone; and at any time from the last call on, the active entries are
counted by the ids that were inserted and whose deadline has not come, and that were not
cancelled, consumed or limited. -/
theorem ledger_is_map {external : Bool} {capacity : ℕ} {ttlMs : UInt64} {start : PendingStore}
    (hinit : storeInitCommon external capacity ttlMs = (.ok, start)) {ops : List PendingOp}
    {now : ℕ} (htimes : ∀ op ∈ ops, ∀ reading ∈ op.readings, reading ≤ now) (id : HandshakeId)
    (thClientAuth : Digest) : let store := start.exec ops
    let result := store.insert id thClientAuth now now
    (∀ (first second : ℕ) (entry other : PendingEntry), store.slots[first]? = some entry →
      store.slots[second]? = some other → entry.state ≠ .free → other.state ≠ .free →
      entry.handshakeId = other.handshakeId → first = second) ∧
    (result.1 = .ok ↔
      (∀ slot ∈ store.slots, slot.state ≠ .free → slot.handshakeId = id → slot.deadlineMs ≤ now) ∧
      ∃ slot ∈ store.slots, slot.state = .free ∨ slot.deadlineMs ≤ now) ∧
    (result.1 = .full ↔
      ∀ slot ∈ store.slots, slot.state ≠ .free ∧ now < slot.deadlineMs ∧ slot.handshakeId ≠ id) ∧
    (∀ (index : ℕ) (entry : PendingEntry), store.slots[index]? = some entry →
      entry.state ≠ .free → now < entry.deadlineMs → result.2.slots[index]? = some entry) ∧
    ((start.waiting ops).map Prod.fst).Nodup ∧
    store.activeCount now = (start.waiting ops).countP fun waiting => now < waiting.2 := by
  intro store result
  obtain ⟨hstart, hempty⟩ := wellFormed_of_storeInitCommon hinit
  have hwf : store.WellFormed := (wellFormed_exec hstart ops).1
  have hmatches : start.Matches [] now := ⟨List.nodup_nil, fun id => hempty ▸ ⟨nofun, nofun⟩⟩
  have hfirst : ∀ op : PendingOp, op.time ∈ op.readings := by
    intro op
    cases op <;> exact List.mem_cons_self
  have hwaiting : store.Matches (start.waiting ops) now :=
    hmatches.exec hstart fun op hop => htimes op hop _ (hfirst op)
  refine ⟨?_, insert_ok_iff hwf id thClientAuth now,
    insert_full_iff hwf id thClientAuth now, ?_, hwaiting.nodup,
    hwaiting.activeCount_eq hwf⟩
  · intro first second entry other hentry hother hused hotherUsed hsame
    exact hwf.unique first second entry other entry.handshakeId hentry hother
      (key_eq_some.mpr ⟨hused, rfl⟩)
      (key_eq_some.mpr ⟨hotherUsed, hsame.symm⟩)
  · exact fun index entry hat hused hlive => getElem?_insert hwf hat hused hlive

/-- Two slots: of two ids that were inserted, the one that was consumed is not counted, and a
third one does not fit while both are held. -/
theorem ledger_is_map_two_slots : let start := (storeInitCommon false 2 1000).2
    let ops : List PendingOp :=
      [.insert (blobOf 16 [1]) (Blob.zero 32) 0 0, .insert (blobOf 16 [2]) (Blob.zero 32) 5 5,
        .consumeSuccess (blobOf 16 [1]) 6]
    (start.exec ops).activeCount 7 = 1 ∧
      ((start.exec ops).insert (blobOf 16 [3]) (Blob.zero 32) 7 7).1 = .full := by
  intro start ops
  have hmap := ledger_is_map (rfl : storeInitCommon false 2 1000 = (.ok, start))
    (by decide : ∀ op ∈ ops, ∀ reading ∈ op.readings, reading ≤ 7) (blobOf 16 [3])
    (Blob.zero 32)
  exact ⟨hmap.2.2.2.2.2.trans (by decide +kernel), hmap.2.2.1.mpr (by decide +kernel)⟩

end MldsaAuth.Protocol
