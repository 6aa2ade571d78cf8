/-
# The lifetime of a ledger entry

A ledger is used by calls in some order, each with its own clock readings. Over
every sequence of calls with a nondecreasing clock, an inserted id is consumed at
most once before its deadline; once it is spent (consumed, or given up after
three failures) it stays a tombstone until that deadline; the deadline never
moves; and from the deadline on no function treats the entry as live.
-/

import MldsaAuth.Protocol.LedgerView

namespace MldsaAuth.Protocol

open Foundation PendingEntry Function

/-- One call of a ledger function, with the clock readings it makes. -/
inductive PendingOp where
  | insert (id : HandshakeId) (thClientAuth : Digest) (sweepNow now : ℕ)
  | getDigest (id : HandshakeId) (now : ℕ)
  | recordFailure (id : HandshakeId) (now : ℕ)
  | consumeSuccess (id : HandshakeId) (now : ℕ)
  | cancel (id : HandshakeId) (now : ℕ)
  | sweep (now : ℕ)
  | inspect (id : HandshakeId) (now : ℕ)
  | activeCount (now : ℕ)

/-- What a call hands back. Fields a function does not write keep their defaults. -/
structure PendingReply where
  status : PendingStatus := .ok
  digest : Digest := Blob.zero 32
  report : PendingStore.PendingReport := .slot .free
  count : ℕ := 0

namespace PendingOp

/-- The clock readings of a call, in order. -/
def readings : PendingOp → List ℕ
  | insert _ _ sweepNow now => [sweepNow, now]
  | getDigest _ now | recordFailure _ now | consumeSuccess _ now | cancel _ now
  | sweep now | inspect _ now | activeCount now => [now]

/-- The first clock reading of a call. -/
def time : PendingOp → ℕ
  | insert _ _ sweepNow _ => sweepNow
  | getDigest _ now | recordFailure _ now | consumeSuccess _ now | cancel _ now
  | sweep now | inspect _ now | activeCount now => now

/-- The id a call is about, if it is about one. -/
def subject : PendingOp → Option HandshakeId
  | insert id _ _ _ | getDigest id _ | recordFailure id _ | consumeSuccess id _
  | cancel id _ | inspect id _ => some id
  | sweep _ | activeCount _ => none

/-- The calls that create entries. -/
def isInsert : PendingOp → Bool
  | insert .. => true
  | _ => false

end PendingOp

namespace PendingStore

/-- Carry out one call. -/
def apply (store : PendingStore) : PendingOp → PendingReply × PendingStore
  | .insert id thClientAuth sweepNow now =>
    let (status, next) := store.insert id thClientAuth sweepNow now
    ({ status := status }, next)
  | .getDigest id now =>
    let (status, digest, next) := store.getDigest id now
    ({ status := status, digest := digest }, next)
  | .recordFailure id now =>
    let (status, next) := store.recordFailure id now
    ({ status := status }, next)
  | .consumeSuccess id now =>
    let (status, next) := store.consumeSuccess id now
    ({ status := status }, next)
  | .cancel id now =>
    let (status, next) := store.cancel id now
    ({ status := status }, next)
  | .sweep now => ({}, store.sweep now)
  | .inspect id now =>
    let (status, report, failures) := store.inspect id now
    ({ status := status, report := report, count := failures }, store)
  | .activeCount now => ({ count := store.activeCount now }, store)

/-- The store after a sequence of calls. -/
def exec (store : PendingStore) (ops : List PendingOp) : PendingStore :=
  ops.foldl (fun store op => (store.apply op).2) store

/-- The calls of a sequence, each with its reply. -/
def calls : PendingStore → List PendingOp → List (PendingOp × PendingReply)
  | _, [] => []
  | store, op :: ops => (op, (store.apply op).1) :: calls (store.apply op).2 ops

end PendingStore

/-- The readings of a sequence of calls never go back. -/
def NondecreasingClock (ops : List PendingOp) : Prop :=
  (ops.flatMap PendingOp.readings).Pairwise (· ≤ ·)

variable (id : HandshakeId)

/-- A call that created an entry under the id. -/
def InsertedCall (call : PendingOp × PendingReply) : Prop :=
  call.1.isInsert = true ∧ call.1.subject = some id ∧ call.2.status = .ok

/-- A call that consumed the id before the deadline. -/
def consumedCall (deadlineMs : ℕ) : PendingOp × PendingReply → Bool
  | (.consumeSuccess subject now, reply) =>
    decide (subject = id) && decide (now < deadlineMs) && decide (reply.status = .ok)
  | _ => false

/-- A call that recorded a signature failure of the id. The third one is answered
with the limit status. -/
def failureCall : PendingOp × PendingReply → Bool
  | (.recordFailure subject _, reply) =>
    decide (subject = id) && (decide (reply.status = .ok) || decide (reply.status = .authLimit))
  | _ => false

/-- The calls so far have used up the id: it was consumed, or three failures of it
were recorded. -/
def Spent (deadlineMs : ℕ) (calls : List (PendingOp × PendingReply)) : Prop :=
  (∃ call ∈ calls, consumedCall id deadlineMs call = true) ∨
    handshakeAuthFailureLimit ≤ calls.countP (failureCall id)

/-- A reply that neither acts on the entry, nor reveals its digest, nor calls it active. -/
def Refusal (reply : PendingReply) : Prop :=
  reply.status ≠ .ok ∧ reply.digest = Blob.zero 32 ∧ reply.report ≠ .slot .active

/-! ## What one call does to one entry -/

variable (store : PendingStore) (id : HandshakeId) (op : PendingOp) (reply : PendingReply) in
/-- Every way in which a call can change, or leave, the entry of one id. -/
inductive EntryStep : Option PendingEntry → Option PendingEntry → Prop where
  | untouched {entry : Option PendingEntry} (hsubject : op.subject ≠ some id) :
      EntryStep entry entry
  | refused {entry : Option PendingEntry} (hsubject : op.subject = some id)
      (hrefusal : Refusal reply)
      (hlimit : reply.status = .authLimit → ∃ found, entry = some found ∧
        found.state = .authLimited) : EntryStep entry entry
  | evicted {found : PendingEntry} (hexpired : found.deadlineMs ≤ op.time)
      (hreply : op.subject = some id → Refusal reply ∧ reply.status ≠ .authLimit) :
      EntryStep (some found) none
  | read {found : PendingEntry} (hstate : found.state = .active)
      (hlive : op.time < found.deadlineMs)
      (hop : (∃ now, op = .getDigest id now) ∨ ∃ now, op = .inspect id now) :
      EntryStep (some found) (some found)
  | failed {found : PendingEntry} {now : ℕ} (hstate : found.state = .active)
      (hlive : now < found.deadlineMs) (hop : op = .recordFailure id now)
      (hcount : (found.failureCount + 1) % 256 < handshakeAuthFailureLimit)
      (hreply : reply.status = .ok) :
      EntryStep (some found) (some { found with failureCount := (found.failureCount + 1) % 256 })
  | limited {found next : PendingEntry} {now : ℕ} (hstate : found.state = .active)
      (hlive : now < found.deadlineMs) (hop : op = .recordFailure id now)
      (hcount : handshakeAuthFailureLimit ≤ (found.failureCount + 1) % 256)
      (hreply : reply.status = .authLimit) (hnext : next.state = .authLimited)
      (hdeadline : next.deadlineMs = found.deadlineMs) : EntryStep (some found) (some next)
  | consumed {found : PendingEntry} {now : ℕ} (hstate : found.state = .active)
      (hlive : now < found.deadlineMs) (hop : op = .consumeSuccess id now)
      (hreply : reply.status = .ok) : EntryStep (some found) (some (found.tombstone .consumed))
  | cancelled {found : PendingEntry} {now : ℕ} (hstate : found.state = .active)
      (hlive : now < found.deadlineMs) (hop : op = .cancel id now) (hreply : reply.status = .ok) :
      EntryStep (some found) none
  | inserted {entry : Option PendingEntry} {thClientAuth : Digest} {sweepNow now : ℕ}
      (hold : ∀ found, entry = some found → found.deadlineMs ≤ sweepNow)
      (hop : op = .insert id thClientAuth sweepNow now) (hreply : reply.status = .ok) :
      EntryStep entry (some (store.fresh id thClientAuth now))

variable {store next : PendingStore} {id : HandshakeId} {op : PendingOp} {reply : PendingReply}
  {now : ℕ} {call : PendingOp × PendingReply} {calls : List (PendingOp × PendingReply)}

namespace PendingStore

/-- A call keeps the store well formed and its lifetime setting, and does to the
entry of every id one of the things listed above. -/
structure Stepped (store : PendingStore) (op : PendingOp) (call : PendingReply × PendingStore) :
    Prop where
  wellFormed : call.2.WellFormed
  ttlMs : call.2.ttlMs = store.ttlMs
  entry : ∀ id, EntryStep store id op call.1 (store.entry id) (call.2.entry id)

/-- A call about one id that changes the map at that id only. -/
private theorem stepped_of_updated {value : Option PendingEntry}
    (hupdated : Updated store next id value) (hsubject : op.subject = some id)
    (hentry : EntryStep store id op reply (store.entry id) value) :
    Stepped store op (reply, next) := by
  refine ⟨hupdated.wellFormed, hupdated.ttlMs, fun wanted => ?_⟩
  rw [hupdated.entry]
  by_cases hwanted : wanted = id
  · subst hwanted
    rwa [update_self]
  rw [update_of_ne hwanted]
  exact .untouched (by rw [hsubject]; simpa using Ne.symm hwanted)

section

variable (hwf : store.WellFormed)

include hwf

/-- A call about one id that leaves the store as it is. -/
private theorem stepped_of_same (hsubject : op.subject = some id)
    (hentry : EntryStep store id op reply (store.entry id) (store.entry id)) :
    Stepped store op (reply, store) := by
  refine ⟨hwf, rfl, fun wanted => ?_⟩
  by_cases hwanted : wanted = id
  · subst hwanted
    exact hentry
  · exact .untouched (by rw [hsubject]; simpa using Ne.symm hwanted)

/-- The refusals of the common prologue, for a call that hands back only a status. -/
private theorem stepped_of_refused {status : PendingStatus} (hsubject : op.subject = some id)
    (htime : op.time = now) (hview : LocatedView store id now (.refused status next))
    (hstatus : reply.status = status) (hdigest : reply.digest = Blob.zero 32)
    (hreport : reply.report ≠ .slot .active) : Stepped store op (reply, next) := by
  cases hview with
  | absent | consumed =>
    refine stepped_of_same hwf hsubject (.refused hsubject ⟨?_, hdigest, hreport⟩ ?_)
    · rw [hstatus]; simp
    · rw [hstatus]; simp
  | expired hentry hexpired hfreed =>
    refine stepped_of_updated hfreed hsubject ?_
    rw [hentry]
    refine .evicted (by rw [htime]; exact hexpired) fun _ => ⟨⟨?_, hdigest, hreport⟩, ?_⟩
    · rw [hstatus]; simp
    · rw [hstatus]; simp
  | authLimited hentry hlive hstate =>
    refine stepped_of_same hwf hsubject (.refused hsubject ⟨?_, hdigest, hreport⟩ ?_)
    · rw [hstatus]; simp
    intro _
    exact ⟨_, hentry, hstate⟩

private theorem stepped_getDigest (id : HandshakeId) (now : ℕ) :
    Stepped store (.getDigest id now) (store.apply (.getDigest id now)) := by
  have hview := locate_view hwf id now
  simp only [apply, getDigest]
  generalize store.locate id now = located at hview ⊢
  cases located with
  | refused => exact stepped_of_refused hwf rfl rfl hview rfl rfl (by simp)
  | live =>
    cases hview with
    | live hentry hlive hstate =>
      refine stepped_of_same hwf rfl ?_
      rw [hentry]
      exact .read hstate hlive (Or.inl ⟨now, rfl⟩)

private theorem stepped_recordFailure (id : HandshakeId) (now : ℕ) :
    Stepped store (.recordFailure id now) (store.apply (.recordFailure id now)) := by
  have hview := locate_view hwf id now
  simp only [apply, recordFailure]
  generalize store.locate id now = located at hview ⊢
  cases located with
  | refused => exact stepped_of_refused hwf rfl rfl hview rfl rfl (by simp)
  | live =>
    cases hview with
    | live hentry hlive hstate hreplaced hfreed =>
      have hkey := Slots.key_of_entryOf hentry
      obtain ⟨hused, hid⟩ := key_eq_some.mp hkey
      dsimp only
      split_ifs with hcount
      · refine stepped_of_updated (hreplaced _ ?_) rfl ?_
        · exact key_eq_some.mpr ⟨by simp [tombstone], hid⟩
        rw [hentry]
        exact .limited hstate hlive rfl hcount rfl rfl rfl
      · refine stepped_of_updated (hreplaced _ ?_) rfl ?_
        · exact key_eq_some.mpr ⟨hused, hid⟩
        rw [hentry]
        exact .failed hstate hlive rfl (by omega) rfl

private theorem stepped_consumeSuccess (id : HandshakeId) (now : ℕ) :
    Stepped store (.consumeSuccess id now) (store.apply (.consumeSuccess id now)) := by
  have hview := locate_view hwf id now
  simp only [apply, consumeSuccess]
  generalize store.locate id now = located at hview ⊢
  cases located with
  | refused => exact stepped_of_refused hwf rfl rfl hview rfl rfl (by simp)
  | live =>
    cases hview with
    | live hentry hlive hstate hreplaced =>
      obtain ⟨-, hid⟩ := key_eq_some.mp (Slots.key_of_entryOf hentry)
      refine stepped_of_updated (hreplaced _ ?_) rfl ?_
      · exact key_eq_some.mpr ⟨by simp [tombstone], hid⟩
      rw [hentry]
      exact .consumed hstate hlive rfl rfl

private theorem stepped_cancel (id : HandshakeId) (now : ℕ) :
    Stepped store (.cancel id now) (store.apply (.cancel id now)) := by
  have hview := locate_view hwf id now
  simp only [apply, cancel]
  generalize store.locate id now = located at hview ⊢
  cases located with
  | refused => exact stepped_of_refused hwf rfl rfl hview rfl rfl (by simp)
  | live =>
    cases hview with
    | live hentry hlive hstate hreplaced hfreed =>
      refine stepped_of_updated hfreed rfl ?_
      rw [hentry]
      exact .cancelled hstate hlive rfl rfl

/-- A sweep on the way: entries of ids the call is not about are kept or evicted. -/
private theorem entryStep_sweep (op : PendingOp) (hsubject : op.subject ≠ some id) :
    EntryStep store id op reply (store.entry id) ((store.sweep op.time).entry id) := by
  rw [entry_sweep hwf]
  cases hentry : store.entry id with
  | none => exact .untouched hsubject
  | some found =>
    by_cases hlive : op.time < found.deadlineMs
    · rw [Option.filter_some_pos (by simpa using hlive)]
      exact .untouched hsubject
    rw [Option.filter_some_neg (by simpa using hlive)]
    exact .evicted (by omega) fun hsame => absurd hsame hsubject

private theorem stepped_insert (id : HandshakeId) (thClientAuth : Digest) (sweepNow now : ℕ) :
    Stepped store (.insert id thClientAuth sweepNow now)
      (store.apply (.insert id thClientAuth sweepNow now)) := by
  have hview := insert_view hwf id thClientAuth sweepNow now
  have hswept := wellFormed_sweep hwf sweepNow
  have hother : ∀ (reply : PendingReply) (wanted : HandshakeId), wanted ≠ id →
      EntryStep store wanted (.insert id thClientAuth sweepNow now) reply
        (store.entry wanted) ((store.sweep sweepNow).entry wanted) := by
    intro reply wanted hwanted
    exact entryStep_sweep hwf (.insert id thClientAuth sweepNow now)
      (by simpa [PendingOp.subject] using Ne.symm hwanted)
  simp only [apply]
  generalize store.insert id thClientAuth sweepNow now = outcome at hview ⊢
  cases hview with
  | duplicate hentry hlive =>
    refine ⟨hswept, ttlMs_sweep, fun wanted => ?_⟩
    by_cases hwanted : wanted = id
    · subst hwanted
      rw [entry_sweep_of_lt hwf hentry hlive, hentry]
      exact .refused rfl ⟨by simp, rfl, by simp⟩ (by simp)
    · exact hother _ wanted hwanted
  | full habsent =>
    refine ⟨hswept, ttlMs_sweep, fun wanted => ?_⟩
    by_cases hwanted : wanted = id
    · subst hwanted
      rw [habsent]
      cases hentry : store.entry wanted with
      | none => exact .refused rfl ⟨by simp, rfl, by simp⟩ (by simp)
      | some =>
        exact .evicted (deadline_le_of_swept hwf habsent hentry) fun _ =>
          ⟨⟨by simp, rfl, by simp⟩, by simp⟩
    · exact hother _ wanted hwanted
  | inserted habsent hupdated =>
    refine ⟨hupdated.wellFormed, hupdated.ttlMs.trans ttlMs_sweep, fun wanted => ?_⟩
    rw [hupdated.entry]
    by_cases hwanted : wanted = id
    · subst hwanted
      rw [update_self]
      exact .inserted (fun found => deadline_le_of_swept hwf habsent) rfl rfl
    · rw [update_of_ne hwanted]
      exact hother _ wanted hwanted

/-- A slot in use is what the map holds under its id. -/
theorem entry_of_mem {slot : PendingEntry} (hslot : slot ∈ store.slots)
    (hstate : slot.state ≠ .free) : store.entry slot.handshakeId = some slot := by
  obtain ⟨index, hat⟩ := List.mem_iff_getElem?.mp hslot
  exact hwf.unique.entryOf_eq_some hat (key_eq_some.mpr ⟨hstate, rfl⟩)

/-- What `inspect` says is what the map holds. -/
theorem inspect_eq (id : HandshakeId) (now : ℕ) :
    store.inspect id now =
      match store.entry id with
      | none => (.notFound, .slot .free, 0)
      | some found =>
        if found.deadlineMs ≤ now then (.expired, .expired, found.failureCount)
        else
          match found.state with
          | .consumed => (.consumed, .slot .consumed, found.failureCount)
          | .authLimited => (.authLimit, .slot .authLimited, found.failureCount)
          | .free | .active => (.ok, .slot found.state, found.failureCount) := by
  unfold inspect
  rw [if_pos hwf.usable]
  cases hslot : store.findSlot id with
  | none => rw [show store.entry id = none from Slots.slotOf_eq_none_iff.mp hslot]
  | some =>
    obtain ⟨found, hat, -, hentry⟩ := Slots.slotOf_eq_some hslot
    rw [show store.entry id = some found from hentry]
    cases hstate : found.state <;>
      simp [List.getD, hat, expired, hstate]

private theorem stepped_inspect (id : HandshakeId) (now : ℕ) :
    Stepped store (.inspect id now) (store.apply (.inspect id now)) := by
  simp only [apply]
  refine stepped_of_same hwf rfl ?_
  rw [inspect_eq hwf]
  cases hentry : store.entry id with
  | none => exact .refused rfl ⟨by simp, rfl, by simp⟩ (by simp)
  | some found =>
    dsimp only
    by_cases hexpired : found.deadlineMs ≤ now
    · rw [if_pos hexpired]
      exact .refused rfl ⟨by simp, rfl, by simp⟩ (by simp)
    rw [if_neg hexpired]
    cases hstate : found.state with
    | free => exact absurd hstate (state_ne_free_of_entry hentry)
    | active =>
      exact .read hstate (by simpa [PendingOp.time] using hexpired) (Or.inr ⟨now, rfl⟩)
    | consumed => exact .refused rfl ⟨by simp, rfl, by simp⟩ (by simp)
    | authLimited =>
      exact .refused rfl ⟨by simp, rfl, by simp⟩ fun _ => ⟨found, rfl, hstate⟩

/-- Every call does to every entry one of the things `EntryStep` lists. -/
theorem stepped_apply (op : PendingOp) : Stepped store op (store.apply op) := by
  cases op with
  | insert id thClientAuth sweepNow now => exact stepped_insert hwf id thClientAuth sweepNow now
  | getDigest id now => exact stepped_getDigest hwf id now
  | recordFailure id now => exact stepped_recordFailure hwf id now
  | consumeSuccess id now => exact stepped_consumeSuccess hwf id now
  | cancel id now => exact stepped_cancel hwf id now
  | sweep now =>
    refine ⟨wellFormed_sweep hwf now, ttlMs_sweep, fun id => ?_⟩
    exact entryStep_sweep hwf (.sweep now) (by simp [PendingOp.subject])
  | inspect id now => exact stepped_inspect hwf id now
  | activeCount =>
    exact ⟨hwf, rfl, fun id => .untouched (by simp [PendingOp.subject])⟩

end

/-! ## Sequences of calls -/

@[simp]
theorem exec_cons (store : PendingStore) (op : PendingOp) (ops : List PendingOp) :
    store.exec (op :: ops) = (store.apply op).2.exec ops := rfl

theorem exec_append (store : PendingStore) (first second : List PendingOp) :
    store.exec (first ++ second) = (store.exec first).exec second := by
  simp [exec]

theorem wellFormed_exec (hwf : store.WellFormed) (ops : List PendingOp) :
    (store.exec ops).WellFormed ∧ (store.exec ops).ttlMs = store.ttlMs := by
  induction ops generalizing store with
  | nil => exact ⟨hwf, rfl⟩
  | cons op ops ih =>
    have hstep := stepped_apply hwf op
    obtain ⟨hnext, httl⟩ := ih hstep.wellFormed
    exact ⟨hnext, httl.trans hstep.ttlMs⟩

theorem mem_ops_of_mem_calls {ops : List PendingOp} (hcall : call ∈ store.calls ops) :
    call.1 ∈ ops := by
  induction ops generalizing store with
  | nil => simp [calls] at hcall
  | cons op ops ih =>
    rcases List.mem_cons.mp hcall with rfl | hcall
    · simp
    · exact List.mem_cons_of_mem op (ih hcall)

/-- The id is a tombstone until at least the given time. -/
def Locked (store : PendingStore) (id : HandshakeId) (deadlineMs : ℕ) : Prop :=
  ∃ found, store.entry id = some found ∧ deadlineMs ≤ found.deadlineMs ∧ found.state ≠ .active

variable {deadlineMs : ℕ} {ops : List PendingOp}

/-- Before the deadline, a call keeps a tombstone and refuses everything about it. -/
theorem locked_apply (hwf : store.WellFormed) (hlocked : Locked store id deadlineMs)
    (htime : op.time < deadlineMs) :
    Locked (store.apply op).2 id deadlineMs ∧
      (op.subject = some id → Refusal (store.apply op).1) := by
  obtain ⟨found, hentry, hdeadline, hstate⟩ := hlocked
  have hstep := (stepped_apply hwf op).entry id
  rw [hentry] at hstep
  generalize hnext : (store.apply op).2.entry id = next at hstep
  cases hstep with
  | untouched hsubject =>
    exact ⟨⟨found, hnext, hdeadline, hstate⟩, fun hsame => absurd hsame hsubject⟩
  | refused hsubject hrefusal =>
    exact ⟨⟨found, hnext, hdeadline, hstate⟩, fun _ => hrefusal⟩
  | evicted => omega
  | read hactive | failed hactive | limited hactive | consumed hactive | cancelled hactive =>
    exact absurd hactive hstate
  | inserted hold hop =>
    have hold := hold found rfl
    subst hop
    simp only [PendingOp.time] at htime
    omega

/-- Before the deadline, a tombstone outlives every sequence of calls. -/
theorem locked_exec (hwf : store.WellFormed) (hlocked : Locked store id deadlineMs)
    (htimes : ∀ op ∈ ops, op.time < deadlineMs) :
    Locked (store.exec ops) id deadlineMs ∧
      ∀ call ∈ store.calls ops, call.1.subject = some id → Refusal call.2 := by
  induction ops generalizing store with
  | nil => exact ⟨hlocked, by simp [calls]⟩
  | cons op ops ih =>
    obtain ⟨hnext, hreply⟩ := locked_apply hwf hlocked (htimes op (by simp))
    obtain ⟨hend, hcalls⟩ := ih (stepped_apply hwf op).wellFormed hnext
      fun later hlater => htimes later (by simp [hlater])
    refine ⟨hend, fun call hcall => ?_⟩
    rcases List.mem_cons.mp hcall with rfl | hcall
    · exact hreply
    · exact hcalls call hcall

/-! ## Consumed at most once -/

/-- The calls of a sequence come in the order of their clock readings. -/
theorem times_of_nondecreasingClock (hclock : NondecreasingClock ops) :
    ops.Pairwise fun first second => first.time ≤ second.time := by
  have hmem : ∀ op : PendingOp, op.time ∈ op.readings := by
    intro op
    cases op <;> simp [PendingOp.time, PendingOp.readings]
  rw [NondecreasingClock, List.pairwise_flatMap] at hclock
  exact hclock.2.imp fun hpair => hpair _ (hmem _) _ (hmem _)

private theorem consumedCall_iff :
    consumedCall id deadlineMs call = true ↔
      ∃ now, call.1 = .consumeSuccess id now ∧ now < deadlineMs ∧ call.2.status = .ok := by
  obtain ⟨op, reply⟩ := call
  cases op <;> simp [consumedCall]
  tauto

/-- A tombstone is not consumed again before the deadline. -/
private theorem countP_consumedCall_of_locked (hwf : store.WellFormed)
    (hlocked : Locked store id deadlineMs)
    (htimes : ops.Pairwise fun first second => first.time ≤ second.time) :
    (store.calls ops).countP (consumedCall id deadlineMs) = 0 := by
  rw [List.countP_eq_zero]
  induction ops generalizing store with
  | nil => simp [calls]
  | cons op ops ih =>
    obtain ⟨hfirst, hrest⟩ := List.pairwise_cons.mp htimes
    by_cases htime : op.time < deadlineMs
    · obtain ⟨hnext, hreply⟩ := locked_apply hwf hlocked htime
      intro call hcall hconsumed
      rcases List.mem_cons.mp hcall with rfl | hcall
      · obtain ⟨now, hop, -, hok⟩ := consumedCall_iff.mp hconsumed
        dsimp only at hop
        exact (hreply (by rw [hop]; rfl)).1 hok
      · exact ih (stepped_apply hwf op).wellFormed hnext hrest call hcall hconsumed
    · intro call hcall hconsumed
      obtain ⟨now, hop, hnow, -⟩ := consumedCall_iff.mp hconsumed
      have hmem := mem_ops_of_mem_calls hcall
      have hlater : op.time ≤ call.1.time := by
        rcases List.mem_cons.mp hmem with hsame | hlater
        · rw [hsame]
        · exact hfirst _ hlater
      rw [hop] at hlater
      simp only [PendingOp.time] at hlater htime
      omega

/-- Deadlines do not decrease with the time of insertion. -/
theorem deadline_mono (hwf : store.WellFormed) {first second : ℕ} (hle : first ≤ second) :
    store.deadline first ≤ store.deadline second := by
  have httl := hwf.ttlBound
  unfold deadline
  split <;> split <;> omega

theorem deadline_congr {first second : PendingStore} (httl : first.ttlMs = second.ttlMs)
    (now : ℕ) : first.deadline now = second.deadline now := by
  simp [deadline, httl]

/-- Every entry of the id lasts at least until the given time. -/
def LastsUntil (store : PendingStore) (id : HandshakeId) (deadlineMs : ℕ) : Prop :=
  ∀ found, store.entry id = some found → deadlineMs ≤ found.deadlineMs

/-- Every insertion of a sequence sets a deadline of at least the given time. -/
def InsertsUntil (store : PendingStore) (deadlineMs : ℕ) (ops : List PendingOp) : Prop :=
  ∀ id thClientAuth sweepNow now, PendingOp.insert id thClientAuth sweepNow now ∈ ops →
    deadlineMs ≤ store.deadline now

/-- A call that inserts nothing leaves the deadline of an entry alone. -/
theorem deadline_of_step {before : Option PendingEntry} {later : PendingEntry}
    (hstep : EntryStep store id op reply before (some later)) :
    (∃ found, before = some found ∧ later.deadlineMs = found.deadlineMs) ∨
      ∃ thClientAuth sweepNow now, op = .insert id thClientAuth sweepNow now ∧
        reply.status = .ok ∧ later.deadlineMs = store.deadline now := by
  cases hstep with
  | untouched | refused | read | failed | consumed => exact .inl ⟨_, rfl, rfl⟩
  | limited _ _ _ _ _ _ hsame => exact .inl ⟨_, rfl, hsame⟩
  | inserted _ hop hreply => exact .inr ⟨_, _, _, hop, hreply, rfl⟩

theorem lastsUntil_apply (hwf : store.WellFormed) (hlasts : LastsUntil store id deadlineMs)
    (hinserts : InsertsUntil store deadlineMs [op]) :
    LastsUntil (store.apply op).2 id deadlineMs := by
  intro later hlater
  rcases deadline_of_step (hlater ▸ (stepped_apply hwf op).entry id) with
    ⟨found, hfound, hsame⟩ | ⟨_, _, _, hop, -, hsame⟩
  · exact hsame ▸ hlasts found hfound
  · exact hsame ▸ hinserts _ _ _ _ (List.mem_singleton.mpr hop.symm)

/-- Before a common lower bound of all its deadlines, an id is consumed at most once. -/
private theorem countP_consumedCall_le_one (hwf : store.WellFormed)
    (hlasts : LastsUntil store id deadlineMs) (hinserts : InsertsUntil store deadlineMs ops)
    (htimes : ops.Pairwise fun first second => first.time ≤ second.time) :
    (store.calls ops).countP (consumedCall id deadlineMs) ≤ 1 := by
  induction ops generalizing store with
  | nil => simp [calls]
  | cons op ops ih =>
    have hstep := stepped_apply hwf op
    obtain ⟨-, hrest⟩ := List.pairwise_cons.mp htimes
    rw [calls, List.countP_cons]
    by_cases hconsumed : consumedCall id deadlineMs (op, (store.apply op).1) = true
    · obtain ⟨now, hop, -, hok⟩ := consumedCall_iff.mp hconsumed
      dsimp only at hop hok
      have hlocked : Locked (store.apply op).2 id deadlineMs := by
        have hentry := hstep.entry id
        have hnext : LastsUntil (store.apply op).2 id deadlineMs :=
          lastsUntil_apply hwf hlasts (by rw [hop]; simp [InsertsUntil])
        generalize store.entry id = before at hentry
        generalize hafter : (store.apply op).2.entry id = after at hentry
        cases hentry with
        | consumed =>
          exact ⟨_, hafter, hnext _ hafter, by simp [tombstone]⟩
        | untouched hsubject => exact absurd (by rw [hop]; rfl) hsubject
        | refused hsubject hrefusal => exact absurd hok hrefusal.1
        | evicted hexpired hreply => exact absurd hok (hreply (by rw [hop]; rfl)).1.1
        | read _ _ hother | failed _ _ hother | limited _ _ hother | cancelled _ _ hother
        | inserted _ hother => simp [hop] at hother
      rw [countP_consumedCall_of_locked hstep.wellFormed hlocked hrest, if_pos hconsumed]
    · rw [if_neg hconsumed, Nat.add_zero]
      refine ih hstep.wellFormed (lastsUntil_apply hwf hlasts ?_) ?_ hrest
      · intro id thClientAuth sweepNow now hmem
        exact hinserts id thClientAuth sweepNow now (by simp [List.mem_singleton.mp hmem])
      intro id thClientAuth sweepNow now hmem
      rw [deadline_congr hstep.ttlMs]
      exact hinserts id thClientAuth sweepNow now (List.mem_cons_of_mem op hmem)

/-! ## Spent ids -/

/-- How the entry of an id that was inserted once accounts for the calls since: it is
a tombstone, or the id has not been consumed and its failures are below the limit. -/
def Accounts (store : PendingStore) (id : HandshakeId) (deadlineMs : ℕ)
    (calls : List (PendingOp × PendingReply)) : Prop :=
  Locked store id deadlineMs ∨
    (∀ call ∈ calls, consumedCall id deadlineMs call = false) ∧
      calls.countP (failureCall id) < handshakeAuthFailureLimit ∧
      ∀ found, store.entry id = some found →
        found.deadlineMs = deadlineMs ∧ found.failureCount = calls.countP (failureCall id)

private theorem failureCall_iff :
    failureCall id call = true ↔
      ∃ now, call.1 = .recordFailure id now ∧
        (call.2.status = .ok ∨ call.2.status = .authLimit) := by
  obtain ⟨op, reply⟩ := call
  cases op <;> simp [failureCall]

/-- A call that neither consumes the id nor records a failure of it, and does not
change its deadline or its count, keeps the account. -/
private theorem accounts_snoc
    (hnone : ∀ earlier ∈ calls, consumedCall id deadlineMs earlier = false)
    (hcount : calls.countP (failureCall id) < handshakeAuthFailureLimit)
    (hconsumed : consumedCall id deadlineMs call = false) (hfailure : failureCall id call = false)
    (hentry : ∀ found, store.entry id = some found → found.deadlineMs = deadlineMs ∧
      found.failureCount = calls.countP (failureCall id)) :
    Accounts store id deadlineMs (calls ++ [call]) := by
  refine Or.inr ⟨?_, ?_, ?_⟩
  · intro earlier hearlier
    rcases List.mem_append.mp hearlier with hearlier | hlast
    · exact hnone earlier hearlier
    rw [List.mem_singleton.mp hlast]
    exact hconsumed
  · simpa [List.countP_append, hfailure] using hcount
  · simpa [List.countP_append, hfailure] using hentry

theorem accounts_apply (hwf : store.WellFormed) (haccounts : Accounts store id deadlineMs calls)
    (htime : op.time < deadlineMs) (hinsert : ¬ InsertedCall id (op, (store.apply op).1)) :
    Accounts (store.apply op).2 id deadlineMs (calls ++ [(op, (store.apply op).1)]) := by
  rcases haccounts with hlocked | ⟨hnone, hcount, hfound⟩
  · exact Or.inl (locked_apply hwf hlocked htime).1
  have hconsumed (hop : ∀ now, op ≠ .consumeSuccess id now) :
      consumedCall id deadlineMs (op, (store.apply op).1) = false := by
    rw [Bool.eq_false_iff]
    intro hcall
    obtain ⟨now, hsame, -⟩ := consumedCall_iff.mp hcall
    exact hop now hsame
  have hfailure (hop : ∀ now, op ≠ .recordFailure id now) :
      failureCall id (op, (store.apply op).1) = false := by
    rw [Bool.eq_false_iff]
    intro hcall
    obtain ⟨now, hsame, -⟩ := failureCall_iff.mp hcall
    exact hop now hsame
  have hstep := (stepped_apply hwf op).entry id
  generalize hbefore : store.entry id = before at hstep
  generalize hafter : (store.apply op).2.entry id = after at hstep
  rw [hbefore] at hfound
  cases hstep with
  | untouched hsubject =>
    refine accounts_snoc hnone hcount (hconsumed ?_) (hfailure ?_) (by rwa [hafter])
    · rintro now rfl
      exact hsubject rfl
    rintro now rfl
    exact hsubject rfl
  | refused hsubject hrefusal hlimit =>
    by_cases hlimited : (store.apply op).1.status = .authLimit
    · -- the entry is a tombstone already, so the account no longer matters
      obtain ⟨found, rfl, hstate⟩ := hlimit hlimited
      exact Or.inl ⟨found, hafter, (hfound found rfl).1.ge, by simp [hstate]⟩
    refine accounts_snoc hnone hcount ?_ ?_ (by rwa [hafter])
    · rw [Bool.eq_false_iff]
      intro hcall
      obtain ⟨now, -, -, hok⟩ := consumedCall_iff.mp hcall
      exact hrefusal.1 hok
    · rw [Bool.eq_false_iff]
      intro hcall
      obtain ⟨now, -, hok | hauth⟩ := failureCall_iff.mp hcall
      · exact hrefusal.1 hok
      · exact hlimited hauth
  | evicted =>
    have hsame := (hfound _ rfl).1
    omega
  | read hactive hlive hop =>
    refine accounts_snoc hnone hcount (hconsumed ?_) (hfailure ?_) (by rwa [hafter])
    · rintro now rfl
      simp at hop
    rintro now rfl
    simp at hop
  | @failed found now hactive hlive hop hlow hreply =>
    obtain ⟨hdeadline, hsame⟩ := hfound found rfl
    have hcall : failureCall id (op, (store.apply op).1) = true :=
      failureCall_iff.mpr ⟨now, hop, Or.inl hreply⟩
    have hnext : (found.failureCount + 1) % 256 = found.failureCount + 1 := by
      simp only [handshakeAuthFailureLimit] at hcount
      omega
    refine Or.inr ⟨?_, ?_, ?_⟩
    · intro call hmem
      rcases List.mem_append.mp hmem with hmem | hlast
      · exact hnone call hmem
      rw [List.mem_singleton.mp hlast]
      exact hconsumed fun now => by simp [hop]
    · simp only [List.countP_append, List.countP_singleton, hcall, if_true]
      omega
    · intro later hlater
      rw [hafter] at hlater
      cases hlater
      simp only [List.countP_append, List.countP_singleton, hcall, if_true]
      exact ⟨hdeadline, by omega⟩
  | limited hactive hlive hop hlow hreply hlimited hsame =>
    exact Or.inl ⟨_, hafter, by rw [hsame]; exact (hfound _ rfl).1.ge, by simp [hlimited]⟩
  | consumed =>
    exact Or.inl ⟨_, hafter, (hfound _ rfl).1.ge, by simp [tombstone]⟩
  | cancelled hactive hlive hop =>
    refine accounts_snoc hnone hcount (hconsumed ?_) (hfailure ?_) (by simp [hafter])
    · simp [hop]
    · simp [hop]
  | inserted hold hop hreply =>
    exact absurd ⟨by rw [hop]; rfl, by rw [hop]; rfl, hreply⟩ hinsert

theorem accounts_exec (hwf : store.WellFormed) (haccounts : Accounts store id deadlineMs calls)
    (htimes : ∀ op ∈ ops, op.time < deadlineMs)
    (hinserts : ∀ call ∈ store.calls ops, ¬ InsertedCall id call) :
    Accounts (store.exec ops) id deadlineMs (calls ++ store.calls ops) := by
  induction ops generalizing store calls with
  | nil => exact (List.append_nil calls).symm ▸ haccounts
  | cons op ops ih =>
    have hnext := accounts_apply hwf haccounts (htimes op (by simp))
      (hinserts _ (List.mem_cons_self ..))
    have hend := ih (stepped_apply hwf op).wellFormed hnext
      (fun later hlater => htimes later (by simp [hlater]))
      (fun call hcall => hinserts call (List.mem_cons_of_mem _ hcall))
    simpa [PendingStore.calls] using hend

/-- An id whose calls have used it up is a tombstone. -/
theorem locked_of_spent (haccounts : Accounts store id deadlineMs calls)
    (hspent : Spent id deadlineMs calls) : Locked store id deadlineMs := by
  rcases haccounts with hlocked | ⟨hnone, hcount, -⟩
  · exact hlocked
  rcases hspent with ⟨call, hcall, hconsumed⟩ | hlimit
  · rw [hnone call hcall] at hconsumed
    cases hconsumed
  · omega

/-! ## The deadline -/

/-- Without a new insertion, the deadline of an id does not move. -/
theorem deadline_exec (hwf : store.WellFormed)
    (hdeadline : ∀ found, store.entry id = some found → found.deadlineMs = deadlineMs)
    (hinserts : ∀ call ∈ store.calls ops, ¬ InsertedCall id call) :
    ∀ found, (store.exec ops).entry id = some found → found.deadlineMs = deadlineMs := by
  induction ops generalizing store with
  | nil => exact hdeadline
  | cons op ops ih =>
    have hstep := stepped_apply hwf op
    refine ih hstep.wellFormed ?_ fun call hcall => hinserts call (List.mem_cons_of_mem _ hcall)
    intro later hlater
    rcases deadline_of_step (hlater ▸ hstep.entry id) with
      ⟨found, hfound, hsame⟩ | ⟨_, _, _, rfl, hreply, -⟩
    · exact hsame.trans (hdeadline found hfound)
    · exact absurd ⟨rfl, rfl, hreply⟩ (hinserts _ (List.mem_cons_self ..))

/-- The refusals that say an entry is not there, or no longer. -/
private theorem located_refused_of_expired {located : Located}
    (hview : LocatedView store id now located)
    (hdeadline : ∀ found, store.entry id = some found → found.deadlineMs ≤ now) :
    ∃ status next, located = .refused status next ∧ (status = .notFound ∨ status = .expired) := by
  cases hview with
  | absent => exact ⟨_, _, rfl, Or.inl rfl⟩
  | expired => exact ⟨_, _, rfl, Or.inr rfl⟩
  | consumed hentry | authLimited hentry | live hentry => have := hdeadline _ hentry; omega

/-- From the deadline on, a call about the id is told that it is gone. -/
theorem reply_of_expired (hwf : store.WellFormed) (hsubject : op.subject = some id)
    (hinsert : op.isInsert = false)
    (hdeadline : ∀ found, store.entry id = some found → found.deadlineMs ≤ op.time) :
    ((store.apply op).1.status = .notFound ∨ (store.apply op).1.status = .expired) ∧
      Refusal (store.apply op).1 := by
  have hview (now : ℕ) (hnow : op.time = now) :=
    located_refused_of_expired (locate_view hwf id now) (hnow ▸ hdeadline)
  cases op with
  | insert => cases hinsert
  | sweep | activeCount => cases hsubject
  | getDigest _ now | recordFailure _ now | consumeSuccess _ now | cancel _ now =>
    cases hsubject
    obtain ⟨status, next, hlocated, hstatus⟩ := hview now rfl
    simp only [apply, getDigest, recordFailure, consumeSuccess, cancel, hlocated, Refusal]
    rcases hstatus with rfl | rfl <;> simp
  | inspect subject now =>
    cases hsubject
    simp only [apply, inspect_eq hwf, Refusal]
    cases hentry : store.entry id with
    | none => simp
    | some found =>
      have hexpired : found.deadlineMs ≤ now := hdeadline found hentry
      simp [hexpired]

/-- From the deadline on, the count of live entries is the count over other ids. -/
theorem activeCount_of_expired (hwf : store.WellFormed)
    (hdeadline : ∀ found, store.entry id = some found → found.deadlineMs ≤ now) :
    store.activeCount now =
      (store.slots.filter fun entry => entry.key ≠ some id).countP
        fun entry => entry.state = .active && !entry.expired now := by
  unfold activeCount
  rw [if_pos hwf.usable, List.countP_filter]
  apply List.countP_congr
  intro found hmem
  obtain ⟨index, hat⟩ := List.mem_iff_getElem?.mp hmem
  have hother : now < found.deadlineMs → found.key ≠ some id := by
    intro hlive hkey
    have hexpired := hdeadline found (hwf.unique.entryOf_eq_some hat hkey)
    omega
  simp only [Bool.and_eq_true, decide_eq_true_eq, Bool.not_eq_eq_eq_not, Bool.not_true,
    expired_eq_false_iff, ne_eq]
  tauto

/-- The store right after a successful insertion. -/
private theorem after_insert {thClientAuth : Digest} {sweepNow : ℕ} (hwf : store.WellFormed)
    (hok : (store.apply (.insert id thClientAuth sweepNow now)).1.status = .ok) :
    (store.apply (.insert id thClientAuth sweepNow now)).2.entry id =
      some (store.fresh id thClientAuth now) := by
  have hview := insert_view hwf id thClientAuth sweepNow now
  simp only [apply] at hok ⊢
  generalize store.insert id thClientAuth sweepNow now = outcome at hview hok ⊢
  cases hview with
  | duplicate | full => cases hok
  | inserted habsent hupdated => rw [hupdated.entry, update_self]

end PendingStore

open PendingStore

/-- Single use of a ledger entry. Take any store, any calls, an insertion that
succeeds, and any further calls, with a clock that never goes back; the deadline is
the one set at the insertion. Before the deadline the id is consumed at most once. If
it is not inserted anew, then once it is spent every call about it that is made
before the deadline is refused and it never becomes active again; its deadline never
moves; and from the deadline on it is reported as gone and not counted. -/
theorem pending_ledger_single_use {external : Bool} {capacity : ℕ} {ttlMs : UInt64}
    {store : PendingStore} (hinit : storeInitCommon external capacity ttlMs = (.ok, store))
    (before middle after : List PendingOp) (id : HandshakeId) (thClientAuth : Digest)
    (sweepNow now : ℕ)
    (hclock : NondecreasingClock
      (before ++ .insert id thClientAuth sweepNow now :: middle ++ after))
    (hok : ((store.exec before).apply (.insert id thClientAuth sweepNow now)).1.status = .ok) :
    let inserted := store.exec (before ++ [.insert id thClientAuth sweepNow now])
    let deadlineMs := store.deadline now
    ((inserted.calls middle).countP (consumedCall id deadlineMs) ≤ 1) ∧
    ((∀ call ∈ inserted.calls middle, ¬ InsertedCall id call) →
      (Spent id deadlineMs (inserted.calls middle) →
        (∀ op ∈ middle ++ after, op.time < deadlineMs) →
          (∀ call ∈ (inserted.exec middle).calls after, call.1.subject = some id → Refusal call.2) ∧
          ∃ found, ((inserted.exec middle).exec after).entry id = some found ∧
            found.state ≠ .active) ∧
      (∀ found, (inserted.exec middle).entry id = some found → found.deadlineMs = deadlineMs) ∧
      (∀ op : PendingOp, op.subject = some id → op.isInsert = false → deadlineMs ≤ op.time →
        (((inserted.exec middle).apply op).1.status = .notFound ∨
          ((inserted.exec middle).apply op).1.status = .expired) ∧
        Refusal ((inserted.exec middle).apply op).1) ∧
      ∀ time, deadlineMs ≤ time →
        (inserted.exec middle).activeCount time =
          ((inserted.exec middle).slots.filter fun entry => entry.key ≠ some id).countP
            fun entry => entry.state = .active && !entry.expired time) := by
  obtain ⟨hstore, -⟩ := wellFormed_of_storeInitCommon hinit
  obtain ⟨hbefore, httl⟩ := wellFormed_exec hstore before
  have hstep := stepped_apply hbefore (.insert id thClientAuth sweepNow now)
  intro inserted deadlineMs
  have hinserted : inserted =
      ((store.exec before).apply (.insert id thClientAuth sweepNow now)).2 := exec_append ..
  have hwf : inserted.WellFormed := hinserted ▸ hstep.wellFormed
  have hentry : inserted.entry id = some ((store.exec before).fresh id thClientAuth now) := by
    rw [hinserted]
    exact after_insert hbefore hok
  have hfresh : ((store.exec before).fresh id thClientAuth now).deadlineMs = deadlineMs :=
    deadline_congr httl now
  have hinitial : ∀ found, inserted.entry id = some found → found.deadlineMs = deadlineMs := by
    intro found hfound
    rw [hentry] at hfound
    cases hfound
    exact hfresh
  -- the readings of the calls after the insertion are not before it
  have hlater : NondecreasingClock middle ∧
      ∀ reading ∈ middle.flatMap PendingOp.readings, now ≤ reading := by
    simp only [NondecreasingClock, List.flatMap_append, List.flatMap_cons,
      List.pairwise_append] at hclock
    obtain ⟨⟨-, ⟨-, hmiddle, hcross⟩, -⟩, -⟩ := hclock
    exact ⟨hmiddle, hcross now (by simp [PendingOp.readings])⟩
  refine ⟨?_, fun hinserts => ?_⟩
  · refine countP_consumedCall_le_one hwf (fun found hfound => ?_) ?_
      (times_of_nondecreasingClock hlater.1)
    · exact (hinitial found hfound).ge
    · intro other digest otherSweep otherNow hmem
      rw [deadline_congr (hinserted ▸ hstep.ttlMs.trans httl)]
      refine deadline_mono hstore (hlater.2 otherNow ?_)
      exact List.mem_flatMap.mpr ⟨_, hmem, by simp [PendingOp.readings]⟩
  have hdeadline := deadline_exec hwf hinitial hinserts
  have hmiddle := (wellFormed_exec hwf middle).1
  refine ⟨fun hspent htimes => ?_, hdeadline, fun op hsubject hinsert htime => ?_,
    fun time htime => ?_⟩
  · have haccounts : Accounts inserted id deadlineMs [] := by
      refine Or.inr ⟨by simp, by simp [handshakeAuthFailureLimit], fun found hfound => ?_⟩
      refine ⟨hinitial found hfound, ?_⟩
      rw [hentry] at hfound
      cases hfound
      rfl
    have hspends := accounts_exec hwf haccounts
      (fun op hop => htimes op (List.mem_append_left _ hop)) hinserts
    obtain ⟨⟨found, hfound, -, hstate⟩, hcalls⟩ :=
      locked_exec hmiddle (locked_of_spent hspends (by simpa using hspent))
        fun op hop => htimes op (List.mem_append_right _ hop)
    exact ⟨hcalls, found, hfound, hstate⟩
  · exact reply_of_expired hmiddle hsubject hinsert fun found hfound =>
      (hdeadline found hfound).trans_le htime
  · exact activeCount_of_expired hmiddle fun found hfound =>
      (hdeadline found hfound).trans_le htime

/-- One slot, one second: an id that is inserted at time 0 and consumed at time 5 hands
out no digest at time 6, and at time 1000 it is gone. -/
theorem pending_ledger_single_use_one_slot : let id : HandshakeId := Blob.zero 16
    let store := (storeInitCommon false 1 1000).2
    let inserted := store.exec [.insert id (Blob.zero 32) 0 0]
    let consumed := inserted.exec [.consumeSuccess id 5]
    (inserted.apply (.consumeSuccess id 5)).1.status = .ok ∧
      Refusal (consumed.apply (.getDigest id 6)).1 ∧
      (consumed.apply (.getDigest id 1000)).1.status ≠ .ok := by
  intro id store inserted consumed
  have hinit : storeInitCommon false 1 1000 = (.ok, store) := rfl
  have huse := pending_ledger_single_use hinit [] [.consumeSuccess id 5] [.getDigest id 6] id
    (Blob.zero 32) 0 0 (by simp [NondecreasingClock, PendingOp.readings]) (by decide)
  have hdeadline : store.deadline 0 = 1000 := by decide
  have hnone : ∀ call ∈ inserted.calls [.consumeSuccess id 5], ¬ InsertedCall id call := by
    simp [calls, InsertedCall, PendingOp.isInsert]
  obtain ⟨hspent, -, hexpired, -⟩ := huse.2 hnone
  refine ⟨by decide, ?_, ?_⟩
  · have hconsumed : Spent id (store.deadline 0) (inserted.calls [.consumeSuccess id 5]) :=
      Or.inl ⟨(.consumeSuccess id 5, (inserted.apply (.consumeSuccess id 5)).1),
        List.mem_singleton_self _, by decide⟩
    have hcalls := (hspent hconsumed (by simp [PendingOp.time, hdeadline])).1
    exact hcalls (.getDigest id 6, (consumed.apply (.getDigest id 6)).1)
      (List.mem_singleton_self _) rfl
  · exact (hexpired (.getDigest id 1000) rfl rfl hdeadline.le).2.1

end MldsaAuth.Protocol
