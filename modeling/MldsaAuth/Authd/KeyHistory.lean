/-
# The history of a handle's keys

Sessions of one handle may rotate its key at the same time, and a session that is older
than the last rotation still pins the key before it. The store has the last word: a
rotation commits only if the key its signatures name as the old one is the active one at
that moment. So the keys of a handle follow one another in a single chain, whose links
are the rotations that were committed, in their order.
-/

import MldsaAuth.Authd.Store.Accounts
import MldsaAuth.Authd.StoreSteps

namespace MldsaAuth.Authd

open Foundation Crypto Protocol Tables Machine Registry

/-! ## What the signatures say -/

/-- The subject of the two signatures of a rotation. -/
def RotationCommit.subject (commit : RotationCommit) : RotateSubject where
  handshakeId := commit.handshakeId
  flags := commit.msg.flags
  handle := commit.handle
  pkOld := commit.pkOld
  pkNew := commit.msg.pkNew

variable (prims : DaemonPrimitives)

/-- A signature is good for a rotation, under one of the two labels. -/
def SignedFor (pk : SigPublicKey) (sig : Bytes) (label : RotateLabel)
    (subject : RotateSubject) : Prop :=
  ∃ digest, rotateDigest prims.toPrimitives subject label = .ok digest ∧
    prims.sigVerify pk digest.toList sig = true

/-- A signature is good for one message only. -/
def MessageBound : Prop :=
  ∀ pk message other sig, prims.sigVerify pk message sig = true →
    prims.sigVerify pk other sig = true → message = other

/-- Two texts collide under SHA-256. -/
def Collides (first second : Bytes) : Prop :=
  first ≠ second ∧ prims.sha256 first = prims.sha256 second

variable {prims : DaemonPrimitives}

/-- A signature is good for one rotation only, or two rotations collide. -/
theorem SignedFor.unique {pk : SigPublicKey} {sig : Bytes}
    {label : RotateLabel} {first second : RotateSubject} (hbound : MessageBound prims)
    (hfirst : SignedFor prims pk sig label first) (hsecond : SignedFor prims pk sig label second) :
    first = second ∨ Collides prims (first.hashed label) (second.hashed label) := by
  obtain ⟨digest, hdigest, hverified⟩ := hfirst
  obtain ⟨digest', hdigest', hverified'⟩ := hsecond
  unfold rotateDigest at hdigest hdigest'
  split at hdigest
  · cases hdigest
  split at hdigest'
  · cases hdigest'
  rename_i hlength hlength'
  obtain rfl := Except.ok.inj hdigest
  obtain rfl := Except.ok.inj hdigest'
  have hsame := List.Vector.toList_injective (hbound _ _ _ _ hverified hverified')
  by_cases hhashed : first.hashed label = second.hashed label
  · exact .inl (RotateSubject.hashed_injective (by omega) (by omega) hhashed).2
  · exact .inr ⟨hhashed, hsame⟩

variable {env : FrameEnv} {conn : Conn} {commit : RotationCommit}

/-- Both signatures of a committed rotation are good for it. -/
theorem CommittedBy.signed (hcommit : CommittedBy prims env conn commit) :
    SignedFor prims commit.pkOld commit.msg.sigOld .old commit.subject ∧
      SignedFor prims commit.msg.pkNew commit.msg.sigNew .new commit.subject := by
  have hsubject : commit.subject =
      { handshakeId := conn.handshakeId
        flags := commit.msg.flags
        handle := conn.handle
        pkOld := commit.pkOld
        pkNew := commit.msg.pkNew } := by
    unfold RotationCommit.subject
    rw [hcommit.handshakeId, hcommit.handle]
  have hverified := hcommit.verified
  unfold rotateVerified at hverified
  rw [← hsubject] at hverified
  dsimp only at hverified
  split at hverified
  · rename_i digestOld digestNew hold hnew
    unfold mldsaVerify at hverified
    simp only [Bool.and_eq_true] at hverified
    exact ⟨⟨digestOld, hold, hverified.1.2⟩, ⟨digestNew, hnew, hverified.2.2⟩⟩
  · cases hverified

/-! ## Steps that replace no key -/

variable {userId : Bytes}

namespace Tables

variable {before after : Tables} {now : ℤ}

/-- The registry was changed by enrolling and revoking, if at all. -/
structure KeysKept (prims : DaemonPrimitives) (before after : Tables) : Prop where
  steps : Steps Set.univ (fingerprint prims) before.registry after.registry
  replacements : ∀ handle, after.registry.replacements handle = before.registry.replacements handle

theorem KeysKept.of_eq (hsame : after.registry = before.registry) :
    KeysKept prims before after where
  steps := hsame ▸ .refl
  replacements := fun _ => by rw [hsame]

theorem KeysKept.trans {middle : Tables} (hfirst : KeysKept prims before middle)
    (hsecond : KeysKept prims middle after) : KeysKept prims before after where
  steps := hfirst.steps.trans hsecond.steps
  replacements := fun handle =>
    (hsecond.replacements handle).trans (hfirst.replacements handle)

theorem DeviceEnrolled.keysKept {enrollment : Enrollment}
    (henrolled : DeviceEnrolled prims enrollment now before after)
    (hsound : Sound Set.univ (fingerprint prims) before.registry) :
    KeysKept prims before after where
  steps := .single (henrolled.registry (Set.mem_univ _))
  replacements := fun handle => by
    rw [henrolled.registry_eq, replacements_enroll hsound henrolled.handle_new]

theorem DeviceRevoked.keysKept {handle «by» : Bytes} {reason : Option Bytes}
    (hrevoked : DeviceRevoked prims handle «by» reason now before after) :
    KeysKept prims before after where
  steps := .single hrevoked.registry
  replacements := fun handle => by
    rw [hrevoked.registry_eq, replacements_revoke]

theorem DevicesRevoked.keysKept {guard : ℕ}
    (hrevoked : DevicesRevoked prims userId now guard before after) :
    KeysKept prims before after := by
  induction hrevoked with
  | exhausted | done => exact .of_eq rfl
  | next _ hrevoked _ ih => exact hrevoked.keysKept.trans ih

theorem CodeSpent.keysKept {codeId : ℕ} {ticketHash : StoreHash} {expiresAt : ℤ} {revokeAll : Bool}
    (hspent : CodeSpent prims codeId userId ticketHash now expiresAt revokeAll before after) :
    KeysKept prims before after := by
  obtain ⟨ticketed, revoked, hticketed, hrevoked, rfl⟩ := hspent.written
  have hstart : KeysKept prims before ticketed := .of_eq ((insertTicket_eq_some hticketed).2 ▸ rfl)
  have hrest : KeysKept prims ticketed revoked := by
    cases revokeAll with
    | true => exact DevicesRevoked.keysKept hrevoked
    | false =>
      obtain rfl : revoked = ticketed := hrevoked
      exact .of_eq rfl
  exact (hstart.trans hrest).trans (.of_eq rfl)

theorem TokenVerified.registry {tokenHash : StoreHash} {idleTtl : ℕ}
    {result : TokenVerdict × Option TokenInfo}
    (hverified : TokenVerified tokenHash now idleTtl before result after) :
    after.registry = before.registry := by
  cases hverified with
  | unknown => rfl
  | refused => rfl
  | slid => rfl

section Rotated

variable {rotation : Rotation} {current : KeyRow}

/-- A rotation adds one replacement, of its handle's key. -/
theorem KeyRotated.replacements (hrotated : KeyRotated prims rotation now current before after)
    (hlinked : before.registry.Linked) (owner : Bytes) :
    after.registry.replacements owner = before.registry.replacements owner ++
      if rotation.handle = owner then [(current.pk, rotation.newPk)] else [] := by
  obtain ⟨hcurrent, hserves⟩ := hrotated.serving
  rw [hrotated.registry_eq]
  exact replacements_rotate hlinked hcurrent hserves _ _ _ _

/-- The key that was replaced is not active any more. -/
theorem KeyRotated.superseded (hrotated : KeyRotated prims rotation now current before after) :
    ∃ entry ∈ after.registry.keys, entry.key = current.pk ∧ entry.status ≠ .active := by
  rw [hrotated.registry_eq]
  exact ⟨_, List.mem_append_left _ (List.mem_map.mpr
    ⟨_, hrotated.serving.1, if_pos (decide_eq_true rfl)⟩), rfl, nofun⟩

end Rotated

end Tables

variable {config : AuthdConfig}

/-- A request replaces no key. -/
theorem RequestView.keysKept {env : LocalEnv} {nowUnix : ℤ} {before after : Tables}
    {effect : Option ApiEffect} (hview : RequestView prims env nowUnix before effect after)
    (hsound : Sound Set.univ (fingerprint prims) before.registry) :
    KeysKept prims before after := by
  cases hview with
  | unchanged | tokenDeleted | handleTokensDeleted | userTokensDeleted => exact .of_eq rfl
  | @enrolled _ _ idempotent _ henrolled =>
    cases idempotent with
    | true => exact .of_eq (congrArg registry henrolled)
    | false =>
      obtain ⟨ready, hready, hwritten⟩ := henrolled
      have hkept : KeysKept prims before ready := .of_eq hready.registry
      exact hkept.trans (hwritten.keysKept (hready.registry ▸ hsound))
  | redeemed hredeemed =>
    obtain rfl | ⟨-, hwritten⟩ := hredeemed
    · exact .of_eq rfl
    refine KeysKept.trans ?_ (hwritten.keysKept hsound)
    exact .of_eq rfl
  | codeLost hused => exact .of_eq (hused.written ▸ rfl)
  | minted hminted =>
    obtain ⟨row, used, hused, -, -, hinserted⟩ := hminted.code
    obtain ⟨-, rfl⟩ := insertToken_eq_some hinserted
    exact .of_eq (hused.written ▸ rfl)
  | touched htouched => exact .of_eq htouched.registry
  | verified hpassed =>
    obtain ⟨first, last, middle, hfirst, hsecond, -⟩ := hpassed.passed
    exact .of_eq (hsecond.registry.trans hfirst.registry)
  | deviceRevoked hrevoked => exact hrevoked.keysKept
  | userDisabled hset | userEnabled hset => exact .of_eq (hset.written ▸ rfl)
  | codesReplaced hreplaced => exact .of_eq hreplaced.registry
  | codeSpent hspent => exact hspent.keysKept
  | failureNoted hnoted => exact .of_eq hnoted.registry

variable {shared : Shared}

/-- A frame that commits no rotation leaves the registry. -/
theorem FrameView.registry_eq {io : ConnIo}
    {served : Served} (hview : FrameView prims config env shared conn io served)
    (hsilent : ∀ commit, .rotation commit ∉ served.events) :
    served.shared.tables.registry = shared.tables.registry := by
  cases hview.effect with
  | kept htables => rw [htables]
  | issued _ _ _ _ hstored _ htables =>
    obtain ⟨-, rfl⟩ := insertLoginCode_eq_some hstored
    rcases htables with htables | htables
    · rw [htables]
      rfl
    rw [htables, registry_touchDevice]
    rfl
  | rotated _ _ _ hevents => exact absurd (hevents ▸ List.mem_singleton_self _) (hsilent _)

/-! ## What a step does to the keys -/

/-- The rotation that an entry of the log reports. -/
def LogEntry.rotation : LogEntry → Option RotationCommit
  | .conn _ (.rotation commit) => some commit
  | _ => none

/-- The rotations that were committed, in their order. -/
def rotations (log : List LogEntry) : List RotationCommit := log.filterMap LogEntry.rotation

theorem rotations_append_of_silent {log more : List LogEntry}
    (hsilent : ∀ entry ∈ more, entry.rotation = none) :
    rotations (log ++ more) = rotations log := by
  unfold rotations
  rw [List.filterMap_append, List.filterMap_eq_nil_iff.mpr hsilent, List.append_nil]

/-- The key a rotation replaced, with the one it brought. -/
def RotationCommit.replacement (commit : RotationCommit) : SigPublicKey × SigPublicKey :=
  (commit.pkOld, commit.msg.pkNew)

variable {serial : ℕ} {before after daemon : Daemon} {event : LoopEvent}

namespace Daemon

variable {start : Tables}

/-- Everything a step can do to the keys: a rotation is committed for the connection that
carried it, or no key is replaced. -/
inductive KeyMove (prims : DaemonPrimitives) (before after : Daemon) : Prop
  | kept (hkept : KeysKept prims before.tables after.tables)
      (hlog : rotations after.log = rotations before.log)
  | rotated {index : ℕ} {cell : Cell} {env : FrameEnv} {commit : RotationCommit}
      (hcell : before.cell index = some cell) (hcommit : CommittedBy prims env cell.conn commit)
      (hstored : before.tables.Commits prims commit before.now after.tables)
      (hlog : after.log = before.log ++ [.conn cell.slot.serial (.rotation commit)])

theorem StoreMove.keys (hmove : StoreMove prims config before event after)
    (hsound : Sound Set.univ (fingerprint prims) before.tables.registry) :
    KeyMove prims before after := by
  cases hmove with
  | kept htables hlog => exact .kept (.of_eq (congrArg registry htables)) (by rw [hlog])
  | swept htables hlog => exact .kept (.of_eq (htables ▸ rfl)) (by rw [hlog])
  | @frame index env cell io served _ hserved _ hview hafter =>
    subst hafter
    by_cases hrotation : ∃ commit, .rotation commit ∈ served.events
    · obtain ⟨commit, hmem⟩ := hrotation
      obtain ⟨hstage, hcommit, hstored, hevents⟩ := hview.committed_of_mem hmem
      have hlog : (before.putServed config index cell.slot served).log =
          before.log ++ [.conn cell.slot.serial (.rotation commit)] := by
        unfold putServed
        rw [hevents]
        rfl
      rcases cell.conn.opened_cases cell.slot.bound with hsame | ⟨hfresh, -⟩
      · rw [hsame] at hcommit
        exact .rotated hserved.cellAt hcommit hstored hlog
      rw [hfresh] at hstage
      cases hstage
    · have hsilent : ∀ commit, .rotation commit ∉ served.events :=
        fun commit hmem => hrotation ⟨commit, hmem⟩
      refine .kept (.of_eq (hview.registry_eq hsilent)) (rotations_append_of_silent ?_)
      intro entry hentry
      obtain ⟨event, hevent, rfl⟩ := List.mem_map.mp hentry
      cases event with
      | rotation commit => exact absurd hevent (hsilent commit)
      | _ => rfl
  | @line env effect hview hlog =>
    refine .kept (hview.keysKept hsound) ?_
    rw [hlog]
    refine rotations_append_of_silent fun entry hentry => ?_
    obtain ⟨effect, -, rfl⟩ := List.mem_map.mp hentry
    rfl

/-! ## Runs -/

/-- The keys are the work of the rotations in the log: the chain of every handle is the one of
the start with the handle's rotations as further links, and no key was replaced twice. -/
structure KeysTraced (prims : DaemonPrimitives) (start : Tables) (daemon : Daemon) : Prop where
  sound : Sound Set.univ (fingerprint prims) daemon.tables.registry
  linked : daemon.tables.registry.Linked
  replacements : ∀ handle, daemon.tables.registry.replacements handle =
    start.registry.replacements handle ++
      ((rotations daemon.log).filter fun commit => commit.handle = handle).map
        RotationCommit.replacement
  spent : ∀ commit ∈ rotations daemon.log, ∃ entry ∈ daemon.tables.registry.keys,
    entry.key = commit.pkOld ∧ entry.status ≠ .active
  once : (rotations daemon.log).Pairwise fun first second => first.pkOld ≠ second.pkOld

theorem KeysTraced.of_kept (htraced : KeysTraced prims start before)
    (hkept : KeysKept prims before.tables after.tables)
    (hlog : rotations after.log = rotations before.log) : KeysTraced prims start after where
  sound := Steps.sound hkept.steps htraced.sound
  linked := Steps.linked hkept.steps htraced.sound htraced.linked
  replacements := fun handle => by
    rw [hkept.replacements, hlog]
    exact htraced.replacements handle
  spent := by
    rw [hlog]
    intro commit hcommit
    obtain ⟨entry, hentry, hkey, hstatus⟩ := htraced.spent commit hcommit
    obtain ⟨later, hlater, -, -, hsame, hmoved⟩ :=
      (Steps.descends hkept.steps htraced.sound).keys entry hentry
    exact ⟨later, hlater, hsame.trans hkey, hmoved.resolve_right hstatus ▸ hstatus⟩
  once := hlog ▸ htraced.once

/-- A rotation adds its link to the chain of its handle, and replaces a key that no rotation
before it has replaced. -/
theorem KeysTraced.of_rotated (htraced : KeysTraced prims start before)
    (hstored : before.tables.Commits prims commit before.now after.tables)
    (hlog : after.log = before.log ++ [.conn serial (.rotation commit)]) :
    KeysTraced prims start after := by
  obtain ⟨current, hrotated⟩ := hstored
  obtain ⟨hcurrent, hserves⟩ := hrotated.serving
  have hold : current.pk = commit.pkOld := hrotated.expected _ rfl
  have hstep := hrotated.registry (Set.mem_univ _)
  have hrotations : rotations after.log = rotations before.log ++ [commit] := by
    rw [hlog]
    exact List.filterMap_append
  refine ⟨hstep.sound htraced.sound, hstep.linked htraced.sound htraced.linked, ?_, ?_, ?_⟩
  · intro handle
    rw [hrotated.replacements htraced.linked, htraced.replacements, hrotations,
      List.filter_append, List.map_append, List.append_assoc]
    congr 2
    show (if commit.handle = handle then _ else _) = _
    by_cases hhandle : commit.handle = handle
    · rw [if_pos hhandle, List.filter_cons_of_pos (by simpa using hhandle)]
      exact congrArg (fun key => [(key, commit.msg.pkNew)]) hold
    rw [if_neg hhandle, List.filter_cons_of_neg (by simpa using hhandle)]
    rfl
  · rw [hrotations]
    intro other hother
    rcases List.mem_append.mp hother with hearlier | hnew
    · obtain ⟨entry, hentry, hkey, hstatus⟩ := htraced.spent other hearlier
      obtain ⟨later, hlater, -, -, hsame, hmoved⟩ :=
        (hstep.descends htraced.sound).keys entry hentry
      exact ⟨later, hlater, hsame.trans hkey, hmoved.resolve_right hstatus ▸ hstatus⟩
    · obtain rfl := List.mem_singleton.mp hnew
      exact hold ▸ hrotated.superseded
  · rw [hrotations]
    refine List.pairwise_append.mpr ⟨htraced.once, List.pairwise_singleton _ _, ?_⟩
    intro first hfirst second hsecond hsame
    obtain rfl := List.mem_singleton.mp hsecond
    obtain ⟨entry, hentry, hkey, hstatus⟩ := htraced.spent first hfirst
    obtain rfl := Rows.eq_of_key htraced.sound.keys hentry hcurrent
      (hkey.trans (hsame.trans hold.symm))
    exact hstatus (serves_eq_true_iff.mp hserves).2

theorem KeysTraced.step (htraced : KeysTraced prims start daemon)
    (hallowed : daemon.allowed event) :
    KeysTraced prims start (daemon.step prims config event) := by
  cases (step_store hallowed : StoreMove prims config daemon event _).keys htraced.sound with
  | kept hkept hlog => exact htraced.of_kept hkept hlog
  | rotated _ _ hstored hlog => exact htraced.of_rotated hstored hlog

theorem keysTraced_start
    (hreached : Steps Set.univ (fingerprint prims) ⟨[], []⟩ shared.tables.registry)
    (slotCount localCount : ℕ) :
    KeysTraced prims shared.tables (.start slotCount localCount shared) where
  sound := Steps.sound hreached sound_fresh
  linked := Steps.linked hreached sound_fresh fun _ _ hentry => absurd hentry List.not_mem_nil
  replacements := fun _ => (List.append_nil _).symm
  spent := fun _ hcommit => absurd hcommit List.not_mem_nil
  once := .nil

/-- What is on record and not active any more is not active later. -/
theorem KeysTraced.descends {events : List LoopEvent} (htraced : KeysTraced prims start before)
    (hrun : Run (daemonMachine prims config) before events after) :
    Descends before.tables.registry after.tables.registry := by
  have hstep : ∀ daemon event, KeysTraced prims start daemon ∧
      Descends before.tables.registry daemon.tables.registry →
      daemon.allowed event → KeysTraced prims start (daemon.step prims config event) ∧
        Descends before.tables.registry (daemon.step prims config event).tables.registry := by
    rintro daemon event ⟨htraced, hdescends⟩ hallowed
    refine ⟨htraced.step hallowed, hdescends.trans ?_⟩
    cases (step_store hallowed : StoreMove prims config daemon event _).keys htraced.sound with
    | kept hkept => exact Steps.descends hkept.steps htraced.sound
    | rotated _ _ hstored =>
      obtain ⟨current, hrotated⟩ := hstored
      exact (hrotated.registry (Set.mem_univ _)).descends htraced.sound
  have hfirst : KeysTraced prims start before ∧
      Descends before.tables.registry before.tables.registry := ⟨htraced, .refl _⟩
  exact (hrun.invariant hstep hfirst).2

end Daemon

/-- Exactly one key was replaced: the row of the handle's active key is superseded by a
handshake, and a row for the new key follows. -/
def Tables.Supersedes (prims : DaemonPrimitives) (handle : Bytes) (old new : SigPublicKey)
    (handshakeId : HandshakeId) (now : ℤ) (before after : Tables) : Prop :=
  ∃ current keyId, before.activeKeyOf handle = some current ∧ current.pk = old ∧
    after.deviceKeys = Rows.updateWhere (fun row => row = current) (fun row =>
        { row with
          status := .superseded
          validTo := some now
          supersededByHsid := some handshakeId.toList })
      before.deviceKeys ++ [⟨keyId, handle, new, fingerprint prims new, .active, now, none, none⟩]

/-- A committed rotation is about the handle and the handshake of the connection that carried
it, both its signatures are good for it and for nothing else, and it replaces the key they name
as the old one by the key they name as the new one. -/
structure Replaces (prims : DaemonPrimitives) (conn : Conn) (commit : RotationCommit) (now : ℤ)
    (before after : Tables) : Prop where
  handle : commit.handle = conn.handle
  session : commit.handshakeId = conn.handshakeId
  signedOld : SignedFor prims commit.pkOld commit.msg.sigOld .old commit.subject
  signedNew : SignedFor prims commit.msg.pkNew commit.msg.sigNew .new commit.subject
  namesOld : ∀ subject, SignedFor prims commit.pkOld commit.msg.sigOld .old subject →
    subject = commit.subject ∨ Collides prims (subject.hashed .old) (commit.subject.hashed .old)
  namesNew : ∀ subject, SignedFor prims commit.msg.pkNew commit.msg.sigNew .new subject →
    subject = commit.subject ∨ Collides prims (subject.hashed .new) (commit.subject.hashed .new)
  replaced : Supersedes prims commit.subject.handle commit.subject.pkOld
    commit.subject.pkNew commit.subject.handshakeId now before after

theorem Tables.Commits.supersedes {now : ℤ} {before after : Tables}
    (hstored : before.Commits prims commit now after)
    (hsound : Sound Set.univ (fingerprint prims) before.registry) :
    Supersedes prims commit.subject.handle commit.subject.pkOld commit.subject.pkNew
      commit.subject.handshakeId now before after := by
  obtain ⟨current, hrotated⟩ := hstored
  obtain ⟨-, -, keyed, hkeyed, hkeys⟩ := hrotated.rows
  obtain ⟨-, -, rfl⟩ := insertKey_eq_some hkeyed
  refine ⟨current, (before.supersedeKey current.keyId now
    (some commit.handshakeId.toList)).nextKeyId, hrotated.replaced, hrotated.expected _ rfl,
    hkeys.trans ?_⟩
  -- ids are unique, so the update by id is the update of this row
  have hids : (before.deviceKeys.map KeyRow.keyId).Nodup := by
    have hnodup := hsound.ids
    unfold registry at hnodup
    rwa [List.map_map] at hnodup
  refine congrArg (fun rows => rows ++ _) (List.map_congr_left fun row hrow => ?_)
  have hcurrent := List.mem_of_find?_eq_some hrotated.replaced
  have hiff : row.keyId = current.keyId ↔ row = current :=
    ⟨Rows.eq_of_key hids hrow hcurrent, congrArg KeyRow.keyId⟩
  simp only [hiff]
  rfl

namespace Daemon

/-- A rotation that is logged was carried by one of the connections. -/
theorem KeyMove.replaces {start : Tables} (hmove : KeyMove prims before after)
    (hbound : MessageBound prims) (htraced : KeysTraced prims start before)
    (hlog : after.log = before.log ++ [.conn serial (.rotation commit)]) :
    ∃ index cell, before.cell index = some cell ∧ cell.slot.serial = serial ∧
      Replaces prims cell.conn commit before.now before.tables after.tables := by
  cases hmove with
  | kept _ hsame =>
    have hmore : rotations after.log = rotations before.log ++ [commit] := by
      rw [hlog]
      exact List.filterMap_append
    simp [hsame] at hmore
  | @rotated index cell env other hcell hcommit hstored hother =>
    have hentry := List.append_cancel_left (hother.symm.trans hlog)
    obtain ⟨rfl, hevent⟩ := LogEntry.conn.inj (List.head_eq_of_cons_eq hentry)
    obtain rfl := ConnEvent.rotation.inj hevent
    obtain ⟨hold, hnew⟩ := hcommit.signed
    exact ⟨index, cell, hcell, rfl, hcommit.handle, hcommit.handshakeId, hold, hnew,
      fun _ hsigned => hsigned.unique hbound hold, fun _ hsigned => hsigned.unique hbound hnew,
      hstored.supersedes htraced.sound⟩

/-- In every run, every rotation that commits replaces exactly the key its signatures name, for
the connection that carried it; no two of them replace the same key; the keys of a handle form
one chain without repetition, which the rotations of the handle extend in their order; and a
key that has stopped being active does not become active again. -/
theorem rotations_form_chains {slotCount localCount : ℕ} {shared : Shared}
    {events : List LoopEvent} (hbound : MessageBound prims)
    (hreached : Steps Set.univ (fingerprint prims) ⟨[], []⟩ shared.tables.registry)
    (hrun : Run (daemonMachine prims config) (start slotCount localCount shared) events daemon) :
    (∀ past event rest reached serial commit, events = past ++ event :: rest →
      Run (daemonMachine prims config) (start slotCount localCount shared) past reached →
      (reached.step prims config event).log = reached.log ++ [.conn serial (.rotation commit)] →
      ∃ index cell, reached.cell index = some cell ∧ cell.slot.serial = serial ∧
        Replaces prims cell.conn commit reached.now reached.tables
          (reached.step prims config event).tables) ∧
    ((rotations daemon.log).Pairwise fun first second => first.pkOld ≠ second.pkOld) ∧
    (∀ handle,
      (∀ entry ∈ (daemon.tables.registry.history handle).dropLast, entry.status = .superseded) ∧
      ((daemon.tables.registry.history handle).map RegisteredKey.key).Nodup ∧
      daemon.tables.registry.replacements handle =
        shared.tables.registry.replacements handle ++
          ((rotations daemon.log).filter fun commit => commit.handle = handle).map
            RotationCommit.replacement) ∧
    ∀ past rest reached, events = past ++ rest →
      Run (daemonMachine prims config) (start slotCount localCount shared) past reached →
      ∀ row ∈ reached.tables.deviceKeys, row.status ≠ .active →
        ∀ later ∈ daemon.tables.deviceKeys, later.pk = row.pk → later.status ≠ .active := by
  have htracedOf : ∀ {past reached}, Run (daemonMachine prims config)
      (start slotCount localCount shared) past reached → KeysTraced prims shared.tables reached :=
    fun hpast => hpast.invariant (fun _ _ htraced hallowed => htraced.step hallowed)
      (keysTraced_start hreached slotCount localCount)
  have htraced := htracedOf hrun
  refine ⟨?_, htraced.once, fun handle => ⟨htraced.linked handle, ?_, htraced.replacements handle⟩,
    ?_⟩
  · rintro past event rest reached serial commit rfl hpast hlog
    obtain ⟨middle, hmiddle, hallowed, -⟩ := hrun.split_at
    obtain rfl := hmiddle.target_eq.trans hpast.target_eq.symm
    exact ((step_store hallowed : StoreMove prims config middle event _).keys
      (htracedOf hpast).sound).replaces hbound (htracedOf hpast) hlog
  · exact htraced.sound.keys.sublist (List.filter_sublist.map _)
  · rintro past rest reached rfl hpast row hrow hstatus later hlater hsame
    obtain ⟨middle, hmiddle, hrest⟩ := hrun.split
    obtain rfl := hmiddle.target_eq.trans hpast.target_eq.symm
    obtain ⟨_, hmem, -, -, hkey, hmoved⟩ := ((htracedOf hpast).descends hrest).keys
      row.registered (List.mem_map_of_mem hrow)
    have hentry := Rows.eq_of_key htraced.sound.keys hmem (List.mem_map_of_mem hlater)
      (hkey.trans hsame.symm)
    rw [hentry] at hmoved
    rcases hmoved with hmoved | hactive
    · exact fun hactive => hstatus (hmoved.symm.trans hactive)
    · exact absurd hactive hstatus

theorem messageBound_sample : MessageBound .sample := by
  intro pk message other sig hfirst hsecond
  have hfirst : sig = pk.toList.take 8 ++ message := eq_of_beq hfirst
  have hsecond : sig = pk.toList.take 8 ++ other := eq_of_beq hsecond
  exact List.append_cancel_left (hfirst.symm.trans hsecond)

/-- The registry of the sample daemon comes of one enrollment. -/
theorem steps_sampleShared :
    Steps Set.univ (fingerprint .sample) ⟨[], []⟩ sampleShared.tables.registry :=
  .single (.enroll [1] (ascii "u") 1 (sampleKeypair 1).publicKey
    (fun _ hdevice => absurd hdevice List.not_mem_nil)
    (fun _ hentry => absurd hentry List.not_mem_nil)
    (fun _ hentry => absurd hentry List.not_mem_nil) (Set.mem_univ _))

/-- The sample client logs in and rotates its key. -/
def sampleRotation : List LoopEvent :=
  sampleLogin 0 7 sampleClientHello ++ sampleFrame 0 0 (sampleRotate sampleClientHello)

theorem rotations_form_chains_sampleRotation :
    (rotations (sampleDaemon sampleRotation).log).map RotationCommit.replacement =
        [((sampleKeypair 1).publicKey, (sampleKeypair 3).publicKey)] ∧
      ((sampleDaemon sampleRotation).tables.registry.history [1]).map RegisteredKey.key =
        [(sampleKeypair 1).publicKey, (sampleKeypair 3).publicKey] ∧
      ((rotations (sampleDaemon sampleRotation).log).Pairwise fun first second =>
        first.pkOld ≠ second.pkOld) := by
  have hrun : Run (daemonMachine .sample sampleConfig) (start 2 2 sampleShared)
      sampleRotation (sampleDaemon sampleRotation) := .of_allAllowed (by decide +kernel)
  exact ⟨by decide +kernel, by decide +kernel,
    (rotations_form_chains messageBound_sample steps_sampleShared hrun).2.1⟩

end Daemon

end MldsaAuth.Authd
