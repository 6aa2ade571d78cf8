/-
# No two commits from one transcript

Every key derivation reads the digest of a transcript, and a transcript carries a fresh
ephemeral key of the context that derives. So within one role no two derivations whose
keys were taken over read the same digest. For an initiator the ephemeral key sits in its
own ClientHello; for a responder the digest travels through the ledger, where it is active
in at most one place and is taken away when it is used.
-/

import MldsaAuth.Protocol.Process

namespace MldsaAuth.Protocol

open Foundation Crypto PendingStore HandshakeCtx Process

/-! ## Records -/

variable {record : Record} {more : Record} {digest : Digest}

section Records

variable {prims : Primitives} {pub : Blob 32}

/-- What is assumed of the primitives, on what a record holds: the ephemeral secrets are
distinct and so are their public keys; SHA-256 has no collision among the transcripts, and
HKDF gives distinct keys for distinct inputs. -/
structure Record.Ideal (prims : Primitives) (record : Record) : Prop where
  fresh : record.ephemerals.Nodup
  base : ∀ first ∈ record.ephemerals, ∀ second ∈ record.ephemerals,
    prims.scalarmultBase first = prims.scalarmultBase second → first = second
  sha256 : ∀ first ∈ record.transcripts, ∀ second ∈ record.transcripts,
    prims.sha256 first.hashed = prims.sha256 second.hashed → first.hashed = second.hashed
  hkdf : ∀ first ∈ record.commits, ∀ second ∈ record.commits, ∀ direction other call call' key,
    kdfCall first.inputs direction = some call → kdfCall second.inputs other = some call' →
      kexHkdfSha256 prims call = some key → kexHkdfSha256 prims call' = some key → call = call'

theorem Record.Ideal.of_append (hideal : (record.append more).Ideal prims) :
    record.Ideal prims where
  fresh := (List.nodup_append.mp hideal.fresh).1
  base := fun first hfirst second hsecond =>
    hideal.base first (List.mem_append_left _ hfirst) second (List.mem_append_left _ hsecond)
  sha256 := fun first hfirst second hsecond =>
    hideal.sha256 first (List.mem_append_left _ hfirst) second (List.mem_append_left _ hsecond)
  hkdf := fun first hfirst second hsecond =>
    hideal.hkdf first (List.mem_append_left _ hfirst) second (List.mem_append_left _ hsecond)

theorem Record.append_empty (record : Record) : record.append {} = record := by
  cases record
  simp [Record.append]

/-- The public key of a recorded ephemeral secret. -/
def Record.Drawn (prims : Primitives) (record : Record) (pub : Blob 32) : Prop :=
  ∃ secret ∈ record.ephemerals, prims.scalarmultBase secret = some pub

/-- The digest of a recorded transcript whose ServerHello carries a recorded ephemeral. -/
def Record.Answered (prims : Primitives) (record : Record) (digest : Digest) : Prop :=
  ∃ ch : ClientHello, ∃ sh : ServerHello, idLenValid ch.id = true ∧ idLenValid sh.id = true ∧
    sigLenValid sh.sig = true ∧ ⟨ch.bytes, sh.bytes⟩ ∈ record.transcripts ∧
    digest = transcriptHashClientAuth prims ch.bytes sh.bytes ∧
    record.Drawn prims sh.ephemeralPub

/-- The digest of a recorded transcript whose ClientHello carries this ephemeral. -/
def Record.Dialled (prims : Primitives) (record : Record) (pub : Blob 32) (digest : Digest) :
    Prop :=
  ∃ ch : ClientHello, ∃ sh : Bytes, idLenValid ch.id = true ∧
    ⟨ch.bytes, sh⟩ ∈ record.transcripts ∧
    digest = transcriptHashClientAuth prims ch.bytes sh ∧ ch.ephemeralPub = pub

theorem Record.Drawn.mono (hdrawn : record.Drawn prims pub) :
    (record.append more).Drawn prims pub := by
  obtain ⟨secret, hmem, hpub⟩ := hdrawn
  exact ⟨secret, List.mem_append_left _ hmem, hpub⟩

theorem Record.Answered.mono (hanswered : record.Answered prims digest) :
    (record.append more).Answered prims digest := by
  obtain ⟨ch, sh, hch, hsh, hsig, hmem, hdigest, hdrawn⟩ := hanswered
  exact ⟨ch, sh, hch, hsh, hsig, List.mem_append_left _ hmem, hdigest, hdrawn.mono⟩

theorem Record.Dialled.mono (hdialled : record.Dialled prims pub digest) :
    (record.append more).Dialled prims pub digest := by
  obtain ⟨ch, sh, hch, hmem, hdigest, hpub⟩ := hdialled
  exact ⟨ch, sh, hch, List.mem_append_left _ hmem, hdigest, hpub⟩

theorem drawn_of_more {secret : Secret} (hmore : more.ephemerals = [secret])
    (hpub : prims.scalarmultBase secret = some pub) : (record.append more).Drawn prims pub :=
  ⟨secret, by simp [Record.append, hmore], hpub⟩

/-- A secret that has just been recorded gives a new public key. -/
theorem not_drawn_of_fresh {secret : Secret} (hideal : (record.append more).Ideal prims)
    (hmore : more.ephemerals = [secret]) (hpub : prims.scalarmultBase secret = some pub) :
    ¬ record.Drawn prims pub := by
  rintro ⟨old, hold, holdPub⟩
  have hnew : secret ∈ (record.append more).ephemerals := by simp [Record.append, hmore]
  have hsame := hideal.base old (List.mem_append_left _ hold) secret hnew (holdPub.trans hpub.symm)
  subst hsame
  have hnodup := hideal.fresh
  simp only [Record.append, hmore, List.nodup_append] at hnodup
  exact hnodup.2.2 old hold old (List.mem_singleton_self old) rfl

/-- Recorded transcripts with one digest have the same ClientHello, and the same rest. -/
theorem hellos_of_digest {first second : ClientHello} {firstRest secondRest : Bytes}
    (hideal : record.Ideal prims) (hfirst : idLenValid first.id = true)
    (hsecond : idLenValid second.id = true) (hmem : ⟨first.bytes, firstRest⟩ ∈ record.transcripts)
    (hmem' : ⟨second.bytes, secondRest⟩ ∈ record.transcripts)
    (hdigest : transcriptHashClientAuth prims first.bytes firstRest =
      transcriptHashClientAuth prims second.bytes secondRest) :
    first = second ∧ firstRest = secondRest := by
  have hhashed := hideal.sha256 _ hmem _ hmem' hdigest
  exact ClientHello.append_cancel hfirst hsecond
    (List.cons.inj (List.append_cancel_left hhashed)).2

end Records

/-! ## The invariant -/

/-- The ephemeral key of an initiator that has sent it and has not derived keys yet. -/
def HandshakeCtx.livePub (ctx : HandshakeCtx) : Option (Blob 32) :=
  if ctx.role = some .initiator ∧ (ctx.state = .clientHelloCreated ∨
      ctx.state = .serverHelloVerified ∨ ctx.state = .clientAuthCreated) then
    some ctx.eph.publicKey
  else none

/-- What a context remembers of the hellos is on record. -/
structure CtxRecorded (prims : Primitives) (record : Record) (ctx : HandshakeCtx) : Prop where
  hello : ctx.role = some .initiator → ctx.state = .clientHelloCreated →
    ∃ msg : ClientHello, idLenValid msg.id = true ∧ ctx.chBytes = msg.bytes ∧
      msg.ephemeralPub = ctx.eph.publicKey
  dialled : ctx.role = some .initiator →
    ctx.state = .serverHelloVerified ∨ ctx.state = .clientAuthCreated →
    record.Dialled prims ctx.eph.publicKey ctx.thClientAuth
  accepted : ctx.role = some .responder → ctx.state = .clientHelloAccepted →
    ∃ msg : ClientHello, idLenValid msg.id = true ∧ ctx.chBytes = msg.bytes
  drawn : ∀ pub, ctx.livePub = some pub → record.Drawn prims pub

variable {prims : Primitives} {ctx : HandshakeCtx}

theorem CtxRecorded.mono (hrecorded : CtxRecorded prims record ctx) :
    CtxRecorded prims (record.append more) ctx where
  hello := hrecorded.hello
  dialled := fun hrole hstate => (hrecorded.dialled hrole hstate).mono
  accepted := hrecorded.accepted
  drawn := fun pub hlive => (hrecorded.drawn pub hlive).mono

/-- The contexts agree with the record: live ephemeral keys are distinct, and the ephemeral
of an initiator that has derived its keys is live nowhere. -/
structure DialInv {Ctx : Type} (prims : Primitives) (ctx : Ctx → HandshakeCtx)
    (record : Record) : Prop where
  recorded : ∀ handle, CtxRecorded prims record (ctx handle)
  distinct : ∀ first second pub, (ctx first).livePub = some pub →
    (ctx second).livePub = some pub → first = second
  retired : ∀ commit ∈ record.commits, commit.role = .initiator →
    ∃ pub, record.Dialled prims pub commit.inputs.thClientAuth ∧ record.Drawn prims pub ∧
      ∀ handle, (ctx handle).livePub ≠ some pub

/-- The ledgers agree with the record: an active digest is that of an answered handshake,
is active in one place only and has not been used. -/
structure AnswerInv (prims : Primitives) (ledger : ℕ → PendingStore) (record : Record) : Prop where
  sound : ∀ index, (ledger index).Sound
  active : ∀ index id digest, (ledger index).ActiveAt id digest → record.Answered prims digest
  oneEntry : ∀ index id index' id' digest, (ledger index).ActiveAt id digest →
    (ledger index').ActiveAt id' digest → index = index' ∧ id = id'
  unspent : ∀ index id digest, (ledger index).ActiveAt id digest →
    ∀ commit ∈ record.commits, commit.role = .responder → commit.inputs.thClientAuth ≠ digest
  answered : ∀ commit ∈ record.commits, commit.role = .responder →
    record.Answered prims commit.inputs.thClientAuth

/-- No digest is used twice within a role. -/
def OneCommitPerDigest (commits : List KeyCommit) : Prop :=
  commits.Pairwise fun first second =>
    first.role = second.role → first.inputs.thClientAuth ≠ second.inputs.thClientAuth

/-! ## Steps of the contexts -/

variable {Ctx : Type} {handle : Ctx}

section Dial

variable {ctx : Ctx → HandshakeCtx} {next : HandshakeCtx}

section

variable (hinv : DialInv prims ctx record)

include hinv

/-- The digest an initiator derives from is new. -/
theorem DialInv.not_committed (hideal : record.Ideal prims) {pub : Blob 32}
    (hlive : (ctx handle).livePub = some pub) (hdialled : record.Dialled prims pub digest) :
    ∀ commit ∈ record.commits, commit.role = .initiator → commit.inputs.thClientAuth ≠ digest := by
  intro commit hcommit hrole hsame
  obtain ⟨old, hold, -, hnone⟩ := hinv.retired commit hcommit hrole
  obtain ⟨ch, sh, hvalid, hmem, hdigest, rfl⟩ := hdialled
  obtain ⟨ch', sh', hvalid', hmem', hdigest', rfl⟩ := hold
  obtain ⟨rfl, -⟩ := hellos_of_digest hideal hvalid' hvalid hmem' hmem
    (hdigest'.symm.trans (hsame.trans hdigest))
  exact hnone handle hlive

variable [DecidableEq Ctx]

/-- A context changes without deriving keys as an initiator. Its live ephemeral is gone,
the same, or one that was never drawn before. -/
theorem DialInv.update (hcommits : ∀ commit ∈ more.commits, commit.role ≠ .initiator)
    (hnext : CtxRecorded prims (record.append more) next)
    (hlive : ∀ pub, next.livePub = some pub →
      (ctx handle).livePub = some pub ∨ ¬ record.Drawn prims pub) :
    DialInv prims (Function.update ctx handle next) (record.append more) := by
  have hold : ∀ other pub, (Function.update ctx handle next other).livePub = some pub →
      (ctx other).livePub = some pub ∨ (other = handle ∧ ¬ record.Drawn prims pub) := by
    intro other pub hother
    by_cases hhandle : other = handle
    · subst hhandle
      rw [Function.update_self] at hother
      exact (hlive pub hother).imp_right fun hfresh => ⟨rfl, hfresh⟩
    rw [Function.update_of_ne hhandle] at hother
    exact Or.inl hother
  refine ⟨fun other => ?_, fun first second pub hfirst hsecond => ?_, ?_⟩
  · exact (Function.forall_update_iff ctx fun _ (after : HandshakeCtx) =>
      CtxRecorded prims (record.append more) after).mpr
        ⟨hnext, fun other _ => (hinv.recorded other).mono⟩ other
  · rcases hold first pub hfirst with hlive | ⟨hfirst, hfresh⟩
    · rcases hold second pub hsecond with hlive' | ⟨-, hfresh⟩
      · exact hinv.distinct first second pub hlive hlive'
      · exact absurd ((hinv.recorded first).drawn pub hlive) hfresh
    · rcases hold second pub hsecond with hlive | ⟨hsecond, -⟩
      · exact absurd ((hinv.recorded second).drawn pub hlive) hfresh
      · exact hfirst.trans hsecond.symm
  · intro commit hcommit hrole
    rcases List.mem_append.mp hcommit with hcommit | hcommit
    · obtain ⟨pub, hdialled, hdrawn, hnone⟩ := hinv.retired commit hcommit hrole
      refine ⟨pub, hdialled.mono, hdrawn.mono, fun other hother => ?_⟩
      rcases hold other pub hother with hother | ⟨-, hfresh⟩
      · exact hnone other hother
      · exact hfresh hdrawn
    · exact absurd hrole (hcommits commit hcommit)

/-- An initiator derives its keys and gives up its ephemeral. -/
theorem DialInv.retire {pub : Blob 32} (inputs : KdfInputs)
    (hlive : (ctx handle).livePub = some pub)
    (hdialled : record.Dialled prims pub inputs.thClientAuth)
    (hcommits : more.commits = [⟨.initiator, inputs⟩])
    (hnext : CtxRecorded prims (record.append more) next) (hdead : next.livePub = none) :
    DialInv prims (Function.update ctx handle next) (record.append more) := by
  have hbase : DialInv prims (Function.update ctx handle next)
      (record.append { more with commits := [] }) :=
    hinv.update (by simp) ⟨hnext.hello, hnext.dialled, hnext.accepted, hnext.drawn⟩
      (by simp [hdead])
  refine ⟨fun other => ?_, hbase.distinct, fun commit hcommit hrole => ?_⟩
  · obtain ⟨hhello, hdial, haccepted, hdrawn⟩ := hbase.recorded other
    exact ⟨hhello, hdial, haccepted, hdrawn⟩
  rcases List.mem_append.mp hcommit with hcommit | hcommit
  · obtain ⟨old, hold, hdrawn, hnone⟩ := hbase.retired commit (List.mem_append_left _ hcommit) hrole
    exact ⟨old, hold, hdrawn, hnone⟩
  rw [hcommits, List.mem_singleton] at hcommit
  subst hcommit
  refine ⟨pub, hdialled.mono, ((hinv.recorded handle).drawn pub hlive).mono, ?_⟩
  intro other hother
  by_cases hhandle : other = handle
  · subst hhandle
    rw [Function.update_self, hdead] at hother
    cases hother
  rw [Function.update_of_ne hhandle] at hother
  exact hhandle (hinv.distinct other handle pub hother hlive)

end

end Dial

/-! ## Steps of the ledgers -/

section Answer

variable {ledger : ℕ → PendingStore} {index : ℕ} {store : PendingStore} {id : HandshakeId}

/-- What is active after one ledger has changed, given what is active in that ledger. -/
theorem activeAt_update {property : ℕ → HandshakeId → Digest → Prop}
    (hstore : ∀ wanted found, store.ActiveAt wanted found → property index wanted found)
    (hother : ∀ other wanted found, other ≠ index → (ledger other).ActiveAt wanted found →
      property other wanted found) :
    ∀ other wanted found, (Function.update ledger index store other).ActiveAt wanted found →
      property other wanted found := by
  exact (Function.forall_update_iff ledger fun other (after : PendingStore) =>
    ∀ wanted found, after.ActiveAt wanted found → property other wanted found).mpr
      ⟨hstore, fun other hne wanted found => hother other wanted found hne⟩

theorem sound_update (hsound : ∀ index, (ledger index).Sound) (hstore : store.Sound) :
    ∀ other, (Function.update ledger index store other).Sound :=
  (Function.forall_update_iff ledger fun _ (after : PendingStore) => after.Sound).mpr
    ⟨hstore, fun other _ => hsound other⟩

section

variable (hinv : AnswerInv prims ledger record)

include hinv

/-- A ledger in which nothing new is active. -/
theorem AnswerInv.shrink (hcommits : ∀ commit ∈ more.commits, commit.role ≠ .responder)
    (hshrinks : (ledger index).Shrinks store) :
    AnswerInv prims (Function.update ledger index store) (record.append more) := by
  have hold := activeAt_update hshrinks.active fun other wanted found _ hactive => hactive
  have hrole : ∀ commit ∈ (record.append more).commits, commit.role = .responder →
      commit ∈ record.commits := by
    intro commit hcommit hresponder
    rcases List.mem_append.mp hcommit with hcommit | hcommit
    · exact hcommit
    · exact absurd hresponder (hcommits commit hcommit)
  exact
    { sound := sound_update hinv.sound hshrinks.sound
      active := fun other wanted found hactive =>
        (hinv.active other wanted found (hold _ _ _ hactive)).mono
      oneEntry := fun other wanted other' wanted' found hactive hactive' =>
        hinv.oneEntry _ _ _ _ found (hold _ _ _ hactive) (hold _ _ _ hactive')
      unspent := fun other wanted found hactive commit hcommit hresponder =>
        hinv.unspent _ _ found (hold _ _ _ hactive) commit
          (hrole commit hcommit hresponder) hresponder
      answered := fun commit hcommit hresponder =>
        (hinv.answered commit (hrole commit hcommit hresponder) hresponder).mono }

/-- A digest that was never answered before becomes active. -/
theorem AnswerInv.insert (hcommits : more.commits = []) (hsound : store.Sound)
    (hnew : (record.append more).Answered prims digest) (hfresh : ¬ record.Answered prims digest)
    (hinsert : ∀ wanted found, store.ActiveAt wanted found →
      (wanted = id ∧ found = digest) ∨ (wanted ≠ id ∧ (ledger index).ActiveAt wanted found)) :
    AnswerInv prims (Function.update ledger index store) (record.append more) := by
  have hold : ∀ other wanted found,
      (Function.update ledger index store other).ActiveAt wanted found →
        (other = index ∧ wanted = id ∧ found = digest) ∨ (ledger other).ActiveAt wanted found := by
    refine activeAt_update (fun wanted found hactive => ?_) fun _ _ _ _ hactive => Or.inr hactive
    rcases hinsert wanted found hactive with hsame | ⟨-, hactive⟩
    · exact Or.inl ⟨rfl, hsame⟩
    · exact Or.inr hactive
  have hsame : (record.append more).commits = record.commits := by
    simp [Record.append, hcommits]
  have hnotOld : ∀ other wanted, ¬ (ledger other).ActiveAt wanted digest :=
    fun other wanted hactive => hfresh (hinv.active other wanted digest hactive)
  refine
    { sound := sound_update hinv.sound hsound
      active := fun other wanted found hactive => ?_
      oneEntry := fun other wanted other' wanted' found hactive hactive' => ?_
      unspent := fun other wanted found hactive commit hcommit hrole => ?_
      answered := fun commit hcommit hrole =>
        (hinv.answered commit (hsame ▸ hcommit) hrole).mono }
  · rcases hold other wanted found hactive with ⟨-, -, rfl⟩ | hactive
    · exact hnew
    · exact (hinv.active other wanted found hactive).mono
  · rcases hold other wanted found hactive with ⟨rfl, rfl, rfl⟩ | hactive
    · rcases hold other' wanted' found hactive' with ⟨rfl, rfl, -⟩ | hactive'
      · exact ⟨rfl, rfl⟩
      · exact absurd hactive' (hnotOld other' wanted')
    · rcases hold other' wanted' found hactive' with ⟨-, -, rfl⟩ | hactive'
      · exact absurd hactive (hnotOld other wanted)
      · exact hinv.oneEntry _ _ _ _ found hactive hactive'
  · rw [hsame] at hcommit
    rcases hold other wanted found hactive with ⟨-, -, rfl⟩ | hactive
    · intro hdigest
      exact hfresh (hdigest ▸ hinv.answered commit hcommit hrole)
    · exact hinv.unspent other wanted found hactive commit hcommit hrole

/-- An active digest is used and is active no more. -/
theorem AnswerInv.spend (inputs : KdfInputs) (hcommits : more.commits = [⟨.responder, inputs⟩])
    (hsound : store.Sound) (hactive : (ledger index).ActiveAt id inputs.thClientAuth)
    (hspend : ∀ wanted found, store.ActiveAt wanted found →
      wanted ≠ id ∧ (ledger index).ActiveAt wanted found) :
    AnswerInv prims (Function.update ledger index store) (record.append more) := by
  have hold : ∀ other wanted found,
      (Function.update ledger index store other).ActiveAt wanted found →
        (ledger other).ActiveAt wanted found ∧ ¬ (other = index ∧ wanted = id) := by
    refine activeAt_update (fun wanted found hkept => ?_) fun other wanted found hother hkept =>
      ⟨hkept, fun hsame => hother hsame.1⟩
    obtain ⟨hwanted, hkept⟩ := hspend wanted found hkept
    exact ⟨hkept, fun hsame => hwanted hsame.2⟩
  refine
    { sound := sound_update hinv.sound hsound
      active := fun other wanted found hkept =>
        (hinv.active other wanted found (hold _ _ _ hkept).1).mono
      oneEntry := fun other wanted other' wanted' found hkept hkept' =>
        hinv.oneEntry _ _ _ _ found (hold _ _ _ hkept).1 (hold _ _ _ hkept').1
      unspent := fun other wanted found hkept commit hcommit hrole => ?_
      answered := fun commit hcommit hrole => ?_ }
  · obtain ⟨hkept, hnotSpent⟩ := hold other wanted found hkept
    rcases List.mem_append.mp hcommit with hcommit | hcommit
    · exact hinv.unspent other wanted found hkept commit hcommit hrole
    rw [hcommits, List.mem_singleton] at hcommit
    subst hcommit
    rintro rfl
    exact hnotSpent (hinv.oneEntry _ _ _ _ _ hkept hactive)
  · rcases List.mem_append.mp hcommit with hcommit | hcommit
    · exact (hinv.answered commit hcommit hrole).mono
    · rw [hcommits, List.mem_singleton] at hcommit
      subst hcommit
      exact (hinv.active index id _ hactive).mono

end

end Answer

/-! ## Steps of the calls -/

variable {ledger : PendingStore} {call : CtxCall}

theorem committed_of_ne_ok {status : HandshakeStatus} (hstatus : status ≠ .ok) :
    call.committed prims ctx ledger status = none := by
  unfold CtxCall.committed
  split
  · exact absurd rfl hstatus
  · exact absurd rfl hstatus
  · rfl

theorem kexKeypairGenerate_eq_some {env : CallEnv} {eph : KexKeypair}
    (heph : kexKeypairGenerate prims env = some eph) :
    prims.scalarmultBase env.ephSecret = some eph.publicKey ∧
      eph.privateKey = some env.ephSecret := by
  unfold kexKeypairGenerate at heph
  split at heph
  · obtain ⟨pub, hpub, rfl⟩ := Option.map_eq_some_iff.mp heph
    exact ⟨hpub, rfl⟩
  · cases heph

/-- The states in which nothing of a context has to be on record. -/
def HandshakeState.Idle (state : HandshakeState) : Prop :=
  state ≠ .clientHelloCreated ∧ state ≠ .serverHelloVerified ∧ state ≠ .clientAuthCreated ∧
    state ≠ .clientHelloAccepted

theorem livePub_of_idle (hidle : ctx.state.Idle) : ctx.livePub = none := by
  obtain ⟨hhello, hverified, hcreated, -⟩ := hidle
  simp [livePub, hhello, hverified, hcreated]

theorem ctxRecorded_of_idle (hidle : ctx.state.Idle) : CtxRecorded prims record ctx where
  hello := fun _ hstate => absurd hstate hidle.1
  dialled := fun _ hstate => by
    rcases hstate with hstate | hstate
    · exact absurd hstate hidle.2.1
    · exact absurd hstate hidle.2.2.1
  accepted := fun _ hstate => absurd hstate hidle.2.2.2
  drawn := fun pub hlive => by simp [livePub_of_idle hidle] at hlive

section Draft

variable {own : HandshakeCtx} {ch : ClientHello}

/-- A digest of a transcript with a fresh ServerHello ephemeral was never answered before. -/
theorem not_answered_of_fresh {sh : ServerHello}
    (hideal : (record.append more).Ideal prims) (hch : idLenValid ch.id = true)
    (hsh : idLenValid sh.id = true) (hsig : sigLenValid sh.sig = true)
    (hmem : ⟨ch.bytes, sh.bytes⟩ ∈ (record.append more).transcripts)
    (hfresh : ¬ record.Drawn prims sh.ephemeralPub) :
    ¬ record.Answered prims (transcriptHashClientAuth prims ch.bytes sh.bytes) := by
  rintro ⟨ch', sh', hch', hsh', hsig', hmem', hdigest, hdrawn⟩
  obtain ⟨-, hbytes⟩ := hellos_of_digest hideal hch' hch (List.mem_append_left _ hmem') hmem
    hdigest.symm
  obtain rfl := ServerHello.bytes_injective hsh' hsig' hsh hsig hbytes
  exact hfresh hdrawn

/-- The digest of a fresh answer is on record now and was not before. -/
theorem answered_of_draft {env : HandshakeEnv} {draft : ServerHelloDraft}
    (hideal : (record.append more).Ideal prims) (hch : idLenValid ch.id = true)
    (hbytes : own.chBytes = ch.bytes) (hdraft : own.draftServerHello prims env = .ok draft)
    (hdrawn : more.ephemerals = [env.ephSecret])
    (hpair : more.transcripts = [⟨own.chBytes, draft.bytes⟩]) :
    (record.append more).Answered prims
        (transcriptHashClientAuth prims own.chBytes draft.bytes) ∧
      ¬ record.Answered prims (transcriptHashClientAuth prims own.chBytes draft.bytes) := by
  have hview := draftServerHello_view prims env own
  rw [hdraft] at hview
  cases hview with
  | ok heph hdecoded hkem hid hsig =>
    have hpub := (kexKeypairGenerate_eq_some heph).1
    have hmem : ⟨own.chBytes, _⟩ ∈ (record.append more).transcripts :=
      List.mem_append_right _ (hpair ▸ List.mem_singleton_self _)
    rw [hbytes] at hmem ⊢
    exact ⟨⟨ch, _, hch, hid, hsig, hmem, rfl, drawn_of_more hdrawn hpub⟩,
      not_answered_of_fresh hideal hch hid hsig hmem (not_drawn_of_fresh hideal hdrawn hpub)⟩

end Draft

section Calls

variable {ctx : Ctx → HandshakeCtx} {ledger : ℕ → PendingStore} {index : ℕ} {result : LedgerResult}

theorem answerInv_call (hdial : DialInv prims ctx record) (hinv : AnswerInv prims ledger record)
    (hstep : CallStep prims (ctx handle) (ledger index) call result)
    (hideal : (record.append (call.record prims (ctx handle) (ledger index) result)).Ideal prims) :
    AnswerInv prims (Function.update ledger index result.ledger)
      (record.append (call.record prims (ctx handle) (ledger index) result)) := by
  have hsound := hinv.sound index
  have hshrinks := shrinks_of_step hstep hsound
  have hfailed : ∀ {status : HandshakeStatus}, status ≠ .ok →
      ∀ commit ∈ (call.committed prims (ctx handle) (ledger index) status).toList,
        commit.role ≠ .responder := by
    intro status hstatus
    simp [committed_of_ne_ok hstatus]
  cases hstep with
  | refused hstatus | failed hstatus | initFailed _ hstatus | answerNotInserted _ _ _ hstatus
  | entryGone _ _ _ hstatus | lockedOut _ _ _ _ hstatus | deriveFailed _ _ hstatus
  | notConsumed _ _ _ _ hstatus =>
    exact hinv.shrink (hfailed hstatus) (hshrinks (.inr hstatus))
  | initiatorReady | responderReady | wiped | wipedPending | helloRolledBack | helloCreated
  | serverHelloVerified | authCreated | helloAccepted | answerRolledBack | wrongSignature
  | responderFinished =>
    exact hinv.shrink nofun (hshrinks (by simp))
  | initiatorFinished hat hshared hkem =>
    refine hinv.shrink ?_ (hshrinks (by simp))
    simp [CtxCall.record, CtxCall.committed, initiatorInputs, hshared, hkem]
  | @answered env out draft next hat hdraft hinsert =>
    obtain ⟨ch, hch, hbytes⟩ := (hdial.recorded handle).accepted hat.role hat.state
    obtain ⟨hnew, hfresh⟩ := answered_of_draft hideal hch hbytes hdraft rfl rfl
    refine hinv.insert rfl ?_ hnew hfresh fun wanted found => activeAt_of_insert hsound hinsert
    have hnext := sound_insert hsound
      (transcriptHandshakeId prims (ctx handle).chBytes draft.bytes)
      (transcriptHashClientAuth prims (ctx handle).chBytes draft.bytes) env.now env.later
    rwa [hinsert] at hnext
  | @authVerified env msg digest mid next peerPk shared ssKem keys hat hsig hid hdigest
      hpk hverify hshared hkem hkeys hconsume =>
      obtain ⟨rfl, entry, hentry, hactive, hfound, -⟩ := getDigest_eq_ok hsound hdigest
      refine hinv.spend ((ctx handle).responderKdfInputs shared ssKem digest) ?_
        (hshrinks (by simp)).sound
        ⟨entry, hentry, hactive, hfound⟩
        fun wanted found => activeAt_of_consumeSuccess hsound hconsume
      simp [CtxCall.record, CtxCall.committed, responderInputs, hshared, hkem, hdigest]

variable [DecidableEq Ctx]

section

variable (hinv : DialInv prims ctx record)

include hinv

/-- A context that becomes idle without deriving keys as an initiator. -/
theorem DialInv.idle {next : HandshakeCtx}
    (hcommits : ∀ commit ∈ more.commits, commit.role ≠ .initiator) (hidle : next.state.Idle) :
    DialInv prims (Function.update ctx handle next) (record.append more) :=
  hinv.update hcommits (ctxRecorded_of_idle hidle) (by simp [livePub_of_idle hidle])

/-- A context that stays as it is. -/
theorem DialInv.same (hcommits : ∀ commit ∈ more.commits, commit.role ≠ .initiator) :
    DialInv prims (Function.update ctx handle (ctx handle)) (record.append more) :=
  hinv.update hcommits (hinv.recorded handle).mono fun _ hlive => Or.inl hlive

theorem dialInv_call (hstep : CallStep prims (ctx handle) (ledger index) call result)
    (hideal : (record.append (call.record prims (ctx handle) (ledger index) result)).Ideal prims) :
    DialInv prims (Function.update ctx handle result.ctx)
      (record.append (call.record prims (ctx handle) (ledger index) result)) := by
  have hrecorded := hinv.recorded handle
  have hfailed : ∀ {status : HandshakeStatus}, status ≠ .ok →
      ∀ commit ∈ (call.committed prims (ctx handle) (ledger index) status).toList,
        commit.role ≠ .initiator := by
    intro status hstatus
    simp [committed_of_ne_ok hstatus]
  cases hstep with
  | refused hstatus => exact hinv.same (hfailed hstatus)
  | wrongSignature => exact hinv.same nofun
  | failed hstatus | initFailed _ hstatus | answerNotInserted _ _ _ hstatus
  | entryGone _ _ _ hstatus | lockedOut _ _ _ _ hstatus | deriveFailed _ _ hstatus
  | notConsumed _ _ _ _ hstatus =>
    exact hinv.idle (hfailed hstatus) ⟨nofun, nofun, nofun, nofun⟩
  | initiatorReady | responderReady | wiped | wipedPending | answered | responderFinished =>
    exact hinv.idle nofun ⟨nofun, nofun, nofun, nofun⟩
  | helloRolledBack hat =>
    exact hinv.idle nofun (by simp [HandshakeState.Idle, hat.state])
  | @helloCreated env out eph kem hat heph hkem hid =>
    have hpub := (kexKeypairGenerate_eq_some heph).1
    have hlive : ((ctx handle).withClientHello env eph kem).livePub = some eph.publicKey := by
      simp [livePub, withClientHello, hat.role]
    refine hinv.update nofun ⟨?_, ?_, ?_, ?_⟩ ?_
    · exact fun _ _ => ⟨_, hid, rfl, rfl⟩
    · nofun
    · nofun
    · intro pub hsome
      obtain rfl := Option.some.inj (hlive.symm.trans hsome)
      exact drawn_of_more rfl hpub
    · intro pub hsome
      obtain rfl := Option.some.inj (hlive.symm.trans hsome)
      exact Or.inr (not_drawn_of_fresh hideal rfl hpub)
  | @serverHelloVerified env msg peerPk hat =>
    obtain ⟨ch, hch, hbytes, heph⟩ := hrecorded.hello hat.role hat.state
    have hlive : ((ctx handle).withServerHello prims msg peerPk).livePub =
        (ctx handle).livePub := by
      simp [livePub, withServerHello, hat.role, hat.state]
    refine hinv.update nofun ⟨?_, ?_, ?_, ?_⟩ ?_
    · nofun
    · refine fun _ _ => ⟨ch, msg.bytes, hch, ?_, ?_, heph⟩
      · simp [Record.append, CtxCall.record, CtxCall.hashedPair, hbytes]
      · simp [withServerHello, hbytes]
    · nofun
    · exact fun pub hsome => (hrecorded.drawn pub (hlive ▸ hsome)).mono
    · exact fun pub hsome => Or.inl (hlive ▸ hsome)
  | authCreated hat =>
    have hlive : ({ ctx handle with state := .clientAuthCreated } : HandshakeCtx).livePub =
        (ctx handle).livePub := by
      simp [livePub, hat.role, hat.state]
    refine hinv.update nofun ⟨?_, ?_, ?_, ?_⟩ ?_
    · simp
    · exact fun _ _ => (hrecorded.dialled hat.role (Or.inl hat.state)).mono
    · simp
    · exact fun pub hsome => (hrecorded.drawn pub (hlive ▸ hsome)).mono
    · exact fun pub hsome => Or.inl (hlive ▸ hsome)
  | @initiatorFinished env shared ssKem keys hat hshared hkem =>
    have hlive : (ctx handle).livePub = some (ctx handle).eph.publicKey := by
      simp [livePub, hat.role, hat.state]
    have hidle : ((ctx handle).withInitiatorKeys keys).state.Idle := ⟨nofun, nofun, nofun, nofun⟩
    refine hinv.retire ((ctx handle).initiatorKdfInputs shared ssKem) hlive
      (hrecorded.dialled hat.role (Or.inr hat.state)) ?_ (ctxRecorded_of_idle hidle)
      (livePub_of_idle hidle)
    simp [CtxCall.record, CtxCall.committed, initiatorInputs, hshared, hkem]
  | @helloAccepted env msg peerPk hat hid =>
    have hdead : ((ctx handle).withPeerHello msg peerPk).livePub = none := by
      simp [livePub, withPeerHello, hat.role]
    refine hinv.update nofun ⟨?_, ?_, ?_, ?_⟩ (by simp [hdead])
    · nofun
    · nofun
    · exact fun _ _ => ⟨_, hid, rfl⟩
    · simp [hdead]
  | answerRolledBack hat =>
    refine hinv.update nofun ⟨?_, ?_, ?_, ?_⟩ ?_
    · simp [hat.state]
    · simp [hat.state]
    · exact fun _ _ => hrecorded.accepted hat.role hat.state
    · simp [livePub, hat.role]
    · simp [livePub, hat.role]
  | authVerified hat hsig hid hdigest hpk hverify hshared hkem =>
    exact hinv.idle
      (by simp [CtxCall.record, CtxCall.committed, responderInputs, hshared, hkem])
      ⟨nofun, nofun, nofun, nofun⟩

end

end Calls

/-! ## Which calls take keys over -/

/-- A call takes no keys over, and committed keys afterwards are those from before; or it
takes over the keys of one derivation. -/
inductive CommitView (prims : Primitives) (ctx : HandshakeCtx) (ledger : PendingStore)
    (commits : List KeyCommit) (next : HandshakeCtx) : Prop where
  | kept (hcommits : commits = [])
      (hkeys : next.keysCommitted = true → ctx.keysCommitted = true ∧
        next.sessionKeys = ctx.sessionKeys ∧ next.role = ctx.role)
  | initiator {inputs : KdfInputs} {keys : TrafficKeys}
      (hcommits : commits = [⟨.initiator, inputs⟩]) (hrole : ctx.role = some .initiator)
      (hstate : ctx.state = .clientAuthCreated)
      (hdigest : inputs.thClientAuth = ctx.thClientAuth)
      (hkeys : deriveTrafficKeys prims inputs = some keys)
      (hnext : next = ctx.withInitiatorKeys keys)
  | responder {inputs : KdfInputs} {keys : TrafficKeys} {now : ℕ} {mid : PendingStore}
      (hcommits : commits = [⟨.responder, inputs⟩]) (hrole : ctx.role = some .responder)
      (hdigest : ledger.getDigest ctx.handshakeId now = (.ok, inputs.thClientAuth, mid))
      (hkeys : deriveTrafficKeys prims inputs = some keys)
      (hnext : next = ctx.withResponderKeys keys)

theorem commitView_of_step {result : LedgerResult} (hstep : CallStep prims ctx ledger call result) :
    CommitView prims ctx ledger (call.record prims ctx ledger result).commits result.ctx := by
  have hnone : ∀ status : HandshakeStatus, status ≠ .ok →
      (call.committed prims ctx ledger status).toList = [] :=
    fun status hstatus => by simp [committed_of_ne_ok hstatus]
  cases hstep with
  | refused hstatus => exact .kept (hnone _ hstatus) fun hkeys => ⟨hkeys, rfl, rfl⟩
  | failed hstatus | initFailed _ hstatus | answerNotInserted _ _ _ hstatus
  | entryGone _ _ _ hstatus | lockedOut _ _ _ _ hstatus | deriveFailed _ _ hstatus
  | notConsumed _ _ _ _ hstatus =>
    exact .kept (hnone _ hstatus) nofun
  | initiatorReady | responderReady | wiped | wipedPending => exact .kept rfl nofun
  | helloRolledBack | helloCreated | serverHelloVerified | authCreated | helloAccepted
  | answerRolledBack | answered | wrongSignature | responderFinished =>
    exact .kept rfl fun hkeys => ⟨hkeys, rfl, rfl⟩
  | initiatorFinished hat hshared hkem hkeys =>
    refine .initiator ?_ hat.role hat.state rfl hkeys rfl
    simp [CtxCall.record, CtxCall.committed, initiatorInputs, hshared, hkem]
  | authVerified hat hsig hid hdigest hpk hverify hshared hkem hkeys =>
    refine .responder ?_ hat.role hdigest hkeys rfl
    simp [CtxCall.record, CtxCall.committed, responderInputs, hshared, hkem, hdigest]

/-! ## Runs -/

section Runs

variable {Ses : Type} {process : Process Ctx Ses}

/-- The contexts and ledgers of a process agree with its record, and no digest was used
twice within a role. -/
structure CommitInv (prims : Primitives) (process : Process Ctx Ses) : Prop where
  dial : DialInv prims process.ctx process.record
  answer : AnswerInv prims process.ledger process.record
  oneCommit : OneCommitPerDigest process.record.commits

theorem OneCommitPerDigest.snoc {commits : List KeyCommit} {commit : KeyCommit}
    (hone : OneCommitPerDigest commits)
    (hnew : ∀ old ∈ commits, old.role = commit.role →
      old.inputs.thClientAuth ≠ commit.inputs.thClientAuth) :
    OneCommitPerDigest (commits ++ [commit]) := by
  refine List.pairwise_append.mpr ⟨hone, List.pairwise_singleton _ _, ?_⟩
  intro old hold new hmem
  obtain rfl := List.mem_singleton.mp hmem
  exact hnew old hold

/-- The digest of a derivation that is about to be taken over is new in its role. -/
theorem oneCommit_call (hinv : CommitInv prims process) (hideal : process.record.Ideal prims)
    {index : ℕ} {more : List KeyCommit} {next : HandshakeCtx}
    (hview : CommitView prims (process.ctx handle) (process.ledger index) more next) :
    OneCommitPerDigest (process.record.commits ++ more) := by
  cases hview with
  | kept hcommits =>
    rw [hcommits, List.append_nil]
    exact hinv.oneCommit
  | initiator hcommits hrole hstate hdigest =>
    rw [hcommits]
    have hlive : (process.ctx handle).livePub = some (process.ctx handle).eph.publicKey := by
      simp [livePub, hrole, hstate]
    have hdialled := (hinv.dial.recorded handle).dialled hrole (Or.inr hstate)
    rw [← hdigest] at hdialled
    exact hinv.oneCommit.snoc fun old hold hsame =>
      hinv.dial.not_committed hideal hlive hdialled old hold hsame
  | responder hcommits hrole hdigest =>
    rw [hcommits]
    obtain ⟨-, entry, hentry, hactive, hfound, -⟩ :=
      getDigest_eq_ok (hinv.answer.sound index) hdigest
    exact hinv.oneCommit.snoc fun old hold hsame =>
      hinv.answer.unspent index _ _ ⟨entry, hentry, hactive, hfound⟩ old hold hsame

theorem commitInv_start : CommitInv prims (start : Process Ctx Ses) where
  dial :=
    { recorded := fun _ => ctxRecorded_of_idle ⟨nofun, nofun, nofun, nofun⟩
      distinct := nofun
      retired := nofun }
  answer :=
    { sound := fun _ husable => absurd husable (show ¬ blank.storeUsable = true by
        decide)
      active := fun _ _ _ ⟨_, hentry, _⟩ => nomatch hentry
      oneEntry := fun _ _ _ _ _ ⟨_, hentry, _⟩ => nomatch hentry
      unspent := nofun
      answered := nofun }
  oneCommit := List.Pairwise.nil

theorem commitInv_ledger (hinv : CommitInv prims process) {index : ℕ} {store : PendingStore}
    (hshrinks : (process.ledger index).Shrinks store) :
    CommitInv prims { process with ledger := Function.update process.ledger index store } := by
  refine ⟨hinv.dial, ?_, hinv.oneCommit⟩
  rw [← process.record.append_empty]
  exact hinv.answer.shrink (by simp) hshrinks

variable [DecidableEq Ctx]

theorem commitInv_call (hinv : CommitInv prims process)
    (hideal : (process.callOn prims handle call).record.Ideal prims) :
    CommitInv prims (process.callOn prims handle call) := by
  have hstep := callStep_exec prims (process.ctx handle)
    (process.ledger (call.ledgerIndex (process.ctx handle))) call
  exact
    { dial := dialInv_call hinv.dial hstep hideal
      answer := answerInv_call hinv.dial hinv.answer hstep hideal
      oneCommit := oneCommit_call hinv hideal.of_append (commitView_of_step hstep) }

variable [DecidableEq Ses]

theorem commitInv_initSession (hinv : CommitInv prims process) (target : Ses) (source : Ctx)
    (env : CallEnv) (limits : Option SessionLimits) (now ledgerNow : ℕ) :
    CommitInv prims (process.initSession target source env limits now ledgerNow) := by
  have hview := sessionInitFromHandshake_view env (process.session target) (process.ctx source)
    (process.ledger ((process.ctx source).pending.getD 0)) limits now ledgerNow
  simp only [initSession]
  generalize sessionInitFromHandshake env (process.session target) (process.ctx source)
    (process.ledger ((process.ctx source).pending.getD 0)) limits now ledgerNow = result
    at hview ⊢
  cases hview with
  | refused =>
    simp only [Function.update_eq_self]
    exact ⟨hinv.dial, hinv.answer, hinv.oneCommit⟩
  | created =>
    simp only [Function.update_eq_self]
    refine ⟨?_, hinv.answer, hinv.oneCommit⟩
    rw [← process.record.append_empty]
    exact hinv.dial.idle nofun ⟨nofun, nofun, nofun, nofun⟩

theorem commitInv_step {event : ProcessEvent Ctx Ses}
    (hideal : ((machine Ctx Ses prims).step process event).record.Ideal prims)
    (hinv : CommitInv prims process) (hallowed : (machine Ctx Ses prims).allowed process event) :
    CommitInv prims ((machine Ctx Ses prims).step process event) := by
  cases event with
  | call => exact commitInv_call hinv hideal
  | sessionInit target source env limits now ledgerNow =>
    exact commitInv_initSession hinv target source env limits now ledgerNow
  | sessionWipe | sessionSeal | sessionOpen => exact ⟨hinv.dial, hinv.answer, hinv.oneCommit⟩
  | ledgerInit index external capacity ttlMs =>
    obtain ⟨hsound, hempty⟩ := sound_storeInitCommon
    refine commitInv_ledger hinv ⟨hsound, fun id digest hactive => ?_⟩
    obtain ⟨entry, hentry, -⟩ := hactive
    rw [hempty] at hentry
    cases hentry
  | ledgerCall index op =>
    refine commitInv_ledger hinv (shrinks_apply (hinv.answer.sound index) op ?_)
    intro hinsert
    rw [show op.isInsert = false from hallowed] at hinsert
    cases hinsert

end Runs

end MldsaAuth.Protocol
