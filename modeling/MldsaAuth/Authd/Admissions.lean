/-
# Connection counts of the limiter

The limiter counts, for each client address, the connections it has admitted; a slot
remembers that it was admitted and gives the connection back when it is closed. This
file shows that the two agree in every state of the daemon, whatever closes a slot, so
that the count of a key stays within the configured maximum and an entry of the table
is never taken over while a connection of its key is open.
-/

import MldsaAuth.Foundation.Probing
import MldsaAuth.Authd.Stalls

namespace MldsaAuth.Authd

open Foundation Foundation.Probing Crypto Protocol Function

/-! ## The table of the limiter -/

variable {prims : DaemonPrimitives}

namespace Ratelimit

variable {limiter next : Ratelimit} {key other : Bytes} {index : ℕ} {entry : RatelimitEntry}

/-- The keys of the table. -/
def keyAt (limiter : Ratelimit) (index : ℕ) : Bytes := (limiter.entryAt index).key

theorem findIdxFrom_eq {start left : ℕ} :
    limiter.findIdxFrom key start left =
      (firstFrom ratelimitEntries
        (fun index => decide (limiter.keyAt index = [] ∨ limiter.keyAt index = key)) start
        left).filter fun index => decide (limiter.keyAt index ≠ []) := by
  induction left with
  | zero => rfl
  | succ left ih =>
    unfold findIdxFrom firstFrom
    by_cases hfree :
        limiter.keyAt (probe ratelimitEntries start (ratelimitEntries - (left + 1))) = []
    · rw [if_pos (by exact hfree), if_pos (decide_eq_true (.inl hfree))]
      exact (Option.filter_some_neg (by simp [hfree])).symm
    rw [if_neg (by exact hfree)]
    by_cases hkey :
        limiter.keyAt (probe ratelimitEntries start (ratelimitEntries - (left + 1))) = key
    · rw [if_pos (by exact hkey), if_pos (decide_eq_true (.inr hkey))]
      rw [Option.filter_some_pos (by exact decide_eq_true hfree)]
      rfl
    · rw [if_neg (by exact hkey), if_neg (by simp [hfree, hkey]), ih]

theorem findIdx_eq : limiter.findIdx prims key =
    lookup ratelimitEntries [] (bucketOf prims) limiter.keyAt key :=
  findIdxFrom_eq

theorem reclaimFrom_eq (start now left : ℕ) :
    limiter.reclaimFrom start now left =
      firstFrom ratelimitEntries
        (fun index => limiter.reclaimable (limiter.entryAt index) now) start left := by
  induction left with
  | zero => rfl
  | succ left ih =>
    unfold reclaimFrom firstFrom
    rw [ih]
    rfl

/-- `ratelimit_conns`, by the key of the address. -/
def connsOf (prims : DaemonPrimitives) (limiter : Ratelimit) (key : Bytes) : ℕ :=
  match limiter.findIdx prims key with
  | none => 0
  | some index => (limiter.entryAt index).conns

/-- A table in which every key is found, and that counts keys only and within the maximum. -/
structure Sound (prims : DaemonPrimitives) (limiter : Ratelimit) : Prop where
  length : limiter.entries.length = ratelimitEntries
  proper : Proper ratelimitEntries [] (bucketOf prims) limiter.keyAt
  free : ∀ index, limiter.keyAt index = [] → (limiter.entryAt index).conns = 0
  conns : ∀ index, (limiter.entryAt index).conns ≤ limiter.maxConns
  maxConns : limiter.maxConns ≤ 4096

theorem entryAt_setEntry (hlength : limiter.entries.length = ratelimitEntries)
    (hindex : index < ratelimitEntries) (position : ℕ) :
    (limiter.setEntry index entry).entryAt position =
      if position = index then entry else limiter.entryAt position := by
  unfold entryAt setEntry
  rw [List.getD_eq_getElem?_getD, List.getD_eq_getElem?_getD, List.getElem?_set]
  split
  · rename_i hsame
    rw [if_pos (by omega), if_pos hsame.symm]
    rfl
  rename_i hne
  rw [if_neg fun hsame => hne hsame.symm]

theorem keyAt_setEntry (hlength : limiter.entries.length = ratelimitEntries)
    (hindex : index < ratelimitEntries) :
    (limiter.setEntry index entry).keyAt = update limiter.keyAt index entry.key := by
  funext position
  unfold keyAt
  rw [entryAt_setEntry hlength hindex, update_apply]
  split <;> rfl

/-- The count of a key that stands in the table. -/
theorem Sound.connsOf_of_key (hsound : limiter.Sound prims) (hindex : index < ratelimitEntries)
    (hkey : limiter.keyAt index = key) (hused : key ≠ []) :
    limiter.connsOf prims key = (limiter.entryAt index).conns := by
  unfold connsOf
  rw [findIdx_eq, hsound.proper.lookup_of_key hindex hkey hused]

theorem connsOf_of_absent (habsent : ∀ index < ratelimitEntries, limiter.keyAt index ≠ key) :
    limiter.connsOf prims key = 0 := by
  unfold connsOf
  rw [findIdx_eq]
  split
  · rfl
  rename_i index hlookup
  obtain ⟨hindex, hkey, -⟩ := lookup_eq_some (by decide) hlookup
  exact absurd hkey (habsent index hindex)

theorem connsOf_nil : limiter.connsOf prims [] = 0 := by
  unfold connsOf
  rw [findIdx_eq, lookup_free]

/-- A key that is counted stands in the table. -/
theorem exists_of_connsOf (hcount : 0 < limiter.connsOf prims key) :
    ∃ index, limiter.findIdx prims key = some index ∧ index < ratelimitEntries ∧
      limiter.keyAt index = key ∧ limiter.connsOf prims key = (limiter.entryAt index).conns := by
  unfold connsOf at hcount ⊢
  cases hfind : limiter.findIdx prims key with
  | none =>
    rw [hfind] at hcount
    exact absurd hcount (lt_irrefl 0)
  | some index =>
    obtain ⟨hindex, hkey, -⟩ := lookup_eq_some (by decide) (findIdx_eq ▸ hfind)
    exact ⟨index, rfl, hindex, hkey, rfl⟩

/-- The entry of a key that is counted counts it. -/
theorem Sound.conns_pos (hsound : limiter.Sound prims)
    (hcount : 0 < limiter.connsOf prims (limiter.keyAt index)) :
    0 < (limiter.entryAt index).conns := by
  obtain ⟨found, -, hfound, hkey, hconns⟩ := exists_of_connsOf hcount
  have hused : limiter.keyAt index ≠ [] := by
    intro hnil
    rw [hnil, connsOf_nil] at hcount
    exact lt_irrefl 0 hcount
  have hindex : index < ratelimitEntries := by
    by_contra hbeyond
    apply hused
    unfold keyAt entryAt
    rw [List.getD_eq_getElem?_getD, List.getElem?_eq_none (by rw [hsound.length]; omega)]
    rfl
  obtain rfl := hsound.proper.unique found hfound index hindex (hkey ▸ hused) hkey
  rw [← hconns]
  exact hcount

theorem Sound.connsOf_le (hsound : limiter.Sound prims) (key : Bytes) :
    limiter.connsOf prims key ≤ limiter.maxConns := by
  unfold connsOf
  split
  · exact Nat.zero_le _
  · exact hsound.conns _

/-- What an operation of the limiter may do: the table stays sound, an entry that counts a
connection keeps its key, and the counts become what is stated. -/
structure Counts (prims : DaemonPrimitives) (limiter next : Ratelimit) (count : Bytes → ℕ) :
    Prop where
  sound : next.Sound prims
  maxConns : next.maxConns = limiter.maxConns
  kept : ∀ index, 0 < (limiter.entryAt index).conns → next.keyAt index = limiter.keyAt index
  conns : ∀ key, next.connsOf prims key = count key

theorem Counts.refl (hsound : limiter.Sound prims) :
    Counts prims limiter limiter (limiter.connsOf prims) :=
  ⟨hsound, rfl, fun _ _ => rfl, fun _ => rfl⟩

theorem keyAt_of_entries {limiter next : Ratelimit} (hentries : next.entries = limiter.entries) :
    next.keyAt = limiter.keyAt := by
  funext index
  unfold keyAt entryAt
  rw [hentries]

/-- The buckets do not matter to the counts. -/
theorem Counts.of_entries {after : Ratelimit} {count : Bytes → ℕ}
    (hcounts : Counts prims limiter next count) (hentries : after.entries = next.entries)
    (hmax : after.maxConns = next.maxConns) : Counts prims limiter after count := by
  have hentry : after.entryAt = next.entryAt := by
    funext index
    unfold entryAt
    rw [hentries]
  have hkeys := keyAt_of_entries hentries
  constructor
  · exact
      { length := hentries ▸ hcounts.sound.length
        proper := hkeys ▸ hcounts.sound.proper
        free := fun index hfree => by
          rw [hentry]
          exact hcounts.sound.free index (hkeys ▸ hfree)
        conns := fun index => by
          rw [hentry, hmax]
          exact hcounts.sound.conns index
        maxConns := hmax ▸ hcounts.sound.maxConns }
  · exact hmax.trans hcounts.maxConns
  · exact fun index hopen => hkeys ▸ hcounts.kept index hopen
  · intro key
    rw [← hcounts.conns key]
    unfold connsOf
    rw [findIdx_eq, findIdx_eq, hkeys, hentry]

theorem keyAt_setEntry_same (hsound : limiter.Sound prims) (hindex : index < ratelimitEntries)
    (hkey : entry.key = limiter.keyAt index) :
    (limiter.setEntry index entry).keyAt = limiter.keyAt := by
  rw [keyAt_setEntry hsound.length hindex, hkey, update_eq_self]

/-- Overwriting an entry under the key it has. -/
theorem Sound.setEntry (hsound : limiter.Sound prims) (hindex : index < ratelimitEntries)
    (hkey : entry.key = limiter.keyAt index) (hused : entry.key ≠ [])
    (hmax : entry.conns ≤ limiter.maxConns) :
    Counts prims limiter (limiter.setEntry index entry)
      (update (limiter.connsOf prims) entry.key entry.conns) := by
  have hkeys := keyAt_setEntry_same hsound hindex hkey
  have hentry := @entryAt_setEntry limiter index entry hsound.length hindex
  constructor
  · refine ⟨(List.length_set).trans hsound.length, hkeys ▸ hsound.proper, fun position => ?_,
      fun position => ?_, hsound.maxConns⟩
    · rw [hkeys, hentry]
      intro hfree
      split_ifs with hhere
      · exact absurd (hkey.trans (hhere ▸ hfree)) hused
      · exact hsound.free position hfree
    · rw [hentry]
      split
      · exact hmax
      · exact hsound.conns position
  · rfl
  · exact fun position _ => congrFun hkeys position
  · intro key
    rw [update_apply]
    split_ifs with hsame
    · unfold connsOf
      rw [findIdx_eq, hkeys, hsound.proper.lookup_of_key hindex (hkey.symm.trans hsame.symm)
        (hsame ▸ hused)]
      dsimp only
      rw [hentry, if_pos rfl]
    · unfold connsOf
      rw [findIdx_eq, findIdx_eq, hkeys]
      split
      · rfl
      rename_i position hlookup
      obtain ⟨-, hposition, -⟩ := lookup_eq_some (by decide) hlookup
      rw [hentry, if_neg]
      rintro rfl
      exact hsame (hposition.symm.trans hkey.symm)

theorem Counts.then {after : Ratelimit} {first second : Bytes → ℕ}
    (hfirst : Counts prims limiter next first) (hsecond : Counts prims next after second)
    (hkeys : after.keyAt = next.keyAt) : Counts prims limiter after second where
  sound := hsecond.sound
  maxConns := hsecond.maxConns.trans hfirst.maxConns
  kept := fun index hopen => (congrFun hkeys index).trans (hfirst.kept index hopen)
  conns := hsecond.conns

variable {now : ℕ}

/-- Only a position that counts nothing is taken over. -/
theorem reclaimable_conns (hreclaim : limiter.reclaimable entry now = true) :
    entry.key = [] ∨ entry.conns = 0 := by
  rcases (Bool.or_eq_true _ _).mp hreclaim with hfree | hidle
  · exact .inl (of_decide_eq_true hfree)
  · exact .inr (beq_iff_eq.mp ((Bool.and_eq_true _ _).mp hidle).1)

/-- A key that is new to the table takes over a position that counts nothing. -/
theorem Sound.reclaim {bucket : Bucket} (hsound : limiter.Sound prims) (hused : key ≠ [])
    (hfind : limiter.findIdx prims key = none)
    (hreclaim : limiter.reclaimFrom (bucketOf prims key) now ratelimitEntries = some index) :
    index < ratelimitEntries ∧
      Counts prims limiter (limiter.setEntry index { key := key, bucket := bucket, conns := 0 })
        (limiter.connsOf prims) := by
  rw [findIdx_eq] at hfind
  rw [reclaimFrom_eq] at hreclaim
  obtain ⟨steps, hsteps, hprobe, hstops, hpassed⟩ := firstFrom_eq_some le_rfl hreclaim
  have hindex : index < ratelimitEntries := hprobe ▸ probe_lt (by decide) steps
  have hentry := @entryAt_setEntry limiter index { key := key, bucket := bucket, conns := 0 }
    hsound.length hindex
  have hkeys := @keyAt_setEntry limiter index { key := key, bucket := bucket, conns := 0 }
    hsound.length hindex
  have hproper : Proper ratelimitEntries [] (bucketOf prims)
      (limiter.setEntry index { key := key, bucket := bucket, conns := 0 }).keyAt := by
    rw [hkeys, ← hprobe]
    refine hsound.proper.insert hused hfind hsteps fun earlier hbefore hfree => ?_
    have hstopped := hpassed earlier hbefore (by omega)
    unfold reclaimable at hstopped
    rw [decide_eq_true (by exact hfree), Bool.true_or] at hstopped
    cases hstopped
  have hidle : (limiter.entryAt index).conns = 0 :=
    (reclaimable_conns hstops).elim (hsound.free index) id
  have hnext :
      (limiter.setEntry index { key := key, bucket := bucket, conns := 0 }).Sound prims := by
    refine ⟨(List.length_set).trans hsound.length, hproper, fun position hfree => ?_,
      fun position => ?_, hsound.maxConns⟩
    · rw [hentry]
      split_ifs with hne
      · rfl
      rw [hkeys, update_of_ne hne] at hfree
      exact hsound.free position hfree
    · rw [hentry]
      split
      · exact Nat.zero_le _
      · exact hsound.conns position
  refine ⟨hindex, hnext, rfl, fun position hopen => ?_, fun other => ?_⟩
  · rw [hkeys, update_of_ne]
    rintro rfl
    omega
  by_cases hother : other = []
  · rw [hother, connsOf_nil, connsOf_nil]
  -- the key itself is new, and whatever stood at its position counted nothing
  by_cases hkey : other = key
  · subst hkey
    rw [hnext.connsOf_of_key hindex (by rw [hkeys, update_self]) hused, hentry,
      if_pos rfl, connsOf_of_absent fun position hposition =>
        hsound.proper.ne_of_lookup hfind hused hposition]
  · by_cases hpresent : ∃ position < ratelimitEntries, limiter.keyAt position = other
    · obtain ⟨position, hposition, hstands⟩ := hpresent
      rw [hsound.connsOf_of_key hposition hstands hother]
      by_cases hhere : position = index
      · subst hhere
        rw [hidle, connsOf_of_absent]
        intro elsewhere helsewhere hsame
        rw [hkeys, update_apply] at hsame
        split at hsame
        · exact hkey hsame.symm
        rename_i hne
        exact hne (hsound.proper.unique elsewhere helsewhere position hposition
          (hsame ▸ hother) (hsame.trans hstands.symm))
      · rw [hnext.connsOf_of_key hposition
          (by rw [hkeys, update_of_ne hhere, hstands]) hother, hentry, if_neg hhere]
    · have habsent : ∀ position < ratelimitEntries, limiter.keyAt position ≠ other :=
        fun position hposition hstands => hpresent ⟨position, hposition, hstands⟩
      rw [connsOf_of_absent habsent, connsOf_of_absent]
      intro position hposition hstands
      rw [hkeys, update_apply] at hstands
      split at hstands
      · exact hkey hstands.symm
      · exact habsent position hposition hstands

/-- `find_or_add` changes no count, and gives a position of the key. -/
theorem Sound.findOrAdd (hsound : limiter.Sound prims) (hused : key ≠ []) :
    Counts prims limiter (limiter.findOrAdd prims key now).2 (limiter.connsOf prims) ∧
      ∀ index, (limiter.findOrAdd prims key now).1 = some index →
        index < ratelimitEntries ∧ (limiter.findOrAdd prims key now).2.keyAt index = key := by
  unfold Ratelimit.findOrAdd
  cases hfind : limiter.findIdx prims key with
  | some =>
    refine ⟨.refl hsound, fun found hfound => ?_⟩
    obtain rfl := Option.some.inj hfound
    obtain ⟨hindex, hkey, -⟩ := lookup_eq_some (by decide) (findIdx_eq ▸ hfind)
    exact ⟨hindex, hkey⟩
  | none =>
    dsimp only
    split
    · rename_i index hreclaim
      obtain ⟨hindex, hcounts⟩ := hsound.reclaim hused hfind hreclaim
      refine ⟨hcounts, fun found hfound => ?_⟩
      obtain rfl := Option.some.inj hfound
      refine ⟨hindex, ?_⟩
      rw [keyAt_setEntry hsound.length hindex, update_self]
    · exact ⟨.refl hsound, nofun⟩

/-- Overwriting the bucket of an entry. -/
theorem Sound.setBucket {bucket : Bucket} (hsound : limiter.Sound prims)
    (hindex : index < ratelimitEntries) (hused : limiter.keyAt index ≠ []) :
    Counts prims limiter
        (limiter.setEntry index { limiter.entryAt index with bucket := bucket })
        (limiter.connsOf prims) ∧
      (limiter.setEntry index { limiter.entryAt index with bucket := bucket }).keyAt =
        limiter.keyAt := by
  have hcounts := @Sound.setEntry prims limiter index
    { limiter.entryAt index with bucket := bucket } hsound hindex rfl hused (hsound.conns index)
  rw [← hsound.connsOf_of_key hindex rfl hused] at hcounts
  exact ⟨(update_eq_self (limiter.keyAt index) (limiter.connsOf prims)) ▸ hcounts,
    keyAt_setEntry_same hsound hindex rfl⟩

end Ratelimit

theorem AuthdAddr.key_ne_nil {addr : AuthdAddr} {key : Bytes} (hkey : addr.key = some key) :
    key ≠ [] := by
  intro hnil
  subst hnil
  cases addr with
  | none => cases hkey
  | v4 bytes =>
    have hlength := congrArg List.length (Option.some.inj hkey)
    rw [bytes.length_toList] at hlength
    cases hlength
  | v6 bytes =>
    have hlength := congrArg List.length (Option.some.inj hkey)
    rw [List.length_take, bytes.length_toList] at hlength
    cases hlength

variable {perMin burst globalPerSec maxConns : ℕ}

namespace Ratelimit

variable {limiter next : Ratelimit} {addr : AuthdAddr} {now : ℕ}

/-- An admission counts one connection more for the key; a refusal leaves the counts alone. -/
inductive Admission (prims : DaemonPrimitives) (limiter : Ratelimit) (addr : AuthdAddr) :
    RatelimitVerdict × Ratelimit → Prop
  | allowed {key : Bytes} {next : Ratelimit} (hkey : addr.key = some key)
      (hcounts : Counts prims limiter next (Function.update (limiter.connsOf prims) key
        (limiter.connsOf prims key + 1))) : Admission prims limiter addr (.allow, next)
  | denied {verdict : RatelimitVerdict} {next : Ratelimit} (hverdict : verdict ≠ .allow)
      (hcounts : Counts prims limiter next (limiter.connsOf prims)) :
      Admission prims limiter addr (verdict, next)

/-- The commit point of an admission. -/
theorem Counts.count {table : Ratelimit} {index : ℕ} {key : Bytes} {entry : RatelimitEntry}
    (hcounts : Counts prims limiter table (limiter.connsOf prims))
    (hindex : index < ratelimitEntries) (hstands : table.keyAt index = key) (hused : key ≠ [])
    (hkey : entry.key = key) (hconns : entry.conns = limiter.connsOf prims key)
    (hbelow : entry.conns < table.maxConns) :
    Counts prims limiter
      (table.setEntry index { entry with conns := (entry.conns + 1) % 2 ^ 32 })
      (update (limiter.connsOf prims) key (limiter.connsOf prims key + 1)) := by
  have hmax := hcounts.sound.maxConns
  have hsucc : (entry.conns + 1) % 2 ^ 32 = limiter.connsOf prims key + 1 := by
    rw [hconns] at hbelow ⊢
    exact Nat.mod_eq_of_lt (by omega)
  have hset := @Sound.setEntry prims table index
    { entry with conns := (entry.conns + 1) % 2 ^ 32 } hcounts.sound hindex
    (hkey.trans hstands.symm) (by exact hkey ▸ hused) (by rw [hsucc, ← hconns]; exact hbelow)
  have hthen := hcounts.then hset
    (keyAt_setEntry_same hcounts.sound hindex (hkey.trans hstands.symm))
  refine { hthen with conns := fun other => (hthen.conns other).trans ?_ }
  rw [update_apply, update_apply]
  rw [hkey, hsucc, hcounts.conns other]

theorem Sound.admission (hsound : limiter.Sound prims) :
    Admission prims limiter addr (limiter.admitAddr prims addr now) := by
  unfold admitAddr
  split
  · exact .denied nofun (.refl hsound)
  rename_i key hkey
  have hused := AuthdAddr.key_ne_nil hkey
  obtain ⟨hadded, hposition⟩ := @Sound.findOrAdd prims limiter key now hsound hused
  generalize limiter.findOrAdd prims key now = found at hadded hposition ⊢
  obtain ⟨position, table⟩ := found
  cases position with
  | none => exact .denied nofun hadded
  | some index =>
    obtain ⟨hindex, hstands⟩ := hposition index rfl
    dsimp only
    split
    · exact .denied nofun hadded
    rename_i hbelow
    obtain ⟨hfilled, hkeys⟩ := @Sound.setBucket prims table index
      ((table.entryAt index).bucket.refill now table.perMin 60 table.capMilli) hadded.sound
      hindex (hstands ▸ hused)
    have hrefilled : Counts prims limiter
        (table.setEntry index (table.refillAddr (table.entryAt index) now))
        (limiter.connsOf prims) := by
      have hthen := hadded.then hfilled hkeys
      exact { hthen with conns := fun other => (hthen.conns other).trans (hadded.conns other) }
    have hfilledKeys : (table.setEntry index (table.refillAddr (table.entryAt index) now)).keyAt
        index = key := (congrFun hkeys index).trans hstands
    have hfilledKey : (table.refillAddr (table.entryAt index) now).key = key := hstands
    have hfilledConns : (table.refillAddr (table.entryAt index) now).conns =
        limiter.connsOf prims key :=
      (hadded.sound.connsOf_of_key hindex hstands hused).symm.trans (hadded.conns key)
    have hfilledBelow : (table.refillAddr (table.entryAt index) now).conns < table.maxConns :=
      not_le.mp hbelow
    generalize table.refillAddr (table.entryAt index) now = filled
      at hrefilled hfilledKeys hfilledKey hfilledConns hfilledBelow ⊢
    split
    · exact .denied nofun hrefilled
    split
    · exact .denied nofun (hrefilled.of_entries rfl rfl)
    have hcount := @Counts.count prims limiter (table.setEntry index filled) index key
      { filled with
        bucket := { filled.bucket with tokensMilli := filled.bucket.tokensMilli - 1000 } }
      hrefilled hindex hfilledKeys hused hfilledKey hfilledConns hfilledBelow
    exact .allowed hkey (hcount.of_entries rfl rfl)

theorem findIdx_key {key : Bytes} {index : ℕ} (hfind : limiter.findIdx prims key = some index) :
    index < ratelimitEntries ∧ limiter.keyAt index = key ∧ key ≠ [] :=
  lookup_eq_some (by decide) (findIdx_eq ▸ hfind)

/-- A release counts one connection less for the key of the address. -/
theorem Sound.release (hsound : limiter.Sound prims) :
    Counts prims limiter (limiter.release prims addr) (fun key =>
        limiter.connsOf prims key - if addr.key = some key then 1 else 0) ∧
      (limiter.release prims addr).keyAt = limiter.keyAt := by
  have hnone : (∀ key, addr.key = some key → limiter.connsOf prims key = 0) →
      Counts prims limiter limiter fun key =>
        limiter.connsOf prims key - if addr.key = some key then 1 else 0 := by
    refine fun hzero => { Counts.refl hsound with conns := fun key => ?_ }
    split_ifs with hkey
    · rw [hzero key hkey]
    · rfl
  unfold Ratelimit.release
  split
  · rename_i hfind
    refine ⟨hnone fun key hkey => ?_, rfl⟩
    rw [hkey, Option.bind_some] at hfind
    unfold connsOf
    rw [hfind]
  rename_i index hfind
  obtain ⟨key, hkey, hfind⟩ := Option.bind_eq_some_iff.mp hfind
  obtain ⟨hindex, hstands, hused⟩ := findIdx_key hfind
  have hconns := hsound.connsOf_of_key hindex hstands hused
  subst hstands
  dsimp only
  split_ifs with hcounted
  · have hset := @Sound.setEntry prims limiter index
      { limiter.entryAt index with conns := (limiter.entryAt index).conns - 1 } hsound hindex rfl
      hused (le_trans (Nat.sub_le _ _) (hsound.conns index))
    refine ⟨{ hset with conns := fun other => (hset.conns other).trans ?_ },
      keyAt_setEntry_same hsound hindex rfl⟩
    rw [hkey, update_apply]
    show (if other = limiter.keyAt index then (limiter.entryAt index).conns - 1 else _) = _
    by_cases hother : other = limiter.keyAt index
    · rw [if_pos hother, if_pos (congrArg some hother.symm), hother, hconns]
    · rw [if_neg hother, if_neg fun hsame => hother (Option.some.inj hsame).symm, Nat.sub_zero]
  · refine ⟨hnone fun other hother => ?_, rfl⟩
    obtain rfl := Option.some.inj (hkey.symm.trans hother)
    omega

/-- A refund leaves the counts alone. -/
theorem Sound.refund (hsound : limiter.Sound prims) :
    Counts prims limiter (limiter.refund prims addr now) (limiter.connsOf prims) ∧
      (limiter.refund prims addr now).keyAt = limiter.keyAt := by
  unfold Ratelimit.refund
  split
  · exact ⟨.refl hsound, rfl⟩
  rename_i index hfind
  obtain ⟨key, -, hfind⟩ := Option.bind_eq_some_iff.mp hfind
  obtain ⟨hindex, hstands, hused⟩ := findIdx_key hfind
  exact hsound.setBucket hindex (hstands ▸ hused)

theorem entryAt_init (index : ℕ) :
    (init perMin burst globalPerSec maxConns now).entryAt index = .blank := by
  unfold entryAt init
  rw [List.getD_eq_getElem?_getD, List.getElem?_replicate]
  split <;> rfl

theorem sound_init : (init perMin burst globalPerSec maxConns now).Sound prims := by
  have hfree : ∀ index, (init perMin burst globalPerSec maxConns now).keyAt index = [] := by
    intro index
    unfold keyAt
    rw [entryAt_init]
    rfl
  refine ⟨List.length_replicate, ⟨fun index _ hused => absurd (hfree index) hused,
    fun index _ _ _ hused => absurd (hfree index) hused⟩, fun index _ => ?_, fun index => ?_, ?_⟩
  · rw [entryAt_init]
    rfl
  · rw [entryAt_init]
    exact Nat.zero_le _
  · show clamp maxConns 1 4096 ≤ 4096
    unfold clamp
    split
    · omega
    split
    · exact le_rfl
    · omega

end Ratelimit

/-! ## The address of a connection -/

namespace ConnIo

variable {first second third io next : ConnIo} {kind : SlotKind} {data : Bytes}

/-- The preamble is as it was. -/
structure SameAddr (before after : ConnIo) : Prop where
  proxy : after.proxy = before.proxy
  proxyOn : after.proxyOn = before.proxyOn

theorem SameAddr.trans (hfirst : SameAddr first second) (hsecond : SameAddr second third) :
    SameAddr first third :=
  ⟨hsecond.proxy.trans hfirst.proxy, hsecond.proxyOn.trans hfirst.proxyOn⟩

theorem SameAddr.clientAddr (hsame : SameAddr io next) : next.clientAddr = io.clientAddr :=
  congrArg ProxyV2.addr hsame.proxy

theorem SameAddr.proxySettled (hsame : SameAddr io next) : next.proxySettled = io.proxySettled := by
  unfold ConnIo.proxySettled
  rw [hsame.proxy, hsame.proxyOn]

theorem sameAddr_of_sameInput (hsame : SameInput io next) : SameAddr io next := by
  obtain ⟨_, _, rfl⟩ := hsame
  exact ⟨rfl, rfl⟩

theorem sameAddr_sent {count : ℕ} : SameAddr io (io.sent count) := by
  obtain ⟨_, _, _, _, hsent⟩ := sent_ws_eq
  rw [hsent]
  exact ⟨rfl, rfl⟩

theorem sameAddr_noteHeader : SameAddr io io.noteHeader.2 := by
  unfold noteHeader
  split
  · exact ⟨rfl, rfl⟩
  split
  · exact ⟨rfl, rfl⟩
  dsimp only
  split
  · exact ⟨rfl, rfl⟩
  · exact ⟨rfl, rfl⟩

theorem sameAddr_noteInput : SameAddr io io.noteInput.2 := by
  unfold noteInput
  split
  · unfold noteLineCap
    split
    · exact ⟨rfl, rfl⟩
    split
    · exact ⟨rfl, rfl⟩
    · exact ⟨rfl, rfl⟩
  · exact sameAddr_noteHeader

theorem sameAddr_wsFeed : SameAddr io (io.wsFeed data).2 := by
  unfold wsFeed
  split
  · exact ⟨rfl, rfl⟩
  · exact ⟨sameAddr_noteHeader.proxy, sameAddr_noteHeader.proxyOn⟩

theorem sameAddr_pushWs : SameAddr io (io.pushWs prims data).2 := by
  unfold pushWs
  split
  · exact sameAddr_wsFeed
  split
  · exact ⟨rfl, rfl⟩
  dsimp only
  split
  · split
    · exact ⟨rfl, rfl⟩
    · exact ⟨rfl, rfl⟩
  split
  · exact ⟨rfl, rfl⟩
  split
  · split
    · exact ⟨rfl, rfl⟩
    · exact ⟨sameAddr_wsFeed.proxy, sameAddr_wsFeed.proxyOn⟩
  · exact ⟨rfl, rfl⟩

/-- Once the preamble is complete, what is read leaves it alone. -/
theorem sameAddr_push (hsettled : io.proxySettled = true) : SameAddr io (io.push prims data).2 := by
  have hdone := ((Bool.and_eq_true _ _).mp hsettled).2
  unfold push
  split
  · exact ⟨rfl, rfl⟩
  split
  · rw [if_neg fun hopen => Bool.false_ne_true (hopen.2.symm.trans hdone)]
    exact sameAddr_pushWs
  split
  · exact sameAddr_noteInput
  split
  · exact ⟨rfl, rfl⟩
  · exact ⟨sameAddr_noteInput.proxy, sameAddr_noteInput.proxyOn⟩

theorem sameAddr_nextUnit : SameAddr io (io.nextUnit kind).2 := by
  cases kind with
  | proto =>
    show SameAddr io io.nextFrame.2
    have hnote := @sameAddr_noteHeader io
    unfold nextFrame
    split
    · exact ⟨rfl, rfl⟩
    generalize io.noteHeader = noted at hnote ⊢
    obtain ⟨status, noted⟩ := noted
    split
    · rename_i next heq
      obtain rfl := (Prod.mk.inj heq).2
      split
      · exact hnote
      · exact hnote
    · rename_i next _ heq
      obtain rfl := (Prod.mk.inj heq).2
      exact hnote
  | loc =>
    show SameAddr io io.nextLine.2
    unfold nextLine
    split
    · exact ⟨rfl, rfl⟩
    split
    · exact ⟨rfl, rfl⟩
    · exact ⟨rfl, rfl⟩

theorem sameAddr_consumeUnit : SameAddr io (io.consumeUnit kind) := by
  cases kind with
  | proto =>
    show SameAddr io io.consumeFrame
    unfold consumeFrame
    split
    · exact ⟨rfl, rfl⟩
    · exact ⟨sameAddr_noteHeader.proxy, sameAddr_noteHeader.proxyOn⟩
  | loc =>
    show SameAddr io io.consumeLine
    unfold consumeLine
    split
    · exact ⟨rfl, rfl⟩
    · exact ⟨rfl, rfl⟩

end ConnIo

/-! ## Slots and the limiter -/

/-- An open slot that was admitted and whose client's address maps to a key. -/
def Slot.admittedFor (key : Bytes) (slot : Slot) : Bool :=
  decide (slot.state ≠ .free) && slot.addrAdmitted && decide (slot.io.clientAddr.key = some key)

/-- What was admitted has a preamble that is complete. -/
def Slot.Settled (slot : Slot) : Prop :=
  slot.addrAdmitted = true → slot.addrSettled = true ∧ slot.io.proxySettled = true

/-- The slot stands for the same admission. -/
structure Slot.SameAdmission (old new : Slot) : Prop where
  admitted : new.addrAdmitted = old.addrAdmitted
  settled : new.addrSettled = old.addrSettled
  free : new.state = .free ↔ old.state = .free
  addr : old.addrAdmitted = true → ConnIo.SameAddr old.io new.io

namespace Slot

variable {old new slot : Slot} {key : Bytes}

theorem admittedFor_of_not (hadmitted : slot.addrAdmitted = false) :
    slot.admittedFor key = false := by
  unfold admittedFor
  rw [hadmitted, Bool.and_false, Bool.false_and]

theorem admittedFor_of_free (hfree : slot.state = .free) : slot.admittedFor key = false := by
  unfold admittedFor
  rw [decide_eq_false (not_not.mpr hfree), Bool.false_and, Bool.false_and]

theorem admittedFor_of_admitted (hopen : slot.state ≠ .free)
    (hadmitted : slot.addrAdmitted = true) :
    slot.admittedFor key = decide (slot.io.clientAddr.key = some key) := by
  unfold admittedFor
  rw [decide_eq_true hopen, hadmitted, Bool.true_and, Bool.true_and]

theorem SameAdmission.admittedFor (hsame : old.SameAdmission new) (key : Bytes) :
    new.admittedFor key = old.admittedFor key := by
  cases hadmitted : old.addrAdmitted with
  | false =>
    rw [admittedFor_of_not hadmitted, admittedFor_of_not (hsame.admitted.trans hadmitted)]
  | true =>
    unfold Slot.admittedFor
    rw [(hsame.addr hadmitted).clientAddr, hsame.admitted,
      decide_eq_decide.mpr (not_congr hsame.free)]

theorem SameAdmission.keeps (hsame : old.SameAdmission new) (hsettled : old.Settled) :
    new.Settled := by
  intro hadmitted
  rw [hsame.admitted] at hadmitted
  obtain ⟨hdone, hproxy⟩ := hsettled hadmitted
  exact ⟨hsame.settled.trans hdone, (hsame.addr hadmitted).proxySettled.trans hproxy⟩

end Slot

variable {shared : Shared} {slotCount localCount : ℕ}

namespace Daemon

variable {config : AuthdConfig} {limiter next : Ratelimit}
  {before after daemon : Daemon} {ref : SlotRef} {old slot : Slot} {key : Bytes}

/-- The number of open slots that were admitted for a key. -/
def admittedFor (daemon : Daemon) (key : Bytes) : ℕ :=
  daemon.slots.countP (Slot.admittedFor key) + daemon.localSlots.countP (Slot.admittedFor key)

/-- The limiter counts, for every key, the open slots that were admitted for it. -/
structure Tally (prims : DaemonPrimitives) (limiter : Ratelimit) (daemon : Daemon) : Prop where
  rl : daemon.shared.rl = some limiter
  sound : limiter.Sound prims
  conns : ∀ key, limiter.connsOf prims key = daemon.admittedFor key
  settled : ∀ ref slot, daemon.slotAt ref = some slot → slot.Settled

theorem admittedFor_setSlot (hold : daemon.slotAt ref = some old) (key : Bytes) :
    (daemon.setSlot ref slot).admittedFor key + (if old.admittedFor key then 1 else 0) =
      daemon.admittedFor key + if slot.admittedFor key then 1 else 0 := by
  have hcount := @countP_setSlot daemon ref slot (Slot.admittedFor key) old hold
  obtain ⟨kind, index⟩ := ref
  unfold admittedFor
  cases kind with
  | proto =>
    change (daemon.slots.set index slot).countP _ + _ = daemon.slots.countP _ + _ at hcount
    show (daemon.slots.set index slot).countP _ + daemon.localSlots.countP _ + _ = _
    omega
  | loc =>
    change (daemon.localSlots.set index slot).countP _ + _ = daemon.localSlots.countP _ + _
      at hcount
    show daemon.slots.countP _ + (daemon.localSlots.set index slot).countP _ + _ = _
    omega

theorem slotAt_setSlot {other : SlotRef} {found : Slot}
    (hfound : (daemon.setSlot ref slot).slotAt other = some found) :
    found = slot ∨ daemon.slotAt other = some found := by
  by_cases hother : other = ref
  · subst hother
    cases hold : daemon.slotAt other with
    | none =>
      rw [slotAt_setSlot_none hold] at hfound
      cases hfound
    | some =>
      rw [slotAt_setSlot_self hold] at hfound
      exact .inl (Option.some.inj hfound).symm
  · rw [slotAt_setSlot_of_ne hother] at hfound
    exact .inr hfound

theorem shared_setSlot : (daemon.setSlot ref slot).shared = daemon.shared := by
  unfold setSlot
  cases ref.kind <;> rfl

/-- A slot is replaced by one that counts as it did. -/
theorem Tally.setSlot (htally : Tally prims limiter daemon) (hold : daemon.slotAt ref = some old)
    (hsettled : slot.Settled) (hsame : ∀ key, slot.admittedFor key = old.admittedFor key) :
    Tally prims limiter (daemon.setSlot ref slot) where
  rl := (congrArg Shared.rl shared_setSlot).trans htally.rl
  sound := htally.sound
  conns := fun key => by
    have hcount := @admittedFor_setSlot daemon ref old slot hold key
    rw [hsame key] at hcount
    rw [htally.conns key]
    omega
  settled := fun other found hfound => by
    rcases slotAt_setSlot hfound with rfl | hkept
    · exact hsettled
    · exact htally.settled other found hkept

theorem Tally.keep (htally : Tally prims limiter daemon) (hold : daemon.slotAt ref = some old)
    (hsame : old.SameAdmission slot) : Tally prims limiter (daemon.setSlot ref slot) :=
  htally.setSlot hold (hsame.keeps (htally.settled ref old hold)) hsame.admittedFor

/-- What matters for the counts is the same. -/
theorem Tally.of_same (htally : Tally prims limiter before) (hslots : after.slots = before.slots)
    (hlocal : after.localSlots = before.localSlots) (hrl : after.shared.rl = some next)
    (hsound : next.Sound prims)
    (hconns : ∀ key, next.connsOf prims key = limiter.connsOf prims key) :
    Tally prims next after where
  rl := hrl
  sound := hsound
  conns := fun key => by
    rw [hconns key, htally.conns key]
    unfold admittedFor
    rw [hslots, hlocal]
  settled := fun ref slot hslot => by
    refine htally.settled ref slot (hslot ▸ ?_)
    obtain ⟨kind, index⟩ := ref
    cases kind with
    | proto => exact congrArg (·[index]?) hslots.symm
    | loc => exact congrArg (·[index]?) hlocal.symm

/-- The counts agree again, over a table with the same keys. -/
structure Carries (prims : DaemonPrimitives) (limiter : Ratelimit) (after : Daemon)
    (next : Ratelimit) : Prop where
  tally : Tally prims next after
  maxConns : next.maxConns = limiter.maxConns
  keys : next.keyAt = limiter.keyAt

theorem Tally.carries (htally : Tally prims limiter daemon) :
    ∃ next, Carries prims limiter daemon next := ⟨limiter, htally, rfl, rfl⟩

theorem admittedFor_onClose :
    (daemon.onClose prims ref slot).admittedFor key = daemon.admittedFor key := by
  unfold onClose resetConn releaseAddr
  split <;> split <;> rfl

theorem rl_onClose : (daemon.onClose prims ref slot).shared.rl =
    if slot.addrAdmitted then
      daemon.shared.rl.map fun limiter => limiter.release prims slot.io.clientAddr
    else daemon.shared.rl := by
  unfold onClose resetConn releaseAddr
  split <;> split <;> rfl

theorem admittedFor_freeSlot :
    (daemon.freeSlot ref).admittedFor key =
      (daemon.setSlot ref (.blank ref.kind)).admittedFor key := by
  obtain ⟨kind, index⟩ := ref
  cases kind <;> rfl

theorem shared_freeSlot : (daemon.freeSlot ref).shared = daemon.shared := by
  obtain ⟨kind, index⟩ := ref
  cases kind <;> rfl

/-- Closing a slot gives back what admitting it counted. -/
theorem Tally.closeSlot (htally : Tally prims limiter daemon) (ref : SlotRef) :
    ∃ next, Carries prims limiter (daemon.closeSlot prims ref) next := by
  cases hslot : daemon.slotAt ref with
  | none =>
    rw [closeSlot_of_none hslot]
    exact htally.carries
  | some slot =>
    by_cases hfree : slot.state = .free
    · rw [closeSlot_of_free hslot hfree]
      exact htally.carries
    have hclosed : daemon.closeSlot prims ref = (daemon.onClose prims ref slot).freeSlot ref := by
      unfold Daemon.closeSlot
      rw [hslot]
      exact if_neg hfree
    have hsettled : ∀ other found, (daemon.closeSlot prims ref).slotAt other = some found →
        found.Settled := by
      intro other found hfound
      rcases closes_closeSlot other found hfound with hkept | rfl
      · exact htally.settled other found hkept
      · exact fun hadmitted => nomatch hadmitted
    have hclosing : (daemon.onClose prims ref slot).slotAt ref = some slot := by
      unfold onClose
      rw [slotAt_releaseAddr, slotAt_resetConn, hslot]
    have hcount : ∀ key, (daemon.closeSlot prims ref).admittedFor key +
        (if slot.admittedFor key then 1 else 0) = daemon.admittedFor key := by
      intro key
      have hset := @admittedFor_setSlot _ ref slot (.blank ref.kind) hclosing key
      rw [Slot.admittedFor_of_free (by rfl : (Slot.blank ref.kind).state = .free),
        if_neg Bool.false_ne_true, admittedFor_onClose, Nat.add_zero] at hset
      rw [hclosed, admittedFor_freeSlot, hset]
    have hrl : (daemon.closeSlot prims ref).shared.rl =
        some (if slot.addrAdmitted then limiter.release prims slot.io.clientAddr else limiter) := by
      rw [hclosed, shared_freeSlot, rl_onClose, htally.rl]
      split <;> rfl
    cases hadmitted : slot.addrAdmitted with
    | false =>
      rw [hadmitted, if_neg Bool.false_ne_true] at hrl
      refine ⟨limiter, ⟨hrl, htally.sound, fun key => ?_, hsettled⟩, rfl, rfl⟩
      have hkey := hcount key
      rw [Slot.admittedFor_of_not hadmitted, if_neg Bool.false_ne_true, Nat.add_zero] at hkey
      rw [htally.conns key, hkey]
    | true =>
      rw [hadmitted, if_pos rfl] at hrl
      obtain ⟨hcounts, hkeys⟩ :=
        @Ratelimit.Sound.release prims limiter slot.io.clientAddr htally.sound
      refine ⟨_, ⟨hrl, hcounts.sound, fun key => ?_, hsettled⟩, hcounts.maxConns, hkeys⟩
      have hkey := hcount key
      rw [Slot.admittedFor_of_admitted hfree hadmitted] at hkey
      simp only [decide_eq_true_iff] at hkey
      rw [hcounts.conns key, htally.conns key]
      omega

theorem Carries.trans {middle : Ratelimit} (hfirst : Carries prims limiter before middle)
    (hsecond : ∃ next, Carries prims middle after next) :
    ∃ next, Carries prims limiter after next := by
  obtain ⟨next, hsecond⟩ := hsecond
  exact ⟨next, hsecond.tally, hsecond.maxConns.trans hfirst.maxConns,
    hsecond.keys.trans hfirst.keys⟩

theorem Tally.accept {listener : Listener} (htally : Tally prims limiter daemon) :
    ∃ next, Carries prims limiter (daemon.accept config listener) next := by
  unfold Daemon.accept
  split
  · exact htally.carries
  split
  · exact htally.carries
  rename_i index htake
  obtain ⟨old, hold, hfree⟩ := takeSlot_free htake
  have hset : Tally prims limiter (daemon.setSlot { kind := listener.kind, index := index }
      (daemon.acceptedSlot config listener)) := by
    refine htally.setSlot hold nofun fun key => ?_
    rw [Slot.admittedFor_of_free hfree]
    exact Slot.admittedFor_of_not rfl
  split
  · apply Tally.carries
    exact hset.of_same rfl rfl hset.rl hset.sound fun _ => rfl
  apply Tally.carries
  exact hset.of_same rfl rfl hset.rl hset.sound fun _ => rfl

/-- What becomes of a slot stands for the same admission. -/
theorem SlotMove.sameAdmission {kind : SlotKind} (hmove : SlotMove prims config kind old slot)
    (hsettled : old.Settled) : old.SameAdmission slot := by
  refine ⟨?_, ?_, hmove.free, fun hadmitted => ?_⟩
  · cases hmove with
    | pushed | sent => rfl
    | served _ hserved => cases hserved <;> rfl
  · cases hmove with
    | pushed | sent => rfl
    | served _ hserved => cases hserved <;> rfl
  · cases hmove with
    | @pushed data _ _ hpush =>
      have hsame := @ConnIo.sameAddr_push prims old.io data (hsettled hadmitted).2
      rwa [hpush] at hsame
    | sent => exact ConnIo.sameAddr_sent
    | served _ hserved =>
      have htaken := @ConnIo.sameAddr_nextUnit old.io kind
      cases hserved with
      | waits hnext => rwa [hnext] at htaken
      | served _ _ _ hnext hsame =>
        rw [hnext] at htaken
        exact (htaken.trans (ConnIo.sameAddr_of_sameInput hsame)).trans ConnIo.sameAddr_consumeUnit

theorem Tally.move (htally : Tally prims limiter before)
    (hmove : LoopMove prims config ref before after) :
    ∃ next, Carries prims limiter after next := by
  cases hmove with
  | slot hslot hmove =>
    exact (htally.keep hslot (hmove.sameAdmission (htally.settled ref _ hslot))).carries
  | closed => exact htally.closeSlot _
  | around _ hlimiter =>
    rcases hlimiter with hrl | ⟨addr, now, hrl⟩
    · refine ⟨limiter, ?_, rfl, rfl⟩
      exact htally.of_same rfl rfl (hrl.trans htally.rl) htally.sound fun _ => rfl
    obtain ⟨hcounts, hkeys⟩ := @Ratelimit.Sound.refund prims limiter addr now htally.sound
    refine ⟨limiter.refund prims addr now, ?_, hcounts.maxConns, hkeys⟩
    rw [htally.rl] at hrl
    exact htally.of_same rfl rfl hrl hcounts.sound hcounts.conns

theorem Tally.moves (htally : Tally prims limiter before)
    (hmoves : LoopMoves prims config ref before after) :
    ∃ next, Carries prims limiter after next := by
  have hmove : ∀ middle after, LoopMove prims config ref middle after →
      (∃ next, Carries prims limiter middle next) → ∃ next, Carries prims limiter after next := by
    rintro middle after hmove ⟨next, hnext⟩
    exact hnext.trans (hnext.tally.move hmove)
  exact hmoves.invariant hmove htally.carries

theorem Tally.stop (htally : Tally prims limiter daemon) : Tally prims limiter daemon.stop where
  rl := htally.rl
  sound := htally.sound
  conns := fun key => by
    have hdrained : Slot.admittedFor key ∘ drainSlot = Slot.admittedFor key := by
      funext slot
      unfold drainSlot
      dsimp only [comp]
      split_ifs with hactive
      · unfold Slot.admittedFor
        rw [hactive]
        rfl
      · rfl
    rw [htally.conns key]
    unfold admittedFor Daemon.stop
    rw [List.countP_map, List.countP_map, hdrained]
  settled := fun ref slot hslot => by
    rw [slotAt_stop] at hslot
    obtain ⟨old, hold, rfl⟩ := Option.map_eq_some_iff.mp hslot
    have hsettled := htally.settled ref old hold
    unfold drainSlot
    split
    · exact hsettled
    · exact hsettled

/-- The counts agree again, over a table in which every entry that counts a connection still stands
for its key. -/
structure Passes (prims : DaemonPrimitives) (limiter : Ratelimit) (after : Daemon)
    (next : Ratelimit) : Prop where
  tally : Tally prims next after
  maxConns : next.maxConns = limiter.maxConns
  kept : ∀ index, 0 < (limiter.entryAt index).conns → next.keyAt index = limiter.keyAt index

theorem Carries.passes (hcarries : ∃ next, Carries prims limiter after next) :
    ∃ next, Passes prims limiter after next := by
  obtain ⟨next, hcarries⟩ := hcarries
  exact ⟨next, hcarries.tally, hcarries.maxConns, fun index _ => congrFun hcarries.keys index⟩

/-- A slot that was not admitted is replaced, and the limiter has counted the new one. -/
theorem Tally.settle (htally : Tally prims limiter daemon) (hold : daemon.slotAt ref = some old)
    (hadmitted : old.addrAdmitted = false) (hrl : shared.rl = some next) (hsettled : slot.Settled)
    (hcounts : Ratelimit.Counts prims limiter next fun key => limiter.connsOf prims key + if
      slot.admittedFor key then 1 else 0) :
    Passes prims limiter (({ daemon with shared := shared } : Daemon).setSlot ref slot) next := by
  refine ⟨⟨(congrArg Shared.rl shared_setSlot).trans hrl, hcounts.sound, fun key => ?_,
    fun other found hfound => ?_⟩, hcounts.maxConns, hcounts.kept⟩
  · have hcount := @admittedFor_setSlot { daemon with shared := shared } ref old slot hold key
    rw [Slot.admittedFor_of_not hadmitted, if_neg Bool.false_ne_true, Nat.add_zero] at hcount
    rw [hcounts.conns key, hcount, htally.conns key]
    rfl
  · rcases slotAt_setSlot hfound with rfl | hkept
    · exact hsettled
    · exact htally.settled other found hkept

/-- The verdict on an address is counted as the slot notes it. -/
theorem Tally.settleAddr (htally : Tally prims limiter daemon) (hold : daemon.slotAt ref = some old)
    (hadmitted : old.addrAdmitted = false) (hslot : slot.addrAdmitted = false)
    (hopen : slot.state ≠ .free) (hproxy : slot.io.proxySettled = true) :
    ∃ next, Passes prims limiter (daemon.settleAddr prims ref slot) next := by
  have hview := onAddr_view prims daemon.shared { slot with addrSettled := true }
  unfold Daemon.settleAddr
  generalize onAddr prims daemon.shared { slot with addrSettled := true } = settled at hview ⊢
  -- without an admission the slot is not counted, before and after
  have hrefused : ∀ {replaced : Slot} {shared : Shared} {next : Ratelimit},
      replaced.addrAdmitted = false → shared.rl = some next →
      Ratelimit.Counts prims limiter next (limiter.connsOf prims) →
      ∃ next, Passes prims limiter
        (({ daemon with shared := shared } : Daemon).setSlot ref replaced) next := by
    intro replaced shared next hreplaced hrl hcounts
    refine ⟨next, htally.settle hold hadmitted hrl
      (fun hadmits => absurd (hreplaced.symm.trans hadmits) Bool.false_ne_true) ?_⟩
    refine { hcounts with conns := fun key => ?_ }
    rw [Slot.admittedFor_of_not hreplaced, if_neg Bool.false_ne_true, Nat.add_zero]
    exact hcounts.conns key
  cases hview with
  | unknown => exact hrefused hslot htally.rl (.refl htally.sound)
  | unlimited hsome hlimiter => exact absurd (hlimiter.symm.trans htally.rl) nofun
  | @admitted asked next hsome hlimiter hresult =>
    obtain rfl := Option.some.inj (htally.rl.symm.trans hlimiter)
    have hadmission := @Ratelimit.Sound.admission prims limiter slot.io.clientAddr
      daemon.shared.nowMs htally.sound
    rw [show limiter.admitAddr prims slot.io.clientAddr daemon.shared.nowMs = (.allow, next)
      from hresult] at hadmission
    cases hadmission with
    | @allowed key next hkey hcounts =>
      refine ⟨next, htally.settle hold hadmitted rfl (fun _ => ⟨rfl, hproxy⟩) ?_⟩
      refine { hcounts with conns := fun other => ?_ }
      rw [hcounts.conns other, update_apply, Slot.admittedFor_of_admitted (by exact hopen) (by rfl)]
      by_cases hother : other = key
      · rw [if_pos hother, if_pos (decide_eq_true (by rw [hother]; exact hkey)), hother]
      have hne : ¬slot.io.clientAddr.key = some other := fun hsame =>
        hother (Option.some.inj (hsame.symm.trans hkey))
      rw [if_neg hother, if_neg (by simpa using hne), Nat.add_zero]
    | denied hverdict => exact absurd rfl hverdict
  | @refused asked next verdict hsome hlimiter hresult hverdict =>
    obtain rfl := Option.some.inj (htally.rl.symm.trans hlimiter)
    have hadmission := @Ratelimit.Sound.admission prims limiter slot.io.clientAddr
      daemon.shared.nowMs htally.sound
    rw [show limiter.admitAddr prims slot.io.clientAddr daemon.shared.nowMs = (verdict, next)
      from hresult] at hadmission
    cases hadmission with
    | allowed => exact absurd rfl hverdict
    | denied _ hcounts => exact hrefused hslot rfl hcounts

theorem Tally.stepMoves (htally : Tally prims limiter before)
    (hmoves : StepMoves prims config ref before after) :
    ∃ next, Passes prims limiter after next := by
  cases hmoves with
  | moved hmoves => exact Carries.passes (htally.moves hmoves)
  | @settled slot _ io hslot hactive _ hunsettled hproxy =>
    have hadmitted : slot.addrAdmitted = false := by
      by_contra hadmits
      obtain ⟨hsettled, -⟩ := htally.settled ref slot hslot (Bool.eq_true_of_not_eq_false hadmits)
      exact Bool.false_ne_true (hunsettled.symm.trans hsettled)
    exact htally.settleAddr hslot hadmitted hadmitted (by rw [hactive]; exact nofun) hproxy

theorem Tally.step {event : LoopEvent} (htally : Tally prims limiter daemon)
    (hallowed : daemon.allowed event) :
    ∃ next, Passes prims limiter (daemon.step prims config event) next := by
  cases event with
  | accept => exact Carries.passes htally.accept
  | receive | serve | written | close => exact htally.stepMoves (step_moves hallowed rfl)
  | stop => exact Carries.passes htally.stop.carries
  | tick =>
    refine Carries.passes (Tally.carries ?_)
    exact htally.of_same rfl rfl htally.rl htally.sound fun _ => rfl
  | sweep faults =>
    refine Carries.passes (Tally.carries ?_)
    show Tally prims limiter (daemon.maybeSweep faults)
    unfold maybeSweep
    split
    · exact htally
    · exact htally.of_same rfl rfl htally.rl htally.sound fun _ => rfl

theorem tally_start {now : ℕ}
    (hrl : shared.rl = some (.init perMin burst globalPerSec maxConns now)) :
    Tally prims (.init perMin burst globalPerSec maxConns now)
      (start slotCount localCount shared) := by
  have hblank : ∀ kind key, (Slot.blank kind).admittedFor key = false := fun _ _ =>
    Slot.admittedFor_of_free rfl
  refine ⟨hrl, Ratelimit.sound_init, fun key => ?_, fun ref slot hslot => ?_⟩
  · have hnone : (start slotCount localCount shared).admittedFor key = 0 := by
      show (List.replicate slotCount (Slot.blank .proto)).countP (Slot.admittedFor key) +
        (List.replicate localCount (Slot.blank .loc)).countP (Slot.admittedFor key) = 0
      rw [List.countP_replicate, List.countP_replicate, hblank, hblank,
        if_neg Bool.false_ne_true, if_neg Bool.false_ne_true]
    rw [hnone]
    unfold Ratelimit.connsOf
    split
    · rfl
    rw [Ratelimit.entryAt_init]
    rfl
  · obtain ⟨kind, index⟩ := ref
    cases kind with
    | proto | loc =>
      obtain rfl := List.eq_of_mem_replicate (List.mem_of_getElem? hslot)
      exact nofun

/-- There is a limiter with a given maximum, and its counts are those of the slots. -/
def Tallied (prims : DaemonPrimitives) (maximum : ℕ) (daemon : Daemon) : Prop :=
  ∃ limiter, Tally prims limiter daemon ∧ limiter.maxConns = maximum

theorem tallied_of_run {events : List LoopEvent} {now : ℕ}
    (hrl : shared.rl = some (.init perMin burst globalPerSec maxConns now))
    (hrun : (daemonMachine prims config).Run (start slotCount localCount shared) events daemon) :
    Tallied prims (clamp maxConns 1 4096) daemon := by
  have hstep : ∀ daemon event, Tallied prims (clamp maxConns 1 4096) daemon →
      (daemonMachine prims config).allowed daemon event →
      Tallied prims (clamp maxConns 1 4096) ((daemonMachine prims config).step daemon event) := by
    rintro daemon event ⟨limiter, htally, hmax⟩ hallowed
    obtain ⟨next, hpasses⟩ := @Tally.step prims config limiter daemon event htally hallowed
    exact ⟨next, hpasses.tally, hpasses.maxConns.trans hmax⟩
  exact hrun.invariant hstep ⟨_, tally_start hrl, rfl⟩

end Daemon

open Daemon in
/-- With the limiter on, the count it holds for a key is, in every state of the daemon, the number
of open slots that were admitted with an address of that key, and stays within the maximum. No step
gives the entry of a key with open connections to another key. -/
theorem limiter_counts_open_slots {prims : DaemonPrimitives} {config : AuthdConfig}
    {daemon : Daemon} {slotCount localCount : ℕ} {shared : Shared} {events : List LoopEvent}
    {perMin burst globalPerSec maxConns now : ℕ}
    (hrl : shared.rl = some (.init perMin burst globalPerSec maxConns now))
    (hrun : (daemonMachine prims config).Run (start slotCount localCount shared) events daemon) :
    ∃ limiter, daemon.shared.rl = some limiter ∧
      (∀ key, limiter.connsOf prims key = daemon.admittedFor key ∧
        daemon.admittedFor key ≤ clamp maxConns 1 4096) ∧
      ∀ event, daemon.allowed event →
        ∃ next, (daemon.step prims config event).shared.rl = some next ∧
          ∀ index, 0 < daemon.admittedFor (limiter.keyAt index) →
            next.keyAt index = limiter.keyAt index := by
  obtain ⟨limiter, htally, hmax⟩ := tallied_of_run hrl hrun
  refine ⟨limiter, htally.rl, fun key => ⟨htally.conns key, ?_⟩, fun event hallowed => ?_⟩
  · rw [← htally.conns key, ← hmax]
    exact htally.sound.connsOf_le key
  obtain ⟨next, hpasses⟩ := @Tally.step prims config limiter daemon event htally hallowed
  refine ⟨next, hpasses.tally.rl, fun index hopen => hpasses.kept index ?_⟩
  rw [← htally.conns] at hopen
  exact htally.sound.conns_pos hopen

/-- Two connections of one client are admitted, and the first is closed. -/
def sampleAdmissions : List LoopEvent :=
  [.accept sampleProxied, .receive ⟨.proto, 0⟩ (sampleStream.take 28),
    .accept sampleProxied, .receive ⟨.proto, 1⟩ (sampleStream.take 28), .close ⟨.proto, 0⟩]

/-- A daemon whose limiter allows four connections for each address. -/
def sampleLimited : Daemon :=
  .start 2 0 { sampleShared with rl := some (.init 60 10 100 4 0) }

theorem limiter_counts_open_slots_sampleAdmissions :
    ∃ limiter, (sampleAdmissions.foldl (daemonMachine sampleWsPrims sampleConfig).step
        sampleLimited).shared.rl = some limiter ∧
      limiter.connsOf sampleWsPrims [10, 0, 0, 1] = 1 ∧
      1 ≤ clamp 4 1 4096 := by
  have hfacts : (daemonMachine sampleWsPrims sampleConfig).AllAllowed sampleLimited
        sampleAdmissions ∧
      (sampleAdmissions.foldl (daemonMachine sampleWsPrims sampleConfig).step
        sampleLimited).admittedFor [10, 0, 0, 1] = 1 := by
    decide +kernel
  obtain ⟨hallowed, hadmitted⟩ := hfacts
  have hrun := Machine.Run.of_allAllowed hallowed
  obtain ⟨limiter, hrl, hcounts, -⟩ := @limiter_counts_open_slots sampleWsPrims sampleConfig _ 2 0
    { sampleShared with rl := some (.init 60 10 100 4 0) } _ 60 10 100 4 0 rfl hrun
  obtain ⟨hconns, hmax⟩ := hcounts [10, 0, 0, 1]
  exact ⟨limiter, hrl, hconns, hmax⟩

end MldsaAuth.Authd
