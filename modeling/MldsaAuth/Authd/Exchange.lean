/-
# Which requests mint tokens, and with which role

Tokens are minted by the exchange of a login code and by nothing else. The role a
token is minted with is looked up in a call of its own, whose failure goes unnoticed:
the token is then minted as for an ordinary user. Where no statement fails, the role is
that of the user.
-/

import MldsaAuth.Authd.RequestView

namespace MldsaAuth.Authd

open Foundation Crypto Foundation.Program

variable {conn reached : Connection Tables} {Value : Type} {value : Value} {minted : Minted}

section Handlers

variable {prims : DaemonPrimitives} {config : AuthdConfig} {env : LocalEnv} {nowMs : ℕ}
  {nowUnix : ℤ} {isAdmin : Bool} {request : Request}

theorem eq_of_check {condition : Bool} {code : ApiErr}
    (hrun : check condition code conn = (.ok ⟨⟩, reached)) : conn = reached := by
  unfold check Program.require at hrun
  split at hrun
  · exact congrArg Prod.snd hrun
  · cases hrun

theorem eq_of_field {given : Option Value} (hrun : field given conn = (.ok value, reached)) :
    conn = reached := by
  unfold field at hrun
  split at hrun
  · exact congrArg Prod.snd hrun
  · cases hrun

theorem run_of_call {program : StoreProgram Value} {report : StoreStatus → ApiErr}
    (hrun : call program report conn = (.ok value, reached)) :
    program conn = (.ok value, reached) := by
  unfold call Program.mapStatus at hrun
  generalize program conn = ran at hrun ⊢
  obtain ⟨outcome, last⟩ := ran
  cases outcome with
  | ok =>
    cases hrun
    rfl
  | error => cases hrun

theorem outcome_storeGetUser {userId : Bytes} (hfaults : conn.faults = [])
    (hid : idOk userId = true) :
    (storeGetUser userId conn).1 = match conn.tables.userOf userId with
      | none => .error .errNotFound
      | some row => .ok (row.role, row.status) := by
  unfold storeGetUser Program.require
  rw [hid]
  show (Program.bind (query fun tables => tables.userOf userId) _ conn).1 = _
  unfold Program.bind query Program.statement
  simp only [hfaults, List.headD_nil, Bool.false_eq_true, if_false]
  cases conn.tables.userOf userId with
  | none => rfl
  | some => rfl

theorem staysFaultless_storeConsumeLoginCodeEx (codeHash stateHash : StoreHash) (now : ℤ) :
    StaysFaultless (storeConsumeLoginCodeEx codeHash stateHash now) := by
  refine .transaction (.bind .statement fun found => ?_)
  split
  · exact .pure _
  refine .bind (.require _ _) fun _ => .bind (.require _ _) fun _ => ?_
  split
  · exact .pure _
  split
  · exact .pure _
  split
  · exact .pure _
  · exact .bind .statement fun _ => .pure _

theorem ids_of_storeAddToken {row : TokenRow} (hrun : storeAddToken row conn = (.ok ⟨⟩, reached)) :
    (idOk row.userId && idOk row.handle) = true :=
  ((atomically_storeAddToken row).goal_of_ok (congrArg Prod.fst hrun)).1

/-- Where no statement fails, the role of a token is that of its user. -/
theorem role_hExchange_faultless {reply : Reply} (hfaults : conn.faults = [])
    (hreply : (hExchange prims env nowUnix request conn).1 = .ok reply)
    (heffect : reply.effect = some (.tokenMinted minted)) :
    minted.role = ((conn.tables.userOf minted.userId).map UserRow.role).getD .user := by
  obtain ⟨_, start, hstart, hreply⟩ := ok_of_bind hreply
  obtain rfl : conn = start := eq_of_check hstart
  obtain ⟨code, start, hstart, hreply⟩ := ok_of_bind hreply
  obtain rfl : conn = start := eq_of_field hstart
  obtain ⟨state, start, hstart, hreply⟩ := ok_of_bind hreply
  obtain rfl : conn = start := eq_of_field hstart
  obtain ⟨⟨verdict, userId, handle⟩, consumed, hconsumed, hreply⟩ := ok_of_bind hreply
  have hconsumed := run_of_call hconsumed
  have hclean : consumed.faults = [] := by
    have hstays := staysFaultless_storeConsumeLoginCodeEx (prims.sha256 code.toList)
      (prims.sha256 state) nowUnix conn hfaults
    rwa [hconsumed] at hstays
  have husers : consumed.tables.users = conn.tables.users := by
    have hmade := (atomically_storeConsumeLoginCodeEx (prims.sha256 code.toList)
      (prims.sha256 state) nowUnix).goal_of_ok (congrArg Prod.fst hconsumed)
    rw [hconsumed] at hmade
    generalize consumed.tables = after at hmade ⊢
    cases hmade with
    | refused => rfl
    | consumed => rfl
  cases verdict with
  | ok =>
    obtain ⟨known, found, hfound, hreply⟩ := ok_of_bind hreply
    obtain ⟨_, inserted, hinserted, hreply⟩ := ok_of_bind hreply
    have hinserted := run_of_call hinserted
    have hids : (idOk userId && idOk handle) = true := ids_of_storeAddToken hinserted
    cases hreply
    cases heffect
    have hknown : (storeGetUser userId consumed).1 = known := by
      have hattempt := congrArg Prod.fst hfound
      exact Except.ok.inj hattempt
    rw [outcome_storeGetUser hclean (Bool.and_eq_true_iff.mp hids).1] at hknown
    have hsame : consumed.tables.userOf userId = conn.tables.userOf userId := by
      unfold Tables.userOf
      rw [husers]
    rw [hsame] at hknown
    subst hknown
    dsimp only [exchangeMinted]
    cases conn.tables.userOf userId with
    | none => rfl
    | some => rfl
  | _ => cases hreply

/-- Where no statement fails, a line mints tokens with the role of their user. -/
theorem role_localapiOnLine_faultless {shared : Shared} {line : Bytes}
    (hfaults : shared.store.conn.faults = [])
    (heffect : (localapiOnLine prims config env isAdmin shared line).effect =
      some (.tokenMinted minted)) :
    minted.role = ((shared.tables.userOf minted.userId).map UserRow.role).getD .user := by
  have hreply : ∃ reply, (handleLine prims config env shared.nowMs shared.nowUnix isAdmin line
      shared.store.conn).1 = .ok reply ∧ reply.effect = some (.tokenMinted minted) := by
    unfold localapiOnLine at heffect
    dsimp only at heffect
    split at heffect
    · rename_i reply hreply
      exact ⟨reply, hreply, heffect⟩
    · cases heffect
  obtain ⟨reply, hreply, hminted⟩ := hreply
  rcases handleLine_cases with ⟨request, hexchange⟩ | hends
  · rw [hexchange] at hreply
    exact role_hExchange_faultless hfaults hreply hminted
  have hunminted := (hends.reached shared.store.conn rfl).2 minted
  rw [hreply] at hunminted
  exact absurd hminted hunminted

end Handlers

end MldsaAuth.Authd
