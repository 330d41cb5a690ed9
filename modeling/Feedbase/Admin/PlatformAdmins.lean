import Feedbase.Users.Ownership
import Feedbase.Users.Passwords

/-!
# Platform admins

A platform admin is an account with a flagged row, and the panel lets in who has a row
that is flagged and active. Revoking the flag spares the caller's own account. Switching a
row off, deleting a workspace and deleting another account do not look at the flag of the
rows they take away.

## Main definitions

* `authenticateAdmin`, `setAdminActive`, `deleteAdmin`, `deleteUser`
* `HasAdmin`
* `AdminRequest`, `AdminRequest.LeavesAdmin` — what each request must leave

## Main results

* `hasAdmin_iff_passes` — somebody passes `authenticateAdmin`
* `hasAdmin_of_run`
-/

namespace Feedbase

open Sql

variable {cfg : Config} {crypto : Crypto} {w w' : World} {db db' : Db} {id : Nat} {u admin : User}

/-! ### The handlers -/

/-- The text of a row's address. Addresses with one text are one under the collation; the
converse does not hold. -/
structure Spelling where
  text : User → String
  email_eq : ∀ u v, text u = text v → u.email = v.email

/-- The rows that open the panel for an address. -/
def adminRows (db : Db) (email : String) : List User :=
  db.users.rows.filter fun u => u.email == email && u.isPlatformAdmin && u.isActive

/-- `authenticateAdmin` on the address of a verified admin token: the first of its rows. -/
def authenticateAdmin (email : String) : Handler User := do
  match ← query fun db => ((adminRows db email).insertionSort fun u v => u.id ≤ v.id).head? with
  | none => reject 401 "Access denied"
  | some admin => return admin

/-- `emailForId`, with the row for its spelling. -/
def rowForId (db : Db) (id : Nat) : Option User := (db.users.byId id).filter (·.email ≠ "")

/-- `SET is_platform_admin = ?`. -/
def User.setFlag (flag : Bool) (u : User) : User := { u with isPlatformAdmin := flag }

/-- `UPDATE users SET is_platform_admin = ? WHERE email = ?`. -/
def flagAccount (email : String) (flag : Bool) (db : Db) : Db :=
  { db with
    users := db.users.update (·.email == email) (User.setFlag flag)
      ⟨fun _ => rfl, fun _ _ => rfl⟩ }

/-- `setAdminActive`: not on one's own account. -/
def setAdminActive (spelling : Spelling) (id : Nat) (isActive : Bool) (admin : User) :
    Handler (Reply Unit) := do
  match ← query fun db => rowForId db id with
  | none => reject 404 "admin_not_found"
  | some row =>
    if spelling.text row = spelling.text admin ∧ isActive = false then
      reject 400 "cannot_modify_self"
    else do
      update (flagAccount row.email isActive)
      resolve 200 "admin_updated" ()

/-- `deleteAdmin`: not one's own account. -/
def deleteAdmin (spelling : Spelling) (id : Nat) (admin : User) : Handler (Reply Unit) := do
  match ← query fun db => rowForId db id with
  | none => reject 404 "admin_not_found"
  | some row =>
    if spelling.text row = spelling.text admin then reject 400 "cannot_modify_self"
    else do
      update (flagAccount row.email false)
      resolve 200 "admin_deleted" ()

/-- `deleteUser`: the account behind the row. -/
def deleteUser (cfg : Config) (id : Nat) : Handler (Reply PurgeResult) :=
  tryCatch
    (do
      match ← query fun db => emailOfUserId db id with
      | none => reject 404 "user_not_found"
      | some email =>
        match ← purgeAccount cfg email with
        | .error .platformAdminUndeletable => reject 400 "platform_admin_undeletable"
        | .error .userNotFound => reject 404 "user_not_found"
        | .ok result => resolve 200 "user_deleted" result)
    internalError

/-! ### Who opens the panel -/

/-- An active row is flagged. -/
def HasAdmin (db : Db) : Prop := ∃ u ∈ db.users, u.isPlatformAdmin = true ∧ u.isActive = true

instance (db : Db) : Decidable (HasAdmin db) :=
  inferInstanceAs (Decidable (∃ u ∈ db.users, u.isPlatformAdmin = true ∧ u.isActive = true))

theorem mem_adminRows {email : String} : u ∈ adminRows db email ↔
    u ∈ db.users ∧ u.email = email ∧ u.isPlatformAdmin = true ∧ u.isActive = true := by
  simp only [adminRows, List.mem_filter, Bool.and_eq_true, beq_iff_eq, Table.mem_def, and_assoc]

/-- A caller who passes has a flagged, active row. -/
theorem exec_authenticateAdmin {email : String}
    (h : (authenticateAdmin email).exec w = (.ok admin, w')) :
    w' = w ∧ admin ∈ w.db.users ∧ admin.isPlatformAdmin = true ∧ admin.isActive = true := by
  unfold authenticateAdmin at h
  rw [exec_query_bind] at h
  cases hhead : ((adminRows w.db email).insertionSort fun u v => u.id ≤ v.id).head? with
  | none =>
    rw [hhead] at h
    cases h
  | some row =>
    rw [hhead] at h
    cases h
    have hmem := List.mem_of_head? hhead
    rw [List.mem_insertionSort] at hmem
    obtain ⟨hrow, -, hflag, hactive⟩ := mem_adminRows.mp hmem
    exact ⟨rfl, hrow, hflag, hactive⟩

/-- Some account passes `authenticateAdmin`. -/
theorem hasAdmin_iff_passes : HasAdmin w.db ↔
    ∃ email admin, (authenticateAdmin email).exec w = (.ok admin, w) := by
  constructor
  · rintro ⟨u, hu, hflag, hactive⟩
    have hmem : u ∈ (adminRows w.db u.email).insertionSort fun u v => u.id ≤ v.id := by
      rw [List.mem_insertionSort]
      exact mem_adminRows.mpr ⟨hu, rfl, hflag, hactive⟩
    obtain ⟨row, hhead⟩ : ∃ row,
        ((adminRows w.db u.email).insertionSort fun u v => u.id ≤ v.id).head? = some row :=
      Option.isSome_iff_exists.mp (List.isSome_head?.mpr (List.ne_nil_of_mem hmem))
    refine ⟨u.email, row, ?_⟩
    unfold authenticateAdmin
    rw [exec_query_bind, hhead]
    rfl
  · rintro ⟨email, admin, h⟩
    obtain ⟨-, hrow, hflag, hactive⟩ := exec_authenticateAdmin h
    exact ⟨admin, hrow, hflag, hactive⟩

/-! ### The requests -/

/-- The requests of the panel that touch users or workspaces. -/
inductive AdminRequest where
  | setAdminActive (id : Nat) (isActive : Bool)
  | deleteAdmin (id : Nat)
  | createAdmin (data : AdminData) (salt : String)
  | updateUser (id : Nat) (data : UserChange)
  | deleteUser (id : Nat)
  | resetUserPassword (id : Nat) (newPassword salt : String)
  | deleteWorkspace (id : Nat)
  | updateWorkspace (id : Nat) (data : WorkspaceChange)

/-- The world after a request of the admin has run to completion. -/
def AdminRequest.serve (cfg : Config) (crypto : Crypto) (spelling : Spelling) (admin : User)
    (w : World) : AdminRequest → World
  | .setAdminActive id isActive => ((Feedbase.setAdminActive spelling id isActive admin).exec w).2
  | .deleteAdmin id => ((Feedbase.deleteAdmin spelling id admin).exec w).2
  | .createAdmin data salt => ((Feedbase.createAdmin crypto data salt).exec w).2
  | .updateUser id data => ((Feedbase.updateUser id data).exec w).2
  | .deleteUser id => ((Feedbase.deleteUser cfg id).exec w).2
  | .resetUserPassword id newPassword salt =>
    ((Feedbase.resetUserPassword crypto id newPassword salt).exec w).2
  | .deleteWorkspace id => ((Feedbase.deleteWorkspace id).exec w).2
  | .updateWorkspace id data => ((Feedbase.updateWorkspace id data).exec w).2

/-- The request is not refused, and unflags, switches off or deletes the row. -/
def AdminRequest.Takes (spelling : Spelling) (admin : User) (db : Db) (u : User) :
    AdminRequest → Prop
  | .setAdminActive id isActive => isActive = false ∧
    ∃ row ∈ rowForId db id, spelling.text row ≠ spelling.text admin ∧ u.email = row.email
  | .deleteAdmin id =>
    ∃ row ∈ rowForId db id, spelling.text row ≠ spelling.text admin ∧ u.email = row.email
  | .updateUser id data => data.isActive = some false ∧
    (data.role.any fun role => (tenantRole? role).isNone) = false ∧ u.id = id
  | .deleteUser id => ∃ email ∈ emailOfUserId db id, isPlatformAdminEmail db email = false ∧
    (purgeTx email (accountRows db email) db).isSome ∧ ∃ n ∈ u.tenantId, n ∈ db.owned email
  | .deleteWorkspace id => (db.erase { tenant := fun t => t.id == id }).isSome ∧
    u.tenantId = some id
  | .createAdmin .. | .resetUserPassword .. | .updateWorkspace .. => False

/-- Some flagged, active row is not taken. -/
def AdminRequest.LeavesAdmin (spelling : Spelling) (admin : User) (db : Db) (r : AdminRequest) :
    Prop :=
  ∃ u ∈ db.users, (u.isPlatformAdmin = true ∧ u.isActive = true) ∧ ¬ r.Takes spelling admin db u

/-- The handlers' own check spares the caller, as long as the row is spelled like theirs when
it is theirs. -/
theorem leavesAdmin_revocation {spelling : Spelling} {r : AdminRequest} {email : String}
    (hr : r = .deleteAdmin id ∨ ∃ isActive, r = .setAdminActive id isActive)
    (hpasses : (authenticateAdmin email).exec w = (.ok admin, w))
    (hspelled : ∀ row ∈ rowForId w.db id, row.email = admin.email →
      spelling.text row = spelling.text admin) : r.LeavesAdmin spelling admin w.db := by
  obtain ⟨-, hadmin, hflag, hactive⟩ := exec_authenticateAdmin hpasses
  refine ⟨admin, hadmin, ⟨hflag, hactive⟩, fun htakes => ?_⟩
  have hnot : ¬ ∃ row ∈ rowForId w.db id,
      spelling.text row ≠ spelling.text admin ∧ admin.email = row.email := by
    rintro ⟨row, hrow, hother, hemail⟩
    exact hother (hspelled row hrow hemail.symm)
  rcases hr with rfl | ⟨isActive, rfl⟩
  · exact hnot htakes
  · exact hnot htakes.2

/-! ### What a request leaves -/

/-- An `UPDATE` that keeps the flags of the row. -/
theorem hasAdmin_update {p : User → Bool} {f : User → User} {hf : Table.Keyless f}
    (hu : u ∈ db.users) (hflag : u.isPlatformAdmin = true) (hactive : u.isActive = true)
    (hkeeps : p u = true → (f u).isPlatformAdmin = true ∧ (f u).isActive = true) :
    HasAdmin { db with users := db.users.update p f hf } := by
  have hmem : (if p u then f u else u) ∈ db.users.update p f hf := Table.mem_update.mpr ⟨u, hu, rfl⟩
  refine ⟨_, hmem, ?_⟩
  by_cases hp : p u = true
  · rw [if_pos hp]
    exact hkeeps hp
  · rw [if_neg hp]
    exact ⟨hflag, hactive⟩

theorem hasAdmin_flagAccount {email : String} {flag : Bool} (hu : u ∈ db.users)
    (hflag : u.isPlatformAdmin = true) (hactive : u.isActive = true)
    (hspared : flag = false → u.email ≠ email) : HasAdmin (flagAccount email flag db) := by
  refine hasAdmin_update hu hflag hactive fun hp => ?_
  cases flag with
  | true => exact ⟨rfl, hactive⟩
  | false => exact absurd (beq_iff_eq.mp hp) (hspared rfl)

theorem hasAdmin_setAdminActive {spelling : Spelling} {isActive : Bool} (hu : u ∈ w.db.users)
    (hflag : u.isPlatformAdmin = true) (hactive : u.isActive = true)
    (hspared : ¬ (AdminRequest.setAdminActive id isActive).Takes spelling admin w.db u) :
    HasAdmin ((setAdminActive spelling id isActive admin).exec w).2.db := by
  have hadmin : HasAdmin w.db := ⟨u, hu, hflag, hactive⟩
  unfold setAdminActive
  rw [exec_query_bind]
  cases hrow : rowForId w.db id with
  | none => exact hadmin
  | some row =>
    dsimp only
    split
    · exact hadmin
    · rename_i hself
      rw [update, Prog.exec_write_bind]
      refine hasAdmin_flagAccount hu hflag hactive fun hoff hemail => ?_
      exact hspared ⟨hoff, row, hrow, fun htext => hself ⟨htext, hoff⟩, hemail⟩

theorem hasAdmin_deleteAdmin {spelling : Spelling} (hu : u ∈ w.db.users)
    (hflag : u.isPlatformAdmin = true) (hactive : u.isActive = true)
    (hspared : ¬ (AdminRequest.deleteAdmin id).Takes spelling admin w.db u) :
    HasAdmin ((deleteAdmin spelling id admin).exec w).2.db := by
  have hadmin : HasAdmin w.db := ⟨u, hu, hflag, hactive⟩
  unfold deleteAdmin
  rw [exec_query_bind]
  cases hrow : rowForId w.db id with
  | none => exact hadmin
  | some row =>
    dsimp only
    split
    · exact hadmin
    · rename_i hself
      rw [update, Prog.exec_write_bind]
      exact hasAdmin_flagAccount hu hflag hactive fun _ hemail => hspared ⟨row, hrow, hself, hemail⟩

theorem hasAdmin_updateUser {spelling : Spelling} {data : UserChange} (hu : u ∈ w.db.users)
    (hflag : u.isPlatformAdmin = true) (hactive : u.isActive = true)
    (hspared : ¬ (AdminRequest.updateUser id data).Takes spelling admin w.db u) :
    HasAdmin ((updateUser id data).exec w).2.db := by
  by_cases hrole : (data.role.any fun role => (tenantRole? role).isNone) = true
  · unfold updateUser
    rw [if_pos hrole]
    exact ⟨u, hu, hflag, hactive⟩
  rcases updateUser_cases id data w with h | h
  · rw [h]
    exact ⟨u, hu, hflag, hactive⟩
  · rw [h]
    refine hasAdmin_update hu hflag hactive fun hp => ⟨hflag, ?_⟩
    change data.isActive.getD u.isActive = true
    cases hdata : data.isActive with
    | none => exact hactive
    | some b =>
      cases b with
      | true => rfl
      | false => exact absurd ⟨hdata, by simpa using hrole, beq_iff_eq.mp hp⟩ hspared

theorem db_deleteUser {email : String} (hemail : emailOfUserId w.db id = some email) :
    ((deleteUser cfg id).exec w).2 = ((purgeAccount cfg email).exec w).2 := by
  unfold deleteUser
  rw [Prog.exec_tryCatch_snd, exec_query_bind, hemail]
  · dsimp only
    rw [Prog.exec_bind]
    rcases (purgeAccount cfg email).exec w with ⟨e | r, w'⟩
    · rfl
    · rcases r with e | result
      · cases e <;> rfl
      · rfl
  · intro e w'
    cases e <;> exact ⟨_, rfl⟩

theorem hasAdmin_deleteUser {spelling : Spelling} (hu : u ∈ w.db.users)
    (hflag : u.isPlatformAdmin = true) (hactive : u.isActive = true)
    (hspared : ¬ (AdminRequest.deleteUser id).Takes spelling admin w.db u) :
    HasAdmin ((deleteUser cfg id).exec w).2.db := by
  cases hemail : emailOfUserId w.db id with
  | none =>
    unfold deleteUser
    rw [Prog.exec_tryCatch, exec_query_bind, hemail]
    exact ⟨u, hu, hflag, hactive⟩
  | some email =>
    rw [db_deleteUser hemail]
    rcases purgeAccount_cases cfg email false w with hsame | ⟨db₁, hplain, hleft, htx, hdb⟩
    · rw [hsame]
      exact ⟨u, hu, hflag, hactive⟩
    · have hplain : isPlatformAdminEmail w.db email = false := by simpa using hplain
      have hne : u.email ≠ email := by
        intro heq
        have hany : isPlatformAdminEmail w.db email = true :=
          List.any_eq_true.mpr ⟨u, hu, by simp [heq, hflag]⟩
        rw [hany] at hplain
        cases hplain
      have hstays : ∀ n, u.tenantId = some n → n ∉ w.db.owned email := fun n hn howned =>
        hspared ⟨email, hemail, hplain, by rw [htx]; rfl, n, hn, howned⟩
      rw [hdb]
      exact ⟨u, mem_users_purgedDb hleft hu hne hstays, hflag, hactive⟩

theorem hasAdmin_deleteWorkspace {spelling : Spelling} (hu : u ∈ w.db.users)
    (hflag : u.isPlatformAdmin = true) (hactive : u.isActive = true)
    (hspared : ¬ (AdminRequest.deleteWorkspace id).Takes spelling admin w.db u) :
    HasAdmin ((deleteWorkspace id).exec w).2.db := by
  have hadmin : HasAdmin w.db := ⟨u, hu, hflag, hactive⟩
  have hrethrow : ∀ e w', ∃ e',
      (internalError e : Handler (Reply Unit)).exec w' = (.error e', w') := by
    intro e w'
    cases e <;> exact ⟨_, rfl⟩
  unfold deleteWorkspace
  rw [Prog.exec_tryCatch_snd hrethrow, Prog.exec_bind, deletion, Prog.exec_step]
  cases herase : w.db.erase { tenant := fun t => t.id == id } with
  | none => exact hadmin
  | some db' =>
    obtain ⟨-, rfl⟩ := Db.erase_eq_some_iff.mp herase
    have hstays : u ∈ (w.db.erased { tenant := fun t => t.id == id }).users := by
      refine Table.mem_delete.mpr ⟨hu, ?_⟩
      rw [← Bool.not_eq_true, Db.goneUser_iff]
      rintro ⟨v, hv, hid, hgone⟩
      obtain rfl : v = u := Table.eq_of_id hv hu hid
      rcases hgone with hgone | ⟨n, hn, hgone⟩
      · cases hgone
      · obtain ⟨t, -, rfl, ht⟩ := Db.goneTenant_iff.mp hgone
        exact hspared ⟨by rw [herase]; rfl, by rw [hn, beq_iff_eq.mp ht]⟩
    dsimp only
    split
    · exact ⟨u, hstays, hflag, hactive⟩
    · exact ⟨u, hstays, hflag, hactive⟩

/-- A request that leaves an admin row leaves the panel open. -/
theorem hasAdmin_serve {spelling : Spelling} {r : AdminRequest}
    (h : r.LeavesAdmin spelling admin w.db) :
    HasAdmin (r.serve cfg crypto spelling admin w).db := by
  -- the request leaves the admin `u` alone
  obtain ⟨u, hu, ⟨hflag, hactive⟩, hspared⟩ := h
  cases r with
  | setAdminActive id isActive => exact hasAdmin_setAdminActive hu hflag hactive hspared
  | deleteAdmin id => exact hasAdmin_deleteAdmin hu hflag hactive hspared
  | createAdmin data salt =>
    simp only [AdminRequest.serve]
    rcases createAdmin_cases crypto data salt w with h | ⟨users, row, -, husers, h⟩ | ⟨email, h⟩
    · rw [h]
      exact ⟨u, hu, hflag, hactive⟩
    · rw [h]
      exact ⟨u, (husers u).mpr (.inl hu), hflag, hactive⟩
    · rw [h]
      exact hasAdmin_update hu hflag hactive fun _ => ⟨rfl, hactive⟩
  | updateUser id data => exact hasAdmin_updateUser hu hflag hactive hspared
  | deleteUser id => exact hasAdmin_deleteUser hu hflag hactive hspared
  | resetUserPassword id newPassword salt =>
    have hwithin : Prog.Within (fun w w' => HasAdmin w.db → HasAdmin w'.db)
        (resetUserPassword crypto id newPassword salt) := by
      refine .ite (.throw _) (.bind (.read (fun _ h => h) _) fun email => ?_)
      cases email with
      | none => exact .throw _
      | some email =>
        refine .bind (.write fun w h => ?_) fun _ => .bind (.write fun w h => h) fun _ => .pure _
        obtain ⟨v, hv, hvflag, hvactive⟩ := h
        exact hasAdmin_update hv hvflag hvactive fun _ => ⟨hvflag, hvactive⟩
    exact hwithin.exec (fun _ h => h) (fun _ _ _ h h' h₀ => h' (h h₀)) w ⟨u, hu, hflag, hactive⟩
  | deleteWorkspace id => exact hasAdmin_deleteWorkspace hu hflag hactive hspared
  | updateWorkspace id data =>
    simp only [AdminRequest.serve]
    rcases updateWorkspace_cases id data w with h | h
    · rw [h]
      exact ⟨u, hu, hflag, hactive⟩
    · rw [h]
      exact ⟨u, hu, hflag, hactive⟩

/-! ### Runs -/

/-- A request by a caller who passes `authenticateAdmin` at that moment, and which leaves an
admin row. -/
inductive AdminStep (cfg : Config) (crypto : Crypto) (spelling : Spelling) (w : World) :
    World → Prop where
  | serve (email : String) (admin : User) (r : AdminRequest)
    (hpasses : (authenticateAdmin email).exec w = (.ok admin, w))
    (hleaves : r.LeavesAdmin spelling admin w.db) :
    AdminStep cfg crypto spelling w (r.serve cfg crypto spelling admin w)

/-- Somebody can still pass `authenticateAdmin` after every sequence of requests that each
leave an admin row. -/
theorem hasAdmin_of_run {spelling : Spelling} {w₀ : World} (h : HasAdmin w₀.db)
    (hrun : Relation.ReflTransGen (AdminStep cfg crypto spelling) w₀ w) :
    ∃ email admin, (authenticateAdmin email).exec w = (.ok admin, w) := by
  refine hasAdmin_iff_passes.mp ?_
  induction hrun with
  | refl => exact h
  | tail _ hstep ih =>
    cases hstep with
    | serve email admin r hpasses hleaves => exact hasAdmin_serve hleaves

/-! ### Ada and Bob -/

/-- Every row is spelled as it is compared. -/
def Spelling.plain : Spelling where
  text := User.email
  email_eq _ _ h := h

def adaAdmin : User := { id := 1, email := "ada@example.com", isPlatformAdmin := true }

def bobAdmin : User := { id := 2, email := "bob@example.com", isPlatformAdmin := true }

/-- Ada and Bob run the panel. -/
def twoAdmins : World where
  db :=
    { users :=
        { rows := [adaAdmin, bobAdmin], next := 3, id_lt := by decide, nodup := by decide
          noClash := by decide } }

/-- Ada runs it alone. -/
def oneAdmin : World where
  db :=
    { users :=
        { rows := [adaAdmin], next := 2, id_lt := by decide, nodup := by decide
          noClash := by decide } }

/-- Ada revokes Bob's role and switches his row off. -/
theorem hasAdmin_of_run_ada : ∃ w : World,
    (¬ ∃ u ∈ w.db.users, u.email = "bob@example.com" ∧ u.isActive = true) ∧
      ∃ email admin, (authenticateAdmin email).exec w = (.ok admin, w) := by
  let revoke : AdminRequest := .deleteAdmin 2
  let switchOff : AdminRequest := .updateUser 2 { isActive := some false }
  let w₁ := revoke.serve .paddleDemo .plain .plain adaAdmin twoAdmins
  have hrevoke : revoke.LeavesAdmin .plain adaAdmin twoAdmins.db :=
    leavesAdmin_revocation (.inl rfl)
      (rfl : (authenticateAdmin "ada@example.com").exec twoAdmins = (.ok adaAdmin, twoAdmins))
      fun _ _ h => h
  have hswitchOff : switchOff.LeavesAdmin .plain adaAdmin w₁.db :=
    ⟨adaAdmin, List.mem_cons_self, by decide, fun h => absurd h.2.2 (by decide)⟩
  have hrun : Relation.ReflTransGen (AdminStep .paddleDemo .plain .plain) twoAdmins
      (switchOff.serve .paddleDemo .plain .plain adaAdmin w₁) :=
    .tail (.single (.serve "ada@example.com" adaAdmin revoke rfl hrevoke))
      (.serve "ada@example.com" adaAdmin switchOff rfl hswitchOff)
  exact ⟨_, by decide, hasAdmin_of_run (by decide) hrun⟩

/-- The only admin switches her own row off. -/
theorem last_admin_switches_herself_off :
    HasAdmin oneAdmin.db ∧
      (authenticateAdmin "ada@example.com").exec oneAdmin = (.ok adaAdmin, oneAdmin) ∧
        ¬ ∃ email admin, (authenticateAdmin email).exec
          ((AdminRequest.updateUser 1 { isActive := some false }).serve .paddleDemo .plain .plain
            adaAdmin oneAdmin) = (.ok admin, (AdminRequest.updateUser 1
              { isActive := some false }).serve .paddleDemo .plain .plain adaAdmin oneAdmin) := by
  refine ⟨by decide, rfl, ?_⟩
  rw [← hasAdmin_iff_passes]
  decide

end Feedbase
