import Feedbase.Common.AccountPurge
import Feedbase.Users.Invitations
import Feedbase.Users.PasswordReset

/-!
# Every workspace has one owner

Creating a workspace gives it an owner row, accepting an invitation adds members, a purge
deletes the workspaces of the rows it deletes, and `updateUserRole` looks at the owners
before it writes. The admin's `updateUser` writes any role, and `updateUserRole` compares
the text of the user id where the database compares its number.

## Main definitions

* `OneOwner`
* `OwnerRequest`, `OwnerStep` — the handlers that write roles or delete owners
* `OwnerRequest.KeepsRoles` — the condition on a request

## Main results

* `hasOneOwner_update`, `oneOwner_insertWorkspace`, `oneOwner_purgedDb`
* `oneOwner_of_run` — every workspace has exactly one owner
* `updateUser_leaves_no_owner`, `padded_id_leaves_no_owner`
-/

namespace Feedbase

open Sql

variable {cfg : Config} {crypto : Crypto} {w w' : World} {db db' : Db} {id : Nat} {u v : User}

/-! ### Owner rows -/

/-- The row of an owner of the workspace. -/
def User.OwnerOf (id : Nat) (u : User) : Prop := u.tenantId = some id ∧ u.role = .owner

instance (id : Nat) (u : User) : Decidable (u.OwnerOf id) := inferInstanceAs (Decidable (_ ∧ _))

/-- Exactly one row is the workspace's owner. -/
def HasOneOwner (db : Db) (id : Nat) : Prop :=
  ∃ o ∈ db.users, o.OwnerOf id ∧ ∀ u ∈ db.users, u.OwnerOf id → u = o

instance (db : Db) (id : Nat) : Decidable (HasOneOwner db id) :=
  inferInstanceAs (Decidable (∃ o ∈ db.users, _ ∧ ∀ u ∈ db.users, _))

def OneOwner (db : Db) : Prop := ∀ t ∈ db.tenants, HasOneOwner db t.id

instance (db : Db) : Decidable (OneOwner db) := inferInstanceAs (Decidable (∀ t ∈ db.tenants, _))

/-- The workspace has the same owner rows. -/
theorem HasOneOwner.congr (h : HasOneOwner db id)
    (hrows : ∀ u, u.OwnerOf id → (u ∈ db'.users ↔ u ∈ db.users)) : HasOneOwner db' id := by
  obtain ⟨o, ho, howner, hone⟩ := h
  refine ⟨o, (hrows o howner).mpr ho, howner, fun u hu hu' => ?_⟩
  exact hone u ((hrows u hu').mp hu) hu'

/-- An `UPDATE` of columns that leave every member's role as it is. -/
theorem hasOneOwner_update {p : User → Bool} {f : User → User} {hf : Table.Keyless f}
    (htenant : ∀ u, (f u).tenantId = u.tenantId)
    (hrole : ∀ u ∈ db.users, p u = true → u.tenantId.isSome → (f u).role = u.role)
    (h : HasOneOwner db id) : HasOneOwner { db with users := db.users.update p f hf } id := by
  let set (u : User) : User := if p u then f u else u
  have hset : ∀ u ∈ db.users, (set u).OwnerOf id ↔ u.OwnerOf id := by
    intro u hu
    dsimp only [set]
    by_cases hp : p u = true
    · rw [if_pos hp]
      unfold User.OwnerOf
      rw [htenant]
      refine and_congr_right fun hid => ?_
      rw [hrole u hu hp (by rw [hid]; rfl)]
    · rw [if_neg hp]
  obtain ⟨o, ho, howner, hone⟩ := h
  have hmem : set o ∈ db.users.update p f hf := Table.mem_update.mpr ⟨o, ho, rfl⟩
  refine ⟨set o, hmem, (hset o ho).mpr howner, fun u hu hu' => ?_⟩
  have hu : u ∈ db.users.update p f hf := hu
  obtain ⟨v, hv, rfl⟩ := Table.mem_update.mp hu
  rw [hone v hv ((hset v hv).mp hu')]

theorem oneOwner_update {p : User → Bool} {f : User → User} {hf : Table.Keyless f}
    (htenant : ∀ u, (f u).tenantId = u.tenantId)
    (hrole : ∀ u ∈ db.users, p u = true → u.tenantId.isSome → (f u).role = u.role)
    (h : OneOwner db) : OneOwner { db with users := db.users.update p f hf } :=
  fun t ht => hasOneOwner_update htenant hrole (h t ht)

/-! ### A new workspace -/

/-- The owner row of a new workspace is the account's row without a workspace, or a new
one. -/
theorem claimOwner_spec {users U : Table User} {account : User} {tenantId i : Nat}
    (haccount : account ∈ users) (h : claimOwner users account tenantId = some (i, U)) :
    ∃ o, o.OwnerOf tenantId ∧
      ∀ u, u ∈ U ↔ (u ∈ users ∧ (u = account → account.tenantId ≠ none)) ∨ u = o := by
  unfold claimOwner at h
  split at h
  · -- an account without a workspace gets the row it has, any other gets a new one
    rename_i hpending
    obtain ⟨T, hT, heq⟩ := Option.map_eq_some_iff.mp h
    cases heq
    refine ⟨{ account with tenantId := some tenantId, role := .owner }, ⟨rfl, rfl⟩, fun u => ?_⟩
    rw [Table.mem_update? hT]
    constructor
    · rintro ⟨v, hv, rfl⟩
      by_cases hid : v.id = account.id
      · obtain rfl : v = account := Table.eq_of_id hv haccount hid
        rw [if_pos (beq_self_eq_true _)]
        exact .inr rfl
      · rw [if_neg (by simpa using hid)]
        exact .inl ⟨hv, fun heq => absurd (congrArg User.id heq) hid⟩
    · rintro (⟨hu, hne⟩ | rfl)
      · have hid : u.id ≠ account.id := fun hid => hne (Table.eq_of_id hu haccount hid) hpending
        exact ⟨u, hu, by rw [if_neg (by simpa using hid)]⟩
      · exact ⟨account, haccount, by rw [if_pos (beq_self_eq_true _)]⟩
  · rename_i hmember
    obtain ⟨T, hT, heq⟩ := Option.map_eq_some_iff.mp h
    cases heq
    refine ⟨{ id := users.next, tenantId := some tenantId, email := account.email
              passwordHash := account.passwordHash, fullName := account.fullName, role := .owner
              avatarUrl := account.avatarUrl }, ⟨rfl, rfl⟩, fun u => ?_⟩
    rw [Table.mem_insert? hT]
    exact or_congr_left ⟨fun hu => ⟨hu, fun _ => hmember⟩, And.left⟩

theorem oneOwner_insertWorkspace {name subdomain : String} {website : Option String}
    {account : User} {r : NewWorkspace} (hrefer : UsersReferTenants db) (h : OneOwner db)
    (haccount : account ∈ db.users)
    (hinsert : insertWorkspace name subdomain website account db = some (r, db')) :
    OneOwner db' := by
  obtain ⟨T, U, C, hT, hU, rfl⟩ := insertWorkspace_spec hinsert
  obtain ⟨o, ho, hmem⟩ := claimOwner_spec haccount hU
  -- no row refers to the id the workspace is about to get
  have hfresh : ∀ u ∈ db.users, u.tenantId ≠ some db.tenants.next := by
    intro u hu htenant
    obtain ⟨t, ht, hid⟩ := hrefer u hu _ htenant
    exact Nat.ne_of_lt (db.tenants.id_lt t ht) hid
  have hold : ∀ n, n ≠ db.tenants.next → HasOneOwner db n →
      HasOneOwner (mirrorAccountToTenants (insertIgnoreAccount
        { db with tenants := T, users := U } account.email) account.email) n := by
    intro n hne hone
    refine hone.congr fun u hu => ?_
    change u ∈ U ↔ u ∈ db.users
    rw [hmem]
    constructor
    · rintro (⟨hu', -⟩ | rfl)
      · exact hu'
      · exact absurd (Option.some.inj (hu.1.symm.trans ho.1)) hne
    · intro hu'
      refine .inl ⟨hu', ?_⟩
      rintro rfl hnone
      rw [hu.1] at hnone
      cases hnone
  intro t ht
  obtain ⟨s, hs, rfl⟩ := mem_tenants_mirror.mp ht
  -- the mirror sets the plan only
  have hid : (if s.isActive && ownsTenant (insertIgnoreAccount
      { db with tenants := T, users := U } account.email) account.email s.id then
        s.setPlan (accountOf (insertIgnoreAccount
          { db with tenants := T, users := U } account.email) account.email).mirrored
      else s).id = s.id := by
    split
    · rfl
    · rfl
  rw [hid]
  rcases (hT s).mp hs with hs | rfl
  · exact hold s.id (Nat.ne_of_lt (db.tenants.id_lt s hs)) (h s hs)
  · refine ⟨o, (hmem o).mpr (.inr rfl), ho, fun u hu hu' => ?_⟩
    rcases (hmem u).mp hu with ⟨hold, -⟩ | rfl
    · exact absurd hu'.1 (hfresh u hold)
    · rfl

/-! ### A new member -/

theorem openInvitation_tenant {now : Time} {token : String} {inv : Invitation} {tenant : Tenant}
    (h : openInvitation db now token = some (inv, tenant)) :
    tenant ∈ db.tenants ∧ tenant.id = inv.tenantId := by
  obtain ⟨i, -, h⟩ := Option.bind_eq_some_iff.mp h
  obtain ⟨t, ht, h⟩ := Option.bind_eq_some_iff.mp h
  cases h
  exact Table.byId_eq_some_iff.mp ht

/-- A member joins, who is not an owner. -/
theorem joinWorkspace_spec {inv : Invitation} {fullName : String}
    {passwordHash avatarUrl : Option String}
    (h : joinWorkspace inv fullName passwordHash avatarUrl db = some db') :
    db'.tenants = db.tenants ∧ ∃ row, row.tenantId = some inv.tenantId ∧ row.role = .user ∧
      ∀ u, u ∈ db'.users ↔ u ∈ db.users ∨ u = row := by
  obtain ⟨users, hins, rfl⟩ := Option.map_eq_some_iff.mp h
  exact ⟨rfl, _, rfl, rfl, fun _ => Table.mem_insert? hins⟩

theorem oneOwner_joinWorkspace {inv : Invitation} {fullName : String}
    {passwordHash avatarUrl : Option String} (h : OneOwner db)
    (hjoin : joinWorkspace inv fullName passwordHash avatarUrl db = some db') : OneOwner db' := by
  obtain ⟨htenants, row, -, hrole, husers⟩ := joinWorkspace_spec hjoin
  intro t ht
  rw [htenants] at ht
  refine (h t ht).congr fun u hu => ?_
  rw [husers]
  refine or_iff_left ?_
  rintro rfl
  rw [hu.2] at hrole
  cases hrole

theorem refer_joinWorkspace {now : Time} {token fullName : String} {inv : Invitation}
    {tenant : Tenant} {passwordHash avatarUrl : Option String} (h : UsersReferTenants db)
    (hopen : openInvitation db now token = some (inv, tenant))
    (hjoin : joinWorkspace inv fullName passwordHash avatarUrl db = some db') :
    UsersReferTenants db' := by
  obtain ⟨htenants, row, hrow, -, husers⟩ := joinWorkspace_spec hjoin
  obtain ⟨htenant, hid⟩ := openInvitation_tenant hopen
  intro u hu n hn
  rw [htenants]
  rcases (husers u).mp hu with hu | rfl
  · exact h u hu n hn
  · exact ⟨tenant, htenant, hid.trans (Option.some.inj (hrow.symm.trans hn))⟩

/-! ### A purge -/

section Purge

variable {db₁ : Db} {email : String}

theorem tenants_purgedDb (hleft : Left db (db.members email) db₁) {t : Tenant} :
    t ∈ (purgedDb db db₁ email).tenants ↔ t ∈ db.tenants ∧ t.id ∉ db.owned email := by
  change t ∈ (db₁.tenants.delete _).delete _ ↔ _
  rw [Table.mem_delete, Table.mem_delete, hleft.tenants]
  simp

/-- A row of another account stays, unless its workspace goes. -/
theorem mem_users_purgedDb (hleft : Left db (db.members email) db₁) (hu : u ∈ db.users)
    (hemail : u.email ≠ email) (howned : ∀ n, u.tenantId = some n → n ∉ db.owned email) :
    u ∈ (purgedDb db db₁ email).users := by
  have hu₁ : u ∈ db₁.users := hleft.mem_users_iff.mpr ⟨hu, fun hm => hemail (mem_members.mp hm).2⟩
  have hstays : db₁.goneUser (ownedSelection (db.owned email)) u.id = false := by
    rw [← Bool.not_eq_true, Db.goneUser_iff]
    rintro ⟨v, hv, hid, hgone⟩
    obtain rfl : v = u := Table.eq_of_id hv hu₁ hid
    rcases hgone with hgone | ⟨n, hn, hgone⟩
    · cases hgone
    · obtain ⟨t, -, rfl, ht⟩ := Db.goneTenant_iff.mp hgone
      exact howned t.id hn (List.contains_iff_mem.mp ht)
  have hu₂ : u ∈ (db₁.erased (ownedSelection (db.owned email))).users :=
    Table.mem_delete.mpr ⟨hu₁, hstays⟩
  refine Table.mem_delete.mpr ⟨hu₂, ?_⟩
  rw [← Bool.not_eq_true, goneUser_iff_of_users fun _ => rfl]
  rintro ⟨v, hv, hid, hgone⟩
  obtain rfl : v = u := Table.eq_of_id hv hu₂ hid
  exact hemail (beq_iff_eq.mp hgone)

/-- The purge deletes the account's rows, and every row of the workspaces it owns. -/
theorem users_purgedDb (hleft : Left db (db.members email) db₁) (hrefer : UsersReferTenants db) :
    u ∈ (purgedDb db db₁ email).users ↔
      u ∈ db.users ∧ u.email ≠ email ∧ ∀ n, u.tenantId = some n → n ∉ db.owned email := by
  refine ⟨fun hmem => ?_, fun ⟨hu, hemail, howned⟩ => mem_users_purgedDb hleft hu hemail howned⟩
  change u ∈ (db₁.users.delete _).delete _ at hmem
  rw [Table.mem_delete, Table.mem_delete, hleft.goneUser_owned hrefer, hleft.goneUser_email hrefer,
    hleft.mem_users_iff] at hmem
  obtain ⟨⟨⟨hu, hmember⟩, howned⟩, hloose⟩ := hmem
  have hstays : doomed db email u.id = false := by
    rw [doomed, howned, hloose]
    rfl
  refine ⟨hu, fun hemail => ?_, fun n hn hmem => ?_⟩
  · rw [doomed_of_account hu hemail hmember] at hstays
    cases hstays
  · rw [(doomed_iff hu).mpr (.inl ⟨n, hn, hmem⟩)] at hstays
    cases hstays

theorem oneOwner_purgedDb (hleft : Left db (db.members email) db₁) (hrefer : UsersReferTenants db)
    (h : OneOwner db) : OneOwner (purgedDb db db₁ email) := by
  intro t ht
  obtain ⟨ht, hstays⟩ := (tenants_purgedDb hleft).mp ht
  refine (h t ht).congr fun u hu => ?_
  rw [users_purgedDb hleft hrefer]
  refine ⟨And.left, fun hmem => ⟨hmem, fun hemail => ?_, fun n hn howned => ?_⟩⟩
  · -- an owner row of the account would have taken the workspace with it
    exact hstays (mem_owned.mpr ⟨u, hmem, hemail, hu.2, hu.1⟩)
  · rw [hu.1] at hn
    exact hstays (Option.some.inj hn ▸ howned)

theorem refer_purgedDb (hleft : Left db (db.members email) db₁) (hrefer : UsersReferTenants db) :
    UsersReferTenants (purgedDb db db₁ email) := by
  intro u hu n hn
  obtain ⟨hu, -, hstays⟩ := (users_purgedDb hleft hrefer).mp hu
  obtain ⟨t, ht, hid⟩ := hrefer u hu n hn
  exact ⟨t, (tenants_purgedDb hleft).mpr ⟨ht, hid ▸ hstays n hn⟩, hid⟩
end Purge

/-! ### Runs -/

/-- The requests that write roles, add members, or delete owners. -/
inductive OwnerRequest where
  | createWorkspace (data : WorkspaceData) (auth : AuthData)
  | acceptNew (token fullName password salt sessionId : String)
  | acceptExisting (token : String) (auth : AuthData)
  | updateUserRole (userId : PathId) (role : String) (auth : AuthData)
  | updateUser (id : Nat) (data : UserChange)
  | purgeAccount (email : String) (allowPlatformAdmin : Bool)

/-- The world after the request has run to completion. -/
def OwnerRequest.serve (cfg : Config) (crypto : Crypto) (w : World) : OwnerRequest → World
  | .createWorkspace data auth => ((Feedbase.createWorkspace data auth).exec w).2
  | .acceptNew token fullName password salt sessionId =>
    ((acceptInvitationAsNewUser crypto token fullName password salt sessionId).exec w).2
  | .acceptExisting token auth => ((acceptInvitationAsExistingUser token auth).exec w).2
  | .updateUserRole userId role auth => ((Feedbase.updateUserRole userId role auth).exec w).2
  | .updateUser id data => ((Feedbase.updateUser id data).exec w).2
  | .purgeAccount email allowPlatformAdmin =>
    ((Feedbase.purgeAccount cfg email allowPlatformAdmin).exec w).2

/-- The admin changes no member's role, and an owner who is to become a member is named by
the text the code compares with. -/
def OwnerRequest.KeepsRoles (db : Db) : OwnerRequest → Prop
  | .updateUser id data =>
    ∀ u ∈ db.users, u.id = id → u.tenantId.isSome → (data.apply u).role = u.role
  | .updateUserRole userId role auth =>
    tenantRole? role = some .user → ∀ u ∈ db.users, userId.selects u = true →
      inTenant auth.tenantId u = true → u.role = .owner → userId.isText u = true
  | _ => True

/-- Under its checks `updateUserRole` writes no role but the one that is there. -/
theorem updateUserRole_keeps {userId : PathId} {role : String} {auth : AuthData} {newRole : Role}
    (hrefer : UsersReferTenants db) (h : OneOwner db)
    (hkeeps : (OwnerRequest.updateUserRole userId role auth).KeepsRoles db)
    (hrole : tenantRole? role = some newRole)
    (hpromote : newRole = .owner → hasOtherOwner db auth.tenantId userId = false)
    (hdemote : newRole = .user → hasOtherOwner db auth.tenantId userId = true ∨
      tenantOwners db auth.tenantId = [])
    (hu : u ∈ db.users) (hp : (userId.selects u && inTenant auth.tenantId u) = true) :
    newRole = u.role := by
  obtain ⟨hselects, hin⟩ := Bool.and_eq_true_iff.mp hp
  have howners : ∀ o, o ∈ tenantOwners db auth.tenantId ↔
      o ∈ db.users ∧ inTenant auth.tenantId o = true ∧ o.role = .owner := by
    intro o
    simp only [tenantOwners, List.mem_filter, Bool.and_eq_true, beq_iff_eq, Table.mem_def]
  have hownerOf : ∀ o, inTenant auth.tenantId o = true → o.tenantId = u.tenantId := by
    intro o ho
    obtain ⟨-, hou⟩ := Bool.and_eq_true_iff.mp ho
    obtain ⟨-, huu⟩ := Bool.and_eq_true_iff.mp hin
    rw [beq_iff_eq.mp hou, beq_iff_eq.mp huu]
  obtain ⟨n, hn⟩ : ∃ n, u.tenantId = some n := by
    obtain ⟨hsome, hut⟩ := Bool.and_eq_true_iff.mp hin
    rw [beq_iff_eq.mp hut]
    exact Option.isSome_iff_exists.mp hsome
  obtain ⟨t, ht, rfl⟩ := hrefer u hu n hn
  obtain ⟨o, ho, howner, hone⟩ := h t ht
  have hoin : inTenant auth.tenantId o = true := by
    unfold inTenant at hin ⊢
    rw [howner.1, ← hn]
    exact hin
  cases newRole with
  -- no other owner, so the row that is promoted is the owner
  | owner =>
    have htext : userId.isText o = true := by
      have hnone := hpromote rfl
      simpa using List.any_eq_false.mp hnone o ((howners o).mpr ⟨ho, hoin, howner.2⟩)
    have hnumber : userId.number = some o.id := beq_iff_eq.mp (PathId.selects_of_isText htext)
    have hid : o.id = u.id := Option.some.inj (hnumber.symm.trans (beq_iff_eq.mp hselects))
    rw [← Table.eq_of_id ho hu hid, howner.2]
  | user =>
    by_contra hne
    have hurole : u.role = .owner := by
      cases hr : u.role with
      | owner => rfl
      | user => exact absurd hr.symm hne
    rcases hdemote rfl with hother | hnone
    · -- the other owner is this one, whose id was written in another way
      obtain ⟨v, hv, hvtext⟩ := List.any_eq_true.mp hother
      obtain ⟨hv, hvin, hvrole⟩ := (howners v).mp hv
      obtain rfl : v = u := (hone v hv ⟨(hownerOf v hvin).trans hn, hvrole⟩).trans
        (hone u hu ⟨hn, hurole⟩).symm
      have htext := hkeeps hrole v hu hselects hin hurole
      rw [htext] at hvtext
      cases hvtext
    · have hmem := (howners u).mpr ⟨hu, hin, hurole⟩
      rw [hnone] at hmem
      cases hmem

/-- A request that keeps the roles keeps one owner in every workspace. -/
theorem oneOwner_serve {r : OwnerRequest} (hrefer : UsersReferTenants w.db) (h : OneOwner w.db)
    (hkeeps : r.KeepsRoles w.db) :
    UsersReferTenants (r.serve cfg crypto w).db ∧ OneOwner (r.serve cfg crypto w).db := by
  cases r with
  | createWorkspace data auth =>
    simp only [OwnerRequest.serve]
    rcases createWorkspace_cases data auth w with
      hsame | ⟨name, subdomain, website, account, r, db', hbyId, -, hinsert, hw'⟩
    · rw [hsame]
      exact ⟨hrefer, h⟩
    · have haccount := (Table.byId_eq_some_iff.mp hbyId).1
      rw [hw']
      exact ⟨refer_insertWorkspace hrefer haccount hinsert,
        oneOwner_insertWorkspace hrefer h haccount hinsert⟩
  | acceptNew token fullName password salt sessionId =>
    simp only [OwnerRequest.serve]
    rcases acceptInvitationAsNewUser_cases crypto token fullName password salt sessionId w with
      hsame | ⟨inv, tenant, hash, db', sessions, hopen, -, hjoin, hw'⟩
    · rw [hsame]
      exact ⟨hrefer, h⟩
    · have hrefer' : UsersReferTenants db' := refer_joinWorkspace hrefer hopen hjoin
      have hone : OneOwner db' := oneOwner_joinWorkspace h hjoin
      rw [hw']
      exact ⟨hrefer', hone⟩
  | acceptExisting token auth =>
    simp only [OwnerRequest.serve]
    rcases acceptInvitationAsExistingUser_cases token auth w with
      hsame | ⟨inv, tenant, account, db', hopen, -, -, hjoin, hw'⟩
    · rw [hsame]
      exact ⟨hrefer, h⟩
    · rw [hw']
      exact ⟨refer_joinWorkspace hrefer hopen hjoin, oneOwner_joinWorkspace h hjoin⟩
  | updateUserRole userId role auth =>
    simp only [OwnerRequest.serve]
    rcases updateUserRole_cases userId role auth w with
      hsame | ⟨newRole, hrole, hpromote, hdemote, hw'⟩
    · rw [hsame]
      exact ⟨hrefer, h⟩
    · rw [hw']
      refine ⟨refer_of_users (fun _ => rfl) hrefer, oneOwner_update (fun _ => rfl) ?_ h⟩
      intro u hu hp _
      exact updateUserRole_keeps hrefer h hkeeps hrole hpromote hdemote hu hp
  | updateUser id data =>
    simp only [OwnerRequest.serve]
    rcases updateUser_cases id data w with hsame | hw'
    · rw [hsame]
      exact ⟨hrefer, h⟩
    · rw [hw']
      refine ⟨refer_of_users (fun _ => rfl) hrefer, oneOwner_update (fun _ => rfl) ?_ h⟩
      intro u hu hp htenant
      exact hkeeps u hu (beq_iff_eq.mp hp) htenant
  | purgeAccount email allowPlatformAdmin =>
    simp only [OwnerRequest.serve]
    rcases purgeAccount_cases cfg email allowPlatformAdmin w with
      hsame | ⟨db₁, -, hleft, -, hdb⟩
    · rw [hsame]
      exact ⟨hrefer, h⟩
    · rw [hdb]
      exact ⟨refer_purgedDb hleft hrefer, oneOwner_purgedDb hleft hrefer h⟩

/-- The same workspaces with the same members. -/
structure SameMembers (db db' : Db) : Prop where
  tenants : ∀ n, (∃ t ∈ db'.tenants, t.id = n) ↔ ∃ t ∈ db.tenants, t.id = n
  users : ∀ u, u.tenantId.isSome → (u ∈ db'.users ↔ u ∈ db.users)

theorem SameMembers.oneOwner (hsame : SameMembers db db') (hrefer : UsersReferTenants db)
    (h : OneOwner db) : UsersReferTenants db' ∧ OneOwner db' := by
  constructor
  · intro u hu n hn
    have hmember : u.tenantId.isSome := by
      rw [Option.mem_def.mp hn]
      rfl
    exact (hsame.tenants n).mpr (hrefer u ((hsame.users u hmember).mp hu) n hn)
  · intro t ht
    obtain ⟨s, hs, hid⟩ := (hsame.tenants t.id).mp ⟨t, ht, rfl⟩
    have hone := h s hs
    rw [hid] at hone
    exact hone.congr fun u hu => hsame.users u (by rw [hu.1]; rfl)

/-- A request that meets its condition, run to completion, or a change that concerns no
member: a sign-up, an invitation, the passing of time. -/
inductive OwnerStep (cfg : Config) (crypto : Crypto) (w : World) : World → Prop where
  | serve (r : OwnerRequest) (hkeeps : r.KeepsRoles w.db) :
    OwnerStep cfg crypto w (r.serve cfg crypto w)
  | other (w' : World) (hsame : SameMembers w.db w'.db) : OwnerStep cfg crypto w w'

/-- Every workspace has exactly one owner, in every state reached by requests that meet
their conditions. -/
theorem oneOwner_of_run {w₀ : World} (hrefer : UsersReferTenants w₀.db) (h : OneOwner w₀.db)
    (hrun : Relation.ReflTransGen (OwnerStep cfg crypto) w₀ w) : OneOwner w.db := by
  have hboth : UsersReferTenants w.db ∧ OneOwner w.db := by
    induction hrun with
    | refl => exact ⟨hrefer, h⟩
    | tail _ hstep ih =>
      cases hstep with
      | serve r hkeeps => exact oneOwner_serve ih.1 ih.2 hkeeps
      | other _ hsame => exact hsame.oneOwner ih.1 ih.2
  exact hboth.2

/-! ### Acme -/

/-- An id in digits, some of which may be leading zeros. -/
def PathId.ofDigits (digits : List Char) : PathId where
  text := String.ofList digits
  number := some (Nat.ofDigitChars 10 digits 0)
  number_eq n h := by
    have hdigits : digits = Nat.toDigits 10 n := by
      rw [← String.toList_ofList (l := digits), h]
      exact Nat.toList_repr
    rw [hdigits, Nat.ofDigitChars_ten_toDigits]

/-- Ada has signed up and is about to create Acme. -/
def adaHasSignedUp : World where
  db :=
    { users := (Table.empty.insert? fun id =>
        ({ id := id, email := "ada@example.com", passwordHash := some "$2b$10$" } : User)).getD
          .empty }

def adaSignedIn (role : Role) (tenantId : Option Nat) : AuthData where
  id := 1
  tenantId := tenantId
  role := role
  email := "ada@example.com"

def foundAcme : OwnerRequest :=
  .createWorkspace { name := "Acme", subdomain := "acme" } (adaSignedIn .user none)

/-- Ada asks to become a member of her own workspace. -/
def stepDown (digits : List Char) : OwnerRequest :=
  .updateUserRole (.ofDigits digits) "user" (adaSignedIn .owner (some 1))

/-- Ada cannot step down, and the admin may rename her. -/
theorem oneOwner_of_run_acme : OneOwner
    (([foundAcme, stepDown ['1'], .updateUser 1 { fullName := some "Ada L." }] :
      List OwnerRequest).foldl (OwnerRequest.serve .paddleDemo .plain) adaHasSignedUp).db := by
  have hstart : UsersReferTenants adaHasSignedUp.db ∧ OneOwner adaHasSignedUp.db := by decide
  have hnamed : (stepDown ['1']).KeepsRoles
      (foundAcme.serve .paddleDemo .plain adaHasSignedUp).db := by
    intro _ u _ hselects _ _
    have hid : u.id = 1 := (Option.some.inj (beq_iff_eq.mp hselects)).symm
    exact beq_iff_eq.mpr (by rw [hid]; rfl)
  have hrun : Relation.ReflTransGen (OwnerStep .paddleDemo .plain) adaHasSignedUp
      (([foundAcme, stepDown ['1'], .updateUser 1 { fullName := some "Ada L." }] :
        List OwnerRequest).foldl (OwnerRequest.serve .paddleDemo .plain) adaHasSignedUp) :=
    .tail (.tail (.single (.serve foundAcme trivial)) (.serve (stepDown ['1']) hnamed))
      (.serve (.updateUser 1 { fullName := some "Ada L." }) fun _ _ _ _ => rfl)
  exact oneOwner_of_run hstart.1 hstart.2 hrun

/-- The admin makes the owner a member. -/
theorem updateUser_leaves_no_owner : OneOwner adaHasSignedUp.db ∧ ¬ OneOwner
    (([foundAcme, .updateUser 1 { role := some "user" }] : List OwnerRequest).foldl
      (OwnerRequest.serve .paddleDemo .plain) adaHasSignedUp).db := by
  decide

/-- With a zero before her id, Ada is not recognised as the owner. -/
theorem padded_id_leaves_no_owner : OneOwner adaHasSignedUp.db ∧ ¬ OneOwner
    (([foundAcme, stepDown ['0', '1']] : List OwnerRequest).foldl
      (OwnerRequest.serve .paddleDemo .plain) adaHasSignedUp).db := by
  decide

end Feedbase
