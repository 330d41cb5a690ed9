import Feedbase.Server
import Feedbase.Users.Workspaces

/-!
# Signing up and changing members

`registerNewUser`, and the two endpoints that change a member's role or active flag:
the workspace owner's and the platform admin's.

## Main definitions

* `registerNewUser`, `updateUser`, `updateUserRole`
-/

namespace Feedbase

/-- The body of `registerNewUser`, with the password already hashed. -/
structure SignUp where
  fullName : String
  email : String
  contact : Option String := none
  password : String
  deriving DecidableEq

/-- `placeholderImagePath`. -/
def placeholderImagePath : String := "uploads/placeholder/placeholder-image.png"

/-- An account has no workspace until it creates or joins one. -/
def registerNewUser (data : SignUp) : Handler (Reply Unit) :=
  tryCatch
    (do
      let duplicate ← query fun db => db.users.rows.any fun u => u.email == data.email
      if duplicate then reject 400 "email_has_already_exist"
      else do
        keyed fun db => (db.users.insert? fun id =>
          { id := id
            email := data.email
            passwordHash := some data.password
            fullName := data.fullName
            contactNo := orNull data.contact
            avatarUrl := some placeholderImagePath }).map fun users => { db with users := users }
        resolve 200 "sign_up_is_successful" ())
    fun
      | .rejected code key => reject code key
      | _ => reject 500 "internal_server_error"

/-- `registerNewUser` changes nothing, or adds the first row of its address. -/
theorem registerNewUser_cases (data : SignUp) (w : World) :
    ((registerNewUser data).exec w).2 = w ∨
      ∃ users row, (∀ u ∈ w.db.users, u.email ≠ data.email) ∧ row.email = data.email ∧
        (∀ u, u ∈ users ↔ u ∈ w.db.users ∨ u = row) ∧
          ((registerNewUser data).exec w).2 = { w with db := { w.db with users := users } } := by
  unfold registerNewUser
  rw [Prog.exec_tryCatch, exec_query_bind]
  by_cases hdup : (w.db.users.rows.any fun u => u.email == data.email) = true
  · rw [if_pos hdup]
    exact .inl rfl
  rw [if_neg hdup, Prog.exec_bind, exec_keyed]
  cases hins : w.db.users.insert? fun id =>
      ({ id := id, email := data.email, passwordHash := some data.password
         fullName := data.fullName, contactNo := orNull data.contact
         avatarUrl := some placeholderImagePath } : User) with
  | none => exact .inl rfl
  | some users =>
    refine .inr ⟨users, _, fun u hu hemail => hdup ?_, rfl, fun _ => Sql.Table.mem_insert? hins, rfl⟩
    exact List.any_eq_true.mpr ⟨u, hu, beq_iff_eq.mpr hemail⟩

/-- `TENANT_ROLES.includes(role)`. -/
def tenantRole? (role : String) : Option Role :=
  if role = "owner" then some .owner else if role = "user" then some .user else none

/-- The body of `updateUser`. -/
structure UserChange where
  fullName : Option String := none
  role : Option String := none
  isActive : Option Bool := none
  deriving DecidableEq

/-- The row after the `UPDATE`. -/
def UserChange.apply (d : UserChange) (u : User) : User :=
  { u with
    fullName := (d.fullName.map trim).getD u.fullName
    role := (d.role.bind tenantRole?).getD u.role
    isActive := d.isActive.getD u.isActive }

/-- `UPDATE users SET … WHERE …` of columns outside every index; whether a row matched. -/
def setUsers (p : User → Bool) (f : User → User)
    (hf : Sql.Table.Keyless f := by exact ⟨fun _ => rfl, fun _ _ => rfl⟩) : Handler Bool :=
  Prog.atomic fun w =>
    (.ok (w.db.users.rows.any p),
      { w with db := { w.db with users := w.db.users.update p f hf } })

theorem exec_setUsers_bind {p : User → Bool} {f : User → User} {hf : Sql.Table.Keyless f}
    {found : Handler (Reply Unit)} {missing : Handler (Reply Unit)} (w : World)
    (hfound : ∀ w, (found.exec w).2 = w) (hmissing : ∀ w, (missing.exec w).2 = w) :
    ((setUsers p f hf >>= fun b => if b then found else missing).exec w).2 =
      { w with db := { w.db with users := w.db.users.update p f hf } } := by
  rw [Prog.exec_bind, setUsers, Prog.exec_atomic]
  dsimp only
  split
  · exact hfound _
  · exact hmissing _

/-- `updateUser` of the admin area. -/
def updateUser (id : Nat) (data : UserChange) : Handler (Reply Unit) :=
  if data.role.any fun role => (tenantRole? role).isNone then reject 400 "invalid_role"
  else if data = {} then reject 400 "nothing_to_update"
  else do
    let found ← setUsers (fun u => u.id == id) data.apply
    if found then resolve 200 "user_updated" () else reject 404 "user_not_found"

theorem updateUser_cases (id : Nat) (data : UserChange) (w : World) :
    ((updateUser id data).exec w).2 = w ∨
      ((updateUser id data).exec w).2 =
        { w with db := { w.db with users := w.db.users.update (fun u => u.id == id) data.apply } } := by
  unfold updateUser
  split
  · exact .inl rfl
  split
  · exact .inl rfl
  · exact .inr (exec_setUsers_bind w (fun _ => rfl) fun _ => rfl)

/-- A row of the actor's workspace. -/
def inTenant (tenantId : Option Nat) (u : User) : Bool :=
  tenantId.isSome && u.tenantId == tenantId

/-- An id in a path: its text, and the number MySQL compares with the column. Several
texts may stand for one number. -/
structure PathId where
  text : String
  number : Option Nat
  number_eq : ∀ n, text = toString n → number = some n

/-- The text that the handler compares with. -/
def PathId.isText (userId : PathId) (u : User) : Bool := toString u.id == userId.text

/-- The row that the database selects. -/
def PathId.selects (userId : PathId) (u : User) : Bool := userId.number == some u.id

theorem PathId.selects_of_isText {userId : PathId} {u : User} (h : userId.isText u = true) :
    userId.selects u = true :=
  beq_iff_eq.mpr (userId.number_eq u.id (beq_iff_eq.mp h).symm)

/-- The owners of the caller's workspace. -/
def tenantOwners (db : Db) (tenantId : Option Nat) : List User :=
  db.users.rows.filter fun u => inTenant tenantId u && u.role == .owner

/-- An owner whose id is written in another way than the one in the path. -/
def hasOtherOwner (db : Db) (tenantId : Option Nat) (userId : PathId) : Bool :=
  (tenantOwners db tenantId).any fun o => !userId.isText o

/-- `updateUserRole`: the owner changes a member's role; a workspace keeps one owner. -/
def updateUserRole (userId : PathId) (role : String) (auth : AuthData) : Handler (Reply Unit) :=
  if auth.role ≠ .owner then reject 403 "insufficient_permissions"
  else
    match tenantRole? role with
    | none => reject 400 "invalid_role"
    | some newRole => do
      let owners ← query fun db => tenantOwners db auth.tenantId
      let otherOwner := owners.any fun o => !userId.isText o
      -- ids are compared as texts, with the one in the path
      if newRole = .owner ∧ otherOwner then reject 400 "workspace_already_has_owner"
      else if newRole = .user ∧ otherOwner = false ∧ owners.any userId.isText then
        reject 400 "workspace_needs_an_owner"
      else do
        let found ← setUsers (fun u => userId.selects u && inTenant auth.tenantId u) fun u =>
          { u with role := newRole }
        if found then resolve 200 "user_role_updated_successfully" ()
        else reject 404 "user_not_found"

/-- `updateUserRole` changes nothing, or sets a role that its two checks let through. -/
theorem updateUserRole_cases (userId : PathId) (role : String) (auth : AuthData) (w : World) :
    ((updateUserRole userId role auth).exec w).2 = w ∨
      ∃ newRole, tenantRole? role = some newRole ∧
        (newRole = .owner → hasOtherOwner w.db auth.tenantId userId = false) ∧
        (newRole = .user → hasOtherOwner w.db auth.tenantId userId = true ∨
          tenantOwners w.db auth.tenantId = []) ∧
        ((updateUserRole userId role auth).exec w).2 =
          { w with
            db := { w.db with
              users := w.db.users.update (fun u => userId.selects u && inTenant auth.tenantId u)
                fun u => { u with role := newRole } } } := by
  unfold updateUserRole
  split
  · exact .inl rfl
  split
  · exact .inl rfl
  rename_i newRole hrole
  rw [exec_query_bind]
  dsimp only
  split
  · exact .inl rfl
  rename_i hsecond
  split
  · exact .inl rfl
  rename_i hlast
  refine .inr ⟨newRole, hrole, fun howner => ?_, fun huser => ?_,
    exec_setUsers_bind w (fun _ => rfl) fun _ => rfl⟩
  · by_contra hother
    exact hsecond ⟨howner, by simpa [hasOtherOwner] using hother⟩
  · -- the last owner is refused, unless the workspace has none
    by_cases hother : hasOtherOwner w.db auth.tenantId userId = true
    · exact .inl hother
    · refine .inr ?_
      have hother : hasOtherOwner w.db auth.tenantId userId = false := by simpa using hother
      cases howners : tenantOwners w.db auth.tenantId with
      | nil => rfl
      | cons o owners =>
        refine absurd ⟨huser, hother, ?_⟩ hlast
        unfold hasOtherOwner at hother
        have hmem : o ∈ tenantOwners w.db auth.tenantId := by simp [howners]
        have htext : userId.isText o = true := by simpa using List.any_eq_false.mp hother o hmem
        exact List.any_eq_true.mpr ⟨o, hmem, htext⟩

end Feedbase
