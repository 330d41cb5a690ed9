import Feedbase.Users.PasswordReset

/-!
# Setting passwords

The signed-in user's own change, the platform admin's reset, and the grant of the
platform-admin role, which signs a new person up with a password.

## Main definitions

* `changeUserPassword`, `resetUserPassword`, `createAdmin`
-/

namespace Feedbase

/-! ### The user's own -/

/-- An account that has a password must prove it; one that has none sets its first. -/
def provesPassword (crypto : Crypto) (user : User) (oldPassword : String) : Handler Unit :=
  match orNull user.passwordHash with
  | none => pure ()
  | some hash =>
    if oldPassword = "" then reject 400 "old_password_and_new_password_is_required"
    else if crypto.compare oldPassword hash = false then reject 400 "password_mismatched"
    else pure ()

/-- `updateUserPasswordQuery`: by address, not by row. -/
def updateUserPasswordQuery (email hash : String) : Handler Bool :=
  Prog.atomic fun w =>
    (.ok (w.db.users.rows.any (·.email == email)),
      { w with db := setPasswordHash email hash w.db })

def changeUserPassword (crypto : Crypto) (oldPassword newPassword salt : String)
    (auth : AuthData) : Handler (Reply Unit) :=
  if newPassword = "" then reject 400 "old_password_and_new_password_is_required"
  else do
    match ← query fun db => db.users.rows.find? fun u => u.id == auth.id && u.isActive with
    | none => reject 400 "user_not_found"
    | some user => do
      provesPassword crypto user oldPassword
      let updated ← updateUserPasswordQuery auth.email (crypto.hash salt newPassword)
      if updated then resolve 200 "password_updated_successfully" ()
      else reject 400 "failed_to_change_password"

/-! ### The platform admin's -/

/-- The address behind a row. -/
def emailOfUserId (db : Db) (id : Nat) : Option String :=
  orNull ((db.users.byId id).map User.email)

def resetUserPassword (crypto : Crypto) (id : Nat) (newPassword salt : String) :
    Handler (Reply Unit) :=
  if lengthUnits newPassword < 8 then reject 400 "password_too_short"
  else do
    match ← query fun db => emailOfUserId db id with
    | none => reject 404 "user_not_found"
    | some email => do
      update (setPasswordHash email (crypto.hash salt newPassword))
      update fun db => { db with userSessions := db.userSessions.delete (·.email == email) }
      resolve 200 "password_reset" ()

/-- The body of `createAdmin`. -/
structure AdminData where
  email : String
  fullName : String
  password : String := ""
  deriving DecidableEq

/-- The new person's part of `createAdmin`. -/
def insertAdmin (crypto : Crypto) (email fullName password salt : String) : Handler (Reply Unit) :=
  if lengthUnits password < 8 then reject 400 "password_too_short"
  else do
    tryCatch
      (keyed fun db => (db.users.insert? fun id =>
        { id := id
          email := email
          passwordHash := some (crypto.hash salt password)
          fullName := fullName
          isPlatformAdmin := true }).map fun users => { db with users := users })
      (failWith "internal_server_error")
    resolve 201 "admin_created" ()

/-- `SET is_platform_admin = 1`. -/
def User.promote (u : User) : User := { u with isPlatformAdmin := true }

/-- Grant the role to an account, or sign a new person up with it. -/
def createAdmin (crypto : Crypto) (data : AdminData) (salt : String) : Handler (Reply Unit) := do
  let email := trim (toLowerCase data.email)
  let fullName := trim data.fullName
  if isEmail email = false then reject 400 "invalid_email"
  else if fullName = "" then reject 400 "nothing_to_update"
  else
    match ← query fun db => db.users.rows.filter (·.email == email) with
    | [] => insertAdmin crypto email fullName data.password salt
    | rows =>
      if rows.any User.isPlatformAdmin then reject 400 "admin_email_taken"
      else do
        update fun db =>
          { db with users := db.users.update (·.email == email) User.promote }
        resolve 200 "admin_created" ()

/-- `createAdmin` changes nothing, adds the first row of its address, or sets flags. -/
theorem createAdmin_cases (crypto : Crypto) (data : AdminData) (salt : String) (w : World) :
    ((createAdmin crypto data salt).exec w).2 = w ∨
      (∃ users row, (∀ u ∈ w.db.users, u.email ≠ row.email) ∧
        (∀ u, u ∈ users ↔ u ∈ w.db.users ∨ u = row) ∧
          ((createAdmin crypto data salt).exec w).2 = { w with db := { w.db with users := users } }) ∨
      ∃ email, ((createAdmin crypto data salt).exec w).2 =
        { w with db := { w.db with
            users := w.db.users.update (·.email == email) User.promote } } := by
  unfold createAdmin
  dsimp only
  generalize trim (toLowerCase data.email) = email
  generalize trim data.fullName = fullName
  split
  · exact .inl rfl
  split
  · exact .inl rfl
  rw [exec_query_bind]
  cases hrows : w.db.users.rows.filter (·.email == email) with
  -- a known address is promoted, or refused when it is an admin already
  | cons u rows =>
    dsimp only
    split
    · exact .inl rfl
    · exact .inr (.inr ⟨email, rfl⟩)
  | nil =>
    have hnew : ∀ u ∈ w.db.users, u.email ≠ email := fun u hu =>
      by simpa using List.filter_eq_nil_iff.mp hrows u hu
    dsimp only [insertAdmin]
    split
    · exact .inl rfl
    rw [Prog.exec_bind, Prog.exec_tryCatch, exec_keyed]
    cases hins : w.db.users.insert? fun id =>
        ({ id := id, email := email, passwordHash := some (crypto.hash salt data.password)
           fullName := fullName, isPlatformAdmin := true } : User) with
    | none => exact .inl rfl
    | some users =>
      exact .inr (.inl ⟨users, _, hnew, fun _ => Sql.Table.mem_insert? hins, rfl⟩)

end Feedbase
