import Feedbase.Users.InvitationSteps

/-!
# Inviting

Sending an invitation and revoking one. The plan limits the members besides the owner
together with the invitations that are still open; `createInvitation` counts the two in
separate statements before it inserts. The contents of the mail are left out.

## Main definitions

* `memberCount`, `pendingCount` — the two sides of the seat limit
* `createInvitation`, `revokeInvitation`
-/

namespace Feedbase

/-- `INVITE_TTL_DAYS`, in seconds. -/
def inviteSeconds : Time := 7 * 24 * 60 * 60

/-- The format, and what a lookup of the domain's mail exchangers says. -/
def isDeliverableEmail (hasMx : Bool) (email : String) : Bool := isEmail email && hasMx

/-- The active members besides the owner. -/
def memberCount (db : Db) (tenantId : Nat) : Nat :=
  db.users.rows.countP fun u => u.tenantId == some tenantId && u.isActive && u.role != .owner

/-- The pending invitations that have not expired. -/
def pendingCount (db : Db) (now : Time) (tenantId : Nat) : Nat :=
  db.invitations.rows.countP fun i =>
    i.tenantId == tenantId && i.status == .pending && decide (now < i.expiresAt)

/-- Whether the plan has a seat left: the plan and the two counts are three statements. -/
def hasSeatLeft (tenantId : Nat) : Handler Bool := do
  let plan ← getTenantPlan tenantId
  match (getPlanLimits plan).seats with
  | none => return true
  | some seats => do
    let members ← query fun db => memberCount db tenantId
    let pending ← Prog.read fun w => pendingCount w.db w.now tenantId
    return decide (members + pending < seats)

/-- The row of a new invitation. -/
def newInvitation (tenantId invitedBy : Nat) (email token : String) (expiresAt : Time) (id : Nat) :
    Invitation where
  id := id
  tenantId := tenantId
  email := email
  token := token
  invitedBy := some invitedBy
  expiresAt := expiresAt

/-- `INSERT INTO invitations`; the foreign key reads the row of the workspace and waits for
a transaction that has locked it. -/
def insertInvitation (tenantId invitedBy : Nat) (email token : String) (expiresAt : Time) :
    Handler Nat :=
  Prog.step (fun w => w.free [.tenant tenantId]) fun w =>
    match w.db.tenants.byId tenantId,
        w.db.invitations.insert? (newInvitation tenantId invitedBy email token expiresAt) with
    | some _, some invitations =>
      (.ok w.db.invitations.next, { w with db := { w.db with invitations := invitations } })
    | none, _ => (.error .error, w)
    | _, none => (.error .duplicate, w)

/-- What the reply names. -/
structure InvitationSent where
  id : Nat
  email : String
  expiresAt : Time
  emailSent : Bool
  mailConfigured : Bool
  deriving DecidableEq

/-- The statements of `createInvitation`. -/
def sendInvitation (mail : MailEnv) (tenantId invitedBy : Nat) (email token : String) :
    Handler (Reply InvitationSent) := do
  let member ← query fun db =>
    db.users.rows.any fun u => u.tenantId == some tenantId && u.email == email
  if member then reject 400 "already_a_member"
  else do
    -- one that has expired may be sent again
    let existing ← Prog.read fun w => w.db.invitations.rows.any fun i =>
      i.tenantId == tenantId && i.email == email && i.status == .pending &&
        decide (w.now < i.expiresAt)
    if existing then reject 400 "invitation_already_sent"
    else do
      let seatLeft ← hasSeatLeft tenantId
      if seatLeft = false then reject 402 "plan_limit_seats"
      else do
        let now ← getNow
        let id ← insertInvitation tenantId invitedBy email token (now + inviteSeconds)
        let emailSent ← sendEmail mail
        resolve 201 "invitation_sent"
          ⟨id, email, now + inviteSeconds, emailSent, isMailConfigured mail⟩

/-- `createInvitation`; the token is random. Without a workspace the insert fails. -/
def createInvitation (mail : MailEnv) (hasMx : Bool) (email token : String) (auth : AuthData) :
    Handler (Reply InvitationSent) :=
  if auth.role ≠ .owner then reject 403 "insufficient_permissions"
  else
    let email := toLowerCase (trim email)
    if isDeliverableEmail hasMx email = false then reject 400 "invalid_email"
    else
      match auth.tenantId with
      | none => reject 500 "failed_to_send_invitation"
      | some tenantId =>
        tryCatch (sendInvitation mail tenantId auth.id email token)
          (failWith "failed_to_send_invitation")

/-- `SET status = 'revoked'`. -/
def Invitation.revoke (i : Invitation) : Invitation := { i with status := .revoked }

/-- A pending invitation of the workspace. -/
def Invitation.isRevocable (tenantId id : Nat) (i : Invitation) : Bool :=
  i.id == id && i.tenantId == tenantId && i.status == .pending

theorem Invitation.keyless_revoke : Sql.Table.Keyless Invitation.revoke :=
  ⟨fun _ => rfl, fun _ _ => rfl⟩

/-- The world after the `UPDATE` of `revokeInvitation`. -/
def World.invitationRevoked (w : World) (tenantId id : Nat) : World :=
  { w with
    db := { w.db with
      invitations := w.db.invitations.update (Invitation.isRevocable tenantId id)
        Invitation.revoke Invitation.keyless_revoke } }

/-- Whether the `UPDATE` has matched a row; it waits for the row's lock. -/
def updateRevoked (tenantId id : Nat) : Handler Bool :=
  Prog.step (fun w => w.free [.invitation id]) fun w =>
    (.ok (w.db.invitations.rows.any (Invitation.isRevocable tenantId id)),
      w.invitationRevoked tenantId id)

def revokeInvitation (id : Nat) (auth : AuthData) : Handler (Reply Unit) :=
  if auth.role ≠ .owner then reject 403 "insufficient_permissions"
  else
    match auth.tenantId with
    | none => reject 404 "invitation_not_found"
    | some tenantId => do
      let found ← updateRevoked tenantId id
      if found then resolve 200 "invitation_revoked" () else reject 404 "invitation_not_found"

end Feedbase
