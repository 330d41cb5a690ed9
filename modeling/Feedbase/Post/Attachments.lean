import Feedbase.Common.WriteCounters
import Feedbase.Post.Inserts

/-!
# Attachments

A file is uploaded before its post exists, so its row has no post at first. The handler that
inserts the post then claims the rows whose ids the client sends.

## Main definitions

* `storeAttachment`, `attachToPost`, `createPost`
* `attachable` — the ids that are looked at

## Main results

* `length_attachable_le` — no more than the cap
-/

namespace Feedbase

def imageMimeTypes : List String :=
  ["image/png", "image/jpeg", "image/jpg", "image/webp", "image/gif"]

def videoMimeTypes : List String := ["video/mp4", "video/webm", "video/quicktime"]

def IMAGE_MAX_BYTES : Nat := 10 * 1024 * 1024

def VIDEO_MAX_BYTES : Nat := 50 * 1024 * 1024

def MAX_ATTACHMENTS_PER_POST : Nat := 3

def kindForMime (mime : String) : Option AttachmentKind :=
  if imageMimeTypes.contains mime then some .image
  else if videoMimeTypes.contains mime then some .video else none

def AttachmentKind.maxBytes : AttachmentKind → Nat
  | .image => IMAGE_MAX_BYTES
  | .video => VIDEO_MAX_BYTES

def AttachmentKind.tooLarge : AttachmentKind → String
  | .image => "attachment_image_too_large"
  | .video => "attachment_video_too_large"

structure UploadedFile where
  mimetype : String
  size : Nat
  originalName : Option String

/-- `INSERT INTO post_attachments`, with `post_id` `NULL`. -/
def insertAttachment (tenantId : Nat) (kind : AttachmentKind) (storagePath : String)
    (file : UploadedFile) : Handler Nat :=
  call .postAttachmentsInsert fun w =>
    if (w.db.tenants.byId tenantId).isNone then none
    else
      (w.db.postAttachments.insert? fun id =>
        ({ id, tenantId, kind, storagePath, mimeType := file.mimetype, sizeBytes := file.size
           originalName := orNull (file.originalName.map (sliceUnits 255)) } :
          PostAttachment)).map fun attachments =>
            (w.db.postAttachments.next, { w with db := { w.db with postAttachments := attachments } })

/-- `storagePath` is where the file was written. -/
def storeAttachment (file : Option UploadedFile) (tenantId : Nat) (storagePath : String) :
    Handler (Reply Nat) :=
  match file with
  | none => reject 400 "attachment_required"
  | some f =>
    match kindForMime f.mimetype with
    | none => reject 400 "invalid_attachment_type"
    | some kind =>
      if f.size > kind.maxBytes then reject 400 kind.tooLarge
      else
        tryCatch (do
          let id ← insertAttachment tenantId kind storagePath f
          resolve 201 "attachment_uploaded" id)
            fun _ => reject 500 "failed_to_upload_attachment"

/-- What the request sends as `attachmentIds`: `none` when it is no array, and an entry is
`none` when it is no integer. -/
abbrev AttachmentIds := Option (List (Option Int))

/-- The ids that are looked at. -/
def attachable (attachmentIds : AttachmentIds) : List Nat :=
  ((attachmentIds.getD []).filterMap fun n => (n.filter (0 < ·)).map Int.toNat).take
    MAX_ATTACHMENTS_PER_POST

theorem length_attachable_le (attachmentIds : AttachmentIds) :
    (attachable attachmentIds).length ≤ MAX_ATTACHMENTS_PER_POST := List.length_take_le _ _

/-- `WHERE tenant_id = ? AND post_id IS NULL AND id IN (?)`. -/
def PostAttachment.isClaimed (tenantId : Option Nat) (ids : List Nat) (a : PostAttachment) : Bool :=
  tenantId == some a.tenantId && a.postId.isNone && ids.contains a.id

def PostAttachment.linkedTo (postId : Nat) (a : PostAttachment) : PostAttachment :=
  { a with postId := some postId }

theorem PostAttachment.keyless_linkedTo (postId : Nat) :
    Sql.Table.Keyless (PostAttachment.linkedTo postId) := ⟨fun _ => rfl, fun _ _ => rfl⟩

/-- `UPDATE post_attachments SET post_id = ?`. -/
def Db.link (db : Db) (tenantId : Option Nat) (ids : List Nat) (postId : Nat) : Db :=
  { db with
    postAttachments := db.postAttachments.update (PostAttachment.isClaimed tenantId ids)
      (PostAttachment.linkedTo postId) (PostAttachment.keyless_linkedTo postId) }

/-- How many were linked; never throws. -/
def attachToPost (attachmentIds : AttachmentIds) (postId : Nat) (tenantId : Option Nat) :
    Handler Nat :=
  let ids := attachable attachmentIds
  if ids = [] then return 0
  else
    tryCatch (call .postAttachmentsUpdate fun w =>
      if (w.db.posts.byId postId).isNone &&
          w.db.postAttachments.rows.any (PostAttachment.isClaimed tenantId ids) then none
      else
        some (w.db.postAttachments.rows.countP (PostAttachment.isClaimed tenantId ids),
          { w with db := w.db.link tenantId ids postId })) fun _ => return 0

structure PostData where
  title : String
  description : String
  postType : Option PostType := none
  status : Option PostStatus := none
  priority : Option Nat := none
  attachmentIds : AttachmentIds := none

/-- The row of a post that a member of the team writes. -/
def PostData.row (data : PostData) (auth : AuthData) : NewPost where
  tenantId := auth.tenantId
  authorId := some auth.id
  title := data.title
  description := data.description
  postType := data.postType.getD .feedback
  status := data.status.getD .open
  priority := (data.priority.filter (· ≠ 0)).getD 3

def createPost (data : PostData) (auth : AuthData) : Handler (Reply Nat) :=
  tryCatch (do
    let id ← insertPost (data.row auth)
    let _ ← attachToPost data.attachmentIds id auth.tenantId
    resolve 201 "post_created_successfully" id) (failWith "failed_to_create_post")

end Feedbase
