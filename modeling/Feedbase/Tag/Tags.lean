import Feedbase.Roadmap.RoadmapSync

/-!
# Tags

A workspace has tags, no two of one name, and puts them on posts. That a post or a tag exists is
all that the foreign keys of a label ask; a tag that is deleted takes its labels along.

## Main definitions

* `createTag`, `updateTag`, `deleteTag`
* `addTagToPost`, `removeTagFromPost`
-/

namespace Feedbase

/-! ### Statements -/

/-- `WHERE id = ? AND tenant_id = ?`. -/
def Tag.isAt (tenantId : Option Nat) (id : Nat) (t : Tag) : Bool :=
  t.id == id && tenantId == some t.tenantId

/-- `SET name = ?, color_hex = ?`. -/
def Tag.edited (name : String) (colorHex : Option String) (t : Tag) : Tag :=
  { t with name := name, colorHex := colorHex }

/-- `WHERE tenant_id = ? AND post_id = ? AND tag_id = ?`. -/
def PostTag.joins (tenantId : Option Nat) (postId tagId : Nat) (t : PostTag) : Bool :=
  tenantId == some t.tenantId && t.postId == postId && t.tagId == tagId

namespace Db

def insertTag (db : Db) (tenantId : Nat) (name : String) (colorHex : Option String) :
    Option (Nat × Db) :=
  if (db.tenants.byId tenantId).isNone then none
  else
    (db.tags.insert? fun id => ({ id, tenantId, name, colorHex } : Tag)).map fun tags =>
      (db.tags.next, { db with tags := tags })

/-- Whether a row was found; `none` when it is to have no name, or that of another tag. -/
def editTag (db : Db) (tenantId : Option Nat) (id : Nat) (name colorHex : Option String) :
    Option (Bool × Db) :=
  if db.tags.rows.any (Tag.isAt tenantId id) then
    name.bind fun name =>
      (db.tags.update? (Tag.isAt tenantId id) (Tag.edited name colorHex)).map fun tags =>
        (true, { db with tags := tags })
  else some (false, db)

/-- `DELETE FROM tags`, with the labels that name the tag. -/
def deleteTag (db : Db) (tenantId : Option Nat) (id : Nat) : Db :=
  { db with
    tags := db.tags.delete (Tag.isAt tenantId id)
    postTags := db.postTags.delete fun pt =>
      db.tags.rows.any fun t => t.id == pt.tagId && Tag.isAt tenantId id t }

/-- The workspace, the post and the tag that a new label names exist. -/
def canLabel (db : Db) (tenantId postId tagId : Nat) : Bool :=
  (db.tenants.byId tenantId).isSome && (db.posts.byId postId).isSome &&
    (db.tags.byId tagId).isSome

def newLabel (tenantId postId tagId id : Nat) : PostTag := { id, tenantId, postId, tagId }

def label (db : Db) (tenantId postId tagId : Nat) : Option Db :=
  (db.postTags.insert? (newLabel tenantId postId tagId)).map fun labels =>
    { db with postTags := labels }

def unlabel (db : Db) (tenantId : Option Nat) (postId tagId : Nat) : Db :=
  { db with postTags := db.postTags.delete (PostTag.joins tenantId postId tagId) }

end Db

/-! ### The requests -/

/-- A name that is missing makes the statement throw, as does a caller without a workspace. -/
def createTag (name colorHex : Option String) (auth : AuthData) : Handler (Reply Nat) :=
  tryCatch (do
    match auth.tenantId, name with
    | some tenantId, some name =>
      let id ← boardStatement fun db => db.insertTag tenantId name (orNull colorHex)
      resolve 201 "tag_created_successfully" id
    | _, _ => throw .error) (failWith "failed_to_create_tag")

def updateTag (id : Nat) (name colorHex : Option String) (auth : AuthData) :
    Handler (Reply Unit) :=
  tryCatch (do
    let found ← boardStatement fun db => db.editTag auth.tenantId id name colorHex
    if found = false then reject 404 "tag_not_found"
    else resolve 200 "tag_updated_successfully" ()) (failWith "failed_to_update_tag")

def deleteTag (id : Nat) (auth : AuthData) : Handler (Reply Unit) :=
  tryCatch (do
    let found ← Prog.atomic fun w =>
      (.ok (w.db.tags.rows.any (Tag.isAt auth.tenantId id)),
        { w with db := w.db.deleteTag auth.tenantId id })
    if found = false then reject 404 "tag_not_found"
    else resolve 200 "tag_deleted_successfully" ()) (failWith "failed_to_delete_tag")

/-- A key that leads nowhere throws another error than a label that is there. -/
def addTagToPost (postId tagId : Nat) (auth : AuthData) : Handler (Reply Unit) :=
  tryCatch (do
    match auth.tenantId with
    | none => throw .error
    | some tenantId =>
      let _ ← Prog.atomic fun w =>
        if w.db.canLabel tenantId postId tagId = false then (.error .error, w)
        else
          match w.db.label tenantId postId tagId with
          | none => (.error .duplicate, w)
          | some db => (.ok (), { w with db := db })
      resolve 201 "tag_added_to_post_successfully" ())
    fun
    | .duplicate => reject 400 "tag_already_added"
    | e => failWith "failed_to_add_tag_to_post" e

def removeTagFromPost (postId tagId : Nat) (auth : AuthData) : Handler (Reply Unit) :=
  tryCatch (do
    let found ← Prog.atomic fun w =>
      (.ok (w.db.postTags.rows.any (PostTag.joins auth.tenantId postId tagId)),
        { w with db := w.db.unlabel auth.tenantId postId tagId })
    if found = false then reject 404 "tag_not_found_on_post"
    else resolve 200 "tag_removed_from_post_successfully" ())
    (failWith "failed_to_remove_tag_from_post")

end Feedbase
