import Feedbase.Post.Moderation
import Feedbase.Public.Submissions
import Feedbase.Schema.Prune

/-!
# Editing posts and comments

A member of a workspace may edit and pin its posts, and edit the comments the member has written.
On the portal, who is signed in may edit and delete what the account has written; who wrote it is
looked up first, and the statement that follows does not ask again.

## Main definitions

* `updatePost`, `updatePostPin`, `Admin.setPostPin`, `updateComment`
* `updatePublicPost`, `deletePublicPost`, `updatePublicComment`, `deletePublicComment`
-/

namespace Feedbase

/-! ### In the dashboard -/

/-- The fields of `updatePost`; `postType` is none of the three types when it is missing. -/
structure PostEdit where
  title : Option String := none
  description : Option String := none
  postType : Option PostType := none
  priority : Option Nat := none

def Post.edited (title description : String) (postType : PostType) (priority : Nat) (p : Post) :
    Post :=
  { p with title := title, description := description, postType := postType, priority := priority }

theorem Post.keyless_edited (title description : String) (postType : PostType) (priority : Nat) :
    Sql.Table.Keyless (Post.edited title description postType priority) :=
  ⟨fun _ => rfl, fun _ _ => rfl⟩

/-- A column that is missing makes the statement throw, if there is a row to write it to. -/
def Db.editPost (db : Db) (tenantId : Option Nat) (id : Nat) (e : PostEdit) :
    Option (Option Unit × Db) :=
  if db.posts.rows.any (Post.isAt tenantId id) then
    match e.title, e.description, e.postType, e.priority with
    | some title, some description, some postType, some priority =>
      some (some (), { db with
        posts := db.posts.update (Post.isAt tenantId id)
          (Post.edited title description postType priority)
          (Post.keyless_edited title description postType priority) })
    | _, _, _, _ => none
  else some (none, db)

def updatePost (id : Nat) (e : PostEdit) (auth : AuthData) : Handler (Reply Unit) :=
  affecting .postsUpdate
    (fun w => (w.db.editPost auth.tenantId id e).map fun r => (r.1, { w with db := r.2 }))
    (404, "post_not_found") (200, "post_updated_successfully") "failed_to_update_post"

def Post.pinned (isPinned : Bool) (p : Post) : Post := { p with isPinned := isPinned }

theorem Post.keyless_pinned (isPinned : Bool) : Sql.Table.Keyless (Post.pinned isPinned) :=
  ⟨fun _ => rfl, fun _ _ => rfl⟩

/-- `UPDATE posts SET is_pinned = ?`. -/
def Db.pinPost (db : Db) (tenantId : Option Nat) (id : Nat) (isPinned : Bool) : Db :=
  { db with
    posts := db.posts.update (Post.isAt tenantId id) (Post.pinned isPinned)
      (Post.keyless_pinned isPinned) }

/-- Without `isPinned` the pin is toggled. -/
def updatePostPin (id : Nat) (isPinned : Option Bool) (auth : AuthData) : Handler (Reply Bool) :=
  tryCatch (do
    let post ← selectAt .postsSelect fun db => db.posts.rows.find? (Post.isAt auth.tenantId id)
    match post with
    | none => reject 404 "post_not_found"
    | some p => do
      let nextPinned := isPinned.getD !p.isPinned
      call .postsUpdate fun w =>
        some ((), { w with db := w.db.pinPost auth.tenantId id nextPinned })
      resolve 200 (if nextPinned then "post_pinned_successfully" else "post_unpinned_successfully")
        nextPinned) (failWith "failed_to_update_pin")

def Admin.setPostPin (tenantId postId : Nat) (isPinned : Bool) : Handler (Reply Unit) :=
  affecting .postsUpdate
    (fun w => some (affected w.db.posts.rows (Post.isAt (some tenantId) postId),
      { w with db := w.db.pinPost (some tenantId) postId isPinned }))
    (404, "post_not_found") (200, "post_updated") "internal_server_error"

def Comment.edited (body : String) (c : Comment) : Comment := { c with body := body, isEdited := true }

theorem Comment.keyless_edited (body : String) : Sql.Table.Keyless (Comment.edited body) :=
  ⟨fun _ => rfl, fun _ _ => rfl⟩

/-- `UPDATE comments SET body = ?, is_edited = 1`. -/
def Db.editComments (db : Db) (where? : Comment → Bool) (body : String) : Db :=
  { db with comments := db.comments.update where? (Comment.edited body) (Comment.keyless_edited body) }

/-- `WHERE id = ? AND tenant_id = ? AND author_id = ?`. -/
def Comment.isWrittenBy (auth : AuthData) (id : Nat) (c : Comment) : Bool :=
  c.isAt auth.tenantId id && c.authorId == some auth.id

def updateComment (id : Nat) (body : Option String) (auth : AuthData) : Handler (Reply Unit) :=
  affecting .commentsUpdate
    (fun w =>
      if w.db.comments.rows.any (Comment.isWrittenBy auth id) then
        body.map fun body =>
          (some (), { w with db := w.db.editComments (Comment.isWrittenBy auth id) body })
      else some (none, w))
    (403, "not_your_content") (200, "comment_updated_successfully") "failed_to_update_comment"

/-! ### On the portal -/

/-- The row has an author, and it is the account that is signed in. -/
def owns (authorId : Option Nat) (authUser : Option AuthData) : Bool :=
  authUser.any fun u => authorId == some u.id

/-- What follows for the author of a row, which is looked up first. -/
def forAuthor (author : Except String (Option Nat)) (authUser : Option AuthData)
    (k : Handler (Reply Unit)) : Handler (Reply Unit) :=
  match author with
  | .error missing => reject 404 missing
  | .ok authorId => if owns authorId authUser then k else reject 403 "not_your_content"

/-- `ownedRow("posts", …)`. -/
def postAuthor (db : Db) (tenantId id : Nat) : Except String (Option Nat) :=
  match db.posts.rows.find? (Post.isAt (some tenantId) id) with
  | none => .error "post_not_found"
  | some p => .ok p.authorId

/-- `ownedRow("comments", …)`. -/
def commentAuthor (db : Db) (tenantId id : Nat) : Except String (Option Nat) :=
  match db.comments.rows.find? (Comment.isAt (some tenantId) id) with
  | none => .error "comment_not_found"
  | some c => .ok c.authorId

/-- What the author of a post sends. -/
structure PublicPostEdit where
  title : Option Text := none
  description : Option Text := none
  postType : Option String := none

/-- `POST_TYPES.includes(data?.postType)`; without it the type stays. -/
def Post.publicEdited (title description : String) (postType : Option String) (p : Post) : Post :=
  { p with
    title := title
    description := description
    postType := if postType ∈ [some "feedback", some "feature_request", some "bug_report"] then
      postTypeOf postType else p.postType }

theorem Post.keyless_publicEdited (title description : String) (postType : Option String) :
    Sql.Table.Keyless (Post.publicEdited title description postType) :=
  ⟨fun _ => rfl, fun _ _ => rfl⟩

def Db.publicEditPost (db : Db) (tenantId id : Nat) (title description : String)
    (postType : Option String) : Db :=
  { db with
    posts := db.posts.update (Post.isAt (some tenantId) id)
      (Post.publicEdited title description postType)
      (Post.keyless_publicEdited title description postType) }

def updatePublicPost (tenantId postId : Nat) (data : PublicPostEdit)
    (authUser : Option AuthData) : Handler (Reply Unit) := do
  let author ← selectAt .postsSelect fun db => postAuthor db tenantId postId
  forAuthor author authUser (
    let title := Text.trim (data.title.getD [])
    if title = [] then reject 400 "title_required"
    else do
      call .postsUpdate fun w => some ((), { w with
        db := w.db.publicEditPost tenantId postId (Text.toString title)
          (Text.toString (Text.trim (data.description.getD []))) data.postType })
      resolve 200 "post_updated_successfully" ())

def deletePublicPost (tenantId postId : Nat) (authUser : Option AuthData) :
    Handler (Reply Unit) := do
  let author ← selectAt .postsSelect fun db => postAuthor db tenantId postId
  forAuthor author authUser (do
    call .postsDelete fun w =>
      some ((), { w with db := w.db.prune { post := Post.isAt (some tenantId) postId } })
    resolve 200 "post_deleted_successfully" ())

def updatePublicComment (tenantId commentId : Nat) (body : Option Text)
    (authUser : Option AuthData) : Handler (Reply Unit) := do
  let author ← selectAt .commentsSelect fun db => commentAuthor db tenantId commentId
  forAuthor author authUser (
    let body := Text.trim (body.getD [])
    if body = [] then reject 400 "comment_body_required"
    else do
      call .commentsUpdate fun w => some ((), { w with
        db := w.db.editComments (Comment.isAt (some tenantId) commentId) (Text.toString body) })
      resolve 200 "comment_updated_successfully" ())

def deletePublicComment (tenantId commentId : Nat) (authUser : Option AuthData) :
    Handler (Reply Unit) := do
  let author ← selectAt .commentsSelect fun db => commentAuthor db tenantId commentId
  forAuthor author authUser (do
    call .commentsDelete fun w =>
      some ((), { w with db := w.db.prune { comment := Comment.isAt (some tenantId) commentId } })
    resolve 200 "comment_deleted_successfully" ())

end Feedbase
