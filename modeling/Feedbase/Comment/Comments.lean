import Feedbase.Post.Moderation
import Feedbase.Public.Submissions
import Feedbase.Schema.Prune

/-!
# Comments of a signed-in member

A member writes comments and replies, and deletes what they wrote; the owner of the workspace and
an administrator of the platform delete what anybody wrote. The reply that a comment is attached
to is stored as the client sends it.

## Main definitions

* `createComment`, `deleteComment`, `Admin.deleteComment`

## Main results

* `db_deleteComment`, `db_adminDeleteComment` — what a call deletes
* `own_words_only_iff` — when a member deletes only their own words
* `reply_goes_with_comment` — when not
-/

namespace Feedbase

/-! ### The handlers -/

structure CommentData where
  postId : Option Nat := none
  body : Option String := none
  parentCommentId : Option Nat := none
  ownerMode : Option String := none

/-- How the author of a comment is shown. -/
def asOwnerOf (auth : AuthData) (ownerMode : Option String) : Handler Nat :=
  if auth.role = .owner ∧ (ownerMode = some "named" ∨ ownerMode = some "hidden") then do
    let plan ← query fun db => (auth.tenantId.map (tenantPlan db)).getD "free"
    return ownerDisplay (getPlanLimits plan) ownerMode
  else return 0

def CommentData.row (data : CommentData) (auth : AuthData) (asOwner postId : Nat)
    (body : String) : NewComment where
  tenantId := auth.tenantId
  postId := postId
  authorId := some auth.id
  asOwner := asOwner
  parentCommentId := data.parentCommentId.filter (· ≠ 0)
  body := body

/-- A column that is missing makes the statement throw. -/
def createComment (data : CommentData) (auth : AuthData) : Handler (Reply Nat) := do
  let asOwner ← asOwnerOf auth data.ownerMode
  tryCatch (do
    match data.postId, data.body with
    | some postId, some body =>
      let id ← insertComment (data.row auth asOwner postId body)
      resolve 201 "comment_created_successfully" id
    | _, _ => throw .error) (failWith "failed_to_create_comment")

/-- The `WHERE` clause of `deleteComment`. -/
def Comment.isDeletableBy (auth : AuthData) (id : Nat) (c : Comment) : Bool :=
  c.isAt auth.tenantId id && (auth.role == .owner || c.authorId == some auth.id)

def deleteComment (id : Nat) (auth : AuthData) : Handler (Reply Unit) :=
  affecting .commentsDelete
    (fun w => some (affected w.db.comments.rows (Comment.isDeletableBy auth id),
      { w with db := w.db.prune { comment := Comment.isDeletableBy auth id } }))
    (403, "not_your_content") (200, "comment_deleted_successfully") "failed_to_delete_comment"

/-- `tenant_id = ? AND (id = ? OR parent_comment_id = ?)`. -/
def Comment.isInThread (tenantId commentId : Nat) (c : Comment) : Bool :=
  c.tenantId == tenantId && (c.id == commentId || c.parentCommentId == some commentId)

/-- `affectedRows`: replies that go with the comment above them are not counted. -/
def removedRows (db : Db) (tenantId commentId : Nat) : Option Nat :=
  if db.comments.rows.any (Comment.isAt (some tenantId) commentId) then some 1
  else if db.comments.rows.any (Comment.isInThread tenantId commentId) then
    some (db.comments.rows.countP (Comment.isInThread tenantId commentId))
  else none

def Admin.deleteComment (tenantId commentId : Nat) : Handler (Reply Nat) :=
  affecting .commentsDelete
    (fun w => some (removedRows w.db tenantId commentId,
      { w with db := w.db.prune { comment := Comment.isInThread tenantId commentId } }))
    (404, "comment_not_found") (200, "comment_deleted") "internal_server_error"

/-! ### What a call deletes -/

variable {w w' : World} {c : Comment}

theorem db_deleteComment (id : Nat) (auth : AuthData) (w : World) :
    ((deleteComment id auth).exec w).2.db =
      if w.fails .commentsDelete then w.db
      else w.db.prune { comment := Comment.isDeletableBy auth id } := by
  rw [deleteComment, exec_affecting_snd, apply_ite World.db]

theorem db_adminDeleteComment (tenantId commentId : Nat) (w : World) :
    ((Admin.deleteComment tenantId commentId).exec w).2.db =
      if w.fails .commentsDelete then w.db
      else w.db.prune { comment := Comment.isInThread tenantId commentId } := by
  rw [Admin.deleteComment, exec_affecting_snd, apply_ite World.db]

/-- What a `DELETE` on `comments` leaves. -/
theorem mem_comments_prune_comment {db : Db} {f : Comment → Bool} :
    c ∈ (db.prune { comment := f }).comments ↔ c ∈ db.comments ∧ ¬ db.HangsUnder f c := by
  rw [Db.mem_comments_prune, Db.cut_comment]

/-! ### Own words -/

/-- A call that is not by the owner leaves what others have said, and the comments of other
workspaces, if and only if nothing of the kind hangs under the caller's comment. -/
theorem own_words_only_iff (id : Nat) {auth : AuthData} (hmember : auth.role ≠ .owner)
    (w : World) :
    ((∀ c ∈ w.db.comments, c.authorId ≠ some auth.id →
        c ∈ ((deleteComment id auth).exec w).2.db.comments) ∧
      ∀ c : Comment, some c.tenantId ≠ auth.tenantId →
        (c ∈ ((deleteComment id auth).exec w).2.db.comments ↔ c ∈ w.db.comments)) ↔
    w.fails .commentsDelete = true ∨
      ∀ c ∈ w.db.comments,
        w.db.HangsUnder (fun d => d.isAt auth.tenantId id && d.authorId == some auth.id) c →
        c.authorId = some auth.id ∧ some c.tenantId = auth.tenantId := by
  have hnamed : Comment.isDeletableBy auth id =
      fun d => d.isAt auth.tenantId id && d.authorId == some auth.id := by
    funext d
    rw [Comment.isDeletableBy, beq_false_of_ne hmember, Bool.false_or]
  rw [db_deleteComment]
  by_cases hfails : w.fails .commentsDelete = true
  · rw [if_pos hfails]
    exact iff_of_true ⟨fun c hc _ => hc, fun c _ => Iff.rfl⟩ (.inl hfails)
  -- the rows that go are those that hang under the named comment
  rw [if_neg hfails, or_iff_right hfails, hnamed]
  simp only [mem_comments_prune_comment]
  constructor
  · -- a row of others that hangs there would go with it
    rintro ⟨hauthors, htenants⟩ c hc hunder
    constructor
    · by_contra hother
      exact (hauthors c hc hother).2 hunder
    · by_contra hother
      exact ((htenants c hother).mpr hc).2 hunder
  · intro h
    constructor
    · intro c hc hother
      exact ⟨hc, fun hunder => hother (h c hc hunder).1⟩
    · intro c hother
      exact and_iff_left_of_imp fun hc hunder => hother (h c hc hunder).2

/-! ### A reply of somebody else -/

def corner : Tenant where
  id := 1
  name := "Corner"
  slug := "corner"
  subdomain := "corner"

def ada : User where
  id := 1
  tenantId := some 1
  email := "ada@corner.co"

def suggestion : Post where
  id := 1
  tenantId := 1
  title := "Longer hours"
  description := ""
  createdAt := 0

def adaComment : Comment where
  id := 1
  tenantId := 1
  postId := 1
  authorId := some 1
  body := "Mondays are fine as they are."
  createdAt := 0

/-- A guest answers. -/
def guestReplies : Comment where
  id := 2
  tenantId := 1
  postId := 1
  parentCommentId := some 1
  body := "Not for those who work."
  createdAt := 10

def cornerBoard : World where
  db :=
    { tenants := .single corner
      users := .single ada
      posts := .single suggestion
      comments := ((Sql.Table.single adaComment).insert? fun id =>
        { guestReplies with id := id }).getD .empty }

def adaAuth : AuthData where
  id := 1
  tenantId := some 1
  role := .user
  email := "ada@corner.co"

/-- Ada has added something, and a guest has said something else beside it. -/
def cornerOpens : World where
  db :=
    { cornerBoard.db with
      comments :=
        { rows := [adaComment,
            { adaComment with id := 2, parentCommentId := some 1, body := "So are Tuesdays." },
            { guestReplies with id := 3, parentCommentId := none }]
          next := 4
          id_lt := by decide
          nodup := by decide
          noClash := by decide } }

theorem own_words_only_unanswered :
    (∀ c ∈ cornerOpens.db.comments, c.authorId ≠ some adaAuth.id →
      c ∈ ((deleteComment 1 adaAuth).exec cornerOpens).2.db.comments) ∧
    ∀ c : Comment, some c.tenantId ≠ adaAuth.tenantId →
      (c ∈ ((deleteComment 1 adaAuth).exec cornerOpens).2.db.comments ↔
        c ∈ cornerOpens.db.comments) := by
  have hmember : adaAuth.role ≠ .owner := by decide
  apply (own_words_only_iff 1 hmember cornerOpens).mpr
  refine .inr fun c hc hunder => ?_
  have hown : ∀ d ∈ cornerOpens.db.comments.rows,
      Closure.reach cornerOpens.db.comments.rows Db.answers
          (fun d => d.isAt adaAuth.tenantId 1 && d.authorId == some adaAuth.id) d = true →
        d.authorId = some adaAuth.id ∧ some d.tenantId = adaAuth.tenantId := by
    decide
  exact hown c hc ((Closure.reach_iff hc).mpr hunder)

/-- A member who deletes their own comment deletes the reply of a guest. -/
theorem reply_goes_with_comment :
    ¬ ∀ (id : Nat) (auth : AuthData) (w : World), auth.role ≠ .owner → w.db.BoardKeys →
      (∀ c ∈ w.db.comments, c.authorId ≠ some auth.id →
        c ∈ ((deleteComment id auth).exec w).2.db.comments) ∧
      ∀ c : Comment, some c.tenantId ≠ auth.tenantId →
        (c ∈ ((deleteComment id auth).exec w).2.db.comments ↔ c ∈ w.db.comments) := by
  intro h
  have hreply : guestReplies ∈ cornerBoard.db.comments.rows := by decide
  have hkept := (h 1 adaAuth cornerBoard (by decide) (by decide)).1 guestReplies hreply (by decide)
  have hgone : guestReplies ∉ ((deleteComment 1 adaAuth).exec cornerBoard).2.db.comments.rows := by
    rw [db_deleteComment]
    decide
  exact hgone hkept

end Feedbase
