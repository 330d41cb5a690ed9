import Feedbase.Common.PlanGuard
import Feedbase.Public.BoardCards
import Feedbase.Public.Submissions

/-!
# A post with what belongs to it

Anybody may open a post of the public board and read the thread under it; a member opens the same
post in the dashboard. Neither is shown where an upload lies on the disk, and the public page
tells nobody's address.

## Main definitions

* `getAttachmentsForPost` — the uploads of a post
* `ThreadComment`, `threadComment` — a comment as the public thread shows it
* `getPublicPostDetail`, `getPostById`

## Main results

* `exec_getPublicPostDetail`, `exec_getPostById` — what a reader gets
-/

namespace Feedbase

/-! ### Uploads -/

/-- What clients are told of an upload. -/
structure AttachmentCard where
  id : Nat
  kind : AttachmentKind
  url : String
  mimeType : String
  sizeBytes : Nat
  originalName : Option String
  deriving DecidableEq

def toPublic (a : PostAttachment) : AttachmentCard where
  id := a.id
  kind := a.kind
  url := a.storagePath
  mimeType := a.mimeType
  sizeBytes := a.sizeBytes
  originalName := a.originalName

/-- `WHERE post_id = ? AND tenant_id = ? ORDER BY id ASC`. -/
def getAttachmentsForPost (db : Db) (tenantId postId : Nat) : List AttachmentCard :=
  ((db.postAttachments.rows.filter fun a =>
    a.postId == some postId && a.tenantId == tenantId).insertionSort fun a b => a.id ≤ b.id).map
      toPublic

/-! ### Tags -/

/-- `FROM post_tags pt JOIN tags t ON pt.tag_id = t.id WHERE pt.post_id = ? AND pt.tenant_id = ?`. -/
def Db.tagCards (db : Db) (tenantId postId : Nat) : List TagCard :=
  ((Join.inner (fun pt => some (PostTag.tagId pt)) Tag.id db.postTags.rows db.tags.rows).filter
    fun r => r.1.postId == postId && r.1.tenantId == tenantId).map fun r => (tagRow r.1 r.2).card

/-! ### Authors -/

/-- `EXISTS (SELECT 1 FROM users a WHERE a.email = u.email AND a.is_platform_admin = 1 AND
a.is_active = 1)`, where `u` may be missing. -/
def Db.isAdminEmail (db : Db) (u : Option User) : Bool :=
  u.any fun u => db.users.rows.any fun a => a.email == u.email && a.isPlatformAdmin && a.isActive

/-- `LEFT JOIN users u ON c.author_id = u.id`. -/
def Db.writerOf (db : Db) (c : Comment) : Option User :=
  db.users.rows.find? fun u => c.authorId = some u.id

/-- `u.role = 'owner' AND u.tenant_id = c.tenant_id`. -/
def Comment.isByOwner (c : Comment) (u : Option User) : Bool :=
  u.any fun u => u.role == .owner && u.tenantId == some c.tenantId

/-- `COALESCE(u.full_name, …submitter_name, 'Anonymous')`. -/
def shownName (u : Option User) (submitterName : Option String) : String :=
  ((u.map (·.fullName)).or submitterName).getD "Anonymous"

/-! ### The public page -/

/-- A comment of the public thread. The owner may be shown without a name, and then with the
workspace's own logo. -/
structure ThreadComment where
  id : Nat
  postId : Nat
  parentCommentId : Option Nat
  body : String
  isEdited : Bool
  createdAt : Time
  authorId : Option Nat
  guestId : Option String
  authorAsOwner : Nat
  authorName : Option String
  authorAvatar : Option String
  authorIsAdmin : Bool
  deriving DecidableEq

def threadComment (db : Db) (c : Comment) : ThreadComment :=
  let u := db.writerOf c
  let hidden := c.asOwner == 2 && c.isByOwner u
  { id := c.id
    postId := c.postId
    parentCommentId := c.parentCommentId
    body := c.body
    isEdited := c.isEdited
    createdAt := c.createdAt
    authorId := c.authorId
    guestId := c.guestId
    -- the stored mode counts only while its author is an owner
    authorAsOwner := if c.isByOwner u then c.asOwner else 0
    authorName := if hidden then none else some (shownName u c.submitterName)
    authorAvatar :=
      if hidden then (db.tenants.byId c.tenantId).bind (·.brandingLogoUrl)
      else u.bind (·.avatarUrl)
    authorIsAdmin := db.isAdminEmail u }

/-- The comments of the thread: `c.tenant_id = ? AND c.post_id = ? AND c.moderation_state <>
'spam'`. -/
def Db.threadComments (db : Db) (tenantId postId : Nat) : List ThreadComment :=
  (db.comments.rows.filter fun c =>
    c.tenantId == tenantId && c.postId == postId && c.moderationState != .spam).map
      (threadComment db)

/-- The columns of the post that are public. -/
structure PublicPost where
  id : Nat
  title : String
  description : String
  postType : PostType
  status : PostStatus
  priority : Nat
  isPinned : Bool
  duplicateOfPostId : Option Nat
  createdAt : Time
  authorId : Option Nat
  guestId : Option String
  authorName : String
  authorAvatar : Option String
  authorIsAdmin : Bool
  voteCount : Nat
  commentCount : Nat
  deriving DecidableEq

def publicPost (db : Db) (p : Post) : PublicPost where
  id := p.id
  title := p.title
  description := p.description
  postType := p.postType
  status := p.status
  priority := p.priority
  isPinned := p.isPinned
  duplicateOfPostId := p.duplicateOfPostId
  createdAt := p.createdAt
  authorId := p.authorId
  guestId := p.guestId
  authorName := shownName (db.authorOf p) p.submitterName
  authorAvatar := (db.authorOf p).bind (·.avatarUrl)
  authorIsAdmin := db.isAdminEmail (db.authorOf p)
  voteCount := db.votesOn p.id
  commentCount := db.commentsOn p.id

/-- The order in which the database returns the rows of a page where a query leaves it open: the
tags in any, the comments with the oldest first. -/
structure DetailOrders where
  tags : List TagCard → List TagCard
  comments : List ThreadComment → List ThreadComment
  perm_tags : ∀ rows, (tags rows).Perm rows
  perm_comments : ∀ rows, (comments rows).Perm rows
  sorted_comments : ∀ rows, (comments rows).Pairwise fun c d => c.createdAt ≤ d.createdAt

structure PublicPostDetail where
  post : PublicPost
  tags : List TagCard
  comments : List ThreadComment
  attachments : List AttachmentCard
  deriving DecidableEq

/-- The page of a post. -/
def publicDetail (db : Db) (orders : DetailOrders) (tenantId : Nat) (p : Post) :
    PublicPostDetail where
  post := publicPost db p
  tags := orders.tags (db.tagCards tenantId p.id)
  comments := orders.comments (db.threadComments tenantId p.id)
  attachments := getAttachmentsForPost db tenantId p.id

def getPublicPostDetail (orders : DetailOrders) (tenantId postId : Nat) :
    Handler (Reply PublicPostDetail) :=
  tryCatch (do
    let row ← selectAt .postsSelect fun db =>
      (visiblePost db tenantId postId).map fun p => (publicPost db p, p.id)
    match row with
    | none => reject 404 "post_not_found"
    | some (post, id) => do
      let tags ← query fun db => orders.tags (db.tagCards tenantId id)
      let comments ← selectAt .commentsSelect fun db =>
        orders.comments (db.threadComments tenantId id)
      let attachments ← query fun db => getAttachmentsForPost db tenantId id
      resolve 200 "post_retrieved_successfully" ⟨post, tags, comments, attachments⟩)
        (failWith "failed_to_get_post")

/-! ### The dashboard's page -/

/-- `p.*` and what is computed for it. -/
structure DashboardPost where
  post : Post
  authorName : String
  authorEmail : Option String
  voteCount : Nat
  commentCount : Nat
  hasVoted : Bool
  deriving DecidableEq

/-- All comments of a post, what is quarantined too. -/
def Db.allCommentsOn (db : Db) (postId : Nat) : Nat :=
  db.comments.rows.countP (·.postId == postId)

/-- `EXISTS (SELECT 1 FROM votes WHERE post_id = p.id AND user_id = ?)`. -/
def Db.hasVoted (db : Db) (userId postId : Nat) : Bool :=
  db.votes.rows.any fun v => v.postId == postId && v.userId == some userId

/-- `author_email` is for plans that may contact a submitter. -/
def dashboardPost (db : Db) (userId : Nat) (canContact : Bool) (p : Post) : DashboardPost where
  post := p
  authorName := shownName (db.authorOf p) p.submitterName
  authorEmail := if canContact then ((db.authorOf p).map (·.email)).or p.submitterEmail else none
  voteCount := db.votesOn p.id
  commentCount := db.allCommentsOn p.id
  hasVoted := db.hasVoted userId p.id

structure DashboardPostDetail where
  post : DashboardPost
  tags : List TagCard
  attachments : List AttachmentCard
  deriving DecidableEq

/-- `WHERE p.id = ? AND p.tenant_id = ?`. -/
def Db.postAt (db : Db) (tenantId postId : Nat) : Option Post :=
  db.posts.rows.find? fun p => p.id == postId && p.tenantId == tenantId

/-- The page of a post. -/
def dashboardDetail (db : Db) (tags : List TagCard → List TagCard) (userId tenantId : Nat)
    (p : Post) : DashboardPostDetail where
  post := dashboardPost db userId (allows db tenantId .contactSubmitter) p
  tags := tags (db.tagCards tenantId p.id)
  attachments := getAttachmentsForPost db tenantId p.id

/-- A member without a workspace finds nothing. -/
def getPostById (tags : List TagCard → List TagCard) (id : Nat) (auth : AuthData) :
    Handler (Reply DashboardPostDetail) :=
  tryCatch (do
    let row ← selectAt .postsSelect fun db =>
      auth.tenantId.bind fun tenantId =>
        (db.postAt tenantId id).map fun p => (dashboardPost db auth.id true p, tenantId)
    match row with
    | none => reject 404 "post_not_found"
    | some (post, tenantId) => do
      let tags ← query fun db => tags (db.tagCards tenantId post.post.id)
      let attachments ← query fun db => getAttachmentsForPost db tenantId post.post.id
      -- the address is read in any case, and taken out again for a plan without it
      let canContact ← planAllows tenantId .contactSubmitter
      let authorEmail := if canContact then post.authorEmail else none
      resolve 200 "post_retrieved_successfully"
        ⟨{ post with authorEmail := authorEmail }, tags, attachments⟩)
          (failWith "failed_to_get_post")

/-! ### What a reader gets -/

/-- The statements of one request find one state. -/
theorem exec_getPublicPostDetail (orders : DetailOrders) (tenantId postId : Nat) (w : World) :
    (getPublicPostDetail orders tenantId postId).exec w =
      (if w.fails .postsSelect then .error (.rejected 500 "failed_to_get_post")
        else
          match visiblePost w.db tenantId postId with
          | none => .error (.rejected 404 "post_not_found")
          | some p =>
            if w.fails .commentsSelect then .error (.rejected 500 "failed_to_get_post")
            else
              .ok ⟨200, "post_retrieved_successfully", publicDetail w.db orders tenantId p⟩, w) := by
  rw [getPublicPostDetail, Prog.exec_tryCatch, exec_selectAt_bind]
  by_cases hposts : w.fails .postsSelect = true
  · rw [if_pos hposts, if_pos hposts]
    rfl
  rw [if_neg hposts, if_neg hposts]
  cases visiblePost w.db tenantId postId with
  | none => rfl
  | some p =>
    dsimp only [Option.map_some]
    rw [exec_query_bind, exec_selectAt_bind]
    by_cases hcomments : w.fails .commentsSelect = true
    · rw [if_pos hcomments, if_pos hcomments]
      rfl
    · rw [if_neg hcomments, if_neg hcomments, exec_query_bind]
      rfl

theorem exec_getPostById (tags : List TagCard → List TagCard) (id : Nat) (auth : AuthData)
    (w : World) :
    (getPostById tags id auth).exec w =
      (if w.fails .postsSelect then .error (.rejected 500 "failed_to_get_post")
        else
          match auth.tenantId.bind fun T => (w.db.postAt T id).map fun p => (p, T) with
          | none => .error (.rejected 404 "post_not_found")
          | some (p, T) =>
            .ok ⟨200, "post_retrieved_successfully", dashboardDetail w.db tags auth.id T p⟩, w) := by
  rw [getPostById, Prog.exec_tryCatch, exec_selectAt_bind]
  by_cases hposts : w.fails .postsSelect = true
  · rw [if_pos hposts, if_pos hposts]
    rfl
  rw [if_neg hposts, if_neg hposts]
  cases auth.tenantId with
  | none => rfl
  | some T =>
    dsimp only [Option.bind_some]
    cases w.db.postAt T id with
    | none => rfl
    | some p =>
      dsimp only [Option.map_some]
      rw [exec_query_bind, exec_query_bind, planAllows, exec_query_bind]
      rfl

end Feedbase
