import Feedbase.Server

/-!
# New posts and comments

The `INSERT` statements on `posts` and `comments`. A foreign key that leads nowhere makes the
statement throw.

## Main definitions

* `NewPost`, `insertPost`
* `NewComment`, `insertComment`

## Main results

* `exec_insertPost_ok`, `exec_insertComment_ok` — what a successful insert has done
-/

namespace Feedbase

/-- The columns of a new post that have no default of their own. -/
structure NewPost where
  tenantId : Option Nat
  authorId : Option Nat
  submitterName : Option String := none
  submitterEmail : Option String := none
  guestId : Option String := none
  voterHash : Option String := none
  title : String
  description : String
  postType : PostType
  status : PostStatus := .open
  priority : Nat := 3
  moderationState : ModerationState := .published
  spamScore : Nat := 0
  spamReasons : Option String := none

def NewPost.row (n : NewPost) (tenantId : Nat) (now : Time) (id : Nat) : Post where
  id := id
  tenantId := tenantId
  authorId := n.authorId
  submitterName := n.submitterName
  submitterEmail := n.submitterEmail
  guestId := n.guestId
  voterHash := n.voterHash
  title := n.title
  description := n.description
  postType := n.postType
  status := n.status
  priority := n.priority
  moderationState := n.moderationState
  spamScore := n.spamScore
  spamReasons := n.spamReasons
  createdAt := now

/-- The workspace and the author exist. -/
def NewPost.refersInto (n : NewPost) (tenantId : Nat) (db : Db) : Bool :=
  (db.tenants.byId tenantId).isSome && n.authorId.all fun id => (db.users.byId id).isSome

/-- `INSERT INTO posts`; returns `insertId`. -/
def insertPost (n : NewPost) : Handler Nat :=
  call .postsInsert fun w =>
    match n.tenantId with
    | none => none
    | some tenantId =>
      if n.refersInto tenantId w.db then
        (w.db.posts.insert? (n.row tenantId w.now)).map fun posts =>
          (w.db.posts.next, { w with db := { w.db with posts := posts } })
      else none

/-- The columns of a new comment that have no default of their own. -/
structure NewComment where
  tenantId : Option Nat
  postId : Nat
  authorId : Option Nat
  submitterName : Option String := none
  submitterEmail : Option String := none
  guestId : Option String := none
  voterHash : Option String := none
  asOwner : Nat := 0
  parentCommentId : Option Nat := none
  body : String
  moderationState : ModerationState := .published
  spamScore : Nat := 0
  spamReasons : Option String := none

def NewComment.row (n : NewComment) (tenantId : Nat) (now : Time) (id : Nat) : Comment where
  id := id
  tenantId := tenantId
  postId := n.postId
  authorId := n.authorId
  submitterName := n.submitterName
  submitterEmail := n.submitterEmail
  guestId := n.guestId
  voterHash := n.voterHash
  asOwner := n.asOwner
  parentCommentId := n.parentCommentId
  body := n.body
  moderationState := n.moderationState
  spamScore := n.spamScore
  spamReasons := n.spamReasons
  createdAt := now

/-- The workspace, the post, the author and the comment above exist. -/
def NewComment.refersInto (n : NewComment) (tenantId : Nat) (db : Db) : Bool :=
  (db.tenants.byId tenantId).isSome && (db.posts.byId n.postId).isSome &&
    (n.authorId.all fun id => (db.users.byId id).isSome) &&
    n.parentCommentId.all fun id => (db.comments.byId id).isSome

/-- `INSERT INTO comments`; returns `insertId`. -/
def insertComment (n : NewComment) : Handler Nat :=
  call .commentsInsert fun w =>
    match n.tenantId with
    | none => none
    | some tenantId =>
      if n.refersInto tenantId w.db then
        (w.db.comments.insert? (n.row tenantId w.now)).map fun comments =>
          (w.db.comments.next, { w with db := { w.db with comments := comments } })
      else none

variable {w w' : World} {id : Nat}

/-- What a successful insert has done. -/
theorem exec_insertPost_ok {n : NewPost} (h : (insertPost n).exec w = (.ok id, w')) :
    ∃ tenantId posts, n.tenantId = some tenantId ∧ n.refersInto tenantId w.db = true ∧
      w.db.posts.insert? (n.row tenantId w.now) = some posts ∧ id = w.db.posts.next ∧
      w' = { w with db := { w.db with posts := posts } } := by
  obtain ⟨-, h⟩ := exec_call_ok_iff.mp h
  dsimp only at h
  split at h
  · cases h
  · rename_i tenantId htenant
    split at h
    · rename_i hrefers
      obtain ⟨posts, hinsert, heq⟩ := Option.map_eq_some_iff.mp h
      obtain ⟨rfl, rfl⟩ := Prod.mk.inj heq
      exact ⟨tenantId, posts, htenant, hrefers, hinsert, rfl, rfl⟩
    · cases h

theorem exec_insertComment_ok {n : NewComment} (h : (insertComment n).exec w = (.ok id, w')) :
    ∃ tenantId comments, n.tenantId = some tenantId ∧ n.refersInto tenantId w.db = true ∧
      w.db.comments.insert? (n.row tenantId w.now) = some comments ∧ id = w.db.comments.next ∧
      w' = { w with db := { w.db with comments := comments } } := by
  obtain ⟨-, h⟩ := exec_call_ok_iff.mp h
  dsimp only at h
  split at h
  · cases h
  · rename_i tenantId htenant
    split at h
    · rename_i hrefers
      obtain ⟨comments, hinsert, heq⟩ := Option.map_eq_some_iff.mp h
      obtain ⟨rfl, rfl⟩ := Prod.mk.inj heq
      exact ⟨tenantId, comments, htenant, hrefers, hinsert, rfl, rfl⟩
    · cases h

end Feedbase
