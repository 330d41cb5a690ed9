import Feedbase.Schema.Prune
import Feedbase.Server

/-!
# Cleaning up spam

Quarantined posts and comments are deleted when they are old, and an owner may delete the
quarantined posts of the workspace. The statements name spam only. What hangs under a deleted
comment goes with it, whatever its state.

## Main definitions

* `purgeExpiredSpam`, `purgeSpamPosts`
* `SpamPurge`, `SpamPurge.names` — a call, and the rows that its statements name

## Main results

* `names_spam` — the posts that a call names are spam
* `purge_deletes_only_spam_iff` — when a call deletes nothing but spam
* `reply_to_spam_deleted` — a call that deletes a reply
-/

namespace Feedbase

/-! ### The handlers -/

/-- `Number(process.env.SPAM_RETENTION_DAYS) || 30`. -/
def retentionDays (env : Option Int) : Int := (env.filter (· ≠ 0)).getD 30

/-- `created_at < (NOW() - INTERVAL ? DAY)`. -/
def isExpired (now : Time) (days : Int) (createdAt : Time) : Bool :=
  createdAt < now - 86400 * days

def Post.isExpiredSpam (now : Time) (days : Int) (p : Post) : Bool :=
  p.moderationState == .spam && isExpired now days p.createdAt

def Comment.isExpiredSpam (now : Time) (days : Int) (c : Comment) : Bool :=
  c.moderationState == .spam && isExpired now days c.createdAt

/-- `DELETE FROM posts WHERE p`; the rows that go along are not counted. -/
def deletePosts (p : World → Post → Bool) : Handler Nat :=
  call .postsDelete fun w =>
    some (w.db.posts.rows.countP (p w), { w with db := w.db.prune { post := p w } })

/-- `DELETE FROM comments WHERE p`. -/
def deleteComments (p : World → Comment → Bool) : Handler Nat :=
  call .commentsDelete fun w =>
    some (w.db.comments.rows.countP (p w), { w with db := w.db.prune { comment := p w } })

/-- How many posts and comments were removed. -/
def purgeExpiredSpam (env : Option Int) : Handler (Nat × Nat) :=
  if retentionDays env ≤ 0 then return (0, 0)
  else
    tryCatch (do
      let posts ← deletePosts fun w => Post.isExpiredSpam w.now (retentionDays env)
      let comments ← deleteComments fun w => Comment.isExpiredSpam w.now (retentionDays env)
      return (posts, comments)) fun _ => return (0, 0)

/-- The posts a call of `purgeSpamPosts` is about. -/
inductive PurgeScope where
  | ids (list : List Nat)
  | olderThan (days : Int)

/-- `ids` is `none` when it is no array, and an entry is `none` when it is no integer. -/
def purgeScope (ids : Option (List (Option Int))) (olderThanDays : Option Int) :
    Option PurgeScope :=
  match ids with
  | some entries =>
    let list := entries.filterMap fun n => (n.filter (0 < ·)).map Int.toNat
    if list = [] then none else some (.ids list)
  | none => (olderThanDays.filter fun days => 1 ≤ days ∧ days ≤ 3650).map .olderThan

/-- The `WHERE` clause of `purgeSpamPosts`. -/
def PurgeScope.where (scope : PurgeScope) (tenantId : Option Nat) (now : Time) (p : Post) : Bool :=
  tenantId == some p.tenantId && p.moderationState == .spam &&
    match scope with
    | .ids list => list.contains p.id
    | .olderThan days => isExpired now days p.createdAt

def purgeSpamPosts (auth : AuthData) (ids : Option (List (Option Int)))
    (olderThanDays : Option Int) : Handler (Reply Nat) :=
  if auth.role ≠ .owner then reject 403 "delete_feedback_owner_only"
  else
    match purgeScope ids olderThanDays with
    | none => reject 400 "invalid_request"
    | some scope =>
      tryCatch (do
        let deleted ← deletePosts fun w => scope.where auth.tenantId w.now
        resolve 200 "post_deleted_successfully" deleted) (failWith "failed_to_delete_post")

/-! ### What a call names -/

inductive SpamPurge where
  | expired (env : Option Int)
  | posts (auth : AuthData) (ids : Option (List (Option Int))) (olderThanDays : Option Int)

def SpamPurge.handler : SpamPurge → Handler Unit
  | .expired env => withoutReply (purgeExpiredSpam env)
  | .posts auth ids olderThanDays => withoutReply (purgeSpamPosts auth ids olderThanDays)

/-- The workspace whose owner makes the call. -/
def SpamPurge.tenant : SpamPurge → Option (Option Nat)
  | .expired _ => none
  | .posts auth _ _ => some auth.tenantId

/-- The rows that the call's statements name, as far as they are run: a call may be refused, and
a statement that fails is the last one. -/
def SpamPurge.names (w : World) : SpamPurge → Pruning
  | .expired env =>
    let days := retentionDays env
    if days ≤ 0 ∨ w.fails .postsDelete = true then {}
    else
      { post := Post.isExpiredSpam w.now days
        comment := fun c => !w.fails .commentsDelete && c.isExpiredSpam w.now days }
  | .posts auth ids olderThanDays =>
    match purgeScope ids olderThanDays with
    | some scope =>
      if auth.role ≠ .owner ∨ w.fails .postsDelete = true then {}
      else { post := scope.where auth.tenantId w.now }
    | none => {}

/-- The database after the call. -/
def SpamPurge.after (call : SpamPurge) (w : World) : Db := (call.handler.exec w).2.db

variable {w : World} {call : SpamPurge} {env : Option Int} {c : Comment} {p : Post}

theorem exec_deletePosts (f : World → Post → Bool) (w : World) : (deletePosts f).exec w =
    if w.fails .postsDelete then (.error .error, w)
    else (.ok (w.db.posts.rows.countP (f w)), { w with db := w.db.prune { post := f w } }) := by
  rw [deletePosts, exec_call]
  by_cases hfails : w.fails .postsDelete = true
  · rw [if_pos hfails, if_pos hfails]
  · rw [if_neg hfails, if_neg hfails]

theorem exec_deleteComments (f : World → Comment → Bool) (w : World) : (deleteComments f).exec w =
    if w.fails .commentsDelete then (.error .error, w)
    else (.ok (w.db.comments.rows.countP (f w)),
      { w with db := w.db.prune { comment := f w } }) := by
  rw [deleteComments, exec_call]
  by_cases hfails : w.fails .commentsDelete = true
  · rw [if_pos hfails, if_pos hfails]
  · rw [if_neg hfails, if_neg hfails]

theorem db_purgeExpiredSpam (env : Option Int) (w : World) :
    ((purgeExpiredSpam env).exec w).2.db = w.db.prune ((SpamPurge.expired env).names w) := by
  have hnothing : w.db.prune {} = w.db := Db.prune_of_nothing (fun _ => rfl) fun _ => rfl
  unfold purgeExpiredSpam SpamPurge.names
  dsimp only
  by_cases hdays : retentionDays env ≤ 0
  · rw [if_pos hdays, if_pos (.inl hdays), hnothing]
    rfl
  rw [if_neg hdays, Prog.exec_tryCatch, Prog.exec_bind, exec_deletePosts]
  by_cases hposts : w.fails .postsDelete = true
  · rw [if_pos hposts, if_pos (.inr hposts), hnothing]
    rfl
  rw [if_neg hposts, if_neg (not_or.mpr ⟨hdays, hposts⟩)]
  dsimp only
  rw [Prog.exec_bind, exec_deleteComments]
  dsimp only
  cases w.fails .commentsDelete with
  | true => rfl
  | false => exact Db.prune_prune _ _

theorem db_purgeSpamPosts (auth : AuthData) (ids : Option (List (Option Int)))
    (olderThanDays : Option Int) (w : World) :
    ((purgeSpamPosts auth ids olderThanDays).exec w).2.db =
      w.db.prune ((SpamPurge.posts auth ids olderThanDays).names w) := by
  have hnothing : w.db.prune {} = w.db := Db.prune_of_nothing (fun _ => rfl) fun _ => rfl
  unfold purgeSpamPosts SpamPurge.names
  dsimp only
  cases purgeScope ids olderThanDays with
  | none =>
    rw [hnothing]
    split
    · rfl
    · rfl
  | some scope =>
    dsimp only
    by_cases howner : auth.role ≠ .owner
    · rw [if_pos howner, if_pos (.inl howner), hnothing]
      rfl
    rw [if_neg howner, Prog.exec_tryCatch, Prog.exec_bind, exec_deletePosts]
    by_cases hposts : w.fails .postsDelete = true
    · rw [if_pos hposts, if_pos (.inr hposts), hnothing]
      rfl
    · rw [if_neg hposts, if_neg (not_or.mpr ⟨howner, hposts⟩)]
      rfl

/-- Everything a call does to the database. -/
theorem SpamPurge.after_eq (call : SpamPurge) (w : World) :
    call.after w = w.db.prune (call.names w) := by
  cases call with
  | expired env =>
    rw [SpamPurge.after, SpamPurge.handler, exec_withoutReply_snd, db_purgeExpiredSpam]
  | posts auth ids olderThanDays =>
    rw [SpamPurge.after, SpamPurge.handler, exec_withoutReply_snd, db_purgeSpamPosts]

/-! ### What is left -/

/-- The statements name quarantined posts only. -/
theorem names_spam {p : Post} (h : (call.names w).post p = true) : p.moderationState = .spam := by
  cases call with
  | expired env =>
    rw [SpamPurge.names] at h
    split at h
    · cases h
    · simp only [Post.isExpiredSpam, Bool.and_eq_true, beq_iff_eq] at h
      exact h.1
  | posts auth ids olderThanDays =>
    rw [SpamPurge.names] at h
    split at h
    · split at h
      · cases h
      · simp only [PurgeScope.where, Bool.and_eq_true, beq_iff_eq] at h
        exact h.1.2
    · cases h

/-- A comment that is not spam, on a post that is not. -/
def Genuine (db : Db) (c : Comment) : Prop :=
  c.moderationState ≠ .spam ∧ ∀ p ∈ db.posts, p.id = c.postId → p.moderationState ≠ .spam

/-- A post that is not spam always stays. A genuine comment stays, and a workspace's purge leaves
the other workspaces alone, if and only if nothing of the kind hangs on what is named. -/
theorem purge_deletes_only_spam_iff (call : SpamPurge) (w : World) :
    ((∀ p ∈ w.db.posts, p.moderationState ≠ .spam → ∃ q ∈ (call.after w).posts, q.id = p.id) ∧
      (∀ c ∈ w.db.comments, Genuine w.db c → c ∈ (call.after w).comments) ∧
      ∀ T, call.tenant = some T → SameElsewhere T w.db (call.after w)) ↔
    (∀ c ∈ w.db.comments, Genuine w.db c → ¬ w.db.HangsUnder (w.db.cut (call.names w)) c) ∧
      ∀ T, call.tenant = some T → KeptApart T (call.names w) w.db := by
  have hposts : ∀ p ∈ w.db.posts, p.moderationState ≠ .spam →
      ∃ q ∈ (w.db.prune (call.names w)).posts, q.id = p.id := by
    intro p hp hstate
    exact Db.exists_post_prune hp (Bool.eq_false_iff.mpr fun h => hstate (names_spam h))
  have hcomments : (∀ c ∈ w.db.comments, Genuine w.db c →
      c ∈ (w.db.prune (call.names w)).comments) ↔
      ∀ c ∈ w.db.comments, Genuine w.db c →
        ¬ w.db.HangsUnder (w.db.cut (call.names w)) c := by
    refine forall₂_congr fun c hc => ?_
    rw [Db.mem_comments_prune, and_iff_right hc]
  rw [SpamPurge.after_eq, hcomments, and_iff_right hposts]
  simp only [sameElsewhere_prune_iff]

/-! ### A reply to spam -/

def acme : Tenant where
  id := 1
  name := "Acme"
  slug := "acme"
  subdomain := "acme"

def wish : Post where
  id := 1
  tenantId := 1
  title := "Dark mode"
  description := ""
  createdAt := 0

/-- A comment that the scorer has quarantined. -/
def advert : Comment where
  id := 1
  tenantId := 1
  postId := 1
  body := "Casino"
  moderationState := .spam
  spamScore := 13
  createdAt := 0

/-- What somebody has answered to it. -/
def answer : Comment where
  id := 2
  tenantId := 1
  postId := 1
  parentCommentId := some 1
  body := "Please stop"
  createdAt := 0

/-- A published post with the two comments, 40 days old. -/
def repliedSpam : World where
  now := 3456000
  db :=
    { tenants := (Sql.Table.empty.insert? fun id => { acme with id := id }).getD .empty
      posts := (Sql.Table.empty.insert? fun id => { wish with id := id }).getD .empty
      comments := ((Sql.Table.empty.insert? fun id => { advert with id := id }).bind fun comments =>
        comments.insert? fun id => { answer with id := id }).getD .empty }

/-- The genuine reply goes with the spam above it. -/
theorem reply_to_spam_deleted :
    ¬ ∀ (call : SpamPurge) (w : World), w.db.BoardKeys →
      (∀ p ∈ w.db.posts, p.moderationState ≠ .spam → ∃ q ∈ (call.after w).posts, q.id = p.id) ∧
      (∀ c ∈ w.db.comments, Genuine w.db c → c ∈ (call.after w).comments) ∧
      ∀ T, call.tenant = some T → SameElsewhere T w.db (call.after w) := by
  intro h
  have hposts : ∀ p ∈ repliedSpam.db.posts.rows, p.id = answer.postId →
      p.moderationState ≠ .spam := by decide +kernel
  have hstays := (h (.expired none) repliedSpam (by decide +kernel)).2.1 answer
    (Sql.Table.mem_def.mpr (by decide +kernel)) ⟨by decide, hposts⟩
  rw [Sql.Table.mem_def] at hstays
  revert hstays
  decide +kernel

end Feedbase
