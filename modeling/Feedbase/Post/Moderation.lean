import Feedbase.Common.SpamScore
import Feedbase.Server

/-!
# Review of posts and comments

The team reclassifies what the scorer has judged. Publishing takes the score away, so that the
row leaves the review queue, and keeps it in another column: the first one it ever had, however
often the row is reviewed again.

## Main definitions

* `SpamAxis`, `SpamAxis.reviewed` — the columns of the spam axis, and what a review sets
* `updatePostModeration`, `updateCommentModeration`, `listedPosts`
* `ReviewTurn`, `afterReviews` — calls one after the other

## Main results

* `spamAxisOf_exec` — everything a call can do to a row
* `review_keeps_score` — the first score stays, and the queue is cleared
-/

namespace Feedbase

/-! ### The spam axis -/

def ModerationState.text : ModerationState → String
  | .published => "published"
  | .pending => "pending"
  | .spam => "spam"

/-- `VALID_STATES`. -/
def VALID_STATES : List ModerationState := [.published, .pending, .spam]

def moderationStateOf (text : String) : Option ModerationState :=
  VALID_STATES.find? fun s => s.text == text

/-- The columns that posts and comments share. -/
structure SpamAxis where
  moderationState : ModerationState
  spamScore : Nat
  spamReasons : Option String
  spamReviewedAt : Option Time
  spamReviewedScore : Option Nat
  deriving DecidableEq

namespace SpamAxis

/-- `SET a = …, b = …`: the assignments run from left to right. -/
def assign (assignments : List (SpamAxis → SpamAxis)) (a : SpamAxis) : SpamAxis :=
  assignments.foldl (fun b f => f b) a

/-- The assignments of `UPDATE … SET moderation_state = 'published', …`. -/
def publish (now : Time) : List (SpamAxis → SpamAxis) :=
  [fun a => { a with moderationState := .published },
    fun a => { a with spamReviewedAt := some now },
    fun a => { a with
      spamReviewedScore :=
        match a.spamReviewedScore with
        | none => some a.spamScore
        | some score => some score },
    fun a => { a with spamScore := 0 },
    fun a => { a with spamReasons := none }]

/-- What a review sets. -/
def reviewed (state : ModerationState) (now : Time) (a : SpamAxis) : SpamAxis :=
  match state with
  | .published => a.assign (publish now)
  | state => a.assign [fun a => { a with moderationState := state }]

end SpamAxis

def Post.spamAxis (p : Post) : SpamAxis where
  moderationState := p.moderationState
  spamScore := p.spamScore
  spamReasons := p.spamReasons
  spamReviewedAt := p.spamReviewedAt
  spamReviewedScore := p.spamReviewedScore

def Post.withSpamAxis (p : Post) (a : SpamAxis) : Post :=
  { p with
    moderationState := a.moderationState
    spamScore := a.spamScore
    spamReasons := a.spamReasons
    spamReviewedAt := a.spamReviewedAt
    spamReviewedScore := a.spamReviewedScore }

def Comment.spamAxis (c : Comment) : SpamAxis where
  moderationState := c.moderationState
  spamScore := c.spamScore
  spamReasons := c.spamReasons
  spamReviewedAt := c.spamReviewedAt
  spamReviewedScore := c.spamReviewedScore

def Comment.withSpamAxis (c : Comment) (a : SpamAxis) : Comment :=
  { c with
    moderationState := a.moderationState
    spamScore := a.spamScore
    spamReasons := a.spamReasons
    spamReviewedAt := a.spamReviewedAt
    spamReviewedScore := a.spamReviewedScore }

def Post.reviewed (state : ModerationState) (now : Time) (p : Post) : Post :=
  p.withSpamAxis (p.spamAxis.reviewed state now)

def Comment.reviewed (state : ModerationState) (now : Time) (c : Comment) : Comment :=
  c.withSpamAxis (c.spamAxis.reviewed state now)

theorem Post.keyless_reviewed (state : ModerationState) (now : Time) :
    Sql.Table.Keyless (Post.reviewed state now) := ⟨fun _ => rfl, fun _ _ => rfl⟩

theorem Comment.keyless_reviewed (state : ModerationState) (now : Time) :
    Sql.Table.Keyless (Comment.reviewed state now) := ⟨fun _ => rfl, fun _ _ => rfl⟩

/-! ### The handlers -/

/-- `WHERE id = ? AND tenant_id = ?`; a caller without a workspace finds nothing. -/
def Post.isAt (tenantId : Option Nat) (id : Nat) (p : Post) : Bool :=
  p.id == id && tenantId == some p.tenantId

def Comment.isAt (tenantId : Option Nat) (id : Nat) (c : Comment) : Bool :=
  c.id == id && tenantId == some c.tenantId

def Db.reviewPost (db : Db) (tenantId : Option Nat) (id : Nat) (state : ModerationState)
    (now : Time) : Db :=
  { db with
    posts := db.posts.update (Post.isAt tenantId id) (Post.reviewed state now)
      (Post.keyless_reviewed state now) }

def Db.reviewComment (db : Db) (tenantId : Option Nat) (id : Nat) (state : ModerationState)
    (now : Time) : Db :=
  { db with
    comments := db.comments.update (Comment.isAt tenantId id) (Comment.reviewed state now)
      (Comment.keyless_reviewed state now) }

def updatePostModeration (id : Nat) (state : String) (auth : AuthData) : Handler (Reply Unit) :=
  match moderationStateOf state with
  | none => reject 400 "invalid_status"
  | some s =>
    affecting .postsUpdate (fun w => some (affected w.db.posts.rows (Post.isAt auth.tenantId id),
        { w with db := w.db.reviewPost auth.tenantId id s w.now }))
      (404, "post_not_found") (200, "post_status_updated_successfully")
      "failed_to_update_post_status"

def updateCommentModeration (id : Nat) (state : String) (auth : AuthData) :
    Handler (Reply Unit) :=
  if auth.role ≠ .owner then reject 403 "insufficient_permissions"
  else
    match moderationStateOf state with
    | none => reject 400 "invalid_status"
    | some s =>
      affecting .commentsUpdate
        (fun w => some (affected w.db.comments.rows (Comment.isAt auth.tenantId id),
          { w with db := w.db.reviewComment auth.tenantId id s w.now }))
        (404, "comment_not_found") (200, "comment_updated_successfully")
        "failed_to_update_comment"

/-- What `getPostList` is asked for; `search` stands for the two `LIKE` patterns. -/
structure PostFilters where
  moderation : Option String := none
  status : Option PostStatus := none
  postType : Option PostType := none
  isPinned : Option Bool := none
  tagId : Option Nat := none
  search : Option (Post → Bool) := none

/-- `moderation_state = 'spam' OR spam_score >= FLAG_THRESHOLD`. -/
def SpamAxis.inReviewQueue (thresholds : SpamThresholds) (a : SpamAxis) : Bool :=
  a.moderationState == .spam || decide (a.spamScore ≥ thresholds.flag)

/-- The `WHERE` clause of `getPostList`. -/
def Post.isListed (thresholds : SpamThresholds) (db : Db) (filters : PostFilters)
    (tenantId : Option Nat) (p : Post) : Bool :=
  tenantId == some p.tenantId &&
    (if filters.moderation = some "spam" then p.spamAxis.inReviewQueue thresholds
      else p.moderationState != .spam) &&
    filters.status.all (p.status == ·) && filters.postType.all (p.postType == ·) &&
    filters.isPinned.all (p.isPinned == ·) &&
    filters.tagId.all (fun tag => db.postTags.rows.any fun t =>
      t.postId == p.id && t.tagId == tag && tenantId == some t.tenantId) &&
    filters.search.all (· p)

/-- The posts that `getPostList` counts and orders. -/
def listedPosts (thresholds : SpamThresholds) (db : Db) (filters : PostFilters)
    (tenantId : Option Nat) : List Post :=
  db.posts.rows.filter (Post.isListed thresholds db filters tenantId)

/-! ### Calls one after the other -/

/-- The row a review is about. -/
inductive ReviewTarget where
  | post (id : Nat)
  | comment (id : Nat)
  deriving DecidableEq

/-- A request for a review, and the time and the failures that it meets. -/
structure ReviewTurn where
  target : ReviewTarget
  state : String
  auth : AuthData
  now : Time
  fails : Site → Bool

def ReviewTurn.handler (t : ReviewTurn) : Handler (Reply Unit) :=
  match t.target with
  | .post id => updatePostModeration id t.state t.auth
  | .comment id => updateCommentModeration id t.state t.auth

def ReviewTurn.exec (t : ReviewTurn) (w : World) : Except Failure (Reply Unit) × World :=
  t.handler.exec { w with now := t.now, fails := t.fails }

def afterReviews (w : World) : List ReviewTurn → World
  | [] => w
  | t :: ts => afterReviews (t.exec w).2 ts

/-- The spam columns of a row. -/
def spamAxisOf (db : Db) : ReviewTarget → Option SpamAxis
  | .post id => (db.posts.byId id).map Post.spamAxis
  | .comment id => (db.comments.byId id).map Comment.spamAxis

/-- The call asks for this state of this row, and is answered with success. -/
def ReviewTurn.Sets (t : ReviewTurn) (w : World) (x : ReviewTarget) (s : ModerationState) : Prop :=
  t.target = x ∧ moderationStateOf t.state = some s ∧ ∃ reply, (t.exec w).1 = .ok reply

variable {db : Db} {w : World} {t : ReviewTurn} {x : ReviewTarget} {T : Option Nat} {id : Nat}
  {s : ModerationState} {now : Time}

/-! What the two statements do to the spam columns of a row. -/

theorem spamAxisOf_reviewPost_self {p : Post} (hp : p ∈ db.posts) (hat : p.isAt T id = true) :
    spamAxisOf (db.reviewPost T id s now) (.post id) =
      (spamAxisOf db (.post id)).map (·.reviewed s now) := by
  have hid : Sql.Row.id p = id := by
    simp only [Post.isAt, Bool.and_eq_true, beq_iff_eq] at hat
    exact hat.1
  have hupdate : (db.reviewPost T id s now).posts.byId id = some (p.reviewed s now) :=
    Sql.Table.byId_update_of_mem (Post.keyless_reviewed s now) hp hid hat
  rw [spamAxisOf, spamAxisOf, hupdate, Sql.Table.byId_eq_some_iff.mpr ⟨hp, hid⟩]
  rfl

theorem spamAxisOf_reviewComment_self {c : Comment} (hc : c ∈ db.comments)
    (hat : c.isAt T id = true) :
    spamAxisOf (db.reviewComment T id s now) (.comment id) =
      (spamAxisOf db (.comment id)).map (·.reviewed s now) := by
  have hid : Sql.Row.id c = id := by
    simp only [Comment.isAt, Bool.and_eq_true, beq_iff_eq] at hat
    exact hat.1
  have hupdate : (db.reviewComment T id s now).comments.byId id = some (c.reviewed s now) :=
    Sql.Table.byId_update_of_mem (Comment.keyless_reviewed s now) hc hid hat
  rw [spamAxisOf, spamAxisOf, hupdate, Sql.Table.byId_eq_some_iff.mpr ⟨hc, hid⟩]
  rfl

theorem spamAxisOf_reviewPost_of_ne (hx : .post id ≠ x) :
    spamAxisOf (db.reviewPost T id s now) x = spamAxisOf db x := by
  cases x with
  | comment n => rfl
  | post n =>
    have hsame : (db.reviewPost T id s now).posts.byId n = db.posts.byId n := by
      refine Sql.Table.byId_update_of_ne (Post.keyless_reviewed s now) ?_
      intro p _ hn
      have hne : p.id ≠ id := fun h => hx (by rw [← h]; exact congrArg _ hn)
      simp [Post.isAt, hne]
    rw [spamAxisOf, spamAxisOf, hsame]

theorem spamAxisOf_reviewComment_of_ne (hx : .comment id ≠ x) :
    spamAxisOf (db.reviewComment T id s now) x = spamAxisOf db x := by
  cases x with
  | post n => rfl
  | comment n =>
    have hsame : (db.reviewComment T id s now).comments.byId n = db.comments.byId n := by
      refine Sql.Table.byId_update_of_ne (Comment.keyless_reviewed s now) ?_
      intro c _ hn
      have hne : c.id ≠ id := fun h => hx (by rw [← h]; exact congrArg _ hn)
      simp [Comment.isAt, hne]
    rw [spamAxisOf, spamAxisOf, hsame]

theorem reviewPost_of_none (h : ∀ p ∈ db.posts, p.isAt T id = false) :
    db.reviewPost T id s now = db := by
  have hposts := @Sql.Table.update_eq_self Post _ db.posts _ _ (Post.keyless_reviewed s now)
    fun p hp hat => absurd (hat.symm.trans (h p hp)) nofun
  exact congrArg (fun posts => { db with posts := posts }) hposts

theorem reviewComment_of_none (h : ∀ c ∈ db.comments, c.isAt T id = false) :
    db.reviewComment T id s now = db := by
  have hcomments := @Sql.Table.update_eq_self Comment _ db.comments _ _
    (Comment.keyless_reviewed s now) fun c hc hat => absurd (hat.symm.trans (h c hc)) nofun
  exact congrArg (fun comments => { db with comments := comments }) hcomments

/-- The statement of a review. -/
def ReviewTurn.effect (t : ReviewTurn) (s : ModerationState) (db : Db) : Db :=
  match t.target with
  | .post id => db.reviewPost t.auth.tenantId id s t.now
  | .comment id => db.reviewComment t.auth.tenantId id s t.now

/-- The statement affects a row. -/
def ReviewTurn.Finds (t : ReviewTurn) (db : Db) : Prop :=
  match t.target with
  | .post id => ∃ p ∈ db.posts, p.isAt t.auth.tenantId id = true
  | .comment id => ∃ c ∈ db.comments, c.isAt t.auth.tenantId id = true

/-- A call either fails and changes nothing, or its statement finds the row. -/
theorem exec_cases (t : ReviewTurn) (w : World) :
    ((t.exec w).2.db = w.db ∧ ∀ reply, (t.exec w).1 ≠ .ok reply) ∨
      ∃ s, moderationStateOf t.state = some s ∧ (t.exec w).2.db = t.effect s w.db ∧
        (∃ reply, (t.exec w).1 = .ok reply) ∧ t.Finds w.db := by
  obtain ⟨target, state, auth, now, fails⟩ := t
  cases target with
  | post id =>
    simp only [ReviewTurn.exec, ReviewTurn.handler, updatePostModeration]
    cases moderationStateOf state with
    | none => exact .inl ⟨rfl, nofun⟩
    | some s =>
      dsimp only
      rcases exec_affected_cases .postsUpdate (fun w => w.db.posts.rows)
        (Post.isAt auth.tenantId id)
        (fun w => { w with db := w.db.reviewPost auth.tenantId id s w.now })
        (404, "post_not_found") (200, "post_status_updated_successfully")
        "failed_to_update_post_status" { w with now := now, fails := fails }
        with h | ⟨hfound, h⟩ | ⟨hnone, h⟩
      · rw [h]
        exact .inl ⟨rfl, nofun⟩
      · rw [h]
        exact .inr ⟨s, rfl, rfl, ⟨_, rfl⟩, hfound⟩
      · rw [h]
        exact .inl ⟨reviewPost_of_none hnone, nofun⟩
  | comment id =>
    simp only [ReviewTurn.exec, ReviewTurn.handler, updateCommentModeration]
    by_cases howner : auth.role ≠ .owner
    · rw [if_pos howner]
      exact .inl ⟨rfl, nofun⟩
    rw [if_neg howner]
    cases moderationStateOf state with
    | none => exact .inl ⟨rfl, nofun⟩
    | some s =>
      dsimp only
      rcases exec_affected_cases .commentsUpdate (fun w => w.db.comments.rows)
        (Comment.isAt auth.tenantId id)
        (fun w => { w with db := w.db.reviewComment auth.tenantId id s w.now })
        (404, "comment_not_found") (200, "comment_updated_successfully")
        "failed_to_update_comment" { w with now := now, fails := fails }
        with h | ⟨hfound, h⟩ | ⟨hnone, h⟩
      · rw [h]
        exact .inl ⟨rfl, nofun⟩
      · rw [h]
        exact .inr ⟨s, rfl, rfl, ⟨_, rfl⟩, hfound⟩
      · rw [h]
        exact .inl ⟨reviewComment_of_none hnone, nofun⟩

theorem spamAxisOf_effect_self (h : t.Finds db) :
    spamAxisOf (t.effect s db) t.target = (spamAxisOf db t.target).map (·.reviewed s t.now) := by
  obtain ⟨target, state, auth, now, fails⟩ := t
  cases target with
  | post id =>
    obtain ⟨p, hp, hat⟩ := h
    exact spamAxisOf_reviewPost_self hp hat
  | comment id =>
    obtain ⟨c, hc, hat⟩ := h
    exact spamAxisOf_reviewComment_self hc hat

theorem spamAxisOf_effect_of_ne (hx : t.target ≠ x) :
    spamAxisOf (t.effect s db) x = spamAxisOf db x := by
  obtain ⟨target, state, auth, now, fails⟩ := t
  cases target with
  | post id => exact spamAxisOf_reviewPost_of_ne hx
  | comment id => exact spamAxisOf_reviewComment_of_ne hx

/-- Everything a call can do to a row: it reviews the row and succeeds, or leaves it alone. -/
theorem spamAxisOf_exec (t : ReviewTurn) (w : World) (x : ReviewTarget) :
    (∃ s, t.Sets w x s ∧
      spamAxisOf (t.exec w).2.db x = (spamAxisOf w.db x).map (·.reviewed s t.now)) ∨
    (∀ s, ¬ t.Sets w x s) ∧ spamAxisOf (t.exec w).2.db x = spamAxisOf w.db x := by
  rcases exec_cases t w with ⟨hsame, hfailed⟩ | ⟨s, hstate, heffect, hreply, hfound⟩
  · refine .inr ⟨?_, by rw [hsame]⟩
    rintro s ⟨-, -, reply, hok⟩
    exact hfailed reply hok
  · by_cases hx : t.target = x
    · subst hx
      exact .inl ⟨s, ⟨rfl, hstate, hreply⟩, by rw [heffect, spamAxisOf_effect_self hfound]⟩
    · exact .inr ⟨fun s h => hx h.1, by rw [heffect, spamAxisOf_effect_of_ne hx]⟩

/-- A review is none of the pipeline's business. -/
theorem status_exec (t : ReviewTurn) (w : World) (n : Nat) :
    ((t.exec w).2.db.posts.byId n).map Post.status = (w.db.posts.byId n).map Post.status := by
  rcases exec_cases t w with ⟨hsame, -⟩ | ⟨s, -, heffect, -, -⟩
  · rw [hsame]
  · rw [heffect, ReviewTurn.effect]
    cases t.target with
    | comment id => rfl
    | post id =>
      dsimp only
      rw [Db.reviewPost, Sql.Table.byId_update, Option.map_map]
      congr 1
      funext p
      by_cases hat : p.isAt t.auth.tenantId id = true
      · rw [Function.comp, if_pos hat]
        rfl
      · rw [Function.comp, if_neg hat]

/-! ### Runs -/

theorem afterReviews_append (w : World) (before later : List ReviewTurn) :
    afterReviews w (before ++ later) = afterReviews (afterReviews w before) later := by
  induction before generalizing w with
  | nil => rfl
  | cons t before ih => exact ih _

/-- The score was never taken away, or it is kept. -/
def SpamAxis.Remembers (score : Nat) (a : SpamAxis) : Prop :=
  a.spamReviewedScore = none ∧ a.spamScore = score ∨ a.spamReviewedScore = some score

/-- The row has been judged harmless, and not quarantined since. -/
def SpamAxis.Cleared (a : SpamAxis) : Prop := a.moderationState ≠ .spam ∧ a.spamScore = 0

namespace SpamAxis

variable {a : SpamAxis} {score : Nat}

theorem Remembers.reviewed (h : a.Remembers score) (s : ModerationState) (now : Time) :
    (a.reviewed s now).Remembers score := by
  cases s with
  | published =>
    right
    rcases h with ⟨hnone, hscore⟩ | hsome
    · simp [SpamAxis.reviewed, assign, publish, hnone, hscore]
    · simp [SpamAxis.reviewed, assign, publish, hsome]
  | pending => exact h
  | spam => exact h

theorem Remembers.published (h : a.Remembers score) (now : Time) :
    (a.reviewed .published now).spamReviewedScore = some score := by
  rcases h with ⟨hnone, hscore⟩ | hsome
  · simp [SpamAxis.reviewed, assign, publish, hnone, hscore]
  · simp [SpamAxis.reviewed, assign, publish, hsome]

/-- A score that is kept stays the same. -/
theorem kept_reviewed (h : a.spamReviewedScore = some score) (s : ModerationState) (now : Time) :
    (a.reviewed s now).spamReviewedScore = some score := by
  cases s with
  | published => simp [reviewed, assign, publish, h]
  | pending => exact h
  | spam => exact h

theorem cleared_published (a : SpamAxis) (now : Time) : (a.reviewed .published now).Cleared :=
  ⟨by simp [reviewed, assign, publish], by simp [reviewed, assign, publish]⟩

theorem Cleared.reviewed (h : a.Cleared) {s : ModerationState} (hs : s ≠ .spam) (now : Time) :
    (a.reviewed s now).Cleared := by
  cases s with
  | published => exact cleared_published a now
  | pending => exact ⟨by simp [SpamAxis.reviewed, assign], h.2⟩
  | spam => exact absurd rfl hs

theorem Cleared.inReviewQueue {thresholds : SpamThresholds} (hflag : 0 < thresholds.flag)
    (h : a.Cleared) : a.inReviewQueue thresholds = false := by
  have hscore : ¬ ((a.spamScore : ℚ) ≥ thresholds.flag) := by
    rw [h.2, Nat.cast_zero]
    exact not_le.mpr hflag
  simp [SpamAxis.inReviewQueue, h.1, hscore]

end SpamAxis

/-- What the reviews keep true of a row holds after any calls; `ok` restricts the states that
they ask of the row. -/
theorem afterReviews_induction (P : SpamAxis → Prop) (ok : ModerationState → Prop)
    (hreviewed : ∀ a s now, P a → ok s → P (a.reviewed s now)) {w : World} {a : SpamAxis}
    (ha : spamAxisOf w.db x = some a) (hP : P a) (turns : List ReviewTurn)
    (hok : ∀ t ∈ turns, t.target = x → ∀ s, moderationStateOf t.state = some s → ok s) :
    ∃ b, spamAxisOf (afterReviews w turns).db x = some b ∧ P b := by
  induction turns generalizing w a with
  | nil => exact ⟨a, ha, hP⟩
  | cons t turns ih =>
    have hlater := fun t ht => hok t (List.mem_cons_of_mem _ ht)
    rcases spamAxisOf_exec t w x with ⟨s, ⟨hx, hs, -⟩, hset⟩ | ⟨-, hsame⟩
    · rw [ha] at hset
      exact ih hset (hreviewed a s t.now hP (hok t List.mem_cons_self hx s hs)) hlater
    · rw [ha] at hsame
      exact ih hsame hP hlater

theorem status_afterReviews (w : World) (turns : List ReviewTurn) (n : Nat) :
    ((afterReviews w turns).db.posts.byId n).map Post.status =
      (w.db.posts.byId n).map Post.status := by
  induction turns generalizing w with
  | nil => rfl
  | cons t turns ih => exact (ih _).trans (status_exec t w n)

/-- A row inserted with a score, and then reviewed in any way. Once it has been published, its
first score is kept for ever, and it is out of the review queue until it is called spam again.
Its place in the pipeline never changes. -/
theorem review_keeps_score (thresholds : SpamThresholds) (hflag : 0 < thresholds.flag) {w : World}
    {x : ReviewTarget} {a : SpamAxis} (hinserted : spamAxisOf w.db x = some a)
    (hfresh : a.spamReviewedScore = none) :
    (∀ before turn later, turn.Sets (afterReviews w before) x .published →
      (∃ b, spamAxisOf (afterReviews w (before ++ turn :: later)).db x = some b ∧
        b.spamReviewedScore = some a.spamScore) ∧
      ((∀ t ∈ later, t.target = x → t.state ≠ "spam") → ∀ p filters tenantId,
        .post p.id = x → filters.moderation = some "spam" →
          p ∉ listedPosts thresholds (afterReviews w (before ++ turn :: later)).db filters
            tenantId)) ∧
    ∀ turns n, ((afterReviews w turns).db.posts.byId n).map Post.status =
      (w.db.posts.byId n).map Post.status := by
  refine ⟨fun before turn later hsets => ?_, fun turns n => ?_⟩
  · -- Until the call, the score is in one of the two columns; the call moves it to the second.
    obtain ⟨b, hb, hremembers⟩ := afterReviews_induction (·.Remembers a.spamScore)
      (fun _ => True) (fun _ s now h _ => h.reviewed s now) hinserted
      (.inl ⟨hfresh, rfl⟩) before (fun _ _ _ _ _ => trivial)
    have hpublished : spamAxisOf (turn.exec (afterReviews w before)).2.db x =
        some (b.reviewed .published turn.now) := by
      rcases spamAxisOf_exec turn (afterReviews w before) x with ⟨s, ⟨-, hs, -⟩, hset⟩ | ⟨hnot, -⟩
      · obtain rfl : s = .published := Option.some.inj (hs.symm.trans hsets.2.1)
        rw [hset, hb]
        rfl
      · exact absurd hsets (hnot _)
    rw [afterReviews_append, afterReviews]
    constructor
    · exact afterReviews_induction (fun b => b.spamReviewedScore = some a.spamScore)
        (fun _ => True) (fun _ s now h _ => SpamAxis.kept_reviewed h s now) hpublished
        (hremembers.published turn.now) later (fun _ _ _ _ _ => trivial)
    · -- an item that was cleared and not judged again is in no review queue
      intro hquiet p filters tenantId hx hfilter hlisted
      obtain ⟨c, hc, hcleared⟩ := afterReviews_induction SpamAxis.Cleared
        (fun s => s ≠ .spam) (fun _ s now h hs => h.reviewed hs now) hpublished
        (SpamAxis.cleared_published b turn.now) later (fun t ht htarget s hs hspam => by
          subst hspam
          have htext := List.find?_some hs
          exact hquiet t ht htarget (beq_iff_eq.mp htext).symm)
      obtain ⟨hp, hshown⟩ := List.mem_filter.mp hlisted
      subst hx
      have hrow : (afterReviews (turn.exec (afterReviews w before)).2 later).db.posts.byId p.id =
          some p := Sql.Table.byId_eq_some_iff.mpr ⟨hp, rfl⟩
      rw [spamAxisOf, hrow] at hc
      obtain rfl : p.spamAxis = c := Option.some.inj hc
      rw [Post.isListed, if_pos hfilter, hcleared.inReviewQueue hflag] at hshown
      simp at hshown
  · exact status_afterReviews w turns n

/-- A post that the scorer has quarantined. -/
def casino : Post where
  id := 1
  tenantId := 1
  title := "Casino"
  description := ""
  moderationState := .spam
  spamScore := 13
  createdAt := 0

def quarantined : World where
  db :=
    { posts := (Sql.Table.empty.insert? fun id => { casino with id := id }).getD .empty }

/-- The owner asks for a state of the post. -/
def reviewCasino (state : String) : ReviewTurn where
  target := .post 1
  state := state
  auth := { id := 1, tenantId := some 1, role := .owner, email := "ada@example.com" }
  now := 5
  fails _ := false

/-- Published, parked and published again, the post has the score it was inserted with. -/
theorem score_of_casino :
    ∃ b, spamAxisOf (afterReviews quarantined ([reviewCasino "published", reviewCasino "pending"] ++
        reviewCasino "published" :: [])).db (.post 1) = some b ∧ b.spamReviewedScore = some 13 :=
  ((review_keeps_score {} (by decide) (x := .post 1) (a := casino.spamAxis) (by decide +kernel)
    (by decide)).1 [reviewCasino "published", reviewCasino "pending"] (reviewCasino "published") []
    ⟨rfl, by decide +kernel, _, rfl⟩).1

end Feedbase
