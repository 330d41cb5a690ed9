import Feedbase.Schema.Cascade

/-!
# Deleting posts and comments

A `DELETE` on `posts` takes along the votes, comments, tags, roadmap items and attachments of
the post, and clears the duplicate marks that point to it. A `DELETE` on `comments` takes along
the replies, their replies, and so on.

## Main definitions

* `Pruning` — the rows the statement names
* `Db.prune` — the database without them and what goes with them
* `Db.BoardKeys` — the foreign keys of posts, comments and what hangs on them
* `SameElsewhere`, `KeptApart`

## Main results

* `mem_comments_prune` — a comment goes if and only if it hangs under one that is cut
* `sameElsewhere_prune_iff` — when a workspace's delete changes no row of another one
-/

namespace Feedbase

open Sql

/-- The rows that a `DELETE` on `posts` or `comments` names. -/
structure Pruning where
  post : Post → Bool := fun _ => false
  comment : Comment → Bool := fun _ => false

/-- `duplicate_of_post_id = NULL`. -/
def Post.unmarked (p : Post) : Post := { p with duplicateOfPostId := none }

theorem Post.keyless_unmarked : Table.Keyless Post.unmarked := ⟨fun _ => rfl, fun _ _ => rfl⟩

namespace Db

variable (db : Db) (s : Pruning)

def prunedPost (id : Nat) : Bool := db.posts.rows.any fun p => p.id == id && s.post p

/-- The comment is named, or its post is. -/
def cut (c : Comment) : Bool := s.comment c || db.prunedPost s c.postId

/-- The comment is cut, or hangs under one that is. -/
def prunedComment (c : Comment) : Bool := Closure.reach db.comments.rows answers (db.cut s) c

/-- `DELETE`, with what the foreign keys say about it. -/
def prune : Db :=
  { db with
    posts := (db.posts.delete s.post).update
      (fun p => p.duplicateOfPostId.any (db.prunedPost s)) Post.unmarked Post.keyless_unmarked
    votes := db.votes.delete fun v => db.prunedPost s v.postId
    comments := db.comments.delete (db.prunedComment s)
    postTags := db.postTags.delete fun t => db.prunedPost s t.postId
    roadmapItems := db.roadmapItems.delete fun i => db.prunedPost s i.postId
    postAttachments := db.postAttachments.delete fun a => a.postId.any (db.prunedPost s) }

/-- The comment is cut, or an ancestor of it is. -/
abbrev HangsUnder (seed : Comment → Bool) (c : Comment) : Prop :=
  Closure.Reached db.comments.rows answers seed c

variable {db s} {c : Comment} {p : Post} {T : Option Nat}

theorem prunedPost_iff {id : Nat} :
    db.prunedPost s id = true ↔ ∃ p ∈ db.posts, p.id = id ∧ s.post p = true := by
  simp [prunedPost, Table.mem_def]

theorem prunedPost_eq_false (h : ∀ p, s.post p = false) (id : Nat) : db.prunedPost s id = false := by
  simp [prunedPost, h]

/-- A statement on `comments` cuts what it names. -/
theorem cut_comment (f : Comment → Bool) : db.cut { comment := f } = f := by
  funext c
  rw [cut, prunedPost_eq_false fun _ => rfl, Bool.or_false]

theorem mem_comments_prune :
    c ∈ (db.prune s).comments ↔ c ∈ db.comments ∧ ¬ db.HangsUnder (db.cut s) c := by
  rw [prune, Table.mem_delete]
  constructor
  · rintro ⟨hc, hgone⟩
    refine ⟨hc, fun h => ?_⟩
    rw [prunedComment, (Closure.reach_iff hc).mpr h] at hgone
    cases hgone
  · rintro ⟨hc, hstays⟩
    refine ⟨hc, Bool.eq_false_iff.mpr fun h => hstays ((Closure.reach_iff hc).mp h)⟩

theorem mem_posts_prune : p ∈ (db.prune s).posts ↔ ∃ q ∈ db.posts, s.post q = false ∧
    p = if q.duplicateOfPostId.any (db.prunedPost s) then q.unmarked else q := by
  rw [prune, Table.mem_update]
  simp only [Table.mem_delete, and_assoc]

/-- A post that is not named stays, and may lose its duplicate mark. -/
theorem exists_post_prune (hp : p ∈ db.posts) (hstays : s.post p = false) :
    ∃ q ∈ (db.prune s).posts, q.id = p.id := by
  refine ⟨_, mem_posts_prune.mpr ⟨p, hp, hstays, rfl⟩, ?_⟩
  split
  · rfl
  · rfl

theorem not_hangsUnder_of_no_seed {seed : Comment → Bool} (h : ∀ c, seed c = false) :
    ¬ db.HangsUnder seed c := by
  intro hunder
  induction hunder with
  | seed hb => simp [h] at hb
  | step _ _ _ ih => exact ih

/-- A statement on `comments` changes that table only. -/
theorem prune_of_no_post (h : ∀ p, s.post p = false) :
    db.prune s = { db with comments := db.comments.delete (db.prunedComment s) } := by
  have hpruned : ∀ id, db.prunedPost s id = false := prunedPost_eq_false h
  have hposts : (db.posts.delete s.post).update (fun p => p.duplicateOfPostId.any (db.prunedPost s))
      Post.unmarked Post.keyless_unmarked = db.posts := by
    rw [Table.delete_eq_self fun p _ => h p]
    refine @Table.update_eq_self Post _ db.posts _ _ Post.keyless_unmarked fun p _ hmark => ?_
    simp [hpruned, Option.any_eq_true] at hmark
  have hvotes := Table.delete_eq_self (T := db.votes) fun v _ => hpruned v.postId
  have htags := Table.delete_eq_self (T := db.postTags) fun t _ => hpruned t.postId
  have hitems := Table.delete_eq_self (T := db.roadmapItems) fun i _ => hpruned i.postId
  have hattachments : db.postAttachments.delete (fun a => a.postId.any (db.prunedPost s)) =
      db.postAttachments := Table.delete_eq_self fun a _ => by cases a.postId <;> simp [hpruned]
  rw [prune, hposts, hvotes, htags, hitems, hattachments]

/-- A statement that names nothing changes nothing. -/
theorem prune_of_nothing (hpost : ∀ p, s.post p = false) (hcomment : ∀ c, s.comment c = false) :
    db.prune s = db := by
  have hcut : ∀ c, db.cut s c = false := by
    intro c
    rw [cut, hcomment, prunedPost_eq_false hpost]
    rfl
  have hcomments : db.comments.delete (db.prunedComment s) = db.comments := by
    refine Table.delete_eq_self fun c hc => Bool.eq_false_iff.mpr fun h => ?_
    exact not_hangsUnder_of_no_seed hcut ((Closure.reach_iff hc).mp h)
  rw [prune_of_no_post hpost, hcomments]

/-- Posts first and comments after them go as they do together. -/
theorem prune_prune (f : Post → Bool) (g : Comment → Bool) :
    (db.prune { post := f }).prune { comment := g } = db.prune { post := f, comment := g } := by
  have hgone : ∀ c ∈ db.comments.rows, db.prunedComment { post := f } c = true ↔
      db.HangsUnder (db.cut { post := f }) c := fun c hc => Closure.reach_iff hc
  have hcomments : (db.comments.delete (db.prunedComment { post := f })).delete
      ((db.prune { post := f }).prunedComment { comment := g }) =
      db.comments.delete (db.prunedComment { post := f, comment := g }) := by
    refine Table.ext ?_ rfl
    rw [Table.rows_delete, Table.rows_delete, Table.rows_delete, List.filter_filter]
    refine List.filter_congr fun c hc => ?_
    -- What the second statement cuts among the comments that the first one left.
    have hunion : db.prunedComment { post := f, comment := g } c = true ↔
        db.prunedComment { post := f } c = true ∨ Closure.Reached
          (db.comments.rows.filter fun c => !db.prunedComment { post := f } c) answers g c := by
      have hcut : db.cut { post := f, comment := g } =
          fun c => db.cut { post := f } c || g c := by
        funext c
        exact Bool.or_comm _ _
      rw [prunedComment, Closure.reach_iff hc, hcut, Closure.reached_or_iff hgone, hgone c hc]
    have hsecond : db.prunedComment { post := f } c = false →
        ((db.prune { post := f }).prunedComment { comment := g } c = true ↔ Closure.Reached
          (db.comments.rows.filter fun c => !db.prunedComment { post := f } c) answers g c) := by
      intro hleft
      have hmem : c ∈ (db.prune { post := f }).comments.rows :=
        List.mem_filter.mpr ⟨hc, by rw [hleft]; rfl⟩
      rw [prunedComment, Closure.reach_iff hmem, cut_comment]
      rfl
    cases hfirst : db.prunedComment { post := f } c with
    | true =>
      rw [hunion.mpr (.inl hfirst)]
      simp
    | false =>
      rw [Bool.not_false, Bool.and_true]
      congr 1
      rw [Bool.eq_iff_iff, hsecond hfirst, hunion, hfirst]
      simp
  rw [prune_of_no_post fun _ => rfl]
  exact congrArg (fun comments => { db.prune { post := f, comment := g } with comments := comments })
    hcomments

end Db

/-! ### The foreign keys -/

/-- The foreign keys between posts, comments and what hangs on them. -/
def Db.boardKeys (db : Db) : Bool :=
  let tenant (id : Nat) := (db.tenants.byId id).isSome
  let user (id : Nat) := (db.users.byId id).isSome
  let post (id : Nat) := (db.posts.byId id).isSome
  db.posts.rows.all (fun p => tenant p.tenantId && p.authorId.all user &&
    p.duplicateOfPostId.all post) &&
  db.votes.rows.all (fun v => tenant v.tenantId && post v.postId && v.userId.all user) &&
  db.comments.rows.all (fun c => tenant c.tenantId && post c.postId && c.authorId.all user &&
    c.parentCommentId.all fun id => (db.comments.byId id).isSome) &&
  db.postTags.rows.all (fun t => tenant t.tenantId && post t.postId &&
    (db.tags.byId t.tagId).isSome) &&
  db.roadmapItems.rows.all (fun i => tenant i.tenantId && post i.postId &&
    (db.roadmapColumns.byId i.roadmapColumnId).isSome) &&
  db.postAttachments.rows.all fun a => tenant a.tenantId && a.postId.all post

/-- The state satisfies them. -/
def Db.BoardKeys (db : Db) : Prop := db.boardKeys = true

instance (db : Db) : Decidable db.BoardKeys := inferInstanceAs (Decidable (_ = true))

/-! ### Other workspaces -/

/-- No row of another workspace than `T` is removed, added or changed. -/
structure SameElsewhere (T : Option Nat) (db db' : Db) : Prop where
  posts : ∀ p : Post, some p.tenantId ≠ T → (p ∈ db'.posts ↔ p ∈ db.posts)
  votes : ∀ v : Vote, some v.tenantId ≠ T → (v ∈ db'.votes ↔ v ∈ db.votes)
  comments : ∀ c : Comment, some c.tenantId ≠ T → (c ∈ db'.comments ↔ c ∈ db.comments)
  postTags : ∀ t : PostTag, some t.tenantId ≠ T → (t ∈ db'.postTags ↔ t ∈ db.postTags)
  roadmapItems : ∀ i : RoadmapItem, some i.tenantId ≠ T →
    (i ∈ db'.roadmapItems ↔ i ∈ db.roadmapItems)
  postAttachments : ∀ a : PostAttachment, some a.tenantId ≠ T →
    (a ∈ db'.postAttachments ↔ a ∈ db.postAttachments)
  rest : db' = { db with
    posts := db'.posts
    votes := db'.votes
    comments := db'.comments
    postTags := db'.postTags
    roadmapItems := db'.roadmapItems
    postAttachments := db'.postAttachments }

/-- No row of another workspace is named, belongs to a post that is, is marked as its duplicate,
or hangs under a comment that goes. -/
structure KeptApart (T : Option Nat) (s : Pruning) (db : Db) : Prop where
  posts : ∀ p ∈ db.posts, some p.tenantId ≠ T →
    s.post p = false ∧ p.duplicateOfPostId.any (db.prunedPost s) = false
  votes : ∀ v ∈ db.votes, some v.tenantId ≠ T → db.prunedPost s v.postId = false
  comments : ∀ c ∈ db.comments, some c.tenantId ≠ T → ¬ db.HangsUnder (db.cut s) c
  postTags : ∀ t ∈ db.postTags, some t.tenantId ≠ T → db.prunedPost s t.postId = false
  roadmapItems : ∀ i ∈ db.roadmapItems, some i.tenantId ≠ T → db.prunedPost s i.postId = false
  postAttachments : ∀ a ∈ db.postAttachments, some a.tenantId ≠ T →
    a.postId.any (db.prunedPost s) = false

variable {db : Db} {s : Pruning} {T : Option Nat}

theorem comments_prune_iff (other : Nat → Prop) :
    (∀ c : Comment, other c.tenantId → (c ∈ (db.prune s).comments ↔ c ∈ db.comments)) ↔
      ∀ c ∈ db.comments, other c.tenantId → ¬ db.HangsUnder (db.cut s) c := by
  simp only [Db.mem_comments_prune, and_iff_left_iff_imp]
  exact ⟨fun h c hc hT => h c hT hc, fun h c hT hc => h c hc hT⟩

/-- A mark that is cleared is a change. -/
theorem posts_prune_iff (other : Nat → Prop) :
    (∀ p : Post, other p.tenantId → (p ∈ (db.prune s).posts ↔ p ∈ db.posts)) ↔
      ∀ p ∈ db.posts, other p.tenantId →
        s.post p = false ∧ p.duplicateOfPostId.any (db.prunedPost s) = false := by
  constructor
  · intro h p hp hT
    obtain ⟨r, hr, hnamed, heq⟩ := Db.mem_posts_prune.mp ((h p hT).mpr hp)
    have hid : r.id = p.id := by
      rw [heq]
      split
      · rfl
      · rfl
    obtain rfl : r = p := Table.eq_of_id hr hp hid
    refine ⟨hnamed, ?_⟩
    -- a mark that was taken off would not be the mark of the post
    by_cases hmark : r.duplicateOfPostId.any (db.prunedPost s) = true
    · rw [if_pos hmark] at heq
      rw [heq]
      rfl
    · exact Bool.eq_false_iff.mpr hmark
  · intro h q hT
    rw [Db.mem_posts_prune]
    constructor
    · rintro ⟨p, hp, -, heq⟩
      have htenant : q.tenantId = p.tenantId := by
        rw [heq]
        split
        · rfl
        · rfl
      have hmark := (h p hp (htenant ▸ hT)).2
      rw [hmark] at heq
      rw [heq]
      exact hp
    · intro hq
      obtain ⟨hnamed, hmark⟩ := h q hq hT
      exact ⟨q, hq, hnamed, by rw [hmark]; rfl⟩

/-- A delete changes no row of another workspace if and only if it keeps apart from them. -/
theorem sameElsewhere_prune_iff : SameElsewhere T db (db.prune s) ↔ KeptApart T s db := by
  constructor
  · intro h
    exact {
      posts := (posts_prune_iff (some · ≠ T)).mp h.posts
      votes := Table.mem_delete_iff_mem.mp h.votes
      comments := (comments_prune_iff (some · ≠ T)).mp h.comments
      postTags := Table.mem_delete_iff_mem.mp h.postTags
      roadmapItems := Table.mem_delete_iff_mem.mp h.roadmapItems
      postAttachments := Table.mem_delete_iff_mem.mp h.postAttachments }
  · intro h
    exact {
      posts := (posts_prune_iff (some · ≠ T)).mpr h.posts
      votes := Table.mem_delete_iff_mem.mpr h.votes
      comments := (comments_prune_iff (some · ≠ T)).mpr h.comments
      postTags := Table.mem_delete_iff_mem.mpr h.postTags
      roadmapItems := Table.mem_delete_iff_mem.mpr h.roadmapItems
      postAttachments := Table.mem_delete_iff_mem.mpr h.postAttachments
      rest := rfl }

end Feedbase
