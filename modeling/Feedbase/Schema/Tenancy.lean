import Feedbase.Lib.Owned
import Feedbase.Schema.Prune

/-!
# Workspaces that share tables

The rows of all workspaces stand in the same tables. The keys between posts, comments, tags and
the roadmap lead anywhere, so it takes an invariant for the rows of one workspace to be its own
affair: that every one of these keys stays within the workspace of its row. Then a statement made
for one workspace, and everything that it deletes along the keys, leaves the rows of every other
workspace as they are.

## Main definitions

* `OwnReferences` — the keys stay within the workspace
* `Db.Evolves` — ids are not given out twice, and rows keep their workspace
* `Db.SameFor` — the rows of a workspace are as they were
* `ActsFor` — what a statement for some of the workspaces does
* `Pruning.Spares` — a delete reaches no row of a workspace

## Main results

* `sameFor_prune_iff` — when a delete leaves the rows of a workspace as they are
* `actsFor_prune` — a delete of posts and comments, with all that goes with them
* `ActsFor.of_posts`, `ActsFor.of_comments`, … — a statement on one table
-/

namespace Feedbase

open Sql Sql.Table

instance : Owned Post Nat := ⟨Post.tenantId⟩
instance : Owned Vote Nat := ⟨Vote.tenantId⟩
instance : Owned Comment Nat := ⟨Comment.tenantId⟩
instance : Owned Tag Nat := ⟨Tag.tenantId⟩
instance : Owned PostTag Nat := ⟨PostTag.tenantId⟩
instance : Owned RoadmapColumn Nat := ⟨RoadmapColumn.tenantId⟩
instance : Owned RoadmapItem Nat := ⟨RoadmapItem.tenantId⟩
instance : Owned PostAttachment Nat := ⟨PostAttachment.tenantId⟩

/-- Every key between the tables of the board leads to rows of the row's own workspace, and what is
on the roadmap exists. -/
structure OwnReferences (db : Db) : Prop where
  duplicates : Refers Post.duplicateOfPostId db.posts db.posts
  votes : Refers (fun v : Vote => some v.postId) db.votes db.posts
  comments : Refers (fun c : Comment => some c.postId) db.comments db.posts
  parents : Refers Comment.parentCommentId db.comments db.comments
  labels : Refers (fun pt : PostTag => some pt.postId) db.postTags db.posts
  tags : Refers (fun pt : PostTag => some pt.tagId) db.postTags db.tags
  items : Refers (fun i : RoadmapItem => some i.postId) db.roadmapItems db.posts
  columns : Refers (fun i : RoadmapItem => some i.roadmapColumnId) db.roadmapItems db.roadmapColumns
  attachments : Refers PostAttachment.postId db.postAttachments db.posts
  placed : ∀ i ∈ db.roadmapItems, ∃ p ∈ db.posts, p.id = i.postId

instance (db : Db) : Decidable (OwnReferences db) :=
  decidable_of_iff (Refers Post.duplicateOfPostId db.posts db.posts ∧
      Refers (fun v : Vote => some v.postId) db.votes db.posts ∧
      Refers (fun c : Comment => some c.postId) db.comments db.posts ∧
      Refers Comment.parentCommentId db.comments db.comments ∧
      Refers (fun pt : PostTag => some pt.postId) db.postTags db.posts ∧
      Refers (fun pt : PostTag => some pt.tagId) db.postTags db.tags ∧
      Refers (fun i : RoadmapItem => some i.postId) db.roadmapItems db.posts ∧
      Refers (fun i : RoadmapItem => some i.roadmapColumnId) db.roadmapItems db.roadmapColumns ∧
      Refers PostAttachment.postId db.postAttachments db.posts ∧
      ∀ i ∈ db.roadmapItems, ∃ p ∈ db.posts, p.id = i.postId)
    ⟨fun ⟨h₁, h₂, h₃, h₄, h₅, h₆, h₇, h₈, h₉, h₁₀⟩ => ⟨h₁, h₂, h₃, h₄, h₅, h₆, h₇, h₈, h₉, h₁₀⟩,
      fun h => ⟨h.duplicates, h.votes, h.comments, h.parents, h.labels, h.tags, h.items, h.columns,
        h.attachments, h.placed⟩⟩

/-- The tables that keys lead to, and votes, evolve. -/
structure Db.Evolves (db db' : Db) : Prop where
  posts : Table.Evolves db.posts db'.posts
  votes : Table.Evolves db.votes db'.votes
  comments : Table.Evolves db.comments db'.comments
  tags : Table.Evolves db.tags db'.tags
  columns : Table.Evolves db.roadmapColumns db'.roadmapColumns

/-- What a workspace has is as it was, and so are the accounts and the workspaces. -/
structure Db.SameFor (T : Nat) (db db' : Db) : Prop where
  posts : Table.SameFor T db.posts db'.posts
  votes : Table.SameFor T db.votes db'.votes
  comments : Table.SameFor T db.comments db'.comments
  tags : Table.SameFor T db.tags db'.tags
  postTags : Table.SameFor T db.postTags db'.postTags
  columns : Table.SameFor T db.roadmapColumns db'.roadmapColumns
  items : Table.SameFor T db.roadmapItems db'.roadmapItems
  attachments : Table.SameFor T db.postAttachments db'.postAttachments
  users : db'.users = db.users
  tenants : db'.tenants = db.tenants

variable {db db' db'' : Db} {T : Nat} {who : Nat → Prop}

theorem Db.Evolves.refl (db : Db) : db.Evolves db :=
  ⟨.refl _, .refl _, .refl _, .refl _, .refl _⟩

theorem Db.Evolves.trans (h : db.Evolves db') (h' : db'.Evolves db'') : db.Evolves db'' where
  posts := h.posts.trans h'.posts
  votes := h.votes.trans h'.votes
  comments := h.comments.trans h'.comments
  tags := h.tags.trans h'.tags
  columns := h.columns.trans h'.columns

theorem Db.SameFor.refl (T : Nat) (db : Db) : Db.SameFor T db db :=
  ⟨rfl, rfl, rfl, rfl, rfl, rfl, rfl, rfl, rfl, rfl⟩

theorem Db.SameFor.trans (h : Db.SameFor T db db') (h' : Db.SameFor T db' db'') :
    Db.SameFor T db db'' where
  posts := h.posts.trans h'.posts
  votes := h.votes.trans h'.votes
  comments := h.comments.trans h'.comments
  tags := h.tags.trans h'.tags
  postTags := h.postTags.trans h'.postTags
  columns := h.columns.trans h'.columns
  items := h.items.trans h'.items
  attachments := h.attachments.trans h'.attachments
  users := h'.users.trans h.users
  tenants := h'.tenants.trans h.tenants

/-- The keys still stay within their workspaces, and only rows of the workspaces that the statement
is for are touched. -/
structure ActsFor (who : Nat → Prop) (db db' : Db) : Prop where
  evolves : db.Evolves db'
  own : OwnReferences db'
  others : ∀ U, ¬ who U → Db.SameFor U db db'

theorem ActsFor.refl (h : OwnReferences db) : ActsFor who db db :=
  ⟨.refl db, h, fun U _ => .refl U db⟩

/-! ### Statements on one table -/

section Statements

variable (h : OwnReferences db)

include h

theorem ActsFor.of_posts {posts : Table Post} (hev : Table.Evolves db.posts posts)
    (hstay : ∀ p ∈ db.posts, ∃ q ∈ posts, q.id = p.id)
    (hmarks : Refers Post.duplicateOfPostId posts db.posts)
    (hothers : ∀ U, ¬ who U → Table.SameFor U db.posts posts) :
    ActsFor who db { db with posts := posts } where
  evolves := { Db.Evolves.refl db with posts := hev }
  own :=
    { duplicates := hmarks.evolves hev
      votes := h.votes.evolves hev
      comments := h.comments.evolves hev
      parents := h.parents
      labels := h.labels.evolves hev
      tags := h.tags
      items := h.items.evolves hev
      columns := h.columns
      attachments := h.attachments.evolves hev
      placed := fun i hi => by
        obtain ⟨p, hp, hid⟩ := h.placed i hi
        obtain ⟨q, hq, hqid⟩ := hstay p hp
        exact ⟨q, hq, hqid.trans hid⟩ }
  others U hU := { Db.SameFor.refl U db with posts := hothers U hU }

theorem ActsFor.of_votes {votes : Table Vote} (hev : Table.Evolves db.votes votes)
    (hposts : Refers (fun v : Vote => some v.postId) votes db.posts)
    (hothers : ∀ U, ¬ who U → Table.SameFor U db.votes votes) :
    ActsFor who db { db with votes := votes } where
  evolves := { Db.Evolves.refl db with votes := hev }
  own := { h with votes := hposts }
  others U hU := { Db.SameFor.refl U db with votes := hothers U hU }

theorem ActsFor.of_comments {comments : Table Comment} (hev : Table.Evolves db.comments comments)
    (hposts : Refers (fun c : Comment => some c.postId) comments db.posts)
    (hparents : Refers Comment.parentCommentId comments db.comments)
    (hothers : ∀ U, ¬ who U → Table.SameFor U db.comments comments) :
    ActsFor who db { db with comments := comments } where
  evolves := { Db.Evolves.refl db with comments := hev }
  own := { h with comments := hposts, parents := hparents.evolves hev }
  others U hU := { Db.SameFor.refl U db with comments := hothers U hU }

theorem ActsFor.of_tags {tags : Table Tag} (hev : Table.Evolves db.tags tags)
    (hothers : ∀ U, ¬ who U → Table.SameFor U db.tags tags) :
    ActsFor who db { db with tags := tags } where
  evolves := { Db.Evolves.refl db with tags := hev }
  own := { h with tags := h.tags.evolves hev }
  others U hU := { Db.SameFor.refl U db with tags := hothers U hU }

theorem ActsFor.of_labels {labels : Table PostTag}
    (hposts : Refers (fun pt : PostTag => some pt.postId) labels db.posts)
    (htags : Refers (fun pt : PostTag => some pt.tagId) labels db.tags)
    (hothers : ∀ U, ¬ who U → Table.SameFor U db.postTags labels) :
    ActsFor who db { db with postTags := labels } where
  evolves := ⟨.refl _, .refl _, .refl _, .refl _, .refl _⟩
  own := { h with labels := hposts, tags := htags }
  others U hU := { Db.SameFor.refl U db with postTags := hothers U hU }

theorem ActsFor.of_columns {columns : Table RoadmapColumn}
    (hev : Table.Evolves db.roadmapColumns columns)
    (hothers : ∀ U, ¬ who U → Table.SameFor U db.roadmapColumns columns) :
    ActsFor who db { db with roadmapColumns := columns } where
  evolves := { Db.Evolves.refl db with columns := hev }
  own := { h with columns := h.columns.evolves hev }
  others U hU := { Db.SameFor.refl U db with columns := hothers U hU }

theorem ActsFor.of_items {items : Table RoadmapItem}
    (hposts : Refers (fun i : RoadmapItem => some i.postId) items db.posts)
    (hcolumns : Refers (fun i : RoadmapItem => some i.roadmapColumnId) items db.roadmapColumns)
    (hplaced : ∀ i ∈ items, ∃ p ∈ db.posts, p.id = i.postId)
    (hothers : ∀ U, ¬ who U → Table.SameFor U db.roadmapItems items) :
    ActsFor who db { db with roadmapItems := items } where
  evolves := ⟨.refl _, .refl _, .refl _, .refl _, .refl _⟩
  own := { h with items := hposts, columns := hcolumns, placed := hplaced }
  others U hU := { Db.SameFor.refl U db with items := hothers U hU }

theorem ActsFor.of_attachments {attachments : Table PostAttachment}
    (hposts : Refers PostAttachment.postId attachments db.posts)
    (hothers : ∀ U, ¬ who U → Table.SameFor U db.postAttachments attachments) :
    ActsFor who db { db with postAttachments := attachments } where
  evolves := ⟨.refl _, .refl _, .refl _, .refl _, .refl _⟩
  own := { h with attachments := hposts }
  others U hU := { Db.SameFor.refl U db with attachments := hothers U hU }

end Statements

theorem ActsFor.trans (h : ActsFor who db db') (h' : ActsFor who db' db'') :
    ActsFor who db db'' where
  evolves := h.evolves.trans h'.evolves
  own := h'.own
  others U hU := (h.others U hU).trans (h'.others U hU)

/-! ### Deletes -/

section Prune

/-- No row of the workspace is named, stands at a post that is, is marked as its duplicate, or hangs
under a comment that goes. -/
structure Pruning.Spares (s : Pruning) (T : Nat) (db : Db) : Prop where
  posts : ∀ p ∈ db.posts, p.tenantId = T →
    s.post p = false ∧ p.duplicateOfPostId.any (db.prunedPost s) = false
  votes : ∀ v ∈ db.votes, v.tenantId = T → db.prunedPost s v.postId = false
  comments : ∀ c ∈ db.comments, c.tenantId = T → ¬ db.HangsUnder (db.cut s) c
  postTags : ∀ t ∈ db.postTags, t.tenantId = T → db.prunedPost s t.postId = false
  roadmapItems : ∀ i ∈ db.roadmapItems, i.tenantId = T → db.prunedPost s i.postId = false
  postAttachments : ∀ a ∈ db.postAttachments, a.tenantId = T →
    a.postId.any (db.prunedPost s) = false

variable {s : Pruning} {c : Comment}

/-- A delete leaves the rows of a workspace as they are if and only if it reaches none of them. -/
theorem sameFor_prune_iff : Db.SameFor T db (db.prune s) ↔ s.Spares T db := by
  constructor
  · intro h
    exact {
      posts := (posts_prune_iff (· = T)).mp fun _ => h.posts.mem_iff
      votes := sameFor_delete_iff.mp h.votes
      comments := (comments_prune_iff (· = T)).mp fun _ => h.comments.mem_iff
      postTags := sameFor_delete_iff.mp h.postTags
      roadmapItems := sameFor_delete_iff.mp h.items
      postAttachments := sameFor_delete_iff.mp h.attachments }
  · intro h
    exact {
      posts := (SameFor.delete fun p hp hnamed howner => by
          rw [(h.posts p hp howner).1] at hnamed
          cases hnamed).trans
        (SameFor.update Post.keyless_unmarked (fun _ => rfl) fun p hp hmark howner => by
          rw [(h.posts p (mem_delete.mp hp).1 howner).2] at hmark
          cases hmark)
      votes := sameFor_delete_iff.mpr h.votes
      comments := .delete fun c hc hgone howner =>
        h.comments c hc howner ((Closure.reach_iff hc).mp hgone)
      tags := rfl
      postTags := sameFor_delete_iff.mpr h.postTags
      columns := rfl
      items := sameFor_delete_iff.mpr h.roadmapItems
      attachments := sameFor_delete_iff.mpr h.postAttachments
      users := rfl
      tenants := rfl }

/-- A post that is named is the caller's, and so is whatever refers to it. -/
theorem OwnReferences.tenant_of_pruned {ρ : Type} [Row ρ] [Owned ρ Nat] {t : Table ρ}
    {ref : ρ → Option Nat} (href : Refers ref t db.posts)
    (hposts : ∀ p ∈ db.posts, s.post p = true → who p.tenantId) {r : ρ} (hr : r ∈ t)
    (hgone : (ref r).any (db.prunedPost s) = true) : who (Owned.owner r) := by
  obtain ⟨id, hid, hpruned⟩ := (Option.any_eq_true _ _).mp hgone
  obtain ⟨p, hp, rfl, hnamed⟩ := Db.prunedPost_iff.mp hpruned
  have howner : p.tenantId = Owned.owner r := href.owner_eq hr hp hid
  exact howner ▸ hposts p hp hnamed

/-- What hangs under a comment of the caller's is the caller's. -/
theorem OwnReferences.tenant_of_hangsUnder (h : OwnReferences db)
    (hposts : ∀ p ∈ db.posts, s.post p = true → who p.tenantId)
    (hcomments : ∀ c ∈ db.comments, s.comment c = true → who c.tenantId)
    (hc : c ∈ db.comments) (hunder : db.HangsUnder (db.cut s) c) : who c.tenantId := by
  induction hunder with
  | seed hcut =>
    rcases (Bool.or_eq_true _ _).mp hcut with hnamed | hpruned
    · exact hcomments _ hc hnamed
    · exact OwnReferences.tenant_of_pruned h.comments hposts hc
        ((Option.any_eq_true _ _).mpr ⟨_, rfl, hpruned⟩)
  | @step a b ha _ hanswers ih =>
    have hparent : a.tenantId = b.tenantId := h.parents.owner_eq hc ha (beq_iff_eq.mp hanswers)
    exact hparent ▸ ih ha

/-- Where the keys stay within their workspaces, a delete of posts and comments of the caller's
reaches the caller's rows only. -/
theorem OwnReferences.spares (h : OwnReferences db) (who : Nat → Prop)
    (hposts : ∀ p ∈ db.posts, s.post p = true → who p.tenantId)
    (hcomments : ∀ c ∈ db.comments, s.comment c = true → who c.tenantId) (hT : ¬ who T) :
    s.Spares T db := by
  have hkept : ∀ {ρ : Type} [Row ρ] [Owned ρ Nat] {t : Table ρ} {ref : ρ → Option Nat},
      Refers ref t db.posts → ∀ r ∈ t, Owned.owner r = T →
        (ref r).any (db.prunedPost s) = false := by
    intro ρ _ _ t ref href r hr howner
    refine Bool.eq_false_iff.mpr fun hgone => hT ?_
    exact howner ▸ OwnReferences.tenant_of_pruned href hposts hr hgone
  exact {
    posts := fun p hp howner => ⟨Bool.eq_false_iff.mpr fun hnamed =>
      hT (howner ▸ hposts p hp hnamed), hkept h.duplicates p hp howner⟩
    votes := hkept h.votes
    comments := fun c hc howner hunder =>
      hT (howner ▸ h.tenant_of_hangsUnder hposts hcomments hc hunder)
    postTags := hkept h.labels
    roadmapItems := hkept h.items
    postAttachments := hkept h.attachments }

/-- A delete of posts and comments of the caller's. -/
theorem actsFor_prune (h : OwnReferences db)
    (hposts : ∀ p ∈ db.posts, s.post p = true → who p.tenantId)
    (hcomments : ∀ c ∈ db.comments, s.comment c = true → who c.tenantId) :
    ActsFor who db (db.prune s) := by
  have hunmarked : ∀ p : Post, Owned.owner p.unmarked = Owned.owner p := fun _ => rfl
  have hdeleted : Table.Evolves db.posts (db.prune s).posts :=
    Evolves.delete.trans (Evolves.update Post.keyless_unmarked hunmarked)
  have hcut : Table.Evolves db.comments (db.prune s).comments := .delete
  refine ⟨⟨hdeleted, .delete, hcut, .refl _, .refl _⟩, ?_, fun U hU =>
    sameFor_prune_iff.mpr (h.spares who hposts hcomments hU)⟩
  exact {
    duplicates := ((h.duplicates.delete.update Post.keyless_unmarked hunmarked fun _ _ _ _ hn => by
      cases hn).evolves hdeleted)
    votes := h.votes.delete.evolves hdeleted
    comments := h.comments.delete.evolves hdeleted
    parents := h.parents.delete.evolves hcut
    labels := h.labels.delete.evolves hdeleted
    tags := h.tags.delete
    items := h.items.delete.evolves hdeleted
    columns := h.columns.delete
    attachments := h.attachments.delete.evolves hdeleted
    placed := fun i hi => by
      obtain ⟨hi, hstays⟩ := mem_delete.mp hi
      obtain ⟨p, hp, hid⟩ := h.placed i hi
      have hnamed : s.post p = false := Bool.eq_false_iff.mpr fun hnamed =>
        Bool.eq_false_iff.mp hstays (Db.prunedPost_iff.mpr ⟨p, hp, hid, hnamed⟩)
      obtain ⟨q, hq, hqid⟩ := Db.exists_post_prune hp hnamed
      exact ⟨q, hq, hqid.trans hid⟩ }

end Prune

end Feedbase
