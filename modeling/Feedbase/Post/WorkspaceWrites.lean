import Feedbase.Comment.Comments
import Feedbase.Lib.Rely
import Feedbase.Post.DuplicateMarks
import Feedbase.Post.PostEdits
import Feedbase.Post.SpamCleanup
import Feedbase.Roadmap.RoadmapReads
import Feedbase.Schema.Tenancy
import Feedbase.Tag.Tags

/-!
# What the requests of a workspace write

A request writes for its workspace if its statements touch rows of that workspace only. Most
statements say so in their `WHERE` clause, or insert a row that refers to nothing; what goes with
the rows they delete is the workspace's too, as long as the keys stay within the workspaces.

## Main definitions

* `workspaceTerms` — the invariant, the rely and the promise
* `Writes` — a statement for some workspaces

## Main results

* `actsFor_…` — statements
* `within_…` — handlers
-/

namespace Feedbase

open Sql Sql.Table

/-- A caller's workspace; a caller without one has no rows. -/
def ofTenant (tenantId : Option Nat) (T : Nat) : Prop := tenantId = some T

/-- Requests for some workspaces, in a database whose keys stay within the workspaces. -/
def workspaceTerms : Terms (Nat → Prop) World where
  inv w := OwnReferences w.db
  rely w w' := w.db.Evolves w'.db
  promise who w w' := ActsFor who w.db w'.db
  refl _ _ h := .refl h
  keeps _ _ _ _ h := ⟨h.own, h.evolves⟩

/-- A statement that is one for some workspaces wherever the keys stay within them. -/
def Writes (who : Nat → Prop) (w w' : World) : Prop := OwnReferences w.db → ActsFor who w.db w'.db

theorem Writes.refl (who : Nat → Prop) (w : World) : Writes who w w := fun h => .refl h

variable {db : Db} {who : Nat → Prop} {T : Nat} {tenantId : Option Nat} {id : Nat}
  {K : World → Prop}

/-! ### Rows of the caller -/

theorem ne_of_who {n U : Nat} (hn : who n) (hU : ¬ who U) : n ≠ U := by
  rintro rfl
  exact hU hn

theorem Post.ofTenant_of_isAt {p : Post} (h : p.isAt tenantId id = true) :
    ofTenant tenantId p.tenantId := beq_iff_eq.mp (Bool.and_eq_true_iff.mp h).2

theorem Comment.ofTenant_of_isAt {c : Comment} (h : c.isAt tenantId id = true) :
    ofTenant tenantId c.tenantId := beq_iff_eq.mp (Bool.and_eq_true_iff.mp h).2

theorem Tag.ofTenant_of_isAt {t : Tag} (h : t.isAt tenantId id = true) :
    ofTenant tenantId t.tenantId := beq_iff_eq.mp (Bool.and_eq_true_iff.mp h).2

/-! ### Statements -/

section Statements

variable (h : OwnReferences db)

include h

/-- An `UPDATE` of posts of the caller that leaves their keys alone. -/
theorem actsFor_updatePosts {p : Post → Bool} {f : Post → Post} (hk : Keyless f)
    (htenant : ∀ q, (f q).tenantId = q.tenantId)
    (hmark : ∀ q, (f q).duplicateOfPostId = q.duplicateOfPostId)
    (hp : ∀ q, p q = true → who q.tenantId) :
    ActsFor who db { db with posts := db.posts.update p f hk } :=
  .of_posts h (.update hk htenant) (fun p hp => exists_id_update hk ⟨p, hp, rfl⟩)
    (h.duplicates.update_of_eq hk htenant hmark) fun _ hU =>
    .update hk htenant fun q _ hq => ne_of_who (hp q hq) hU

theorem actsFor_updateComments {p : Comment → Bool} {f : Comment → Comment} (hk : Keyless f)
    (htenant : ∀ c, (f c).tenantId = c.tenantId) (hpost : ∀ c, (f c).postId = c.postId)
    (hparent : ∀ c, (f c).parentCommentId = c.parentCommentId)
    (hp : ∀ c, p c = true → who c.tenantId) :
    ActsFor who db { db with comments := db.comments.update p f hk } :=
  .of_comments h (.update hk htenant)
    (h.comments.update_of_eq hk htenant fun c => congrArg some (hpost c))
    (h.parents.update_of_eq hk htenant hparent) fun _ hU =>
      .update hk htenant fun c _ hc => ne_of_who (hp c hc) hU

/-- A post that is marked as a duplicate of a post of the workspace. -/
theorem actsFor_markDuplicate {target : Option Nat}
    (htarget : ∀ T, tenantId = some T → ∀ n, target = some n → db.posts.Belongs T n) :
    ActsFor (ofTenant tenantId) db (db.markDuplicate tenantId id target) :=
  .of_posts h (.update (Post.keyless_markedAs target) fun _ => rfl)
    (fun p hp => exists_id_update (Post.keyless_markedAs target) ⟨p, hp, rfl⟩)
    (h.duplicates.update (Post.keyless_markedAs target) (fun _ => rfl) fun _ _ hq n hn =>
      htarget _ (Post.ofTenant_of_isAt hq) n hn) fun _ hU =>
        .update _ (fun _ => rfl) fun _ _ hq => ne_of_who (Post.ofTenant_of_isAt hq) hU

theorem actsFor_insertPost {mk : Nat → Post} {hmk : ∀ n, Row.id (mk n) = n} {posts : Table Post}
    (hins : db.posts.insert? mk hmk = some posts) (htenant : who (mk db.posts.next).tenantId)
    (hmark : (mk db.posts.next).duplicateOfPostId = none) :
    ActsFor who db { db with posts := posts } :=
  .of_posts h (.insert hins) (fun p hp => ⟨p, (mem_insert? hins).mpr (.inl hp), rfl⟩)
    (h.duplicates.insert hins fun n hn => by
      rw [hmark] at hn
      cases hn)
    fun _ hU => .insert hins (ne_of_who htenant hU)

/-- A comment on a post of the caller, under a comment of the caller. -/
theorem actsFor_insertComment {mk : Nat → Comment} {hmk : ∀ n, Row.id (mk n) = n}
    {comments : Table Comment} (hins : db.comments.insert? mk hmk = some comments)
    (htenant : who (mk db.comments.next).tenantId)
    (hpost : db.posts.Belongs (mk db.comments.next).tenantId (mk db.comments.next).postId)
    (hparent : ∀ n, (mk db.comments.next).parentCommentId = some n →
      db.comments.Belongs (mk db.comments.next).tenantId n) :
    ActsFor who db { db with comments := comments } :=
  .of_comments h (.insert hins)
    (h.comments.insert hins fun n hn => by
      cases hn
      exact hpost)
    (h.parents.insert hins hparent) fun _ hU => .insert hins (ne_of_who htenant hU)

/-- Uploads of the caller that are linked to a post of the workspace. -/
theorem actsFor_link {ids : List Nat} {postId : Nat}
    (hpost : ∀ T, tenantId = some T → db.posts.Belongs T postId) :
    ActsFor (ofTenant tenantId) db (db.link tenantId ids postId) := by
  have hclaimed : ∀ a : PostAttachment, a.isClaimed tenantId ids = true →
      ofTenant tenantId a.tenantId := by
    intro a ha
    exact beq_iff_eq.mp (Bool.and_eq_true_iff.mp (Bool.and_eq_true_iff.mp ha).1).1
  refine .of_attachments h (h.attachments.update (PostAttachment.keyless_linkedTo postId)
    (fun _ => rfl) fun a _ ha n hn => ?_) fun _ hU =>
      .update _ (fun _ => rfl) fun a _ ha => ne_of_who (hclaimed a ha) hU
  cases hn
  exact hpost _ (hclaimed a ha)

end Statements

/-! ### Handlers whose statements name the workspace -/

theorem within_thrown {R : World → World → Prop} {α : Type} (key : String) (e : Failure) :
    Prog.Within R (failWith key e : Handler α) := by
  cases e <;> trivial

theorem within_affecting {R : World → World → Prop} (hrefl : ∀ w, R w w) {δ : Type} {site : Site}
    {f : World → Option (Option δ × World)} {missing done : Nat × String} {failKey : String}
    (h : ∀ w d w', f w = some (d, w') → R w w') :
    Prog.Within R (affecting site f missing done failKey) := by
  refine .tryCatch (.bind (within_call hrefl h) fun d => ?_) (within_thrown _)
  cases d <;> trivial

theorem within_of_reads {R : World → World → Prop} (hrefl : ∀ w, R w w) {α : Type} {q : Handler α}
    (hq : Prog.Reads q) : Prog.Within R q := by
  refine hq.mono fun w w' heq => ?_
  rw [heq]
  exact hrefl w

theorem within_select {R : World → World → Prop} (hrefl : ∀ w, R w w) {α : Type} (site : Site)
    (f : Db → α) : Prog.Within R (selectAt site f) := by
  refine within_call hrefl fun w a w' hw => ?_
  cases hw
  exact hrefl w

/-- A statement that returns nothing of interest. -/
theorem within_statement {R : World → World → Prop} (hrefl : ∀ w, R w w) {site : Site}
    {g : World → World} (h : ∀ w, R w (g w)) {α : Type} {f : World → α} :
    Prog.Within R (call site fun w => some (f w, g w)) := by
  refine within_call hrefl fun w a w' hw => ?_
  cases hw
  exact h w

/-- `UPDATE` or `DELETE`, and how many rows were found. -/
theorem within_found {R : World → World → Prop} {α : Type} {f : World → α} {g : World → World}
    (h : ∀ w, R w (g w)) {δ : Type} {k : α → Handler δ} (hk : ∀ a, Prog.Within R (k a)) :
    Prog.Within R (Prog.atomic (fun w => (.ok (f w), g w)) >>= k) :=
  .bind (.step h) hk

theorem within_deletePostAt (tenantId : Option Nat) (id : Nat) (done failKey : String) :
    Prog.Within (Writes (ofTenant tenantId)) (deletePostAt tenantId id done failKey) := by
  refine within_affecting (Writes.refl _) fun w d w' hw h => ?_
  cases hw
  exact actsFor_prune h (fun p _ hp => Post.ofTenant_of_isAt hp) fun _ _ hc => by cases hc

theorem within_deletePost (id : Nat) (auth : AuthData) :
    Prog.Within (Writes (ofTenant auth.tenantId)) (deletePost id auth) := by
  unfold deletePost
  refine .ite trivial (.bind (within_of_reads (Writes.refl _) (reads_query _)) fun plan => ?_)
  exact .ite trivial (within_deletePostAt _ _ _ _)

theorem within_updatePost (id : Nat) (e : PostEdit) (auth : AuthData) :
    Prog.Within (Writes (ofTenant auth.tenantId)) (updatePost id e auth) := by
  refine within_affecting (Writes.refl _) fun w d w' hw h => ?_
  obtain ⟨r, hr, heq⟩ := Option.map_eq_some_iff.mp hw
  obtain ⟨-, rfl⟩ := Prod.mk.inj heq
  unfold Db.editPost at hr
  split at hr
  · split at hr
    · cases hr
      exact actsFor_updatePosts h _ (fun _ => rfl) (fun _ => rfl) fun _ => Post.ofTenant_of_isAt
    · cases hr
  · cases hr
    exact .refl h

theorem actsFor_pinPost (h : OwnReferences db) (isPinned : Bool) :
    ActsFor (ofTenant tenantId) db (db.pinPost tenantId id isPinned) :=
  actsFor_updatePosts h _ (fun _ => rfl) (fun _ => rfl) fun _ => Post.ofTenant_of_isAt

theorem within_updatePostPin (id : Nat) (isPinned : Option Bool) (auth : AuthData) :
    Prog.Within (Writes (ofTenant auth.tenantId)) (updatePostPin id isPinned auth) := by
  refine .tryCatch (.bind (within_select (Writes.refl _) _ _) fun post => ?_) (within_thrown _)
  cases post with
  | none => trivial
  | some p =>
    exact .bind (within_statement (Writes.refl _) fun _ h => actsFor_pinPost h _) fun _ => trivial

theorem within_setPostPin (T id : Nat) (isPinned : Bool) :
    Prog.Within (Writes (ofTenant (some T))) (Admin.setPostPin T id isPinned) := by
  refine within_affecting (Writes.refl _) fun w d w' hw h => ?_
  cases hw
  exact actsFor_pinPost h isPinned

theorem within_updatePostModeration (id : Nat) (state : String) (auth : AuthData) :
    Prog.Within (Writes (ofTenant auth.tenantId)) (updatePostModeration id state auth) := by
  unfold updatePostModeration
  cases moderationStateOf state with
  | none => trivial
  | some s =>
    refine within_affecting (Writes.refl _) fun w d w' hw h => ?_
    cases hw
    exact actsFor_updatePosts h _ (fun _ => rfl) (fun _ => rfl) fun _ => Post.ofTenant_of_isAt

theorem within_updateCommentModeration (id : Nat) (state : String) (auth : AuthData) :
    Prog.Within (Writes (ofTenant auth.tenantId)) (updateCommentModeration id state auth) := by
  unfold updateCommentModeration
  refine .ite trivial ?_
  cases moderationStateOf state with
  | none => trivial
  | some s =>
    refine within_affecting (Writes.refl _) fun w d w' hw h => ?_
    cases hw
    exact actsFor_updateComments h _ (fun _ => rfl) (fun _ => rfl) (fun _ => rfl) fun _ =>
      Comment.ofTenant_of_isAt

theorem within_purgeSpamPosts (auth : AuthData) (ids : Option (List (Option Int)))
    (olderThanDays : Option Int) :
    Prog.Within (Writes (ofTenant auth.tenantId)) (purgeSpamPosts auth ids olderThanDays) := by
  unfold purgeSpamPosts
  refine .ite trivial ?_
  cases purgeScope ids olderThanDays with
  | none => trivial
  | some scope =>
    refine .tryCatch (.bind (within_statement (Writes.refl _) fun w h => ?_) fun _ => trivial)
      (within_thrown _)
    refine actsFor_prune h (fun p _ hp => ?_) fun _ _ hc => by cases hc
    -- The first of the three conditions of the `WHERE` clause.
    exact beq_iff_eq.mp (Bool.and_eq_true_iff.mp (Bool.and_eq_true_iff.mp hp).1).1

/-- The timer clears the spam of all workspaces. -/
theorem within_purgeExpiredSpam (env : Option Int) :
    Prog.Within (Writes fun _ => True) (purgeExpiredSpam env) := by
  unfold purgeExpiredSpam
  refine .ite trivial (.tryCatch (.bind (within_statement (Writes.refl _) fun w h => ?_) fun _ =>
    .bind (within_statement (Writes.refl _) fun w h => ?_) fun _ => trivial) fun _ => trivial)
  · exact actsFor_prune h (fun _ _ _ => trivial) fun _ _ _ => trivial
  · exact actsFor_prune h (fun _ _ _ => trivial) fun _ _ _ => trivial

theorem actsFor_editComments (h : OwnReferences db) {where? : Comment → Bool} (body : String)
    (hwhere : ∀ c, where? c = true → who c.tenantId) :
    ActsFor who db (db.editComments where? body) :=
  actsFor_updateComments h _ (fun _ => rfl) (fun _ => rfl) (fun _ => rfl) hwhere

theorem within_updateComment (id : Nat) (body : Option String) (auth : AuthData) :
    Prog.Within (Writes (ofTenant auth.tenantId)) (updateComment id body auth) := by
  refine within_affecting (Writes.refl _) fun w d w' hw h => ?_
  split at hw
  · obtain ⟨body, -, heq⟩ := Option.map_eq_some_iff.mp hw
    obtain ⟨-, rfl⟩ := Prod.mk.inj heq
    exact actsFor_editComments h body fun c hc =>
      Comment.ofTenant_of_isAt (Bool.and_eq_true_iff.mp hc).1
  · cases hw
    exact .refl h

theorem within_deleteComment (id : Nat) (auth : AuthData) :
    Prog.Within (Writes (ofTenant auth.tenantId)) (deleteComment id auth) := by
  refine within_affecting (Writes.refl _) fun w d w' hw h => ?_
  cases hw
  exact actsFor_prune h (fun _ _ hp => by cases hp) fun c _ hc =>
    Comment.ofTenant_of_isAt (Bool.and_eq_true_iff.mp hc).1

theorem within_adminDeleteComment (T id : Nat) :
    Prog.Within (Writes (ofTenant (some T))) (Admin.deleteComment T id) := by
  refine within_affecting (Writes.refl _) fun w d w' hw h => ?_
  cases hw
  refine actsFor_prune h (fun _ _ hp => by cases hp) fun c _ hc => ?_
  exact congrArg some (beq_iff_eq.mp (Bool.and_eq_true_iff.mp hc).1).symm

/-! ### Tags -/

theorem within_createTag (name colorHex : Option String) (auth : AuthData) :
    Prog.Within (Writes (ofTenant auth.tenantId)) (createTag name colorHex auth) := by
  refine .tryCatch ?_ (within_thrown _)
  cases auth.tenantId with
  | none => trivial
  | some T =>
    cases name with
    | none => trivial
    | some name =>
      refine .bind (.attempt (Writes.refl _) fun w n w' hw h => ?_) fun _ => trivial
      obtain ⟨r, hr, heq⟩ := Option.map_eq_some_iff.mp hw
      obtain ⟨-, rfl⟩ := Prod.mk.inj heq
      dsimp only [Db.insertTag] at hr
      split at hr
      · cases hr
      · obtain ⟨tags, hins, rfl⟩ := Option.map_eq_some_iff.mp hr
        have hmine : ofTenant (some T) T := rfl
        exact .of_tags h (.insert hins) fun _ hU => .insert hins (ne_of_who hmine hU)

theorem within_updateTag (id : Nat) (name colorHex : Option String) (auth : AuthData) :
    Prog.Within (Writes (ofTenant auth.tenantId)) (updateTag id name colorHex auth) := by
  refine .tryCatch (.bind (.attempt (Writes.refl _) fun w n w' hw h => ?_) fun _ =>
    .ite trivial trivial) (within_thrown _)
  obtain ⟨r, hr, heq⟩ := Option.map_eq_some_iff.mp hw
  obtain ⟨-, rfl⟩ := Prod.mk.inj heq
  dsimp only [Db.editTag] at hr
  split at hr
  · obtain ⟨name, -, hr⟩ := Option.bind_eq_some_iff.mp hr
    obtain ⟨tags, hset, rfl⟩ := Option.map_eq_some_iff.mp hr
    have htenant : ∀ t : Tag, (t.edited name colorHex).tenantId = t.tenantId := fun _ => rfl
    have hevolves : Table.Evolves w.db.tags tags :=
      evolves_of_set (f := Tag.edited name colorHex) (fun _ => rfl) htenant (update?_next hset)
        fun t ht => (mem_update? hset).mp ht
    exact .of_tags h hevolves fun _ hU => SameFor.set htenant (update?_rows hset) fun t _ ht =>
      ne_of_who (Tag.ofTenant_of_isAt ht) hU
  · cases hr
    exact .refl h

/-- The labels that go with a tag are those of its own workspace. -/
theorem actsFor_deleteTag (h : OwnReferences db) :
    ActsFor (ofTenant tenantId) db (db.deleteTag tenantId id) := by
  have htags : ActsFor (ofTenant tenantId) db { db with
      postTags := db.postTags.delete fun pt =>
        db.tags.rows.any fun t => t.id == pt.tagId && Tag.isAt tenantId id t } := by
    refine .of_labels h h.labels.delete h.tags.delete fun _ hU => .delete fun pt hpt hgone => ?_
    obtain ⟨t, ht, hat⟩ := List.any_eq_true.mp hgone
    obtain ⟨hid, hat⟩ := Bool.and_eq_true_iff.mp hat
    have howner : t.tenantId = pt.tenantId :=
      h.tags.owner_eq hpt ht (congrArg some (beq_iff_eq.mp hid).symm)
    have hmine : ofTenant tenantId pt.tenantId := howner ▸ Tag.ofTenant_of_isAt hat
    exact ne_of_who hmine hU
  exact htags.trans (.of_tags htags.own .delete fun _ hU => .delete fun t _ ht =>
    ne_of_who (Tag.ofTenant_of_isAt ht) hU)

theorem within_deleteTag (id : Nat) (auth : AuthData) :
    Prog.Within (Writes (ofTenant auth.tenantId)) (deleteTag id auth) :=
  .tryCatch (within_found (fun _ => actsFor_deleteTag) fun _ => .ite trivial trivial)
    (within_thrown _)

theorem within_removeTagFromPost (postId tagId : Nat) (auth : AuthData) :
    Prog.Within (Writes (ofTenant auth.tenantId)) (removeTagFromPost postId tagId auth) := by
  refine .tryCatch (within_found (fun w h => ?_) fun _ => .ite trivial trivial) (within_thrown _)
  refine .of_labels h h.labels.delete h.tags.delete fun _ hU => .delete fun pt _ hpt => ?_
  have hmine : ofTenant auth.tenantId pt.tenantId :=
    beq_iff_eq.mp (Bool.and_eq_true_iff.mp (Bool.and_eq_true_iff.mp hpt).1).1
  exact ne_of_who hmine hU

/-! ### Uploads -/

theorem within_storeAttachment (file : Option UploadedFile) (T : Nat) (storagePath : String) :
    Prog.Within (Writes (ofTenant (some T))) (storeAttachment file T storagePath) := by
  unfold storeAttachment
  cases file with
  | none => trivial
  | some f =>
    dsimp only
    cases kindForMime f.mimetype with
    | none => trivial
    | some kind =>
      refine .ite trivial (.tryCatch (.bind (within_call (Writes.refl _) fun w n w' hw h => ?_)
        fun _ => trivial) fun _ => trivial)
      split at hw
      · cases hw
      · obtain ⟨attachments, hins, heq⟩ := Option.map_eq_some_iff.mp hw
        obtain ⟨-, rfl⟩ := Prod.mk.inj heq
        have hmine : ofTenant (some T) T := rfl
        exact .of_attachments h (h.attachments.insert hins fun n hn => by cases hn) fun _ hU =>
          .insert hins (ne_of_who hmine hU)

/-! ### The portal's own content -/

theorem within_forAuthor {R : World → World → Prop} {author : Except String (Option Nat)}
    {authUser : Option AuthData} {k : Handler (Reply Unit)} (hk : Prog.Within R k) :
    Prog.Within R (forAuthor author authUser k) := by
  unfold forAuthor
  cases author with
  | error missing => trivial
  | ok authorId => exact .ite hk trivial

theorem actsFor_publicEditPost (h : OwnReferences db) (title description : String)
    (postType : Option String) :
    ActsFor (ofTenant (some T)) db (db.publicEditPost T id title description postType) :=
  actsFor_updatePosts h _ (fun _ => rfl) (fun _ => rfl) fun _ => Post.ofTenant_of_isAt

theorem within_updatePublicPost (T id : Nat) (data : PublicPostEdit) (authUser : Option AuthData) :
    Prog.Within (Writes (ofTenant (some T))) (updatePublicPost T id data authUser) :=
  .bind (within_select (Writes.refl _) _ _) fun _ => within_forAuthor (.ite trivial (.bind
    (within_statement (Writes.refl _) fun _ h => actsFor_publicEditPost h _ _ _) fun _ => trivial))

theorem within_deletePublicPost (T id : Nat) (authUser : Option AuthData) :
    Prog.Within (Writes (ofTenant (some T))) (deletePublicPost T id authUser) :=
  .bind (within_select (Writes.refl _) _ _) fun _ => within_forAuthor (.bind
    (within_statement (Writes.refl _) fun _ h => actsFor_prune h
      (fun _ _ => Post.ofTenant_of_isAt) fun _ _ hc => by cases hc) fun _ => trivial)

theorem within_updatePublicComment (T id : Nat) (body : Option Text) (authUser : Option AuthData) :
    Prog.Within (Writes (ofTenant (some T))) (updatePublicComment T id body authUser) :=
  .bind (within_select (Writes.refl _) _ _) fun _ => within_forAuthor (.ite trivial (.bind
    (within_statement (Writes.refl _) fun _ h => actsFor_editComments h _ fun _ =>
      Comment.ofTenant_of_isAt) fun _ => trivial))

theorem within_deletePublicComment (T id : Nat) (authUser : Option AuthData) :
    Prog.Within (Writes (ofTenant (some T))) (deletePublicComment T id authUser) :=
  .bind (within_select (Writes.refl _) _ _) fun _ => within_forAuthor (.bind
    (within_statement (Writes.refl _) fun _ h => actsFor_prune h (fun _ _ hp => by cases hp)
      fun _ _ => Comment.ofTenant_of_isAt) fun _ => trivial)

/-! ### The roadmap -/

theorem ofTenant_of_beq {n : Nat} {b : Bool} (h : (b && n == T) = true) : ofTenant (some T) n :=
  congrArg some (beq_iff_eq.mp (Bool.and_eq_true_iff.mp h).2).symm

theorem actsFor_setStatus (h : OwnReferences db) (postId : Nat) (s : PostStatus) :
    ActsFor (ofTenant (some T)) db (db.setStatus T postId s) :=
  actsFor_updatePosts h _ (fun _ => rfl) (fun _ => rfl) fun _ hp => ofTenant_of_beq hp

theorem within_createRoadmapColumn (name columnKey : String) (sortOrder : Option Int) (T : Nat) :
    Prog.Within (Writes (ofTenant (some T))) (createRoadmapColumn name columnKey sortOrder T) := by
  refine .tryCatch (.bind (.attempt (Writes.refl _) fun w n w' hw h => ?_) fun _ =>
    trivial) (within_thrown _)
  split at hw
  · cases hw
  obtain ⟨columns, hins, heq⟩ := Option.map_eq_some_iff.mp hw
  obtain ⟨-, rfl⟩ := Prod.mk.inj heq
  have hmine : ofTenant (some T) T := rfl
  exact .of_columns h (.insert hins) fun _ hU => .insert hins (ne_of_who hmine hU)

/-- The items that go with a column are those of its own workspace. -/
theorem actsFor_deleteColumn (h : OwnReferences db) :
    ActsFor (ofTenant (some T)) db (db.deleteColumn T id) := by
  have hitems : ActsFor (ofTenant (some T)) db { db with
      roadmapItems := db.roadmapItems.delete fun i => db.roadmapColumns.rows.any fun c =>
        c.id == id && c.tenantId == T && c.id == i.roadmapColumnId } := by
    refine .of_items h h.items.delete h.columns.delete
      (fun i hi => h.placed i (mem_delete.mp hi).1) fun _ hU => .delete fun i hi hgone => ?_
    obtain ⟨c, hc, hat⟩ := List.any_eq_true.mp hgone
    obtain ⟨hat, hid⟩ := Bool.and_eq_true_iff.mp hat
    have howner : c.tenantId = i.tenantId :=
      h.columns.owner_eq hi hc (congrArg some (beq_iff_eq.mp hid).symm)
    have hmine : ofTenant (some T) i.tenantId := howner ▸ ofTenant_of_beq hat
    exact ne_of_who hmine hU
  exact hitems.trans (.of_columns hitems.own .delete fun _ hU => .delete fun c _ hc =>
    ne_of_who (ofTenant_of_beq hc) hU)

theorem within_deleteRoadmapColumn (id T : Nat) :
    Prog.Within (Writes (ofTenant (some T))) (deleteRoadmapColumn id T) :=
  .tryCatch (within_found (fun _ => actsFor_deleteColumn) fun _ => .ite trivial trivial)
    (within_thrown _)

theorem within_updateRoadmapColumn (id : Nat) (name : String) (sortOrder : Int) (T : Nat) :
    Prog.Within (Writes (ofTenant (some T))) (updateRoadmapColumn id name sortOrder T) := by
  refine .tryCatch (within_found (fun w h => ?_) fun _ => .ite trivial trivial) (within_thrown _)
  have hkey := RoadmapColumn.keyless_renamed name sortOrder
  exact .of_columns h (.update hkey fun _ => rfl) fun _ hU =>
    .update hkey (fun _ => rfl) fun c _ hc => ne_of_who (ofTenant_of_beq hc) hU

theorem within_removeItemFromRoadmap (id T : Nat) :
    Prog.Within (Writes (ofTenant (some T))) (removeItemFromRoadmap id T) := by
  refine .tryCatch (.bind (within_of_reads (Writes.refl _) (reads_query _)) fun item =>
    within_found (fun w h => ?_) fun _ => .ite trivial ?_) (within_thrown _)
  · exact .of_items h h.items.delete h.columns.delete
      (fun i hi => h.placed i (mem_delete.mp hi).1) fun _ hU => .delete fun i _ hi =>
      ne_of_who (ofTenant_of_beq hi) hU
  · cases item with
    | none => trivial
    | some i =>
      exact .bind (.ite trivial (.write fun w h => actsFor_setStatus h _ _)) fun _ => trivial

end Feedbase
