import Feedbase.Comment.Threads
import Feedbase.Post.WorkspaceWrites
import Feedbase.Public.Votes

/-!
# Requests that use ids

A handler that has looked a row of its workspace up may use its id in a later statement, whatever
other requests do in between: ids are not given out twice, and rows keep their workspace. A handler
that uses an id as the request gives it writes for its workspace if the id belongs to it.

## Main definitions

* `CommentData.RefersToOwn`, `LabelsOwn`, `PlacesOwn`, `ItemPatch.MovesToOwn` — ids that a request
  gives

## Main results

* `acts_…` — what the handlers promise
-/

namespace Feedbase

open Sql Sql.Table

variable {db : Db} {who : Nat → Prop} {T : Nat} {tenantId : Option Nat} {id : Nat}
  {K : World → Prop}

/-! ### Rules -/

section Acts

variable {α : Type} {J : α → World → Prop}

theorem lasts_post {o n : Nat} : Lasts workspaceTerms.rely fun w => w.db.posts.Belongs o n :=
  fun _ _ hrely h => h.evolves hrely.posts

theorem lasts_vote {o n : Nat} : Lasts workspaceTerms.rely fun w => w.db.votes.Belongs o n :=
  fun _ _ hrely h => h.evolves hrely.votes

theorem lasts_comment {o n : Nat} : Lasts workspaceTerms.rely fun w => w.db.comments.Belongs o n :=
  fun _ _ hrely h => h.evolves hrely.comments

theorem lasts_tag {o n : Nat} : Lasts workspaceTerms.rely fun w => w.db.tags.Belongs o n :=
  fun _ _ hrely h => h.evolves hrely.tags

theorem lasts_column {o n : Nat} :
    Lasts workspaceTerms.rely fun w => w.db.roadmapColumns.Belongs o n :=
  fun _ _ hrely h => h.evolves hrely.columns

theorem lasts_forall {β : Sort*} {R : World → World → Prop} {Q : β → World → Prop}
    (h : ∀ b, Lasts R (Q b)) : Lasts R fun w => ∀ b, Q b w :=
  fun w w' hR hQ b => h b w w' hR (hQ b)

/-- Of a statement it is enough to know what it does where it does not throw. -/
theorem acts_call {site : Site} {f : World → Option (α × World)}
    (hJ : ∀ a, Lasts workspaceTerms.rely (J a))
    (h : ∀ w a w', OwnReferences w.db → K w → f w = some (a, w') →
      ActsFor who w.db w'.db ∧ J a w') : Acts workspaceTerms who K (call site f) J := by
  refine .attempt hJ fun w a w' hown hK hw => ?_
  split at hw
  · cases hw
  · exact h w a w' hown hK hw

theorem acts_select {site : Site} {f : Db → α} (hJ : ∀ a, Lasts workspaceTerms.rely (J a))
    (h : ∀ w, K w → J (f w.db) w) : Acts workspaceTerms who K (selectAt site f) J := by
  refine acts_call hJ fun w a w' hown hK hw => ?_
  cases hw
  exact ⟨.refl hown, h w hK⟩

theorem acts_reject (code : Nat) (key : String) :
    Acts workspaceTerms who K (reject code key : Handler α) J := .fail _

theorem acts_failWith (key : String) (e : Failure) :
    Acts workspaceTerms who K (failWith key e : Handler α) J := by
  cases e with
  | rejected code key' => exact acts_reject code key'
  | duplicate | belowMinimum | error => exact acts_reject 500 key

/-- The end of a handler. -/
theorem acts_resolve {δ : Type} (code : Nat) (key : String) (d : δ) :
    Acts workspaceTerms who K (resolve code key d) fun _ _ => True := .ret fun _ _ => trivial

theorem acts_of_within {q : Handler α} (hq : Prog.Within (Writes who) q) :
    Acts workspaceTerms who K q fun _ _ => True :=
  (Acts.of_within .true hq).weaken fun _ _ => trivial

end Acts

/-! ### Votes -/

theorem acts_deleteVote (id : Nat) :
    Acts workspaceTerms (ofTenant (some T)) (fun w => w.db.votes.Belongs T id) (deleteVote id)
      fun _ _ => True := by
  refine acts_call (fun _ => .true) fun w _ w' h hid hw => ?_
  cases hw
  refine ⟨.of_votes h .delete h.votes.delete fun _ hU => .delete fun v hv hvid => ?_, trivial⟩
  have hmine : ofTenant (some T) v.tenantId :=
    congrArg some (hid.owner_eq v hv (beq_iff_eq.mp hvid)).symm
  exact ne_of_who hmine hU

theorem acts_insertVote (postId : Nat) (guest : String) (hash : Option VoterHash) :
    Acts workspaceTerms (ofTenant (some T)) (fun w => w.db.posts.Belongs T postId)
      (insertVote T postId guest hash) fun _ _ => True := by
  refine acts_call (fun _ => .true) fun w _ w' h hpost hw => ⟨?_, trivial⟩
  split at hw
  · split at hw
    · rename_i votes hins
      cases hw
      have hmine : ofTenant (some T) T := rfl
      refine .of_votes h (.insert hins) (h.votes.insert hins fun n hn => ?_) fun _ hU =>
        .insert hins (ne_of_who hmine hU)
      cases hn
      exact hpost
    · cases hw
      exact .refl h
  · cases hw
    exact .refl h

/-- What is known of the post that a visitor has found, and of the vote for it. -/
theorem belongs_of_visiblePost {postId : Nat} {p : Post} (h : visiblePost db T postId = some p) :
    db.posts.Belongs T postId := by
  obtain ⟨hp, rfl, rfl⟩ := visiblePost_eq_some h
  exact belongs_of_mem hp

theorem belongs_of_voteOf {postId : Nat} {guest : String} {hash : Option VoterHash} {v : Vote}
    (h : voteOf T postId guest hash db.votes = some v) : db.votes.Belongs T v.id := by
  obtain ⟨hv, hof⟩ := voteOf_eq_some h
  obtain ⟨rfl, -⟩ := isOf_vote_iff.mp hof
  exact belongs_of_mem hv

theorem acts_togglePublicVote (T postId : Nat) (guestId : Option String)
    (hash : Option VoterHash) :
    Acts workspaceTerms (ofTenant (some T)) K (togglePublicVote T postId guestId hash)
      fun _ _ => True := by
  refine .ite (fun _ => acts_reject _ _) fun _ => .catching ?_ fun e => acts_failWith _ e
  refine .bind (J := fun post w => ∀ p, post = some p → w.db.posts.Belongs T postId)
    (acts_select (fun _ => lasts_forall fun _ => lasts_forall fun _ => lasts_post)
      fun w _ p hp => belongs_of_visiblePost hp) fun post => ?_
  cases post with
  | none => exact acts_reject _ _
  | some p =>
    refine .bind (J := fun existing w => w.db.posts.Belongs T postId ∧
        ∀ v, existing = some v → w.db.votes.Belongs T v.id)
      (acts_select (fun _ => lasts_post.and (lasts_forall fun _ => lasts_forall fun _ => lasts_vote))
        fun w hpost => ⟨hpost p rfl, fun v hv => belongs_of_voteOf hv⟩) fun existing => ?_
    refine .bind (J := fun _ _ => True) ?_ fun voted => acts_of_within
      (.bind (within_select (Writes.refl _) _ _) fun _ => trivial)
    cases existing with
    | some v =>
      exact .bind ((acts_deleteVote v.id).weaken fun w hw => hw.2 v rfl) fun _ => .ret fun _ _ => trivial
    | none =>
      exact .bind ((acts_insertVote postId _ hash).weaken fun w hw => hw.1) fun _ =>
        .ret fun _ _ => trivial

/-! ### Posts -/

/-- The new post is the caller's. -/
theorem acts_insertPost (n : NewPost) :
    Acts workspaceTerms (ofTenant n.tenantId) K (insertPost n)
      fun id w => ∀ T, n.tenantId = some T → w.db.posts.Belongs T id := by
  refine acts_call (fun _ => lasts_forall fun _ => lasts_forall fun _ => lasts_post)
    fun w id w' h _ hw => ?_
  split at hw
  · cases hw
  · rename_i T htenant
    split at hw
    · obtain ⟨posts, hins, heq⟩ := Option.map_eq_some_iff.mp hw
      obtain ⟨rfl, rfl⟩ := Prod.mk.inj heq
      refine ⟨actsFor_insertPost h hins htenant rfl, fun T' hT' => ?_⟩
      obtain rfl : T = T' := Option.some.inj (htenant.symm.trans hT')
      exact belongs_insert hins
    · cases hw

theorem acts_attachToPost (attachmentIds : AttachmentIds) (postId : Nat)
    (tenantId : Option Nat) :
    Acts workspaceTerms (ofTenant tenantId)
      (fun w => ∀ T, tenantId = some T → w.db.posts.Belongs T postId)
      (attachToPost attachmentIds postId tenantId) fun _ _ => True := by
  refine .ite (fun _ => .ret fun _ _ => trivial) fun _ =>
    .catching (acts_call (fun _ => .true) fun w n w' h hpost hw => ⟨?_, trivial⟩) fun _ =>
      .ret fun _ _ => trivial
  split at hw
  · cases hw
  · cases hw
    exact actsFor_link h hpost

theorem acts_insertAndAttach {δ : Type} (n : NewPost) (attachmentIds : AttachmentIds)
    {k : Nat → Handler δ}
    (hk : ∀ id, Acts workspaceTerms (ofTenant n.tenantId) (fun _ => True) (k id) fun _ _ => True) :
    Acts workspaceTerms (ofTenant n.tenantId) K (insertPost n >>= fun id =>
      attachToPost attachmentIds id n.tenantId >>= fun _ => k id) fun _ _ => True :=
  .bind (acts_insertPost n) fun id => .bind (acts_attachToPost attachmentIds id n.tenantId) fun _ =>
    hk id

theorem acts_createPost (data : PostData) (auth : AuthData) :
    Acts workspaceTerms (ofTenant auth.tenantId) K (createPost data auth) fun _ _ => True :=
  .catching (acts_insertAndAttach (data.row auth) data.attachmentIds fun _ => acts_resolve _ _ _)
    fun e => acts_failWith _ e

theorem acts_ofExcept {α : Type} (r : Except Failure α) :
    Acts workspaceTerms who K (Prog.ofExcept r) fun _ _ => True := by
  cases r with
  | ok a => exact .ret fun _ _ => trivial
  | error e => exact .fail e

theorem acts_reads {α : Type} {q : Handler α} (hq : Prog.Reads q) :
    Acts workspaceTerms who K q fun _ _ => True :=
  acts_of_within (within_of_reads (Writes.refl _) hq)

theorem acts_createPublicPost (env : PublicWriteEnv) (lower : Text.CaseMap) (T : Nat)
    (requireAuth : Bool) (data : PublicPostData) (authUser : Option AuthData) :
    Acts workspaceTerms (ofTenant (some T)) K
      (createPublicPost env lower T requireAuth data authUser) fun _ _ => True := by
  refine .bind (acts_reads (reads_refusesGuests _ _ _)) fun restricted => ?_
  refine .ite (fun _ => acts_reject _ _) fun _ => ?_
  cases publicPostProblem (Text.trim (data.title.getD [])) authUser.isNone
      (forGuest authUser (guestField 255 data.submitterEmail)) with
  | some key => exact acts_reject _ _
  | none =>
    refine .bind (acts_reads (reads_ofGuests (reads_postDuplicates _ _ _ _ _) _)) fun count =>
      .bind (acts_ofExcept _) fun guard => ?_
    refine .ite (fun _ => acts_resolve _ _ _) fun _ => .ite (fun _ => acts_reject _ _) fun _ => ?_
    exact .catching (acts_insertAndAttach (data.row T authUser guard) data.attachmentIds fun _ =>
      acts_resolve _ _ _) fun e => acts_failWith _ e

theorem acts_markDuplicate (id : Nat) (target : Option Nat) (tenantId : Option Nat) :
    Acts workspaceTerms (ofTenant tenantId)
      (fun w => ∀ T, tenantId = some T → ∀ n, target = some n → w.db.posts.Belongs T n)
      (markDuplicate tenantId id target) fun _ _ => True := by
  refine acts_call (fun _ => .true) fun w _ w' h htarget hw => ⟨?_, trivial⟩
  split at hw
  · cases hw
  · cases hw
    exact actsFor_markDuplicate h htarget

theorem acts_setPostDuplicate (id : Nat) (duplicateOfPostId : Option Nat) (auth : AuthData) :
    Acts workspaceTerms (ofTenant auth.tenantId) K (setPostDuplicate id duplicateOfPostId auth)
      fun _ _ => True := by
  refine .catching (.bind (acts_of_within (within_select (Writes.refl _) _ _)) fun found =>
    .ite (fun _ => acts_reject _ _) fun _ => ?_) fun e => acts_failWith _ e
  cases duplicateOfPostId with
  | none =>
    refine .bind ((acts_markDuplicate id none auth.tenantId).weaken fun _ _ _ _ _ hn => ?_) fun _ =>
      acts_resolve _ _ _
    cases hn
  | some target =>
    refine .ite (fun _ => acts_reject _ _) fun _ => .bind
      (J := fun targetFound w => targetFound = true → ∀ T, auth.tenantId = some T →
        w.db.posts.Belongs T target)
      (acts_select
        (fun _ => lasts_forall fun _ => lasts_forall fun _ => lasts_forall fun _ => lasts_post)
        fun w _ hfound T hT => ?_) fun targetFound => ?_
    · obtain ⟨p, hp, hat⟩ := List.any_eq_true.mp hfound
      obtain ⟨hid, htenant⟩ := Bool.and_eq_true_iff.mp hat
      obtain rfl : p.tenantId = T := Option.some.inj ((beq_iff_eq.mp htenant).symm.trans hT)
      exact beq_iff_eq.mp hid ▸ belongs_of_mem hp
    · cases targetFound with
      | false => exact acts_reject _ _
      | true =>
        refine .bind ((acts_markDuplicate id (some target) auth.tenantId).weaken
          fun w hw T hT n hn => ?_) fun _ => acts_resolve _ _ _
        cases hn
        exact hw rfl T hT

/-! ### Comments -/

/-- The post and the comment above are the caller's, as far as they are given. -/
def NewComment.RefersToOwn (n : NewComment) (T : Nat) (db : Db) : Prop :=
  db.posts.Belongs T n.postId ∧ ∀ c, n.parentCommentId = some c → db.comments.Belongs T c

theorem acts_insertComment (n : NewComment) :
    Acts workspaceTerms (ofTenant n.tenantId)
      (fun w => ∀ T, n.tenantId = some T → n.RefersToOwn T w.db) (insertComment n)
      fun _ _ => True := by
  refine acts_call (fun _ => .true) fun w id w' h hown hw => ⟨?_, trivial⟩
  split at hw
  · cases hw
  · rename_i T htenant
    split at hw
    · obtain ⟨comments, hins, heq⟩ := Option.map_eq_some_iff.mp hw
      obtain ⟨-, rfl⟩ := Prod.mk.inj heq
      exact actsFor_insertComment h hins htenant (hown T htenant).1 (hown T htenant).2
    · cases hw

/-- Whom a member's comment refers to: a request may give any post and any comment. -/
def CommentData.RefersToOwn (data : CommentData) (T : Nat) (db : Db) : Prop :=
  (∀ p, data.postId = some p → db.posts.Belongs T p) ∧
    ∀ c, data.parentCommentId.filter (· ≠ 0) = some c → db.comments.Belongs T c

theorem acts_createComment (data : CommentData) (auth : AuthData) :
    Acts workspaceTerms (ofTenant auth.tenantId)
      (fun w => ∀ T, auth.tenantId = some T → data.RefersToOwn T w.db) (createComment data auth)
      fun _ _ => True := by
  have hlasts : Lasts workspaceTerms.rely fun w => ∀ T, auth.tenantId = some T →
      data.RefersToOwn T w.db :=
    lasts_forall fun _ => lasts_forall fun _ => .and
      (lasts_forall fun _ => lasts_forall fun _ => lasts_post)
      (lasts_forall fun _ => lasts_forall fun _ => lasts_comment)
  have hreads : Prog.Reads (asOwnerOf auth data.ownerMode) :=
    .ite (.bind (reads_query _) fun _ => .pure _) (.pure _)
  refine .bind (.of_reads hlasts hreads) fun asOwner => .catching ?_ fun e => acts_failWith _ e
  split
  · rename_i postId body hpost _
    refine .bind ((acts_insertComment (data.row auth asOwner postId body)).weaken
      fun w hw T hT => ?_) fun _ => acts_resolve _ _ _
    exact ⟨(hw T hT).1 postId hpost, (hw T hT).2⟩
  · exact .fail _

theorem belongs_of_rootParent {postId : Nat} {parent root : Option Nat}
    (h : rootParent db T postId parent = .ok root) {n : Nat} (hn : root = some n) :
    db.comments.Belongs T n := by
  unfold rootParent at h
  split at h
  · cases h
    cases hn
  · split at h
    · cases h
    · rename_i c hc
      cases h
      cases hn
      have hat := List.find?_some hc
      have htenant : c.tenantId = T := beq_iff_eq.mp (Bool.and_eq_true_iff.mp hat).2
      have hbelongs : db.comments.Belongs (rootComment db T c).tenantId (rootComment db T c).id :=
        belongs_of_mem (climb_mem (List.mem_of_find?_eq_some hc))
      have hroot : (rootComment db T c).tenantId = T := tenantId_climb htenant
      rwa [hroot] at hbelongs

theorem acts_judgeAndStore (env : PublicWriteEnv) (lower : Text.CaseMap) (T postId : Nat)
    (data : PublicCommentData) (authUser : Option AuthData) (asOwner : Nat)
    (rootParentId : Option Nat) :
    Acts workspaceTerms (ofTenant (some T))
      (fun w => w.db.posts.Belongs T postId ∧ ∀ c, rootParentId = some c → w.db.comments.Belongs T c)
      (judgeAndStore env lower T postId data authUser asOwner rootParentId) fun _ _ => True := by
  have hlasts : Lasts workspaceTerms.rely fun w => w.db.posts.Belongs T postId ∧
      ∀ c, rootParentId = some c → w.db.comments.Belongs T c :=
    lasts_post.and (lasts_forall fun _ => lasts_forall fun _ => lasts_comment)
  refine .bind (.of_reads hlasts (reads_ofGuests (reads_commentDuplicates _ _ _ _) _)) fun count =>
    .bind (.of_within hlasts (.ofExcept _)) fun guard => ?_
  refine .ite (fun _ => (acts_resolve _ _ _).weaken fun _ _ => trivial) fun _ =>
    .ite (fun _ => acts_reject _ _) fun _ => .bind (J := fun _ _ => True) ?_ fun _ =>
      acts_resolve _ _ _
  refine (acts_insertComment (data.row T postId authUser asOwner rootParentId guard)).weaken
    fun w hw T' hT' => ?_
  cases hT'
  exact hw

theorem acts_createPublicComment (env : PublicWriteEnv) (lower : Text.CaseMap) (T postId : Nat)
    (data : PublicCommentData) (authUser : Option AuthData) :
    Acts workspaceTerms (ofTenant (some T)) K
      (createPublicComment env lower T postId data authUser) fun _ _ => True := by
  unfold createPublicComment
  cases publicCommentProblem (Text.trim (data.body.getD []))
      (forGuest authUser (guestField 255 data.submitterEmail)) with
  | some key => exact acts_reject _ _
  | none =>
    refine .catching (.bind (J := fun post w => ∀ p, post = some p → w.db.posts.Belongs T postId)
      (acts_select (fun _ => lasts_forall fun _ => lasts_forall fun _ => lasts_post)
        fun w _ p hp => belongs_of_visiblePost hp) fun post => ?_) fun e => acts_failWith _ e
    cases post with
    | none => exact acts_reject _ _
    | some p =>
      -- the root of the thread is of this workspace, as the post is
      refine .bind (J := fun found w => w.db.posts.Belongs T postId ∧
          ∀ root, found = .ok root → ∀ c, root = some c → w.db.comments.Belongs T c)
        (acts_select (fun _ => lasts_post.and (lasts_forall fun _ => lasts_forall fun _ =>
          lasts_forall fun _ => lasts_forall fun _ => lasts_comment))
          fun w hpost => ⟨hpost p rfl, fun root hroot c hc => belongs_of_rootParent hroot hc⟩)
        fun found => ?_
      cases found with
      | error e => exact .fail e
      | ok root =>
        have hlasts : Lasts workspaceTerms.rely fun w => w.db.posts.Belongs T postId ∧
            ∀ c, root = some c → w.db.comments.Belongs T c :=
          lasts_post.and (lasts_forall fun _ => lasts_forall fun _ => lasts_comment)
        have hreads := reads_resolveOwner data.ownerMode authUser T
        refine (Acts.bind (.of_reads hlasts hreads) fun asOwner =>
          acts_judgeAndStore env lower T postId data authUser asOwner root).weaken fun w hw => ?_
        exact ⟨hw.1, hw.2 root rfl⟩

/-! ### Labels -/

/-- The post and the tag that a request gives belong to the workspace. -/
def LabelsOwn (postId tagId T : Nat) (db : Db) : Prop :=
  db.posts.Belongs T postId ∧ db.tags.Belongs T tagId

theorem acts_addTagToPost (postId tagId : Nat) (auth : AuthData) :
    Acts workspaceTerms (ofTenant auth.tenantId)
      (fun w => ∀ T, auth.tenantId = some T → LabelsOwn postId tagId T w.db)
      (addTagToPost postId tagId auth) fun _ _ => True := by
  refine .catching ?_ fun e => ?_
  · cases auth.tenantId with
    | none => exact .fail _
    | some T =>
      refine .bind (.atomic (J := fun _ _ => True) (fun _ => .true) fun w h hown => ?_) fun _ =>
        acts_resolve _ _ _
      obtain ⟨hpost, htag⟩ := hown T rfl
      refine ⟨?_, fun _ _ => trivial⟩
      split
      · exact .refl h
      · split
        · exact .refl h
        · rename_i db' hlabel
          obtain ⟨labels, hins, rfl⟩ := Option.map_eq_some_iff.mp hlabel
          have hmine : ofTenant (some T) T := rfl
          refine .of_labels h (h.labels.insert hins fun n hn => ?_) (h.tags.insert hins fun n hn => ?_)
            fun _ hU => .insert hins (ne_of_who hmine hU)
          · cases hn
            exact hpost
          · cases hn
            exact htag
  · cases e with
    | duplicate | belowMinimum | error => exact acts_reject _ _
    | rejected code key => exact acts_reject _ _

/-! ### Items of the roadmap -/

theorem acts_syncPostStatusToColumn (postId columnId : Nat) :
    Acts workspaceTerms (ofTenant (some T)) K (syncPostStatusToColumn T postId columnId)
      fun _ _ => True := by
  refine .ite (fun _ => .ret fun _ _ => trivial) fun _ =>
    .bind (acts_reads (reads_query _)) fun column => ?_
  split
  · exact acts_of_within (.write fun w h => actsFor_setStatus h _ _)
  · exact .ret fun _ _ => trivial

/-- The post and the column that a request gives belong to the workspace. -/
def PlacesOwn (postId columnId T : Nat) (db : Db) : Prop :=
  db.posts.Belongs T postId ∧ db.roadmapColumns.Belongs T columnId

theorem acts_addItemToRoadmap (postId columnId : Nat) (sortOrder : Option Int)
    (date : Option Time) (T : Nat) :
    Acts workspaceTerms (ofTenant (some T)) (fun w => PlacesOwn postId columnId T w.db)
      (addItemToRoadmap postId columnId sortOrder date T) fun _ _ => True := by
  refine .catching (.bind (.attempt (J := fun _ _ => True) (fun _ => .true)
    fun w n w' h hown hw => ⟨?_, trivial⟩) fun _ => .bind (acts_syncPostStatusToColumn _ _) fun _ =>
      acts_resolve _ _ _) fun e => acts_failWith _ e
  obtain ⟨r, hr, heq⟩ := Option.map_eq_some_iff.mp hw
  obtain ⟨-, rfl⟩ := Prod.mk.inj heq
  dsimp only at hr
  split at hr
  · cases hr
  · rename_i hexist
    obtain ⟨items, hins, rfl⟩ := Option.map_eq_some_iff.mp hr
    have hmine : ofTenant (some T) T := rfl
    refine .of_items h (h.items.insert hins fun n hn => ?_) (h.columns.insert hins fun n hn => ?_)
      (fun i hi => ?_) fun _ hU => .insert hins (ne_of_who hmine hU)
    · cases hn
      exact hown.1
    · cases hn
      exact hown.2
    · rcases (mem_insert? hins).mp hi with hi | rfl
      · exact h.placed i hi
      · have hpost := Option.isSome_iff_ne_none.mpr fun hnone =>
          (not_or.mp (not_or.mp hexist).2).1 (Option.isNone_iff_eq_none.mpr hnone)
        exact byId_isSome_iff.mp hpost

/-- The column that a request moves an item to belongs to the workspace. -/
def ItemPatch.MovesToOwn (patch : ItemPatch) (T : Nat) (db : Db) : Prop :=
  ∀ c, patch.roadmapColumnId = some c → db.roadmapColumns.Belongs T c

/-- An `UPDATE` of items that leaves their posts alone. -/
theorem placed_update (h : OwnReferences db) {p : RoadmapItem → Bool} {f : RoadmapItem → RoadmapItem}
    (hk : Keyless f) (hf : ∀ i, (f i).postId = i.postId) :
    ∀ i ∈ db.roadmapItems.update p f hk, ∃ q ∈ db.posts, q.id = i.postId := by
  intro i hi
  obtain ⟨j, hj, rfl⟩ := mem_update.mp hi
  split
  · rw [hf]
    exact h.placed j hj
  · exact h.placed j hj

theorem actsFor_patchItem (h : OwnReferences db) {patch : ItemPatch}
    (hown : patch.MovesToOwn T db) :
    ActsFor (ofTenant (some T)) db (db.patchItem T id patch) := by
  have hkey := patch.keyless_apply
  refine .of_items h (h.items.update_of_eq hkey (fun _ => rfl) fun _ => rfl)
    (h.columns.update hkey (fun _ => rfl) fun i hi hat n hn => ?_)
    (placed_update h hkey fun _ => rfl) fun _ hU =>
      .update hkey (fun _ => rfl) fun i _ hat => ne_of_who (ofTenant_of_beq hat) hU
  have htenant : i.tenantId = T := beq_iff_eq.mp (Bool.and_eq_true_iff.mp hat).2
  cases hcolumn : patch.roadmapColumnId with
  | none =>
    rw [ItemPatch.apply, hcolumn] at hn
    exact h.columns i hi n hn
  | some c =>
    rw [ItemPatch.apply, hcolumn] at hn
    obtain rfl : c = n := Option.some.inj hn
    subst htenant
    exact hown c hcolumn

theorem acts_updateRoadmapItem (id : Nat) (patch : ItemPatch) (T : Nat) :
    Acts workspaceTerms (ofTenant (some T)) (fun w => patch.MovesToOwn T w.db)
      (updateRoadmapItem id patch T) fun _ _ => True := by
  refine .ite (fun _ => acts_reject _ _) fun _ => .catching (.bind (.attempt (J := fun _ _ => True)
    (fun _ => .true) fun w found w' h hown hw => ⟨?_, trivial⟩) fun found => ?_) fun e =>
      acts_failWith _ e
  · obtain ⟨r, hr, heq⟩ := Option.map_eq_some_iff.mp hw
    obtain ⟨-, rfl⟩ := Prod.mk.inj heq
    dsimp only at hr
    split at hr
    · cases hr
    · cases hr
      exact actsFor_patchItem h hown
  · refine .ite (fun _ => acts_reject _ _) fun _ => ?_
    split
    · exact acts_resolve _ _ _
    · refine .bind (acts_reads (reads_query _)) fun item => ?_
      cases item with
      | none => exact acts_resolve _ _ _
      | some i => exact .bind (acts_syncPostStatusToColumn _ _) fun _ => acts_resolve _ _ _

theorem belongs_of_statusColumn {C : Collation} {s : PostStatus} {c : RoadmapColumn}
    (h : db.statusColumn C T s = some c) : db.roadmapColumns.Belongs T c.id := by
  have hat := List.find?_some h
  obtain rfl : c.tenantId = T := beq_iff_eq.mp (Bool.and_eq_true_iff.mp hat).2
  exact belongs_of_mem (List.mem_of_find?_eq_some h)

theorem acts_syncRoadmapItemToStatus (postId : Nat) (status : PostStatus) :
    Acts workspaceTerms (ofTenant (some T)) K (syncRoadmapItemToStatus T postId status)
      fun _ _ => True := by
  refine .bind (J := fun column w => ∀ c, column = some c → w.db.roadmapColumns.Belongs T c.id)
    (.read (fun _ => lasts_forall fun _ => lasts_forall fun _ => lasts_column)
      fun w _ _ c hc => ?_) fun column => ?_
  · exact belongs_of_statusColumn hc
  · cases column with
    | none => exact .ret fun _ _ => trivial
    | some c =>
      refine .atomic (fun _ => .true) fun w h hown => ⟨?_, fun _ _ => trivial⟩
      have hkey := RoadmapItem.keyless_movedTo c.id
      refine .of_items h (h.items.update_of_eq hkey (fun _ => rfl) fun _ => rfl)
        (h.columns.update hkey (fun _ => rfl) fun i _ hat n hn => ?_)
        (placed_update h hkey fun _ => rfl) fun _ hU =>
          .update hkey (fun _ => rfl) fun i _ hat => ne_of_who (ofTenant_of_beq hat) hU
      have htenant : i.tenantId = T := beq_iff_eq.mp (Bool.and_eq_true_iff.mp hat).2
      cases hn
      subst htenant
      exact hown c rfl

/-- `updatePostStatus` and the `setPostStatus` of an administrator. -/
theorem acts_changePostStatus (okKey failKey : String) (id : Nat) (newStatus : String) (T : Nat) :
    Acts workspaceTerms (ofTenant (some T)) K (changePostStatus okKey failKey id newStatus T)
      fun _ _ => True := by
  unfold changePostStatus
  cases statusFromColumnKey newStatus with
  | none => exact acts_reject _ _
  | some status =>
    refine .catching (.bind (acts_of_within (.step fun w h => actsFor_setStatus h _ _)) fun _ =>
      .ite (fun _ => acts_reject _ _) fun _ => .bind (acts_syncRoadmapItemToStatus _ _) fun _ =>
        acts_resolve _ _ _) fun e => acts_failWith _ e

end Feedbase
