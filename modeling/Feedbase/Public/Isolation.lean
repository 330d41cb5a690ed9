import Feedbase.Admin.ClearFeedback
import Feedbase.Post.WorkspaceIds
import Feedbase.Public.Visibility

/-!
# One workspace does not see another

All workspaces share the tables, and most requests test the workspace of a row by its id. Four
requests store an id as they are given it: a member's comment, the label of a post, a new item of
the roadmap, and an item that moves to another column. As long as these name rows of the caller's
own workspace, what is done for one workspace does not show on the pages of another, however the
requests interleave. All this is while no account and no workspace is made, changed or deleted: a
member who has commented elsewhere takes the comment along when the account goes.

## Main definitions

* `BoardRequest` — the requests that write to the board of a workspace
* `BoardRequest.NamesOwn` — the ids that are stored unseen belong to the caller's workspace
* `SamePages` — the pages of a workspace are the same
* `boardSystem` — any number of requests for any workspaces

## Main results

* `sameView_of_sameFor` — the rows of a workspace are all that its readers are shown
* `isolated_of_run` — a workspace keeps its rows and its pages, whatever is done for others
* `ownReferences_of_run` — two databases with the same rows of a workspace show the same pages of it
-/

namespace Feedbase

open Sql Sql.Table

/-! ### The pages of a workspace -/

/-- What the members and the visitors of a workspace are shown. -/
structure SamePages (T : Nat) (db db' : Db) : Prop where
  board : ∀ caps collate orders pagination filters, orders.Complete →
    getPublicBoard db' caps collate orders T pagination filters =
      getPublicBoard db caps collate orders T pagination filters
  detail : ∀ (w : World) orders postId,
    ((getPublicPostDetail orders T postId).exec { w with db := db' }).1 =
      ((getPublicPostDetail orders T postId).exec { w with db := db }).1
  roadmap : ∀ (w : World) orders,
    ((getPublicRoadmap orders T).exec { w with db := db' }).1 =
      ((getPublicRoadmap orders T).exec { w with db := db }).1
  post : ∀ (w : World) tags id auth, auth.tenantId = some T →
    ((getPostById tags id auth).exec { w with db := db' }).1 =
      ((getPostById tags id auth).exec { w with db := db }).1
  items : ∀ (w : World) order,
    ((getRoadmapItems order T).exec { w with db := db' }).1 =
      ((getRoadmapItems order T).exec { w with db := db }).1
  columns : ∀ (w : World) order,
    ((getRoadmapColumns order T).exec { w with db := db' }).1 =
      ((getRoadmapColumns order T).exec { w with db := db }).1

variable {db db' : Db} {T id : Nat} {p : Post}

/-! ### Rows that keys lead to -/

theorem Db.shows_eq_any_filter {V : View} :
    db.shows V id = (db.posts.rows.filter V.post).any fun p => p.id == id := by
  rw [Db.shows, List.any_filter]
  exact congrArg _ (funext fun p => Bool.and_comm _ _)

/-- What leads to a post that a member is shown belongs to the member's workspace. -/
theorem owner_of_shows {ρ : Type} [Row ρ] [Owned ρ Nat] {t : Table ρ} {ref : ρ → Option Nat}
    (href : Refers ref t db.posts) {r : ρ} (hr : r ∈ t) {n : Nat} (hn : ref r = some n)
    (hshows : db.shows (teamView T) n = true) : Owned.owner r = T := by
  obtain ⟨p, hp, rfl, hpost⟩ := Db.shows_eq_true_iff.mp hshows
  have howner : p.tenantId = Owned.owner r := href.owner_eq hr hp hn
  exact howner.symm.trans (beq_iff_eq.mp hpost)

/-- The row of a table that a key of the workspace leads to. -/
theorem find?_key_eq {ρ : Type} [Row ρ] [Owned ρ Nat] {t t' : Table ρ} {key : ρ → Bool} {n : Nat}
    (hkey : ∀ r, key r = true → Row.id r = n) (hsame : Table.SameFor T t t')
    (hown : t.Belongs T n) (hown' : t'.Belongs T n) : t'.rows.find? key = t.rows.find? key := by
  have hfind : ∀ {u : Table ρ}, u.Belongs T n → u.rows.find? key =
      (u.rows.filter fun r => Owned.owner r == T).find? key := by
    intro u hu
    rw [← List.head?_filter, ← List.head?_filter, List.filter_filter]
    refine congrArg _ (List.filter_congr fun r hr => ?_)
    by_cases hr' : key r = true
    · have howner : Owned.owner r = T := hu.owner_eq r hr (hkey r hr')
      rw [hr', Bool.true_and, beq_iff_eq.mpr howner]
    · rw [eq_false_of_ne_true hr', Bool.false_and]
  rw [hfind hown, hfind hown', hsame]

/-- The rows of a workspace are all that its readers are shown. -/
theorem sameView_of_sameFor (h : Db.SameFor T db db') (hown : OwnReferences db)
    (hown' : OwnReferences db') : SameView (teamView T) db db' := by
  have hposts : db'.posts.rows.filter (teamView T).post = db.posts.rows.filter (teamView T).post :=
    h.posts
  have hshows : ∀ n, db'.shows (teamView T) n = db.shows (teamView T) n := by
    intro n
    rw [Db.shows_eq_any_filter, Db.shows_eq_any_filter, hposts]
  -- a row that hangs on a post of the workspace is of the workspace
  have hmine : ∀ {n : Nat}, n = T → (n == T) = true := fun hn => beq_iff_eq.mpr hn
  refine ⟨hposts, ?_, ?_, ?_, ?_, ?_, h.users, h.tenants⟩
  · exact Join.filter_eq_of_filter_eq h.votes
      (fun v hv hs => hmine (owner_of_shows hown'.votes hv rfl hs))
      (fun v hv hs => hmine (owner_of_shows hown.votes hv rfl hs)) fun v _ => hshows v.postId
  · refine Join.filter_eq_of_filter_eq h.comments (fun c hc hs => ?_) (fun c hc hs => ?_)
      fun c _ => by rw [hshows]
    · exact hmine (owner_of_shows hown'.comments hc rfl (Bool.and_eq_true_iff.mp hs).2)
    · exact hmine (owner_of_shows hown.comments hc rfl (Bool.and_eq_true_iff.mp hs).2)
  · exact Join.filter_eq_of_filter_eq h.postTags
      (fun pt hpt hs => hmine (owner_of_shows hown'.labels hpt rfl hs))
      (fun pt hpt hs => hmine (owner_of_shows hown.labels hpt rfl hs)) fun pt _ => hshows pt.postId
  · intro pt hpt hs
    obtain rfl : pt.tenantId = T := owner_of_shows hown.labels hpt rfl hs
    have hpt' : pt ∈ db'.postTags := by
      have hmem : pt ∈ db'.postTags.rows.filter fun r => r.tenantId == pt.tenantId :=
        h.postTags ▸ List.mem_filter.mpr ⟨hpt, beq_self_eq_true _⟩
      exact (List.mem_filter.mp hmem).1
    exact find?_key_eq (fun t ht => (Option.some.inj (of_decide_eq_true ht)).symm) h.tags
      (hown.tags pt hpt _ rfl) (hown'.tags pt hpt' _ rfl)
  · refine Join.filter_eq_of_filter_eq h.attachments (fun a ha hs => ?_) (fun a ha hs => ?_)
      fun a _ => by rw [funext hshows]
    · obtain ⟨n, hn, hs⟩ := (Option.any_eq_true _ _).mp hs
      exact hmine (owner_of_shows hown'.attachments ha hn hs)
    · obtain ⟨n, hn, hs⟩ := (Option.any_eq_true _ _).mp hs
      exact hmine (owner_of_shows hown.attachments ha hn hs)

/-! ### The pages -/

/-- The items of the workspace, whatever is shown of an item. -/
theorem map_items_eq {β : Type} {f : Db → RoadmapItem → β} (h : Db.SameFor T db db')
    (hf : ∀ i, i ∈ db.roadmapItems → i ∈ db'.roadmapItems → i.tenantId = T → f db' i = f db i) :
    (db'.roadmapItems.rows.filter (·.tenantId == T)).map (f db') =
      (db.roadmapItems.rows.filter (·.tenantId == T)).map (f db) := by
  have hitems : db'.roadmapItems.rows.filter (·.tenantId == T) =
      db.roadmapItems.rows.filter (·.tenantId == T) := h.items
  rw [hitems]
  refine List.map_congr_left fun i hi => ?_
  have hi' := hi
  rw [← hitems] at hi'
  obtain ⟨hi, htenant⟩ := List.mem_filter.mp hi
  exact hf i hi (List.mem_filter.mp hi').1 (beq_iff_eq.mp htenant)

section Pages

variable (h : Db.SameFor T db db') (hown : OwnReferences db) (hown' : OwnReferences db')

include h hown hown'

/-- The post of an item of the workspace. -/
theorem postOfItem_eq {i : RoadmapItem} (hi : i ∈ db.roadmapItems) (hi' : i ∈ db'.roadmapItems)
    (htenant : i.tenantId = T) : db'.postOfItem i = db.postOfItem i := by
  subst htenant
  exact find?_key_eq (fun p hp => (beq_iff_eq.mp hp).symm) h.posts (hown.items i hi _ rfl)
    (hown'.items i hi' _ rfl)

theorem columnOfItem_eq {i : RoadmapItem} (hi : i ∈ db.roadmapItems) (hi' : i ∈ db'.roadmapItems)
    (htenant : i.tenantId = T) : db'.columnOfItem i = db.columnOfItem i := by
  subst htenant
  exact find?_key_eq (fun c hc => (beq_iff_eq.mp hc).symm) h.columns (hown.columns i hi _ rfl)
    (hown'.columns i hi' _ rfl)

/-- A post of the roadmap is shown to the members. -/
theorem votesOn_item_eq {i : RoadmapItem} (hi : i ∈ db.roadmapItems) (htenant : i.tenantId = T) :
    db'.votesOn i.postId = db.votesOn i.postId := by
  obtain ⟨p, hp, hid⟩ := hown.placed i hi
  have howner : p.tenantId = i.tenantId := hown.items.owner_eq hi hp (congrArg some hid.symm)
  have hshows : db.shows (teamView T) i.postId = true :=
    Db.shows_eq_true_iff.mpr ⟨p, hp, hid, beq_iff_eq.mpr (howner.trans htenant)⟩
  exact (sameView_of_sameFor h hown hown').votesOn_eq hshows

theorem publicRoadmap_eq_of_sameFor (orders : RoadmapOrders) :
    publicRoadmap db' orders T = publicRoadmap db orders T := by
  have hcolumns : db'.columnsOf T = db.columnsOf T := h.columns
  have hitems : db'.publicItems T = db.publicItems T := by
    refine map_items_eq h fun i hi hi' htenant => ?_
    rw [publicItem, publicItem, postOfItem_eq h hown hown' hi hi' htenant,
      columnOfItem_eq h hown hown' hi hi' htenant, votesOn_item_eq h hown hown' hi htenant]
  rw [publicRoadmap, publicRoadmap, hcolumns, hitems]

theorem dashboardItems_eq : db'.dashboardItems T = db.dashboardItems T := by
  refine map_items_eq h fun i hi hi' htenant => ?_
  rw [dashboardItem, dashboardItem, postOfItem_eq h hown hown' hi hi' htenant,
    columnOfItem_eq h hown hown' hi hi' htenant]

/-- The rows of a workspace make its pages. -/
theorem samePages_of_sameFor : SamePages T db db' := by
  have hview := sameView_of_sameFor h hown hown'
  -- the board sees less than the team
  have hpublic : SameView (publicView T) db db' :=
    hview.mono (fun p hp => (Bool.and_eq_true_iff.mp hp).1) fun _ _ => rfl
  refine ⟨?_, fun w orders postId => ?_, fun w orders => ?_, fun w tags id auth hauth => ?_,
    fun w order => ?_, fun w order => ?_⟩
  · exact fun caps collate orders pagination filters horders =>
      hpublic.getPublicBoard_eq horders caps pagination
  · rw [exec_getPublicPostDetail, exec_getPublicPostDetail]
    have hfound : visiblePost db' T postId = visiblePost db T postId :=
      congrArg _ (hview.find?_eq fun p hp => (Bool.and_eq_true_iff.mp hp).2)
    dsimp only
    rw [hfound]
    cases hp : visiblePost db T postId with
    | none => rfl
    | some p =>
      obtain ⟨hmem, -, htenant⟩ := visiblePost_eq_some hp
      have hshown := Db.shows_of_mem (V := teamView T) hmem (beq_iff_eq.mpr htenant)
      dsimp only
      rw [hview.publicDetail_eq (fun _ _ => rfl) hshown]
  · rw [exec_getPublicRoadmap, exec_getPublicRoadmap]
    dsimp only
    rw [publicRoadmap_eq_of_sameFor h hown hown']
  · rw [exec_getPostById, exec_getPostById]
    have hfound : db'.postAt T id = db.postAt T id :=
      hview.find?_eq fun p hp => (Bool.and_eq_true_iff.mp hp).2
    dsimp only
    rw [hauth, Option.bind_some, Option.bind_some, hfound]
    cases hp : db.postAt T id with
    | none => rfl
    | some p =>
      have hat : (p.id == id && p.tenantId == T) = true :=
        List.find?_some (p := fun q : Post => q.id == id && q.tenantId == T) hp
      have hshown := Db.shows_of_mem (V := teamView T) (List.mem_of_find?_eq_some hp)
        (Bool.and_eq_true_iff.mp hat).2
      rw [Option.map_some]
      dsimp only
      rw [hview.dashboardDetail_eq (fun _ => rfl) hshown]
  · rw [exec_getRoadmapItems, exec_getRoadmapItems]
    dsimp only
    rw [dashboardItems_eq h hown hown']
  · have hcolumns : db'.columnsOf T = db.columnsOf T := h.columns
    rw [exec_getRoadmapColumns, exec_getRoadmapColumns, hcolumns]

end Pages

/-! ### The requests -/

/-- The requests that write to the board of a workspace, with whose they are. -/
inductive BoardRequest where
  | createPost (data : PostData) (auth : AuthData)
  | createPublicPost (env : PublicWriteEnv) (lower : Text.CaseMap) (tenantId : Nat)
      (requireAuth : Bool) (data : PublicPostData) (authUser : Option AuthData)
  | updatePost (id : Nat) (edit : PostEdit) (auth : AuthData)
  | updatePostPin (id : Nat) (isPinned : Option Bool) (auth : AuthData)
  | setPostPin (tenantId postId : Nat) (isPinned : Bool)
  | updatePostModeration (id : Nat) (state : String) (auth : AuthData)
  | setPostDuplicate (id : Nat) (duplicateOfPostId : Option Nat) (auth : AuthData)
  | deletePost (id : Nat) (auth : AuthData)
  | deleteWorkspacePost (tenantId postId : Nat)
  | clearWorkspaceFeedback (root : List Char) (disk : Disk) (tenantId : Nat)
      (confirm : Option String)
  | purgeSpamPosts (auth : AuthData) (ids : Option (List (Option Int))) (olderThanDays : Option Int)
  | purgeExpiredSpam (env : Option Int)
  | updatePublicPost (tenantId postId : Nat) (data : PublicPostEdit) (authUser : Option AuthData)
  | deletePublicPost (tenantId postId : Nat) (authUser : Option AuthData)
  | storeAttachment (file : Option UploadedFile) (tenantId : Nat) (storagePath : String)
  | togglePublicVote (tenantId postId : Nat) (guestId : Option String) (hash : Option VoterHash)
  | createComment (data : CommentData) (auth : AuthData)
  | createPublicComment (env : PublicWriteEnv) (lower : Text.CaseMap) (tenantId postId : Nat)
      (data : PublicCommentData) (authUser : Option AuthData)
  | updateComment (id : Nat) (body : Option String) (auth : AuthData)
  | updateCommentModeration (id : Nat) (state : String) (auth : AuthData)
  | deleteComment (id : Nat) (auth : AuthData)
  | adminDeleteComment (tenantId commentId : Nat)
  | updatePublicComment (tenantId commentId : Nat) (body : Option Text) (authUser : Option AuthData)
  | deletePublicComment (tenantId commentId : Nat) (authUser : Option AuthData)
  | createTag (name colorHex : Option String) (auth : AuthData)
  | updateTag (id : Nat) (name colorHex : Option String) (auth : AuthData)
  | deleteTag (id : Nat) (auth : AuthData)
  | addTagToPost (postId tagId : Nat) (auth : AuthData)
  | removeTagFromPost (postId tagId : Nat) (auth : AuthData)
  | updateRoadmapColumn (id : Nat) (name : String) (sortOrder : Int) (tenantId : Nat)
  | roadmap (tenantId : Nat) (request : RoadmapCall)

namespace BoardRequest

def handler : BoardRequest → Handler Unit
  | .createPost data auth => withoutReply (Feedbase.createPost data auth)
  | .createPublicPost env lower T requireAuth data authUser =>
    withoutReply (Feedbase.createPublicPost env lower T requireAuth data authUser)
  | .updatePost id edit auth => withoutReply (Feedbase.updatePost id edit auth)
  | .updatePostPin id isPinned auth => withoutReply (Feedbase.updatePostPin id isPinned auth)
  | .setPostPin T postId isPinned => withoutReply (Admin.setPostPin T postId isPinned)
  | .updatePostModeration id state auth =>
    withoutReply (Feedbase.updatePostModeration id state auth)
  | .setPostDuplicate id duplicateOfPostId auth =>
    withoutReply (Feedbase.setPostDuplicate id duplicateOfPostId auth)
  | .deletePost id auth => withoutReply (Feedbase.deletePost id auth)
  | .deleteWorkspacePost T postId => withoutReply (Feedbase.deleteWorkspacePost T postId)
  | .clearWorkspaceFeedback root disk T confirm =>
    withoutReply (Feedbase.clearWorkspaceFeedback root disk T confirm)
  | .purgeSpamPosts auth ids olderThanDays =>
    withoutReply (Feedbase.purgeSpamPosts auth ids olderThanDays)
  | .purgeExpiredSpam env => withoutReply (Feedbase.purgeExpiredSpam env)
  | .updatePublicPost T postId data authUser =>
    withoutReply (Feedbase.updatePublicPost T postId data authUser)
  | .deletePublicPost T postId authUser =>
    withoutReply (Feedbase.deletePublicPost T postId authUser)
  | .storeAttachment file T storagePath =>
    withoutReply (Feedbase.storeAttachment file T storagePath)
  | .togglePublicVote T postId guestId hash =>
    withoutReply (Feedbase.togglePublicVote T postId guestId hash)
  | .createComment data auth => withoutReply (Feedbase.createComment data auth)
  | .createPublicComment env lower T postId data authUser =>
    withoutReply (Feedbase.createPublicComment env lower T postId data authUser)
  | .updateComment id body auth => withoutReply (Feedbase.updateComment id body auth)
  | .updateCommentModeration id state auth =>
    withoutReply (Feedbase.updateCommentModeration id state auth)
  | .deleteComment id auth => withoutReply (Feedbase.deleteComment id auth)
  | .adminDeleteComment T commentId => withoutReply (Admin.deleteComment T commentId)
  | .updatePublicComment T commentId body authUser =>
    withoutReply (Feedbase.updatePublicComment T commentId body authUser)
  | .deletePublicComment T commentId authUser =>
    withoutReply (Feedbase.deletePublicComment T commentId authUser)
  | .createTag name colorHex auth => withoutReply (Feedbase.createTag name colorHex auth)
  | .updateTag id name colorHex auth => withoutReply (Feedbase.updateTag id name colorHex auth)
  | .deleteTag id auth => withoutReply (Feedbase.deleteTag id auth)
  | .addTagToPost postId tagId auth => withoutReply (Feedbase.addTagToPost postId tagId auth)
  | .removeTagFromPost postId tagId auth =>
    withoutReply (Feedbase.removeTagFromPost postId tagId auth)
  | .updateRoadmapColumn id name sortOrder T =>
    withoutReply (Feedbase.updateRoadmapColumn id name sortOrder T)
  | .roadmap T request => roadmapHandler T request

/-- Whose workspace the request is for; the nightly cleanup is for all of them. -/
def workspaces : BoardRequest → Nat → Prop
  | .createPost _ auth | .updatePost _ _ auth | .updatePostPin _ _ auth
  | .updatePostModeration _ _ auth | .setPostDuplicate _ _ auth | .deletePost _ auth
  | .purgeSpamPosts auth _ _ | .createComment _ auth | .updateComment _ _ auth
  | .updateCommentModeration _ _ auth | .deleteComment _ auth | .createTag _ _ auth
  | .updateTag _ _ _ auth | .deleteTag _ auth | .addTagToPost _ _ auth
  | .removeTagFromPost _ _ auth => ofTenant auth.tenantId
  | .createPublicPost _ _ T _ _ _ | .setPostPin T _ _ | .deleteWorkspacePost T _
  | .clearWorkspaceFeedback _ _ T _ | .updatePublicPost T _ _ _ | .deletePublicPost T _ _
  | .storeAttachment _ T _ | .togglePublicVote T _ _ _ | .createPublicComment _ _ T _ _ _
  | .adminDeleteComment T _ | .updatePublicComment T _ _ _ | .deletePublicComment T _ _
  | .updateRoadmapColumn _ _ _ T | .roadmap T _ => ofTenant (some T)
  | .purgeExpiredSpam _ => fun _ => True

/-- The ids that are stored as they are given belong to the caller's workspace. -/
def NamesOwn (db : Db) : BoardRequest → Prop
  | .createComment data auth => ∀ T, auth.tenantId = some T → data.RefersToOwn T db
  | .addTagToPost postId tagId auth => ∀ T, auth.tenantId = some T → LabelsOwn postId tagId T db
  | .roadmap T (.addItemToRoadmap postId columnId _ _) => PlacesOwn postId columnId T db
  | .roadmap T (.updateRoadmapItem _ patch) => patch.MovesToOwn T db
  | _ => True

instance (r : BoardRequest) (T : Nat) : Decidable (r.workspaces T) :=
  match r with
  | .createPost _ auth | .updatePost _ _ auth | .updatePostPin _ _ auth
  | .updatePostModeration _ _ auth | .setPostDuplicate _ _ auth | .deletePost _ auth
  | .purgeSpamPosts auth _ _ | .createComment _ auth | .updateComment _ _ auth
  | .updateCommentModeration _ _ auth | .deleteComment _ auth | .createTag _ _ auth
  | .updateTag _ _ _ auth | .deleteTag _ auth | .addTagToPost _ _ auth
  | .removeTagFromPost _ _ auth => inferInstanceAs (Decidable (auth.tenantId = some T))
  | .createPublicPost _ _ U _ _ _ | .setPostPin U _ _ | .deleteWorkspacePost U _
  | .clearWorkspaceFeedback _ _ U _ | .updatePublicPost U _ _ _ | .deletePublicPost U _ _
  | .storeAttachment _ U _ | .togglePublicVote U _ _ _ | .createPublicComment _ _ U _ _ _
  | .adminDeleteComment U _ | .updatePublicComment U _ _ _ | .deletePublicComment U _ _
  | .updateRoadmapColumn _ _ _ U | .roadmap U _ => inferInstanceAs (Decidable (some U = some T))
  | .purgeExpiredSpam _ => inferInstanceAs (Decidable True)

instance (db : Db) (r : BoardRequest) : Decidable (r.NamesOwn db) :=
  match r with
  | .createComment data auth =>
    inferInstanceAs (Decidable (∀ T ∈ auth.tenantId, (∀ p ∈ data.postId, db.posts.Belongs T p) ∧
      ∀ c ∈ data.parentCommentId.filter (· ≠ 0), db.comments.Belongs T c))
  | .addTagToPost postId tagId auth =>
    inferInstanceAs (Decidable (∀ T ∈ auth.tenantId,
      db.posts.Belongs T postId ∧ db.tags.Belongs T tagId))
  | .roadmap T (.addItemToRoadmap postId columnId _ _) =>
    inferInstanceAs (Decidable (db.posts.Belongs T postId ∧ db.roadmapColumns.Belongs T columnId))
  | .roadmap T (.updateRoadmapItem _ patch) =>
    inferInstanceAs (Decidable (∀ c ∈ patch.roadmapColumnId, db.roadmapColumns.Belongs T c))
  | .createPost .. | .createPublicPost .. | .updatePost .. | .updatePostPin .. | .setPostPin ..
  | .updatePostModeration .. | .setPostDuplicate .. | .deletePost .. | .deleteWorkspacePost ..
  | .clearWorkspaceFeedback .. | .purgeSpamPosts .. | .purgeExpiredSpam .. | .updatePublicPost ..
  | .deletePublicPost .. | .storeAttachment .. | .togglePublicVote .. | .createPublicComment ..
  | .updateComment .. | .updateCommentModeration .. | .deleteComment .. | .adminDeleteComment ..
  | .updatePublicComment .. | .deletePublicComment .. | .createTag .. | .updateTag .. | .deleteTag ..
  | .removeTagFromPost .. | .updateRoadmapColumn .. | .roadmap _ (.createRoadmapColumn ..)
  | .roadmap _ (.deleteRoadmapColumn ..) | .roadmap _ (.removeItemFromRoadmap ..)
  | .roadmap _ (.updatePostStatus ..) | .roadmap _ (.setPostStatus ..) =>
    inferInstanceAs (Decidable True)

end BoardRequest

section Handlers

variable {who : Nat → Prop} {K : World → Prop} {α : Type} {q : Handler α}

theorem acts_withoutReply {J : α → World → Prop} (hq : Acts workspaceTerms who K q J) :
    Acts workspaceTerms who K (withoutReply q) fun _ _ => True :=
  .bind hq fun _ => .ret fun _ _ => trivial

theorem acts_withoutReply_of_within (hq : Prog.Within (Writes who) q) :
    Acts workspaceTerms who K (withoutReply q) fun _ _ => True :=
  acts_withoutReply (acts_of_within hq)

end Handlers

/-- Every request writes for the workspace that it is for. -/
theorem BoardRequest.acts_handler (r : BoardRequest) :
    Acts workspaceTerms r.workspaces (fun w => r.NamesOwn w.db) r.handler fun _ _ => True := by
  cases r with
  | createPost data auth => exact acts_withoutReply (acts_createPost data auth)
  | createPublicPost env lower T requireAuth data authUser =>
    exact acts_withoutReply (acts_createPublicPost env lower T requireAuth data authUser)
  | updatePost id edit auth => exact acts_withoutReply_of_within (within_updatePost id edit auth)
  | updatePostPin id isPinned auth =>
    exact acts_withoutReply_of_within (within_updatePostPin id isPinned auth)
  | setPostPin T postId isPinned =>
    exact acts_withoutReply_of_within (within_setPostPin T postId isPinned)
  | updatePostModeration id state auth =>
    exact acts_withoutReply_of_within (within_updatePostModeration id state auth)
  | setPostDuplicate id target auth =>
    exact acts_withoutReply (acts_setPostDuplicate id target auth)
  | deletePost id auth => exact acts_withoutReply_of_within (within_deletePost id auth)
  | deleteWorkspacePost T postId =>
    exact acts_withoutReply_of_within (within_deletePostAt (some T) postId _ _)
  | clearWorkspaceFeedback root disk T confirm =>
    exact acts_withoutReply_of_within (within_clearWorkspaceFeedback root disk T confirm)
  | purgeSpamPosts auth ids days =>
    exact acts_withoutReply_of_within (within_purgeSpamPosts auth ids days)
  | purgeExpiredSpam env => exact acts_withoutReply_of_within (within_purgeExpiredSpam env)
  | updatePublicPost T postId data authUser =>
    exact acts_withoutReply_of_within (within_updatePublicPost T postId data authUser)
  | deletePublicPost T postId authUser =>
    exact acts_withoutReply_of_within (within_deletePublicPost T postId authUser)
  | storeAttachment file T storagePath =>
    exact acts_withoutReply_of_within (within_storeAttachment file T storagePath)
  | togglePublicVote T postId guestId hash =>
    exact acts_withoutReply (acts_togglePublicVote T postId guestId hash)
  | createComment data auth => exact acts_withoutReply (acts_createComment data auth)
  | createPublicComment env lower T postId data authUser =>
    exact acts_withoutReply (acts_createPublicComment env lower T postId data authUser)
  | updateComment id body auth =>
    exact acts_withoutReply_of_within (within_updateComment id body auth)
  | updateCommentModeration id state auth =>
    exact acts_withoutReply_of_within (within_updateCommentModeration id state auth)
  | deleteComment id auth => exact acts_withoutReply_of_within (within_deleteComment id auth)
  | adminDeleteComment T commentId =>
    exact acts_withoutReply_of_within (within_adminDeleteComment T commentId)
  | updatePublicComment T commentId body authUser =>
    exact acts_withoutReply_of_within (within_updatePublicComment T commentId body authUser)
  | deletePublicComment T commentId authUser =>
    exact acts_withoutReply_of_within (within_deletePublicComment T commentId authUser)
  | createTag name colorHex auth =>
    exact acts_withoutReply_of_within (within_createTag name colorHex auth)
  | updateTag id name colorHex auth =>
    exact acts_withoutReply_of_within (within_updateTag id name colorHex auth)
  | deleteTag id auth => exact acts_withoutReply_of_within (within_deleteTag id auth)
  | addTagToPost postId tagId auth => exact acts_withoutReply (acts_addTagToPost postId tagId auth)
  | removeTagFromPost postId tagId auth =>
    exact acts_withoutReply_of_within (within_removeTagFromPost postId tagId auth)
  | updateRoadmapColumn id name sortOrder T =>
    exact acts_withoutReply_of_within (within_updateRoadmapColumn id name sortOrder T)
  | roadmap T request =>
    cases request with
    | createRoadmapColumn name columnKey sortOrder =>
      exact acts_withoutReply_of_within (within_createRoadmapColumn name columnKey sortOrder T)
    | deleteRoadmapColumn id =>
      exact acts_withoutReply_of_within (within_deleteRoadmapColumn id T)
    | addItemToRoadmap postId columnId sortOrder date =>
      exact acts_withoutReply (acts_addItemToRoadmap postId columnId sortOrder date T)
    | updateRoadmapItem id patch => exact acts_withoutReply (acts_updateRoadmapItem id patch T)
    | removeItemFromRoadmap id =>
      exact acts_withoutReply_of_within (within_removeItemFromRoadmap id T)
    | updatePostStatus id newStatus =>
      exact acts_withoutReply (acts_changePostStatus _ _ id newStatus T)
    | setPostStatus postId status =>
      exact acts_withoutReply (acts_changePostStatus _ _ postId status T)

theorem BoardRequest.lasts_namesOwn (r : BoardRequest) :
    Lasts workspaceTerms.rely fun w => r.NamesOwn w.db := by
  cases r with
  | createComment data auth =>
    exact lasts_forall fun _ => lasts_forall fun _ => .and
      (lasts_forall fun _ => lasts_forall fun _ => lasts_post)
      (lasts_forall fun _ => lasts_forall fun _ => lasts_comment)
  | addTagToPost postId tagId auth =>
    exact lasts_forall fun _ => lasts_forall fun _ => lasts_post.and lasts_tag
  | roadmap T request =>
    cases request with
    | addItemToRoadmap postId columnId sortOrder date => exact lasts_post.and lasts_column
    | updateRoadmapItem id patch => exact lasts_forall fun _ => lasts_forall fun _ => lasts_column
    | createRoadmapColumn | deleteRoadmapColumn | removeItemFromRoadmap | updatePostStatus
    | setPostStatus => exact .true
  | _ => exact .true

/-! ### Runs -/

/-- Whatever else happens, it leaves the tables that boards are made of alone. -/
structure LeavesBoards (db db' : Db) : Prop where
  posts : db'.posts = db.posts
  votes : db'.votes = db.votes
  comments : db'.comments = db.comments
  tags : db'.tags = db.tags
  postTags : db'.postTags = db.postTags
  columns : db'.roadmapColumns = db.roadmapColumns
  items : db'.roadmapItems = db.roadmapItems
  attachments : db'.postAttachments = db.postAttachments
  users : db'.users = db.users
  tenants : db'.tenants = db.tenants

theorem LeavesBoards.actsFor (h : LeavesBoards db db') (hown : OwnReferences db)
    (who : Nat → Prop) : ActsFor who db db' where
  evolves := by
    refine ⟨?_, ?_, ?_, ?_, ?_⟩
    · exact h.posts ▸ .refl _
    · exact h.votes ▸ .refl _
    · exact h.comments ▸ .refl _
    · exact h.tags ▸ .refl _
    · exact h.columns ▸ .refl _
  own := by
    refine ⟨?_, ?_, ?_, ?_, ?_, ?_, ?_, ?_, ?_, ?_⟩
    · exact h.posts ▸ hown.duplicates
    · exact h.votes ▸ h.posts ▸ hown.votes
    · exact h.comments ▸ h.posts ▸ hown.comments
    · exact h.comments ▸ hown.parents
    · exact h.postTags ▸ h.posts ▸ hown.labels
    · exact h.postTags ▸ h.tags ▸ hown.tags
    · exact h.items ▸ h.posts ▸ hown.items
    · exact h.items ▸ h.columns ▸ hown.columns
    · exact h.attachments ▸ h.posts ▸ hown.attachments
    · exact h.items ▸ h.posts ▸ hown.placed
  others U _ := by
    refine ⟨?_, ?_, ?_, ?_, ?_, ?_, ?_, ?_, h.users, h.tenants⟩
    · exact h.posts ▸ rfl
    · exact h.votes ▸ rfl
    · exact h.comments ▸ rfl
    · exact h.tags ▸ rfl
    · exact h.postTags ▸ rfl
    · exact h.columns ▸ rfl
    · exact h.items ▸ rfl
    · exact h.attachments ▸ rfl

/-- Any number of requests, for any workspaces. -/
def boardSystem :
    System World Failure Unit BoardRequest
      { f : World → World // ∀ w, LeavesBoards w.db (f w).db } where
  handler := BoardRequest.handler
  env f := f.1

variable {P Q : Pool World Failure Unit BoardRequest}

/-- The requests name rows of their own workspace when they arrive. -/
def NamedOwn (_ Q : Pool World Failure Unit BoardRequest) : Prop :=
  ∀ c ∈ Q.calls, c.request.NamesOwn c.since.db

/-- No request for the workspace is in flight. -/
def NoneFor (T : Nat) (P _ : Pool World Failure Unit BoardRequest) : Prop :=
  ∀ c ∈ P.calls, c.request.workspaces T → c.outcome.isSome = true

instance (P Q : Pool World Failure Unit BoardRequest) : Decidable (NamedOwn P Q) :=
  inferInstanceAs (Decidable (∀ c ∈ Q.calls, c.request.NamesOwn c.since.db))

instance (T : Nat) (P Q : Pool World Failure Unit BoardRequest) : Decidable (NoneFor T P Q) :=
  inferInstanceAs (Decidable (∀ c ∈ P.calls, c.request.workspaces T → c.outcome.isSome = true))

/-- One move: the keys stay within their workspaces, and a workspace for which no request is in
flight keeps its rows. -/
theorem kept_move (h : (workspaceTerms.comap BoardRequest.workspaces).Kept P)
    {m : Move BoardRequest { f : World → World // ∀ w, LeavesBoards w.db (f w).db }}
    (hm : boardSystem.move P m = some Q) (hnamed : NamedOwn P Q) :
    (workspaceTerms.comap BoardRequest.workspaces).Kept Q ∧
      ∀ T, NoneFor T P Q → Db.SameFor T P.state.db Q.state.db := by
  have hleaves : ∀ (e : { f : World → World // ∀ w, LeavesBoards w.db (f w).db }) (w : World),
      OwnReferences w.db → ActsFor (fun _ => False) w.db (e.1 w).db :=
    fun e w hinv => (e.2 w).actsFor hinv _
  obtain ⟨hkept, hcases⟩ := Terms.move_cases
    (fun (r : BoardRequest) (w : World) => r.NamesOwn w.db) BoardRequest.acts_handler
    BoardRequest.lasts_namesOwn
    (fun e w hinv => ⟨(hleaves e w hinv).own, (hleaves e w hinv).evolves⟩) h hm hnamed
  refine ⟨hkept, fun T hnone => ?_⟩
  rcases hcases with hsame | ⟨e, henv⟩ | ⟨c, hc, hrunning, hpromise⟩
  · rw [hsame]
    exact .refl T _
  · rw [henv]
    exact (hleaves e P.state h.inv).others T id
  · refine hpromise.others T fun hmine => ?_
    have hdone := hnone c hc hmine
    rw [hrunning] at hdone
    cases hdone

theorem kept_of_run (h : (workspaceTerms.comap BoardRequest.workspaces).Kept P)
    (hrun : boardSystem.Run NamedOwn P Q) :
    (workspaceTerms.comap BoardRequest.workspaces).Kept Q := by
  induction hrun with
  | refl => exact h
  | tail _ hstep ih =>
    obtain ⟨⟨m, hm⟩, hnamed⟩ := hstep
    exact (kept_move ih hm hnamed).1

/-- In every run whose requests name rows of their own workspace, the keys stay within their
workspaces, and as long as no request for a workspace is in flight its rows and its pages stay as
they are, whatever is done for the others. -/
theorem isolated_of_run {w₀ : World} (h : OwnReferences w₀.db)
    (hrun : boardSystem.Run NamedOwn ⟨w₀, []⟩ P) :
    OwnReferences P.state.db ∧ ∀ T Q,
      boardSystem.Run (fun R R' => NamedOwn R R' ∧ NoneFor T R R') P Q →
        Db.SameFor T P.state.db Q.state.db ∧ SamePages T P.state.db Q.state.db := by
  have hkept := kept_of_run (Terms.Kept.start h) hrun
  refine ⟨hkept.inv, fun T Q hrest => ?_⟩
  have hsame : (workspaceTerms.comap BoardRequest.workspaces).Kept Q ∧
      Db.SameFor T P.state.db Q.state.db := by
    induction hrest with
    | refl => exact ⟨hkept, .refl T _⟩
    | tail _ hstep ih =>
      obtain ⟨⟨m, hm⟩, hnamed, hnone⟩ := hstep
      obtain ⟨hnext, hother⟩ := kept_move ih.1 hm hnamed
      exact ⟨hnext, ih.2.trans (hother T hnone)⟩
  exact ⟨hsame.2, samePages_of_sameFor hsame.2 hkept.inv hsame.1.inv⟩

/-- In every run whose requests name rows of their own workspace, keys lead to rows of the same
workspace. So two runs that end with the same rows of a workspace end with the same pages of it,
however different the boards of the others are. -/
theorem ownReferences_of_run {w₀ v₀ : World} (h : OwnReferences w₀.db) (h' : OwnReferences v₀.db)
    (hrun : boardSystem.Run NamedOwn ⟨w₀, []⟩ P) (hrun' : boardSystem.Run NamedOwn ⟨v₀, []⟩ Q) :
    OwnReferences P.state.db ∧
      ∀ T, Db.SameFor T P.state.db Q.state.db → SamePages T P.state.db Q.state.db := by
  have hkept := kept_of_run (Terms.Kept.start h) hrun
  have hkept' := kept_of_run (Terms.Kept.start h') hrun'
  exact ⟨hkept.inv, fun T hsame => samePages_of_sameFor hsame hkept.inv hkept'.inv⟩

/-! ### A comment, and a post that goes -/

/-- A member of the corner shop comments on the post of the corner shop. -/
def adaSpeaks : BoardRequest := .createComment { postId := some 1, body := some "Yes." } adaAuth

/-- The pool after the comment, and after the post of the depot has been deleted. -/
def whileAdaSpeaks : Pool World Failure Unit BoardRequest :=
  boardSystem.poolAfter ⟨twoBoards, []⟩ [.arrive adaSpeaks, .run 0]

def whileDepotDeletes : Pool World Failure Unit BoardRequest :=
  boardSystem.poolAfter whileAdaSpeaks [.arrive (.deleteWorkspacePost 2 2), .run 1]

theorem run_whileAdaSpeaks : boardSystem.Run NamedOwn ⟨twoBoards, []⟩ whileAdaSpeaks := by
  have hpools : boardSystem.scheduleWith (fun P Q => decide (NamedOwn P Q)) ⟨twoBoards, []⟩
      [.arrive adaSpeaks, .run 0] = some whileAdaSpeaks := rfl
  exact System.run_of_scheduleWith (fun _ _ => of_decide_eq_true) hpools

theorem run_whileDepotDeletes :
    boardSystem.Run (fun P Q => NamedOwn P Q ∧ NoneFor 1 P Q) whileAdaSpeaks whileDepotDeletes := by
  have hpools : boardSystem.scheduleWith (fun P Q => decide (NamedOwn P Q ∧ NoneFor 1 P Q))
      whileAdaSpeaks [.arrive (.deleteWorkspacePost 2 2), .run 1] = some whileDepotDeletes := rfl
  exact System.run_of_scheduleWith (fun _ _ => of_decide_eq_true) hpools

theorem isolated_corner : whileDepotDeletes.state.db.posts.rows.length = 1 ∧
    Db.SameFor 1 whileAdaSpeaks.state.db whileDepotDeletes.state.db ∧
    SamePages 1 whileAdaSpeaks.state.db whileDepotDeletes.state.db := by
  have howned : OwnReferences twoBoards.db := by decide
  exact ⟨rfl, (isolated_of_run howned run_whileAdaSpeaks).2 1 whileDepotDeletes
    run_whileDepotDeletes⟩

/-- The depot still has its post at the end of one run, and not at the end of the other. -/
theorem ownReferences_corner : OwnReferences whileAdaSpeaks.state.db ∧
    whileAdaSpeaks.state.db.posts.rows.length = 2 ∧
    whileDepotDeletes.state.db.posts.rows.length = 1 ∧
    SamePages 1 whileAdaSpeaks.state.db whileDepotDeletes.state.db := by
  have howned : OwnReferences twoBoards.db := by decide
  have hdeletes : boardSystem.Run NamedOwn whileAdaSpeaks whileDepotDeletes :=
    Relation.ReflTransGen.mono (fun _ _ hstep => ⟨hstep.1, hstep.2.1⟩) _ _ run_whileDepotDeletes
  obtain ⟨hown, hpages⟩ := ownReferences_of_run howned howned run_whileAdaSpeaks
    (run_whileAdaSpeaks.trans hdeletes)
  exact ⟨hown, rfl, rfl, hpages 1 ⟨rfl, rfl, rfl, rfl, rfl, rfl, rfl, rfl, rfl, rfl⟩⟩

/-- A member of the depot comments on the post of the corner shop. -/
def depotAuth : AuthData := { adaAuth with tenantId := some 2 }

/-- The comment of another workspace is counted on the page of the post, although the workspace of
the post has the rows that it had. -/
theorem comment_from_elsewhere_shows :
    ∃ P, boardSystem.Run (fun _ _ => True) ⟨twoBoards, []⟩ P ∧ ¬ OwnReferences P.state.db ∧
      Db.SameFor 1 twoBoards.db P.state.db ∧ ¬ SamePages 1 twoBoards.db P.state.db := by
  let request : BoardRequest :=
    .createComment { postId := some 1, body := some "No." } depotAuth
  have hpools : boardSystem.schedule ⟨twoBoards, []⟩ [.arrive request, .run 0] =
      some (boardSystem.poolAfter ⟨twoBoards, []⟩ [.arrive request, .run 0]) := rfl
  refine ⟨_, System.run_of_schedule hpools, by decide,
    ⟨rfl, rfl, rfl, rfl, rfl, rfl, rfl, rfl, rfl, rfl⟩, fun h => ?_⟩
  have hcounts := congrArg (Except.map fun reply => reply.result.post.commentCount)
    (h.post {} id 1 adaAuth rfl)
  revert hcounts
  decide +kernel

end Feedbase
