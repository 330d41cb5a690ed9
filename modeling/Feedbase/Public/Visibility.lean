import Feedbase.Post.PostReads
import Feedbase.Roadmap.RoadmapReads

/-!
# What a reader may see

A reader is shown some of the posts, and with a post its votes, its tags, its uploads and some of
its comments. Two databases that agree on all of this look the same to the reader, whatever else
they hold: every page that shows posts is a function of it.

## Main definitions

* `View` — which posts and which comments a reader is shown
* `SameView` — two databases that look the same
* `publicView`, `teamView` — visitors of the portal, and members in the dashboard

## Main results

* `SameView.mono` — who is shown less, tells less apart
* `SameView.getPublicBoard_eq`, `SameView.publicDetail_eq`, `SameView.dashboardDetail_eq`
-/

namespace Feedbase

/-- Which posts a reader is shown, and which of the comments under them. -/
structure View where
  post : Post → Bool
  comment : Comment → Bool

/-- The reader is shown the post with the id. -/
def Db.shows (db : Db) (V : View) (postId : Nat) : Bool :=
  db.posts.rows.any fun p => p.id == postId && V.post p

/-- The tag of a label. -/
def Db.tagOf (db : Db) (pt : PostTag) : Option Tag :=
  db.tags.rows.find? fun t => some pt.tagId = some t.id

/-- The databases agree on what the reader is shown, and on the accounts and workspaces. -/
structure SameView (V : View) (db db' : Db) : Prop where
  posts : db'.posts.rows.filter V.post = db.posts.rows.filter V.post
  votes : (db'.votes.rows.filter fun v => db'.shows V v.postId) =
    db.votes.rows.filter fun v => db.shows V v.postId
  comments : (db'.comments.rows.filter fun c => V.comment c && db'.shows V c.postId) =
    db.comments.rows.filter fun c => V.comment c && db.shows V c.postId
  labels : (db'.postTags.rows.filter fun pt => db'.shows V pt.postId) =
    db.postTags.rows.filter fun pt => db.shows V pt.postId
  tags : ∀ pt ∈ db.postTags, db.shows V pt.postId = true → db'.tagOf pt = db.tagOf pt
  attachments : (db'.postAttachments.rows.filter fun a => a.postId.any (db'.shows V)) =
    db.postAttachments.rows.filter fun a => a.postId.any (db.shows V)
  users : db'.users = db.users
  tenants : db'.tenants = db.tenants

/-- A visitor of the portal of a workspace. -/
def publicView (T : Nat) : View where
  post p := p.tenantId == T && p.moderationState != .spam
  comment c := c.moderationState != .spam

/-- A member in the dashboard of a workspace. -/
def teamView (T : Nat) : View where
  post p := p.tenantId == T
  comment _ := true

/-! ### Rows that are shown -/

variable {V V' : View} {db db' : Db} {T id : Nat} {p : Post}

theorem Db.shows_eq_true_iff : db.shows V id = true ↔ ∃ p ∈ db.posts, p.id = id ∧ V.post p = true := by
  simp only [Db.shows, List.any_eq_true, Bool.and_eq_true, beq_iff_eq, Sql.Table.mem_def]

theorem Db.shows_of_mem (hp : p ∈ db.posts) (hV : V.post p = true) : db.shows V p.id = true :=
  Db.shows_eq_true_iff.mpr ⟨p, hp, rfl, hV⟩

theorem Db.shows_mono (hle : ∀ p, V'.post p = true → V.post p = true) (h : db.shows V' id = true) :
    db.shows V id = true := by
  obtain ⟨p, hp, hid, hV⟩ := Db.shows_eq_true_iff.mp h
  exact Db.shows_eq_true_iff.mpr ⟨p, hp, hid, hle p hV⟩

namespace SameView

theorem mem_iff (h : SameView V db db') (hV : V.post p = true) : p ∈ db'.posts ↔ p ∈ db.posts := by
  have hmem : p ∈ db'.posts.rows.filter V.post ↔ p ∈ db.posts.rows.filter V.post := by rw [h.posts]
  rw [List.mem_filter, List.mem_filter, and_iff_left hV, and_iff_left hV] at hmem
  exact hmem

theorem shows_eq (h : SameView V db db') (id : Nat) : db'.shows V id = db.shows V id := by
  rw [Bool.eq_iff_iff, Db.shows_eq_true_iff, Db.shows_eq_true_iff]
  constructor
  · rintro ⟨p, hp, hid, hV⟩
    exact ⟨p, (h.mem_iff hV).mp hp, hid, hV⟩
  · rintro ⟨p, hp, hid, hV⟩
    exact ⟨p, (h.mem_iff hV).mpr hp, hid, hV⟩

/-- Who is shown less, tells less apart. -/
theorem mono (h : SameView V db db') (hpost : ∀ p, V'.post p = true → V.post p = true)
    (hcomment : ∀ c, V'.comment c = true → V.comment c = true) : SameView V' db db' := by
  have hposts : db'.posts.rows.filter V'.post = db.posts.rows.filter V'.post :=
    Join.filter_eq_of_filter_eq h.posts (fun p _ => hpost p) (fun p _ => hpost p) fun _ _ => rfl
  have hshows : ∀ id, db'.shows V' id = db.shows V' id := by
    intro id
    have hmem : ∀ p, V'.post p = true → (p ∈ db'.posts ↔ p ∈ db.posts) := by
      exact fun p hp => h.mem_iff (hpost p hp)
    rw [Bool.eq_iff_iff, Db.shows_eq_true_iff, Db.shows_eq_true_iff]
    exact exists_congr fun p =>
      ⟨fun ⟨hp, hid, hV⟩ => ⟨(hmem p hV).mp hp, hid, hV⟩,
        fun ⟨hp, hid, hV⟩ => ⟨(hmem p hV).mpr hp, hid, hV⟩⟩
  -- who sees less sees a row only if the other does
  have hless : ∀ {d : Db} {id : Nat}, d.shows V' id = true → d.shows V id = true :=
    fun hs => Db.shows_mono hpost hs
  refine ⟨hposts, ?_, ?_, ?_, ?_, ?_, h.users, h.tenants⟩
  · exact Join.filter_eq_of_filter_eq h.votes (fun v _ => hless) (fun v _ => hless) fun v _ => hshows _
  · refine Join.filter_eq_of_filter_eq h.comments ?_ ?_ fun c _ => by rw [hshows]
    · exact fun c _ hc => Bool.and_eq_true_iff.mpr
        ⟨hcomment c (Bool.and_eq_true_iff.mp hc).1, hless (Bool.and_eq_true_iff.mp hc).2⟩
    · exact fun c _ hc => Bool.and_eq_true_iff.mpr
        ⟨hcomment c (Bool.and_eq_true_iff.mp hc).1, hless (Bool.and_eq_true_iff.mp hc).2⟩
  · exact Join.filter_eq_of_filter_eq h.labels (fun v _ => hless) (fun v _ => hless) fun v _ => hshows _
  · exact fun pt hpt hs => h.tags pt hpt (hless hs)
  · have hany : ∀ {d : Db} {o : Option Nat}, o.any (d.shows V') = true → o.any (d.shows V) = true := by
      intro d o ho
      cases o with
      | none => exact ho
      | some id => exact hless ho
    refine Join.filter_eq_of_filter_eq h.attachments (fun a _ => hany) (fun a _ => hany) fun a _ => ?_
    rw [funext hshows]

/-! ### What belongs to the posts shown -/

/-- The votes of posts that are shown, those that pass some test. -/
theorem votes_eq (h : SameView V db db') {q : Vote → Bool}
    (hq : ∀ v, q v = true → db.shows V v.postId = true) :
    db'.votes.rows.filter q = db.votes.rows.filter q :=
  Join.filter_eq_of_filter_eq h.votes (fun v _ hv => (h.shows_eq _).trans (hq v hv)) (fun v _ => hq v)
    fun _ _ => rfl

theorem comments_eq (h : SameView V db db') {q : Comment → Bool}
    (hq : ∀ c, q c = true → V.comment c = true ∧ db.shows V c.postId = true) :
    db'.comments.rows.filter q = db.comments.rows.filter q := by
  refine Join.filter_eq_of_filter_eq h.comments (fun c _ hc => ?_) (fun c _ hc => ?_) fun _ _ => rfl
  · rw [h.shows_eq, (hq c hc).1, (hq c hc).2, Bool.and_self]
  · rw [(hq c hc).1, (hq c hc).2, Bool.and_self]

theorem labels_eq (h : SameView V db db') {q : PostTag → Bool}
    (hq : ∀ pt, q pt = true → db.shows V pt.postId = true) :
    db'.postTags.rows.filter q = db.postTags.rows.filter q :=
  Join.filter_eq_of_filter_eq h.labels (fun pt _ hpt => (h.shows_eq _).trans (hq pt hpt))
    (fun pt _ => hq pt) fun _ _ => rfl

theorem attachments_eq (h : SameView V db db') {q : PostAttachment → Bool}
    (hq : ∀ a, q a = true → a.postId.any (db.shows V) = true) :
    db'.postAttachments.rows.filter q = db.postAttachments.rows.filter q := by
  refine Join.filter_eq_of_filter_eq h.attachments (fun a _ ha => ?_) (fun a _ => hq a) fun _ _ => rfl
  rw [funext h.shows_eq]
  exact hq a ha

/-- The labels of posts that are shown, with their tags. -/
theorem joined_eq (h : SameView V db db') {q : PostTag → Bool}
    (hq : ∀ pt, q pt = true → db.shows V pt.postId = true) :
    (Join.inner (fun pt => some (PostTag.tagId pt)) Tag.id db'.postTags.rows db'.tags.rows).filter
        (fun r => q r.1) =
      (Join.inner (fun pt => some (PostTag.tagId pt)) Tag.id db.postTags.rows db.tags.rows).filter
        fun r => q r.1 := by
  have hjoin : ∀ d : Db,
      (Join.inner (fun pt => some (PostTag.tagId pt)) Tag.id d.postTags.rows d.tags.rows).filter
          (fun r => q r.1) =
        (d.postTags.rows.filter q).filterMap fun pt => (d.tagOf pt).map fun t => (pt, t) := by
    intro d
    have htags : (d.tags.rows.map Tag.id).Nodup := d.tags.nodup
    rw [Join.inner_eq_filterMap htags, List.filter_filterMap, List.filterMap_filter]
    refine List.filterMap_congr fun pt _ => ?_
    rw [Db.tagOf]
    cases d.tags.rows.find? fun t => some pt.tagId = some t.id with
    | none => cases q pt <;> rfl
    | some t => cases hpt : q pt <;> simp [Option.filter, hpt]
  rw [hjoin, hjoin, h.labels_eq hq]
  refine List.filterMap_congr fun pt hpt => ?_
  obtain ⟨hmem, hpt⟩ := List.mem_filter.mp hpt
  rw [h.tags pt hmem (hq pt hpt)]

/-- An author is an account, whoever reads. -/
theorem authorOf_eq (h : SameView V db db') (p : Post) : db'.authorOf p = db.authorOf p := by
  rw [Db.authorOf, Db.authorOf, h.users]

theorem votesOn_eq (h : SameView V db db') (hid : db.shows V id = true) :
    db'.votesOn id = db.votesOn id := by
  rw [Db.votesOn, Db.votesOn, List.countP_eq_length_filter, List.countP_eq_length_filter,
    h.votes_eq fun v hv => ?_]
  rw [beq_iff_eq.mp hv]
  exact hid

end SameView

/-! ### The board -/

section Board

variable {collate : Char → Char → Bool} {filters : BoardFilters} {search : Text}
  {orders : RowOrders}

/-- What the board lists is public. -/
theorem publicView_of_boardWhere (h : db.boardWhere collate T filters search p = true) :
    (publicView T).post p = true := by
  obtain ⟨htenant, hspam⟩ := visible_of_boardWhere h
  simp [publicView, htenant, hspam]

namespace SameView

theorem boardWhere_eq (h : SameView (publicView T) db db') (hp : p ∈ db.posts)
    (hV : (publicView T).post p = true) :
    db'.boardWhere collate T filters search p = db.boardWhere collate T filters search p := by
  have htagged : (fun tagId => db'.isTagged T tagId p.id) = fun tagId => db.isTagged T tagId p.id := by
    funext tagId
    refine Join.any_eq_of_filter_eq (h.labels_eq fun pt hpt => ?_)
    simp only [Bool.and_eq_true, beq_iff_eq] at hpt
    rw [hpt.1.1]
    exact Db.shows_of_mem hp hV
  rw [Db.boardWhere, Db.boardWhere, htagged]

/-- The posts that are listed. -/
theorem listed_eq (h : SameView (publicView T) db db') :
    db'.posts.rows.filter (db'.boardWhere collate T filters search) =
      db.posts.rows.filter (db.boardWhere collate T filters search) := by
  refine Join.filter_eq_of_filter_eq h.posts ?_ ?_ fun p hp => ?_
  · exact fun p _ hp => publicView_of_boardWhere hp
  · exact fun p _ hp => publicView_of_boardWhere hp
  · exact h.boardWhere_eq (List.mem_filter.mp hp).1 (List.mem_filter.mp hp).2

/-- The votes that the board counts for a post. -/
theorem voteCount_eq (h : SameView V db db') (hid : db.shows V id = true) :
    (((db'.voteCounts T).find? fun g => some id = some g.1).map Prod.snd).getD 0 =
      (((db.voteCounts T).find? fun g => some id = some g.1).map Prod.snd).getD 0 := by
  have hcount : ∀ d : Db, (((d.voteCounts T).find? fun g => some id = some g.1).map Prod.snd).getD 0 =
      (d.votes.rows.filter fun v => v.postId == id && v.tenantId == T).length := by
    intro d
    have hkey : (fun g : Nat × Nat => decide (some id = some g.1)) = fun g => decide (g.1 = id) := by
      funext g
      exact decide_eq_decide.mpr (Option.some_inj.trans eq_comm)
    rw [hkey, Db.voteCounts, Join.count_groupCount (List.Perm.refl _), List.countP_filter,
      List.countP_eq_length_filter]
    rfl
  rw [hcount, hcount, h.votes_eq fun v hv => ?_]
  rw [beq_iff_eq.mp (Bool.and_eq_true_iff.mp hv).1]
  exact hid

theorem boardRows_eq (h : SameView (publicView T) db db') :
    db'.boardRows collate T filters search = db.boardRows collate T filters search := by
  rw [Db.boardRows_eq, Db.boardRows_eq, h.listed_eq]
  refine List.map_congr_left fun p hp => ?_
  obtain ⟨hp, hwhere⟩ := List.mem_filter.mp hp
  have hcount := h.voteCount_eq (T := T) (Db.shows_of_mem hp (publicView_of_boardWhere hwhere))
  rw [boardRow, boardRow, hcount, h.authorOf_eq]

/-- The cards of posts that are shown. -/
theorem cards_eq (h : SameView (publicView T) db db') {rows : List BoardRow}
    (hrows : ∀ r ∈ rows, db.shows (publicView T) r.id = true) :
    db'.cards orders T rows = db.cards orders T rows := by
  have hid : ∀ {id : Nat}, (rows.map (·.id)).contains id = true →
      db.shows (publicView T) id = true := by
    intro id hmem
    obtain ⟨r, hr, rfl⟩ := List.mem_map.mp (List.contains_iff_mem.mp hmem)
    exact hrows r hr
  have htags : db'.tagRows T (rows.map (·.id)) = db.tagRows T (rows.map (·.id)) := by
    have hjoin := h.joined_eq
      (q := fun pt => pt.tenantId == T && (rows.map (·.id)).contains pt.postId) fun pt hpt =>
        hid (Bool.and_eq_true_iff.mp hpt).2
    rw [Db.tagRows, Db.tagRows, hjoin]
  have hcomments : db'.commentCounts T (rows.map (·.id)) = db.commentCounts T (rows.map (·.id)) := by
    rw [Db.commentCounts, Db.commentCounts]
    refine congrArg _ (h.comments_eq fun c hc => ?_)
    obtain ⟨hc, hspam⟩ := Bool.and_eq_true_iff.mp hc
    exact ⟨hspam, hid (Bool.and_eq_true_iff.mp hc).2⟩
  have hattachments :
      db'.attachmentRows T (rows.map (·.id)) = db.attachmentRows T (rows.map (·.id)) := by
    rw [Db.attachmentRows, Db.attachmentRows]
    refine congrArg _ (h.attachments_eq fun a ha => ?_)
    obtain ⟨id, hpost, hmem⟩ := (Option.any_eq_true _ _).mp (Bool.and_eq_true_iff.mp ha).2
    exact (Option.any_eq_true _ _).mpr ⟨id, hpost, hid hmem⟩
  rw [Db.cards, Db.cards, htags, hcomments, hattachments]

/-- A page of the board. -/
theorem boardPage_eq (h : SameView (publicView T) db db') (horders : orders.Complete)
    (query : BoardQuery) :
    db'.boardPage collate orders T filters query = db.boardPage collate orders T filters query := by
  have hcards : db'.cards orders T (sliced query.limit query.offset
        (orders.posts (db.boardRows collate T filters query.search))) =
      db.cards orders T (sliced query.limit query.offset
        (orders.posts (db.boardRows collate T filters query.search))) := by
    apply h.cards_eq
    intro r hr
    have hfound := (horders.posts _).mem_iff.mp (List.mem_of_mem_drop (List.mem_of_mem_take hr))
    obtain ⟨p, hp, hwhere, -, rfl⟩ := mem_boardRows hfound
    exact Db.shows_of_mem hp (publicView_of_boardWhere hwhere)
  rw [Db.boardPage, Db.boardPage, h.boardRows_eq, hcards, List.countP_eq_length_filter,
    List.countP_eq_length_filter, h.listed_eq]

theorem getPublicBoard_eq (h : SameView (publicView T) db db') (horders : orders.Complete)
    (caps : BoardCaps) (pagination : Value) :
    getPublicBoard db' caps collate orders T pagination filters =
      getPublicBoard db caps collate orders T pagination filters := by
  unfold getPublicBoard
  cases boardQuery caps pagination filters with
  | none => rfl
  | some query =>
    dsimp only
    rw [h.boardPage_eq horders]

end SameView

end Board

/-! ### The page of a post -/

namespace SameView

theorem isAdminEmail_eq (h : SameView V db db') (u : Option User) :
    db'.isAdminEmail u = db.isAdminEmail u := by
  rw [Db.isAdminEmail, Db.isAdminEmail, h.users]

theorem threadComment_eq (h : SameView V db db') (c : Comment) :
    threadComment db' c = threadComment db c := by
  have hwriter : db'.writerOf c = db.writerOf c := by rw [Db.writerOf, Db.writerOf, h.users]
  rw [threadComment, threadComment, hwriter, h.isAdminEmail_eq, h.tenants]

theorem tagCards_eq (h : SameView V db db') (hid : db.shows V id = true) (T : Nat) :
    db'.tagCards T id = db.tagCards T id := by
  have hjoin := h.joined_eq (q := fun pt => pt.postId == id && pt.tenantId == T) fun pt hpt => by
    rw [beq_iff_eq.mp (Bool.and_eq_true_iff.mp hpt).1]
    exact hid
  rw [Db.tagCards, Db.tagCards, hjoin]

theorem getAttachmentsForPost_eq (h : SameView V db db') (hid : db.shows V id = true) (T : Nat) :
    getAttachmentsForPost db' T id = getAttachmentsForPost db T id := by
  rw [getAttachmentsForPost, getAttachmentsForPost, h.attachments_eq fun a ha => ?_]
  rw [beq_iff_eq.mp (Bool.and_eq_true_iff.mp ha).1]
  exact hid

theorem publicPost_eq (h : SameView V db db') (hspam : ∀ c, c.moderationState ≠ .spam →
    V.comment c = true) (hid : db.shows V p.id = true) : publicPost db' p = publicPost db p := by
  have hcomments : db'.commentsOn p.id = db.commentsOn p.id := by
    rw [Db.commentsOn, Db.commentsOn, List.countP_eq_length_filter, List.countP_eq_length_filter,
      h.comments_eq fun c hc => ?_]
    obtain ⟨hpost, hstate⟩ := Bool.and_eq_true_iff.mp hc
    rw [beq_iff_eq.mp hpost]
    exact ⟨hspam c (bne_iff_ne.mp hstate), hid⟩
  rw [publicPost, publicPost, h.authorOf_eq, h.isAdminEmail_eq, h.votesOn_eq hid, hcomments]

/-- The public page of a post that is shown. -/
theorem publicDetail_eq (h : SameView V db db') (hspam : ∀ c, c.moderationState ≠ .spam →
    V.comment c = true) (hid : db.shows V p.id = true) (orders : DetailOrders) (T : Nat) :
    publicDetail db' orders T p = publicDetail db orders T p := by
  have hthread : db'.threadComments T p.id = db.threadComments T p.id := by
    rw [Db.threadComments, Db.threadComments, h.comments_eq fun c hc => ?_]
    · exact List.map_congr_left fun c _ => h.threadComment_eq c
    · simp only [Bool.and_eq_true, beq_iff_eq, bne_iff_ne] at hc
      rw [hc.1.2]
      exact ⟨hspam c hc.2, hid⟩
  rw [publicDetail, publicDetail, h.publicPost_eq hspam hid, h.tagCards_eq hid, hthread,
    h.getAttachmentsForPost_eq hid]

/-- The dashboard's page of a post that is shown. -/
theorem dashboardDetail_eq (h : SameView V db db') (hall : ∀ c, V.comment c = true)
    (hid : db.shows V p.id = true) (tags : List TagCard → List TagCard) (userId T : Nat) :
    dashboardDetail db' tags userId T p = dashboardDetail db tags userId T p := by
  have hcomments : db'.allCommentsOn p.id = db.allCommentsOn p.id := by
    rw [Db.allCommentsOn, Db.allCommentsOn, List.countP_eq_length_filter,
      List.countP_eq_length_filter, h.comments_eq fun c hc => ?_]
    rw [beq_iff_eq.mp hc]
    exact ⟨hall c, hid⟩
  have hvoted : db'.hasVoted userId p.id = db.hasVoted userId p.id := by
    refine Join.any_eq_of_filter_eq (h.votes_eq fun v hv => ?_)
    rw [beq_iff_eq.mp (Bool.and_eq_true_iff.mp hv).1]
    exact hid
  have hallows : allows db' T .contactSubmitter = allows db T .contactSubmitter := by
    rw [allows, allows, tenantPlan, tenantPlan, h.tenants]
  rw [dashboardDetail, dashboardDetail, dashboardPost, dashboardPost, hcomments, hvoted, hallows,
    h.authorOf_eq, h.votesOn_eq hid, h.tagCards_eq hid, h.getAttachmentsForPost_eq hid]

/-- A post that is shown is found in both or in neither. -/
theorem find?_eq (h : SameView V db db') {q : Post → Bool} (hq : ∀ p, q p = true → V.post p = true) :
    db'.posts.rows.find? q = db.posts.rows.find? q := by
  rw [← List.head?_filter, ← List.head?_filter,
    Join.filter_eq_of_filter_eq h.posts (fun p _ => hq p) (fun p _ => hq p) fun _ _ => rfl]

end SameView

end Feedbase
