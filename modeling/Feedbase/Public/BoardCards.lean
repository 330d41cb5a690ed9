import Feedbase.Public.Board

/-!
# The cards of the board, one by one

The board's queries join the posts with counts that are made for all of them at once, and put
together what they find about the posts of a page. Each card shows what queries about its post
alone would find, as long as no vote, comment, attachment or tag of a post is filed under another
workspace than the post.

## Main definitions

* `SameTenant` — what belongs to a post is in its workspace
* `Db.IsCard` — what queries about one post find

## Main results

* `Db.boardRows_eq` — the joins give one row for each post
* `isCard_of_mem_cards` — the batched queries give each post its own
* `getPublicBoard_perRow` — the page
-/

namespace Feedbase

variable {db : Db} {T : Nat} {collate : Char → Char → Bool} {filters : BoardFilters} {search : Text}

/-! ### One post at a time -/

/-- The number of votes that `togglePublicVote` reports. -/
def Db.votesOn (db : Db) (postId : Nat) : Nat :=
  db.votes.rows.countP (·.postId == postId)

/-- The comments of a post that are shown. -/
def Db.commentsOn (db : Db) (postId : Nat) : Nat :=
  db.comments.rows.countP fun c => c.postId == postId && c.moderationState != .spam

def Db.attachmentsOn (db : Db) (postId : Nat) : List PostAttachment :=
  db.postAttachments.rows.filter (·.postId == some postId)

/-- The path of the first image of a post. -/
def Db.IsThumbnail (db : Db) (postId : Nat) (path : Option String) : Prop :=
  match path with
  | none => ∀ a ∈ db.attachmentsOn postId, a.kind ≠ .image
  | some path => ∃ a ∈ db.attachmentsOn postId, a.kind = .image ∧ a.storagePath = path ∧
      ∀ b ∈ db.attachmentsOn postId, b.kind = .image → a.id ≤ b.id

/-- The tags of a post. -/
def Db.tagsOn (db : Db) (postId : Nat) : List TagCard :=
  (db.postTags.rows.filter (·.postId == postId)).filterMap fun pt =>
    (db.tags.rows.find? fun t => some pt.tagId = some t.id).map fun t => (tagRow pt t).card

/-- The author whose name is shown. -/
def Db.authorOf (db : Db) (p : Post) : Option User :=
  db.users.rows.find? fun u => p.authorId = some u.id

/-- The card of a post. -/
structure Db.IsCard (db : Db) (p : Post) (card : PostCard) : Prop where
  row : card.toBoardRow = boardRow p (db.authorOf p) (some (p.id, db.votesOn p.id))
  comments : card.commentCount = db.commentsOn p.id
  attachments : card.attachmentCount = (db.attachmentsOn p.id).length
  thumbnail : db.IsThumbnail p.id card.thumbnailPath
  tags : card.tags.Perm (db.tagsOn p.id)
  tagsOnce : (card.tags.map (·.id)).Nodup

/-- What belongs to a post is in its workspace. -/
structure SameTenant (db : Db) : Prop where
  votes : ∀ v ∈ db.votes, ∀ p ∈ db.posts, v.postId = p.id → v.tenantId = p.tenantId
  comments : ∀ c ∈ db.comments, ∀ p ∈ db.posts, c.postId = p.id → c.tenantId = p.tenantId
  attachments : ∀ a ∈ db.postAttachments, ∀ p ∈ db.posts, a.postId = some p.id →
    a.tenantId = p.tenantId
  postTags : ∀ pt ∈ db.postTags, ∀ p ∈ db.posts, pt.postId = p.id → pt.tenantId = p.tenantId

/-! ### The list query -/

/-- One row for each post that is found. -/
theorem Db.boardRows_eq (db : Db) (collate : Char → Char → Bool) (T : Nat)
    (filters : BoardFilters) (search : Text) :
    db.boardRows collate T filters search =
      (db.posts.rows.filter (db.boardWhere collate T filters search)).map fun p =>
        boardRow p (db.authorOf p)
          ((db.voteCounts T).find? fun g => some p.id = some g.1) := by
  have hgroups : ((db.voteCounts T).map Prod.fst).Nodup := Join.nodup_groupCount _ _
  have husers : (db.users.rows.map User.id).Nodup := db.users.nodup
  rw [Db.boardRows, Join.left_eq_map hgroups, Join.left_eq_map husers, List.map_map,
    List.filter_map, List.map_map]
  rfl

/-- What the query finds belongs to the workspace, and is no spam. -/
theorem visible_of_boardWhere {p : Post} (h : db.boardWhere collate T filters search p = true) :
    p.tenantId = T ∧ p.moderationState ≠ .spam := by
  simp only [Db.boardWhere, Bool.and_eq_true, beq_iff_eq, bne_iff_ne] at h
  exact ⟨h.1.1.1.1.1, h.1.1.1.1.2⟩

/-- A row of the list query is a post that is found. -/
theorem mem_boardRows {r : BoardRow} (h : r ∈ db.boardRows collate T filters search) :
    ∃ p ∈ db.posts, db.boardWhere collate T filters search p = true ∧ p.tenantId = T ∧
      r = boardRow p (db.authorOf p)
        ((db.voteCounts T).find? fun g => some p.id = some g.1) := by
  rw [Db.boardRows_eq] at h
  obtain ⟨p, hp, rfl⟩ := List.mem_map.mp h
  obtain ⟨hmem, hwhere⟩ := List.mem_filter.mp hp
  exact ⟨p, hmem, hwhere, (visible_of_boardWhere hwhere).1, rfl⟩

/-- The votes that are counted for a post are all its votes. -/
theorem SameTenant.voteCount (h : SameTenant db) {p : Post} (hp : p ∈ db.posts) :
    (((db.voteCounts p.tenantId).find? fun g => some p.id = some g.1).map Prod.snd).getD 0 =
      db.votesOn p.id := by
  have hcount := Join.count_groupCount
    (List.Perm.refl (Join.groupCount Vote.postId (db.votes.rows.filter (·.tenantId == p.tenantId))))
    p.id
  have hkey : (fun g : Nat × Nat => decide (some p.id = some g.1)) =
      fun g => decide (g.1 = p.id) := by
    funext g
    exact decide_eq_decide.mpr (Option.some_inj.trans eq_comm)
  rw [hkey, Db.voteCounts, hcount, List.countP_filter, Db.votesOn]
  refine List.countP_congr fun v hv => ?_
  rw [Bool.and_eq_true, beq_iff_eq, beq_iff_eq, decide_eq_true_iff]
  constructor
  · exact And.left
  · exact fun heq => ⟨heq, h.votes v hv p hp heq⟩

/-! ### The batched queries -/

variable {ids : List Nat} {orders : RowOrders} {s : BoardSort} {p : Post}

/-- The tags that come with a post. -/
theorem SameTenant.tags (h : SameTenant db) (hp : p ∈ db.posts) (hid : p.id ∈ ids) :
    ((db.tagRows p.tenantId ids).filter fun t => t.postId = p.id).map TagRow.card =
      db.tagsOn p.id := by
  have htags : (db.tags.rows.map Tag.id).Nodup := db.tags.nodup
  rw [Db.tagRows, Join.inner_eq_filterMap htags, Db.tagsOn]
  rw [List.filter_map, List.map_map, List.filter_filter, List.filter_filterMap,
    List.map_filterMap, List.filterMap_filter]
  refine List.filterMap_congr fun pt hpt => ?_
  by_cases hpost : pt.postId = p.id
  · have htenant : pt.tenantId = p.tenantId := h.postTags pt hpt p hp hpost
    cases db.tags.rows.find? fun t => some pt.tagId = some t.id with
    | none => simp [hpost]
    | some t => simp [hpost, htenant, hid, tagRow, Option.filter]
  · cases db.tags.rows.find? fun t => some pt.tagId = some t.id with
    | none => simp [hpost]
    | some t => simp [hpost, tagRow, Option.filter]

/-- The tag that a row names. -/
theorem id_of_tagRow {pt : PostTag} {id : Nat}
    (h : (((db.tags.rows.find? fun t => some pt.tagId = some t.id).map
      fun t => (tagRow pt t).card).map (·.id)) = some id) : id = pt.tagId := by
  cases hfind : db.tags.rows.find? fun t => some pt.tagId = some t.id with
  | none =>
    rw [hfind] at h
    cases h
  | some t =>
    have hfound := List.find?_some hfind
    have htag : pt.tagId = t.id := Option.some.inj (of_decide_eq_true hfound)
    rw [hfind] at h
    exact (Option.some.inj h).symm.trans htag.symm

/-- No tag comes twice with a post. -/
theorem SameTenant.nodup_tagsOn (h : SameTenant db) (hp : p ∈ db.posts) :
    ((db.tagsOn p.id).map (·.id)).Nodup := by
  rw [Db.tagsOn, List.map_filterMap, List.Nodup, List.pairwise_filterMap]
  refine (db.postTags.noClash.filter _).imp_of_mem ?_
  intro pt pt' hpt hpt' hclash id hid id' hid' heq
  obtain ⟨hmem, hpost⟩ := List.mem_filter.mp hpt
  obtain ⟨hmem', hpost'⟩ := List.mem_filter.mp hpt'
  have htenant := h.postTags pt hmem p hp (beq_iff_eq.mp hpost)
  have htenant' := h.postTags pt' hmem' p hp (beq_iff_eq.mp hpost')
  have htag : pt.tagId = pt'.tagId := by
    rw [← id_of_tagRow hid, ← id_of_tagRow hid', heq]
  have hsame : Sql.Row.clash pt pt' = true := by
    simp [Sql.Row.clash, htenant, htenant', beq_iff_eq.mp hpost, beq_iff_eq.mp hpost', htag]
  rw [hsame] at hclash
  cases hclash

/-- The comments that are counted for a post. -/
theorem SameTenant.commentCount (h : SameTenant db) (hp : p ∈ db.posts) (hid : p.id ∈ ids)
    {groups : List (Nat × Nat)} (hgroups : groups.Perm (db.commentCounts p.tenantId ids)) :
    (commentsByPost groups p.id).getD 0 = db.commentsOn p.id := by
  have hkeys : (groups.map Prod.fst).Nodup :=
    ((hgroups.map Prod.fst).nodup_iff).mpr (Join.nodup_groupCount _ _)
  rw [commentsByPost, Join.collect_of_nodup hkeys, Join.count_groupCount hgroups,
    List.countP_filter, Db.commentsOn]
  refine List.countP_congr fun c hc => ?_
  have htenant := h.comments c hc p hp
  simp only [Bool.and_eq_true, beq_iff_eq, decide_eq_true_iff, List.contains_iff_mem]
  constructor
  · rintro ⟨hpost, -, hstate⟩
    exact ⟨hpost, hstate⟩
  · rintro ⟨hpost, hstate⟩
    exact ⟨hpost, ⟨htenant hpost, hpost ▸ hid⟩, hstate⟩

/-! ### Attachments -/

/-- The attachments of a post, as the batched query orders them. -/
def Db.attachmentsFor (db : Db) (T : Nat) (ids : List Nat) (postId : Nat) : List PostAttachment :=
  (db.attachmentRows T ids).filter fun a => a.postId = some postId

theorem SameTenant.attachments_perm (h : SameTenant db) (hp : p ∈ db.posts) (hid : p.id ∈ ids) :
    (db.attachmentsFor p.tenantId ids p.id).Perm (db.attachmentsOn p.id) := by
  refine ((List.perm_insertionSort _ _).filter _).trans (List.Perm.of_eq ?_)
  rw [List.filter_filter, Db.attachmentsOn]
  refine List.filter_congr fun a ha => ?_
  have htenant := h.attachments a ha p hp
  rw [Bool.eq_iff_iff]
  simp only [Bool.and_eq_true, decide_eq_true_iff, beq_iff_eq]
  constructor
  · exact And.left
  · intro hpost
    refine ⟨hpost, htenant hpost, ?_⟩
    rw [hpost]
    exact List.contains_iff_mem.mpr hid

theorem sorted_attachmentsFor (db : Db) (T : Nat) (ids : List Nat) (postId : Nat) :
    (db.attachmentsFor T ids postId).Pairwise fun a b => a.id ≤ b.id := by
  have : Std.Total fun a b : PostAttachment => a.id ≤ b.id := ⟨fun a b => Nat.le_total a.id b.id⟩
  have : IsTrans PostAttachment fun a b => a.id ≤ b.id := ⟨fun _ _ _ => Nat.le_trans⟩
  exact (List.pairwise_insertionSort _ _).filter _

/-- The first image is the one with the least identifier. -/
theorem isThumbnail_find? {rows : List PostAttachment} {postId : Nat}
    (hperm : rows.Perm (db.attachmentsOn postId)) (hsorted : rows.Pairwise fun a b => a.id ≤ b.id) :
    db.IsThumbnail postId ((rows.find? (·.kind = .image)).map (·.storagePath)) := by
  cases hfind : rows.find? (·.kind = .image) with
  | none =>
    intro a ha himage
    exact List.find?_eq_none.mp hfind a (hperm.mem_iff.mpr ha) (decide_eq_true himage)
  | some a =>
    obtain ⟨himage, before, after, hsplit, hbefore⟩ := List.find?_eq_some_iff_append.mp hfind
    have hmem := hperm.mem_iff.mp (List.mem_of_find?_eq_some hfind)
    refine ⟨a, hmem, of_decide_eq_true himage, rfl, ?_⟩
    intro b hb himage'
    rw [hsplit] at hperm hsorted
    obtain ⟨-, hrest, -⟩ := List.pairwise_append.mp hsorted
    rcases List.mem_append.mp (hperm.mem_iff.mpr hb) with hb | hb
    · have hno := hbefore b hb
      simp [himage'] at hno
    · rcases List.mem_cons.mp hb with rfl | hb
      · exact Nat.le_refl _
      · exact (List.pairwise_cons.mp hrest).1 b hb

/-- What is kept after some more attachments. -/
theorem foldl_add (rows : List PostAttachment) (kept : Option AttachmentEntry) :
    ((rows.foldl (fun entry a => some ((entry.getD {}).add a)) kept).getD {}).count =
        (kept.getD {}).count + rows.length ∧
      ((rows.foldl (fun entry a => some ((entry.getD {}).add a)) kept).getD {}).thumbnail =
        (kept.getD {}).thumbnail.or ((rows.find? (·.kind = .image)).map (·.storagePath)) := by
  induction rows generalizing kept with
  | nil => exact ⟨rfl, (Option.or_none).symm⟩
  | cons a rows ih =>
    obtain ⟨hcount, hthumbnail⟩ := ih (some ((kept.getD {}).add a))
    have hadd : ((kept.getD {}).add a).count = (kept.getD {}).count + 1 := rfl
    rw [Option.getD_some] at hcount hthumbnail
    rw [List.foldl_cons, hcount, hthumbnail, hadd, List.length_cons, List.find?_cons]
    refine ⟨by omega, ?_⟩
    rw [AttachmentEntry.add]
    dsimp only
    cases (kept.getD {}).thumbnail with
    | some path => rw [if_neg (by simp)]; rfl
    | none =>
      by_cases himage : a.kind = .image
      · rw [if_pos ⟨rfl, himage⟩, decide_eq_true himage]
        rfl
      · rw [if_neg (by simp [himage]), decide_eq_false himage]

/-- What is kept of the attachments of a post. -/
theorem attachmentsByPost_apply (db : Db) (T : Nat) (ids : List Nat) (postId : Nat) :
    ((attachmentsByPost (db.attachmentRows T ids) (some postId)).map (·.count)).getD 0 =
        (db.attachmentsFor T ids postId).length ∧
      (attachmentsByPost (db.attachmentRows T ids) (some postId)).bind (·.thumbnail) =
        ((db.attachmentsFor T ids postId).find? (·.kind = .image)).map (·.storagePath) := by
  obtain ⟨hcount, hthumbnail⟩ := foldl_add (db.attachmentsFor T ids postId) none
  have hentry : attachmentsByPost (db.attachmentRows T ids) (some postId) =
      (db.attachmentsFor T ids postId).foldl
        (fun entry a => some ((entry.getD {}).add a)) none := by
    rw [attachmentsByPost, Join.collect_apply]
    rfl
  rw [← hentry] at hcount hthumbnail
  have hzero : ({} : AttachmentEntry).count = 0 := rfl
  rw [Option.getD_none, hzero, Nat.zero_add] at hcount
  rw [← hcount]
  refine ⟨?_, ?_⟩
  · cases attachmentsByPost (db.attachmentRows T ids) (some postId) with
    | none => rfl
    | some entry => rfl
  · have hnone : (none : Option String).or
        (((db.attachmentsFor T ids postId).find? (·.kind = .image)).map (·.storagePath)) =
          ((db.attachmentsFor T ids postId).find? (·.kind = .image)).map (·.storagePath) := rfl
    rw [← hnone]
    refine Eq.trans ?_ hthumbnail
    cases attachmentsByPost (db.attachmentRows T ids) (some postId) with
    | none => rfl
    | some entry => rfl

/-! ### The page -/

/-- What the database returns are the rows it has found. -/
structure RowOrders.Complete (orders : RowOrders) : Prop where
  posts : ∀ rows, (orders.posts rows).Perm rows
  tags : ∀ rows, (orders.tags rows).Perm rows
  comments : ∀ rows, (orders.comments rows).Perm rows

theorem RowOrders.Valid.complete (h : orders.Valid s) : orders.Complete where
  posts rows := (h.posts rows).perm
  tags := h.tags
  comments := h.comments

/-- The card of a post of the page. -/
theorem isCard_of_mem_cards (h : SameTenant db) (horders : orders.Complete)
    {rows : List BoardRow} {card : PostCard}
    (hrows : ∀ r ∈ rows, r ∈ db.boardRows collate T filters search)
    (hcard : card ∈ db.cards orders T rows) :
    ∃ p ∈ db.posts, db.boardWhere collate T filters search p = true ∧ card.id = p.id ∧
      db.IsCard p card := by
  obtain ⟨r, hr, rfl⟩ := List.mem_map.mp hcard
  obtain ⟨p, hp, hwhere, rfl, hrow⟩ := mem_boardRows (hrows r hr)
  have hrid : r.id = p.id := by
    rw [hrow]
    rfl
  have hid : p.id ∈ rows.map (·.id) := hrid ▸ List.mem_map_of_mem hr
  have htags : ((tagsByPost (orders.tags (db.tagRows p.tenantId (rows.map (·.id)))) r.id).getD
      []).Perm (db.tagsOn p.id) := by
    rw [tagsByPost, Join.collect_append, hrid, ← h.tags hp hid]
    exact ((horders.tags _).filter _).map _
  obtain ⟨hcount, hthumbnail⟩ :=
    attachmentsByPost_apply db p.tenantId (rows.map (·.id)) p.id
  refine ⟨p, hp, hwhere, hrid, ?_, ?_, ?_, ?_, htags, ?_⟩
  · have hvotes := h.voteCount hp
    rw [hrow, boardRow, boardRow, hvotes]
    rfl
  · exact hrid ▸ h.commentCount hp hid (horders.comments _)
  · dsimp only
    rw [hrid, hcount, (h.attachments_perm hp hid).length_eq]
  · dsimp only
    rw [hrid, hthumbnail]
    exact isThumbnail_find? (h.attachments_perm hp hid) (sorted_attachmentsFor _ _ _ _)
  · exact ((htags.map _).nodup_iff).mpr (h.nodup_tagsOn hp)

/-- No post comes out of the joins twice. -/
theorem nodup_boardRows (db : Db) (collate : Char → Char → Bool) (T : Nat)
    (filters : BoardFilters) (search : Text) :
    ((db.boardRows collate T filters search).map (·.id)).Nodup := by
  rw [Db.boardRows_eq, List.map_map]
  exact (List.filter_sublist.map Post.id).nodup db.posts.nodup

/-- The cards of a page have the posts of its rows. -/
theorem map_id_cards (db : Db) (orders : RowOrders) (T : Nat) (rows : List BoardRow) :
    (db.cards orders T rows).map (·.id) = rows.map (·.id) := by
  rw [Db.cards, List.map_map]
  rfl

theorem posts_boardPage (db : Db) (collate : Char → Char → Bool) (orders : RowOrders) (T : Nat)
    (filters : BoardFilters) (query : BoardQuery) :
    (db.boardPage collate orders T filters query).posts =
      db.cards orders T (sliced query.limit query.offset
        (orders.posts (db.boardRows collate T filters query.search))) := by
  rw [Db.boardPage]
  dsimp only
  split
  · rename_i hempty
    rw [List.isEmpty_iff.mp hempty]
    rfl
  · rfl

/-- A page of the board, for every filter, sort and page: no post comes twice, each card shows what
queries about its post alone find, and the post is a visible one of the workspace. -/
theorem getPublicBoard_perRow (db : Db) (h : SameTenant db) (caps : BoardCaps)
    (collate : Char → Char → Bool) (orders : RowOrders) (horders : orders.Complete) (T : Nat)
    (pagination : Value) (filters : BoardFilters) (page : BoardPage)
    (hpage : getPublicBoard db caps collate orders T pagination filters = .page page) :
    (page.posts.map (·.id)).Nodup ∧
      ∀ card ∈ page.posts, ∃ p ∈ db.posts, p.tenantId = T ∧ p.moderationState ≠ .spam ∧
        card.id = p.id ∧ db.IsCard p card := by
  rw [getPublicBoard] at hpage
  cases hquery : boardQuery caps pagination filters with
  | none =>
    rw [hquery] at hpage
    cases hpage
  | some query =>
    rw [hquery] at hpage
    cases horder : query.orderBy with
    | inherited =>
      simp only [horder] at hpage
      cases hpage
    | sort s =>
      simp only [horder] at hpage
      obtain rfl := BoardReply.page.inj hpage
      rw [posts_boardPage, map_id_cards]
      -- the page is a part of the rows in their order
      have hsub : (sliced query.limit query.offset
          (orders.posts (db.boardRows collate T filters query.search))).Sublist
            (orders.posts (db.boardRows collate T filters query.search)) :=
        (List.take_sublist _ _).trans (List.drop_sublist _ _)
      refine ⟨?_, fun card hcard => ?_⟩
      · refine (hsub.map _).nodup ?_
        exact ((horders.posts _).map _).nodup_iff.mpr (nodup_boardRows _ _ _ _ _)
      · have hrows : ∀ r ∈ sliced query.limit query.offset
            (orders.posts (db.boardRows collate T filters query.search)),
              r ∈ db.boardRows collate T filters query.search :=
          fun r hr => (horders.posts _).mem_iff.mp (hsub.subset hr)
        obtain ⟨p, hp, hwhere, hid, hp'⟩ := isCard_of_mem_cards h horders hrows hcard
        obtain ⟨htenant, hvisible⟩ := visible_of_boardWhere hwhere
        exact ⟨p, hp, htenant, hvisible, hid, hp'⟩

/-- Two posts, one of them with votes, comments, attachments and tags. -/
def busyBoard : Db where
  posts :=
    { rows := [
        { id := 1, tenantId := 5, title := "Dark mode", description := "", createdAt := 10 },
        { id := 2, tenantId := 5, title := "Exports", description := "",
          submitterName := some "Ann", createdAt := 20 }]
      next := 3
      id_lt := by decide
      nodup := by decide
      noClash := by decide }
  votes :=
    { rows := [{ id := 1, tenantId := 5, postId := 1, guestId := some "g" },
        { id := 2, tenantId := 5, postId := 1, guestId := some "h" }]
      next := 3
      id_lt := by decide
      nodup := by decide
      noClash := by decide }
  comments :=
    { rows := [{ id := 1, tenantId := 5, postId := 1, body := "Yes", createdAt := 11 },
        { id := 2, tenantId := 5, postId := 1, body := "Buy", moderationState := .spam,
          createdAt := 12 }]
      next := 3
      id_lt := by decide
      nodup := by decide
      noClash := by decide }
  tags :=
    { rows := [{ id := 7, tenantId := 5, name := "ui" }]
      next := 8
      id_lt := by decide
      nodup := by decide
      noClash := by decide }
  postTags :=
    { rows := [{ id := 1, tenantId := 5, postId := 1, tagId := 7 }]
      next := 2
      id_lt := by decide
      nodup := by decide
      noClash := by decide }
  postAttachments :=
    { rows := [
        { id := 3, tenantId := 5, postId := some 1, kind := .image, storagePath := "b.png",
          mimeType := "image/png", sizeBytes := 1 },
        { id := 1, tenantId := 5, postId := some 1, kind := .video, storagePath := "v.mp4",
          mimeType := "video/mp4", sizeBytes := 1 },
        { id := 2, tenantId := 5, postId := some 1, kind := .image, storagePath := "a.png",
          mimeType := "image/png", sizeBytes := 1 }]
      next := 4
      id_lt := by decide
      nodup := by decide
      noClash := by decide }

/-- What is shown of the two posts. -/
def busyPage : BoardPage where
  posts :=
    [{ id := 2, title := "Exports", description := "", postType := .feedback, status := .open,
       priority := 3, isPinned := false, createdAt := 20, authorName := "Ann", voteCount := 0 },
      { id := 1, title := "Dark mode", description := "", postType := .feedback, status := .open,
        priority := 3, isPinned := false, createdAt := 10, authorName := "Anonymous",
        voteCount := 2, tags := [{ id := 7, name := "ui", colorHex := none }], commentCount := 1,
        attachmentCount := 3, thumbnailPath := some "a.png" }]
  total := 2

theorem sameTenant_busyBoard : SameTenant busyBoard where
  votes := by decide +kernel
  comments := by decide +kernel
  attachments := by decide +kernel
  postTags := by decide +kernel

theorem getPublicBoard_perRow_busy :
    (busyPage.posts.map (·.id)).Nodup ∧
      ∀ card ∈ busyPage.posts, ∃ p ∈ busyBoard.posts, p.tenantId = 5 ∧
        p.moderationState ≠ .spam ∧ card.id = p.id ∧ busyBoard.IsCard p card :=
  getPublicBoard_perRow busyBoard sameTenant_busyBoard {} (· == ·) (.found .newest)
    (RowOrders.found_valid .newest).complete 5 (.obj []) {} busyPage (by decide +kernel)

end Feedbase
