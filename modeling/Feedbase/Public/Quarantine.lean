import Feedbase.Comment.Threads
import Feedbase.Post.PostEdits
import Feedbase.Public.Visibility
import Feedbase.Public.Votes

/-!
# What is quarantined stays out of sight

A post or a comment that is taken for spam is kept, but not shown. Two databases that agree on the
rest cannot be told apart by the public board, by the page of a post, nor by whether a vote is
taken, whichever rows are quarantined in each. Comments tell them apart in one way: the parent of a
reply is looked up whatever its state, so a reply to a quarantined comment is taken, and is refused
once the row is gone. The public roadmap lists what is on it whatever the state of its post: it
keeps the secret if and only if no post of the roadmap is quarantined.

## Main definitions

* `openView` — whoever is shown no spam
* `SameToVisitors` — what visitors of a workspace are shown, and what is taken from them
* `Post.withheld`, `Comment.withheld` — what is left of a quarantined row
* `SameButSpam` — two databases with the same rows in quarantine, whatever these say
* `SameButUnread` — only what these say, and who says it, may differ
* `SameInPublic` — what all public pages show and take

## Main results

* `SameButSpam.sameView` — the two look the same to whoever is shown no spam
* `quarantine_hides_iff` — to visitors of a workspace
* `unread_hides_iff` — to visitors who also look at the roadmap
-/

namespace Feedbase

/-- Of a quarantined post, only that it is there and whose it is. -/
def Post.withheld (p : Post) : Post :=
  if p.moderationState = .spam then
    { id := p.id, tenantId := p.tenantId, title := "", description := ""
      moderationState := .spam, createdAt := 0 }
  else p

/-- Of a quarantined comment, only where it stands. -/
def Comment.withheld (c : Comment) : Comment :=
  if c.moderationState = .spam then
    { id := c.id, tenantId := c.tenantId, postId := c.postId, body := ""
      parentCommentId := c.parentCommentId, moderationState := .spam, createdAt := 0 }
  else c

/-- The id is that of a quarantined post. -/
def Db.isSpamPost (db : Db) (id : Nat) : Bool :=
  db.posts.rows.any fun p => p.id == id && p.moderationState == .spam

/-- A quarantined comment on the post has the id. -/
def Db.spamCommentAt (db : Db) (tenantId postId id : Nat) : Bool :=
  db.comments.rows.any fun c =>
    c.id == id && c.postId == postId && c.tenantId == tenantId && c.moderationState == .spam

/-- The same rows are quarantined, in the same places. The databases differ only in what these say,
and in the votes, comments, labels and attachments of quarantined posts. -/
structure SameButSpam (db db' : Db) : Prop where
  posts : db'.posts.rows.map Post.withheld = db.posts.rows.map Post.withheld
  comments : (db'.comments.rows.filter fun c => !db'.isSpamPost c.postId).map Comment.withheld =
    (db.comments.rows.filter fun c => !db.isSpamPost c.postId).map Comment.withheld
  votes : (db'.votes.rows.filter fun v => !db'.isSpamPost v.postId) =
    db.votes.rows.filter fun v => !db.isSpamPost v.postId
  labels : (db'.postTags.rows.filter fun pt => !db'.isSpamPost pt.postId) =
    db.postTags.rows.filter fun pt => !db.isSpamPost pt.postId
  attachments : (db'.postAttachments.rows.filter fun a => !a.postId.any db'.isSpamPost) =
    db.postAttachments.rows.filter fun a => !a.postId.any db.isSpamPost
  rest : { db' with
    posts := db.posts, comments := db.comments, votes := db.votes, postTags := db.postTags
    postAttachments := db.postAttachments } = db

/-- A post without what it is about, if it is quarantined. -/
def Post.unread (p : Post) : Post :=
  if p.moderationState = .spam then
    { p with title := "", description := "", postType := .feedback, status := .open }
  else p

/-- A comment without what it says and who says it, if it is quarantined. -/
def Comment.unread (c : Comment) : Comment :=
  if c.moderationState = .spam then
    { c with
      authorId := none, submitterName := none, submitterEmail := none, guestId := none
      voterHash := none, asOwner := 0, body := "" }
  else c

/-- The databases differ only in the title, description, type, status, votes, comments and labels of
quarantined posts, and in the body and the author of quarantined comments. -/
structure SameButUnread (db db' : Db) : Prop where
  posts : db'.posts.rows.map Post.unread = db.posts.rows.map Post.unread
  comments : (db'.comments.rows.filter fun c => !db'.isSpamPost c.postId).map Comment.unread =
    (db.comments.rows.filter fun c => !db.isSpamPost c.postId).map Comment.unread
  votes : (db'.votes.rows.filter fun v => !db'.isSpamPost v.postId) =
    db.votes.rows.filter fun v => !db.isSpamPost v.postId
  labels : (db'.postTags.rows.filter fun pt => !db'.isSpamPost pt.postId) =
    db.postTags.rows.filter fun pt => !db.isSpamPost pt.postId
  rest : { db' with
    posts := db.posts, comments := db.comments, votes := db.votes, postTags := db.postTags } = db

/-- Whoever is shown no spam. -/
def openView : View where
  post p := p.moderationState != .spam
  comment c := c.moderationState != .spam

/-- The reply to a comment, without the id of the comment. -/
def outcome (r : Except Failure (Reply (Option Nat))) : Except Failure (Nat × String × Bool) :=
  r.map fun reply => (reply.statusCode, reply.msgKey, reply.result.isSome)

/-- What a comment that replies to `parentCommentId` is attached to is not quarantined in one of the
databases alone. -/
def AgreeOnParent (db db' : Db) (T postId : Nat) (parentCommentId : Option Nat) : Prop :=
  ∀ n, parentCommentId = some n → db'.spamCommentAt T postId n = db.spamCommentAt T postId n

/-- Visitors of a workspace are shown the same, and the same is taken from them. -/
structure SameToVisitors (T : Nat) (db db' : Db) : Prop where
  board : ∀ caps collate orders pagination filters, orders.Complete →
    getPublicBoard db' caps collate orders T pagination filters =
      getPublicBoard db caps collate orders T pagination filters
  detail : ∀ (w : World) orders postId,
    ((getPublicPostDetail orders T postId).exec { w with db := db' }).1 =
      ((getPublicPostDetail orders T postId).exec { w with db := db }).1
  comment : ∀ (w : World) env lower postId data authUser,
    AgreeOnParent db db' T postId data.parentCommentId →
      outcome ((createPublicComment env lower T postId data authUser).exec { w with db := db' }).1 =
        outcome ((createPublicComment env lower T postId data authUser).exec { w with db := db }).1
  vote : ∀ (w : World) postId guestId hash,
    ((togglePublicVote T postId guestId hash).exec { w with db := db' }).1 =
      ((togglePublicVote T postId guestId hash).exec { w with db := db }).1

/-- All public pages show the same, and the same is taken on them. -/
structure SameInPublic (T : Nat) (db db' : Db) : Prop extends SameToVisitors T db db' where
  reply : ∀ (w : World) env lower postId data authUser,
    outcome ((createPublicComment env lower T postId data authUser).exec { w with db := db' }).1 =
      outcome ((createPublicComment env lower T postId data authUser).exec { w with db := db }).1
  roadmap : ∀ (w : World) orders,
    ((getPublicRoadmap orders T).exec { w with db := db' }).1 =
      ((getPublicRoadmap orders T).exec { w with db := db }).1

variable {db db' : Db} {T id : Nat} {p : Post}

/-! ### Rows that are not quarantined -/

theorem Post.withheld_of_ne (h : p.moderationState ≠ .spam) : p.withheld = p := if_neg h

theorem Comment.withheld_of_ne {c : Comment} (h : c.moderationState ≠ .spam) : c.withheld = c :=
  if_neg h

theorem Post.id_withheld (p : Post) : p.withheld.id = p.id := by
  rw [Post.withheld]
  split <;> rfl

theorem Post.moderationState_withheld (p : Post) : p.withheld.moderationState = p.moderationState := by
  rw [Post.withheld]
  split
  · rename_i h
    exact h.symm
  · rfl

theorem Comment.moderationState_withheld (c : Comment) :
    c.withheld.moderationState = c.moderationState := by
  rw [Comment.withheld]
  split
  · rename_i h
    exact h.symm
  · rfl

theorem Db.isSpamPost_iff : db.isSpamPost id = true ↔
    ∃ p ∈ db.posts, p.id = id ∧ p.moderationState = .spam := by
  simp only [Db.isSpamPost, List.any_eq_true, Bool.and_eq_true, beq_iff_eq, Sql.Table.mem_def]

/-- A post that is shown is not quarantined. -/
theorem Db.not_isSpamPost_of_shows (h : db.shows openView id = true) : db.isSpamPost id = false := by
  obtain ⟨p, hp, hid, hopen⟩ := Db.shows_eq_true_iff.mp h
  rw [Bool.eq_false_iff, ne_eq, Db.isSpamPost_iff]
  rintro ⟨q, hq, hqid, hspam⟩
  obtain rfl : q = p := Sql.Table.eq_of_id hq hp (hqid.trans hid.symm)
  exact bne_iff_ne.mp hopen hspam

/-- What is left of the posts tells which are quarantined. -/
theorem isSpamPost_congr (h : db'.posts.rows.map Post.withheld = db.posts.rows.map Post.withheld)
    (id : Nat) : db'.isSpamPost id = db.isSpamPost id := by
  have hmap : ∀ d : Db, d.isSpamPost id =
      (d.posts.rows.map Post.withheld).any fun p => p.id == id && p.moderationState == .spam := by
    intro d
    rw [List.any_map]
    refine congrArg _ (funext fun p => ?_)
    rw [Function.comp_apply, Post.id_withheld, Post.moderationState_withheld]
  rw [hmap, hmap, h]

namespace SameButSpam

theorem isSpamPost_eq (h : SameButSpam db db') (id : Nat) : db'.isSpamPost id = db.isSpamPost id :=
  isSpamPost_congr h.posts id

theorem tags_eq (h : SameButSpam db db') : db'.tags = db.tags := by
  have hrest := congrArg Db.tags h.rest
  exact hrest

theorem users_eq (h : SameButSpam db db') : db'.users = db.users := by
  have hrest := congrArg Db.users h.rest
  exact hrest

theorem tenants_eq (h : SameButSpam db db') : db'.tenants = db.tenants := by
  have hrest := congrArg Db.tenants h.rest
  exact hrest

/-- They look the same to whoever is shown no spam. -/
theorem sameView (h : SameButSpam db db') : SameView openView db db' := by
  have hposts : db'.posts.rows.filter openView.post = db.posts.rows.filter openView.post := by
    refine Join.filter_eq_of_map_eq h.posts (fun p hp => Post.withheld_of_ne (bne_iff_ne.mp hp)) ?_
    intro p
    change (p.withheld.moderationState != .spam) = (p.moderationState != .spam)
    rw [Post.moderationState_withheld]
  have hshows : ∀ id, db'.shows openView id = db.shows openView id := by
    intro id
    have hfilter : ∀ d : Db, d.shows openView id =
        (d.posts.rows.filter openView.post).any fun p => p.id == id := by
      intro d
      rw [Db.shows, List.any_filter]
      exact congrArg _ (funext fun p => Bool.and_comm _ _)
    rw [hfilter, hfilter, hposts]
  have hopen : ∀ {d : Db} {id : Nat}, d.shows openView id = true → (!d.isSpamPost id) = true := by
    intro d id hs
    rw [Db.not_isSpamPost_of_shows hs]
    rfl
  refine ⟨hposts, ?_, ?_, ?_, ?_, ?_, ?_, ?_⟩
  · exact Join.filter_eq_of_filter_eq h.votes (fun v _ => hopen) (fun v _ => hopen) fun v _ => hshows _
  · -- a comment is seen when neither it nor its post is quarantined
    have hcomments := Join.filter_eq_of_map_eq (q := openView.comment) h.comments
      (fun c hc => Comment.withheld_of_ne (bne_iff_ne.mp hc)) fun c => by
        change (c.withheld.moderationState != .spam) = (c.moderationState != .spam)
        rw [Comment.moderationState_withheld]
    rw [List.filter_filter, List.filter_filter] at hcomments
    refine Join.filter_eq_of_filter_eq hcomments ?_ ?_ fun c _ => by rw [hshows]
    · intro c _ hc
      obtain ⟨hc, hs⟩ := Bool.and_eq_true_iff.mp hc
      rw [hc, hopen hs, Bool.and_self]
    · intro c _ hc
      obtain ⟨hc, hs⟩ := Bool.and_eq_true_iff.mp hc
      rw [hc, hopen hs, Bool.and_self]
  · exact Join.filter_eq_of_filter_eq h.labels (fun v _ => hopen) (fun v _ => hopen) fun v _ => hshows _
  · intro pt _ _
    rw [Db.tagOf, Db.tagOf, h.tags_eq]
  · have hany : ∀ {d : Db} {o : Option Nat}, o.any (d.shows openView) = true →
        (!o.any d.isSpamPost) = true := by
      intro d o ho
      obtain ⟨id, rfl, hs⟩ := (Option.any_eq_true _ _).mp ho
      exact hopen hs
    refine Join.filter_eq_of_filter_eq h.attachments (fun a _ => hany) (fun a _ => hany) fun a _ => ?_
    rw [funext hshows]
  · exact h.users_eq
  · exact h.tenants_eq

end SameButSpam

/-! ### Posts that are open -/

/-- The test for a post that may be commented on and voted for, as one. -/
theorem visiblePost_eq_some_iff {postId : Nat} : visiblePost db T postId = some p ↔
    p ∈ db.posts ∧ p.id = postId ∧ p.tenantId = T ∧ p.moderationState ≠ .spam := by
  have hfind : (db.posts.rows.find? fun p => p.id == postId && p.tenantId == T) = some p ↔
      p ∈ db.posts ∧ (p.id == postId && p.tenantId == T) = true :=
    Sql.Table.find?_eq_some_iff fun q hq => beq_iff_eq.mp (Bool.and_eq_true_iff.mp hq).1
  rw [visiblePost, Option.filter_eq_some_iff, hfind]
  simp only [Bool.and_eq_true, beq_iff_eq, decide_eq_true_eq, and_assoc]

theorem shows_of_visiblePost {postId : Nat} (h : visiblePost db T postId = some p) :
    db.shows openView postId = true := by
  obtain ⟨hp, hid, -, hopen⟩ := visiblePost_eq_some_iff.mp h
  exact Db.shows_eq_true_iff.mpr ⟨p, hp, hid, bne_iff_ne.mpr hopen⟩

/-- The author of the post makes it a row of the table. -/
theorem byId_of_shows {V : View} (h : db.shows V id = true) : (db.posts.byId id).isSome = true := by
  obtain ⟨p, hp, hid, -⟩ := Db.shows_eq_true_iff.mp h
  exact Sql.Table.byId_isSome_iff.mpr ⟨p, hp, hid⟩

namespace SameView

variable {postId : Nat} {w : World}

theorem publicView_of_open (h : SameView openView db db') (T : Nat) :
    SameView (publicView T) db db' :=
  h.mono (fun _ hp => (Bool.and_eq_true_iff.mp hp).2) fun _ hc => hc

theorem visiblePost_eq (h : SameView openView db db') (T postId : Nat) :
    visiblePost db' T postId = visiblePost db T postId := by
  ext p
  rw [visiblePost_eq_some_iff, visiblePost_eq_some_iff]
  by_cases hopen : p.moderationState = .spam
  · exact iff_of_false (fun hp => hp.2.2.2 hopen) fun hp => hp.2.2.2 hopen
  · rw [h.mem_iff (bne_iff_ne.mpr hopen)]

theorem detail (h : SameView openView db db') (orders : DetailOrders) (w : World) :
    ((getPublicPostDetail orders T postId).exec { w with db := db' }).1 =
      ((getPublicPostDetail orders T postId).exec { w with db := db }).1 := by
  rw [exec_getPublicPostDetail, exec_getPublicPostDetail]
  dsimp only
  rw [h.visiblePost_eq]
  cases hp : visiblePost db T postId with
  | none => rfl
  | some p =>
    dsimp only
    rw [h.publicDetail_eq (fun c hc => bne_iff_ne.mpr hc)]
    rw [(visiblePost_eq_some_iff.mp hp).2.1]
    exact shows_of_visiblePost hp

/-! ### A vote -/

/-- The votes for a post that is shown. -/
theorem votes_on (h : SameView openView db db') (hid : db.shows openView postId = true) :
    (db'.votes.rows.filter (·.postId == postId)) = db.votes.rows.filter (·.postId == postId) :=
  h.votes_eq fun v hv => by
    rw [beq_iff_eq.mp hv]
    exact hid

end SameView

section Vote

variable {postId : Nat} {guest : String} {hash : Option VoterHash}

theorem exec_castOrTakeBack_some (v : Vote) (w : World) :
    (castOrTakeBack T postId guest hash (some v)).exec w =
      if w.fails .votesDelete then (.error .error, w)
      else (.ok false, { w with db := { w.db with votes := w.db.votes.delete (·.id == v.id) } }) := by
  rw [castOrTakeBack, Prog.exec_bind, deleteVote, exec_call]
  by_cases hfails : w.fails .votesDelete = true
  · rw [if_pos hfails, if_pos hfails]
  · rw [if_neg hfails, if_neg hfails]
    rfl

theorem exec_castOrTakeBack_none (w : World) (htenant : (w.db.tenants.byId T).isSome = true)
    (hpost : (w.db.posts.byId postId).isSome = true) :
    (castOrTakeBack T postId guest hash none).exec w =
      if w.fails .votesInsert then (.error .error, w)
      else
        match w.db.votes.insert? (newVote T postId guest hash) with
        | some votes => (.ok true, { w with db := { w.db with votes := votes } })
        | none => (.ok false, w) := by
  rw [castOrTakeBack, Prog.exec_bind, insertVote, exec_call]
  by_cases hfails : w.fails .votesInsert = true
  · rw [if_pos hfails, if_pos hfails]
  · rw [if_neg hfails, if_neg hfails, htenant, hpost, Bool.and_self, if_pos rfl]
    cases w.db.votes.insert? (newVote T postId guest hash) with
    | none => rfl
    | some votes => rfl

/-- A vote for a post without a workspace is not cast. -/
theorem exec_castOrTakeBack_lost (w : World) (htenant : (w.db.tenants.byId T).isSome = false) :
    (castOrTakeBack T postId guest hash none).exec w =
      if w.fails .votesInsert then (.error .error, w) else (.ok false, w) := by
  rw [castOrTakeBack, Prog.exec_bind, insertVote, exec_call]
  by_cases hfails : w.fails .votesInsert = true
  · rw [if_pos hfails, if_pos hfails]
  · rw [if_neg hfails, if_neg hfails, htenant, Bool.false_and, if_neg Bool.false_ne_true]
    rfl

/-- What clashes with a new vote is a vote for the same post. -/
theorem insert?_congr {votes votes' : Sql.Table Vote}
    (hvotes : (votes'.rows.filter (·.postId == postId)) = votes.rows.filter (·.postId == postId)) :
    votes'.insert? (newVote T postId guest hash) = none ↔
      votes.insert? (newVote T postId guest hash) = none := by
  have hmem : ∀ v : Vote, v.postId = postId → (v ∈ votes' ↔ v ∈ votes) := by
    intro v hv
    have hiff : v ∈ votes'.rows.filter (·.postId == postId) ↔
        v ∈ votes.rows.filter (·.postId == postId) := by rw [hvotes]
    rw [List.mem_filter, List.mem_filter, hv, and_iff_left (beq_self_eq_true _),
      and_iff_left (beq_self_eq_true _)] at hiff
    exact hiff
  have hclash : ∀ t : Sql.Table Vote, t.insert? (newVote T postId guest hash) = none ↔
      ∃ v ∈ t, Sql.Row.clash v (newVote T postId guest hash t.next) = true :=
    fun t => Sql.Table.insert?_eq_none_iff
  rw [hclash, hclash]
  constructor
  · rintro ⟨v, hv, hclash⟩
    obtain ⟨htenant, hpost, hkey⟩ := clash_newVote_iff.mp hclash
    exact ⟨v, (hmem v hpost).mp hv, clash_newVote_iff.mpr ⟨htenant, hpost, hkey⟩⟩
  · rintro ⟨v, hv, hclash⟩
    obtain ⟨htenant, hpost, hkey⟩ := clash_newVote_iff.mp hclash
    exact ⟨v, (hmem v hpost).mpr hv, clash_newVote_iff.mpr ⟨htenant, hpost, hkey⟩⟩

/-- The votes for a post after a new one. -/
theorem votesOn_insert {votes : Sql.Table Vote} (db : Db)
    (h : db.votes.insert? (newVote T postId guest hash) = some votes) :
    Db.votesOn { db with votes := votes } postId = db.votesOn postId + 1 := by
  rw [Db.votesOn, Sql.Table.insert?_rows h, List.countP_append, List.countP_singleton]
  exact congrArg _ (if_pos (beq_self_eq_true postId))

/-- A click ends alike on databases that agree about the post, its votes and the workspace. -/
theorem castOrTakeBack_congr (T : Nat) (guest : String) (hash : Option VoterHash)
    (hpost : (db.posts.byId postId).isSome = true)
    (hpost' : (db'.posts.byId postId).isSome = true) (htenants : db'.tenants = db.tenants)
    (hvotes : (db'.votes.rows.filter (·.postId == postId)) =
      db.votes.rows.filter (·.postId == postId)) (existing : Option Vote) (w : World) :
    let r' := (castOrTakeBack T postId guest hash existing).exec { w with db := db' }
    let r := (castOrTakeBack T postId guest hash existing).exec { w with db := db }
    r'.1 = r.1 ∧ r'.2.fails = w.fails ∧ r.2.fails = w.fails ∧
      r'.2.db.votesOn postId = r.2.db.votesOn postId := by
  have hcount : db'.votesOn postId = db.votesOn postId := by
    rw [Db.votesOn, Db.votesOn, List.countP_eq_length_filter, List.countP_eq_length_filter, hvotes]
  cases existing with
  | some v =>
    have hdeleted : ∀ d : Db, Db.votesOn { d with votes := d.votes.delete (·.id == v.id) } postId =
        ((d.votes.rows.filter (·.postId == postId)).filter fun u => !(u.id == v.id)).length := by
      intro d
      rw [Db.votesOn, List.countP_eq_length_filter, Sql.Table.rows_delete, List.filter_filter,
        List.filter_filter]
      exact congrArg List.length (List.filter_congr fun u _ => Bool.and_comm _ _)
    rw [exec_castOrTakeBack_some, exec_castOrTakeBack_some]
    by_cases hfails : w.fails .votesDelete = true
    · rw [if_pos hfails, if_pos hfails]
      exact ⟨rfl, rfl, rfl, hcount⟩
    · rw [if_neg hfails, if_neg hfails]
      refine ⟨rfl, rfl, rfl, ?_⟩
      dsimp only
      rw [hdeleted, hdeleted, hvotes]
  | none =>
    cases htenant : (db.tenants.byId T).isSome with
    -- a vote needs its workspace, and both databases have the same ones
    | false =>
      rw [exec_castOrTakeBack_lost { w with db := db' } (by rw [htenants]; exact htenant),
        exec_castOrTakeBack_lost { w with db := db } htenant]
      by_cases hfails : w.fails .votesInsert = true
      · rw [if_pos hfails, if_pos hfails]
        exact ⟨rfl, rfl, rfl, hcount⟩
      · rw [if_neg hfails, if_neg hfails]
        exact ⟨rfl, rfl, rfl, hcount⟩
    | true =>
      rw [exec_castOrTakeBack_none { w with db := db' } (by rw [htenants]; exact htenant) hpost',
        exec_castOrTakeBack_none { w with db := db } htenant hpost]
      by_cases hfails : w.fails .votesInsert = true
      · rw [if_pos hfails, if_pos hfails]
        exact ⟨rfl, rfl, rfl, hcount⟩
      rw [if_neg hfails, if_neg hfails]
      -- the keys compare votes of one post only
      have hsame : db'.votes.insert? (newVote T postId guest hash) = none ↔
          db.votes.insert? (newVote T postId guest hash) = none := insert?_congr hvotes
      cases hins : db.votes.insert? (newVote T postId guest hash) with
      | none =>
        rw [hsame.mpr hins]
        exact ⟨rfl, rfl, rfl, hcount⟩
      | some votes =>
        cases hins' : db'.votes.insert? (newVote T postId guest hash) with
        | none =>
          rw [hsame.mp hins'] at hins
          cases hins
        | some votes' =>
          refine ⟨rfl, rfl, rfl, ?_⟩
          dsimp only
          rw [votesOn_insert db' hins', votesOn_insert db hins, hcount]

end Vote

theorem SameView.vote (h : SameView openView db db') {postId : Nat} (guestId : Option String)
    (hash : Option VoterHash) (w : World) :
    ((togglePublicVote T postId guestId hash).exec { w with db := db' }).1 =
      ((togglePublicVote T postId guestId hash).exec { w with db := db }).1 := by
  rw [togglePublicVote]
  by_cases hguest : ¬ ValidGuest guestId
  · rw [if_pos hguest]
    rfl
  rw [if_neg hguest, Prog.exec_tryCatch, Prog.exec_tryCatch, exec_selectAt_bind, exec_selectAt_bind]
  dsimp only
  by_cases hposts : w.fails .postsSelect = true
  · rw [if_pos hposts, if_pos hposts]
    rfl
  rw [if_neg hposts, if_neg hposts, h.visiblePost_eq]
  cases hp : visiblePost db T postId with
  | none => rfl
  | some p =>
    have hid := shows_of_visiblePost hp
    -- the post is seen, so its votes are the same
    have hvotes := h.votes_on hid
    have hvoteOf : voteOf T postId (guestText guestId) hash db'.votes =
        voteOf T postId (guestText guestId) hash db.votes := by
      have hof : ∀ v, Vote.isOf T postId (guestText guestId) hash v = true →
          (v.postId == postId) = true := fun v hv => beq_iff_eq.mpr (isOf_vote_iff.mp hv).2.1
      rw [voteOf, voteOf, ← List.head?_filter, ← List.head?_filter,
        Join.filter_eq_of_filter_eq hvotes (fun v _ => hof v) (fun v _ => hof v) fun _ _ => rfl]
    have hsome : ¬ (some p).isNone = true := by simp
    rw [if_neg hsome, exec_selectAt_bind, exec_selectAt_bind]
    dsimp only
    by_cases hselect : w.fails .votesSelect = true
    · rw [if_pos hselect, if_pos hselect]
      rfl
    rw [if_neg hselect, if_neg hselect, hvoteOf, Prog.exec_bind, Prog.exec_bind]
    obtain ⟨hresult, hfails', hfails, hcount⟩ := castOrTakeBack_congr T
      (guestText guestId) hash (byId_of_shows hid)
      (byId_of_shows ((h.shows_eq postId).trans hid)) h.tenants hvotes
      (voteOf T postId (guestText guestId) hash db.votes) w
    generalize (castOrTakeBack T postId (guestText guestId) hash
      (voteOf T postId (guestText guestId) hash db.votes)).exec { w with db := db' } = r'
        at hresult hfails' hcount ⊢
    generalize (castOrTakeBack T postId (guestText guestId) hash
      (voteOf T postId (guestText guestId) hash db.votes)).exec { w with db := db } = r
        at hresult hfails hcount ⊢
    obtain ⟨result', t'⟩ := r'
    obtain ⟨result, t⟩ := r
    dsimp only at hresult hfails hfails' hcount
    subst hresult
    cases result' with
    | error e => cases e <;> rfl
    | ok voted =>
      dsimp only
      rw [exec_selectAt_bind, exec_selectAt_bind, hfails', hfails, if_neg hselect, if_neg hselect,
        hcount]
      rfl

/-! ### A comment -/

section Comment

variable {env : PublicWriteEnv} {lower : Text.CaseMap} {postId : Nat} {data : PublicCommentData}
  {authUser : Option AuthData}

/-- Whether a write is refused does not depend on what was sent before. -/
theorem refused_congr (a : PublicWrite) (n : Nat) {guard guard' : GuardVerdict}
    (h : evaluatePublicWrite env a = .ok guard)
    (h' : evaluatePublicWrite env { a with duplicateCount := n } = .ok guard') :
    guard'.discard = guard.discard ∧ guard'.rateLimited = guard.rateLimited := by
  unfold evaluatePublicWrite at h h'
  by_cases hhoneypot : Text.trim (a.honeypot.getD []) ≠ []
  · rw [if_pos hhoneypot] at h h'
    cases h
    cases h'
    exact ⟨rfl, rfl⟩
  rw [if_neg hhoneypot] at h h'
  by_cases hauth : a.isAuthenticated = true
  · rw [if_pos hauth] at h h'
    cases h
    cases h'
    exact ⟨rfl, rfl⟩
  rw [if_neg hauth] at h h'
  -- the count of duplicates only adds to the score, and a score refuses nothing
  cases htoken : verifyFormToken env.tokenAge env.hmac a.formToken env.nowMs with
  | error e =>
    rw [htoken] at h
    cases h
  | ok token =>
    rw [htoken] at h h'
    cases hcharge : env.charge with
    | true =>
      simp only [hcharge] at h h'
      cases h
      cases h'
      exact ⟨rfl, rfl⟩
    | false =>
      simp only [hcharge] at h h'
      cases h
      cases h'
      exact ⟨rfl, rfl⟩

/-- A count of duplicates always comes out. -/
theorem exec_duplicates (env : PublicWriteEnv) (lower : Text.CaseMap)
    (authUser : Option AuthData) (T : Nat) (body : Text) (w : World) : ∃ n,
    (ofGuests authUser (commentDuplicates env.text.cases lower T body)).exec w = (.ok n, w) := by
  rw [ofGuests]
  by_cases hsome : authUser.isSome = true
  · exact ⟨0, by rw [if_pos hsome]; rfl⟩
  rw [if_neg hsome, commentDuplicates]
  by_cases hnormal : normalizeForCompare env.text.cases body = []
  · exact ⟨0, by rw [if_pos hnormal]; rfl⟩
  rw [if_neg hnormal, countOrZero, Prog.exec_tryCatch, exec_call]
  by_cases hfails : w.fails .commentsSelect = true
  · exact ⟨0, by rw [if_pos hfails]; rfl⟩
  · exact ⟨_, by rw [if_neg hfails]⟩

/-- A new comment is stored if what it refers to is there. -/
theorem exec_insertComment {n : NewComment} (htenant : n.tenantId = some T) (w : World) :
    ((insertComment n).exec w).1 =
      if w.fails .commentsInsert then .error .error
      else if n.refersInto T w.db then .ok w.db.comments.next else .error .error := by
  rw [insertComment, exec_call]
  by_cases hfails : w.fails .commentsInsert = true
  · rw [if_pos hfails, if_pos hfails]
  rw [if_neg hfails, if_neg hfails, htenant]
  dsimp only
  by_cases hrefers : n.refersInto T w.db = true
  · rw [if_pos hrefers, if_pos hrefers]
    cases hins : w.db.comments.insert? (n.row T w.now) with
    | some comments => rfl
    | none =>
      obtain ⟨c, -, hclash⟩ := Sql.Table.insert?_eq_none_iff.mp hins
      cases hclash
  · rw [if_neg hrefers, if_neg hrefers]

/-- The reply to a comment that is neither discarded nor refused. -/
theorem outcome_store {n : NewComment} (htenant : n.tenantId = some T) (w : World) :
    outcome ((do
        let id ← insertComment n
        resolve 201 "comment_created_successfully" (some id) : Handler (Reply (Option Nat))).exec
          w).1 =
      if w.fails .commentsInsert then .error .error
      else if n.refersInto T w.db then .ok (201, "comment_created_successfully", true)
      else .error .error := by
  have hinsert := exec_insertComment htenant w
  rw [Prog.exec_bind]
  rcases hrun : (insertComment n).exec w with ⟨e | id, t⟩
  · rw [hrun] at hinsert
    by_cases hfails : w.fails .commentsInsert = true
    · rw [if_pos hfails] at hinsert ⊢
      cases hinsert
      rfl
    rw [if_neg hfails] at hinsert ⊢
    by_cases hrefers : n.refersInto T w.db = true
    · rw [if_pos hrefers] at hinsert
      cases hinsert
    · rw [if_neg hrefers] at hinsert ⊢
      cases hinsert
      rfl
  · rw [hrun] at hinsert
    by_cases hfails : w.fails .commentsInsert = true
    · rw [if_pos hfails] at hinsert
      cases hinsert
    rw [if_neg hfails] at hinsert ⊢
    by_cases hrefers : n.refersInto T w.db = true
    · rw [if_pos hrefers]
      rfl
    · rw [if_neg hrefers] at hinsert
      cases hinsert

/-- From the duplicate check on, only the rows that a comment refers to matter. -/
theorem outcome_judgeAndStore (env : PublicWriteEnv) (lower : Text.CaseMap)
    (data : PublicCommentData) (authUser : Option AuthData) :
    ∃ guard : GuardVerdict, ∀ (T postId asOwner : Nat) (root : Option Nat) (w : World),
      outcome ((judgeAndStore env lower T postId data authUser asOwner root).exec w).1 =
        if guard.discard then .ok (201, "comment_created_successfully", false)
        else if guard.rateLimited then .error (.rejected 429 "too_many_requests")
        else if w.fails .commentsInsert then .error .error
        else if (data.row T postId authUser asOwner root guard).refersInto T w.db then
          .ok (201, "comment_created_successfully", true)
        else .error .error := by
  let write (n : Nat) : PublicWrite :=
    { body := Text.trim (data.body.getD []),
      email := forGuest authUser (guestField 255 data.submitterEmail), duplicateCount := n,
      isAuthenticated := authUser.isSome, honeypot := data.website, formToken := data.formToken }
  obtain ⟨guard, hguard⟩ := evaluatePublicWrite_eq_ok env (write 0)
  refine ⟨guard, fun T postId asOwner root w => ?_⟩
  obtain ⟨n, hn⟩ := exec_duplicates env lower authUser T (Text.trim (data.body.getD [])) w
  obtain ⟨judged, hjudged⟩ := evaluatePublicWrite_eq_ok env (write n)
  -- the count may see quarantined comments, and refuses none
  obtain ⟨hdiscard, hlimited⟩ := refused_congr _ n hguard hjudged
  have hpass : ∀ (g : GuardVerdict) (v : World), Prog.exec (Prog.ofExcept (Except.mapError
      (fun _ => Failure.error) (Except.ok g : Except String GuardVerdict))) v = (.ok g, v) :=
    fun _ _ => rfl
  change evaluatePublicWrite env _ = _ at hjudged
  unfold judgeAndStore
  dsimp only
  rw [Prog.exec_bind, hn]
  dsimp only
  rw [hjudged, Prog.exec_bind, hpass]
  dsimp only
  rw [hdiscard, hlimited]
  by_cases hdiscards : guard.discard = true
  · rw [if_pos hdiscards, if_pos hdiscards]
    rfl
  rw [if_neg hdiscards, if_neg hdiscards]
  by_cases hlimits : guard.rateLimited = true
  · rw [if_pos hlimits, if_pos hlimits]
    rfl
  rw [if_neg hlimits, if_neg hlimits, outcome_store rfl]
  rfl

end Comment

/-- Where a comment stands is not withheld. -/
theorem Comment.place_withheld (c : Comment) :
    c.withheld.id = c.id ∧ c.withheld.postId = c.postId ∧ c.withheld.tenantId = c.tenantId := by
  rw [Comment.withheld]
  split
  · exact ⟨rfl, rfl, rfl⟩
  · exact ⟨rfl, rfl, rfl⟩

/-- What a handler's errors become does not tell outcomes apart. -/
theorem outcome_tryCatch {q : Handler (Reply (Option Nat))} {key : String} {v w : World}
    (h : outcome (q.exec v).1 = outcome (q.exec w).1) :
    outcome (Prog.exec (tryCatch q (failWith key)) v).1 =
      outcome (Prog.exec (tryCatch q (failWith key)) w).1 := by
  rw [Prog.exec_tryCatch, Prog.exec_tryCatch]
  generalize q.exec v = r at h ⊢
  generalize q.exec w = r' at h ⊢
  rcases r with ⟨e | reply, v'⟩
  · rcases r' with ⟨e' | reply', w'⟩
    · obtain rfl : e = e' := Except.error.inj h
      cases e <;> rfl
    · cases h
  · rcases r' with ⟨e' | reply', w'⟩
    · cases h
    · exact h

/-- A reply that is refused below 500 has been refused by the handler itself. -/
theorem outcome_of_tryCatch {q : Handler (Reply (Option Nat))} {key refusal : String} {w : World}
    (h : outcome (Prog.exec (tryCatch q (failWith key)) w).1 = .error (.rejected 400 refusal)) :
    outcome (q.exec w).1 = .error (.rejected 400 refusal) := by
  rw [Prog.exec_tryCatch] at h
  rcases hq : q.exec w with ⟨e | reply, v⟩
  · rw [hq] at h
    cases e with
    | duplicate | belowMinimum | error => cases h
    | rejected code refused => exact h
  · rw [hq] at h
    cases h

/-- The plan decides how an owner is shown. -/
theorem exec_resolveOwner (htenants : db'.tenants = db.tenants) (mode : Option String)
    (authUser : Option AuthData) (w : World) : ∃ asOwner,
    (resolveOwner mode authUser T).exec { w with db := db' } =
        (.ok asOwner, { w with db := db' }) ∧
      (resolveOwner mode authUser T).exec { w with db := db } = (.ok asOwner, { w with db := db }) := by
  have hplan : tenantPlan db' T = tenantPlan db T := by rw [tenantPlan, tenantPlan, htenants]
  unfold resolveOwner
  dsimp only
  split
  · exact ⟨0, rfl, rfl⟩
  · rw [getTenantPlan, exec_query_bind, exec_query_bind, hplan]
    exact ⟨_, rfl, rfl⟩

/-- A comment that is refused for its parent is refused before it is judged. -/
theorem outcome_judgeAndStore_ne (env : PublicWriteEnv) (lower : Text.CaseMap) (postId : Nat)
    (data : PublicCommentData) (authUser : Option AuthData) (asOwner : Nat) (root : Option Nat)
    (w : World) : outcome ((judgeAndStore env lower T postId data authUser asOwner root).exec w).1 ≠
      .error (.rejected 400 "comment_not_found") := by
  obtain ⟨guard, houtcome⟩ := outcome_judgeAndStore env lower data authUser
  rw [houtcome]
  intro heq
  split_ifs at heq <;> cases heq

/-! ### The parent of a reply -/

theorem Db.parentOn_isSome {postId n : Nat} : (db.parentOn T postId n).isSome = true ↔
    ∃ c ∈ db.comments, c.id = n ∧ c.postId = postId ∧ c.tenantId = T := by
  rw [Db.parentOn, List.isSome_find?, List.any_eq_true]
  simp only [Bool.and_eq_true, beq_iff_eq, and_assoc, Sql.Table.mem_def]

theorem Db.spamCommentAt_iff {postId n : Nat} : db.spamCommentAt T postId n = true ↔
    ∃ c ∈ db.comments, c.id = n ∧ c.postId = postId ∧ c.tenantId = T ∧
      c.moderationState = .spam := by
  simp only [Db.spamCommentAt, List.any_eq_true, Bool.and_eq_true, beq_iff_eq, and_assoc,
    Sql.Table.mem_def]

theorem rootParent_eq_ok {postId : Nat} {parentCommentId root : Option Nat}
    (h : rootParent db T postId parentCommentId = .ok root) :
    (root.all fun id => (db.comments.byId id).isSome) = true := by
  unfold rootParent at h
  split at h
  · cases h
    rfl
  · split at h
    · cases h
    · rename_i c hc
      cases h
      exact Sql.Table.byId_isSome_iff.mpr ⟨_, climb_mem (List.mem_of_find?_eq_some hc), rfl⟩

namespace SameView

variable {postId : Nat}

/-- A comment on a post that is shown is in both databases, unless it is quarantined. -/
theorem mem_comments (h : SameView openView db db') (hid : db.shows openView postId = true)
    {c : Comment} (hc : c ∈ db.comments) (hpost : c.postId = postId)
    (hopen : c.moderationState ≠ .spam) : c ∈ db'.comments := by
  have hmem : c ∈ db.comments.rows.filter
      fun c => openView.comment c && db.shows openView c.postId := by
    rw [List.mem_filter, hpost, hid, Bool.and_true]
    exact ⟨hc, bne_iff_ne.mpr hopen⟩
  rw [← h.comments] at hmem
  exact (List.mem_filter.mp hmem).1

theorem symm (h : SameView openView db db') : SameView openView db' db where
  posts := h.posts.symm
  votes := h.votes.symm
  comments := h.comments.symm
  labels := h.labels.symm
  tags := fun pt hpt hs => by
    have hmem : pt ∈ db'.postTags.rows.filter fun pt => db'.shows openView pt.postId :=
      List.mem_filter.mpr ⟨hpt, hs⟩
    rw [h.labels] at hmem
    obtain ⟨hpt, hs⟩ := List.mem_filter.mp hmem
    exact (h.tags pt hpt hs).symm
  attachments := h.attachments.symm
  users := h.users.symm
  tenants := h.tenants.symm

/-- A parent that is not quarantined in one of the databases alone is found in both or in neither. -/
theorem parentOn_isSome (h : SameView openView db db') (hid : db.shows openView postId = true)
    {n : Nat} (hspam : db'.spamCommentAt T postId n = db.spamCommentAt T postId n) :
    (db'.parentOn T postId n).isSome = (db.parentOn T postId n).isSome := by
  have hfound : ∀ {d d' : Db}, SameView openView d d' → d.shows openView postId = true →
      d'.spamCommentAt T postId n = d.spamCommentAt T postId n →
      (d.parentOn T postId n).isSome = true → (d'.parentOn T postId n).isSome = true := by
    intro d d' hview hshown hagree hparent
    obtain ⟨c, hc, hcid, hpost, htenant⟩ := Db.parentOn_isSome.mp hparent
    by_cases hstate : c.moderationState = .spam
    · have hthere : d.spamCommentAt T postId n = true :=
        Db.spamCommentAt_iff.mpr ⟨c, hc, hcid, hpost, htenant, hstate⟩
      obtain ⟨c', hc', hcid', hpost', htenant', -⟩ :=
        Db.spamCommentAt_iff.mp (hagree.trans hthere)
      exact Db.parentOn_isSome.mpr ⟨c', hc', hcid', hpost', htenant'⟩
    · exact Db.parentOn_isSome.mpr
        ⟨c, hview.mem_comments hshown hc hpost hstate, hcid, hpost, htenant⟩
  rw [Bool.eq_iff_iff]
  exact ⟨hfound h.symm ((h.shows_eq postId).trans hid) hspam.symm, hfound h hid hspam⟩

/-- What a reply is attached to is there in both databases, or the reply is refused in both. -/
theorem rootParent_congr (h : SameView openView db db') (hid : db.shows openView postId = true)
    {parentCommentId : Option Nat} (hagree : AgreeOnParent db db' T postId parentCommentId) :
    (∃ e, rootParent db' T postId parentCommentId = .error e ∧
        rootParent db T postId parentCommentId = .error e) ∨
      ∃ root' root, rootParent db' T postId parentCommentId = .ok root' ∧
        rootParent db T postId parentCommentId = .ok root := by
  unfold rootParent
  cases hparent : parentCommentId.filter (· ≠ 0) with
  | none => exact .inr ⟨none, none, rfl, rfl⟩
  | some n =>
    have hsome := h.parentOn_isSome hid (hagree n (Option.filter_eq_some_iff.mp hparent).1)
    cases hc : db.parentOn T postId n with
    | none =>
      rw [hc, Option.isSome_none, Option.isSome_eq_false_iff, Option.isNone_iff_eq_none] at hsome
      dsimp only
      rw [hsome, hc]
      exact .inl ⟨_, rfl, rfl⟩
    | some c =>
      rw [hc] at hsome
      obtain ⟨c', hc'⟩ := Option.isSome_iff_exists.mp hsome
      dsimp only
      rw [hc', hc]
      exact .inr ⟨_, _, rfl, rfl⟩

theorem comment (h : SameView openView db db') (env : PublicWriteEnv) (lower : Text.CaseMap)
    (data : PublicCommentData) (authUser : Option AuthData) (w : World)
    (hagree : db.shows openView postId = true →
      AgreeOnParent db db' T postId data.parentCommentId) :
    outcome ((createPublicComment env lower T postId data authUser).exec { w with db := db' }).1 =
      outcome ((createPublicComment env lower T postId data authUser).exec
        { w with db := db }).1 := by
  unfold createPublicComment
  cases publicCommentProblem (Text.trim (data.body.getD []))
      (forGuest authUser (guestField 255 data.submitterEmail)) with
  | some key => rfl
  | none =>
    refine outcome_tryCatch ?_
    rw [exec_selectAt_bind, exec_selectAt_bind]
    dsimp only
    by_cases hposts : w.fails .postsSelect = true
    · rw [if_pos hposts, if_pos hposts]
    rw [if_neg hposts, if_neg hposts, h.visiblePost_eq]
    cases hp : visiblePost db T postId with
    | none => rfl
    | some p =>
      have hid := shows_of_visiblePost hp
      have hsome : ¬ (some p).isNone = true := by simp
      rw [if_neg hsome, exec_selectAt_bind, exec_selectAt_bind]
      dsimp only
      by_cases hcomments : w.fails .commentsSelect = true
      · rw [if_pos hcomments, if_pos hcomments]
      rw [if_neg hcomments, if_neg hcomments]
      rcases h.rootParent_congr hid (hagree hid) with ⟨e, he', he⟩ | ⟨root', root, hroot', hroot⟩
      · rw [he', he]
        rfl
      · rw [hroot', hroot]
        obtain ⟨asOwner, howner', howner⟩ := exec_resolveOwner h.tenants data.ownerMode authUser w
        obtain ⟨guard, houtcome⟩ := outcome_judgeAndStore env lower data authUser
        change outcome (Prog.exec (resolveOwner data.ownerMode authUser T >>= fun asOwner =>
            judgeAndStore env lower T postId data authUser asOwner root') { w with db := db' }).1 =
          outcome (Prog.exec (resolveOwner data.ownerMode authUser T >>= fun asOwner =>
            judgeAndStore env lower T postId data authUser asOwner root) { w with db := db }).1
        rw [Prog.exec_bind, Prog.exec_bind, howner', howner]
        dsimp only
        rw [houtcome, houtcome]
        have hpost := byId_of_shows hid
        have hpost' := byId_of_shows ((h.shows_eq postId).trans hid)
        -- what the row refers to is there in both, the parent as each has found it
        have hrefers : (data.row T postId authUser asOwner root' guard).refersInto T db' =
            (data.row T postId authUser asOwner root guard).refersInto T db := by
          change ((db'.tenants.byId T).isSome && (db'.posts.byId postId).isSome &&
              ((authUser.map (·.id)).all fun id => (db'.users.byId id).isSome) &&
              root'.all fun id => (db'.comments.byId id).isSome) =
            ((db.tenants.byId T).isSome && (db.posts.byId postId).isSome &&
              ((authUser.map (·.id)).all fun id => (db.users.byId id).isSome) &&
              root.all fun id => (db.comments.byId id).isSome)
          rw [hpost, hpost', rootParent_eq_ok hroot, rootParent_eq_ok hroot', h.tenants, h.users]
        rw [hrefers]

end SameView

/-! ### A reply to a quarantined comment -/

/-- The database without the row of a comment. -/
def Db.withoutComment (db : Db) (id : Nat) : Db :=
  { db with comments := db.comments.delete (·.id == id) }

/-- Whoever is shown no spam does not miss a quarantined comment. -/
theorem sameView_withoutComment {c : Comment} (hc : c ∈ db.comments)
    (hspam : c.moderationState = .spam) : SameView openView db (db.withoutComment c.id) := by
  refine ⟨rfl, rfl, ?_, rfl, fun _ _ _ => rfl, rfl, rfl, rfl⟩
  have hshows : (db.withoutComment c.id).shows openView = db.shows openView := rfl
  rw [hshows, Db.withoutComment, Sql.Table.rows_delete, List.filter_filter]
  refine List.filter_congr fun d hd => ?_
  by_cases hid : d.id = c.id
  · obtain rfl : d = c := Sql.Table.eq_of_id hd hc hid
    have hshut : openView.comment d = false := bne_eq_false_iff_eq.mpr hspam
    rw [hshut, Bool.false_and, Bool.false_and]
  · rw [beq_eq_false_iff_ne.mpr hid, Bool.not_false, Bool.and_true]

/-- A reply gets as far as its parent. -/
structure ReachesParent (w : World) (data : PublicCommentData) (authUser : Option AuthData) :
    Prop where
  sound : publicCommentProblem (Text.trim (data.body.getD []))
    (forGuest authUser (guestField 255 data.submitterEmail)) = none
  posts : w.fails .postsSelect = false
  comments : w.fails .commentsSelect = false

section Reply

variable {w : World} {data : PublicCommentData} {authUser : Option AuthData} {c : Comment}

/-- The reply is refused if and only if there is no such comment. -/
theorem outcome_reply (env : PublicWriteEnv) (lower : Text.CaseMap) {postId n : Nat}
    (hreaches : ReachesParent w data authUser) (hparent : data.parentCommentId = some n)
    (hn : n ≠ 0) (hvisible : (visiblePost w.db T postId).isSome = true) :
    outcome ((createPublicComment env lower T postId data authUser).exec w).1 =
        .error (.rejected 400 "comment_not_found") ↔
      (w.db.parentOn T postId n).isSome = false := by
  have hfilter : data.parentCommentId.filter (· ≠ 0) = some n := by
    rw [hparent, Option.filter_some, if_pos (decide_eq_true hn)]
  have hnone : ¬ (visiblePost w.db T postId).isNone = true := by
    rw [← Option.not_isSome, hvisible]
    decide
  have hposts : ¬ w.fails .postsSelect = true := by
    rw [hreaches.posts]
    decide
  have hcomments : ¬ w.fails .commentsSelect = true := by
    rw [hreaches.comments]
    decide
  unfold createPublicComment
  rw [hreaches.sound]
  dsimp only
  cases hfound : w.db.parentOn T postId n with
  | none =>
    refine iff_of_true ?_ rfl
    rw [Prog.exec_tryCatch, exec_selectAt_bind, if_neg hposts, if_neg hnone, exec_selectAt_bind,
      if_neg hcomments, rootParent, hfilter]
    dsimp only
    rw [hfound]
    rfl
  -- past the lookup no answer is this one
  | some parent =>
    refine iff_of_false (fun hrefused => ?_) (by simp)
    have hinner := outcome_of_tryCatch hrefused
    rw [exec_selectAt_bind, if_neg hposts, if_neg hnone, exec_selectAt_bind, if_neg hcomments,
      rootParent, hfilter] at hinner
    dsimp only at hinner
    rw [hfound] at hinner
    have htenants : w.db.tenants = w.db.tenants := rfl
    obtain ⟨asOwner, howner, -⟩ := exec_resolveOwner (T := T) htenants data.ownerMode authUser w
    change outcome (Prog.exec (resolveOwner data.ownerMode authUser T >>= fun asOwner =>
      judgeAndStore env lower T postId data authUser asOwner
        (some (rootComment w.db T parent).id)) { w with db := w.db }).1 = _ at hinner
    rw [Prog.exec_bind, howner] at hinner
    exact outcome_judgeAndStore_ne env lower postId data authUser asOwner _ _ hinner

/-- A reply to a quarantined comment of a visible post is not refused for its parent, and is once
the row of the comment is gone. -/
theorem reply_to_spam (env : PublicWriteEnv) (lower : Text.CaseMap) {db : Db}
    (hc : c ∈ db.comments) (hid : c.id ≠ 0) (htenant : c.tenantId = T)
    (hvisible : (visiblePost db T c.postId).isSome = true)
    (hreaches : ReachesParent w data authUser) (hparent : data.parentCommentId = some c.id) :
    outcome ((createPublicComment env lower T c.postId data authUser).exec
        { w with db := db }).1 ≠ .error (.rejected 400 "comment_not_found") ∧
      outcome ((createPublicComment env lower T c.postId data authUser).exec
        { w with db := db.withoutComment c.id }).1 = .error (.rejected 400 "comment_not_found") := by
  have hthere : ∀ d : Db, ReachesParent { w with db := d } data authUser :=
    fun _ => ⟨hreaches.sound, hreaches.posts, hreaches.comments⟩
  have hwithout : (visiblePost (db.withoutComment c.id) T c.postId).isSome = true := hvisible
  constructor
  · intro hrefused
    have hmissing := (outcome_reply env lower (hthere db) hparent hid hvisible).mp hrefused
    rw [Db.parentOn_isSome.mpr ⟨c, hc, rfl, rfl, htenant⟩] at hmissing
    cases hmissing
  · refine (outcome_reply env lower (hthere _) hparent hid hwithout).mpr ?_
    rw [Bool.eq_false_iff, ne_eq, Db.parentOn_isSome]
    rintro ⟨d, hd, hdid, -⟩
    have hstays := (Sql.Table.mem_delete.mp hd).2
    rw [hdid, beq_self_eq_true] at hstays
    cases hstays

end Reply

/-! ### The same rows in quarantine -/

namespace SameButSpam

/-- The same comments of a post that is shown are quarantined. -/
theorem spamCommentAt_eq (h : SameButSpam db db') {postId : Nat}
    (hid : db.shows openView postId = true) (n : Nat) :
    db'.spamCommentAt T postId n = db.spamCommentAt T postId n := by
  have hwithheld : ∀ d : Db, d.isSpamPost postId = false → d.spamCommentAt T postId n =
      ((d.comments.rows.filter fun c => !d.isSpamPost c.postId).map Comment.withheld).any fun c =>
        c.id == n && c.postId == postId && c.tenantId == T && c.moderationState == .spam := by
    intro d hspam
    rw [Db.spamCommentAt, List.any_map, List.any_filter]
    refine congrArg _ (funext fun c => ?_)
    obtain ⟨hcid, hpost, htenant⟩ := c.place_withheld
    rw [Function.comp_apply, hcid, hpost, htenant, c.moderationState_withheld]
    by_cases hc : c.postId = postId
    · rw [hc, hspam, Bool.not_false, Bool.true_and]
    · simp [hc]
  have hopen := Db.not_isSpamPost_of_shows hid
  rw [hwithheld db' ((h.isSpamPost_eq _).trans hopen), hwithheld db hopen, h.comments]

/-- No comment tells them apart. -/
theorem comment (h : SameButSpam db db') {postId : Nat} (env : PublicWriteEnv)
    (lower : Text.CaseMap) (data : PublicCommentData) (authUser : Option AuthData) (w : World) :
    outcome ((createPublicComment env lower T postId data authUser).exec { w with db := db' }).1 =
      outcome ((createPublicComment env lower T postId data authUser).exec
        { w with db := db }).1 :=
  h.sameView.comment env lower data authUser w fun hid n _ => h.spamCommentAt_eq hid n

end SameButSpam

/-! ### The roadmap -/

namespace SameButSpam

/-- An item whose post is not quarantined. -/
theorem publicItem_eq (h : SameButSpam db db') {i : RoadmapItem}
    (hopen : db.isSpamPost i.postId = false) : publicItem db' i = publicItem db i := by
  have hpost : db'.postOfItem i = db.postOfItem i := by
    -- looking for the post of the item is looking among the posts that are seen
    have hfind : ∀ d : Db, d.isSpamPost i.postId = false → d.postOfItem i =
        d.posts.rows.find? fun p => i.postId == p.id && p.moderationState != .spam := by
      intro d hspam
      have heq : ∀ p ∈ d.posts.rows, (i.postId == p.id) =
          (i.postId == p.id && p.moderationState != .spam) := by
        intro p hp
        by_cases hid : i.postId = p.id
        · have hne : p.moderationState ≠ .spam := by
            intro hstate
            have hfound := Db.isSpamPost_iff.mpr ⟨p, hp, hid.symm, hstate⟩
            rw [hspam] at hfound
            cases hfound
          rw [bne_iff_ne.mpr hne, Bool.and_true]
        · rw [beq_eq_false_iff_ne.mpr hid, Bool.false_and]
      rw [Db.postOfItem, ← List.head?_filter, ← List.head?_filter, List.filter_congr heq]
    rw [hfind db' ((h.isSpamPost_eq _).trans hopen), hfind db hopen]
    exact h.sameView.find?_eq fun p hp => (Bool.and_eq_true_iff.mp hp).2
  have hcolumn : db'.columnOfItem i = db.columnOfItem i := by
    have hrest := congrArg Db.roadmapColumns h.rest
    have hcolumns : db'.roadmapColumns = db.roadmapColumns := hrest
    rw [Db.columnOfItem, Db.columnOfItem, hcolumns]
  have hvotes : db'.votesOn i.postId = db.votesOn i.postId := by
    rw [Db.votesOn, Db.votesOn, List.countP_eq_length_filter, List.countP_eq_length_filter,
      Join.filter_eq_of_filter_eq h.votes ?_ ?_ fun _ _ => rfl]
    · intro v _ hv
      rw [beq_iff_eq.mp hv, h.isSpamPost_eq, hopen]
      rfl
    · intro v _ hv
      rw [beq_iff_eq.mp hv, hopen]
      rfl
  rw [publicItem, publicItem, hpost, hcolumn, hvotes]

theorem publicRoadmap_eq (h : SameButSpam db db')
    (hopen : ∀ i ∈ db.roadmapItems, i.tenantId = T → db.isSpamPost i.postId = false)
    (orders : RoadmapOrders) : publicRoadmap db' orders T = publicRoadmap db orders T := by
  have hcolumns : db'.roadmapColumns = db.roadmapColumns := by
    have hrest := congrArg Db.roadmapColumns h.rest
    exact hrest
  have hitems : db'.roadmapItems = db.roadmapItems := by
    have hrest := congrArg Db.roadmapItems h.rest
    exact hrest
  have hrows : db'.publicItems T = db.publicItems T := by
    rw [Db.publicItems, Db.publicItems, hitems]
    refine List.map_congr_left fun i hi => h.publicItem_eq ?_
    obtain ⟨hi, htenant⟩ := List.mem_filter.mp hi
    exact hopen i hi (beq_iff_eq.mp htenant)
  rw [publicRoadmap, publicRoadmap, hrows, Db.columnsOf, Db.columnsOf, hcolumns]

end SameButSpam

/-- A post with another title. -/
def Post.retitled (p : Post) : Post := { p with title := p.title ++ "!" }

theorem Post.keyless_retitled : Sql.Table.Keyless Post.retitled := ⟨fun _ => rfl, fun _ _ => rfl⟩

/-- The database with another title for a post. -/
def Db.retitle (db : Db) (id : Nat) : Db :=
  { db with posts := db.posts.update (·.id == id) Post.retitled Post.keyless_retitled }

/-- What is left of a quarantined row does not depend on what it says. -/
theorem Post.withheld_unread (p : Post) : p.unread.withheld = p.withheld := by
  by_cases h : p.moderationState = .spam
  · rw [Post.unread, if_pos h, Post.withheld, Post.withheld, if_pos h, if_pos]
    exact h
  · rw [Post.unread, if_neg h]

theorem Comment.withheld_unread (c : Comment) : c.unread.withheld = c.withheld := by
  by_cases h : c.moderationState = .spam
  · rw [Comment.unread, if_pos h, Comment.withheld, Comment.withheld, if_pos h, if_pos]
    exact h
  · rw [Comment.unread, if_neg h]

theorem SameButUnread.sameButSpam (h : SameButUnread db db') : SameButSpam db db' := by
  have hposts : db'.posts.rows.map Post.withheld = db.posts.rows.map Post.withheld := by
    have hmap := congrArg (List.map Post.withheld) h.posts
    rw [List.map_map, List.map_map] at hmap
    rw [← funext Post.withheld_unread]
    exact hmap
  have hattachments : db'.postAttachments = db.postAttachments := by
    have hrest := congrArg Db.postAttachments h.rest
    exact hrest
  refine ⟨hposts, ?_, h.votes, h.labels, ?_, ?_⟩
  · have hmap := congrArg (List.map Comment.withheld) h.comments
    rw [List.map_map, List.map_map] at hmap
    rw [← funext Comment.withheld_unread]
    exact hmap
  · rw [hattachments, funext (isSpamPost_congr hposts)]
  · have hrest := congrArg (fun d => { d with postAttachments := db.postAttachments }) h.rest
    exact hrest

/-- The title of a quarantined post is nobody's business. -/
theorem sameButUnread_retitle (hp : p ∈ db.posts) (hspam : p.moderationState = .spam) :
    SameButUnread db (db.retitle p.id) := by
  have hstays : ∀ q : Post, (if q.id == p.id then q.retitled else q).id = q.id ∧
      (if q.id == p.id then q.retitled else q).moderationState = q.moderationState := by
    intro q
    split
    · exact ⟨rfl, rfl⟩
    · exact ⟨rfl, rfl⟩
  -- another title does not take a post out of quarantine
  have hsame : ∀ id, (db.retitle p.id).isSpamPost id = db.isSpamPost id := by
    intro id
    rw [Db.isSpamPost, Db.isSpamPost, Db.retitle, Sql.Table.rows_update, List.any_map]
    refine congrArg _ (funext fun q => ?_)
    rw [Function.comp_apply, (hstays q).1, (hstays q).2]
  refine ⟨?_, ?_, ?_, ?_, rfl⟩
  · rw [Db.retitle, Sql.Table.rows_update, List.map_map]
    refine List.map_congr_left fun q hq => ?_
    rw [Function.comp_apply]
    by_cases hid : q.id = p.id
    · obtain rfl : q = p := Sql.Table.eq_of_id hq hp hid
      rw [if_pos (beq_self_eq_true _), Post.unread, Post.unread, if_pos hspam, if_pos]
      · rfl
      · exact hspam
    · rw [if_neg (by simpa using hid)]
  · simp only [hsame]
    rfl
  · simp only [hsame]
    rfl
  · simp only [hsame]
    rfl

theorem retitled_ne (p : Post) : p.retitled.title ≠ p.title := by
  intro heq
  have hlength := congrArg String.length heq
  rw [Post.retitled, String.length_append] at hlength
  have hone : "!".length = 1 := rfl
  omega

/-- An item of the roadmap tells the title of its post, quarantined or not. -/
theorem publicRoadmap_ne {i : RoadmapItem} (hi : i ∈ db.roadmapItems) (htenant : i.tenantId = T)
    (hp : p ∈ db.posts) (hpost : i.postId = p.id) (orders : RoadmapOrders) :
    publicRoadmap (db.retitle p.id) orders T ≠ publicRoadmap db orders T := by
  intro heq
  have hrows : (orders.items ((db.retitle p.id).publicItems T)) =
      orders.items (db.publicItems T) := congrArg PublicRoadmap.items heq
  have hfiltered : i ∈ db.roadmapItems.rows.filter (·.tenantId == T) :=
    List.mem_filter.mpr ⟨hi, beq_iff_eq.mpr htenant⟩
  have hmem : publicItem db i ∈ (db.retitle p.id).publicItems T := by
    rw [← (orders.perm_items _).mem_iff, hrows, (orders.perm_items _).mem_iff]
    exact List.mem_map_of_mem hfiltered
  obtain ⟨j, hj, hji⟩ := List.mem_map.mp hmem
  obtain rfl : j = i := by
    have hid : j.id = i.id := congrArg PublicItem.id hji
    exact Sql.Table.eq_of_id (List.mem_filter.mp hj).1 hi hid
  have htitle := congrArg PublicItem.title hji
  have hfind : ∀ {d : Db} {q : Post}, q ∈ d.posts → j.postId = q.id → d.postOfItem j = some q := by
    intro d q hq hqid
    refine (Sql.Table.find?_eq_some_iff (n := j.postId) fun r hr => ?_).mpr
      ⟨hq, beq_iff_eq.mpr hqid⟩
    exact (beq_iff_eq.mp hr).symm
  have hnew : p.retitled ∈ (db.retitle p.id).posts :=
    show p.retitled ∈ db.posts.update (·.id == p.id) Post.retitled Post.keyless_retitled from
      Sql.Table.mem_update_of hp (beq_self_eq_true p.id)
  rw [publicItem, publicItem, hfind hp hpost, hfind hnew hpost] at htitle
  exact retitled_ne p (Option.some.inj htitle)

/-- Who is shown no spam is treated the same. -/
theorem SameView.sameToVisitors (h : SameView openView db db') : SameToVisitors T db db' where
  board caps _ _ pagination _ horders :=
    (h.publicView_of_open T).getPublicBoard_eq horders caps pagination
  detail w orders _ := h.detail orders w
  comment w env lower _ data authUser hagree :=
    h.comment env lower data authUser w fun _ => hagree
  vote w _ guestId hash := h.vote guestId hash w

theorem SameButSpam.roadmap (h : SameButSpam db db')
    (hopen : ∀ i ∈ db.roadmapItems, i.tenantId = T → db.isSpamPost i.postId = false) (w : World)
    (orders : RoadmapOrders) : ((getPublicRoadmap orders T).exec { w with db := db' }).1 =
      ((getPublicRoadmap orders T).exec { w with db := db }).1 := by
  rw [exec_getPublicRoadmap, exec_getPublicRoadmap]
  dsimp only
  rw [h.publicRoadmap_eq hopen]

/-- The roadmap shows the title of what is on it, so another title of a quarantined post is seen. -/
theorem open_of_sameRoadmap
    (hsame : ∀ p ∈ db.posts, p.moderationState = .spam → ∀ (w : World) orders,
      ((getPublicRoadmap orders T).exec { w with db := db.retitle p.id }).1 =
        ((getPublicRoadmap orders T).exec { w with db := db }).1) :
    ∀ i ∈ db.roadmapItems, i.tenantId = T → db.isSpamPost i.postId = false := by
  intro i hi htenant
  rw [Bool.eq_false_iff, ne_eq, Db.isSpamPost_iff]
  rintro ⟨p, hp, hid, hspam⟩
  have hlooks := hsame p hp hspam {} .stable
  rw [exec_getPublicRoadmap, exec_getPublicRoadmap] at hlooks
  have hreply := Except.ok.inj hlooks
  exact publicRoadmap_ne hi htenant hp hid.symm .stable (congrArg Reply.result hreply)

/-- What is quarantined does not show. Visitors of a workspace cannot tell apart databases that
agree on the rest, whatever board, post, comment or vote they ask for, unless a comment replies to
one that only one of the databases has in quarantine. Such a reply does tell them apart, and none
does if the same rows are quarantined in the same places. The roadmap tells these apart if and only
if there is a quarantined post on it. -/
theorem quarantine_hides_iff (db : Db) (T : Nat) :
    (∀ db', SameView openView db db' → SameToVisitors T db db') ∧
      (∀ c ∈ db.comments, c.id ≠ 0 → c.tenantId = T → c.moderationState = .spam →
        (visiblePost db T c.postId).isSome = true →
          SameView openView db (db.withoutComment c.id) ∧
          ∀ w env lower data authUser, ReachesParent w data authUser →
            data.parentCommentId = some c.id →
              outcome ((createPublicComment env lower T c.postId data authUser).exec
                  { w with db := db }).1 ≠ .error (.rejected 400 "comment_not_found") ∧
                outcome ((createPublicComment env lower T c.postId data authUser).exec
                  { w with db := db.withoutComment c.id }).1 =
                    .error (.rejected 400 "comment_not_found")) ∧
      (∀ db', SameButSpam db db' → SameView openView db db' ∧
        ∀ (w : World) env lower postId data authUser,
          outcome ((createPublicComment env lower T postId data authUser).exec
              { w with db := db' }).1 =
            outcome ((createPublicComment env lower T postId data authUser).exec
              { w with db := db }).1) ∧
      ((∀ db', SameButSpam db db' → ∀ (w : World) orders,
          ((getPublicRoadmap orders T).exec { w with db := db' }).1 =
            ((getPublicRoadmap orders T).exec { w with db := db }).1) ↔
        ∀ i ∈ db.roadmapItems, i.tenantId = T → db.isSpamPost i.postId = false) := by
  refine ⟨fun db' h => h.sameToVisitors, ?_, fun db' h => ⟨h.sameView, ?_⟩, ?_, ?_⟩
  · intro c hc hid htenant hspam hvisible
    exact ⟨sameView_withoutComment hc hspam, fun w env lower data authUser hreaches hparent =>
      reply_to_spam env lower hc hid htenant hvisible hreaches hparent⟩
  · exact fun w env lower postId data authUser => h.comment env lower data authUser w
  · exact fun hsame => open_of_sameRoadmap fun p hp hspam =>
      hsame _ (sameButUnread_retitle hp hspam).sameButSpam
  · exact fun hopen db' h => h.roadmap hopen

/-- What quarantined posts and comments say, and who votes for them or answers, shows on no public
page if and only if there is no quarantined post on the roadmap. -/
theorem unread_hides_iff (db : Db) (T : Nat) :
    (∀ db', SameButUnread db db' → SameInPublic T db db') ↔
      ∀ i ∈ db.roadmapItems, i.tenantId = T → db.isSpamPost i.postId = false := by
  constructor
  · exact fun hsame => open_of_sameRoadmap fun p hp hspam =>
      (hsame _ (sameButUnread_retitle hp hspam)).roadmap
  · intro hopen db' h
    have hspam := h.sameButSpam
    exact ⟨hspam.sameView.sameToVisitors,
      fun w env lower postId data authUser => hspam.comment env lower data authUser w,
      hspam.roadmap hopen⟩

/-! ### A post that was on the roadmap before -/

/-- The corner shop has its suggestion on the roadmap. -/
def cornerRoadmap : World where
  db :=
    { cornerBoard.db with
      roadmapColumns := .single
        { id := 1, tenantId := 1, name := "Next", columnKey := "next", sortOrder := 1 }
      roadmapItems := .single { id := 1, tenantId := 1, postId := 1, roadmapColumnId := 1 } }

/-- Ada words the suggestion, and takes it for spam. -/
def wordAndHide (title : String) : Handler (Reply Unit) := do
  let _ ← updatePost 1
    { title := some title, description := some "", postType := some .feedback, priority := some 3 }
    adaAuth
  updatePostModeration 1 "spam" adaAuth

/-- Visitors read the title on the roadmap all the same. -/
theorem unread_shows_on_roadmap :
    ∃ r w r' w', (wordAndHide "Later").exec cornerRoadmap = (.ok r, w) ∧
      (wordAndHide "Buy now").exec cornerRoadmap = (.ok r', w') ∧
      SameButUnread w.db w'.db ∧ ¬ SameInPublic 1 w.db w'.db := by
  refine ⟨_, _, _, _, rfl, rfl, ⟨by decide, by decide, by decide, by decide, rfl⟩, fun h => ?_⟩
  have htitles := congrArg (Except.map fun reply => reply.result.items.map PublicItem.title)
    (h.roadmap {} .stable)
  revert htitles
  decide +kernel

end Feedbase
