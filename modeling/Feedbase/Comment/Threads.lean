import Feedbase.Comment.Comments

/-!
# Threads of comments

Comments are meant to be two levels deep: a reply stands under a comment that is no reply. A
visitor's reply is moved to the top of its thread, and a deleted comment takes its replies along.
A member's reply is stored as it comes.

## Main definitions

* `TwoLevels` — every reply stands under a top-level comment of its post
* `CommentCall`, `CommentStep` — a call, after anything that leaves the comments alone
* `CommentCall.HitsTop` — the comment that a member's reply names is no reply

## Main results

* `CommentCall.db_cases` — what a call does to the comments, in three cases
* `twoLevels_of_run` — two levels, as long as members' replies hit the top
* `reply_to_reply_stored` — three levels otherwise
-/

namespace Feedbase

/-- `d` is a comment that `c` may be a reply to. -/
structure Heads (d : Comment) (tenantId postId : Nat) : Prop where
  tenant : d.tenantId = tenantId
  post : d.postId = postId
  top : d.parentCommentId = none

/-- Every comment is top-level, or a reply to a top-level comment of its post and workspace. -/
def TwoLevels (db : Db) : Prop :=
  ∀ c ∈ db.comments, ∀ id, c.parentCommentId = some id →
    ∃ d ∈ db.comments, d.id = id ∧ Heads d c.tenantId c.postId

/-- No id is zero, which stands for no parent. -/
structure Threads (db : Db) : Prop where
  levels : TwoLevels db
  ids : ∀ c ∈ db.comments, 0 < c.id
  next : 0 < db.comments.next

theorem Threads.of_empty {db : Db} (h : db.comments = .empty) : Threads db where
  levels c hc := by simp [h] at hc
  ids c hc := by simp [h] at hc
  next := by
    rw [h]
    exact Nat.one_pos

theorem Threads.congr {db db' : Db} (h : Threads db) (heq : db'.comments = db.comments) :
    Threads db' where
  levels := by
    unfold TwoLevels
    rw [heq]
    exact h.levels
  ids := by
    rw [heq]
    exact h.ids
  next := by
    rw [heq]
    exact h.next

/-! ### What a call adds -/

/-- The comments, and the new one. -/
def AddsComment (n : NewComment) (db db' : Db) : Prop :=
  ∃ tenantId now comments, n.tenantId = some tenantId ∧ n.refersInto tenantId db = true ∧
    db.comments.insert? (n.row tenantId now) = some comments ∧ db'.comments = comments

variable {w w' : World} {db db' : Db} {c d : Comment} {n : NewComment}

theorem exec_insertComment_cases (n : NewComment) (w : World) :
    ((insertComment n).exec w).2 = w ∨ AddsComment n w.db ((insertComment n).exec w).2.db := by
  rcases hexec : (insertComment n).exec w with ⟨e | id, w'⟩
  · left
    rw [insertComment, exec_call] at hexec
    split at hexec
    · cases hexec
    · exact (Prod.mk.inj hexec).2.symm
  · obtain ⟨tenantId, comments, htenant, hrefers, hinsert, -, rfl⟩ := exec_insertComment_ok hexec
    exact .inr ⟨tenantId, w.now, comments, htenant, hrefers, hinsert, rfl⟩

/-- A new comment under no other, or under a top-level comment of its post. -/
theorem Threads.adds (h : Threads db) (hadds : AddsComment n db db')
    (htop : ∀ d ∈ db.comments, ∀ tenantId, n.parentCommentId = some d.id →
      n.tenantId = some tenantId → Heads d tenantId n.postId) : Threads db' := by
  obtain ⟨tenantId, now, comments, htenant, hrefers, hinsert, hdb⟩ := hadds
  have hmem : ∀ c, c ∈ db'.comments ↔ c ∈ db.comments ∨ c = n.row tenantId now db.comments.next := by
    intro c
    rw [hdb]
    exact Sql.Table.mem_insert? hinsert
  constructor
  · intro c hc id hparent
    rcases (hmem c).mp hc with hc | rfl
    · obtain ⟨d, hd, hid, hheads⟩ := h.levels c hc id hparent
      exact ⟨d, (hmem d).mpr (.inl hd), hid, hheads⟩
    · -- the foreign key: the comment above exists
      change n.parentCommentId = some id at hparent
      have hexists : (db.comments.byId id).isSome = true := by
        simp only [NewComment.refersInto, Bool.and_eq_true, hparent, Option.all_some] at hrefers
        exact hrefers.2
      obtain ⟨d, hd, rfl⟩ := Sql.Table.byId_isSome_iff.mp hexists
      exact ⟨d, (hmem d).mpr (.inl hd), rfl, htop d hd tenantId hparent htenant⟩
  · intro c hc
    rcases (hmem c).mp hc with hc | rfl
    · exact h.ids c hc
    · exact h.next
  · rw [hdb, Sql.Table.insert?_next hinsert]
    exact Nat.succ_pos _

/-- Whoever is left has its parent left. -/
theorem Threads.prune (h : Threads db) (f : Comment → Bool) :
    Threads (db.prune { comment := f }) where
  levels c hc id hparent := by
    obtain ⟨hc, hstays⟩ := mem_comments_prune_comment.mp hc
    obtain ⟨d, hd, hid, hheads⟩ := h.levels c hc id hparent
    refine ⟨d, mem_comments_prune_comment.mpr ⟨hd, fun hunder => hstays ?_⟩, hid, hheads⟩
    have hanswers : Db.answers d c = true := by
      rw [Db.answers, hparent, hid]
      exact beq_self_eq_true _
    exact .step hd hunder hanswers
  ids c hc := h.ids c (mem_comments_prune_comment.mp hc).1
  next := h.next

theorem db_createComment (data : CommentData) (auth : AuthData) (w : World) :
    ((createComment data auth).exec w).2.db = w.db ∨
      ∃ asOwner postId body, data.postId = some postId ∧
        AddsComment (data.row auth asOwner postId body) w.db
          ((createComment data auth).exec w).2.db := by
  have hreads : Prog.Reads (asOwnerOf auth data.ownerMode) := by
    unfold asOwnerOf
    exact .ite (.bind (reads_query _) fun _ => .pure _) (.pure _)
  unfold createComment
  rcases hreads.exec_bind _ w with ⟨e, he⟩ | ⟨asOwner, ha⟩
  · exact .inl (by rw [he])
  · rw [ha, exec_tryCatch_failWith]
    split
    · rename_i postId body hpost _
      rw [Prog.exec_bind_snd fun _ _ => rfl]
      rcases exec_insertComment_cases (data.row auth asOwner postId body) w with hsame | hadds
      · exact .inl (congrArg World.db hsame)
      · exact .inr ⟨asOwner, postId, body, hpost, hadds⟩
    · exact .inl rfl

/-! ### A visitor's comment -/

theorem reads_resolveOwner (mode : Option String) (authUser : Option AuthData) (tenantId : Nat) :
    Prog.Reads (resolveOwner mode authUser tenantId) := by
  unfold resolveOwner
  exact .ite (.pure _) (.bind (reads_query _) fun _ => .pure _)

/-- The climb stays among the comments. -/
theorem climb_mem {T n : Nat} {seen : List Nat} (hc : c ∈ db.comments) :
    climb db T n seen c ∈ db.comments := by
  induction n generalizing seen c with
  | zero => exact hc
  | succ n ih =>
    rw [climb]
    split
    · exact hc
    · split
      · exact hc
      · split
        · exact hc
        · rename_i up hup
          exact ih (commentAt_eq_some hup).1

/-- The climb stays in the workspace. -/
theorem tenantId_climb {T n : Nat} {seen : List Nat} (htenant : c.tenantId = T) :
    (climb db T n seen c).tenantId = T := by
  induction n generalizing seen c with
  | zero => exact htenant
  | succ n ih =>
    rw [climb]
    split
    · exact htenant
    · split
      · exact htenant
      · split
        · exact htenant
        · rename_i up hup
          exact ih (commentAt_eq_some hup).2.2

/-- The comment is stored under the top of the thread, or not at all. -/
theorem db_judgeAndStore (env : PublicWriteEnv) (lower : Text.CaseMap) (tenantId postId : Nat)
    (data : PublicCommentData) (authUser : Option AuthData) (asOwner : Nat)
    (rootParentId : Option Nat) (w : World) :
    ((judgeAndStore env lower tenantId postId data authUser asOwner rootParentId).exec w).2.db =
        w.db ∨
      ∃ guard, AddsComment (data.row tenantId postId authUser asOwner rootParentId guard) w.db
        ((judgeAndStore env lower tenantId postId data authUser asOwner rootParentId).exec
          w).2.db := by
  -- counting the duplicates only reads
  have hreads := reads_ofGuests (reads_commentDuplicates env.text.cases lower tenantId
    (Text.trim (data.body.getD []))) authUser
  unfold judgeAndStore
  dsimp only
  rcases hreads.exec_bind _ w with ⟨e, he⟩ | ⟨count, hcount⟩
  · exact .inl (by rw [he])
  rw [hcount]
  -- the judgement itself never fails
  obtain ⟨guard, hguard⟩ := evaluatePublicWrite_eq_ok env
    { body := Text.trim (data.body.getD []),
      email := forGuest authUser (guestField 255 data.submitterEmail), duplicateCount := count,
      isAuthenticated := authUser.isSome, honeypot := data.website, formToken := data.formToken }
  have hjudged : Prog.exec (Prog.ofExcept (Except.mapError (fun _ => Failure.error)
      (Except.ok guard : Except String GuardVerdict))) w = (.ok guard, w) := rfl
  rw [hguard, Prog.exec_bind, hjudged]
  dsimp only
  by_cases hdiscard : guard.discard = true
  · rw [if_pos hdiscard]
    exact .inl rfl
  rw [if_neg hdiscard]
  by_cases hlimited : guard.rateLimited = true
  · rw [if_pos hlimited]
    exact .inl rfl
  rw [if_neg hlimited, Prog.exec_bind_snd fun _ _ => rfl]
  rcases exec_insertComment_cases
    (data.row tenantId postId authUser asOwner rootParentId guard) w with hsame | hadds
  · exact .inl (congrArg World.db hsame)
  · exact .inr ⟨guard, hadds⟩

/-- A visitor's comment is stored under the comment that the climb ends at. -/
theorem db_createPublicComment (env : PublicWriteEnv) (lower : Text.CaseMap)
    (tenantId postId : Nat) (data : PublicCommentData) (authUser : Option AuthData) (w : World) :
    ((createPublicComment env lower tenantId postId data authUser).exec w).2.db = w.db ∨
      ∃ asOwner root guard, rootParent w.db tenantId postId data.parentCommentId = .ok root ∧
        AddsComment (data.row tenantId postId authUser asOwner root guard) w.db
          ((createPublicComment env lower tenantId postId data authUser).exec w).2.db := by
  unfold createPublicComment
  -- the checks of the request, of the post and of the parent come first, and store nothing
  cases publicCommentProblem (Text.trim (data.body.getD []))
      (forGuest authUser (guestField 255 data.submitterEmail)) with
  | some key => exact .inl rfl
  | none =>
    dsimp only
    rw [exec_tryCatch_failWith, exec_selectAt_bind]
    by_cases hposts : w.fails .postsSelect = true
    · rw [if_pos hposts]
      exact .inl rfl
    rw [if_neg hposts]
    by_cases hpost : (visiblePost w.db tenantId postId).isNone = true
    · rw [if_pos hpost]
      exact .inl rfl
    rw [if_neg hpost, exec_selectAt_bind]
    by_cases hcomments : w.fails .commentsSelect = true
    · rw [if_pos hcomments]
      exact .inl rfl
    rw [if_neg hcomments]
    cases hroot : rootParent w.db tenantId postId data.parentCommentId with
    | error e => exact .inl rfl
    | ok root =>
      change (Prog.exec (resolveOwner data.ownerMode authUser tenantId >>= _) w).2.db = w.db ∨ _
      rcases (reads_resolveOwner data.ownerMode authUser tenantId).exec_bind
        (fun asOwner => judgeAndStore env lower tenantId postId data authUser asOwner root) w
        with ⟨e, he⟩ | ⟨asOwner, ha⟩
      · left
        rw [he]
      · rcases db_judgeAndStore env lower tenantId postId data authUser asOwner root w
          with hsame | ⟨guard, hadds⟩
        · left
          rw [ha, hsame]
        · right
          refine ⟨asOwner, root, guard, rfl, ?_⟩
          rw [← ha] at hadds
          exact hadds

/-- Where the threads have two levels, one step up is the top. -/
theorem Threads.heads_rootComment (h : Threads db) (hc : c ∈ db.comments) :
    rootComment db c.tenantId c ∈ db.comments ∧
      Heads (rootComment db c.tenantId c) c.tenantId c.postId := by
  -- a top-level comment is where the climb ends, whatever the bound
  have hstop : ∀ n seen, ∀ d : Comment, d.parentCommentId = none →
      climb db c.tenantId n seen d = d := by
    intro n seen d hd
    cases n with
    | zero => rfl
    | succ n => rw [climb, hd, Option.filter_none]
  cases hparent : c.parentCommentId with
  | none =>
    rw [rootComment, hstop _ _ c hparent]
    exact ⟨hc, rfl, rfl, hparent⟩
  | some id =>
    -- the parent heads the thread, so one step is enough
    obtain ⟨d, hd, rfl, hheads⟩ := h.levels c hc id hparent
    have hfound : db.commentAt c.tenantId d.id = some d := by
      cases hfind : db.commentAt c.tenantId d.id with
      | none =>
        have hno := List.find?_eq_none.mp hfind d hd
        simp [hheads.tenant] at hno
      | some e =>
        obtain ⟨he, hid, -⟩ := commentAt_eq_some hfind
        rw [Sql.Table.eq_of_id he hd hid]
    have hzero : (some d.id).filter (fun id => decide (id ≠ 0)) = some d.id := by
      have hpos := h.ids d hd
      simp [Option.filter_some, Nat.pos_iff_ne_zero.mp hpos]
    have hunseen : ([] : List Nat).contains c.id = false := rfl
    have hclimb : rootComment db c.tenantId c = d := by
      rw [rootComment, climb, hparent, hzero]
      dsimp only
      rw [hunseen, if_neg Bool.false_ne_true, hfound]
      exact hstop _ _ d hheads.top
    rw [hclimb]
    exact ⟨hd, hheads⟩

theorem Threads.heads_rootParent (h : Threads db) {tenantId postId : Nat} {parent root : Option Nat}
    (hroot : rootParent db tenantId postId parent = .ok root) (hd : d ∈ db.comments)
    (hid : root = some d.id) : Heads d tenantId postId := by
  rw [rootParent] at hroot
  cases hparent : parent.filter (· ≠ 0) with
  | none =>
    rw [hparent, hid] at hroot
    cases hroot
  | some id =>
    rw [hparent] at hroot
    dsimp only at hroot
    cases hfound : db.parentOn tenantId postId id with
    | none =>
      rw [hfound] at hroot
      cases hroot
    | some c =>
      rw [hfound, hid] at hroot
      have heq : (rootComment db tenantId c).id = d.id := Option.some.inj (Except.ok.inj hroot)
      have hat := List.find?_some hfound
      rw [Bool.and_eq_true, Bool.and_eq_true, beq_iff_eq, beq_iff_eq, beq_iff_eq] at hat
      obtain ⟨⟨-, rfl⟩, rfl⟩ := hat
      obtain ⟨hmem, hheads⟩ := h.heads_rootComment (List.mem_of_find?_eq_some hfound)
      rwa [Sql.Table.eq_of_id hmem hd heq] at hheads

/-! ### Runs -/

inductive CommentCall where
  | createComment (data : CommentData) (auth : AuthData)
  | createPublicComment (env : PublicWriteEnv) (lower : Text.CaseMap) (tenantId postId : Nat)
      (data : PublicCommentData) (authUser : Option AuthData)
  | deleteComment (id : Nat) (auth : AuthData)
  | adminDeleteComment (tenantId commentId : Nat)

def CommentCall.handler : CommentCall → Handler Unit
  | .createComment data auth => withoutReply (Feedbase.createComment data auth)
  | .createPublicComment env lower tenantId postId data authUser =>
    withoutReply (Feedbase.createPublicComment env lower tenantId postId data authUser)
  | .deleteComment id auth => withoutReply (Feedbase.deleteComment id auth)
  | .adminDeleteComment tenantId commentId =>
    withoutReply (Admin.deleteComment tenantId commentId)

/-- If a member's reply names a comment, then a top-level comment of the same post. -/
def CommentCall.HitsTop (db : Db) : CommentCall → Prop
  | .createComment data auth => ∀ d ∈ db.comments, data.parentCommentId = some d.id →
      ∀ tenantId postId, auth.tenantId = some tenantId → data.postId = some postId →
        Heads d tenantId postId
  | _ => True

/-- A call, after anything that leaves the comments alone. -/
def CommentStep (ok : Db → CommentCall → Prop) (w w' : World) : Prop :=
  ∃ u call, u.db.comments = w.db.comments ∧ ok u.db call ∧ w' = (call.handler.exec u).2

/-- What a call does to the comments: nothing, one more, or some less. -/
theorem CommentCall.db_cases (call : CommentCall) (w : World) :
    (call.handler.exec w).2.db = w.db ∨
      (∃ n, AddsComment n w.db (call.handler.exec w).2.db ∧
        (call.HitsTop w.db → Threads w.db → ∀ d ∈ w.db.comments, ∀ tenantId,
          n.parentCommentId = some d.id → n.tenantId = some tenantId →
            Heads d tenantId n.postId)) ∨
      ∃ f, (call.handler.exec w).2.db = w.db.prune { comment := f } := by
  cases call with
  | createComment data auth =>
    rw [CommentCall.handler, exec_withoutReply_snd]
    rcases db_createComment data auth w with hsame | ⟨asOwner, postId, body, hpost, hadds⟩
    · exact .inl hsame
    · refine .inr (.inl ⟨_, hadds, fun htop _ d hd tenantId hparent htenant => ?_⟩)
      -- the dashboard stores the parent as it was named
      have hnamed : data.parentCommentId = some d.id :=
        (Option.filter_eq_some_iff.mp hparent).1
      exact htop d hd hnamed tenantId postId htenant hpost
  | createPublicComment env lower tenantId postId data authUser =>
    rw [CommentCall.handler, exec_withoutReply_snd]
    rcases db_createPublicComment env lower tenantId postId data authUser w
      with hsame | ⟨asOwner, root, guard, hroot, hadds⟩
    · exact .inl hsame
    · refine .inr (.inl ⟨_, hadds, fun _ h d hd T hparent htenant => ?_⟩)
      -- the board stores the root of the thread
      obtain rfl : tenantId = T := Option.some.inj htenant
      exact h.heads_rootParent hroot hd hparent
  | deleteComment id auth =>
    rw [CommentCall.handler, exec_withoutReply_snd, db_deleteComment]
    by_cases hfails : w.fails .commentsDelete = true
    · exact .inl (if_pos hfails)
    · exact .inr (.inr ⟨_, if_neg hfails⟩)
  | adminDeleteComment tenantId commentId =>
    rw [CommentCall.handler, exec_withoutReply_snd, db_adminDeleteComment]
    by_cases hfails : w.fails .commentsDelete = true
    · exact .inl (if_pos hfails)
    · exact .inr (.inr ⟨_, if_neg hfails⟩)

theorem Threads.step (h : Threads w.db)
    (hstep : CommentStep (fun db call => call.HitsTop db) w w') : Threads w'.db := by
  obtain ⟨u, call, hcomments, htop, rfl⟩ := hstep
  have hu : Threads u.db := h.congr hcomments
  rcases call.db_cases u with hsame | ⟨n, hadds, hheads⟩ | ⟨f, hdeleted⟩
  · rw [hsame]
    exact hu
  · exact hu.adds hadds (hheads htop hu)
  · rw [hdeleted]
    exact hu.prune f

/-- In every run whose members' replies name top-level comments of their post, the threads keep
two levels. -/
theorem twoLevels_of_run (h : Threads w.db)
    (hrun : Relation.ReflTransGen (CommentStep fun db call => call.HitsTop db) w w') :
    TwoLevels w'.db := by
  have hthreads : Threads w'.db := by
    induction hrun with
    | refl => exact h
    | tail _ hstep ih => exact ih.step hstep
  exact hthreads.levels

/-! ### A reply to a reply -/

/-- A board on which nobody has said anything. -/
def quietCorner : World where
  db := { cornerBoard.db with comments := .empty }

/-- What a member says, and to whom. -/
def speaks (parentCommentId : Option Nat) : CommentCall :=
  .createComment { postId := some 1, body := some "Yes.", parentCommentId := parentCommentId } adaAuth

/-- The calls one after the other. -/
def afterComments (w : World) : List CommentCall → World
  | [] => w
  | call :: calls => afterComments (call.handler.exec w).2 calls

theorem run_afterComments {ok : Db → CommentCall → Prop} {calls : List CommentCall}
    (hok : ∀ k, ∀ call ∈ calls[k]?, ok (afterComments w (calls.take k)).db call) :
    Relation.ReflTransGen (CommentStep ok) w (afterComments w calls) := by
  induction calls generalizing w with
  | nil => exact .refl
  | cons call calls ih =>
    exact .head ⟨w, call, rfl, hok 0 call rfl, rfl⟩ (ih fun k => hok (k + 1))

theorem twoLevels_reply :
    TwoLevels (afterComments quietCorner [speaks none, speaks (some 1)]).db ∧
      (afterComments quietCorner [speaks none, speaks (some 1)]).db.comments.rows.map
        (·.parentCommentId) = [none, some 1] := by
  refine ⟨twoLevels_of_run (.of_empty rfl) (run_afterComments fun k call hcall => ?_),
    by decide +kernel⟩
  match k with
  | 0 =>
    obtain rfl := Option.some.inj hcall
    intro d _ hparent
    cases hparent
  | 1 =>
    obtain rfl := Option.some.inj hcall
    intro d hd _ tenantId postId htenant hpost
    have hrows : (afterComments quietCorner [speaks none]).db.comments.rows =
        [{ id := 1, tenantId := 1, postId := 1, authorId := some 1, body := "Yes.",
           createdAt := 0 }] := by decide +kernel
    rw [Sql.Table.mem_def] at hd
    change d ∈ (afterComments quietCorner [speaks none]).db.comments.rows at hd
    rw [hrows] at hd
    obtain rfl := List.mem_singleton.mp hd
    cases htenant
    cases hpost
    exact ⟨rfl, rfl, rfl⟩
  | k + 2 => cases hcall

/-- A member replies to a reply. -/
theorem reply_to_reply_stored : ∃ w w', w.db.BoardKeys ∧ w.db.comments = .empty ∧
    Relation.ReflTransGen (CommentStep fun _ _ => True) w w' ∧ ¬ TwoLevels w'.db := by
  refine ⟨quietCorner, afterComments quietCorner [speaks none, speaks (some 1), speaks (some 2)],
    by decide, rfl, run_afterComments fun _ _ _ => trivial, fun h => ?_⟩
  let third : Comment :=
    { id := 3, tenantId := 1, postId := 1, authorId := some 1, parentCommentId := some 2,
      body := "Yes.", createdAt := 0 }
  have hthird : third ∈
      (afterComments quietCorner [speaks none, speaks (some 1), speaks (some 2)]).db.comments.rows := by
    decide +kernel
  have hnone : ∀ d ∈ (afterComments quietCorner
      [speaks none, speaks (some 1), speaks (some 2)]).db.comments.rows,
      d.id = 2 → d.parentCommentId ≠ none := by decide +kernel
  obtain ⟨d, hd, hid, hheads⟩ := h _ hthird 2 rfl
  exact hnone d hd hid hheads.top

end Feedbase
