import Feedbase.Common.PlanGuard
import Feedbase.Lib.Chains
import Feedbase.Post.Moderation
import Feedbase.Post.SpamCleanup

/-!
# Duplicate marks

A post may be marked as a duplicate of another one, which may be marked itself. A post is not
marked as a duplicate of itself; but longer circles are not looked for.

## Main definitions

* `setPostDuplicate`, `deletePost`, `deleteWorkspacePost`
* `Db.markOf`, `MarksEnd` — the mark of a post, and where the marks lead
* `MarkCall`, `MarkStep` — a call, after anything that leaves the posts alone
* `MarkCall.LeadsAway` — the post named is not itself, some marks on, a duplicate of this one

## Main results

* `MarkCall.db_cases` — what a call does to the marks
* `marksEnd_of_run` — the marks end, as long as the calls lead away
* `two_posts_in_circle` — two posts that are each other's duplicates
-/

namespace Feedbase

/-! ### The handlers -/

def Post.markedAs (target : Option Nat) (p : Post) : Post := { p with duplicateOfPostId := target }

theorem Post.keyless_markedAs (target : Option Nat) : Sql.Table.Keyless (Post.markedAs target) :=
  ⟨fun _ => rfl, fun _ _ => rfl⟩

/-- `UPDATE posts SET duplicate_of_post_id = ?`. -/
def Db.markDuplicate (db : Db) (tenantId : Option Nat) (id : Nat) (target : Option Nat) : Db :=
  { db with
    posts := db.posts.update (Post.isAt tenantId id) (Post.markedAs target)
      (Post.keyless_markedAs target) }

/-- The statement throws when the post named does not exist. -/
def markDuplicate (tenantId : Option Nat) (id : Nat) (target : Option Nat) : Handler Unit :=
  call .postsUpdate fun w =>
    if w.db.posts.rows.any (Post.isAt tenantId id) &&
        target.any fun t => (w.db.posts.byId t).isNone then none
    else some ((), { w with db := w.db.markDuplicate tenantId id target })

/-- `none` clears the mark. -/
def setPostDuplicate (id : Nat) (duplicateOfPostId : Option Nat) (auth : AuthData) :
    Handler (Reply Unit) :=
  tryCatch (do
    let found ← selectAt .postsSelect fun db => db.posts.rows.any (Post.isAt auth.tenantId id)
    if !found then reject 404 "post_not_found"
    else
      match duplicateOfPostId with
      | none => do
        markDuplicate auth.tenantId id none
        resolve 200 "duplicate_cleared_successfully" ()
      | some target =>
        if target = id then reject 400 "invalid_duplicate_target"
        else do
          -- only that the target is there: not what it is a duplicate of
          let targetFound ← selectAt .postsSelect fun db =>
            db.posts.rows.any (Post.isAt auth.tenantId target)
          if !targetFound then reject 400 "invalid_duplicate_target"
          else do
            markDuplicate auth.tenantId id (some target)
            resolve 200 "post_marked_as_duplicate" ())
    (failWith "failed_to_update_duplicate")

/-- `DELETE FROM posts WHERE id = ? AND tenant_id = ?`. -/
def deletePostAt (tenantId : Option Nat) (id : Nat) (done : String) (failKey : String) :
    Handler (Reply Unit) :=
  affecting .postsDelete
    (fun w => some (affected w.db.posts.rows (Post.isAt tenantId id),
      { w with db := w.db.prune { post := Post.isAt tenantId id } }))
    (404, "post_not_found") (200, done) failKey

def deletePost (id : Nat) (auth : AuthData) : Handler (Reply Unit) :=
  if auth.role ≠ .owner then reject 403 "delete_feedback_owner_only"
  else do
    let plan ← query fun db => (auth.tenantId.map (tenantPlan db)).getD "free"
    if !(getPlanLimits plan).deleteFeedback then reject 402 "plan_limit_delete_feedback"
    else deletePostAt auth.tenantId id "post_deleted_successfully" "failed_to_delete_post"

/-- The delete of an administrator of the platform. -/
def deleteWorkspacePost (tenantId postId : Nat) : Handler (Reply Unit) :=
  deletePostAt (some tenantId) postId "post_deleted" "internal_server_error"

/-! ### Where the marks lead -/

/-- The post that a post is a duplicate of. -/
def Db.markOf (db : Db) (id : Nat) : Option Nat := (db.posts.byId id).bind (·.duplicateOfPostId)

/-- From every post the marks lead to an unmarked one. -/
def MarksEnd (db : Db) : Prop :=
  ∀ p ∈ db.posts, ∃ q ∈ db.posts, Chain.Leads db.markOf p.id q.id ∧ q.duplicateOfPostId = none

/-- The marks lead to posts, and the chains of marks end. -/
structure Marks (db : Db) : Prop where
  exist : ∀ p ∈ db.posts, ∀ t, p.duplicateOfPostId = some t → ∃ q ∈ db.posts, q.id = t
  ends : ∀ id, Chain.Ends db.markOf id

variable {w w' : World} {db : Db} {p : Post} {T target : Option Nat} {id : Nat}

theorem Db.markOf_id (hp : p ∈ db.posts) : db.markOf p.id = p.duplicateOfPostId := by
  have hfound : db.posts.byId p.id = some p := Sql.Table.byId_id hp
  rw [Db.markOf, hfound, Option.bind_some]

theorem Marks.of_unmarked (h : ∀ p ∈ db.posts, p.duplicateOfPostId = none) : Marks db where
  exist p hp t ht := by
    rw [h p hp] at ht
    cases ht
  ends id := by
    apply Chain.Ends.stop
    rw [Db.markOf]
    cases hfound : db.posts.byId id with
    | none => rfl
    | some p => exact h p (Sql.Table.byId_eq_some_iff.mp hfound).1

theorem Marks.congr {db' : Db} (h : Marks db) (heq : db'.posts = db.posts) : Marks db' where
  exist := by
    rw [heq]
    exact h.exist
  ends := by
    have hmark : db'.markOf = db.markOf := by
      funext id
      rw [Db.markOf, Db.markOf, heq]
    rw [hmark]
    exact h.ends

/-- The end of a chain that starts at a post is a post. -/
theorem Marks.marksEnd (h : Marks db) : MarksEnd db := by
  intro p hp
  obtain ⟨id, hchain, hstop⟩ := h.ends p.id
  have hpost : ∃ q ∈ db.posts, q.id = id := by
    clear hstop
    induction hchain with
    | refl => exact ⟨p, hp, rfl⟩
    | tail _ hlink ih =>
      obtain ⟨q, hq, rfl⟩ := ih
      rw [Db.markOf_id hq] at hlink
      exact h.exist q hq _ hlink
  obtain ⟨q, hq, rfl⟩ := hpost
  exact ⟨q, hq, hchain, (Db.markOf_id hq).symm.trans hstop⟩

/-! ### What a call does to the marks -/

/-- Setting a mark sets one link. -/
theorem markOf_markDuplicate (hp : p ∈ db.posts) (hat : p.isAt T id = true) :
    (db.markDuplicate T id target).markOf = Function.update db.markOf id target := by
  have hid : p.id = id := by
    simp only [Post.isAt, Bool.and_eq_true, beq_iff_eq] at hat
    exact hat.1
  funext n
  by_cases hn : n = id
  · subst hn
    have hfound : (db.markDuplicate T n target).posts.byId n = some (p.markedAs target) :=
      Sql.Table.byId_update_of_mem (Post.keyless_markedAs target) hp hid hat
    rw [Db.markOf, hfound, Function.update_self]
    rfl
  · have hfound : (db.markDuplicate T id target).posts.byId n = db.posts.byId n := by
      refine Sql.Table.byId_update_of_ne (Post.keyless_markedAs target) fun q _ hq => ?_
      have hne : q.id ≠ id := fun h => hn (hq.symm.trans h)
      simp [Post.isAt, hne]
    rw [Db.markOf, hfound, Function.update_of_ne hn, Db.markOf]

/-- Deleting posts takes links away. -/
theorem markOf_prune (f : Post → Bool) (id : Nat) :
    (db.prune { post := f }).markOf id = db.markOf id ∨
      (db.prune { post := f }).markOf id = none := by
  cases hfound : (db.prune { post := f }).posts.byId id with
  | none =>
    right
    rw [Db.markOf, hfound]
    rfl
  | some q =>
    obtain ⟨hq, hid⟩ := Sql.Table.byId_eq_some_iff.mp hfound
    obtain ⟨p, hp, -, rfl⟩ := Db.mem_posts_prune.mp hq
    rw [Db.markOf, hfound, Option.bind_some]
    by_cases hcleared : p.duplicateOfPostId.any (db.prunedPost { post := f }) = true
    · right
      rw [if_pos hcleared]
      rfl
    · left
      rw [if_neg hcleared] at hid ⊢
      obtain rfl : p.id = id := hid
      rw [Db.markOf_id hp]

theorem Marks.prune (h : Marks db) (f : Post → Bool) : Marks (db.prune { post := f }) where
  exist q hq t ht := by
    obtain ⟨p, hp, hstays, rfl⟩ := Db.mem_posts_prune.mp hq
    by_cases hcleared : p.duplicateOfPostId.any (db.prunedPost { post := f }) = true
    · rw [if_pos hcleared] at ht
      cases ht
    · rw [if_neg hcleared] at ht
      obtain ⟨r, hr, rfl⟩ := h.exist p hp t ht
      have hnamed : f r = false := by
        apply Bool.eq_false_iff.mpr
        intro hgone
        rw [ht, Option.any_some] at hcleared
        exact hcleared (Db.prunedPost_iff.mpr ⟨r, hr, rfl, hgone⟩)
      exact Db.exists_post_prune hr hnamed
  ends id := (h.ends id).of_removed (markOf_prune f)

/-- A mark that leads away from the post. -/
theorem Marks.markDuplicate (h : Marks db) (hp : p ∈ db.posts) (hat : p.isAt T id = true)
    (htarget : ∀ t, target = some t → (∃ q ∈ db.posts, q.id = t) ∧ ¬ Chain.Leads db.markOf t id) :
    Marks (db.markDuplicate T id target) where
  exist q hq t ht := by
    change q ∈ db.posts.update (Post.isAt T id) _ (Post.keyless_markedAs target) at hq
    obtain ⟨r, hr, rfl⟩ := Sql.Table.mem_update.mp hq
    have hold : ∃ s ∈ db.posts, s.id = t := by
      by_cases hmarked : r.isAt T id = true
      · rw [if_pos hmarked] at ht
        exact (htarget t ht).1
      · rw [if_neg hmarked] at ht
        exact h.exist r hr t ht
    exact Sql.Table.exists_id_update (Post.keyless_markedAs target) hold
  ends := by
    rw [markOf_markDuplicate hp hat]
    cases target with
    | none =>
      intro n
      refine (h.ends n).of_removed fun m => ?_
      by_cases hm : m = id
      · rw [hm, Function.update_self]
        exact .inr rfl
      · exact .inl (Function.update_of_ne hm _ _)
    | some t => exact (Chain.ends_update_iff h.ends).mpr (htarget t rfl).2

theorem exec_markDuplicate_cases (tenantId : Option Nat) (id : Nat) (target : Option Nat)
    (w : World) :
    ((markDuplicate tenantId id target).exec w).2.db = w.db ∨
      ((markDuplicate tenantId id target).exec w).2.db = w.db.markDuplicate tenantId id target := by
  rw [markDuplicate, exec_call]
  by_cases hfails : w.fails .postsUpdate = true
  · rw [if_pos hfails]
    exact .inl rfl
  rw [if_neg hfails]
  by_cases hmissing : (w.db.posts.rows.any (Post.isAt tenantId id) &&
      target.any fun t => (w.db.posts.byId t).isNone) = true
  · rw [if_pos hmissing]
    exact .inl rfl
  · rw [if_neg hmissing]
    exact .inr rfl

theorem exists_isAt (h : db.posts.rows.any (Post.isAt T id) = true) :
    ∃ p ∈ db.posts, p.isAt T id = true := List.any_eq_true.mp h

/-- What a call of `setPostDuplicate` does: nothing, or one mark on an existing post. A mark that
is set names another existing post of the workspace. -/
theorem db_setPostDuplicate (id : Nat) (target : Option Nat) (auth : AuthData) (w : World) :
    ((setPostDuplicate id target auth).exec w).2.db = w.db ∨
      ((∃ p ∈ w.db.posts, p.isAt auth.tenantId id = true) ∧
        (∀ t, target = some t → t ≠ id ∧ ∃ q ∈ w.db.posts, q.isAt auth.tenantId t = true) ∧
        ((setPostDuplicate id target auth).exec w).2.db =
          w.db.markDuplicate auth.tenantId id target) := by
  unfold setPostDuplicate
  rw [exec_tryCatch_failWith, exec_selectAt_bind]
  by_cases hselect : w.fails .postsSelect = true
  · rw [if_pos hselect]
    exact .inl rfl
  rw [if_neg hselect]
  cases hpost : w.db.posts.rows.any (Post.isAt auth.tenantId id) with
  | false => exact .inl rfl
  | true =>
    rw [Bool.not_true, if_neg Bool.false_ne_true]
    cases target with
    -- the mark is taken off
    | none =>
      dsimp only
      rw [Prog.exec_bind_snd fun _ _ => rfl]
      rcases exec_markDuplicate_cases auth.tenantId id none w with hsame | hmarked
      · exact .inl hsame
      · exact .inr ⟨exists_isAt hpost, nofun, hmarked⟩
    | some t =>
      dsimp only
      by_cases hself : t = id
      · rw [if_pos hself]
        exact .inl rfl
      rw [if_neg hself, exec_selectAt_bind, if_neg hselect]
      cases htarget : w.db.posts.rows.any (Post.isAt auth.tenantId t) with
      | false => exact .inl rfl
      | true =>
        rw [Bool.not_true, if_neg Bool.false_ne_true, Prog.exec_bind_snd fun _ _ => rfl]
        rcases exec_markDuplicate_cases auth.tenantId id (some t) w with hsame | hmarked
        · exact .inl hsame
        · refine .inr ⟨exists_isAt hpost, fun s hs => ?_, hmarked⟩
          obtain rfl := Option.some.inj hs
          exact ⟨hself, exists_isAt htarget⟩

theorem db_deletePostAt (tenantId : Option Nat) (id : Nat) (done failKey : String) (w : World) :
    ((deletePostAt tenantId id done failKey).exec w).2.db =
      if w.fails .postsDelete then w.db else w.db.prune { post := Post.isAt tenantId id } := by
  rw [deletePostAt, exec_affecting_snd, apply_ite World.db]

/-! ### Runs -/

/-- A call that sets marks or deletes posts; `deletePosts` is any other `DELETE` on `posts`. -/
inductive MarkCall where
  | setPostDuplicate (id : Nat) (duplicateOfPostId : Option Nat) (auth : AuthData)
  | deletePost (id : Nat) (auth : AuthData)
  | deleteWorkspacePost (tenantId postId : Nat)
  | deletePosts (p : World → Post → Bool)

def MarkCall.handler : MarkCall → Handler Unit
  | .setPostDuplicate id target auth => withoutReply (Feedbase.setPostDuplicate id target auth)
  | .deletePost id auth => withoutReply (Feedbase.deletePost id auth)
  | .deleteWorkspacePost tenantId postId =>
    withoutReply (Feedbase.deleteWorkspacePost tenantId postId)
  | .deletePosts p => withoutReply (Feedbase.deletePosts p)

/-- The post that is named is not a duplicate of this one already, over any number of marks. -/
def MarkCall.LeadsAway (db : Db) : MarkCall → Prop
  | .setPostDuplicate id (some target) _ => target ≠ id → ¬ Chain.Leads db.markOf target id
  | _ => True

/-- A call, after anything that leaves the posts alone. -/
def MarkStep (ok : Db → MarkCall → Prop) (w w' : World) : Prop :=
  ∃ u call, u.db.posts = w.db.posts ∧ ok u.db call ∧ w' = (call.handler.exec u).2

/-- What a call does to the posts: nothing, one mark, or a deletion. -/
theorem MarkCall.db_cases (call : MarkCall) (w : World) :
    (call.handler.exec w).2.db = w.db ∨
      (∃ T id target, (∃ p ∈ w.db.posts, p.isAt T id = true) ∧
        (call.LeadsAway w.db → ∀ t, target = some t →
          (∃ q ∈ w.db.posts, q.id = t) ∧ ¬ Chain.Leads w.db.markOf t id) ∧
        (call.handler.exec w).2.db = w.db.markDuplicate T id target) ∨
      ∃ f, (call.handler.exec w).2.db = w.db.prune { post := f } := by
  cases call with
  | setPostDuplicate id target auth =>
    rw [MarkCall.handler, exec_withoutReply_snd]
    rcases db_setPostDuplicate id target auth w with hsame | ⟨hpost, htarget, hmarked⟩
    · exact .inl hsame
    · refine .inr (.inl ⟨_, _, _, hpost, fun haway t ht => ?_, hmarked⟩)
      subst ht
      obtain ⟨hne, q, hq, hat⟩ := htarget t rfl
      simp only [Post.isAt, Bool.and_eq_true, beq_iff_eq] at hat
      exact ⟨⟨q, hq, hat.1⟩, haway hne⟩
  | deletePost id auth =>
    rw [MarkCall.handler, exec_withoutReply_snd, Feedbase.deletePost]
    by_cases howner : auth.role ≠ .owner
    · rw [if_pos howner]
      exact .inl rfl
    rw [if_neg howner, exec_query_bind]
    cases (getPlanLimits ((auth.tenantId.map (tenantPlan w.db)).getD "free")).deleteFeedback with
    | false => exact .inl rfl
    | true =>
      rw [Bool.not_true, if_neg Bool.false_ne_true, db_deletePostAt]
      by_cases hfails : w.fails .postsDelete = true
      · exact .inl (if_pos hfails)
      · exact .inr (.inr ⟨_, if_neg hfails⟩)
  | deleteWorkspacePost tenantId postId =>
    rw [MarkCall.handler, exec_withoutReply_snd, Feedbase.deleteWorkspacePost, db_deletePostAt]
    by_cases hfails : w.fails .postsDelete = true
    · exact .inl (if_pos hfails)
    · exact .inr (.inr ⟨_, if_neg hfails⟩)
  | deletePosts p =>
    rw [MarkCall.handler, exec_withoutReply_snd, exec_deletePosts]
    by_cases hfails : w.fails .postsDelete = true
    · rw [if_pos hfails]
      exact .inl rfl
    · rw [if_neg hfails]
      exact .inr (.inr ⟨_, rfl⟩)

theorem Marks.step (h : Marks w.db)
    (hstep : MarkStep (fun db call => call.LeadsAway db) w w') : Marks w'.db := by
  obtain ⟨u, call, hposts, haway, rfl⟩ := hstep
  have hu : Marks u.db := h.congr hposts
  rcases call.db_cases u with hsame | ⟨T, id, target, ⟨p, hp, hat⟩, htarget, hmarked⟩ | ⟨f, hpruned⟩
  · rw [hsame]
    exact hu
  · rw [hmarked]
    exact hu.markDuplicate hp hat (htarget haway)
  · rw [hpruned]
    exact hu.prune f

/-- In every run whose calls lead away, the marks end. -/
theorem marksEnd_of_run (h : ∀ p ∈ w.db.posts, p.duplicateOfPostId = none)
    (hrun : Relation.ReflTransGen (MarkStep fun db call => call.LeadsAway db) w w') :
    MarksEnd w'.db := by
  have hmarks : Marks w'.db := by
    induction hrun with
    | refl => exact .of_unmarked h
    | tail _ hstep ih => exact ih.step hstep
  exact hmarks.marksEnd

/-! ### A circle of two -/

def shade (title : String) : Post where
  id := 1
  tenantId := 1
  title := title
  description := ""
  createdAt := 0

/-- Two posts, and no marks. -/
def twoShades : World where
  db :=
    { posts := ((Sql.Table.single (shade "Dark mode")).insert? fun id =>
        { shade "Night theme" with id := id }).getD .empty }

def moderator : AuthData where
  id := 1
  tenantId := some 1
  role := .owner
  email := "ada@shade.co"

/-- After the first post is marked as a duplicate of the second. -/
def markedOnce : World :=
  ((MarkCall.setPostDuplicate 1 (some 2) moderator).handler.exec twoShades).2

/-- And after the second one is marked as a duplicate of the first. -/
def markedTwice : World :=
  ((MarkCall.setPostDuplicate 2 (some 1) moderator).handler.exec markedOnce).2

theorem marksEnd_markedOnce :
    MarksEnd markedOnce.db ∧ markedOnce.db.posts.rows.map (·.duplicateOfPostId) = [some 2, none] := by
  have hplain : ∀ p ∈ twoShades.db.posts.rows, p.duplicateOfPostId = none := by decide +kernel
  have haway : ¬ Chain.Leads twoShades.db.markOf 2 1 := by
    intro hleads
    have hstop : twoShades.db.markOf 2 = none := by decide +kernel
    exact absurd (hleads.eq_of_stop hstop) (by decide)
  refine ⟨marksEnd_of_run (w := twoShades) hplain (.single ?_), by decide +kernel⟩
  exact ⟨twoShades, .setPostDuplicate 1 (some 2) moderator, rfl, fun _ => haway, rfl⟩

/-- Each of two posts is marked as a duplicate of the other. -/
theorem two_posts_in_circle : ∃ w w', (∀ p ∈ w.db.posts, p.duplicateOfPostId = none) ∧
    Relation.ReflTransGen (MarkStep fun _ _ => True) w w' ∧ ¬ MarksEnd w'.db := by
  have hplain : ∀ p ∈ twoShades.db.posts.rows, p.duplicateOfPostId = none := by decide +kernel
  have hfirst : MarkStep (fun _ _ => True) twoShades markedOnce :=
    ⟨twoShades, .setPostDuplicate 1 (some 2) moderator, rfl, trivial, rfl⟩
  have hsecond : MarkStep (fun _ _ => True) markedOnce markedTwice :=
    ⟨markedOnce, .setPostDuplicate 2 (some 1) moderator, rfl, trivial, rfl⟩
  refine ⟨twoShades, markedTwice, hplain, (Relation.ReflTransGen.single hfirst).tail hsecond,
    fun hends => ?_⟩
  have hpost : (shade "Dark mode").markedAs (some 2) ∈ markedTwice.db.posts.rows := by
    decide +kernel
  obtain ⟨q, hq, hchain, hunmarked⟩ := hends _ hpost
  have hlink : markedTwice.db.markOf 1 = some 2 := by decide +kernel
  have hback : markedTwice.db.markOf 2 = some 1 := by decide +kernel
  refine Chain.not_ends_of_cycle hlink (.single hback) ⟨q.id, hchain, ?_⟩
  rw [Db.markOf_id hq, hunmarked]

end Feedbase
