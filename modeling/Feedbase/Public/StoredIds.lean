import Feedbase.Public.Isolation

/-!
# Ids that are stored as they are given

A member's comment, a label, a new item of the roadmap and an item that moves name a post, a
comment, a tag or a column by its id. A foreign key asks that the row exists. Nothing asks whose
it is: the request succeeds either way, and if the row is of another workspace then a key leads
there from now on.

## Main definitions

* `BoardRequest.StoresIds` — the four requests

## Main results

* `keeps_iff_namesOwn` — when the keys still stay within their workspaces
-/

namespace Feedbase

open Sql Sql.Table

/-- The request stores an id that it does not look up. -/
def BoardRequest.StoresIds : BoardRequest → Prop
  | .createComment .. | .addTagToPost .. | .roadmap _ (.addItemToRoadmap ..)
  | .roadmap _ (.updateRoadmapItem ..) => True
  | _ => False

variable {w w' : World} {T id : Nat}

/-! ### What is stored -/

theorem exec_withoutReply_ok {α : Type} {q : Handler α} (h : (withoutReply q).exec w = (.ok (), w')) :
    ∃ a, q.exec w = (.ok a, w') := by
  obtain ⟨a, u, hq, hrest⟩ := Prog.exec_bind_ok_iff.mp h
  cases hrest
  exact ⟨a, hq⟩

theorem exec_boardStatement_ok {α : Type} {f : Db → Option (α × Db)} {a : α}
    (h : (boardStatement f).exec w = (.ok a, w')) :
    ∃ db, f w.db = some (a, db) ∧ w' = { w with db := db } := by
  rw [boardStatement, Prog.exec_attempt] at h
  cases hf : f w.db with
  | none =>
    rw [hf] at h
    cases h
  | some r =>
    rw [hf] at h
    cases h
    exact ⟨r.2, rfl, rfl⟩

/-- The status that a post takes over from a column is all that changes. -/
theorem syncedStatus_cases (db : Db) (T postId columnId : Nat) :
    db.syncedStatus T postId columnId = db ∨
      ∃ s, db.syncedStatus T postId columnId = db.setStatus T postId s := by
  unfold Db.syncedStatus
  split
  · exact .inl rfl
  · split
    · exact .inr ⟨_, rfl⟩
    · exact .inl rfl

/-- A comment is stored under the post and the comment that the request names, and these exist. -/
theorem stored_createComment {data : CommentData} {auth : AuthData} {reply : Reply Nat}
    (h : (createComment data auth).exec w = (.ok reply, w')) :
    ∃ asOwner p body comments U, data.postId = some p ∧ auth.tenantId = some U ∧
      (data.row auth asOwner p body).refersInto U w.db = true ∧
      w.db.comments.insert? ((data.row auth asOwner p body).row U w.now) = some comments ∧
      w'.db = { w.db with comments := comments } := by
  have hreads : Prog.Reads (asOwnerOf auth data.ownerMode) :=
    .ite (.bind (reads_query _) fun _ => .pure _) (.pure _)
  obtain ⟨asOwner, u, hfirst, hrest⟩ := Prog.exec_bind_ok_iff.mp h
  obtain rfl : u = w := by
    have hsame := hreads.exec_snd w
    rwa [hfirst] at hsame
  have hrun := Prog.exec_tryCatch_ok (exec_failWith _) hrest
  split at hrun
  · rename_i p body hpost _
    obtain ⟨id, v, hinsert, hreply⟩ := Prog.exec_bind_ok_iff.mp hrun
    cases hreply
    obtain ⟨U, comments, htenant, hrefers, hins, -, rfl⟩ := exec_insertComment_ok hinsert
    exact ⟨asOwner, p, body, comments, U, hpost, htenant, hrefers, hins, rfl⟩
  · cases hrun

theorem stored_addTagToPost {postId tagId : Nat} {auth : AuthData} {reply : Reply Unit}
    (h : (addTagToPost postId tagId auth).exec w = (.ok reply, w')) :
    ∃ U labels, auth.tenantId = some U ∧ w.db.canLabel U postId tagId = true ∧
      w.db.postTags.insert? (Db.newLabel U postId tagId) = some labels ∧
      w'.db = { w.db with postTags := labels } := by
  have hrun := Prog.exec_tryCatch_ok (fun e u => by cases e <;> exact ⟨_, rfl⟩) h
  cases htenant : auth.tenantId with
  | none =>
    rw [htenant] at hrun
    cases hrun
  | some U =>
    rw [htenant] at hrun
    obtain ⟨⟨⟩, u, hlabel, hreply⟩ := Prog.exec_bind_ok_iff.mp hrun
    cases hreply
    rw [Prog.exec_atomic] at hlabel
    by_cases hcan : w.db.canLabel U postId tagId = false
    · rw [if_pos hcan] at hlabel
      cases hlabel
    · rw [if_neg hcan] at hlabel
      refine ⟨U, ?_⟩
      cases hins : w.db.postTags.insert? (Db.newLabel U postId tagId) with
      | none =>
        rw [Db.label, hins] at hlabel
        cases hlabel
      | some labels =>
        rw [Db.label, hins] at hlabel
        cases hlabel
        exact ⟨labels, rfl, Bool.eq_true_of_not_eq_false hcan, rfl, rfl⟩

theorem stored_addItemToRoadmap {postId columnId : Nat} {sortOrder : Option Int}
    {date : Option Time} {reply : Reply Nat}
    (h : (addItemToRoadmap postId columnId sortOrder date T).exec w = (.ok reply, w')) :
    (w.db.posts.byId postId).isSome = true ∧ (w.db.roadmapColumns.byId columnId).isSome = true ∧
      ∃ items, (∃ i ∈ items, i.tenantId = T ∧ i.postId = postId ∧ i.roadmapColumnId = columnId) ∧
        w'.db = Db.syncedStatus { w.db with roadmapItems := items } T postId columnId := by
  have hrun := Prog.exec_tryCatch_ok (exec_failWith _) h
  obtain ⟨n, u, hinsert, hrest⟩ := Prog.exec_bind_ok_iff.mp hrun
  obtain ⟨⟨⟩, v, hsync, hreply⟩ := Prog.exec_bind_ok_iff.mp hrest
  cases hreply
  rw [exec_syncPostStatusToColumn] at hsync
  cases hsync
  obtain ⟨db, hdb, rfl⟩ := exec_boardStatement_ok hinsert
  split at hdb
  · cases hdb
  · rename_i hexist
    obtain ⟨items, hins, heq⟩ := Option.map_eq_some_iff.mp hdb
    obtain ⟨-, rfl⟩ := Prod.mk.inj heq
    obtain ⟨hpost, hcolumn⟩ := not_or.mp (not_or.mp hexist).2
    refine ⟨?_, ?_, items, ⟨_, (mem_insert? hins).mpr (.inr rfl), rfl, rfl, rfl⟩, rfl⟩
    · rw [Bool.not_eq_true, Option.isNone_eq_false_iff] at hpost
      exact hpost
    · rw [Bool.not_eq_true, Option.isNone_eq_false_iff] at hcolumn
      exact hcolumn

theorem stored_updateRoadmapItem {patch : ItemPatch} {reply : Reply Unit}
    (h : (updateRoadmapItem id patch T).exec w = (.ok reply, w')) :
    ∃ i ∈ w.db.roadmapItems, i.id = id ∧ i.tenantId = T ∧
      (∀ c, patch.roadmapColumnId = some c → (w.db.roadmapColumns.byId c).isSome = true) ∧
      (w'.db = w.db.patchItem T id patch ∨
        ∃ s, w'.db = (w.db.patchItem T id patch).setStatus T i.postId s) := by
  unfold updateRoadmapItem at h
  split at h
  · cases h
  have hrun := Prog.exec_tryCatch_ok (exec_failWith _) h
  obtain ⟨found, u, hpatch, hrest⟩ := Prog.exec_bind_ok_iff.mp hrun
  obtain ⟨db, hdb, rfl⟩ := exec_boardStatement_ok hpatch
  split at hdb
  · cases hdb
  · rename_i hexist
    obtain ⟨hfound, rfl⟩ := Prod.mk.inj (Option.some.inj hdb)
    cases hitem : w.db.itemOf T id with
    | none =>
      rw [hitem] at hfound
      subst hfound
      cases hrest
    | some i =>
      obtain ⟨hi, hid, htenant⟩ := itemOf_eq_some hitem
      rw [hitem] at hfound
      subst hfound
      refine ⟨i, hi, hid, htenant, fun c hc => ?_, ?_⟩
      · -- the column is a foreign key, so the update itself would have failed
        by_contra hnone
        refine hexist ⟨by rw [hitem]; rfl, ?_⟩
        rw [hc, Option.any_some, Option.isNone_iff_eq_none]
        simpa using hnone
      · rw [if_neg (by simp)] at hrest
        cases hcolumn : patch.roadmapColumnId with
        | none =>
          rw [hcolumn] at hrest
          cases hrest
          exact .inl rfl
        | some c =>
          -- the item read again is the one that was patched
          have hstill : ∃ i', (w.db.patchItem T id patch).itemOf T id = some i' ∧
              i'.postId = i.postId := itemOf_patchItem hitem
          obtain ⟨i', hitem', hpost⟩ := hstill
          rw [hcolumn] at hrest
          dsimp only at hrest
          rw [exec_query_bind, hitem'] at hrest
          obtain ⟨⟨⟩, v, hsync, hreply⟩ := Prog.exec_bind_ok_iff.mp hrest
          cases hreply
          rw [exec_syncPostStatusToColumn] at hsync
          cases hsync
          rcases syncedStatus_cases (w.db.patchItem T id patch) T i'.postId c with hsame | ⟨s, hset⟩
          · exact .inl hsame
          · rw [hpost] at hset
            exact .inr ⟨s, hpost ▸ hset⟩

/-! ### What it says of the ids -/

theorem namesOwn_of_createComment {data : CommentData} {auth : AuthData} {reply : Reply Nat}
    (h : (createComment data auth).exec w = (.ok reply, w')) (hown : OwnReferences w'.db) :
    ∀ U, auth.tenantId = some U → data.RefersToOwn U w.db := by
  intro U hU
  obtain ⟨asOwner, p, body, comments, V, hpost, htenant, hrefers, hins, hdb⟩ := stored_createComment h
  obtain rfl : V = U := Option.some.inj (htenant.symm.trans hU)
  rw [hdb] at hown
  have hnew := (mem_insert? hins).mpr (.inr rfl)
  simp only [NewComment.refersInto, Bool.and_eq_true, Option.all_eq_true] at hrefers
  obtain ⟨⟨⟨-, -⟩, -⟩, hparent⟩ := hrefers
  constructor
  · intro n hn
    obtain rfl : p = n := Option.some.inj (hpost.symm.trans hn)
    exact hown.comments _ hnew _ rfl
  · intro n hn
    obtain ⟨c, hc, rfl⟩ := byId_isSome_iff.mp (hparent n hn)
    exact (hown.parents _ hnew _ hn).of_kept hc ⟨c, (mem_insert? hins).mpr (.inl hc), rfl, rfl⟩

theorem namesOwn_of_addTagToPost {postId tagId : Nat} {auth : AuthData} {reply : Reply Unit}
    (h : (addTagToPost postId tagId auth).exec w = (.ok reply, w')) (hown : OwnReferences w'.db) :
    ∀ U, auth.tenantId = some U → LabelsOwn postId tagId U w.db := by
  intro U hU
  obtain ⟨V, labels, htenant, -, hins, hdb⟩ := stored_addTagToPost h
  obtain rfl : V = U := Option.some.inj (htenant.symm.trans hU)
  rw [hdb] at hown
  have hnew := (mem_insert? hins).mpr (.inr rfl)
  exact ⟨hown.labels _ hnew _ rfl, hown.tags _ hnew _ rfl⟩

/-- A status does not change whose a post is. -/
theorem Belongs.of_setStatus {db : Db} {U n p : Nat} {s : PostStatus}
    (h : (db.setStatus T p s).posts.Belongs U n) (hexists : (db.posts.byId n).isSome = true) :
    db.posts.Belongs U n := by
  obtain ⟨q, hq, rfl⟩ := byId_isSome_iff.mp hexists
  have hset : (if q.id == p && q.tenantId == T then q.withStatus s else q) ∈
      (db.setStatus T p s).posts := by
    rw [Db.setStatus, mem_update]
    exact ⟨q, hq, rfl⟩
  refine h.of_kept hq ⟨_, hset, ?_⟩
  split
  · exact ⟨rfl, rfl⟩
  · exact ⟨rfl, rfl⟩

theorem namesOwn_of_addItemToRoadmap {postId columnId : Nat} {sortOrder : Option Int}
    {date : Option Time} {reply : Reply Nat}
    (h : (addItemToRoadmap postId columnId sortOrder date T).exec w = (.ok reply, w'))
    (hown : OwnReferences w'.db) : PlacesOwn postId columnId T w.db := by
  obtain ⟨hpost, hcolumn, items, ⟨i, hi, rfl, rfl, rfl⟩, hdb⟩ := stored_addItemToRoadmap h
  rw [hdb] at hown
  rcases syncedStatus_cases { w.db with roadmapItems := items } i.tenantId i.postId i.roadmapColumnId
    with hsame | ⟨s, hset⟩
  · rw [hsame] at hown
    exact ⟨hown.items i hi _ rfl, hown.columns i hi _ rfl⟩
  · rw [hset] at hown
    exact ⟨Belongs.of_setStatus (hown.items i hi _ rfl) hpost, hown.columns i hi _ rfl⟩

theorem namesOwn_of_updateRoadmapItem {patch : ItemPatch} {reply : Reply Unit}
    (h : (updateRoadmapItem id patch T).exec w = (.ok reply, w')) (hown : OwnReferences w'.db) :
    patch.MovesToOwn T w.db := by
  obtain ⟨i, hi, rfl, rfl, -, hcases⟩ := stored_updateRoadmapItem h
  intro c hc
  have hmoved : patch.apply i ∈ (w.db.patchItem i.tenantId i.id patch).roadmapItems := by
    rw [Db.patchItem, mem_update]
    exact ⟨i, hi, by simp⟩
  have hcolumn : (patch.apply i).roadmapColumnId = c := by
    rw [ItemPatch.apply, hc]
    rfl
  have hbelongs : w.db.roadmapColumns.Belongs i.tenantId (patch.apply i).roadmapColumnId := by
    rcases hcases with hsame | ⟨s, hset⟩
    · rw [hsame] at hown
      exact hown.columns _ hmoved _ rfl
    · rw [hset] at hown
      exact hown.columns _ hmoved _ rfl
  rwa [hcolumn] at hbelongs

/-! ### Requests that run alone -/

theorem neverWaits_boardStatement {α : Type} (f : Db → Option (α × Db)) :
    (boardStatement f).NeverWaits := .attempt _ _

theorem neverWaits_failWith {α : Type} (key : String) (e : Failure) :
    (failWith key e : Handler α).NeverWaits := by
  cases e with
  | rejected code key' => trivial
  | duplicate | belowMinimum | error => trivial

theorem neverWaits_syncPostStatusToColumn (T postId columnId : Nat) :
    (syncPostStatusToColumn T postId columnId).NeverWaits := by
  refine .ite (.pure _) (.bind (.read _) fun column => ?_)
  split
  · exact .atomic _
  · exact .pure _

theorem BoardRequest.neverWaits_handler {r : BoardRequest} (hr : r.StoresIds) :
    r.handler.NeverWaits := by
  cases r with
  | createComment data auth =>
    refine .bind (.bind (.ite (.bind (.read _) fun _ => .pure _) (.pure _)) fun asOwner =>
      .tryCatch ?_ (neverWaits_failWith _)) fun _ => .pure _
    split
    · exact .bind (.attempt _ _) fun _ => .pure _
    · exact .throw _
  | addTagToPost postId tagId auth =>
    refine .bind (.tryCatch ?_ fun e => ?_) fun _ => .pure _
    · cases auth.tenantId with
      | none => exact .throw _
      | some T => exact .bind (.atomic _) fun _ => .pure _
    · cases e with
      | rejected code key => trivial
      | duplicate | belowMinimum | error => trivial
  | roadmap T request =>
    cases request with
    | addItemToRoadmap postId columnId sortOrder date =>
      exact .bind (.tryCatch (.bind (neverWaits_boardStatement _) fun _ =>
        .bind (neverWaits_syncPostStatusToColumn _ _ _) fun _ => .pure _) (neverWaits_failWith _))
          fun _ => .pure _
    | updateRoadmapItem id patch =>
      refine .bind (.ite (.throw _) (.tryCatch (.bind (neverWaits_boardStatement _) fun found =>
        .ite (.throw _) ?_) (neverWaits_failWith _))) fun _ => .pure _
      split
      · exact .pure _
      · refine .bind (.read _) fun item => ?_
        cases item with
        | none => exact .pure _
        | some i => exact .bind (neverWaits_syncPostStatusToColumn _ _ _) fun _ => .pure _
    | _ => exact hr.elim
  | _ => exact hr.elim

/-- The four requests succeed wherever the rows exist. The keys still stay within their workspaces
after one that has succeeded if and only if the rows are the caller's own. -/
theorem keeps_iff_namesOwn {r : BoardRequest} (hr : r.StoresIds) (h : OwnReferences w.db)
    (hok : r.handler.exec w = (.ok (), w')) : OwnReferences w'.db ↔ r.NamesOwn w.db := by
  constructor
  · intro hown
    cases r with
    | createComment data auth =>
      obtain ⟨reply, hrun⟩ := exec_withoutReply_ok hok
      exact namesOwn_of_createComment hrun hown
    | addTagToPost postId tagId auth =>
      obtain ⟨reply, hrun⟩ := exec_withoutReply_ok hok
      exact namesOwn_of_addTagToPost hrun hown
    | roadmap T request =>
      cases request with
      | addItemToRoadmap postId columnId sortOrder date =>
        obtain ⟨reply, hrun⟩ := exec_withoutReply_ok hok
        exact namesOwn_of_addItemToRoadmap hrun hown
      | updateRoadmapItem id patch =>
        obtain ⟨reply, hrun⟩ := exec_withoutReply_ok hok
        exact namesOwn_of_updateRoadmapItem hrun hown
      | _ => exact hr.elim
    | _ => exact hr.elim
  · intro hnamed
    have hkept := Acts.inv_exec r.acts_handler (BoardRequest.neverWaits_handler hr) h hnamed
    rw [hok] at hkept
    exact hkept

/-- What a member of the depot says about the post of the corner shop. -/
def depotSpeaks : BoardRequest := .createComment { postId := some 1, body := some "No." } depotAuth

theorem keeps_iff_depotSpeaks : ∃ w', depotSpeaks.handler.exec twoBoards = (.ok (), w') ∧
    ¬ OwnReferences w'.db := by
  have howned : OwnReferences twoBoards.db := by decide
  have hnot : ¬ depotSpeaks.NamesOwn twoBoards.db := by decide
  refine ⟨(depotSpeaks.handler.exec twoBoards).2, rfl, fun hown => hnot ?_⟩
  exact (keeps_iff_namesOwn (r := depotSpeaks) trivial howned rfl).mp hown

end Feedbase
