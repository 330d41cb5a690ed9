import Feedbase.Server

/-!
# Post status and roadmap position

A roadmap column whose key is a post status stands for that status. Moving an item into such
a column sets the status of its post; changing a status moves the post's item into the column
of the new status, if there is one. If there is none, the item stays where it is. The database
passes over the case of a key when it looks for the column, the code does not.

## Main definitions

* `syncPostStatusToColumn`, `resetPostStatusToOpen`, `syncRoadmapItemToStatus`
* `RoadmapCall`, `roadmapHandler` — the requests that act on the roadmap
* `StatusAgrees` — no item is in the column of a status other than its post's
* `RoadmapCall.InStep` — a status is not set past the columns

## Main results

* `statusAgrees_of_run` — statuses agree in every run of requests that are in step
* `closed_post_stays_planned` — a status without a column leaves the item behind
-/

namespace Feedbase

variable {db : Db} {w w' : World} {T : Nat}

/-! ### Statuses and column keys -/

/-- The text of a status, as stored in `posts.status`. -/
def PostStatus.text : PostStatus → String
  | .open => "open"
  | .planned => "planned"
  | .inProgress => "in_progress"
  | .completed => "completed"
  | .closed => "closed"
  | .rejected => "rejected"

/-- `POST_STATUSES`, and `VALID_STATUSES` of the handlers. -/
def POST_STATUSES : List PostStatus :=
  [.open, .planned, .inProgress, .completed, .closed, .rejected]

/-- The status a column key or a request names. -/
def statusFromColumnKey (key : String) : Option PostStatus :=
  POST_STATUSES.find? fun s => s.text == key

theorem statusFromColumnKey_eq_some_iff {key : String} {s : PostStatus} :
    statusFromColumnKey key = some s ↔ key = s.text := by
  constructor
  · intro h
    have hkey := List.find?_some h
    exact (beq_iff_eq.mp hkey).symm
  · rintro rfl
    cases s <;> decide

/-! ### Keys as the database compares them -/

theorem Collation.same_refl (C : Collation) (a : String) : C.same a a = true :=
  beq_self_eq_true _

/-- The statuses differ for every collation. -/
theorem Collation.status_eq (C : Collation) {s t : PostStatus}
    (h : C.same s.text t.text = true) : s = t := by
  have hplain : ∀ s : PostStatus, C.weights s.text = s.text := fun s =>
    C.plain _ (by cases s <;> decide)
  have htext : s.text = t.text := by
    have hweights := beq_iff_eq.mp h
    rwa [hplain, hplain] at hweights
  have hkey := statusFromColumnKey_eq_some_iff.mpr htext
  rw [statusFromColumnKey_eq_some_iff.mpr rfl] at hkey
  exact Option.some.inj hkey

/-! ### Statements -/

def Post.withStatus (s : PostStatus) (p : Post) : Post := { p with status := s }

theorem Post.keyless_withStatus (s : PostStatus) : Sql.Table.Keyless (Post.withStatus s) :=
  ⟨fun _ => rfl, fun _ _ => rfl⟩

def RoadmapItem.movedTo (columnId : Nat) (i : RoadmapItem) : RoadmapItem :=
  { i with roadmapColumnId := columnId }

theorem RoadmapItem.keyless_movedTo (columnId : Nat) :
    Sql.Table.Keyless (RoadmapItem.movedTo columnId) := ⟨fun _ => rfl, fun _ _ => rfl⟩

namespace Db

/-- `UPDATE posts SET status = ? WHERE id = ? AND tenant_id = ?`. -/
def setStatus (db : Db) (tenantId postId : Nat) (s : PostStatus) : Db :=
  { db with
    posts := db.posts.update (fun p => p.id == postId && p.tenantId == tenantId)
      (Post.withStatus s) (Post.keyless_withStatus s) }

/-- `UPDATE roadmap_items SET roadmap_column_id = ? WHERE post_id = ? AND tenant_id = ?`. -/
def moveItemOf (db : Db) (tenantId postId columnId : Nat) : Db :=
  { db with
    roadmapItems := db.roadmapItems.update (fun i => i.postId == postId && i.tenantId == tenantId)
      (RoadmapItem.movedTo columnId) (RoadmapItem.keyless_movedTo columnId) }

/-- `DELETE FROM roadmap_columns WHERE id = ? AND tenant_id = ?`, with the items in it. -/
def deleteColumn (db : Db) (tenantId id : Nat) : Db :=
  { db with
    roadmapColumns := db.roadmapColumns.delete fun c => c.id == id && c.tenantId == tenantId
    roadmapItems := db.roadmapItems.delete fun i => db.roadmapColumns.rows.any fun c =>
      c.id == id && c.tenantId == tenantId && c.id == i.roadmapColumnId }

/-- `DELETE FROM roadmap_items WHERE id = ? AND tenant_id = ?`. -/
def deleteItem (db : Db) (tenantId id : Nat) : Db :=
  { db with
    roadmapItems := db.roadmapItems.delete fun i => i.id == id && i.tenantId == tenantId }

/-- The column with the id. -/
def columnOf (db : Db) (tenantId columnId : Nat) : Option RoadmapColumn :=
  db.roadmapColumns.rows.find? fun c => c.id == columnId && c.tenantId == tenantId

/-- The item with the id. -/
def itemOf (db : Db) (tenantId id : Nat) : Option RoadmapItem :=
  db.roadmapItems.rows.find? fun i => i.id == id && i.tenantId == tenantId

/-- `SELECT id FROM roadmap_columns WHERE column_key = ? AND tenant_id = ? LIMIT 1`. -/
def statusColumn (db : Db) (collation : Collation) (tenantId : Nat) (s : PostStatus) :
    Option RoadmapColumn :=
  db.roadmapColumns.rows.find? fun c =>
    collation.same c.columnKey s.text && c.tenantId == tenantId

/-- The `UNIQUE` index has a column of the workspace with the key. -/
def hasColumn (db : Db) (collation : Collation) (tenantId : Nat) (columnKey : String) : Bool :=
  db.roadmapColumns.rows.any fun c =>
    c.tenantId == tenantId && collation.same c.columnKey columnKey

end Db

/-- A failing statement of the tables of the roadmap. -/
def boardStatement {α : Type} (f : Db → Option (α × Db)) : Handler α :=
  Prog.attempt .error fun w => (f w.db).map fun r => (r.1, { w with db := r.2 })

/-! ### The helpers -/

/-- If the target column maps to a status, set the post's status to it. -/
def syncPostStatusToColumn (tenantId postId columnId : Nat) : Handler Unit :=
  if columnId = 0 ∨ postId = 0 then pure ()
  else do
    let column ← query fun db => db.columnOf tenantId columnId
    match column.bind fun c => statusFromColumnKey c.columnKey with
    | some status => update fun db => db.setStatus tenantId postId status
    | none => pure ()

/-- Removing a post from the roadmap returns it to the Open state. -/
def resetPostStatusToOpen (tenantId postId : Nat) : Handler Unit :=
  if postId = 0 then pure ()
  else update fun db => db.setStatus tenantId postId .open

/-- If a column matches the new status, move the post's roadmap item into it. -/
def syncRoadmapItemToStatus (tenantId postId : Nat) (status : PostStatus) : Handler Unit := do
  let column ← Prog.read fun w => w.db.statusColumn w.collation tenantId status
  match column with
  | none => pure ()
  | some c => update fun db => db.moveItemOf tenantId postId c.id

/-! ### The requests -/

def createRoadmapColumn (name columnKey : String) (sortOrder : Option Int) (tenantId : Nat) :
    Handler (Reply Nat) :=
  tryCatch (do
    let id ← Prog.attempt .error fun w =>
      if (w.db.tenants.byId tenantId).isNone ∨ w.db.hasColumn w.collation tenantId columnKey then
        none
      else
        (w.db.roadmapColumns.insert? fun id =>
          ({ id, tenantId, name, columnKey, sortOrder := sortOrder.getD 0 } : RoadmapColumn)).map
            fun columns =>
              (w.db.roadmapColumns.next, { w with db := { w.db with roadmapColumns := columns } })
    resolve 201 "roadmap_column_created_successfully" id)
      (failWith "failed_to_create_roadmap_column")

def deleteRoadmapColumn (id tenantId : Nat) : Handler (Reply Unit) :=
  tryCatch (do
    let found ← Prog.atomic fun w =>
      (.ok (w.db.columnOf tenantId id).isSome, { w with db := w.db.deleteColumn tenantId id })
    if found = false then reject 404 "roadmap_column_not_found"
    else resolve 200 "roadmap_column_deleted_successfully" ())
      (failWith "failed_to_delete_roadmap_column")

/-- The workspace, the post and the column are foreign keys. -/
def addItemToRoadmap (postId roadmapColumnId : Nat) (sortOrder : Option Int)
    (targetReleaseDate : Option Time) (tenantId : Nat) : Handler (Reply Nat) :=
  tryCatch (do
    let id ← boardStatement fun db =>
      if (db.tenants.byId tenantId).isNone ∨ (db.posts.byId postId).isNone ∨
          (db.roadmapColumns.byId roadmapColumnId).isNone then none
      else
        (db.roadmapItems.insert? fun id =>
          ({ id, tenantId, postId, roadmapColumnId, sortOrder := sortOrder.getD 0,
              targetReleaseDate } : RoadmapItem)).map fun items =>
            (db.roadmapItems.next, { db with roadmapItems := items })
    syncPostStatusToColumn tenantId postId roadmapColumnId
    resolve 201 "roadmap_item_added_successfully" id)
      (failWith "failed_to_add_roadmap_item")

/-- The fields of an item that were supplied. -/
structure ItemPatch where
  roadmapColumnId : Option Nat := none
  sortOrder : Option Int := none
  targetReleaseDate : Option (Option Time) := none
  deriving DecidableEq

/-- `SET` the fields supplied. -/
def ItemPatch.apply (patch : ItemPatch) (i : RoadmapItem) : RoadmapItem :=
  { i with
    roadmapColumnId := patch.roadmapColumnId.getD i.roadmapColumnId
    sortOrder := patch.sortOrder.getD i.sortOrder
    targetReleaseDate := patch.targetReleaseDate.getD i.targetReleaseDate }

theorem ItemPatch.keyless_apply (patch : ItemPatch) : Sql.Table.Keyless patch.apply :=
  ⟨fun _ => rfl, fun _ _ => rfl⟩

/-- `UPDATE roadmap_items SET … WHERE id = ? AND tenant_id = ?`. -/
def Db.patchItem (db : Db) (tenantId id : Nat) (patch : ItemPatch) : Db :=
  { db with
    roadmapItems := db.roadmapItems.update (fun i => i.id == id && i.tenantId == tenantId)
      patch.apply patch.keyless_apply }

def updateRoadmapItem (id : Nat) (patch : ItemPatch) (tenantId : Nat) : Handler (Reply Unit) :=
  if patch = {} then reject 400 "failed_to_update_roadmap_item"
  else
    tryCatch (do
      let found ← boardStatement fun db =>
        if (db.itemOf tenantId id).isSome ∧
            patch.roadmapColumnId.any (fun c => (db.roadmapColumns.byId c).isNone) then none
        else some ((db.itemOf tenantId id).isSome, db.patchItem tenantId id patch)
      if found = false then reject 404 "roadmap_item_not_found"
      else
        -- an item that moves takes the status of its post along
        match patch.roadmapColumnId with
        | none => resolve 200 "roadmap_item_updated_successfully" ()
        | some columnId => do
          let item ← query fun db => db.itemOf tenantId id
          match item with
          | none => resolve 200 "roadmap_item_updated_successfully" ()
          | some i => do
            syncPostStatusToColumn tenantId i.postId columnId
            resolve 200 "roadmap_item_updated_successfully" ())
        (failWith "failed_to_update_roadmap_item")

def removeItemFromRoadmap (id tenantId : Nat) : Handler (Reply Unit) :=
  tryCatch (do
    let item ← query fun db => db.itemOf tenantId id
    let found ← Prog.atomic fun w =>
      (.ok (w.db.itemOf tenantId id).isSome, { w with db := w.db.deleteItem tenantId id })
    if found = false then reject 404 "roadmap_item_not_found"
    else
      match item with
      | none => resolve 200 "roadmap_item_removed_successfully" ()
      | some i => do
        resetPostStatusToOpen tenantId i.postId
        resolve 200 "roadmap_item_removed_successfully" ())
      (failWith "failed_to_remove_roadmap_item")

/-- Set a post's status and keep the roadmap in sync. -/
def changePostStatus (okKey failKey : String) (id : Nat) (newStatus : String) (tenantId : Nat) :
    Handler (Reply Unit) :=
  match statusFromColumnKey newStatus with
  | none => reject 400 "invalid_status"
  | some status =>
    tryCatch (do
      let found ← Prog.atomic fun w =>
        (.ok (w.db.posts.rows.any fun p => p.id == id && p.tenantId == tenantId),
          { w with db := w.db.setStatus tenantId id status })
      if found = false then reject 404 "post_not_found"
      else
        syncRoadmapItemToStatus tenantId id status
        resolve 200 okKey ()) (failWith failKey)

def updatePostStatus : Nat → String → Nat → Handler (Reply Unit) :=
  changePostStatus "post_status_updated_successfully" "failed_to_update_post_status"

/-- The admin panel's `setPostStatus`. -/
def setPostStatus : Nat → String → Nat → Handler (Reply Unit) :=
  changePostStatus "post_updated" "internal_server_error"

/-! ### What the helpers do -/

/-- The database after `syncPostStatusToColumn`. -/
def Db.syncedStatus (db : Db) (tenantId postId columnId : Nat) : Db :=
  if columnId = 0 ∨ postId = 0 then db
  else
    match (db.columnOf tenantId columnId).bind fun c => statusFromColumnKey c.columnKey with
    | some status => db.setStatus tenantId postId status
    | none => db

/-- The database after `syncRoadmapItemToStatus`. -/
def Db.syncedItem (db : Db) (collation : Collation) (tenantId postId : Nat) (status : PostStatus) :
    Db :=
  match db.statusColumn collation tenantId status with
  | none => db
  | some c => db.moveItemOf tenantId postId c.id

theorem exec_syncPostStatusToColumn (T p c : Nat) (w : World) :
    (syncPostStatusToColumn T p c).exec w =
      (.ok (), { w with db := w.db.syncedStatus T p c }) := by
  unfold syncPostStatusToColumn Db.syncedStatus
  split
  · rfl
  · rw [exec_query_bind]
    cases (w.db.columnOf T c).bind fun c => statusFromColumnKey c.columnKey with
    | none => rfl
    | some s => rfl

theorem exec_syncRoadmapItemToStatus (T p : Nat) (s : PostStatus) (w : World) :
    (syncRoadmapItemToStatus T p s).exec w =
      (.ok (), { w with db := w.db.syncedItem w.collation T p s }) := by
  unfold syncRoadmapItemToStatus Db.syncedItem
  rw [Prog.exec_read_bind]
  cases w.db.statusColumn w.collation T s with
  | none => rfl
  | some c => rfl

/-! ### Statuses that agree -/

/-- The item's post has the status of the item's column. -/
def RoadmapItem.Agrees (db : Db) (i : RoadmapItem) : Prop :=
  ∀ c ∈ db.roadmapColumns, c.id = i.roadmapColumnId →
    ∀ s, statusFromColumnKey c.columnKey = some s → ∀ p ∈ db.posts, p.id = i.postId → p.status = s

/-- No item is in the column of a status other than its post's. -/
def StatusAgrees (db : Db) : Prop := ∀ i ∈ db.roadmapItems, i.Agrees db

/-- Nor is an item of another post than `p`. -/
def AgreesExcept (p : Nat) (db : Db) : Prop := ∀ i ∈ db.roadmapItems, i.postId ≠ p → i.Agrees db

/-- Everything on the board belongs to one workspace, and ids count from 1. -/
structure OnBoard (T : Nat) (db : Db) : Prop where
  posts : ∀ p ∈ db.posts, p.tenantId = T ∧ 0 < p.id
  columns : ∀ c ∈ db.roadmapColumns, c.tenantId = T ∧ 0 < c.id
  items : ∀ i ∈ db.roadmapItems, i.tenantId = T
  inColumn : ∀ i ∈ db.roadmapItems, ∃ c ∈ db.roadmapColumns, c.id = i.roadmapColumnId
  next : 0 < db.roadmapColumns.next

section

variable {p c : Nat} {s : PostStatus}

theorem mem_posts_setStatus {q : Post} (h : q ∈ (db.setStatus T p s).posts) :
    ∃ q₀ ∈ db.posts, q.id = q₀.id ∧ q.tenantId = q₀.tenantId ∧
      (q₀.id = p → q₀.tenantId = T → q.status = s) ∧ (q₀.id ≠ p → q.status = q₀.status) := by
  rw [Db.setStatus, Sql.Table.mem_update] at h
  obtain ⟨q₀, hq₀, rfl⟩ := h
  refine ⟨q₀, hq₀, ?_⟩
  split
  · rename_i hcond
    simp only [Bool.and_eq_true, beq_iff_eq] at hcond
    exact ⟨rfl, rfl, fun _ _ => rfl, fun hne => absurd hcond.1 hne⟩
  · rename_i hcond
    simp only [Bool.and_eq_true, beq_iff_eq] at hcond
    exact ⟨rfl, rfl, fun hid ht => absurd ⟨hid, ht⟩ hcond, fun _ => rfl⟩

theorem AgreesExcept.of_agrees (h : StatusAgrees db) : AgreesExcept p db := fun i hi _ => h i hi

/-- The items of one post are left to check. -/
theorem AgreesExcept.agrees (h : AgreesExcept p db)
    (hp : ∀ i ∈ db.roadmapItems, i.postId = p → i.Agrees db) : StatusAgrees db := by
  intro i hi
  by_cases hpost : i.postId = p
  · exact hp i hi hpost
  · exact h i hi hpost

theorem AgreesExcept.setStatus (h : AgreesExcept p db) : AgreesExcept p (db.setStatus T p s) := by
  intro i hi hne c hc hid t ht q hq hpost
  obtain ⟨q₀, hq₀, hqid, -, -, hstatus⟩ := mem_posts_setStatus hq
  have hother : q₀.id ≠ p := fun heq => hne (hpost.symm.trans (hqid.trans heq))
  rw [hstatus hother]
  exact h i hi hne c hc hid t ht q₀ hq₀ (hqid.symm.trans hpost)

theorem OnBoard.setStatus (h : OnBoard T db) : OnBoard T (db.setStatus T p s) where
  posts q hq := by
    obtain ⟨q₀, hq₀, hid, htenant, -, -⟩ := mem_posts_setStatus hq
    rw [hid, htenant]
    exact h.posts q₀ hq₀
  columns := h.columns
  items := h.items
  inColumn := h.inColumn
  next := h.next

theorem OnBoard.syncedStatus (h : OnBoard T db) : OnBoard T (db.syncedStatus T p c) := by
  unfold Db.syncedStatus
  split
  · exact h
  · split
    · exact h.setStatus
    · exact h

/-- The column with an id, in a board of one workspace. -/
theorem OnBoard.columnOf (h : OnBoard T db) {col : RoadmapColumn} (hcol : col ∈ db.roadmapColumns) :
    db.columnOf T col.id = some col := by
  cases hfind : db.columnOf T col.id with
  | none =>
    have hnot := List.find?_eq_none.mp hfind col hcol
    simp [(h.columns col hcol).1] at hnot
  | some col' =>
    have hid := List.find?_some hfind
    simp only [Bool.and_eq_true, beq_iff_eq] at hid
    rw [Sql.Table.eq_of_id (List.mem_of_find?_eq_some hfind) hcol hid.1]

/-- With the post's item in a column, the sync makes its status agree. -/
theorem AgreesExcept.syncedStatus (hboard : OnBoard T db) (h : AgreesExcept p db)
    (hin : ∀ i ∈ db.roadmapItems, i.postId = p → i.roadmapColumnId = c) :
    StatusAgrees (db.syncedStatus T p c) := by
  unfold Db.syncedStatus
  split
  · rename_i hzero
    refine h.agrees fun i hi hpost col hcol hid t _ q hq hqid => ?_
    have hcolumn := (hboard.columns col hcol).2
    have hq' := (hboard.posts q hq).2
    rw [hid, hin i hi hpost] at hcolumn
    rw [hqid, hpost] at hq'
    omega
  · cases hstatus : (db.columnOf T c).bind fun c => statusFromColumnKey c.columnKey with
    | none =>
      refine h.agrees fun i hi hpost col hcol hid t ht => ?_
      have hfind := hboard.columnOf hcol
      rw [hid, hin i hi hpost] at hfind
      rw [hfind, Option.bind_some, ht] at hstatus
      cases hstatus
    | some s =>
      refine h.setStatus.agrees fun i hi hpost col hcol hid t ht q hq hqid => ?_
      have hfind := hboard.columnOf hcol
      rw [hid, hin i hi hpost] at hfind
      rw [hfind, Option.bind_some, ht] at hstatus
      cases hstatus
      obtain ⟨q₀, hq₀, hq₀id, -, hset, -⟩ := mem_posts_setStatus hq
      exact hset (hq₀id.symm.trans (hqid.trans hpost)) (hboard.posts q₀ hq₀).1

end

/-! ### What a request does -/

/-- The board is the workspace's own, and its statuses agree. -/
structure InOrder (T : Nat) (db : Db) : Prop where
  onBoard : OnBoard T db
  agrees : StatusAgrees db

section

variable {id p c : Nat} {s : PostStatus} {patch : ItemPatch} {i : RoadmapItem}
  {columns : Sql.Table RoadmapColumn} {items : Sql.Table RoadmapItem}

/-- A new column is empty. -/
theorem InOrder.insertColumn (h : InOrder T db) {mk : Nat → RoadmapColumn}
    {hmk : ∀ n, Sql.Row.id (mk n) = n}
    (hins : db.roadmapColumns.insert? mk hmk = some columns) (htenant : ∀ n, (mk n).tenantId = T) :
    InOrder T { db with roadmapColumns := columns } where
  onBoard :=
    { posts := h.onBoard.posts
      columns := fun col hcol => by
        rcases (Sql.Table.mem_insert? hins).mp hcol with hcol | rfl
        · exact h.onBoard.columns col hcol
        · have hid : (mk db.roadmapColumns.next).id = db.roadmapColumns.next := hmk _
          refine ⟨htenant _, ?_⟩
          rw [hid]
          exact h.onBoard.next
      items := h.onBoard.items
      inColumn := fun i hi => by
        obtain ⟨col, hcol, hid⟩ := h.onBoard.inColumn i hi
        exact ⟨col, (Sql.Table.mem_insert? hins).mpr (.inl hcol), hid⟩
      next := by
        change 0 < columns.next
        rw [Sql.Table.insert?_next hins]
        exact Nat.succ_pos _ }
  agrees := fun i hi col hcol hid => by
    rcases (Sql.Table.mem_insert? hins).mp hcol with hcol | rfl
    · exact h.agrees i hi col hcol hid
    · obtain ⟨old, hold, holdid⟩ := h.onBoard.inColumn i hi
      have hlt : old.id < db.roadmapColumns.next := db.roadmapColumns.id_lt old hold
      have hnew : (mk db.roadmapColumns.next).id = db.roadmapColumns.next := hmk _
      omega

/-- A column goes with its items. -/
theorem InOrder.deleteColumn (h : InOrder T db) : InOrder T (db.deleteColumn T id) where
  onBoard :=
    { posts := h.onBoard.posts
      columns := fun col hcol => h.onBoard.columns col (Sql.Table.mem_delete.mp hcol).1
      items := fun i hi => h.onBoard.items i (Sql.Table.mem_delete.mp hi).1
      inColumn := fun i hi => by
        obtain ⟨hi, hstays⟩ := Sql.Table.mem_delete.mp hi
        obtain ⟨col, hcol, hid⟩ := h.onBoard.inColumn i hi
        refine ⟨col, Sql.Table.mem_delete.mpr ⟨hcol, ?_⟩, hid⟩
        have hnot := List.any_eq_false.mp hstays col hcol
        simpa [hid] using hnot
      next := h.onBoard.next }
  agrees := fun i hi col hcol =>
    h.agrees i (Sql.Table.mem_delete.mp hi).1 col (Sql.Table.mem_delete.mp hcol).1

/-- A post placed in a column takes over its status. -/
theorem InOrder.insertItem (h : InOrder T db) {mk : Nat → RoadmapItem}
    {hmk : ∀ n, Sql.Row.id (mk n) = n} (hins : db.roadmapItems.insert? mk hmk = some items)
    (hnew : ∀ n, (mk n).tenantId = T ∧ (mk n).postId = p ∧ (mk n).roadmapColumnId = c)
    (hcolumn : ∃ col ∈ db.roadmapColumns, col.id = c) :
    InOrder T (Db.syncedStatus { db with roadmapItems := items } T p c) := by
  have hboard : OnBoard T { db with roadmapItems := items } :=
    { posts := h.onBoard.posts
      columns := h.onBoard.columns
      items := fun i hi => by
        rcases (Sql.Table.mem_insert? hins).mp hi with hi | rfl
        · exact h.onBoard.items i hi
        · exact (hnew _).1
      inColumn := fun i hi => by
        rcases (Sql.Table.mem_insert? hins).mp hi with hi | rfl
        · exact h.onBoard.inColumn i hi
        · rw [(hnew _).2.2]
          exact hcolumn
      next := h.onBoard.next }
  have hexcept : AgreesExcept p { db with roadmapItems := items } := by
    intro i hi hne
    rcases (Sql.Table.mem_insert? hins).mp hi with hi | rfl
    · exact h.agrees i hi
    · exact absurd (hnew _).2.1 hne
  refine ⟨hboard.syncedStatus, hexcept.syncedStatus hboard fun i hi hpost => ?_⟩
  have hmem : mk db.roadmapItems.next ∈ items := (Sql.Table.mem_insert? hins).mpr (.inr rfl)
  have hclash : Sql.Row.clash i (mk db.roadmapItems.next) = true := by
    simp [Sql.Row.clash, hboard.items i hi, hpost, hnew]
  rw [Sql.Table.eq_of_clash hi hmem hclash]
  exact (hnew _).2.2

theorem itemOf_eq_some (h : db.itemOf T id = some i) :
    i ∈ db.roadmapItems ∧ i.id = id ∧ i.tenantId = T := by
  have hcond := List.find?_some h
  simp only [Bool.and_eq_true, beq_iff_eq] at hcond
  exact ⟨List.mem_of_find?_eq_some h, hcond⟩

/-- A row of the table after the `UPDATE`: patched, if it is the item named. -/
theorem mem_patchItem {i' : RoadmapItem} (h : i' ∈ (db.patchItem T id patch).roadmapItems) :
    ∃ i ∈ db.roadmapItems, (i.id = id ∧ i.tenantId = T ∧ i' = patch.apply i) ∨
      (¬ (i.id = id ∧ i.tenantId = T) ∧ i' = i) := by
  rw [Db.patchItem, Sql.Table.mem_update] at h
  obtain ⟨i, hi, rfl⟩ := h
  refine ⟨i, hi, ?_⟩
  by_cases hcond : i.id = id ∧ i.tenantId = T
  · exact .inl ⟨hcond.1, hcond.2, by simp [hcond]⟩
  · refine .inr ⟨hcond, if_neg ?_⟩
    simpa using hcond

theorem OnBoard.patchItem (h : OnBoard T db)
    (hcolumn : ∀ c, patch.roadmapColumnId = some c → ∃ col ∈ db.roadmapColumns, col.id = c) :
    OnBoard T (db.patchItem T id patch) where
  posts := h.posts
  columns := h.columns
  items i' hi' := by
    obtain ⟨i, hi, ⟨-, -, rfl⟩ | ⟨-, rfl⟩⟩ := mem_patchItem hi'
    · exact h.items i hi
    · exact h.items _ hi
  inColumn i' hi' := by
    obtain ⟨i, hi, ⟨-, -, rfl⟩ | ⟨-, rfl⟩⟩ := mem_patchItem hi'
    · cases hpatch : patch.roadmapColumnId with
      | none =>
        rw [ItemPatch.apply, hpatch]
        exact h.inColumn i hi
      | some c =>
        rw [ItemPatch.apply, hpatch]
        exact hcolumn c hpatch
    · exact h.inColumn _ hi
  next := h.next

/-- An item that keeps its column keeps agreeing. -/
theorem InOrder.patchItem (h : InOrder T db) (hnone : patch.roadmapColumnId = none) :
    InOrder T (db.patchItem T id patch) where
  onBoard := h.onBoard.patchItem fun c hc => by rw [hnone] at hc; cases hc
  agrees i' hi' := by
    obtain ⟨i, hi, ⟨-, -, rfl⟩ | ⟨-, rfl⟩⟩ := mem_patchItem hi'
    · have hagrees := h.agrees i hi
      unfold RoadmapItem.Agrees ItemPatch.apply at *
      rw [hnone]
      exact hagrees
    · exact h.agrees _ hi

/-- An item that moves takes its post along. -/
theorem InOrder.moveItem (h : InOrder T db) (hitem : db.itemOf T id = some i)
    (hsome : patch.roadmapColumnId = some c) (hcolumn : ∃ col ∈ db.roadmapColumns, col.id = c) :
    InOrder T ((db.patchItem T id patch).syncedStatus T i.postId c) := by
  obtain ⟨hmem, hid, htenant⟩ := itemOf_eq_some hitem
  have hboard : OnBoard T (db.patchItem T id patch) := h.onBoard.patchItem fun c' hc' => by
    obtain rfl : c = c' := Option.some.inj (hsome.symm.trans hc')
    exact hcolumn
  have hexcept : AgreesExcept i.postId (db.patchItem T id patch) := by
    intro i' hi' hne
    obtain ⟨i₀, hi₀, ⟨hid₀, -, rfl⟩ | ⟨-, rfl⟩⟩ := mem_patchItem hi'
    · obtain rfl : i₀ = i := Sql.Table.eq_of_id hi₀ hmem (hid₀.trans hid.symm)
      exact absurd rfl hne
    · exact h.agrees _ hi₀
  refine ⟨hboard.syncedStatus, hexcept.syncedStatus hboard fun i' hi' hpost => ?_⟩
  obtain ⟨i₀, hi₀, ⟨-, -, rfl⟩ | ⟨hnot, rfl⟩⟩ := mem_patchItem hi'
  · rw [ItemPatch.apply, hsome]
    rfl
  · have hclash : Sql.Row.clash i' i = true := by
      simp [Sql.Row.clash, h.onBoard.items _ hi₀, htenant, hpost]
    obtain rfl := Sql.Table.eq_of_clash hi₀ hmem hclash
    exact absurd ⟨hid, htenant⟩ hnot

theorem OnBoard.deleteItem (h : OnBoard T db) : OnBoard T (db.deleteItem T id) where
  posts := h.posts
  columns := h.columns
  items i hi := h.items i (Sql.Table.mem_delete.mp hi).1
  inColumn i hi := h.inColumn i (Sql.Table.mem_delete.mp hi).1
  next := h.next

theorem InOrder.deleteItem (h : InOrder T db) : InOrder T (db.deleteItem T id) :=
  ⟨h.onBoard.deleteItem, fun i hi => h.agrees i (Sql.Table.mem_delete.mp hi).1⟩

/-- A post taken off the roadmap may have any status. -/
theorem InOrder.removeItem (h : InOrder T db) (hitem : db.itemOf T id = some i) :
    InOrder T ((db.deleteItem T id).setStatus T i.postId s) := by
  obtain ⟨hmem, hid, htenant⟩ := itemOf_eq_some hitem
  have hexcept : AgreesExcept i.postId (db.deleteItem T id) :=
    .of_agrees h.deleteItem.agrees
  refine ⟨h.onBoard.deleteItem.setStatus, hexcept.setStatus.agrees fun i' hi' hpost => ?_⟩
  obtain ⟨hi', hstays⟩ := Sql.Table.mem_delete.mp hi'
  have hclash : Sql.Row.clash i' i = true := by
    simp [Sql.Row.clash, h.onBoard.items _ hi', htenant, hpost]
  obtain rfl := Sql.Table.eq_of_clash hi' hmem hclash
  simp [hid, htenant] at hstays

theorem mem_moveItemOf {i' : RoadmapItem} (h : OnBoard T db)
    (hi' : i' ∈ (db.moveItemOf T p c).roadmapItems) :
    ∃ i ∈ db.roadmapItems, (i.postId = p ∧ i' = i.movedTo c) ∨ (i.postId ≠ p ∧ i' = i) := by
  rw [Db.moveItemOf, Sql.Table.mem_update] at hi'
  obtain ⟨i, hi, rfl⟩ := hi'
  refine ⟨i, hi, ?_⟩
  by_cases hpost : i.postId = p
  · exact .inl ⟨hpost, by simp [hpost, h.items i hi]⟩
  · exact .inr ⟨hpost, by simp [hpost]⟩

/-- Before the status of the post is set to `s`, the database finds a column for the status, or the
post is in no column of a status. -/
def StatusFits (collation : Collation) (T p : Nat) (s : PostStatus) (db : Db) : Prop :=
  (∃ col ∈ db.roadmapColumns, col.tenantId = T ∧ collation.same col.columnKey s.text = true) ∨
    ∀ i ∈ db.roadmapItems, i.tenantId = T → i.postId = p → ∀ col ∈ db.roadmapColumns,
      col.id = i.roadmapColumnId → statusFromColumnKey col.columnKey = none

/-- A status takes the item along, or finds it outside of the status columns. -/
theorem InOrder.changeStatus {collation : Collation} (h : InOrder T db)
    (hfits : StatusFits collation T p s db) :
    InOrder T ((db.setStatus T p s).syncedItem collation T p s) := by
  have hexcept : AgreesExcept p (db.setStatus T p s) := (AgreesExcept.of_agrees h.agrees).setStatus
  unfold Db.syncedItem
  cases hcol : (db.setStatus T p s).statusColumn collation T s with
  -- no column of the status: the item stays, and the status does not fit its column
  | none =>
    refine ⟨h.onBoard.setStatus, hexcept.agrees fun i hi hpost col hcolmem hid t ht => ?_⟩
    rcases hfits with ⟨col', hcol', htenant, hkey⟩ | houtside
    · have hnot := List.find?_eq_none.mp hcol col' hcol'
      simp [htenant, hkey] at hnot
    · rw [houtside i hi (h.onBoard.items i hi) hpost col hcolmem hid] at ht
      cases ht
  | some col =>
    have hcond := List.find?_some hcol
    simp only [Bool.and_eq_true, beq_iff_eq] at hcond
    have hcolmem : col ∈ db.roadmapColumns := List.mem_of_find?_eq_some hcol
    have hboard : OnBoard T ((db.setStatus T p s).moveItemOf T p col.id) :=
      { posts := h.onBoard.setStatus.posts
        columns := h.onBoard.columns
        items := fun i' hi' => by
          obtain ⟨i, hi, ⟨-, rfl⟩ | ⟨-, rfl⟩⟩ := mem_moveItemOf h.onBoard hi'
          · exact h.onBoard.items i hi
          · exact h.onBoard.items _ hi
        inColumn := fun i' hi' => by
          obtain ⟨i, hi, ⟨-, rfl⟩ | ⟨-, rfl⟩⟩ := mem_moveItemOf h.onBoard hi'
          · exact ⟨col, hcolmem, rfl⟩
          · exact h.onBoard.inColumn _ hi
        next := h.onBoard.next }
    refine ⟨hboard, fun i' hi' => ?_⟩
    obtain ⟨i, hi, ⟨hpost, rfl⟩ | ⟨hne, rfl⟩⟩ := mem_moveItemOf h.onBoard hi'
    · -- The post's item is in the column of the status that the post has now.
      intro col' hcol' hid t ht q hq hqid
      obtain rfl := Sql.Table.eq_of_id hcol' hcolmem hid
      obtain rfl : t = s := by
        rw [statusFromColumnKey_eq_some_iff.mp ht] at hcond
        exact collation.status_eq hcond.1
      obtain ⟨q₀, hq₀, hq₀id, -, hset, -⟩ := mem_posts_setStatus hq
      exact hset (hq₀id.symm.trans (hqid.trans hpost)) (h.onBoard.posts q₀ hq₀).1
    · exact hexcept _ hi hne

/-- A status that does not fit leaves the item in the column of another. -/
theorem InOrder.not_agrees_of_not_fits {collation : Collation} (h : InOrder T db)
    (hpost : ∃ q ∈ db.posts, q.id = p) (hfits : ¬ StatusFits collation T p s db) :
    ¬ StatusAgrees ((db.setStatus T p s).syncedItem collation T p s) := by
  obtain ⟨hcolumn, houtside⟩ := not_or.mp hfits
  push Not at hcolumn houtside
  obtain ⟨i, hi, -, hip, col, hcol, hid, hkey⟩ := houtside
  obtain ⟨t, ht⟩ := Option.ne_none_iff_exists'.mp hkey
  obtain ⟨q, hq, hqid⟩ := hpost
  have hnone : (db.setStatus T p s).statusColumn collation T s = none := by
    refine List.find?_eq_none.mpr fun c hc hcond => ?_
    simp only [Bool.and_eq_true, beq_iff_eq] at hcond
    exact hcolumn c hc hcond.2 hcond.1
  have hset : q.withStatus s ∈ (db.setStatus T p s).posts := by
    rw [Db.setStatus, Sql.Table.mem_update]
    exact ⟨q, hq, by simp [hqid, h.onBoard.posts q hq]⟩
  unfold Db.syncedItem
  rw [hnone]
  intro hagrees
  obtain rfl : s = t := hagrees i hi col hcol hid t ht _ hset (hqid.trans hip.symm)
  refine hcolumn col hcol (h.onBoard.columns col hcol).1 ?_
  rw [statusFromColumnKey_eq_some_iff.mp ht]
  exact collation.same_refl _

end

/-! ### The requests of a workspace -/

inductive RoadmapCall where
  | createRoadmapColumn (name columnKey : String) (sortOrder : Option Int)
  | deleteRoadmapColumn (id : Nat)
  | addItemToRoadmap (postId roadmapColumnId : Nat) (sortOrder : Option Int)
      (targetReleaseDate : Option Time)
  | updateRoadmapItem (id : Nat) (patch : ItemPatch)
  | removeItemFromRoadmap (id : Nat)
  | updatePostStatus (id : Nat) (newStatus : String)
  | setPostStatus (postId : Nat) (status : String)

/-- The requests of one workspace. -/
def roadmapHandler (T : Nat) : RoadmapCall → Handler Unit
  | .createRoadmapColumn name columnKey sortOrder =>
    withoutReply (createRoadmapColumn name columnKey sortOrder T)
  | .deleteRoadmapColumn id => withoutReply (deleteRoadmapColumn id T)
  | .addItemToRoadmap postId columnId sortOrder date =>
    withoutReply (addItemToRoadmap postId columnId sortOrder date T)
  | .updateRoadmapItem id patch => withoutReply (updateRoadmapItem id patch T)
  | .removeItemFromRoadmap id => withoutReply (removeItemFromRoadmap id T)
  | .updatePostStatus id newStatus => withoutReply (updatePostStatus id newStatus T)
  | .setPostStatus postId status => withoutReply (setPostStatus postId status T)

/-- A request that changes a status changes it to one that fits. -/
def RoadmapCall.InStep (T : Nat) (w : World) : RoadmapCall → Prop
  | .updatePostStatus id text | .setPostStatus id text =>
    ∀ s, statusFromColumnKey text = some s → StatusFits w.collation T id s w.db
  | _ => True

theorem patchItem_of_not_found {id : Nat} {patch : ItemPatch} (h : db.itemOf T id = none) :
    db.patchItem T id patch = db := by
  rw [Db.patchItem, Sql.Table.update_eq_self]
  intro i hi hcond
  exact absurd hcond (List.find?_eq_none.mp h i hi)

/-- The item is found again, with its post. -/
theorem itemOf_patchItem {id : Nat} {patch : ItemPatch} {i : RoadmapItem}
    (h : db.itemOf T id = some i) :
    ∃ i', (db.patchItem T id patch).itemOf T id = some i' ∧ i'.postId = i.postId := by
  obtain ⟨hmem, hid, htenant⟩ := itemOf_eq_some h
  cases hfind : (db.patchItem T id patch).itemOf T id with
  | none =>
    have hpatched : patch.apply i ∈ (db.patchItem T id patch).roadmapItems := by
      rw [Db.patchItem, Sql.Table.mem_update]
      exact ⟨i, hmem, by simp [hid, htenant]⟩
    have hnot := List.find?_eq_none.mp hfind _ hpatched
    simp [ItemPatch.apply, hid, htenant] at hnot
  | some i' =>
    obtain ⟨hmem', hid', -⟩ := itemOf_eq_some hfind
    obtain ⟨i₀, hi₀, ⟨hid₀, -, rfl⟩ | ⟨-, rfl⟩⟩ := mem_patchItem hmem'
    · obtain rfl : i₀ = i := Sql.Table.eq_of_id hi₀ hmem (hid₀.trans hid.symm)
      exact ⟨_, rfl, rfl⟩
    · obtain rfl : i' = i := Sql.Table.eq_of_id hi₀ hmem (hid'.trans hid.symm)
      exact ⟨_, rfl, rfl⟩

/-- An `UPDATE` that finds no post changes nothing. -/
theorem setStatus_of_not_found {p : Nat} {s : PostStatus}
    (h : (db.posts.rows.any fun q => q.id == p && q.tenantId == T) = false) :
    db.setStatus T p s = db := by
  rw [List.any_eq_false] at h
  rw [Db.setStatus, Sql.Table.update_eq_self]
  intro q hq hcond
  exact absurd hcond (h q hq)

theorem InOrder.changePostStatus (h : InOrder T w.db) {okKey failKey text : String} {id : Nat}
    (hfits : ∀ s, statusFromColumnKey text = some s → StatusFits w.collation T id s w.db) :
    InOrder T ((changePostStatus okKey failKey id text T).exec w).2.db := by
  unfold Feedbase.changePostStatus
  cases htext : statusFromColumnKey text with
  | none => exact h
  | some s =>
    dsimp only
    rw [exec_tryCatch_failWith, Prog.exec_bind, Prog.exec_atomic]
    dsimp only
    by_cases hfound : (w.db.posts.rows.any fun q => q.id == id && q.tenantId == T) = false
    · rw [if_pos hfound, setStatus_of_not_found hfound]
      exact h
    · rw [if_neg hfound, Prog.exec_bind, exec_syncRoadmapItemToStatus]
      exact h.changeStatus (hfits s htext)

theorem InOrder.createRoadmapColumn (h : InOrder T w.db) (name columnKey : String)
    (sortOrder : Option Int) :
    InOrder T ((createRoadmapColumn name columnKey sortOrder T).exec w).2.db := by
  unfold Feedbase.createRoadmapColumn
  rw [exec_tryCatch_failWith, Prog.exec_bind, Prog.exec_attempt]
  by_cases hrefused : (w.db.tenants.byId T).isNone = true ∨
      w.db.hasColumn w.collation T columnKey = true
  · rw [if_pos hrefused]
    exact h
  rw [if_neg hrefused]
  cases hins : w.db.roadmapColumns.insert? fun id =>
    ({ id, tenantId := T, name, columnKey, sortOrder := sortOrder.getD 0 } : RoadmapColumn) with
  | none => exact h
  | some columns => exact h.insertColumn hins fun _ => rfl

theorem InOrder.deleteRoadmapColumn (h : InOrder T w.db) (id : Nat) :
    InOrder T ((deleteRoadmapColumn id T).exec w).2.db := by
  unfold Feedbase.deleteRoadmapColumn
  rw [exec_tryCatch_failWith, Prog.exec_bind, Prog.exec_atomic]
  dsimp only
  split
  · exact h.deleteColumn
  · exact h.deleteColumn

theorem InOrder.addItemToRoadmap (h : InOrder T w.db) (postId columnId : Nat)
    (sortOrder : Option Int) (date : Option Time) :
    InOrder T ((addItemToRoadmap postId columnId sortOrder date T).exec w).2.db := by
  unfold Feedbase.addItemToRoadmap
  rw [exec_tryCatch_failWith, Prog.exec_bind, boardStatement, Prog.exec_attempt]
  by_cases hfk : (w.db.tenants.byId T).isNone ∨ (w.db.posts.byId postId).isNone ∨
      (w.db.roadmapColumns.byId columnId).isNone
  · rw [if_pos hfk]
    exact h
  · rw [if_neg hfk]
    have hcolumn : ∃ col ∈ w.db.roadmapColumns, col.id = columnId := by
      refine Sql.Table.byId_isSome_iff.mp (Option.isSome_iff_ne_none.mpr ?_)
      simpa using (not_or.mp (not_or.mp hfk).2).2
    cases hins : w.db.roadmapItems.insert? fun id =>
      ({ id, tenantId := T, postId, roadmapColumnId := columnId, sortOrder := sortOrder.getD 0,
          targetReleaseDate := date } : RoadmapItem) with
    | none => exact h
    | some items =>
      change InOrder T (Prog.exec (syncPostStatusToColumn T postId columnId >>= _) _).2.db
      rw [Prog.exec_bind, exec_syncPostStatusToColumn]
      exact h.insertItem hins (fun _ => ⟨rfl, rfl, rfl⟩) hcolumn

theorem InOrder.removeItemFromRoadmap (h : InOrder T w.db) (id : Nat) :
    InOrder T ((removeItemFromRoadmap id T).exec w).2.db := by
  unfold Feedbase.removeItemFromRoadmap
  rw [exec_tryCatch_failWith, exec_query_bind, Prog.exec_bind, Prog.exec_atomic]
  dsimp only
  cases hitem : w.db.itemOf T id with
  | none => exact h.deleteItem
  | some i =>
    rw [if_neg (by simp)]
    dsimp only
    unfold resetPostStatusToOpen
    split
    · exact h.deleteItem
    · exact h.removeItem hitem

theorem InOrder.updateRoadmapItem (h : InOrder T w.db) (id : Nat) (patch : ItemPatch) :
    InOrder T ((updateRoadmapItem id patch T).exec w).2.db := by
  unfold Feedbase.updateRoadmapItem
  split
  · exact h
  · rw [exec_tryCatch_failWith, Prog.exec_bind, boardStatement, Prog.exec_attempt]
    -- a column that is not there fails the statement by its foreign key
    by_cases hfk : (w.db.itemOf T id).isSome = true ∧
        patch.roadmapColumnId.any (fun c => (w.db.roadmapColumns.byId c).isNone) = true
    · rw [if_pos hfk]
      exact h
    · rw [if_neg hfk]
      dsimp only [Option.map_some]
      cases hitem : w.db.itemOf T id with
      | none =>
        rw [patchItem_of_not_found hitem]
        exact h
      | some i =>
        rw [if_neg (by simp)]
        cases hcolumn : patch.roadmapColumnId with
        | none => exact h.patchItem hcolumn
        | some c =>
          have hexists : ∃ col ∈ w.db.roadmapColumns, col.id = c := by
            refine Sql.Table.byId_isSome_iff.mp (Option.isSome_iff_ne_none.mpr ?_)
            simpa [hitem, hcolumn] using hfk
          obtain ⟨i', hitem', hpost⟩ := itemOf_patchItem hitem
          dsimp only
          rw [exec_query_bind, hitem']
          dsimp only
          rw [Prog.exec_bind, exec_syncPostStatusToColumn, hpost]
          exact h.moveItem hitem hcolumn hexists

/-! ### Runs -/

/-- One request, run to completion. -/
def RoadmapStep (T : Nat) (ok : World → RoadmapCall → Prop) (w w' : World) : Prop :=
  ∃ call, ok w call ∧ w' = ((roadmapHandler T call).exec w).2

/-- A board without columns and items, and with the workspace's posts. -/
structure EmptyBoard (T : Nat) (db : Db) : Prop where
  posts : ∀ p ∈ db.posts, p.tenantId = T ∧ 0 < p.id
  columns : db.roadmapColumns = .empty
  items : db.roadmapItems = .empty

theorem EmptyBoard.inOrder (h : EmptyBoard T db) : InOrder T db where
  onBoard :=
    { posts := h.posts
      columns := fun c hc => by simp [h.columns] at hc
      items := fun i hi => by simp [h.items] at hi
      inColumn := fun i hi => by simp [h.items] at hi
      next := by
        rw [h.columns]
        exact Nat.one_pos }
  agrees := fun i hi => by simp [h.items] at hi

/-- A request in step keeps the board in order. -/
theorem InOrder.step (h : InOrder T w.db)
    (hstep : RoadmapStep T (fun w call => call.InStep T w) w w') : InOrder T w'.db := by
  obtain ⟨call, hok, rfl⟩ := hstep
  cases call with
  | createRoadmapColumn name key sortOrder =>
    rw [roadmapHandler, exec_withoutReply_snd]
    exact h.createRoadmapColumn name key sortOrder
  | deleteRoadmapColumn id =>
    rw [roadmapHandler, exec_withoutReply_snd]
    exact h.deleteRoadmapColumn id
  | addItemToRoadmap postId columnId sortOrder date =>
    rw [roadmapHandler, exec_withoutReply_snd]
    exact h.addItemToRoadmap postId columnId sortOrder date
  | updateRoadmapItem id patch =>
    rw [roadmapHandler, exec_withoutReply_snd]
    exact h.updateRoadmapItem id patch
  | removeItemFromRoadmap id =>
    rw [roadmapHandler, exec_withoutReply_snd]
    exact h.removeItemFromRoadmap id
  | updatePostStatus id text =>
    rw [roadmapHandler, exec_withoutReply_snd]
    exact h.changePostStatus hok
  | setPostStatus id text =>
    rw [roadmapHandler, exec_withoutReply_snd]
    exact h.changePostStatus hok

/-- In every run whose status changes fit, no item is in the column of a status other than its
post's. -/
theorem statusAgrees_of_run (hempty : EmptyBoard T w.db)
    (hrun : Relation.ReflTransGen (RoadmapStep T fun w call => call.InStep T w) w w') :
    StatusAgrees w'.db := by
  have horder : InOrder T w'.db := by
    induction hrun with
    | refl => exact hempty.inOrder
    | tail _ hstep ih => exact ih.step hstep
  exact horder.agrees

/-- A post on the board. -/
def darkMode : Post where
  id := 1
  tenantId := 1
  title := "Dark mode"
  description := ""
  createdAt := 0

/-- One post, and no roadmap yet. -/
def onePost : World where
  db :=
    { tenants := (Sql.Table.empty.insert? fun id =>
        ({ id, name := "Corner", slug := "corner", subdomain := "corner" } : Tenant)).getD .empty
      posts := (Sql.Table.empty.insert? fun id => { darkMode with id := id }).getD .empty }

/-- The post is placed in a column for planned work. -/
def planPost : List RoadmapCall :=
  [.createRoadmapColumn "Planned" "planned" none, .addItemToRoadmap 1 1 none none]

/-- The requests one after the other. -/
def afterCalls (T : Nat) (w : World) : List RoadmapCall → World
  | [] => w
  | call :: calls => afterCalls T ((roadmapHandler T call).exec w).2 calls

theorem run_afterCalls {ok : World → RoadmapCall → Prop} {calls : List RoadmapCall} {w : World}
    (hok : ∀ u, ∀ call ∈ calls, ok u call) :
    Relation.ReflTransGen (RoadmapStep T ok) w (afterCalls T w calls) := by
  induction calls generalizing w with
  | nil => exact .refl
  | cons call calls ih =>
    exact .head ⟨call, hok _ _ List.mem_cons_self, rfl⟩
      (ih fun u c hc => hok u c (List.mem_cons_of_mem _ hc))

theorem emptyBoard_onePost : EmptyBoard 1 onePost.db where
  posts := by decide +kernel
  columns := rfl
  items := rfl

/-- The planned post has the status of its column. -/
theorem statusAgrees_of_run_planned :
    StatusAgrees (afterCalls 1 onePost planPost).db ∧
      (afterCalls 1 onePost planPost).db.posts.rows.map (·.status) = [.planned] :=
  ⟨statusAgrees_of_run emptyBoard_onePost (run_afterCalls fun w call hcall => by
    rcases List.mem_cons.mp hcall with rfl | hcall
    · trivial
    · obtain rfl := List.mem_singleton.mp hcall
      trivial), by decide +kernel⟩

/-- A post that is closed stays in the column for planned work. -/
theorem closed_post_stays_planned : ∃ w w', EmptyBoard 1 w.db ∧
    Relation.ReflTransGen (RoadmapStep 1 fun _ _ => True) w w' ∧ ¬ StatusAgrees w'.db := by
  refine ⟨onePost, afterCalls 1 onePost (planPost ++ [.updatePostStatus 1 "closed"]),
    emptyBoard_onePost, run_afterCalls fun _ _ _ => trivial, fun h => ?_⟩
  have hstatus := h { id := 1, tenantId := 1, postId := 1, roadmapColumnId := 1 }
    (Sql.Table.mem_def.mpr (by decide +kernel))
    { id := 1, tenantId := 1, name := "Planned", columnKey := "planned" }
    (Sql.Table.mem_def.mpr (by decide +kernel)) rfl .planned (by decide)
    (darkMode.withStatus .closed) (Sql.Table.mem_def.mpr (by decide +kernel)) rfl
  exact absurd hstatus (by decide)

end Feedbase
