import Feedbase.Public.BoardCards

/-!
# Reading the roadmap

The portal gets the columns and the items of a workspace in one reply, the dashboard gets them by
two requests. An item comes with what is known of its post and of its column; nothing asks whether
these are visible, or whose they are.

## Main definitions

* `getRoadmapColumns`, `getRoadmapItems` — the dashboard's lists
* `getPublicRoadmap` — the portal's
* `updateRoadmapColumn`

## Main results

* `exec_getPublicRoadmap`, `exec_getRoadmapItems` — what a reader gets
-/

namespace Feedbase

/-- The post of an item: `LEFT JOIN posts p ON ri.post_id = p.id`. -/
def Db.postOfItem (db : Db) (i : RoadmapItem) : Option Post :=
  db.posts.rows.find? fun p => i.postId == p.id

/-- The column of an item: `LEFT JOIN roadmap_columns rc ON ri.roadmap_column_id = rc.id`. -/
def Db.columnOfItem (db : Db) (i : RoadmapItem) : Option RoadmapColumn :=
  db.roadmapColumns.rows.find? fun c => i.roadmapColumnId == c.id

/-! ### The dashboard -/

/-- `ri.*, p.title, p.description, rc.name`. -/
structure DashboardItem where
  item : RoadmapItem
  title : Option String
  description : Option String
  columnName : Option String
  deriving DecidableEq

def dashboardItem (db : Db) (i : RoadmapItem) : DashboardItem where
  item := i
  title := (db.postOfItem i).map (·.title)
  description := (db.postOfItem i).map (·.description)
  columnName := (db.columnOfItem i).map (·.name)

/-- The rows, before they are ordered. -/
def Db.dashboardItems (db : Db) (tenantId : Nat) : List DashboardItem :=
  (db.roadmapItems.rows.filter (·.tenantId == tenantId)).map (dashboardItem db)

def Db.columnsOf (db : Db) (tenantId : Nat) : List RoadmapColumn :=
  db.roadmapColumns.rows.filter (·.tenantId == tenantId)

/-! ### The portal -/

/-- The columns of a roadmap column that are public. -/
structure PublicColumn where
  id : Nat
  name : String
  columnKey : String
  sortOrder : Int
  deriving DecidableEq

def publicColumn (c : RoadmapColumn) : PublicColumn where
  id := c.id
  name := c.name
  columnKey := c.columnKey
  sortOrder := c.sortOrder

structure PublicItem where
  id : Nat
  postId : Nat
  roadmapColumnId : Nat
  sortOrder : Int
  targetReleaseDate : Option Time
  title : Option String
  status : Option PostStatus
  postType : Option PostType
  columnName : Option String
  voteCount : Nat
  deriving DecidableEq

def publicItem (db : Db) (i : RoadmapItem) : PublicItem where
  id := i.id
  postId := i.postId
  roadmapColumnId := i.roadmapColumnId
  sortOrder := i.sortOrder
  targetReleaseDate := i.targetReleaseDate
  title := (db.postOfItem i).map (·.title)
  status := (db.postOfItem i).map (·.status)
  postType := (db.postOfItem i).map (·.postType)
  columnName := (db.columnOfItem i).map (·.name)
  voteCount := db.votesOn i.postId

def Db.publicItems (db : Db) (tenantId : Nat) : List PublicItem :=
  (db.roadmapItems.rows.filter (·.tenantId == tenantId)).map (publicItem db)

/-- The order in which `ORDER BY sort_order ASC` returns rows that share a number. -/
structure RoadmapOrders where
  columns : List PublicColumn → List PublicColumn
  items : List PublicItem → List PublicItem
  perm_columns : ∀ rows, (columns rows).Perm rows
  sorted_columns : ∀ rows, (columns rows).Pairwise fun c d => c.sortOrder ≤ d.sortOrder
  perm_items : ∀ rows, (items rows).Perm rows
  sorted_items : ∀ rows, (items rows).Pairwise fun i j => i.sortOrder ≤ j.sortOrder

/-- The order that keeps rows that share a number as they are stored. -/
def RoadmapOrders.stable : RoadmapOrders where
  columns := List.insertionSort fun c d => c.sortOrder ≤ d.sortOrder
  items := List.insertionSort fun i j => i.sortOrder ≤ j.sortOrder
  perm_columns := List.perm_insertionSort _
  sorted_columns l := by
    have : Std.Total fun c d : PublicColumn => c.sortOrder ≤ d.sortOrder :=
      ⟨fun c d => Int.le_total c.sortOrder d.sortOrder⟩
    have : IsTrans PublicColumn fun c d => c.sortOrder ≤ d.sortOrder :=
      ⟨fun _ _ _ h h' => Int.le_trans h h'⟩
    exact List.pairwise_insertionSort _ l
  perm_items := List.perm_insertionSort _
  sorted_items l := by
    have : Std.Total fun i j : PublicItem => i.sortOrder ≤ j.sortOrder :=
      ⟨fun i j => Int.le_total i.sortOrder j.sortOrder⟩
    have : IsTrans PublicItem fun i j => i.sortOrder ≤ j.sortOrder :=
      ⟨fun _ _ _ h h' => Int.le_trans h h'⟩
    exact List.pairwise_insertionSort _ l

structure PublicRoadmap where
  columns : List PublicColumn
  items : List PublicItem
  deriving DecidableEq

/-- The roadmap of a workspace. -/
def publicRoadmap (db : Db) (orders : RoadmapOrders) (tenantId : Nat) : PublicRoadmap where
  columns := orders.columns ((db.columnsOf tenantId).map publicColumn)
  items := orders.items (db.publicItems tenantId)

/-! ### The requests -/

def getPublicRoadmap (orders : RoadmapOrders) (tenantId : Nat) : Handler (Reply PublicRoadmap) :=
  tryCatch (do
    let columns ← query fun db => orders.columns ((db.columnsOf tenantId).map publicColumn)
    let items ← selectAt .postsSelect fun db => orders.items (db.publicItems tenantId)
    resolve 200 "roadmap_items_retrieved_successfully" ⟨columns, items⟩)
      (failWith "failed_to_get_roadmap_items")

/-- `order` is what `ORDER BY ri.sort_order ASC` does to the rows. -/
def getRoadmapItems (order : List DashboardItem → List DashboardItem) (tenantId : Nat) :
    Handler (Reply (List DashboardItem)) :=
  tryCatch (do
    let rows ← selectAt .postsSelect fun db => order (db.dashboardItems tenantId)
    resolve 200 "roadmap_items_retrieved_successfully" rows)
      (failWith "failed_to_get_roadmap_items")

def getRoadmapColumns (order : List RoadmapColumn → List RoadmapColumn) (tenantId : Nat) :
    Handler (Reply (List RoadmapColumn)) :=
  tryCatch (do
    let rows ← query fun db => order (db.columnsOf tenantId)
    resolve 200 "roadmap_columns_retrieved_successfully" rows)
      (failWith "failed_to_get_roadmap_columns")

/-- `SET name = ?, sort_order = ?`. -/
def RoadmapColumn.renamed (name : String) (sortOrder : Int) (c : RoadmapColumn) : RoadmapColumn :=
  { c with name := name, sortOrder := sortOrder }

theorem RoadmapColumn.keyless_renamed (name : String) (sortOrder : Int) :
    Sql.Table.Keyless (RoadmapColumn.renamed name sortOrder) := ⟨fun _ => rfl, fun _ _ => rfl⟩

def updateRoadmapColumn (id : Nat) (name : String) (sortOrder : Int) (tenantId : Nat) :
    Handler (Reply Unit) :=
  tryCatch (do
    let found ← Prog.atomic fun w =>
      (.ok (w.db.columnOf tenantId id).isSome,
        { w with
          db :=
            { w.db with
              roadmapColumns :=
                w.db.roadmapColumns.update (fun c => c.id == id && c.tenantId == tenantId)
                  (RoadmapColumn.renamed name sortOrder)
                  (RoadmapColumn.keyless_renamed name sortOrder) } })
    if found = false then reject 404 "roadmap_column_not_found"
    else resolve 200 "roadmap_column_updated_successfully" ())
      (failWith "failed_to_update_roadmap_column")

/-! ### What a reader gets -/

theorem exec_getPublicRoadmap (orders : RoadmapOrders) (tenantId : Nat) (w : World) :
    (getPublicRoadmap orders tenantId).exec w =
      (if w.fails .postsSelect then .error (.rejected 500 "failed_to_get_roadmap_items")
        else
          .ok ⟨200, "roadmap_items_retrieved_successfully", publicRoadmap w.db orders tenantId⟩,
        w) := by
  rw [getPublicRoadmap, Prog.exec_tryCatch, exec_query_bind, exec_selectAt_bind]
  by_cases hfails : w.fails .postsSelect = true
  · rw [if_pos hfails, if_pos hfails]
    rfl
  · rw [if_neg hfails, if_neg hfails]
    rfl

theorem exec_getRoadmapItems (order : List DashboardItem → List DashboardItem) (tenantId : Nat)
    (w : World) :
    (getRoadmapItems order tenantId).exec w =
      (if w.fails .postsSelect then .error (.rejected 500 "failed_to_get_roadmap_items")
        else .ok ⟨200, "roadmap_items_retrieved_successfully", order (w.db.dashboardItems tenantId)⟩,
        w) := by
  rw [getRoadmapItems, Prog.exec_tryCatch, exec_selectAt_bind]
  by_cases hfails : w.fails .postsSelect = true
  · rw [if_pos hfails, if_pos hfails]
    rfl
  · rw [if_neg hfails, if_neg hfails]
    rfl

theorem exec_getRoadmapColumns (order : List RoadmapColumn → List RoadmapColumn) (tenantId : Nat)
    (w : World) :
    (getRoadmapColumns order tenantId).exec w =
      (.ok ⟨200, "roadmap_columns_retrieved_successfully", order (w.db.columnsOf tenantId)⟩, w) := by
  rw [getRoadmapColumns, Prog.exec_tryCatch, exec_query_bind]
  rfl

end Feedbase
