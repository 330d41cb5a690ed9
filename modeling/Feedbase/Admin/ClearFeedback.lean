import Feedbase.Lib.Paths
import Feedbase.Post.WorkspaceWrites
import Mathlib.Data.Finset.Card

/-!
# Clearing a workspace's feedback

A platform administrator deletes every post of one workspace, once the subdomain has been typed.
What hangs on the posts goes along the foreign keys. The files of the attachments are removed
after that, each by the last part of its stored path.

## Main definitions

* `fileOf` — the file that a stored path stands for, if it is in the folder
* `clearWorkspaceFeedback`
* `BoardCleared` — what is left of the boards

## Main results

* `fileOf_eq_some_iff` — no stored path leads out of the folder
* `fileOf_relativePath` — an upload's row stands for the file it has written
* `clears_workspace` — what a call deletes, whoever owns it, and whom it leaves alone
-/

namespace Feedbase

/-! ### Files -/

/-- The files that can be removed. -/
abbrev Disk := List Char → Bool

/-- `path.join(process.cwd(), "/uploads/attachments")`. -/
def attachmentDir (cwd : List Char) : List Char := Path.join cwd "/uploads/attachments".toList

/-- The path that `storeAttachment` stores for a file. -/
def relativePath (fileName : List Char) : String :=
  String.ofList ("uploads/attachments/".toList ++ fileName)

/-- The file to remove for a row; none where the path leads out of the folder. -/
def fileOf (root : List Char) (storagePath : String) : Option (List Char) :=
  let target := Path.join root (Path.basename storagePath.toList)
  if (root ++ ['/']).isPrefixOf target then some target else none

/-- How many files are removed, and what is left. A file that cannot be removed is passed over. -/
def removeFiles (root : List Char) : List String → Disk → Nat × Disk
  | [], disk => (0, disk)
  | storagePath :: rest, disk =>
    match fileOf root storagePath with
    | none => removeFiles root rest disk
    | some target =>
      if disk target then
        let (removed, left) := removeFiles root rest fun file => disk file && file != target
        (removed + 1, left)
      else removeFiles root rest disk

/-! ### The handler -/

/-- `JOIN posts p ON p.id = pa.post_id WHERE p.tenant_id = ?`. -/
def Db.filesOf (db : Db) (tenantId : Nat) : List String :=
  (db.postAttachments.rows.filter fun a => a.postId.any fun id =>
    db.posts.rows.any fun p => p.id == id && p.tenantId == tenantId).map (·.storagePath)

structure ClearedFeedback where
  deleted : Nat
  filesRemoved : Nat
  deriving DecidableEq

/-- `confirm` is what the request sends, as text. The disk is the one after the call. -/
def clearWorkspaceFeedback (root : List Char) (disk : Disk) (tenantId : Nat)
    (confirm : Option String) : Handler (Reply ClearedFeedback × Disk) :=
  tryCatch (do
    let tenant ← selectAt .tenantsSelect fun db => db.tenants.byId tenantId
    match tenant with
    | none => reject 404 "workspace_not_found"
    | some t =>
      if trim (confirm.getD "") ≠ t.subdomain then reject 400 "clear_confirm_mismatch"
      else do
        let files ← query fun db => db.filesOf tenantId
        -- one DELETE; what hangs on the posts goes by the foreign keys
        let deleted ← call .postsDelete fun w =>
          some (w.db.posts.rows.countP (·.tenantId == tenantId),
            { w with db := w.db.prune { post := (·.tenantId == tenantId) } })
        -- never throws: the rows are gone already
        let (filesRemoved, left) := removeFiles root files disk
        let reply ← resolve 200 "feedback_cleared" { deleted, filesRemoved : ClearedFeedback }
        return (reply, left)) (failWith "internal_server_error")

/-- The post is one of the workspace. -/
def Db.hasPost (db : Db) (tenantId id : Nat) : Bool :=
  db.posts.rows.any fun p => p.id == id && p.tenantId == tenantId

/-- What is left of the boards: the posts of other workspaces, without their marks as duplicates of
a post that goes, and whatever neither stands at a post of the workspace nor hangs under a comment
that does. The tenant of a vote, a comment or the like is not asked for. -/
structure BoardCleared (T : Nat) (db db' : Db) : Prop where
  posts : ∀ p, p ∈ db'.posts ↔ ∃ q ∈ db.posts, q.tenantId ≠ T ∧
    p = if q.duplicateOfPostId.any (db.hasPost T) then q.unmarked else q
  votes : ∀ v, v ∈ db'.votes ↔ v ∈ db.votes ∧ db.hasPost T v.postId = false
  comments : ∀ c, c ∈ db'.comments ↔
    c ∈ db.comments ∧ ¬ db.HangsUnder (fun d => db.hasPost T d.postId) c
  postTags : ∀ pt, pt ∈ db'.postTags ↔ pt ∈ db.postTags ∧ db.hasPost T pt.postId = false
  items : ∀ i, i ∈ db'.roadmapItems ↔ i ∈ db.roadmapItems ∧ db.hasPost T i.postId = false
  attachments : ∀ a, a ∈ db'.postAttachments ↔
    a ∈ db.postAttachments ∧ a.postId.any (db.hasPost T) = false
  rest : db' = { db with
    posts := db'.posts
    votes := db'.votes
    comments := db'.comments
    postTags := db'.postTags
    roadmapItems := db'.roadmapItems
    postAttachments := db'.postAttachments }

/-- No row of the workspace `U` stands at a post of `T`, is marked as its duplicate, or hangs under
a comment that stands at one. -/
abbrev StandsApart (U T : Nat) (db : Db) : Prop :=
  ({ post := (·.tenantId == T) } : Pruning).Spares U db

variable {db : Db} {w w' : World} {T : Nat} {root : List Char} {disk disk' : Disk}

/-! ### The folder -/

/-- The folder is an absolute path of names. -/
theorem attachmentDir_eq (cwd : List Char) : ∃ names ≠ [],
    (∀ s ∈ names, Path.IsName s) ∧ attachmentDir cwd = Path.ofNames names := by
  have hparts : Path.parts "/uploads/attachments".toList =
      [[], "uploads".toList, "attachments".toList] := rfl
  obtain ⟨names, hnames, heq⟩ := Path.exists_names (cwd ++ '/' :: "/uploads/attachments".toList)
  refine ⟨names, ?_, hnames, heq⟩
  rintro rfl
  have hwalk : Path.walk [] (Path.parts (cwd ++ '/' :: "/uploads/attachments".toList)) =
      "attachments".toList :: "uploads".toList :: Path.walk [] (Path.parts cwd) := by
    rw [Path.parts_append, Path.walk_append, hparts]
    rfl
  have hlength := congrArg List.length heq
  rw [Path.resolve, hwalk, List.reverse_cons] at hlength
  have hlong := Path.length_ofNames_le (Path.walk [] (Path.parts cwd)).reverse "uploads".toList
  rw [Path.ofNames_concat (by simp), List.length_append] at hlength
  have hone : (Path.ofNames []).length = 1 := rfl
  rw [hone, List.length_cons] at hlength
  have hsome : 0 < (Path.ofNames
      ("uploads".toList :: Path.walk [] (Path.parts cwd)).reverse).length := Nat.succ_pos _
  omega

/-- A stored path stands for a file directly in the folder, or for none. -/
theorem fileOf_eq_some_iff {cwd file : List Char} {storagePath : String} :
    fileOf (attachmentDir cwd) storagePath = some file ↔
      Path.IsName (Path.basename storagePath.toList) ∧
        file = attachmentDir cwd ++ '/' :: Path.basename storagePath.toList := by
  obtain ⟨names, hne, hnames, heq⟩ := attachmentDir_eq cwd
  have hinside := Path.isPrefixOf_join_iff hnames hne (Path.not_mem_basename storagePath.toList)
  rw [heq, fileOf]
  by_cases hname : Path.IsName (Path.basename storagePath.toList)
  · rw [if_pos (hinside.mpr hname), Path.join_name hnames hne hname, Option.some.injEq, eq_comm]
    exact (and_iff_right hname).symm
  · rw [if_neg fun h => hname (hinside.mp h)]
    exact iff_of_false (fun h => by cases h) fun h => hname h.1

/-- The file that an upload writes is the file that its row stands for. -/
theorem fileOf_relativePath (cwd : List Char) {fileName : List Char} (h : Path.IsName fileName) :
    fileOf (attachmentDir cwd) (relativePath fileName) =
      some (Path.join (attachmentDir cwd) fileName) := by
  have hbase : Path.basename (relativePath fileName).toList = fileName := by
    have hslash : "uploads/attachments/".toList = "uploads/attachments".toList ++ ['/'] := rfl
    have hsplit : ∀ dir : List Char, Path.basename ((dir ++ ['/']) ++ fileName) = fileName := by
      intro dir
      rw [List.append_assoc, List.singleton_append, Path.basename_append dir h]
    have hlist : (relativePath fileName).toList = "uploads/attachments/".toList ++ fileName :=
      String.toList_ofList
    rw [hlist, hslash, hsplit]
  obtain ⟨names, hne, hnames, heq⟩ := attachmentDir_eq cwd
  rw [fileOf_eq_some_iff, hbase, heq, Path.join_name hnames hne h]
  exact ⟨h, rfl⟩

/-! ### The files that are removed -/

/-- A file is removed if and only if a row stands for it. -/
theorem removeFiles_left (rows : List String) (file : List Char) :
    (removeFiles root rows disk).2 file = true ↔
      disk file = true ∧ ∀ s ∈ rows, fileOf root s ≠ some file := by
  induction rows generalizing disk with
  | nil => simp [removeFiles]
  | cons s rows ih =>
    rw [removeFiles, List.forall_mem_cons]
    cases hfile : fileOf root s with
    | none =>
      dsimp only
      rw [ih]
      simp
    | some target =>
      by_cases hdisk : disk target = true
      · simp only [hdisk, if_true, ih, Bool.and_eq_true, bne_iff_ne, ne_eq, Option.some.injEq]
        rw [and_assoc, eq_comm (a := file)]
      · simp only [hdisk, Bool.false_eq_true, if_false, ih, ne_eq, Option.some.injEq]
        refine and_congr_right fun hthere => (and_iff_right ?_).symm
        rintro rfl
        exact hdisk hthere

/-- Each file is counted once, however many rows stand for it. -/
theorem removeFiles_removed (rows : List String) :
    (removeFiles root rows disk).1 =
      ((rows.filterMap (fileOf root)).toFinset.filter fun file => disk file = true).card := by
  induction rows generalizing disk with
  | nil => rfl
  | cons s rows ih =>
    rw [removeFiles]
    cases hfile : fileOf root s with
    | none =>
      dsimp only
      rw [ih, List.filterMap_cons_none hfile]
    | some target =>
      rw [List.filterMap_cons_some hfile, List.toFinset_cons, Finset.filter_insert]
      by_cases hdisk : disk target = true
      · have herase : ((rows.filterMap (fileOf root)).toFinset.filter fun file =>
              (disk file && file != target) = true) =
            ((rows.filterMap (fileOf root)).toFinset.filter fun file => disk file = true).erase
              target := by
          ext file
          simp only [Finset.mem_filter, Finset.mem_erase, Bool.and_eq_true, bne_iff_ne, ne_eq]
          tauto
        simp only [hdisk, if_true, ih, herase]
        rw [← Finset.card_insert_of_notMem (Finset.notMem_erase _ _)]
        congr 1
        ext file
        simp only [Finset.mem_insert, Finset.mem_erase]
        tauto
      · simp only [hdisk, Bool.false_eq_true, if_false, ih]

/-! ### What a call does -/

open Sql Sql.Table

/-- A call that is refused or fails does nothing, and another one is one `DELETE`. -/
theorem exec_clearWorkspaceFeedback_cases (root : List Char) (disk : Disk) (T : Nat)
    (confirm : Option String) (w : World) :
    (∃ e, (clearWorkspaceFeedback root disk T confirm).exec w = (.error e, w)) ∨
      ∃ t ∈ w.db.tenants, t.id = T ∧ trim (confirm.getD "") = t.subdomain ∧
        (clearWorkspaceFeedback root disk T confirm).exec w =
          (.ok (⟨200, "feedback_cleared", w.db.posts.rows.countP (·.tenantId == T),
              (removeFiles root (w.db.filesOf T) disk).1⟩,
            (removeFiles root (w.db.filesOf T) disk).2),
            { w with db := w.db.prune { post := (·.tenantId == T) } }) := by
  rw [clearWorkspaceFeedback, Prog.exec_tryCatch, exec_selectAt_bind]
  by_cases hselect : w.fails .tenantsSelect = true
  · rw [if_pos hselect]
    exact .inl ⟨_, rfl⟩
  rw [if_neg hselect]
  cases htenant : w.db.tenants.byId T with
  | none => exact .inl ⟨_, rfl⟩
  | some t =>
    obtain ⟨ht, hid⟩ := byId_eq_some_iff.mp htenant
    dsimp only
    by_cases hconfirm : trim (confirm.getD "") = t.subdomain
    · rw [if_neg (not_not_intro hconfirm), exec_query_bind, Prog.exec_bind, exec_call]
      by_cases hdelete : w.fails .postsDelete = true
      · rw [if_pos hdelete]
        exact .inl ⟨_, rfl⟩
      · rw [if_neg hdelete]
        exact .inr ⟨t, ht, hid, hconfirm, rfl⟩
    · rw [if_pos hconfirm]
      exact .inl ⟨_, rfl⟩

/-- The posts of a workspace, and all that hangs on them. -/
theorem boardCleared_prune : BoardCleared T db (db.prune { post := (·.tenantId == T) }) := by
  have hgone : db.prunedPost { post := (·.tenantId == T) } = db.hasPost T := rfl
  refine ⟨fun p => ?_, fun v => mem_delete, fun c => ?_, fun pt => mem_delete, fun i => mem_delete,
    fun a => mem_delete, rfl⟩
  · rw [Db.mem_posts_prune, hgone]
    simp only [beq_eq_false_iff_ne]
  · have hcut : db.cut { post := (·.tenantId == T) } = fun d => db.hasPost T d.postId :=
      funext fun d => Bool.false_or _
    rw [Db.mem_comments_prune, hcut]

theorem within_clearWorkspaceFeedback (root : List Char) (disk : Disk) (T : Nat)
    (confirm : Option String) : Prog.Within (Writes (ofTenant (some T)))
      (clearWorkspaceFeedback root disk T confirm) := by
  refine .tryCatch (.bind (within_select (Writes.refl _) _ _) fun tenant => ?_) (within_thrown _)
  cases tenant with
  | none => trivial
  | some t =>
    refine .ite trivial (.bind (within_of_reads (Writes.refl _) (reads_query _)) fun files =>
      .bind (within_call (Writes.refl _) fun w n w' hw h => ?_) fun _ => trivial)
    cases hw
    exact actsFor_prune h (fun p _ hp => congrArg some (beq_iff_eq.mp hp).symm) fun _ _ hc => by
      cases hc

theorem mem_filesOf_iff {storagePath : String} : storagePath ∈ db.filesOf T ↔
    ∃ a ∈ db.postAttachments, ∃ p ∈ db.posts, a.postId = some p.id ∧ p.tenantId = T ∧
      a.storagePath = storagePath := by
  rw [Db.filesOf, List.mem_map]
  constructor
  · rintro ⟨a, ha, rfl⟩
    obtain ⟨ha, hpost⟩ := List.mem_filter.mp ha
    obtain ⟨id, hid, hany⟩ := (Option.any_eq_true _ _).mp hpost
    obtain ⟨p, hp, hat⟩ := List.any_eq_true.mp hany
    obtain ⟨hpid, htenant⟩ := Bool.and_eq_true_iff.mp hat
    exact ⟨a, ha, p, hp, beq_iff_eq.mp hpid ▸ hid, beq_iff_eq.mp htenant, rfl⟩
  · rintro ⟨a, ha, p, hp, hpost, htenant, rfl⟩
    refine ⟨a, List.mem_filter.mpr ⟨ha, (Option.any_eq_true _ _).mpr ⟨p.id, hpost, ?_⟩⟩, rfl⟩
    exact List.any_eq_true.mpr ⟨p, hp, Bool.and_eq_true_iff.mpr
      ⟨beq_self_eq_true _, beq_iff_eq.mpr htenant⟩⟩

/-- Where every key stays within its workspace, all other workspaces stand apart. -/
theorem OwnReferences.standsApart (h : OwnReferences db) {U : Nat} (hU : U ≠ T) :
    StandsApart U T db :=
  h.spares (· = T) (fun _ _ hp => beq_iff_eq.mp hp) (fun _ _ hc => by cases hc) hU

/-- A call that fails changes nothing. A call that does not has been given the subdomain and deletes
the posts of the workspace with all that hangs on them. It leaves another workspace as it is if and
only if nothing of it stands at one of these posts, and removes the files of the attachments that
lie directly in the folder, and no other file. -/
theorem clears_workspace (cwd : List Char) (disk : Disk) (T : Nat) (confirm : Option String)
    {r : Except Failure (Reply ClearedFeedback × Disk)}
    (h : (clearWorkspaceFeedback (attachmentDir cwd) disk T confirm).exec w = (r, w')) :
    (∀ e, r = .error e → w' = w) ∧ ∀ reply left, r = .ok (reply, left) →
      (∃ t ∈ w.db.tenants, t.id = T ∧ trim (confirm.getD "") = t.subdomain) ∧
      w' = { w with db := w'.db } ∧ BoardCleared T w.db w'.db ∧
      (∀ U, Db.SameFor U w.db w'.db ↔ StandsApart U T w.db) ∧
      (OwnReferences w.db → ∀ U, U ≠ T → Db.SameFor U w.db w'.db) ∧
      reply.result.deleted = w.db.posts.rows.countP (·.tenantId == T) ∧
      reply.result.filesRemoved = (((w.db.filesOf T).filterMap
        (fileOf (attachmentDir cwd))).toFinset.filter fun file => disk file = true).card ∧
      ∀ file, left file = true ↔ disk file = true ∧
        ¬ ∃ a ∈ w.db.postAttachments, ∃ p ∈ w.db.posts, a.postId = some p.id ∧ p.tenantId = T ∧
          Path.IsName (Path.basename a.storagePath.toList) ∧
          file = attachmentDir cwd ++ '/' :: Path.basename a.storagePath.toList := by
  rcases exec_clearWorkspaceFeedback_cases (attachmentDir cwd) disk T confirm w with
    ⟨e, hfailed⟩ | ⟨t, ht, hid, hconfirm, hdone⟩
  · -- refused, or a statement failed before anything was deleted
    rw [hfailed] at h
    cases h
    exact ⟨fun _ _ => rfl, fun _ _ hok => by cases hok⟩
  · rw [hdone] at h
    cases h
    constructor
    · intro e herror
      cases herror
    intro reply left hok
    cases hok
    refine ⟨⟨t, ht, hid, hconfirm⟩, rfl, boardCleared_prune, fun U => sameFor_prune_iff,
      fun hown U hU => sameFor_prune_iff.mpr (hown.standsApart hU), rfl, removeFiles_removed _,
      fun file => ?_⟩
    -- what is left of the disk, file by file
    rw [removeFiles_left]
    refine and_congr_right fun _ => ⟨?_, ?_⟩
    · rintro hrows ⟨a, ha, p, hp, hpost, htenant, hname, hfile⟩
      exact hrows _ (mem_filesOf_iff.mpr ⟨a, ha, p, hp, hpost, htenant, rfl⟩)
        (fileOf_eq_some_iff.mpr ⟨hname, hfile⟩)
    · intro hnone storagePath hrow hfile
      obtain ⟨a, ha, p, hp, hpost, htenant, rfl⟩ := mem_filesOf_iff.mp hrow
      obtain ⟨hname, hfile⟩ := fileOf_eq_some_iff.mp hfile
      exact hnone ⟨a, ha, p, hp, hpost, htenant, hname, hfile⟩

/-! ### Two workspaces -/

def depot : Tenant where
  id := 2
  name := "Depot"
  slug := "depot"
  subdomain := "depot"

def complaint : Post where
  id := 2
  tenantId := 2
  title := "The gate"
  description := ""
  createdAt := 0

/-- A picture of the suggestion. -/
def picture : PostAttachment where
  id := 1
  tenantId := 1
  postId := some 1
  kind := .image
  storagePath := "uploads/attachments/att-1.png"
  mimeType := "image/png"
  sizeBytes := 9

/-- The corner shop and the depot, with a post each. -/
def twoBoards : World where
  db :=
    { tenants := ((Sql.Table.single corner).insert? fun id => { depot with id := id }).getD .empty
      users := .single ada
      posts := ((Sql.Table.single suggestion).insert? fun id =>
        { complaint with id := id }).getD .empty
      comments := .single adaComment
      postAttachments := .single picture }

/-- The same boards, but the comment at the corner shop's post is the depot's. -/
def depotVisits : World where
  db := { twoBoards.db with comments := .single { adaComment with tenantId := 2 } }

/-- The depot keeps what it has, and loses a comment that it has made at the corner shop's post. -/
theorem clears_corner :
    (∃ reply left w', (clearWorkspaceFeedback (attachmentDir ['/', 'a']) (fun _ => true) 1
        (some " corner ")).exec twoBoards = (.ok (reply, left), w') ∧
      BoardCleared 1 twoBoards.db w'.db ∧ Db.SameFor 2 twoBoards.db w'.db) ∧
    ∃ reply left w', (clearWorkspaceFeedback (attachmentDir ['/', 'a']) (fun _ => true) 1
        (some " corner ")).exec depotVisits = (.ok (reply, left), w') ∧
      ¬ Db.SameFor 2 depotVisits.db w'.db := by
  constructor
  · refine ⟨_, _, _, rfl, ?_⟩
    have hclears := (clears_workspace (w := twoBoards) ['/', 'a'] (fun _ => true) 1
      (some " corner ") rfl).2 _ _ rfl
    exact ⟨hclears.2.2.1, hclears.2.2.2.2.1 (by decide) 2 (by decide)⟩
  · refine ⟨_, _, _, rfl, fun hsame => ?_⟩
    have hclears := (clears_workspace (w := depotVisits) ['/', 'a'] (fun _ => true) 1
      (some " corner ") rfl).2 _ _ rfl
    have happart := (hclears.2.2.2.1 2).mp hsame
    have hseed : depotVisits.db.cut { post := (·.tenantId == 1) }
        { adaComment with tenantId := 2 } = true := by decide
    have hmine : ({ adaComment with tenantId := 2 } : Comment) ∈ depotVisits.db.comments :=
      List.mem_singleton.mpr rfl
    exact happart.comments _ hmine rfl (.seed hseed)

end Feedbase
