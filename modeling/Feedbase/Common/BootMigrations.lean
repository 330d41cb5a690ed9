import Feedbase.Lib.Turns
import Feedbase.Schema.Board
import Mathlib.Data.List.Perm.Subperm

/-!
# Migrations at boot

Every worker of the cluster migrates the schema before it listens. A migration is a list of
changes, each of which looks into `information_schema` and adds a part that is missing. Two
workers that look at the same time would both add, and the second would fail, so all of it runs
under an advisory lock of MySQL: one worker migrates and the others wait.

The script runs in a process of its own, on connections of its own. The lock belongs to the
connection of the worker. So the two can part: a worker whose connection is lost no longer
holds the lock, while its script goes on.

## Main definitions

* `Change`, `migrations` — what the three scripts add
* `BootState` — schema, lock and connections, as the database server has them
* `runBootMigrations`, `startServer`
* `bootSystem` — any number of workers

## Main results

* `needsMet_migrations` — every change finds what it needs
* `boot_alone` — what a boot adds and reports when it runs alone
-/

namespace Feedbase

/-! ### The changes -/

/-- What `information_schema` is asked about. -/
inductive Part where
  | table (name : String)
  | column (table name : String)
  | index (table name : String)
  deriving DecidableEq

/-- How the scripts name a part. -/
def Part.label : Part → String
  | .table name => name
  | .column tbl name => tbl ++ "." ++ name
  | .index tbl name => "index " ++ tbl ++ "." ++ name

/-- One statement of a script: what it adds and what has to be there. A unique key also needs
rows that differ in it. -/
structure Change where
  part : Part
  needs : List Part
  unique : Bool := false
  ifNotExists : Bool := false

/-- `ALTER TABLE table ADD COLUMN name … AFTER …`. -/
def addColumn (table name : String) (behind : List String) : Change where
  part := .column table name
  needs := .table table :: behind.map (.column table)

/-- `ALTER TABLE table ADD KEY name (columns)`. -/
def addIndex (table name : String) (columns : List String) (unique : Bool) : Change where
  part := .index table name
  needs := .table table :: columns.map (.column table)
  unique := unique

/-- `MODERATION_COLUMNS`. -/
def moderationColumns (table : String) : List Change :=
  ["moderation_state", "spam_score", "spam_reasons", "voter_hash"].map (addColumn table · [])

/-- `scripts/add-spam-columns.js`. -/
def addSpamColumns : List Change :=
  moderationColumns "posts" ++ moderationColumns "comments" ++
    [addColumn "votes" "voter_hash" ["guest_id"],
      addIndex "votes" "uq_votes_voter_hash" ["tenant_id", "post_id", "voter_hash"] true,
      addIndex "posts" "idx_posts_tenant_moderation" ["tenant_id", "moderation_state"] false,
      addIndex "comments" "idx_comments_moderation" ["tenant_id", "moderation_state"] false,
      { part := .table "public_write_counters", needs := [], ifNotExists := true }]

/-- `scripts/add-spam-review-columns.js`. -/
def addSpamReviewColumns : List Change :=
  ["posts", "comments"].flatMap fun table =>
    ["spam_reviewed_at", "spam_reviewed_score"].map (addColumn table · [])

/-- `scripts/add-require-auth-to-post.js`. -/
def addRequireAuthToPost : List Change :=
  [addColumn "tenants" "require_auth_to_post" ["branding_primary_color"]]

/-- `MIGRATIONS`. -/
def migrations : List (String × List Change) :=
  [("add-spam-columns.js", addSpamColumns),
    ("add-spam-review-columns.js", addSpamReviewColumns),
    ("add-require-auth-to-post.js", addRequireAuthToPost)]

/-- What the migrations add. -/
def migratedParts : List Part := migrations.flatMap fun m => m.2.map (·.part)

/-- What they find in the oldest schema they are run against. -/
def oldParts : List Part :=
  [.table "posts", .table "comments", .table "votes", .table "tenants",
    .column "posts" "tenant_id", .column "comments" "tenant_id", .column "votes" "tenant_id",
    .column "votes" "post_id", .column "votes" "guest_id",
    .column "tenants" "branding_primary_color"]

/-- Every change finds what it needs among the parts that are there before and those the
changes in front of it add. -/
def NeedsMet : List Part → List Change → Prop
  | _, [] => True
  | known, ch :: changes =>
    (∀ p ∈ ch.needs, p ∈ oldParts ∨ p ∈ known) ∧ NeedsMet (known ++ [ch.part]) changes

instance decidableNeedsMet : (known : List Part) → (changes : List Change) →
    Decidable (NeedsMet known changes)
  | _, [] => .isTrue trivial
  | known, ch :: changes =>
    haveI := decidableNeedsMet (known ++ [ch.part]) changes
    inferInstanceAs (Decidable (_ ∧ _))

theorem needsMet_append {known : List Part} {changes changes' : List Change} :
    NeedsMet known (changes ++ changes') ↔
      NeedsMet known changes ∧ NeedsMet (known ++ changes.map (·.part)) changes' := by
  induction changes generalizing known with
  | nil => simp [NeedsMet]
  | cons ch changes ih => simp [NeedsMet, ih, and_assoc]

theorem needsMet_migrations : NeedsMet [] (migrations.flatMap (·.2)) := by decide

/-! ### The database server and the workers -/

/-- What may fail for reasons of its own. -/
inductive Trouble where
  | connections
  | statements
  | processes
  deriving DecidableEq

/-- A `GET_LOCK` that has not been answered. -/
structure LockWait where
  conn : Nat
  since : Nat
  deriving DecidableEq

structure BootState where
  schema : List Part := []
  votes : List Vote := []
  now : Nat := 0
  /-- connections have ids that the server never uses again -/
  nextConn : Nat := 0
  /-- the connection that holds `feedboard_boot_migrations` -/
  holder : Option Nat := none
  waiting : List LockWait := []
  /-- connections that are gone although their worker lives -/
  lost : List Nat := []
  /-- connections whose worker is gone, with its script -/
  killed : List Nat := []
  fails : Trouble → Bool := fun _ => false
  /-- parts that somebody has added by hand -/
  byHand : List Part := []
  /-- what a script prints when it starts -/
  banner : List String := []
  /-- the changes that were reported, under the script's name -/
  console : List (String × List String) := []

inductive BootError where
  | noConnection
  | connectionLost
  | rejected
  | spawnFailed
  | exited (file : String)

/-- The votes of two rows count as one in `uq_votes_voter_hash`. -/
def sameHash (v w : Vote) : Bool :=
  v.tenantId == w.tenantId && v.postId == w.postId && sameKey v.voterHash w.voterHash

/-- No two rows count as one. -/
def VotesDiffer (votes : List Vote) : Prop := votes.Pairwise fun v w => sameHash v w = false

instance (votes : List Vote) : Decidable (VotesDiffer votes) :=
  inferInstanceAs (Decidable (List.Pairwise _ _))

namespace BootState

variable {s : BootState} {conn : Nat} {p q : Part}

def alive (s : BootState) (conn : Nat) : Bool := !s.killed.contains conn

def withPart (s : BootState) (p : Part) : BootState :=
  if p ∈ s.schema then s else { s with schema := s.schema ++ [p] }

theorem mem_withPart : q ∈ (s.withPart p).schema ↔ q ∈ s.schema ∨ q = p := by
  unfold withPart
  by_cases hp : p ∈ s.schema
  · rw [if_pos hp]
    constructor
    · exact .inl
    · rintro (hq | rfl)
      · exact hq
      · exact hp
  · rw [if_neg hp, List.mem_append, List.mem_singleton]

@[simp] theorem withPart_holder : (s.withPart p).holder = s.holder := by
  unfold withPart
  split_ifs <;> rfl

@[simp] theorem withPart_killed : (s.withPart p).killed = s.killed := by
  unfold withPart
  split_ifs <;> rfl

@[simp] theorem withPart_votes : (s.withPart p).votes = s.votes := by
  unfold withPart
  split_ifs <;> rfl

@[simp] theorem withPart_nextConn : (s.withPart p).nextConn = s.nextConn := by
  unfold withPart
  split_ifs <;> rfl

def stopWaiting (s : BootState) (conn : Nat) : BootState :=
  { s with waiting := s.waiting.filter (·.conn != conn) }

/-- Only its holder can release the lock. -/
def unlock (s : BootState) (conn : Nat) : BootState :=
  { s with holder := if s.holder = some conn then none else s.holder }

/-- The server frees the lock of a connection that ends, and its `GET_LOCK` is not answered. -/
def disconnect (s : BootState) (conn : Nat) : BootState := (s.unlock conn).stopWaiting conn

/-- `LOCK_TIMEOUT_SECONDS`. -/
def lockTimeoutSeconds : Nat := 120

/-- The connection has waited for the lock as long as it asked to. -/
def timedOut (s : BootState) (conn : Nat) : Bool :=
  s.waiting.any fun w => w.conn == conn && decide (w.since + lockTimeoutSeconds ≤ s.now)

/-- The statement goes through. -/
def accepts (s : BootState) (ch : Change) : Bool :=
  (ch.ifNotExists || !s.schema.contains ch.part) && ch.needs.all s.schema.contains &&
    (!ch.unique || decide (VotesDiffer s.votes))

/-- `INSERT IGNORE INTO votes`, from a server that listens. -/
def castVote (s : BootState) (v : Vote) : BootState :=
  if v.voterHash.isSome && !s.schema.contains (.column "votes" "voter_hash") then s
  else if s.schema.contains (.index "votes" "uq_votes_voter_hash") && s.votes.any (sameHash · v) then s
  else { s with votes := s.votes ++ [v] }

end BootState

/-! ### The worker -/

abbrev Boot (α : Type) := Prog BootState BootError α

section Worker

variable {α : Type} (conn : Nat)

/-- A statement on the connection the lock belongs to. -/
def onConn (f : BootState → Except BootError α × BootState) : Boot α :=
  .step (·.alive conn) fun s =>
    if s.lost.contains conn then (.error .connectionLost, s)
    else if s.fails .statements then (.error .rejected, s)
    else f s

/-- A statement of the worker's script, on a connection of the script's own. -/
def inScript (f : BootState → Except BootError α × BootState) : Boot α :=
  .step (·.alive conn) fun s => if s.fails .statements then (.error .rejected, s) else f s

/-- `hasColumn`, `hasIndex` and the query for a table. -/
def hasPart (p : Part) : Boot Bool := inScript conn fun s => (.ok (s.schema.contains p), s)

def alterTable (ch : Change) : Boot Unit :=
  inScript conn fun s =>
    if s.accepts ch then (.ok (), s.withPart ch.part) else (.error .rejected, s)

/-- One turn of the loops in `addColumns` and `addIndexes`, with the line it prints. -/
def addPart (ch : Change) : Boot String := do
  if ← hasPart conn ch.part then pure (ch.part.label ++ " already exists — skipping")
  else
    alterTable conn ch
    pure ("added " ++ ch.part.label)

def addParts : List Change → Boot (List String)
  | [] => pure []
  | ch :: changes => do
    let line ← addPart conn ch
    let lines ← addParts changes
    pure (line :: lines)

/-- The script in a process of its own; it exits with 1 when a statement fails. -/
def runScript (file : String) (changes : List Change) : Boot (List String) := do
  let out ← Prog.step (·.alive conn) fun s =>
    if s.fails .processes then (.error .spawnFailed, s) else (.ok s.banner, s)
  tryCatch (do
    let lines ← addParts conn changes
    pure (out ++ lines)) fun _ => throw (.exited file)

/-- `/\bready$/i`. -/
def endsReady (l : List Char) : Bool :=
  let word := "ready".toList.reverse
  (l.reverse.take 5).map Char.toLower == word &&
    !((l.reverse.drop 5).head?.any fun c => c.isAlphanum || c == '_')

/-- `/^added /i.test(l) || /\bready$/i.test(l)`. -/
def isChange (l : String) : Bool :=
  (l.toList.take 6).map Char.toLower == "added ".toList || endsReady l.toList

def logChanges (file : String) (out : List String) : Boot Unit :=
  let changed := out.filter isChange
  if changed = [] then pure ()
  else
    Prog.step (·.alive conn) fun s => (.ok (), { s with console := s.console ++ [(file, changed)] })

def migrateAll : Boot Unit :=
  migrations.forM fun m => do
    let out ← runScript conn m.1 m.2
    logChanges conn m.1 out

/-- `SELECT GET_LOCK`, until it is answered. -/
def getLock : Boot Bool := do
  onConn conn fun s => (.ok (), { s with waiting := s.waiting ++ [⟨conn, s.now⟩] })
  Prog.step (fun s => s.alive conn && (s.lost.contains conn || s.holder.isNone || s.timedOut conn))
    fun s =>
      if s.lost.contains conn then (.error .connectionLost, s.stopWaiting conn)
      else if s.holder.isNone then (.ok true, { s.stopWaiting conn with holder := some conn })
      else (.ok false, s.stopWaiting conn)

/-- `SELECT RELEASE_LOCK`. -/
def releaseLock : Boot Unit := onConn conn fun s => (.ok (), s.unlock conn)

/-- What happens once there is a connection; the lock is released in a `finally`. -/
def migrateLocked : Boot Bool := do
  if ← getLock conn then
    let failed ← tryCatch (do migrateAll conn; pure none) fun e => pure (some e)
    releaseLock conn
    match failed with
    | none => pure true
    | some e => throw e
  else pure false

end Worker

/-- `pool.getConnection()`. -/
def getConnection : Boot Nat :=
  .attempt .noConnection fun s =>
    if s.fails .connections then none else some (s.nextConn, { s with nextConn := s.nextConn + 1 })

def runBootMigrations (skip : Bool) : Boot Bool :=
  if skip then pure true
  else do
    let conn ← tryCatch (some <$> getConnection) fun _ => pure none
    match conn with
    | none => pure false
    | some conn => tryCatch (migrateLocked conn) fun _ => pure false

/-- Where a process of `app.js` ends up. -/
inductive Started where
  | listening
  | exited
  deriving DecidableEq

/-- The end of `app.js`, with `SKIP_BOOT_MIGRATIONS`. -/
def startServer (skip : Bool) : Boot Started := do
  if ← runBootMigrations skip then pure .listening else pure .exited

/-- What happens to the workers and behind their backs. -/
inductive BootEvent where
  | tick (seconds : Nat)
  | kill (conn : Nat)
  | lose (conn : Nat)
  | fail (trouble : Trouble) (on : Bool)
  /-- somebody runs a script by hand -/
  | alter (p : Part)
  | vote (v : Vote)

def BootState.after (s : BootState) : BootEvent → BootState
  | .tick seconds => { s with now := s.now + seconds }
  | .kill conn => { s.disconnect conn with killed := conn :: s.killed }
  | .lose conn => { s.disconnect conn with lost := conn :: s.lost }
  | .fail trouble on => { s with fails := Function.update s.fails trouble on }
  | .alter p => { s.withPart p with byHand := p :: s.byHand }
  | .vote v => s.castVote v

/-- Workers that boot. -/
def bootSystem : System BootState BootError Started Bool BootEvent where
  handler := startServer
  env e s := s.after e

/-! ### A boot that runs alone -/

/-- What a script prints about a change. -/
def BootState.line (s : BootState) (ch : Change) : String :=
  if ch.part ∈ s.schema then ch.part.label ++ " already exists — skipping"
  else "added " ++ ch.part.label

/-- The parts of the changes that are not there, in their order. -/
def BootState.missing (s : BootState) (changes : List Change) : List Part :=
  (changes.map (·.part)).filter (· ∉ s.schema)

def BootState.withParts (s : BootState) (parts : List Part) : BootState :=
  { s with schema := s.schema ++ parts }

/-- Nothing is in the way of a worker on this connection. -/
structure BootState.Clear (s : BootState) (conn : Nat) : Prop where
  works : ∀ t, s.fails t = false
  kept : conn ∉ s.lost
  differ : VotesDiffer s.votes

section Alone

variable {s : BootState} {conn : Nat}

theorem BootState.Clear.withParts (h : s.Clear conn) (parts : List Part) :
    (s.withParts parts).Clear conn := ⟨h.works, h.kept, h.differ⟩

theorem exec_hasPart (h : s.Clear conn) (p : Part) :
    (hasPart conn p).exec s = (.ok (s.schema.contains p), s) := by
  rw [hasPart, inScript, Prog.exec_step, if_neg (by simp [h.works])]

theorem exec_addPart {ch : Change} (h : s.Clear conn) (hneeds : ∀ p ∈ ch.needs, p ∈ s.schema) :
    (addPart conn ch).exec s = (.ok (s.line ch), s.withParts (s.missing [ch])) := by
  rw [addPart, Prog.exec_bind, exec_hasPart h]
  by_cases hfound : ch.part ∈ s.schema
  · simp [hfound, BootState.line, BootState.missing, BootState.withParts]
  · have haccepts : s.accepts ch = true := by
      simpa [BootState.accepts, hfound, h.differ] using hneeds
    have halter : (alterTable conn ch).exec s = (.ok (), s.withPart ch.part) := by
      rw [alterTable, inScript, Prog.exec_step, if_neg (by simp [h.works]), if_pos haccepts]
    have hcontains : s.schema.contains ch.part = false := by simpa using hfound
    simp only [hcontains, Bool.false_eq_true, if_false]
    rw [Prog.exec_bind, halter]
    simp [BootState.withPart, BootState.line, BootState.missing, BootState.withParts, hfound]

/-- What other changes have added makes no difference. -/
theorem BootState.missing_withParts {changes : List Change} {parts : List Part}
    (hnew : ∀ p ∈ parts, p ∉ changes.map (·.part)) :
    (s.withParts parts).missing changes = s.missing changes := by
  refine List.filter_congr fun p hp => ?_
  have hother : p ∉ parts := fun hmem => hnew p hmem hp
  simp [BootState.withParts, hother]

theorem BootState.missing_append (changes changes' : List Change) :
    s.missing (changes ++ changes') = s.missing changes ++ s.missing changes' := by
  rw [BootState.missing, List.map_append, List.filter_append]
  rfl

theorem BootState.withParts_append (parts parts' : List Part) :
    s.withParts (parts ++ parts') = (s.withParts parts).withParts parts' := by
  simp [BootState.withParts]

theorem BootState.subset_missing {changes : List Change} {p : Part} (hp : p ∈ s.missing changes) :
    p ∈ changes.map (·.part) := (List.mem_filter.mp hp).1

/-- Afterwards the parts of all changes are there. -/
theorem BootState.mem_withParts_missing {changes : List Change} {p : Part}
    (hp : p ∈ changes.map (·.part)) : p ∈ (s.withParts (s.missing changes)).schema := by
  by_cases hfound : p ∈ s.schema
  · exact List.mem_append_left _ hfound
  · exact List.mem_append_right _ (List.mem_filter.mpr ⟨hp, by simpa using hfound⟩)

theorem BootState.line_withParts {ch : Change} {parts : List Part} (hnew : ch.part ∉ parts) :
    (s.withParts parts).line ch = s.line ch := by
  simp [BootState.line, BootState.withParts, hnew]

/-- A script adds what is missing, and prints a line for each of its changes. -/
theorem exec_addParts {known : List Part} {changes : List Change} (h : s.Clear conn)
    (hold : ∀ p ∈ oldParts, p ∈ s.schema) (hknown : ∀ p ∈ known, p ∈ s.schema)
    (horder : NeedsMet known changes) (hnodup : (changes.map (·.part)).Nodup) :
    (addParts conn changes).exec s =
      (.ok (changes.map s.line), s.withParts (s.missing changes)) := by
  induction changes generalizing s known with
  | nil => simp [addParts, BootState.missing, BootState.withParts]
  | cons ch changes ih =>
    obtain ⟨hnew, hnodup⟩ := List.nodup_cons.mp hnodup
    -- what a change needs is either old or added before it
    have hneeds : ∀ p ∈ ch.needs, p ∈ s.schema := fun p hp =>
      (horder.1 p hp).elim (hold p) (hknown p)
    have hgrows : ∀ p ∈ s.schema, p ∈ (s.withParts (s.missing [ch])).schema :=
      fun p hp => List.mem_append_left _ hp
    -- the parts differ, so adding this one makes no later one known
    have hother : ∀ p ∈ s.missing [ch], p ∉ changes.map (·.part) := by
      intro p hp
      rwa [List.mem_singleton.mp (BootState.subset_missing hp)]
    have hrest := ih (h.withParts (s.missing [ch])) (fun p hp => hgrows p (hold p hp))
      (fun p hp => by
        rcases List.mem_append.mp hp with hp | hp
        · exact hgrows p (hknown p hp)
        · exact BootState.mem_withParts_missing hp) horder.2 hnodup
    have hlines : changes.map (s.withParts (s.missing [ch])).line = changes.map s.line := by
      refine List.map_congr_left fun d hd => BootState.line_withParts fun hmem => ?_
      exact hother _ hmem (List.mem_map_of_mem hd)
    have hmissing : s.missing (ch :: changes) = s.missing [ch] ++ s.missing changes :=
      BootState.missing_append [ch] changes
    rw [addParts, Prog.exec_bind, exec_addPart h hneeds]
    dsimp only
    rw [Prog.exec_bind, hrest, BootState.missing_withParts hother, hlines, hmissing,
      BootState.withParts_append]
    rfl

/-! #### What is reported -/

theorem isChange_added (l : String) : isChange ("added " ++ l) = true := by
  have hfront : (("added " ++ l).toList.take 6).map Char.toLower = "added ".toList := by
    rw [String.toList_append]
    rfl
  rw [isChange, hfront, beq_self_eq_true, Bool.true_or]

theorem endsReady_skipping (l : List Char) :
    endsReady (l ++ " already exists — skipping".toList) = false := by
  have hend : (l ++ " already exists — skipping".toList).reverse.take 5 =
      ['g', 'n', 'i', 'p', 'p'] := by
    rw [List.reverse_append]
    rfl
  rw [endsReady, hend]
  rfl

/-- A line that says that something is there already is not taken for a change. -/
theorem isChange_skipping {l : String} (hl : l.toList.head?.all (·.toLower != 'a') = true) :
    isChange (l ++ " already exists — skipping") = false := by
  rw [isChange, String.toList_append, endsReady_skipping, Bool.or_false]
  cases hchars : l.toList with
  | nil => rfl
  | cons c cs =>
    have hc : c.toLower ≠ 'a' := by
      rw [hchars] at hl
      simpa using hl
    rw [beq_eq_false_iff_ne]
    intro heq
    exact hc (List.cons.inj heq).1

theorem label_head :
    ∀ p ∈ migratedParts, p.label.toList.head?.all (·.toLower != 'a') = true := by
  decide +kernel

def added (p : Part) : String := "added " ++ p.label

/-- The lines that count are those about the parts that were missing. -/
theorem filter_isChange_lines {changes : List Change}
    (hparts : ∀ ch ∈ changes, ch.part ∈ migratedParts) :
    (changes.map s.line).filter isChange = (s.missing changes).map added := by
  induction changes with
  | nil => rfl
  | cons ch changes ih =>
    have hrest := ih fun d hd => hparts d (List.mem_cons_of_mem _ hd)
    rw [List.map_cons, ← List.singleton_append (l := changes), BootState.missing_append,
      List.map_append, ← hrest]
    by_cases hfound : ch.part ∈ s.schema
    · have hline := isChange_skipping (label_head ch.part (hparts ch List.mem_cons_self))
      simp [BootState.line, BootState.missing, hfound, hline]
    · simp [BootState.line, BootState.missing, hfound, isChange_added, added]

/-- What is reported of a script. -/
def BootState.report (s : BootState) (m : String × List Change) : Option (String × List String) :=
  if s.missing m.2 = [] then none else some (m.1, (s.missing m.2).map added)

/-- A script that runs, and its report. -/
theorem exec_script {m : String × List Change} {known : List Part} (h : s.Clear conn)
    (hold : ∀ p ∈ oldParts, p ∈ s.schema) (hknown : ∀ p ∈ known, p ∈ s.schema)
    (horder : NeedsMet known m.2) (hnodup : (m.2.map (·.part)).Nodup)
    (hparts : ∀ ch ∈ m.2, ch.part ∈ migratedParts) (hbanner : ∀ l ∈ s.banner, isChange l = false) :
    (do let out ← runScript conn m.1 m.2; logChanges conn m.1 out : Boot Unit).exec s =
      (.ok (), { s.withParts (s.missing m.2) with console := s.console ++ (s.report m).toList }) := by
  have hscript : (runScript conn m.1 m.2).exec s =
      (.ok (s.banner ++ m.2.map s.line), s.withParts (s.missing m.2)) := by
    rw [runScript, Prog.exec_bind, Prog.exec_step, if_neg (by simp [h.works])]
    dsimp only
    rw [Prog.exec_tryCatch, Prog.exec_bind, exec_addParts h hold hknown horder hnodup]
    rfl
  have hchanged : (s.banner ++ m.2.map s.line).filter isChange = (s.missing m.2).map added := by
    have hnone : s.banner.filter isChange = [] := by simpa using hbanner
    rw [List.filter_append, hnone, List.nil_append, filter_isChange_lines hparts]
  rw [Prog.exec_bind, hscript]
  dsimp only
  rw [logChanges, hchanged, BootState.report]
  by_cases hmissing : s.missing m.2 = []
  · simp [hmissing, BootState.withParts]
  · rw [if_neg (by simpa using hmissing), if_neg hmissing, Prog.exec_step]
    rfl

/-- What is there afterwards, and what has been reported. -/
def BootState.migrated (s : BootState) (scripts : List (String × List Change)) : BootState :=
  { s.withParts (s.missing (scripts.flatMap (·.2))) with
    console := s.console ++ scripts.filterMap s.report }

theorem BootState.report_migrated {m : String × List Change} {parts : List Part}
    (hnew : ∀ p ∈ parts, p ∉ m.2.map (·.part)) (console : List (String × List String)) :
    BootState.report { s.withParts parts with console := console } m = s.report m := by
  have hmissing : BootState.missing { s.withParts parts with console := console } m.2 =
      s.missing m.2 := BootState.missing_withParts hnew
  rw [BootState.report, hmissing]
  rfl

theorem exec_scripts {scripts : List (String × List Change)} {known : List Part}
    (h : s.Clear conn) (hold : ∀ p ∈ oldParts, p ∈ s.schema) (hknown : ∀ p ∈ known, p ∈ s.schema)
    (horder : NeedsMet known (scripts.flatMap (·.2)))
    (hnodup : ((scripts.flatMap (·.2)).map (·.part)).Nodup)
    (hparts : ∀ ch ∈ scripts.flatMap (·.2), ch.part ∈ migratedParts)
    (hbanner : ∀ l ∈ s.banner, isChange l = false) :
    (scripts.forM fun m => (do
      let out ← runScript conn m.1 m.2
      logChanges conn m.1 out : Boot Unit)).exec s = (.ok (), s.migrated scripts) := by
  induction scripts generalizing s known with
  | nil => simp [BootState.migrated, BootState.missing, BootState.withParts]
  | cons m scripts ih =>
    rw [List.flatMap_cons, needsMet_append] at horder
    rw [List.flatMap_cons, List.map_append, List.nodup_append] at hnodup
    rw [List.flatMap_cons] at hparts
    have hscript := exec_script h hold hknown horder.1 hnodup.1
      (fun ch hch => hparts ch (List.mem_append_left _ hch)) hbanner
    -- no later script adds a part of this one
    have hother : ∀ p ∈ s.missing m.2, p ∉ (scripts.flatMap (·.2)).map (·.part) := by
      intro p hp hmem
      exact hnodup.2.2 p (BootState.subset_missing hp) p hmem rfl
    have hgrows : ∀ p ∈ s.schema, p ∈ (s.withParts (s.missing m.2)).schema :=
      fun p hp => List.mem_append_left _ hp
    have hrest := ih (s := { s.withParts (s.missing m.2) with
        console := s.console ++ (s.report m).toList }) ⟨h.works, h.kept, h.differ⟩
      (fun p hp => hgrows p (hold p hp)) (fun p hp => by
        rcases List.mem_append.mp hp with hp | hp
        · exact hgrows p (hknown p hp)
        · exact BootState.mem_withParts_missing hp) horder.2 hnodup.2.1
      (fun ch hch => hparts ch (List.mem_append_right _ hch)) hbanner
    -- so the later reports are those of the first state
    have hreports : scripts.filterMap (BootState.report { s.withParts (s.missing m.2) with
        console := s.console ++ (s.report m).toList }) = scripts.filterMap s.report := by
      refine List.filterMap_congr fun m' hm' => BootState.report_migrated (fun p hp hmem => ?_) _
      refine hother p hp ?_
      obtain ⟨ch, hch, rfl⟩ := List.mem_map.mp hmem
      exact List.mem_map_of_mem (List.mem_flatMap.mpr ⟨m', hm', hch⟩)
    have hmissing : BootState.missing { s.withParts (s.missing m.2) with
        console := s.console ++ (s.report m).toList } (scripts.flatMap (·.2)) =
          s.missing (scripts.flatMap (·.2)) := BootState.missing_withParts hother
    change (_ >>= fun _ => scripts.forM _ : Boot Unit).exec s = _
    rw [Prog.exec_bind, hscript]
    dsimp only
    rw [hrest, BootState.migrated, hreports, hmissing, BootState.migrated, List.flatMap_cons,
      BootState.missing_append, BootState.withParts_append]
    cases hreport : s.report m with
    | none => simp [List.filterMap_cons_none hreport, BootState.withParts]
    | some r => simp [List.filterMap_cons_some hreport, BootState.withParts]

theorem exec_migrateAll (h : s.Clear conn) (hold : ∀ p ∈ oldParts, p ∈ s.schema)
    (hbanner : ∀ l ∈ s.banner, isChange l = false) :
    (migrateAll conn).exec s = (.ok (), s.migrated migrations) := by
  have hknown : ∀ p ∈ ([] : List Part), p ∈ s.schema := fun _ hp => absurd hp List.not_mem_nil
  exact exec_scripts h hold hknown needsMet_migrations (by decide) (by decide) hbanner

theorem exec_getLock (h : s.Clear conn) (hfree : s.holder = none)
    (hnew : ∀ w ∈ s.waiting, w.conn ≠ conn) :
    (getLock conn).exec s = (.ok true, { s with holder := some conn }) := by
  have hwaiting : (s.waiting ++ [(⟨conn, s.now⟩ : LockWait)]).filter (·.conn != conn) = s.waiting := by
    rw [List.filter_append, List.filter_eq_self.mpr fun w hw => by simpa using hnew w hw]
    simp
  have hask : (onConn conn fun s =>
      (.ok (), { s with waiting := s.waiting ++ [⟨conn, s.now⟩] }) : Boot Unit).exec s =
        (.ok (), { s with waiting := s.waiting ++ [⟨conn, s.now⟩] }) := by
    rw [onConn, Prog.exec_step, if_neg (by simpa using h.kept), if_neg (by simp [h.works])]
  rw [getLock, Prog.exec_bind, hask]
  dsimp only
  rw [Prog.exec_step, if_neg (by simpa using h.kept), if_pos (by simp [hfree]),
    BootState.stopWaiting, hwaiting]

theorem exec_releaseLock (h : s.Clear conn) :
    (releaseLock conn).exec s = (.ok (), s.unlock conn) := by
  rw [releaseLock, onConn, Prog.exec_step, if_neg (by simpa using h.kept),
    if_neg (by simp [h.works])]

theorem exec_migrateLocked (h : s.Clear conn) (hfree : s.holder = none)
    (hnew : ∀ w ∈ s.waiting, w.conn ≠ conn) (hold : ∀ p ∈ oldParts, p ∈ s.schema)
    (hbanner : ∀ l ∈ s.banner, isChange l = false) :
    (migrateLocked conn).exec s = (.ok true, s.migrated migrations) := by
  have hlocked : BootState.Clear { s with holder := some conn } conn := ⟨h.works, h.kept, h.differ⟩
  have hall := exec_migrateAll hlocked hold hbanner
  have hafter : (BootState.migrated { s with holder := some conn } migrations).Clear conn :=
    ⟨h.works, h.kept, h.differ⟩
  have hunlock : (BootState.migrated { s with holder := some conn } migrations).unlock conn =
      s.migrated migrations := by
    change ({ s.migrated migrations with
      holder := if some conn = some conn then none else some conn } : BootState) = _
    rw [if_pos rfl, ← hfree]
    rfl
  rw [migrateLocked, Prog.exec_bind, exec_getLock h hfree hnew]
  dsimp only [if_true]
  rw [if_pos rfl, Prog.exec_bind, Prog.exec_tryCatch, Prog.exec_bind, hall]
  dsimp only [Prog.exec_pure]
  rw [Prog.exec_bind, exec_releaseLock hafter, hunlock]
  rfl

/-- Nothing is in the way of the next worker, and no other one is about. -/
structure BootState.Quiet (s : BootState) : Prop where
  works : ∀ t, s.fails t = false
  kept : ∀ c ∈ s.lost, c < s.nextConn
  differ : VotesDiffer s.votes
  old : ∀ p ∈ oldParts, p ∈ s.schema
  free : s.holder = none
  waiting : ∀ w ∈ s.waiting, w.conn < s.nextConn
  banner : ∀ l ∈ s.banner, isChange l = false

theorem exec_startServer (h : s.Quiet) :
    (startServer false).exec s =
      (.ok .listening, { s.migrated migrations with nextConn := s.nextConn + 1 }) := by
  have hclear : BootState.Clear { s with nextConn := s.nextConn + 1 } s.nextConn :=
    ⟨h.works, fun hmem => Nat.lt_irrefl _ (h.kept _ hmem), h.differ⟩
  have hlocked := exec_migrateLocked hclear h.free
    (fun w hw => Nat.ne_of_lt (h.waiting w hw)) h.old h.banner
  have hget : (tryCatch (some <$> getConnection) fun _ => pure none : Boot (Option Nat)).exec s =
      (.ok (some s.nextConn), { s with nextConn := s.nextConn + 1 }) := by
    rw [Prog.exec_tryCatch, Prog.map_eq, ← Prog.bind_eq, Prog.exec_bind, getConnection,
      Prog.exec_attempt, if_neg (by simp [h.works])]
    rfl
  have hboot : (runBootMigrations false).exec s =
      (.ok true, { s.migrated migrations with nextConn := s.nextConn + 1 }) := by
    rw [runBootMigrations, if_neg (by simp), Prog.exec_bind, hget]
    dsimp only
    rw [Prog.exec_tryCatch, hlocked]
    rfl
  rw [startServer, Prog.exec_bind, hboot]
  rfl

/-- Once the parts are there, nothing is missing. -/
theorem BootState.migrated_twice (scripts : List (String × List Change)) :
    (s.migrated scripts).migrated scripts = s.migrated scripts := by
  have hnone : ∀ changes : List Change,
      (∀ ch ∈ changes, ch ∈ scripts.flatMap (·.2)) → (s.migrated scripts).missing changes = [] := by
    intro changes hsub
    refine List.filter_eq_nil_iff.mpr fun p hp => ?_
    obtain ⟨ch, hch, rfl⟩ := List.mem_map.mp hp
    have hthere : ch.part ∈ (s.migrated scripts).schema :=
      BootState.mem_withParts_missing (List.mem_map_of_mem (hsub ch hch))
    simpa using hthere
  have hreports : scripts.filterMap (s.migrated scripts).report = [] := by
    refine List.filterMap_eq_nil_iff.mpr fun m hm => ?_
    rw [BootState.report, hnone m.2 fun ch hch => List.mem_flatMap.mpr ⟨m, hm, hch⟩, if_pos rfl]
  rw [BootState.migrated, hreports, hnone _ fun _ h => h]
  simp [BootState.withParts]

theorem BootState.Quiet.migrated (h : s.Quiet) :
    BootState.Quiet { s.migrated migrations with nextConn := s.nextConn + 1 } where
  works := h.works
  kept c hc := Nat.lt_succ_of_lt (h.kept c hc)
  differ := h.differ
  old p hp := List.mem_append_left _ (h.old p hp)
  free := h.free
  waiting w hw := Nat.lt_succ_of_lt (h.waiting w hw)
  banner := h.banner

/-- A worker that boots alone, on whatever part of the migrations has been done before: it adds
the missing parts in their order, reports these and no others, and gives the lock back. The boot
after it finds nothing to do and reports nothing. -/
theorem boot_alone (h : s.Quiet) :
    (startServer false).exec s =
        (.ok .listening, { s.migrated migrations with nextConn := s.nextConn + 1 }) ∧
      (∀ p ∈ migratedParts, p ∈ (s.migrated migrations).schema) ∧
      (startServer false).exec { s.migrated migrations with nextConn := s.nextConn + 1 } =
        (.ok .listening, { s.migrated migrations with nextConn := s.nextConn + 2 }) := by
  refine ⟨exec_startServer h, fun p hp => ?_, ?_⟩
  · refine BootState.mem_withParts_missing ?_
    rwa [List.map_flatMap]
  · have htwice : BootState.migrated { s.migrated migrations with nextConn := s.nextConn + 1 }
        migrations = { s.migrated migrations with nextConn := s.nextConn + 1 } := by
      change { (s.migrated migrations).migrated migrations with nextConn := s.nextConn + 1 } = _
      rw [BootState.migrated_twice]
    rw [exec_startServer h.migrated, htwice]

end Alone

/-- The oldest schema, and a vote from the days before the hashes. -/
def oldBoard : BootState where
  schema := oldParts
  votes := [{ id := 1, tenantId := 1, postId := 1, guestId := some "ada" }]

theorem quiet_oldBoard : oldBoard.Quiet where
  works _ := rfl
  kept _ hc := absurd hc List.not_mem_nil
  differ := by decide
  old _ hp := hp
  free := rfl
  waiting _ hw := absurd hw List.not_mem_nil
  banner _ hl := absurd hl List.not_mem_nil

theorem boot_oldBoard :
    (startServer false).exec oldBoard =
        (.ok .listening, { oldBoard.migrated migrations with nextConn := 1 }) ∧
      (∀ p ∈ migratedParts, p ∈ (oldBoard.migrated migrations).schema) ∧
      (startServer false).exec { oldBoard.migrated migrations with nextConn := 1 } =
        (.ok .listening, { oldBoard.migrated migrations with nextConn := 2 }) :=
  boot_alone quiet_oldBoard

end Feedbase
