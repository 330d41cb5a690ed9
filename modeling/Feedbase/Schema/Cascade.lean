import Feedbase.Lib.Closure
import Feedbase.Schema.Board

/-!
# What a delete takes along

A `DELETE` on `tenants` or `users` takes along the rows whose foreign key says
`ON DELETE CASCADE`, clears the columns that say `SET NULL`, and is refused when a row
that says `RESTRICT` would survive it.

## Main definitions

* `Selection` — the rows the statement names
* `Db.goneTenant`, `Db.goneUser`, `Db.gonePost`, `Db.goneComment`
* `Db.restricted`, `Db.erase`
-/

namespace Feedbase

open Sql

/-- The rows a `DELETE` names. -/
structure Selection where
  tenant : Tenant → Bool := fun _ => false
  user : User → Bool := fun _ => false

namespace Db

variable (db : Db) (s : Selection)

/-- The tenant with the id goes. -/
def goneTenant (id : Nat) : Bool := db.tenants.rows.any fun t => t.id == id && s.tenant t

/-- A user goes alone or with the tenant. -/
def goneUser (id : Nat) : Bool :=
  db.users.rows.any fun u => u.id == id && (s.user u || u.tenantId.any (db.goneTenant s))

def gonePost (id : Nat) : Bool :=
  db.posts.rows.any fun p => p.id == id && db.goneTenant s p.tenantId

def goneTag (id : Nat) : Bool :=
  db.tags.rows.any fun t => t.id == id && db.goneTenant s t.tenantId

def goneColumn (id : Nat) : Bool :=
  db.roadmapColumns.rows.any fun c => c.id == id && db.goneTenant s c.tenantId

/-- The comment goes with its tenant, its post or its author. -/
def uprooted (c : Comment) : Bool :=
  db.goneTenant s c.tenantId || db.gonePost s c.postId || c.authorId.any (db.goneUser s)

/-- `parent_comment_id` cascades. -/
def answers (c reply : Comment) : Bool := reply.parentCommentId == some c.id

def goneComment (c : Comment) : Bool := Closure.reach db.comments.rows answers (db.uprooted s) c

/-- Tenant and author of the posts. -/
def authored : List (Nat × Nat) := db.posts.rows.filterMap fun p => p.authorId.map (p.tenantId, ·)

/-- Tenant and user of the rows whose user may not be `NULL`. -/
def created : List (Nat × Nat) :=
  db.changelogEntries.rows.map (fun e => (e.tenantId, e.createdBy)) ++
    db.apiKeys.rows.map (fun k => (k.tenantId, k.createdBy)) ++
    db.fileUploads.rows.map (fun f => (f.tenantId, f.uploadedBy))

/-- A row that stays refers to a user that goes, and its foreign key says `RESTRICT`. -/
def restricted : Bool :=
  (db.authored ++ db.created).any fun r => !db.goneTenant s r.1 && db.goneUser s r.2

/-- The database without the rows that go. -/
def erased : Db :=
  { db with
    tenants := db.tenants.delete s.tenant
    users := db.users.delete fun u => db.goneUser s u.id
    promoRedemptions := db.promoRedemptions.delete fun r => db.goneTenant s r.tenantId
    invitations := db.invitations.delete fun i => db.goneTenant s i.tenantId
    -- `ON DELETE SET NULL` for the mark of a duplicate
    posts := (db.posts.delete fun p => db.goneTenant s p.tenantId).update
      (fun p => p.duplicateOfPostId.any (db.gonePost s)) fun p => { p with duplicateOfPostId := none }
    votes := db.votes.delete fun v => db.goneTenant s v.tenantId || db.gonePost s v.postId ||
      v.userId.any (db.goneUser s)
    comments := db.comments.delete (db.goneComment s)
    tags := db.tags.delete fun t => db.goneTenant s t.tenantId
    postTags := db.postTags.delete fun t => db.goneTenant s t.tenantId || db.gonePost s t.postId ||
      db.goneTag s t.tagId
    roadmapColumns := db.roadmapColumns.delete fun c => db.goneTenant s c.tenantId
    roadmapItems := db.roadmapItems.delete fun i => db.goneTenant s i.tenantId ||
      db.gonePost s i.postId || db.goneColumn s i.roadmapColumnId
    postAttachments := db.postAttachments.delete fun a => db.goneTenant s a.tenantId ||
      a.postId.any (db.gonePost s)
    changelogEntries := db.changelogEntries.delete fun e => db.goneTenant s e.tenantId
    apiKeys := db.apiKeys.delete fun k => db.goneTenant s k.tenantId
    fileUploads := db.fileUploads.delete fun f => db.goneTenant s f.tenantId }

/-- `DELETE FROM …`; `none` when a foreign key refuses it. -/
def erase : Option Db := if db.restricted s then none else some (db.erased s)

variable {db s} {db' : Db}

theorem erase_eq_some_iff :
    db.erase s = some db' ↔ db.restricted s = false ∧ db' = db.erased s := by
  unfold erase
  cases db.restricted s with
  | true => simp
  | false => exact ⟨fun h => ⟨rfl, (Option.some.inj h).symm⟩, fun h => congrArg some h.2.symm⟩

theorem restricted_eq_false_iff :
    db.restricted s = false ↔ ∀ r ∈ db.authored ++ db.created, db.goneTenant s r.1 = false →
      db.goneUser s r.2 = false := by
  simp only [restricted, List.any_eq_false, Bool.and_eq_true, Bool.not_eq_true', not_and,
    Bool.not_eq_true]

theorem erase_isSome_iff :
    (db.erase s).isSome = true ↔ ∀ r ∈ db.authored ++ db.created, db.goneTenant s r.1 = false →
      ¬ db.goneUser s r.2 = true := by
  simp only [Bool.not_eq_true, ← restricted_eq_false_iff]
  unfold erase
  cases db.restricted s <;> simp

theorem goneTenant_iff {id : Nat} :
    db.goneTenant s id = true ↔ ∃ t ∈ db.tenants, t.id = id ∧ s.tenant t = true := by
  simp [goneTenant, Table.mem_def]

theorem goneUser_iff {id : Nat} : db.goneUser s id = true ↔ ∃ u ∈ db.users, u.id = id ∧
    (s.user u = true ∨ ∃ t, u.tenantId = some t ∧ db.goneTenant s t = true) := by
  simp [goneUser, Table.mem_def, Option.any_eq_true]

theorem gonePost_iff {id : Nat} : db.gonePost s id = true ↔ ∃ p ∈ db.posts, p.id = id ∧
    db.goneTenant s p.tenantId = true := by
  simp [gonePost, Table.mem_def]

theorem mem_authored {r : Nat × Nat} :
    r ∈ db.authored ↔ ∃ p ∈ db.posts, p.authorId = some r.2 ∧ p.tenantId = r.1 := by
  simp only [authored, List.mem_filterMap, Option.map_eq_some_iff, Table.mem_def]
  constructor
  · rintro ⟨p, hp, a, ha, rfl⟩
    exact ⟨p, hp, ha, rfl⟩
  · rintro ⟨p, hp, ha, ht⟩
    exact ⟨p, hp, r.2, ha, Prod.ext ht rfl⟩

theorem mem_created {r : Nat × Nat} : r ∈ db.created ↔
    (∃ e ∈ db.changelogEntries, (e.tenantId, e.createdBy) = r) ∨
      (∃ k ∈ db.apiKeys, (k.tenantId, k.createdBy) = r) ∨
      ∃ f ∈ db.fileUploads, (f.tenantId, f.uploadedBy) = r := by
  simp only [created, List.mem_append, List.mem_map, Table.mem_def, or_assoc]

/-- The references that are left when the rows have gone. -/
theorem mem_references_erased {r : Nat × Nat} :
    r ∈ (db.erased s).authored ++ (db.erased s).created ↔
      r ∈ db.authored ++ db.created ∧ db.goneTenant s r.1 = false := by
  have hauthored : r ∈ (db.erased s).authored ↔ r ∈ db.authored ∧ db.goneTenant s r.1 = false := by
    simp only [mem_authored, erased, Table.mem_update, Table.mem_delete]
    constructor
    · -- a mark on a post that goes is taken off, which changes no author
      rintro ⟨_, ⟨p, ⟨hp, hstays⟩, rfl⟩, ha, ht⟩
      split at ha
      all_goals
        split at ht
        all_goals exact ⟨⟨p, hp, ha, ht⟩, ht ▸ hstays⟩
    · rintro ⟨⟨p, hp, ha, ht⟩, hstays⟩
      refine ⟨_, ⟨p, ⟨hp, ht ▸ hstays⟩, rfl⟩, ?_, ?_⟩
      · split
        · exact ha
        · exact ha
      · split
        · exact ht
        · exact ht
  have hcreated : r ∈ (db.erased s).created ↔ r ∈ db.created ∧ db.goneTenant s r.1 = false := by
    simp only [mem_created, erased, Table.mem_delete]
    constructor
    · rintro (⟨e, ⟨he, hstays⟩, rfl⟩ | ⟨k, ⟨hk, hstays⟩, rfl⟩ | ⟨f, ⟨hf, hstays⟩, rfl⟩)
      · exact ⟨.inl ⟨e, he, rfl⟩, hstays⟩
      · exact ⟨.inr (.inl ⟨k, hk, rfl⟩), hstays⟩
      · exact ⟨.inr (.inr ⟨f, hf, rfl⟩), hstays⟩
    · rintro ⟨⟨e, he, rfl⟩ | ⟨k, hk, rfl⟩ | ⟨f, hf, rfl⟩, hstays⟩
      · exact .inl ⟨e, ⟨he, hstays⟩, rfl⟩
      · exact .inr (.inl ⟨k, ⟨hk, hstays⟩, rfl⟩)
      · exact .inr (.inr ⟨f, ⟨hf, hstays⟩, rfl⟩)
  rw [List.mem_append, List.mem_append, hauthored, hcreated, or_and_right]

/-- A post that stays may lose the post it is a duplicate of. -/
theorem mem_posts_erased {p : Post} (hp : p ∈ db.posts) (hstays : db.goneTenant s p.tenantId = false) :
    ∃ d, (d = p.duplicateOfPostId ∨ d = none) ∧
      { p with duplicateOfPostId := d } ∈ (db.erased s).posts := by
  have hdelete : p ∈ db.posts.delete fun p => db.goneTenant s p.tenantId :=
    Table.mem_delete.mpr ⟨hp, hstays⟩
  unfold erased
  simp only [Table.mem_update]
  cases hgone : p.duplicateOfPostId.any (db.gonePost s) with
  | true => exact ⟨none, .inr rfl, p, hdelete, by rw [if_pos hgone]⟩
  | false => exact ⟨p.duplicateOfPostId, .inl rfl, p, hdelete, by rw [hgone]; rfl⟩

/-- A comment goes if and only if a chain of parents leads to one that is uprooted. -/
theorem goneComment_iff {c : Comment} (hc : c ∈ db.comments) : db.goneComment s c = true ↔
    Closure.Reached db.comments.rows answers (db.uprooted s) c := Closure.reach_iff hc

end Db

end Feedbase
