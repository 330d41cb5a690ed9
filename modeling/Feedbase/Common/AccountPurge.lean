import Feedbase.Billing.Mirror
import Feedbase.Billing.Steps
import Feedbase.Common.AccountDeletion
import Mathlib.Data.List.Find

/-!
# What a purge leaves behind

A purge repairs the references to the rows of joined workspaces, and to no others. It is
complete and touches nothing else if and only if nothing outside the owned workspaces
refers to a user that goes with them, or to a row of the account without a workspace.

## Main definitions

* `Purged` — what the purge has to achieve
* `doomed`, `Dragged`, `Separable`

## Main results

* `Left.step` — what leaving one workspace changes
* `purged_iff`
-/

namespace Feedbase

open Sql Closure

variable {cfg : Config} {db db₀ db' : Db} {email : String} {done : List User} {m u : User}

/-! ### Deletes that select little -/

section Erase

variable {s : Selection}

theorem goneTenant_eq_false (db : Db) (h : ∀ t, s.tenant t = false) (id : Nat) :
    db.goneTenant s id = false := by
  rw [← Bool.not_eq_true, Db.goneTenant_iff]
  rintro ⟨t, -, -, ht⟩
  rw [h t] at ht
  cases ht

theorem gonePost_eq_false (db : Db) (h : ∀ t, s.tenant t = false) (id : Nat) :
    db.gonePost s id = false := by
  rw [← Bool.not_eq_true, Db.gonePost_iff]
  rintro ⟨p, -, -, hp⟩
  rw [goneTenant_eq_false db h] at hp
  cases hp

theorem goneUser_iff_of_users (h : ∀ t, s.tenant t = false) {id : Nat} :
    db.goneUser s id = true ↔ ∃ u ∈ db.users, u.id = id ∧ s.user u = true := by
  rw [Db.goneUser_iff]
  simp only [goneTenant_eq_false db h, Bool.false_eq_true, and_false, exists_false, or_false]

/-- A comment goes with its author alone when no tenant goes. -/
theorem uprooted_of_users (h : ∀ t, s.tenant t = false) (c : Comment) :
    db.uprooted s c = c.authorId.any (db.goneUser s) := by
  unfold Db.uprooted
  rw [goneTenant_eq_false db h, gonePost_eq_false db h, Bool.false_or, Bool.false_or]

/-- What a `DELETE` on `users` leaves as it is. -/
structure KeepsContent (db db' : Db) : Prop where
  tenants : db'.tenants = db.tenants
  posts : db'.posts = db.posts
  changelogEntries : db'.changelogEntries = db.changelogEntries
  apiKeys : db'.apiKeys = db.apiKeys
  fileUploads : db'.fileUploads = db.fileUploads

theorem keepsContent_erased (db : Db) (s : Selection) (h : ∀ t, s.tenant t = false) :
    KeepsContent db (db.erased s) := by
  have htenant := goneTenant_eq_false db h
  have hpost := gonePost_eq_false db h
  refine ⟨?_, ?_, ?_, ?_, ?_⟩
  · exact Table.delete_eq_self fun t _ => h t
  · have hdelete : (db.posts.delete fun p => db.goneTenant s p.tenantId) = db.posts :=
      Table.delete_eq_self fun p _ => htenant _
    unfold Db.erased
    dsimp only
    rw [hdelete]
    refine Table.update_eq_self fun p _ hp => ?_
    obtain ⟨id, -, hid⟩ := (Option.any_eq_true _ _).mp hp
    rw [hpost] at hid
    cases hid
  · exact Table.delete_eq_self fun e _ => htenant _
  · exact Table.delete_eq_self fun k _ => htenant _
  · exact Table.delete_eq_self fun f _ => htenant _

/-- No comment goes when no author does. -/
theorem comments_erased (h : ∀ c ∈ db.comments, db.uprooted s c = false) :
    (db.erased s).comments = db.comments := by
  refine Table.delete_eq_self fun c hc => ?_
  rw [← Bool.not_eq_true, Db.goneComment_iff hc]
  intro hreached
  have hany : ∀ b, Reached db.comments.rows Db.answers (db.uprooted s) b → b ∈ db.comments →
      ∃ c ∈ db.comments, db.uprooted s c = true := by
    intro b hb hmem
    induction hb with
    | seed hseed => exact ⟨_, hmem, hseed⟩
    | step ha _ _ ih => exact ih ha
  obtain ⟨d, hd, huprooted⟩ := hany c hreached hc
  rw [h d hd] at huprooted
  cases huprooted

theorem option_any_eq_false {q : Nat → Bool} (h : ∀ id, q id = false) (o : Option Nat) :
    o.any q = false := by
  cases o with
  | none => rfl
  | some id => exact h id

/-- A `DELETE` that names no row changes nothing. -/
theorem erase_nothing (htenant : ∀ t, s.tenant t = false) (huser : ∀ u, s.user u = false) :
    db.erase s = some db := by
  have hgone := goneTenant_eq_false db htenant
  have hpost := gonePost_eq_false db htenant
  have hgoneUser : ∀ id, db.goneUser s id = false := by
    intro id
    rw [← Bool.not_eq_true, goneUser_iff_of_users htenant]
    rintro ⟨u, -, -, hu⟩
    rw [huser u] at hu
    cases hu
  have hcolumn : ∀ id, db.goneColumn s id = false := fun id => by simp [Db.goneColumn, hgone]
  have htag : ∀ id, db.goneTag s id = false := fun id => by simp [Db.goneTag, hgone]
  have hcomments : db.comments.delete (db.goneComment s) = db.comments :=
    comments_erased fun c _ => by
      rw [uprooted_of_users htenant, option_any_eq_false hgoneUser]
  have hkeep : ∀ {ρ : Type} [Row ρ] (T : Table ρ), (T.delete fun _ => false) = T :=
    fun T => Table.delete_eq_self fun _ _ => rfl
  have htenants : db.tenants.delete s.tenant = db.tenants :=
    Table.delete_eq_self fun t _ => htenant t
  have hposts : (db.erased s).posts = db.posts := (keepsContent_erased db s htenant).posts
  have herased : db.erased s = db := by
    have htables : db.erased s = { db with posts := (db.erased s).posts } := by
      unfold Db.erased
      simp only [hgone, hpost, hgoneUser, hcolumn, htag, htenants, hcomments, hkeep,
        option_any_eq_false hgoneUser, option_any_eq_false hpost, Bool.or_false]
    rw [htables, hposts]
  refine Db.erase_eq_some_iff.mpr ⟨Db.restricted_eq_false_iff.mpr fun r _ _ => hgoneUser _, ?_⟩
  exact herased.symm

end Erase

/-! ### Leaving the joined workspaces -/

/-- The id is that of one of the rows. -/
def isOf (done : List User) (id : Nat) : Bool := done.any (·.id == id)

/-- The author, unless it is one of the rows. -/
def withoutAuthor (done : List User) (author : Option Nat) : Option Nat :=
  author.filter fun id => !isOf done id

/-- The creator, or the owner of the workspace when it is one of the rows. -/
def handed (db₀ : Db) (done : List User) (id : Nat) : Nat :=
  match done.find? (·.id == id) with
  | some m => (ownerOf db₀ m).getD id
  | none => id

/-- A member's row of the database. -/
structure IsMember (db₀ : Db) (m : User) : Prop where
  mem : m ∈ db₀.users
  role : m.role ≠ .owner
  tenant : m.tenantId.isSome

/-- The references to the rows of `done` have been repaired. -/
structure Repaired (db₀ : Db) (done : List User) (db : Db) : Prop where
  tenants : db.tenants = db₀.tenants
  posts : db.posts.rows = db₀.posts.rows.map fun p =>
    { p with authorId := withoutAuthor done p.authorId }
  comments : db.comments.rows = db₀.comments.rows.map fun c =>
    { c with authorId := withoutAuthor done c.authorId }
  changelogEntries : db.changelogEntries.rows = db₀.changelogEntries.rows.map fun e =>
    { e with createdBy := handed db₀ done e.createdBy }
  apiKeys : db.apiKeys.rows = db₀.apiKeys.rows.map fun k =>
    { k with createdBy := handed db₀ done k.createdBy }
  fileUploads : db.fileUploads.rows = db₀.fileUploads.rows.map fun f =>
    { f with uploadedBy := handed db₀ done f.uploadedBy }

/-- The workspaces of `done` have been left. -/
structure Left (db₀ : Db) (done : List User) (db : Db) : Prop extends Repaired db₀ done db where
  users : db.users.rows = db₀.users.rows.filter fun u => !isOf done u.id

theorem isOf_iff {id : Nat} : isOf done id = true ↔ ∃ d ∈ done, d.id = id := by
  simp [isOf]

theorem withoutAuthor_nil (author : Option Nat) : withoutAuthor [] author = author := by
  cases author <;> rfl

theorem left_nil (db₀ : Db) : Left db₀ [] db₀ := by
  refine ⟨⟨rfl, ?_, ?_, ?_, ?_, ?_⟩, (List.filter_eq_self.mpr fun u _ => rfl).symm⟩
  · simp only [withoutAuthor_nil, List.map_id']
  · simp only [withoutAuthor_nil, List.map_id']
  · simp [handed]
  · simp [handed]
  · simp [handed]

theorem ownerOf_eq_some {o : Nat} (h : ownerOf db m = some o) :
    ∃ u ∈ db.users, u.id = o ∧ u.tenantId = m.tenantId ∧ u.role = .owner := by
  obtain ⟨u, hu, rfl⟩ := Option.map_eq_some_iff.mp h
  have hp := List.find?_some hu
  simp only [Bool.and_eq_true, beq_iff_eq] at hp
  exact ⟨u, List.mem_of_find?_eq_some hu, rfl, hp.1, hp.2⟩

/-- An owner's row is no member's row. -/
theorem IsMember.ne_owner (hm : IsMember db₀ m) {m' : User} {o : Nat} (h : ownerOf db₀ m' = some o) :
    o ≠ m.id := by
  rintro rfl
  obtain ⟨u, hu, hid, -, hrole⟩ := ownerOf_eq_some h
  obtain rfl : u = m := Table.eq_of_id hu hm.mem hid
  exact hm.role hrole

theorem IsMember.handed_eq (hm : IsMember db₀ m) (hnew : isOf done m.id = false) (id : Nat) :
    handed db₀ done id = m.id ↔ id = m.id := by
  unfold handed
  cases hfind : done.find? (·.id == id) with
  | none => rfl
  | some d =>
    have hid : d.id = id := by simpa using List.find?_some hfind
    have hne : id ≠ m.id := by
      rintro rfl
      have hof := isOf_iff.mpr ⟨d, List.mem_of_find?_eq_some hfind, hid⟩
      rw [hnew] at hof
      cases hof
    dsimp only
    cases howner : ownerOf db₀ d with
    | none => rfl
    | some o => exact ⟨fun h => absurd h (hm.ne_owner howner), fun h => absurd h hne⟩

/-- The creator after one more workspace has been left. -/
theorem IsMember.handed_append (hm : IsMember db₀ m) (hnew : isOf done m.id = false) (id : Nat) :
    handed db₀ (done ++ [m]) id = if handed db₀ done id = m.id then (ownerOf db₀ m).getD m.id
      else handed db₀ done id := by
  have hiff := hm.handed_eq hnew id
  unfold handed at hiff ⊢
  rw [List.find?_append]
  cases hfind : done.find? (·.id == id) with
  | some d =>
    have hne : ¬ (ownerOf db₀ d).getD id = m.id := by
      rw [hfind] at hiff
      intro h
      have hid : d.id = id := by simpa using List.find?_some hfind
      have hof := isOf_iff.mpr ⟨d, List.mem_of_find?_eq_some hfind, hid.trans (hiff.mp h)⟩
      rw [hnew] at hof
      cases hof
    simp [hne]
  | none =>
    by_cases hid : id = m.id
    · subst hid
      simp
    · simp [hid, Ne.symm hid]

theorem withoutAuthor_append (author : Option Nat) :
    withoutAuthor (done ++ [m]) author =
      if withoutAuthor done author = some m.id then none else withoutAuthor done author := by
  cases author with
  | none => rfl
  | some id =>
    have happend : isOf (done ++ [m]) id = (isOf done id || m.id == id) := by simp [isOf]
    unfold withoutAuthor
    by_cases hdone : isOf done id = true
    · simp [Option.filter, happend, hdone]
    · by_cases hid : m.id = id
      · simp [Option.filter, happend, hdone, hid]
      · simp [Option.filter, happend, hdone, hid, Ne.symm hid]

/-- The owner is found as at the start. -/
theorem Left.ownerOf_eq (h : Left db₀ done db) (hdone : ∀ d ∈ done, IsMember db₀ d) :
    ownerOf db m = ownerOf db₀ m := by
  unfold ownerOf
  rw [h.users, List.find?_filter]
  congr 1
  refine List.find?_congr fun u hu => ?_
  cases howner : (u.tenantId == m.tenantId && u.role == .owner) with
  | false => simp
  | true =>
    have hof : isOf done u.id = false := by
      rw [← Bool.not_eq_true, isOf_iff]
      rintro ⟨d, hd, hid⟩
      obtain rfl : d = u := Table.eq_of_id (hdone d hd).mem hu hid
      simp only [Bool.and_eq_true, beq_iff_eq] at howner
      exact (hdone d hd).role howner.2
    simp [hof]

@[simp] theorem users_repair : (repair db m).users = db.users := by
  unfold repair
  split <;> rfl

section Column

variable {ρ : Type} (get : ρ → Nat) (set : Nat → ρ → ρ) (rows : List ρ)

/-- The creators after the member's rows have been handed to the owner, where `get` and
`set` are the column. -/
theorem handed_some {o : Nat} (hm : IsMember db₀ m) (hnew : isOf done m.id = false)
    (howner : ownerOf db₀ m = some o) (hget : ∀ n r, get (set n r) = n)
    (hset : ∀ n k r, set n (set k r) = set n r) :
    ((rows.map fun r => set (handed db₀ done (get r)) r).map fun r =>
      if get r == m.id then set o r else r) =
      rows.map fun r => set (handed db₀ (done ++ [m]) (get r)) r := by
  rw [List.map_map]
  refine List.map_congr_left fun r _ => ?_
  dsimp only [Function.comp]
  rw [hget, hm.handed_append hnew, howner]
  by_cases hr : handed db₀ done (get r) = m.id
  · rw [if_pos (beq_iff_eq.mpr hr), if_pos hr, hset]
    rfl
  · rw [if_neg (by simpa using hr), if_neg hr]

/-- Without an owner they stay. -/
theorem handed_none (hm : IsMember db₀ m) (hnew : isOf done m.id = false)
    (howner : ownerOf db₀ m = none) :
    (rows.map fun r => set (handed db₀ done (get r)) r) =
      rows.map fun r => set (handed db₀ (done ++ [m]) (get r)) r := by
  refine List.map_congr_left fun r _ => ?_
  rw [hm.handed_append hnew, howner]
  split
  · rename_i hr
    rw [hr]
    rfl
  · rfl

/-- The authors after the member's rows have been anonymised, where `author` and `set`
are the column. -/
theorem anonymised_append (done : List User) (m : User) (author : ρ → Option Nat)
    (set : Option Nat → ρ → ρ)
    (hget : ∀ a r, author (set a r) = a) (hset : ∀ a b r, set a (set b r) = set a r) :
    ((rows.map fun r => set (withoutAuthor done (author r)) r).map fun r =>
      if author r == some m.id then set none r else r) =
      rows.map fun r => set (withoutAuthor (done ++ [m]) (author r)) r := by
  rw [List.map_map]
  refine List.map_congr_left fun r _ => ?_
  dsimp only [Function.comp]
  rw [hget, withoutAuthor_append]
  by_cases hr : withoutAuthor done (author r) = some m.id
  · rw [if_pos (beq_iff_eq.mpr hr), if_pos hr, hset]
  · rw [if_neg (by simpa using hr), if_neg hr]

end Column

theorem Repaired.repair (h : Repaired db₀ done db) (howner : ownerOf db m = ownerOf db₀ m)
    (hm : IsMember db₀ m) (hnew : isOf done m.id = false) :
    Repaired db₀ (done ++ [m]) (repair db m) := by
  have hposts := anonymised_append db₀.posts.rows done m Post.authorId
    (fun a p => { p with authorId := a }) (fun _ _ => rfl) fun _ _ _ => rfl
  have hcomments := anonymised_append db₀.comments.rows done m Comment.authorId
    (fun a c => { c with authorId := a }) (fun _ _ => rfl) fun _ _ _ => rfl
  rw [← h.posts] at hposts
  rw [← h.comments] at hcomments
  unfold Feedbase.repair
  -- an owner takes over what the member has created; without one it stays the member's
  cases ho : ownerOf db₀ m with
  | some o =>
    rw [howner, ho]
    refine ⟨h.tenants, hposts, hcomments, ?_, ?_, ?_⟩
    · rw [← handed_some ChangelogEntry.createdBy (fun n e => { e with createdBy := n }) _ hm hnew ho
        (fun _ _ => rfl) fun _ _ _ => rfl, ← h.changelogEntries]
      rfl
    · rw [← handed_some ApiKey.createdBy (fun n k => { k with createdBy := n }) _ hm hnew ho
        (fun _ _ => rfl) fun _ _ _ => rfl, ← h.apiKeys]
      rfl
    · rw [← handed_some FileUpload.uploadedBy (fun n f => { f with uploadedBy := n }) _ hm hnew ho
        (fun _ _ => rfl) fun _ _ _ => rfl, ← h.fileUploads]
      rfl
  | none =>
    rw [howner, ho]
    refine ⟨h.tenants, hposts, hcomments, ?_, ?_, ?_⟩
    · rw [← handed_none ChangelogEntry.createdBy (fun n e => { e with createdBy := n }) _ hm hnew ho,
        ← h.changelogEntries]
      rfl
    · rw [← handed_none ApiKey.createdBy (fun n k => { k with createdBy := n }) _ hm hnew ho,
        ← h.apiKeys]
      rfl
    · rw [← handed_none FileUpload.uploadedBy (fun n f => { f with uploadedBy := n }) _ hm hnew ho,
        ← h.fileUploads]
      rfl

theorem Repaired.created_eq (h : Repaired db₀ done db) :
    db.created = db₀.created.map fun r => (r.1, handed db₀ done r.2) := by
  unfold Db.created
  rw [h.changelogEntries, h.apiKeys, h.fileUploads]
  simp only [List.map_append, List.map_map, Function.comp_def]

theorem withoutAuthor_eq_some {author : Option Nat} {id : Nat} :
    withoutAuthor done author = some id ↔ author = some id ∧ isOf done id = false := by
  simp [withoutAuthor, Option.filter_eq_some_iff]

theorem Repaired.mem_authored (h : Repaired db₀ done db) {r : Nat × Nat} :
    r ∈ db.authored ↔ r ∈ db₀.authored ∧ isOf done r.2 = false := by
  simp only [Db.mem_authored, Table.mem_def, h.posts, List.mem_map]
  constructor
  · rintro ⟨_, ⟨p, hp, rfl⟩, hauthor, htenant⟩
    obtain ⟨hauthor, hof⟩ := withoutAuthor_eq_some.mp hauthor
    exact ⟨⟨p, hp, hauthor, htenant⟩, hof⟩
  · rintro ⟨⟨p, hp, hauthor, htenant⟩, hof⟩
    exact ⟨_, ⟨p, hp, rfl⟩, withoutAuthor_eq_some.mpr ⟨hauthor, hof⟩, htenant⟩

theorem Left.mem_users (h : Left db₀ done db) :
    u ∈ db.users ↔ u ∈ db₀.users ∧ isOf done u.id = false := by
  simp [Table.mem_def, h.users]

/-- A handed row refers to the member itself only when there is no owner. -/
theorem IsMember.handed_append_eq (hm : IsMember db₀ m) (hnew : isOf done m.id = false) (id : Nat) :
    handed db₀ (done ++ [m]) id = m.id ↔ id = m.id ∧ ownerOf db₀ m = none := by
  rw [hm.handed_append hnew]
  by_cases hid : id = m.id
  · rw [if_pos ((hm.handed_eq hnew id).mpr hid)]
    cases ho : ownerOf db₀ m with
    | none => simp [hid]
    | some o => simpa [hid] using hm.ne_owner ho
  · have hhanded : ¬ handed db₀ done id = m.id := fun h => hid ((hm.handed_eq hnew id).mp h)
    rw [if_neg hhanded]
    exact ⟨fun h => absurd h hhanded, fun h => absurd h.1 hid⟩

/-- The selection of `leaveWorkspace`. -/
abbrev memberSelection (m : User) : Selection := { user := fun u => u.id == m.id }

theorem goneUser_member (hmem : m ∈ db.users) (id : Nat) :
    db.goneUser (memberSelection m) id = true ↔ id = m.id := by
  rw [goneUser_iff_of_users fun _ => rfl]
  constructor
  · rintro ⟨v, -, rfl, hv⟩
    exact beq_iff_eq.mp hv
  · rintro rfl
    exact ⟨m, hmem, rfl, beq_self_eq_true _⟩

/-- Leaving a workspace fails when the member has created rows that nobody takes over. -/
theorem Left.leave_isSome_iff (h : Left db₀ done db) (hdone : ∀ d ∈ done, IsMember db₀ d)
    (hm : IsMember db₀ m) (hnew : isOf done m.id = false) :
    (leaveWorkspace db m).isSome = true ↔
      ((ownerOf db₀ m).isSome = true ∨ ∀ r ∈ db₀.created, r.2 ≠ m.id) := by
  have hrepaired := h.toRepaired.repair (h.ownerOf_eq hdone) hm hnew
  have hmem : m ∈ (repair db m).users := by
    rw [users_repair]
    exact h.mem_users.mpr ⟨hm.mem, hnew⟩
  have hgone := goneUser_member hmem
  have htenant : ∀ id, (repair db m).goneTenant (memberSelection m) id = false :=
    goneTenant_eq_false _ fun _ => rfl
  -- only the restricting foreign keys can refuse the row
  have hleave : (leaveWorkspace db m).isSome = true ↔
      ∀ r ∈ (repair db m).authored ++ (repair db m).created, r.2 ≠ m.id := by
    unfold leaveWorkspace
    simp only [Db.erase_isSome_iff, htenant, forall_const, hgone, ne_eq]
  rw [hleave, hrepaired.created_eq]
  constructor
  · intro hall
    by_cases ho : (ownerOf db₀ m).isSome = true
    · exact .inl ho
    · refine .inr fun r hr hid => ?_
      refine hall (r.1, handed db₀ (done ++ [m]) r.2) ?_ ?_
      · exact List.mem_append_right _ (List.mem_map_of_mem hr)
      · exact (hm.handed_append_eq hnew r.2).mpr ⟨hid, by simpa using ho⟩
  · rintro hok r hr
    rcases List.mem_append.mp hr with hr | hr
    · -- no author is left to refuse: the authors of the member are set to none before
      have hof := (hrepaired.mem_authored.mp hr).2
      rintro hid
      rw [hid, isOf, List.any_append] at hof
      simp at hof
    · obtain ⟨r₀, hr₀, rfl⟩ := List.mem_map.mp hr
      intro hid
      obtain ⟨hid₀, hnone⟩ := (hm.handed_append_eq hnew r₀.2).mp hid
      rcases hok with hsome | hcreated
      · rw [hnone] at hsome
        cases hsome
      · exact hcreated r₀ hr₀ hid₀

/-- Leaving one more workspace. -/
theorem Left.step (h : Left db₀ done db) (hdone : ∀ d ∈ done, IsMember db₀ d)
    (hm : IsMember db₀ m) (hnew : isOf done m.id = false) (hleave : leaveWorkspace db m = some db') :
    Left db₀ (done ++ [m]) db' := by
  have hrepaired := h.toRepaired.repair (h.ownerOf_eq hdone) hm hnew
  have hmem : m ∈ (repair db m).users := by
    rw [users_repair]
    exact h.mem_users.mpr ⟨hm.mem, hnew⟩
  have hgone := goneUser_member hmem
  obtain ⟨-, rfl⟩ := Db.erase_eq_some_iff.mp hleave
  obtain ⟨htenants, hposts, hchangelog, hkeys, huploads⟩ :=
    keepsContent_erased (repair db m) (memberSelection m) fun _ => rfl
  -- a comment would go with its author, and the member is no author any more
  have hcomments : ((repair db m).erased (memberSelection m)).comments = (repair db m).comments := by
    refine comments_erased fun c hc => ?_
    rw [uprooted_of_users fun _ => rfl, ← Bool.not_eq_true, Option.any_eq_true]
    rintro ⟨id, hauthor, hid⟩
    rw [hgone] at hid
    rw [Table.mem_def, hrepaired.comments] at hc
    obtain ⟨c₀, -, rfl⟩ := List.mem_map.mp hc
    have hof := (withoutAuthor_eq_some.mp hauthor).2
    rw [hid, isOf, List.any_append] at hof
    simp at hof
  refine ⟨⟨?_, ?_, ?_, ?_, ?_, ?_⟩, ?_⟩
  · rw [htenants, hrepaired.tenants]
  · rw [hposts, hrepaired.posts]
  · rw [hcomments, hrepaired.comments]
  · rw [hchangelog, hrepaired.changelogEntries]
  · rw [hkeys, hrepaired.apiKeys]
  · rw [huploads, hrepaired.fileUploads]
  · change ((repair db m).users.delete fun u => (repair db m).goneUser _ u.id).rows = _
    rw [Table.rows_delete, users_repair, h.users, List.filter_filter]
    refine List.filter_congr fun u _ => ?_
    have hboth : (repair db m).goneUser (memberSelection m) u.id = (u.id == m.id) := by
      rw [Bool.eq_iff_iff, hgone, beq_iff_eq]
    rw [hboth]
    simp only [isOf, List.any_append, List.any_cons, List.any_nil, Bool.or_false, Bool.not_or,
      Bool.beq_comm (a := m.id), Bool.and_comm]

/-- The member can be removed: what it has created is taken over. -/
def MayLeave (db : Db) (m : User) : Prop :=
  (ownerOf db m).isSome = true ∨ ∀ r ∈ db.created, r.2 ≠ m.id

/-- Leaving all the workspaces. -/
theorem Left.members {ms : List User} (h : Left db₀ done db) (hdone : ∀ d ∈ done, IsMember db₀ d)
    (hms : ∀ m ∈ ms, IsMember db₀ m) (hnew : ∀ m ∈ ms, isOf done m.id = false)
    (hnodup : (ms.map (·.id)).Nodup) :
    (∀ db', ms.foldlM leaveWorkspace db = some db' → Left db₀ (done ++ ms) db') ∧
      ((ms.foldlM leaveWorkspace db).isSome = true ↔ ∀ m ∈ ms, MayLeave db₀ m) := by
  induction ms generalizing done db with
  | nil =>
    refine ⟨fun db' hdb => ?_, ?_⟩
    · cases hdb
      rw [List.append_nil]
      exact h
    · simp
  | cons m ms ih =>
    have hm := hms m List.mem_cons_self
    have hmNew := hnew m List.mem_cons_self
    obtain ⟨hnotMem, hrest⟩ := List.nodup_cons.mp hnodup
    have hleave := h.leave_isSome_iff hdone hm hmNew
    rw [List.foldlM_cons]
    cases hfirst : leaveWorkspace db m with
    -- the first that may not leave rolls the transaction back
    | none =>
      rw [hfirst] at hleave
      refine ⟨fun db' hdb => (by cases hdb), ?_⟩
      simp only [Option.isSome_none, Bool.false_eq_true, false_iff] at hleave
      simp only [Option.bind_eq_bind, Option.bind_none, Option.isSome_none, Bool.false_eq_true,
        false_iff]
      exact fun hall => hleave (hall m List.mem_cons_self)
    | some db₁ =>
      rw [hfirst] at hleave
      have hstep := h.step hdone hm hmNew hfirst
      have hdone' : ∀ d ∈ done ++ [m], IsMember db₀ d := by
        intro d hd
        rcases List.mem_append.mp hd with hd | hd
        · exact hdone d hd
        · exact List.mem_singleton.mp hd ▸ hm
      have hnew' : ∀ m' ∈ ms, isOf (done ++ [m]) m'.id = false := by
        intro m' hm'
        have hne : m.id ≠ m'.id := fun heq => hnotMem (List.mem_map.mpr ⟨m', hm', heq.symm⟩)
        have hold := hnew m' (List.mem_cons_of_mem _ hm')
        unfold isOf at hold ⊢
        rw [List.any_append, hold]
        simpa using hne
      obtain ⟨hleft, hiff⟩ := ih hstep hdone' (fun m' hm' => hms m' (List.mem_cons_of_mem _ hm'))
        hnew' hrest
      refine ⟨fun db' hdb => ?_, ?_⟩
      · have hall := hleft db' hdb
        rwa [List.append_assoc, List.singleton_append] at hall
      · rw [List.forall_mem_cons]
        change (ms.foldlM leaveWorkspace db₁).isSome = true ↔ _
        rw [hiff]
        exact ⟨fun hall => ⟨hleave.mp rfl, hall⟩, fun hall => hall.2⟩

/-! ### The rows of the account -/

/-- The workspaces the account owns. -/
abbrev Db.owned (db : Db) (email : String) : List Nat := ownedTenantIds (accountRows db email)

/-- The account's rows in workspaces it has joined. -/
abbrev Db.members (db : Db) (email : String) : List User := memberRows (accountRows db email)

/-- The user goes with an owned workspace. -/
def inOwned (db : Db) (email : String) (id : Nat) : Bool :=
  db.users.rows.any fun u => u.id == id && u.tenantId.any (db.owned email).contains

/-- The user is a row of the account that has no workspace. -/
def isLoose (db : Db) (email : String) (id : Nat) : Bool :=
  db.users.rows.any fun u => u.id == id && (u.email == email && u.tenantId.isNone)

/-- The user goes, and the purge repairs no reference to it. -/
def doomed (db : Db) (email : String) (id : Nat) : Bool := inOwned db email id || isLoose db email id

theorem mem_owned {t : Nat} :
    t ∈ db.owned email ↔ ∃ u ∈ db.users, u.email = email ∧ u.role = .owner ∧ u.tenantId = some t := by
  simp only [Db.owned, ownedTenantIds, accountRows, List.mem_filterMap, List.mem_filter, beq_iff_eq,
    Table.mem_def]
  constructor
  · rintro ⟨u, ⟨hu, hemail⟩, ht⟩
    split at ht
    · exact ⟨u, hu, hemail, ‹_›, ht⟩
    · cases ht
  · rintro ⟨u, hu, hemail, hrole, ht⟩
    exact ⟨u, ⟨hu, hemail⟩, by rw [if_pos hrole, ht]⟩

theorem mem_members : m ∈ db.members email ↔ IsMember db m ∧ m.email = email := by
  simp only [Db.members, memberRows, accountRows, List.mem_filter, Bool.and_eq_true, beq_iff_eq,
    bne_iff_ne, ne_eq]
  exact ⟨fun ⟨⟨hm, he⟩, hr, ht⟩ => ⟨⟨hm, hr, ht⟩, he⟩, fun ⟨⟨hm, hr, ht⟩, he⟩ => ⟨⟨hm, he⟩, hr, ht⟩⟩

theorem nodup_members : ((db.members email).map (·.id)).Nodup :=
  db.users.nodup.sublist ((List.filter_sublist.trans List.filter_sublist).map _)

/-- The account owns no workspace that it has joined. -/
theorem tenant_not_owned {t : Nat} (hm : m ∈ db.members email) (ht : m.tenantId = some t) :
    t ∉ db.owned email := by
  obtain ⟨hmember, hemail⟩ := mem_members.mp hm
  intro howned
  obtain ⟨u, hu, huemail, hrole, hut⟩ := mem_owned.mp howned
  have hclash : Row.clash u m = true := by
    simp [Row.clash, hut, ht, huemail, hemail]
  obtain rfl : u = m := Table.eq_of_clash hu hmember.mem hclash
  exact hmember.role hrole

theorem inOwned_iff {id : Nat} : inOwned db email id = true ↔
    ∃ u ∈ db.users, u.id = id ∧ ∃ t, u.tenantId = some t ∧ t ∈ db.owned email := by
  simp [inOwned, Table.mem_def, Option.any_eq_true]

theorem isLoose_iff {id : Nat} : isLoose db email id = true ↔
    ∃ u ∈ db.users, u.id = id ∧ u.email = email ∧ u.tenantId = none := by
  simp [isLoose, Table.mem_def]

/-- The row decides whether the user is doomed. -/
theorem doomed_iff (hu : u ∈ db.users) : doomed db email u.id = true ↔
    (∃ t, u.tenantId = some t ∧ t ∈ db.owned email) ∨ (u.email = email ∧ u.tenantId = none) := by
  have heq : ∀ {v : User}, v ∈ db.users → v.id = u.id → v = u := fun hv h => Table.eq_of_id hv hu h
  unfold doomed
  rw [Bool.or_eq_true, inOwned_iff, isLoose_iff]
  constructor
  · rintro (⟨v, hv, hid, ht⟩ | ⟨v, hv, hid, hloose⟩)
    · exact .inl (heq hv hid ▸ ht)
    · exact .inr (heq hv hid ▸ hloose)
  · rintro (ht | hloose)
    · exact .inl ⟨u, hu, rfl, ht⟩
    · exact .inr ⟨u, hu, rfl, hloose⟩

theorem member_not_doomed (hm : m ∈ db.members email) : doomed db email m.id = false := by
  obtain ⟨hmember, -⟩ := mem_members.mp hm
  rw [← Bool.not_eq_true, doomed_iff hmember.mem]
  rintro (⟨t, ht, howned⟩ | ⟨-, ht⟩)
  · exact tenant_not_owned hm ht howned
  · have hsome := hmember.tenant
    rw [ht] at hsome
    cases hsome

/-- The owner of a joined workspace stays. -/
theorem owner_not_doomed {o : Nat} (hm : m ∈ db.members email) (ho : ownerOf db m = some o) :
    doomed db email o = false := by
  obtain ⟨u, hu, rfl, htenant, -⟩ := ownerOf_eq_some ho
  obtain ⟨hmember, -⟩ := mem_members.mp hm
  rw [← Bool.not_eq_true, doomed_iff hu, htenant]
  rintro (⟨t, ht, howned⟩ | ⟨-, ht⟩)
  · exact tenant_not_owned hm ht howned
  · have hsome := hmember.tenant
    rw [ht] at hsome
    cases hsome

/-- A row of the account is a member's row, or is doomed. -/
theorem doomed_of_account (hu : u ∈ db.users) (hemail : u.email = email) (hm : u ∉ db.members email) :
    doomed db email u.id = true := by
  rw [doomed_iff hu]
  cases ht : u.tenantId with
  | none => exact .inr ⟨hemail, rfl⟩
  | some t =>
    refine .inl ⟨t, rfl, mem_owned.mpr ⟨u, hu, hemail, ?_, ht⟩⟩
    by_contra hrole
    exact hm (mem_members.mpr ⟨⟨hu, hrole, by rw [ht]; rfl⟩, hemail⟩)

/-! ### Deleting the owned workspaces and the remaining rows -/

/-- The selections of the two deletes. -/
abbrev ownedSelection (owned : List Nat) : Selection := { tenant := fun t => owned.contains t.id }

abbrev emailSelection (email : String) : Selection := { user := fun u => u.email == email }

theorem deleteOwned_eq (db : Db) (owned : List Nat) :
    deleteOwned db owned = db.erase (ownedSelection owned) := by
  unfold deleteOwned
  split
  · rename_i howned
    subst howned
    exact (erase_nothing (fun _ => rfl) fun _ => rfl).symm
  · rfl

section Deletes

variable {db₁ : Db} (hleft : Left db₀ (db₀.members email) db₁) (hrefer : UsersReferTenants db₀)

include hleft in
theorem Left.mem_users_iff : u ∈ db₁.users ↔ u ∈ db₀.users ∧ u ∉ db₀.members email := by
  rw [hleft.mem_users, and_congr_right_iff]
  intro hu
  rw [← Bool.not_eq_true, isOf_iff, not_iff_not]
  constructor
  · rintro ⟨d, hd, hid⟩
    obtain rfl : d = u := Table.eq_of_id (mem_members.mp hd).1.mem hu hid
    exact hd
  · exact fun hd => ⟨u, hd, rfl⟩

include hleft hrefer in
theorem Left.goneTenant_eq (id : Nat) :
    db₁.goneTenant (ownedSelection (db₀.owned email)) id = (db₀.owned email).contains id := by
  rw [Bool.eq_iff_iff, Db.goneTenant_iff, hleft.tenants, List.contains_iff_mem]
  constructor
  · rintro ⟨t, -, rfl, ht⟩
    exact List.contains_iff_mem.mp ht
  · intro hid
    obtain ⟨u, hu, -, -, hut⟩ := mem_owned.mp hid
    obtain ⟨t, ht, rfl⟩ := hrefer u hu id hut
    exact ⟨t, ht, rfl, List.contains_iff_mem.mpr hid⟩

include hleft hrefer in
theorem Left.goneUser_owned (id : Nat) :
    db₁.goneUser (ownedSelection (db₀.owned email)) id = inOwned db₀ email id := by
  rw [Bool.eq_iff_iff, Db.goneUser_iff, inOwned_iff]
  simp only [hleft.goneTenant_eq hrefer, List.contains_iff_mem, Bool.false_eq_true, false_or]
  constructor
  · rintro ⟨u, hu, hid, ht⟩
    exact ⟨u, (hleft.mem_users_iff.mp hu).1, hid, ht⟩
  · rintro ⟨u, hu, hid, t, ht, howned⟩
    refine ⟨u, hleft.mem_users_iff.mpr ⟨hu, fun hm => ?_⟩, hid, t, ht, howned⟩
    exact tenant_not_owned hm ht howned

include hleft hrefer in
/-- What is left of the account once the owned workspaces are gone. -/
theorem Left.goneUser_email (id : Nat) :
    (db₁.erased (ownedSelection (db₀.owned email))).goneUser (emailSelection email) id =
      isLoose db₀ email id := by
  have hmem : ∀ {u}, u ∈ (db₁.erased (ownedSelection (db₀.owned email))).users ↔
      u ∈ db₁.users ∧ inOwned db₀ email u.id = false := by
    intro u
    rw [← hleft.goneUser_owned hrefer]
    exact Table.mem_delete
  rw [Bool.eq_iff_iff, goneUser_iff_of_users fun _ => rfl, isLoose_iff]
  simp only [hmem, hleft.mem_users_iff, beq_iff_eq]
  constructor
  · rintro ⟨u, ⟨⟨hu, hmember⟩, howned⟩, hid, hemail⟩
    refine ⟨u, hu, hid, hemail, ?_⟩
    rcases (doomed_iff hu).mp (doomed_of_account hu hemail hmember) with ⟨t, ht⟩ | ⟨-, ht⟩
    · rw [inOwned_iff.mpr ⟨u, hu, rfl, t, ht⟩] at howned
      cases howned
    · exact ht
  · rintro ⟨u, hu, hid, hemail, ht⟩
    refine ⟨u, ⟨⟨hu, fun hm => ?_⟩, ?_⟩, hid, hemail⟩
    · have hsome := (mem_members.mp hm).1.tenant
      rw [ht] at hsome
      cases hsome
    · rw [← Bool.not_eq_true, inOwned_iff]
      rintro ⟨v, hv, hid', t, hvt, -⟩
      obtain rfl : v = u := Table.eq_of_id hv hu hid'
      rw [ht] at hvt
      cases hvt

/-- No row outside the owned workspaces refers to a doomed user. -/
def Unreferenced (db : Db) (email : String) (references : List (Nat × Nat)) : Prop :=
  ∀ r ∈ references, r.1 ∉ db.owned email → doomed db email r.2 = false

include hleft in
/-- Repairs neither add nor remove a reference to a doomed user. -/
theorem Left.unreferenced_iff : Unreferenced db₀ email (db₁.authored ++ db₁.created) ↔
    Unreferenced db₀ email (db₀.authored ++ db₀.created) := by
  unfold Unreferenced
  -- the doomed rows are those of the owned workspaces, so none of them is a member that left
  have hof : ∀ {id}, doomed db₀ email id = true → isOf (db₀.members email) id = false := by
    intro id hdoomed
    rw [← Bool.not_eq_true, isOf_iff]
    rintro ⟨m, hm, rfl⟩
    rw [member_not_doomed hm] at hdoomed
    cases hdoomed
  rw [hleft.created_eq]
  constructor
  · intro h r hr howned
    rw [← Bool.not_eq_true]
    intro hdoomed
    have hnot := hof hdoomed
    have hin : r ∈ db₁.authored ++
        db₀.created.map fun r => (r.1, handed db₀ (db₀.members email) r.2) := by
      rcases List.mem_append.mp hr with hr | hr
      · exact List.mem_append_left _ (hleft.mem_authored.mpr ⟨hr, hnot⟩)
      · refine List.mem_append_right _ (List.mem_map.mpr ⟨r, hr, Prod.ext rfl ?_⟩)
        have hfind : (db₀.members email).find? (·.id == r.2) = none := by
          rw [List.find?_eq_none]
          intro m hm hid
          rw [isOf_iff.mpr ⟨m, hm, beq_iff_eq.mp hid⟩] at hnot
          cases hnot
        simp only [handed, hfind]
    rw [h r hin howned] at hdoomed
    cases hdoomed
  · intro h r hr howned
    rcases List.mem_append.mp hr with hr | hr
    · exact h r (List.mem_append_left _ (hleft.mem_authored.mp hr).1) howned
    · obtain ⟨r₀, hr₀, rfl⟩ := List.mem_map.mp hr
      dsimp only at howned ⊢
      unfold handed
      cases hfind : (db₀.members email).find? (·.id == r₀.2) with
      | none => exact h r₀ (List.mem_append_right _ hr₀) howned
      | some m =>
        have hm := List.mem_of_find?_eq_some hfind
        have hid : m.id = r₀.2 := by simpa using List.find?_some hfind
        cases ho : ownerOf db₀ m with
        | none =>
          dsimp only
          rw [ho, Option.getD_none, ← hid]
          exact member_not_doomed hm
        | some o =>
          dsimp only
          rw [ho, Option.getD_some]
          exact owner_not_doomed hm ho

include hleft hrefer in
/-- The deletes succeed when nothing that stays refers to a doomed user. -/
theorem Left.deletes_iff :
    ((deleteOwned db₁ (db₀.owned email)).bind fun db => db.erase (emailSelection email)).isSome = true ↔
      Unreferenced db₀ email (db₀.authored ++ db₀.created) := by
  rw [← hleft.unreferenced_iff, deleteOwned_eq]
  have hfirst : (db₁.erase (ownedSelection (db₀.owned email))).isSome = true ↔
      ∀ r ∈ db₁.authored ++ db₁.created, r.1 ∉ db₀.owned email → inOwned db₀ email r.2 = false := by
    rw [Db.erase_isSome_iff]
    simp only [hleft.goneTenant_eq hrefer, hleft.goneUser_owned hrefer, ← Bool.not_eq_true,
      List.contains_iff_mem]
  have hsecond : ((db₁.erased (ownedSelection (db₀.owned email))).erase
      (emailSelection email)).isSome = true ↔
      ∀ r ∈ db₁.authored ++ db₁.created, r.1 ∉ db₀.owned email → isLoose db₀ email r.2 = false := by
    have htenant : ∀ id, (db₁.erased (ownedSelection (db₀.owned email))).goneTenant
        (emailSelection email) id = false := goneTenant_eq_false _ fun _ => rfl
    rw [Db.erase_isSome_iff]
    simp only [Db.mem_references_erased, htenant, hleft.goneTenant_eq hrefer,
      hleft.goneUser_email hrefer, forall_const, and_imp, Bool.not_eq_true]
    simp only [← Bool.not_eq_true, List.contains_iff_mem]
  have hboth : Unreferenced db₀ email (db₁.authored ++ db₁.created) ↔
      (∀ r ∈ db₁.authored ++ db₁.created, r.1 ∉ db₀.owned email → inOwned db₀ email r.2 = false) ∧
      ∀ r ∈ db₁.authored ++ db₁.created, r.1 ∉ db₀.owned email → isLoose db₀ email r.2 = false := by
    simp only [Unreferenced, doomed, Bool.or_eq_false_iff, forall_and]
  rw [hboth, ← hfirst, ← hsecond]
  cases herase : db₁.erase (ownedSelection (db₀.owned email)) with
  | none => simp
  | some db₂ =>
    obtain ⟨-, rfl⟩ := Db.erase_eq_some_iff.mp herase
    simp

/-- A comment goes with an owned workspace, with a post of one, or with a doomed author. -/
def uprootedByPurge (db : Db) (email : String) (c : Comment) : Bool :=
  (db.owned email).contains c.tenantId ||
    (db.posts.rows.any fun p => p.id == c.postId && (db.owned email).contains p.tenantId) ||
    c.authorId.any (doomed db email)

/-- The comment, or one it answers to, is uprooted by the purge. -/
def Dragged (db : Db) (email : String) (c : Comment) : Prop :=
  Reached db.comments.rows Db.answers (uprootedByPurge db email) c

/-- The comment after the repairs. -/
def Comment.repaired (db : Db) (email : String) (c : Comment) : Comment :=
  { c with authorId := withoutAuthor (db.members email) c.authorId }

theorem any_withoutAuthor (author : Option Nat) :
    ((withoutAuthor (db₀.members email) author).any (inOwned db₀ email) ||
      (withoutAuthor (db₀.members email) author).any (isLoose db₀ email)) =
      author.any (doomed db₀ email) := by
  cases author with
  | none => rfl
  | some id =>
    cases hof : isOf (db₀.members email) id with
    | true =>
      obtain ⟨m, hm, rfl⟩ := isOf_iff.mp hof
      have hdoomed := member_not_doomed hm
      simp [withoutAuthor, Option.filter, hof, hdoomed]
    | false => simp [withoutAuthor, Option.filter, hof, doomed]

include hleft hrefer in
/-- What the two deletes uproot. -/
theorem Left.uprooted_eq (c : Comment) :
    (db₁.uprooted (ownedSelection (db₀.owned email)) (c.repaired db₀ email) ||
      (db₁.erased (ownedSelection (db₀.owned email))).uprooted (emailSelection email)
        (c.repaired db₀ email)) = uprootedByPurge db₀ email c := by
  have hpost : db₁.gonePost (ownedSelection (db₀.owned email)) c.postId =
      db₀.posts.rows.any fun p => p.id == c.postId && (db₀.owned email).contains p.tenantId := by
    unfold Db.gonePost
    rw [hleft.posts, List.any_map]
    simp only [Function.comp_def, hleft.goneTenant_eq hrefer]
  have howned : db₁.goneUser (ownedSelection (db₀.owned email)) = inOwned db₀ email :=
    funext (hleft.goneUser_owned hrefer)
  have hloose : (db₁.erased (ownedSelection (db₀.owned email))).goneUser (emailSelection email) =
      isLoose db₀ email := funext (hleft.goneUser_email hrefer)
  have hsecond : (db₁.erased (ownedSelection (db₀.owned email))).uprooted (emailSelection email)
      (c.repaired db₀ email) = (c.repaired db₀ email).authorId.any (isLoose db₀ email) := by
    rw [uprooted_of_users fun _ => rfl, hloose]
  rw [hsecond]
  unfold Db.uprooted uprootedByPurge
  dsimp only [Comment.repaired]
  rw [hpost, howned, hleft.goneTenant_eq hrefer, Bool.or_assoc, any_withoutAuthor]

include hleft hrefer in
/-- A repaired comment is still there if and only if it is not dragged along. -/
theorem Left.mem_comments {c : Comment} (hc : c ∈ db₀.comments) :
    c.repaired db₀ email ∈ ((db₁.erased (ownedSelection (db₀.owned email))).erased
      (emailSelection email)).comments ↔ ¬ Dragged db₀ email c := by
  have hmem : c.repaired db₀ email ∈ db₁.comments := by
    rw [Table.mem_def, hleft.comments]
    exact List.mem_map_of_mem hc
  -- first the rows of the owned workspaces go, then those of the address
  have hfirst : ∀ a ∈ db₁.comments.rows, db₁.goneComment (ownedSelection (db₀.owned email)) a = true ↔
      Reached db₁.comments.rows Db.answers (db₁.uprooted (ownedSelection (db₀.owned email))) a :=
    fun a ha => Db.goneComment_iff ha
  have hdragged : Dragged db₀ email c ↔ Reached db₁.comments.rows Db.answers
      (fun a => db₁.uprooted (ownedSelection (db₀.owned email)) a ||
        (db₁.erased (ownedSelection (db₀.owned email))).uprooted (emailSelection email) a)
      (c.repaired db₀ email) := by
    rw [hleft.comments]
    refine Iff.symm ?_
    exact reached_map (f := fun a => a.repaired db₀ email) (b := c) (fun _ _ => rfl)
      (hleft.uprooted_eq hrefer)
  have hstays : ∀ {a}, a ∈ (db₁.erased (ownedSelection (db₀.owned email))).comments ↔
      a ∈ db₁.comments ∧ db₁.goneComment (ownedSelection (db₀.owned email)) a = false :=
    Table.mem_delete
  -- two deletions in a row drag along what one deletion of both would
  rw [hdragged, reached_or_iff hfirst, not_or, ← hfirst _ hmem, Bool.not_eq_true]
  constructor
  · intro h
    obtain ⟨hmem₂, hgone₂⟩ := Table.mem_delete.mp h
    refine ⟨(hstays.mp hmem₂).2, fun hreached => ?_⟩
    rw [(Db.goneComment_iff hmem₂).mpr hreached] at hgone₂
    cases hgone₂
  · rintro ⟨hgone₁, hnot⟩
    have hmem₂ := hstays.mpr ⟨hmem, hgone₁⟩
    refine Table.mem_delete.mpr ⟨hmem₂, ?_⟩
    rw [← Bool.not_eq_true, Db.goneComment_iff hmem₂]
    exact hnot

end Deletes

/-! ### The transaction -/

/-- Nothing outside the owned workspaces refers to a doomed user, and every joined
workspace takes over what its member has created. -/
def MayPurge (db : Db) (email : String) : Prop :=
  (∀ m ∈ db.members email, MayLeave db m) ∧ Unreferenced db email (db.authored ++ db.created)

/-- The database after the transaction, in terms of the one after the joined workspaces
have been left. -/
def purgedDb (db db₁ : Db) (email : String) : Db :=
  forgetEmail ((db₁.erased (ownedSelection (db.owned email))).erased (emailSelection email)) email

theorem left_members (db₀ : Db) (email : String) :
    (∀ db₁, (db₀.members email).foldlM leaveWorkspace db₀ = some db₁ →
      Left db₀ (db₀.members email) db₁) ∧
    (((db₀.members email).foldlM leaveWorkspace db₀).isSome = true ↔
      ∀ m ∈ db₀.members email, MayLeave db₀ m) :=
  (left_nil db₀).members (by simp) (fun _ hm => (mem_members.mp hm).1) (fun _ _ => rfl) nodup_members

theorem purgeTx_eq_some {db₄ : Db} (h : purgeTx email (accountRows db₀ email) db₀ = some db₄) :
    ∃ db₁, Left db₀ (db₀.members email) db₁ ∧ db₄ = purgedDb db₀ db₁ email := by
  obtain ⟨db₁, h₁, h⟩ := Option.bind_eq_some_iff.mp h
  obtain ⟨db₂, h₂, h⟩ := Option.bind_eq_some_iff.mp h
  obtain ⟨db₃, h₃, h⟩ := Option.bind_eq_some_iff.mp h
  cases h
  rw [deleteOwned_eq] at h₂
  obtain ⟨-, rfl⟩ := Db.erase_eq_some_iff.mp h₂
  obtain ⟨-, rfl⟩ := Db.erase_eq_some_iff.mp h₃
  exact ⟨db₁, (left_members db₀ email).1 db₁ h₁, rfl⟩

/-- The transaction commits exactly when the account may be purged. -/
theorem purgeTx_isSome_iff (email : String) (hrefer : UsersReferTenants db₀) :
    (purgeTx email (accountRows db₀ email) db₀).isSome = true ↔ MayPurge db₀ email := by
  obtain ⟨hleft, hleave⟩ := left_members db₀ email
  unfold MayPurge
  rw [← hleave]
  unfold purgeTx
  cases h₁ : (db₀.members email).foldlM leaveWorkspace db₀ with
  | none => simp
  | some db₁ =>
    have hiff := (hleft db₁ h₁).deletes_iff hrefer
    rw [← hiff]
    simp only [Option.bind_eq_bind, Option.bind_some, Option.isSome_some, true_and]
    cases h₂ : deleteOwned db₁ (db₀.owned email) with
    | none => simp
    | some db₂ =>
      simp only [Option.bind_some]
      cases db₂.erase (emailSelection email) <;> simp

/-! ### Completeness -/

/-- The user is a row of the account. -/
def byAccount (db : Db) (email : String) (id : Nat) : Bool :=
  db.users.rows.any fun u => u.id == id && u.email == email

/-- The author, unless it is the account. -/
def anonymousFor (db : Db) (email : String) (author : Option Nat) : Option Nat :=
  author.filter fun id => !byAccount db email id

/-- What the account has created belongs to an owner of the workspace, anything else to
its creator. -/
def HandedOver (db : Db) (email : String) (tenantId creator creator' : Nat) : Prop :=
  if byAccount db email creator = true then
    ∃ o ∈ db.users, o.id = creator' ∧ o.role = .owner ∧ o.tenantId = some tenantId
  else creator' = creator

/-- No row carries the email, exactly the owned workspaces are gone, and what lies in
other workspaces is still there, without the account's name. -/
structure Purged (email : String) (db db' : Db) : Prop where
  users : ∀ u ∈ db'.users, u.email ≠ email
  billingAccounts : ∀ a ∈ db'.billingAccounts, a.email ≠ email
  userSessions : ∀ s ∈ db'.userSessions, s.email ≠ email
  passwordResets : ∀ r ∈ db'.passwordResets, r.email ≠ email
  invitations : ∀ i ∈ db'.invitations, i.email ≠ email
  oauthAccounts : ∀ a ∈ db'.oauthAccounts, a.email ≠ email
  tenants : ∀ t, t ∈ db'.tenants ↔ t ∈ db.tenants ∧ t.id ∉ db.owned email
  posts : ∀ p ∈ db.posts, p.tenantId ∉ db.owned email →
    ∃ d, (d = p.duplicateOfPostId ∨ d = none) ∧
      { p with authorId := anonymousFor db email p.authorId, duplicateOfPostId := d } ∈ db'.posts
  comments : ∀ c ∈ db.comments, c.tenantId ∉ db.owned email →
    { c with authorId := anonymousFor db email c.authorId } ∈ db'.comments
  changelogEntries : ∀ e ∈ db.changelogEntries, e.tenantId ∉ db.owned email →
    ∃ n, HandedOver db email e.tenantId e.createdBy n ∧
      { e with createdBy := n } ∈ db'.changelogEntries
  apiKeys : ∀ k ∈ db.apiKeys, k.tenantId ∉ db.owned email →
    ∃ n, HandedOver db email k.tenantId k.createdBy n ∧ { k with createdBy := n } ∈ db'.apiKeys

/-- The account can be taken out of the workspaces it does not own. -/
structure Separable (db : Db) (email : String) : Prop where
  /-- nothing that stays refers to a user that goes unrepaired -/
  unreferenced : Unreferenced db email (db.authored ++ db.created)
  /-- what a member has created is taken over by an owner -/
  leave : ∀ m ∈ db.members email, MayLeave db m
  /-- a member's changelog entries and API keys lie in the workspace it has joined -/
  placed : ∀ m ∈ db.members email,
    (∀ e ∈ db.changelogEntries, e.tenantId ∉ db.owned email → e.createdBy = m.id →
      m.tenantId = some e.tenantId) ∧
    ∀ k ∈ db.apiKeys, k.tenantId ∉ db.owned email → k.createdBy = m.id →
      m.tenantId = some k.tenantId
  /-- no comment that should stay goes along with another row -/
  comments : ∀ c ∈ db.comments, c.tenantId ∉ db.owned email → ¬ Dragged db email c

theorem byAccount_iff {id : Nat} :
    byAccount db email id = true ↔ ∃ u ∈ db.users, u.id = id ∧ u.email = email := by
  simp [byAccount, Table.mem_def]

/-- Among users that stay, the account's rows are the members' rows. -/
theorem byAccount_eq_isOf {id : Nat} (h : doomed db email id = false) :
    byAccount db email id = isOf (db.members email) id := by
  rw [Bool.eq_iff_iff, byAccount_iff, isOf_iff]
  constructor
  · rintro ⟨u, hu, rfl, hemail⟩
    refine ⟨u, ?_, rfl⟩
    by_contra hm
    rw [doomed_of_account hu hemail hm] at h
    cases h
  · rintro ⟨m, hm, rfl⟩
    obtain ⟨hmember, hemail⟩ := mem_members.mp hm
    exact ⟨m, hmember.mem, rfl, hemail⟩

theorem anonymousFor_eq {author : Option Nat}
    (h : ∀ id, author = some id → doomed db email id = false) :
    anonymousFor db email author = withoutAuthor (db.members email) author := by
  cases author with
  | none => rfl
  | some id =>
    unfold anonymousFor withoutAuthor
    simp only [Option.filter, byAccount_eq_isOf (h id rfl)]

/-- What a member has created is handed to an owner of its workspace if and only if it
lies in the workspace the member has joined. -/
theorem handedOver_iff {tenantId creator : Nat} (hstays : doomed db email creator = false)
    (hleave : ∀ m ∈ db.members email, m.id = creator → (ownerOf db m).isSome = true) :
    HandedOver db email tenantId creator (handed db (db.members email) creator) ↔
      ∀ m ∈ db.members email, creator = m.id → m.tenantId = some tenantId := by
  unfold HandedOver handed
  rw [byAccount_eq_isOf hstays]
  cases hfind : (db.members email).find? (·.id == creator) with
  -- nobody who leaves has created the row, so it keeps its creator
  | none =>
    have hnot : ∀ m ∈ db.members email, m.id ≠ creator := by
      intro m hm hid
      exact absurd (beq_iff_eq.mpr hid) (List.find?_eq_none.mp hfind m hm)
    have hof : ¬ isOf (db.members email) creator = true := by
      rw [isOf_iff]
      rintro ⟨m, hm, hid⟩
      exact hnot m hm hid
    rw [if_neg hof]
    exact ⟨fun _ m hm hid => absurd hid.symm (hnot m hm), fun _ => rfl⟩
  | some m =>
    have hm := List.mem_of_find?_eq_some hfind
    have hid : m.id = creator := by simpa using List.find?_some hfind
    -- the row goes to the owner of the workspace that the creator leaves, which is its own or not
    obtain ⟨o, ho⟩ := Option.isSome_iff_exists.mp (hleave m hm hid)
    obtain ⟨u, hu, rfl, htenant, hrole⟩ := ownerOf_eq_some ho
    rw [if_pos (isOf_iff.mpr ⟨m, hm, hid⟩)]
    dsimp only
    rw [ho, Option.getD_some]
    constructor
    · rintro ⟨v, hv, hvid, -, hvt⟩ m' hm' hid'
      obtain rfl : v = u := Table.eq_of_id hv hu hvid
      have hmm : m' = m := Table.eq_of_id (mem_members.mp hm').1.mem (mem_members.mp hm).1.mem
        (hid'.symm.trans hid.symm)
      rw [hmm, ← htenant, hvt]
    · intro h
      exact ⟨u, hu, rfl, hrole, htenant.trans (h m hm hid.symm)⟩

/-- The rows of a table are handed over as required when the handed ones are there. -/
theorem handedTable_iff {ρ : Type} [Row ρ] (db : Db) (email : String) (T T' : Table ρ)
    (tenant creator : ρ → Nat)
    (set : Nat → ρ → ρ) (hid : ∀ n r, Row.id (set n r) = Row.id r)
    (hcreator : ∀ n r, creator (set n r) = n)
    (hmem : ∀ r ∈ T, tenant r ∉ db.owned email →
      set (handed db (db.members email) (creator r)) r ∈ T') :
    (∀ r ∈ T, tenant r ∉ db.owned email →
      ∃ n, HandedOver db email (tenant r) (creator r) n ∧ set n r ∈ T') ↔
    ∀ r ∈ T, tenant r ∉ db.owned email → HandedOver db email (tenant r) (creator r)
      (handed db (db.members email) (creator r)) := by
  constructor
  · intro h r hr howned
    obtain ⟨n, hn, hset⟩ := h r hr howned
    have heq : set n r = set (handed db (db.members email) (creator r)) r :=
      Table.eq_of_id hset (hmem r hr howned) (by rw [hid, hid])
    have hcolumn := congrArg creator heq
    rw [hcreator, hcreator] at hcolumn
    exact hcolumn ▸ hn
  · intro h r hr howned
    exact ⟨_, h r hr howned, hmem r hr howned⟩

section Completeness

variable {db₁ : Db} (hleft : Left db₀ (db₀.members email) db₁) (hrefer : UsersReferTenants db₀)

include hleft hrefer in
theorem Left.stays {ρ : Type} [Row ρ] {T : Table ρ} {r : ρ} (tenant : ρ → Nat) (hr : r ∈ T)
    (howned : tenant r ∉ db₀.owned email) :
    r ∈ T.delete fun r => db₁.goneTenant (ownedSelection (db₀.owned email)) (tenant r) := by
  refine Table.mem_delete.mpr ⟨hr, ?_⟩
  rw [hleft.goneTenant_eq hrefer, ← Bool.not_eq_true, List.contains_iff_mem]
  exact howned

include hleft hrefer in
/-- What the purge achieves once it commits, apart from the rows of joined workspaces. -/
theorem Left.achieves_iff (hmay : MayPurge db₀ email) :
    Purged email db₀ (purgedDb db₀ db₁ email) ↔
      (∀ e ∈ db₀.changelogEntries, e.tenantId ∉ db₀.owned email →
        HandedOver db₀ email e.tenantId e.createdBy (handed db₀ (db₀.members email) e.createdBy)) ∧
      (∀ k ∈ db₀.apiKeys, k.tenantId ∉ db₀.owned email →
        HandedOver db₀ email k.tenantId k.createdBy (handed db₀ (db₀.members email) k.createdBy)) ∧
      ∀ c ∈ db₀.comments, c.tenantId ∉ db₀.owned email → ¬ Dragged db₀ email c := by
  obtain ⟨htenants, hposts, hchangelog, hkeys, -⟩ :=
    keepsContent_erased (db₁.erased (ownedSelection (db₀.owned email))) (emailSelection email)
      fun _ => rfl
  have hauthor : ∀ p ∈ db₀.posts, p.tenantId ∉ db₀.owned email →
      anonymousFor db₀ email p.authorId = withoutAuthor (db₀.members email) p.authorId := by
    intro p hp howned
    refine anonymousFor_eq fun id hid => hmay.2 (p.tenantId, id) ?_ howned
    exact List.mem_append_left _ (Db.mem_authored.mpr ⟨p, hp, hid, rfl⟩)
  -- the tables that can go wrong: creators that are handed over, and replies that are dragged along
  have hchangelogTable := handedTable_iff db₀ email db₀.changelogEntries
    (purgedDb db₀ db₁ email).changelogEntries ChangelogEntry.tenantId ChangelogEntry.createdBy
    (fun n e => { e with createdBy := n }) (fun _ _ => rfl) (fun _ _ => rfl) fun e he howned => by
      change _ ∈ ((db₁.erased _).erased _).changelogEntries
      rw [hchangelog]
      refine hleft.stays hrefer ChangelogEntry.tenantId ?_ howned
      rw [Table.mem_def, hleft.changelogEntries]
      exact List.mem_map_of_mem he
  have hkeysTable := handedTable_iff db₀ email db₀.apiKeys (purgedDb db₀ db₁ email).apiKeys
    ApiKey.tenantId ApiKey.createdBy (fun n k => { k with createdBy := n }) (fun _ _ => rfl)
    (fun _ _ => rfl) fun k hk howned => by
      change _ ∈ ((db₁.erased _).erased _).apiKeys
      rw [hkeys]
      refine hleft.stays hrefer ApiKey.tenantId ?_ howned
      rw [Table.mem_def, hleft.apiKeys]
      exact List.mem_map_of_mem hk
  have hcommentsTable : (∀ c ∈ db₀.comments, c.tenantId ∉ db₀.owned email →
      { c with authorId := anonymousFor db₀ email c.authorId } ∈
        (purgedDb db₀ db₁ email).comments) ↔
      ∀ c ∈ db₀.comments, c.tenantId ∉ db₀.owned email → ¬ Dragged db₀ email c := by
    refine forall₂_congr fun c hc => forall_congr' fun _ => ?_
    rw [← hleft.mem_comments hrefer hc]
    constructor
    · intro h
      have hstays := (Table.mem_delete.mp (Table.mem_delete.mp h).1).1
      have hrepaired : c.repaired db₀ email ∈ db₁.comments := by
        rw [Table.mem_def, hleft.comments]
        exact List.mem_map_of_mem hc
      rw [← Table.eq_of_id hstays hrepaired rfl]
      exact h
    · intro h
      have hauthor' : ∀ id, c.authorId = some id → doomed db₀ email id = false := by
        intro id hid
        rw [← Bool.not_eq_true]
        intro hdoomed
        refine (hleft.mem_comments hrefer hc).mp h (.seed ?_)
        simp [uprootedByPurge, hid, hdoomed]
      rw [anonymousFor_eq hauthor']
      exact h
  rw [← hchangelogTable, ← hkeysTable, ← hcommentsTable]
  constructor
  · exact fun h => ⟨h.changelogEntries, h.apiKeys, h.comments⟩
  · rintro ⟨hchangelog', hkeys', hcomments'⟩
    -- the rest of the purpose holds of every purge that commits
    have hgone : ∀ {ρ : Type} [Row ρ] {T : Table ρ} {get : ρ → String} {r : ρ},
        r ∈ T.delete (fun r => get r == email) → get r ≠ email := by
      intro ρ _ T get r hr
      simpa using (Table.mem_delete.mp hr).2
    refine ⟨fun u hu hemail => ?_, fun _ ha => hgone ha, fun _ hs => hgone hs, fun _ hr => hgone hr,
      fun _ hi => hgone hi, fun _ ha => hgone ha, fun t => ?_, fun p hp howned => ?_, hcomments',
      hchangelog', hkeys'⟩
    · obtain ⟨hu₂, hstays⟩ := Table.mem_delete.mp hu
      have hgoes := (goneUser_iff_of_users (s := emailSelection email) fun _ => rfl).mpr
        ⟨u, hu₂, rfl, beq_iff_eq.mpr hemail⟩
      rw [hgoes] at hstays
      cases hstays
    · change t ∈ ((db₁.erased _).erased _).tenants ↔ _
      rw [htenants]
      change t ∈ db₁.tenants.delete _ ↔ _
      rw [Table.mem_delete, hleft.tenants, ← Bool.not_eq_true, List.contains_iff_mem]
    · rw [hauthor p hp howned]
      have hrepaired : { p with authorId := withoutAuthor (db₀.members email) p.authorId } ∈
          db₁.posts := by
        rw [Table.mem_def, hleft.posts]
        exact List.mem_map_of_mem hp
      obtain ⟨d, hd, hpost⟩ := Db.mem_posts_erased (s := ownedSelection (db₀.owned email)) hrepaired
        (Table.mem_delete.mp (hleft.stays hrefer Post.tenantId hrepaired howned)).2
      refine ⟨d, hd, ?_⟩
      change _ ∈ ((db₁.erased _).erased _).posts
      rw [hposts]
      exact hpost

end Completeness

/-! ### purgeAccount -/

/-- Cancelling the subscription never fails. -/
theorem exec_cancelActiveSubscription_fst (cfg : Config) (email : String) (w : World) :
    ((cancelActiveSubscription cfg email).exec w).1 = .ok () := by
  unfold cancelActiveSubscription
  split
  · unfold cancelLiveSubscription getAccount
    rw [exec_query_bind]
    split
    · rfl
    · split
      · rfl
      · rw [Prog.exec_tryCatch_pure]
  · unfold getAccount
    rw [exec_query_bind]
    split
    · rfl
    · split
      · rfl
      · rw [Prog.exec_tryCatch_pure]

/-- It leaves the database alone. -/
theorem db_cancelActiveSubscription (cfg : Config) (email : String) (w : World) :
    ((cancelActiveSubscription cfg email).exec w).2.db = w.db := by
  have hsteps : Prog.Within (BillingStep (fun _ _ => False) fun _ _ => True)
      (cancelActiveSubscription cfg email) := steps_cancelActiveSubscription fun _ _ => trivial
  have hdb : Prog.Within (fun w w' : World => w'.db = w.db) (cancelActiveSubscription cfg email) := by
    refine hsteps.mono fun w w' hstep => ?_
    cases hstep with
    | quiet heq => rw [heq]
    | account e f db hA htx heq => exact hA.elim
    | paddle p hP heq => rw [heq]
    | stripe st heq => rw [heq]
  exact Prog.Within.exec (R := fun w w' : World => w'.db = w.db) (fun _ => rfl)
    (fun _ _ _ h h' => Eq.trans h' h) hdb w

theorem exec_purgeAccount (cfg : Config) (w : World) {allowPlatformAdmin : Bool}
    (hexists : ∃ u ∈ w.db.users, u.email = email)
    (hadmin : (!allowPlatformAdmin && isPlatformAdminEmail w.db email) = false) :
    ∃ w', w'.db = w.db ∧
      (purgeAccount cfg email allowPlatformAdmin).exec w =
        match purgeTx email (accountRows w.db email) w.db with
        | some db' => (.ok (.ok ⟨email, (w.db.owned email).length, (w.db.members email).length⟩),
            { w' with db := db' })
        | none => (.error .error, w') := by
  have hrows : accountRows w.db email ≠ [] := by
    obtain ⟨u, hu, hemail⟩ := hexists
    exact List.ne_nil_of_mem (List.mem_filter.mpr ⟨hu, beq_iff_eq.mpr hemail⟩)
  have hdb := db_cancelActiveSubscription cfg email w
  refine ⟨_, hdb, ?_⟩
  unfold purgeAccount
  rw [exec_query_bind, hadmin, if_neg Bool.false_ne_true, exec_query_bind, if_neg hrows,
    Prog.exec_bind]
  have hok := exec_cancelActiveSubscription_fst cfg email w
  generalize (cancelActiveSubscription cfg email).exec w = r at hdb hok
  obtain ⟨r, w'⟩ := r
  dsimp only at hdb hok
  subst hok
  change Prog.exec (deletion _ _ >>= fun _ => pure _) w' = _
  rw [Prog.exec_bind, deletion, Prog.exec_step]
  dsimp only
  rw [hdb]
  cases purgeTx email (accountRows w.db email) w.db with
  | none => rfl
  | some db' => rfl

/-- A purge leaves the database alone, or commits its transaction. -/
theorem purgeAccount_cases (cfg : Config) (email : String) (allowPlatformAdmin : Bool) (w : World) :
    ((purgeAccount cfg email allowPlatformAdmin).exec w).2.db = w.db ∨
      ∃ db₁, (!allowPlatformAdmin && isPlatformAdminEmail w.db email) = false ∧
        Left w.db (w.db.members email) db₁ ∧
        purgeTx email (accountRows w.db email) w.db = some (purgedDb w.db db₁ email) ∧
          ((purgeAccount cfg email allowPlatformAdmin).exec w).2.db = purgedDb w.db db₁ email := by
  cases hadmin : !allowPlatformAdmin && isPlatformAdminEmail w.db email with
  | true =>
    unfold purgeAccount
    rw [exec_query_bind, hadmin]
    exact .inl rfl
  | false =>
    by_cases hexists : ∃ u ∈ w.db.users, u.email = email
    · obtain ⟨w', hw', hexec⟩ := exec_purgeAccount cfg w hexists hadmin
      rw [hexec]
      cases htx : purgeTx email (accountRows w.db email) w.db with
      | none => exact .inl hw'
      | some db' =>
        obtain ⟨db₁, hleft, rfl⟩ := purgeTx_eq_some htx
        exact .inr ⟨db₁, rfl, hleft, rfl, rfl⟩
    · have hrows : accountRows w.db email = [] := by
        refine List.filter_eq_nil_iff.mpr fun u hu hemail => ?_
        exact hexists ⟨u, hu, beq_iff_eq.mp hemail⟩
      unfold purgeAccount
      rw [exec_query_bind, hadmin, if_neg Bool.false_ne_true, exec_query_bind, if_pos hrows]
      exact .inl rfl

/-- The purge commits and is complete, and nobody else loses anything, exactly when the
account is separable. -/
theorem purged_iff {w : World} (hrefer : UsersReferTenants w.db)
    (hexists : ∃ u ∈ w.db.users, u.email = email)
    (hadmin : isPlatformAdminEmail w.db email = false) :
    ((∃ result, ((purgeAccount cfg email).exec w).1 = .ok (.ok result)) ∧
      Purged email w.db ((purgeAccount cfg email).exec w).2.db) ↔ Separable w.db email := by
  obtain ⟨w', -, hexec⟩ := exec_purgeAccount cfg w hexists (by rw [hadmin, Bool.and_false])
  rw [hexec]
  have hcommit := purgeTx_isSome_iff email hrefer
  cases htx : purgeTx email (accountRows w.db email) w.db with
  -- the transaction was rolled back, and the call throws
  | none =>
    rw [htx] at hcommit
    simp only [Option.isSome_none, Bool.false_eq_true, false_iff] at hcommit
    refine ⟨fun h => ?_, fun h => absurd ⟨h.leave, h.unreferenced⟩ hcommit⟩
    obtain ⟨⟨result, hresult⟩, -⟩ := h
    cases hresult
  | some db' =>
    rw [htx] at hcommit
    have hmay : MayPurge w.db email := hcommit.mp rfl
    obtain ⟨db₁, hleft, rfl⟩ := purgeTx_eq_some htx
    dsimp only
    rw [hleft.achieves_iff hrefer hmay]
    have hstays : ∀ r ∈ w.db.created, r.1 ∉ w.db.owned email → doomed w.db email r.2 = false :=
      fun r hr howned => hmay.2 r (List.mem_append_right _ hr) howned
    have hleave : ∀ r ∈ w.db.created, ∀ m ∈ w.db.members email, m.id = r.2 →
        (ownerOf w.db m).isSome = true := by
      intro r hr m hm hid
      exact (hmay.1 m hm).resolve_right fun hnone => hnone r hr hid.symm
    -- of the rows that stay, those of the members are handed over
    have hhanded : ∀ r ∈ w.db.created, r.1 ∉ w.db.owned email →
        (HandedOver w.db email r.1 r.2 (handed w.db (w.db.members email) r.2) ↔
          ∀ m ∈ w.db.members email, r.2 = m.id → m.tenantId = some r.1) :=
      fun r hr howned => handedOver_iff (hstays r hr howned) (hleave r hr)
    have hchangelog : ∀ e ∈ w.db.changelogEntries, (e.tenantId, e.createdBy) ∈ w.db.created :=
      fun e he => Db.mem_created.mpr (.inl ⟨e, he, rfl⟩)
    have hkeys : ∀ k ∈ w.db.apiKeys, (k.tenantId, k.createdBy) ∈ w.db.created :=
      fun k hk => Db.mem_created.mpr (.inr (.inl ⟨k, hk, rfl⟩))
    constructor
    · rintro ⟨-, hentries, happs, hcomments⟩
      refine ⟨hmay.2, hmay.1, fun m hm => ⟨fun e he howned hid => ?_, fun k hk howned hid => ?_⟩,
        hcomments⟩
      · exact (hhanded _ (hchangelog e he) howned).mp (hentries e he howned) m hm hid
      · exact (hhanded _ (hkeys k hk) howned).mp (happs k hk howned) m hm hid
    · intro h
      refine ⟨⟨_, rfl⟩, fun e he howned => ?_, fun k hk howned => ?_, h.comments⟩
      · exact (hhanded _ (hchangelog e he) howned).mpr fun m hm hid =>
          (h.placed m hm).1 e he howned hid
      · exact (hhanded _ (hkeys k hk) howned).mpr fun m hm hid =>
          (h.placed m hm).2 k hk howned hid

/-! ### Ada's account -/

/-- Ada owns Acme and has joined Bolt, which belongs to Bob. -/
def acmeAndBolt : Db where
  tenants :=
    { rows := [{ id := 1, name := "Acme", slug := "acme", subdomain := "acme" },
        { id := 2, name := "Bolt", slug := "bolt", subdomain := "bolt" }]
      next := 3
      id_lt := by decide
      nodup := by decide
      noClash := by decide }
  users :=
    { rows := [{ id := 1, tenantId := some 1, email := "ada@example.com", role := .owner },
        { id := 2, tenantId := some 2, email := "bob@example.com", role := .owner },
        { id := 3, tenantId := some 2, email := "ada@example.com" }]
      next := 4
      id_lt := by decide
      nodup := by decide
      noClash := by decide }
  changelogEntries :=
    { rows := [⟨1, 2, 3⟩], next := 2, id_lt := by decide, nodup := by decide
      noClash := by decide }

/-- A post on Bolt's board, by Ada in the workspace of row `authorId`. -/
def withPost (authorId : Nat) : World where
  db :=
    { acmeAndBolt with
      posts :=
        .single
          { id := 1, tenantId := 2, authorId := some authorId, title := "Dark mode"
            description := "Please", createdAt := 0 } }

/-- Posts by the member's row are no obstacle. -/
theorem purged_iff_member :
    (∃ result, ((purgeAccount .paddleDemo "ada@example.com").exec (withPost 3)).1 =
        .ok (.ok result)) ∧
      Purged "ada@example.com" (withPost 3).db
        ((purgeAccount .paddleDemo "ada@example.com").exec (withPost 3)).2.db := by
  refine (purged_iff (by decide +kernel) (by decide +kernel) (by decide +kernel)).mpr ?_
  have hunreferenced : ∀ r ∈ (withPost 3).db.authored ++ (withPost 3).db.created,
      r.1 ∉ (withPost 3).db.owned "ada@example.com" →
        doomed (withPost 3).db "ada@example.com" r.2 = false := by
    decide +kernel
  have hleave : ∀ m ∈ (withPost 3).db.members "ada@example.com",
      (ownerOf (withPost 3).db m).isSome = true ∨ ∀ r ∈ (withPost 3).db.created, r.2 ≠ m.id := by
    decide +kernel
  refine ⟨hunreferenced, hleave, ?_, fun c hc => ?_⟩
  · decide +kernel
  · cases hc

/-- A post she wrote as the owner of Acme refuses the purge. -/
theorem owner_post_refuses_purge :
    UsersReferTenants (withPost 1).db ∧
      (∃ u ∈ (withPost 1).db.users, u.email = "ada@example.com") ∧
      isPlatformAdminEmail (withPost 1).db "ada@example.com" = false ∧
      ((purgeAccount .paddleDemo "ada@example.com").exec (withPost 1)).1 = .error .error ∧
      ¬ Purged "ada@example.com" (withPost 1).db
        ((purgeAccount .paddleDemo "ada@example.com").exec (withPost 1)).2.db := by
  refine ⟨by decide +kernel, by decide +kernel, by decide +kernel, by decide +kernel, ?_⟩
  intro hpurged
  have hstays : ∃ u ∈ ((purgeAccount .paddleDemo "ada@example.com").exec (withPost 1)).2.db.users,
      u.email = "ada@example.com" := by
    decide +kernel
  obtain ⟨u, hu, hemail⟩ := hstays
  exact hpurged.users u hu hemail

end Feedbase
