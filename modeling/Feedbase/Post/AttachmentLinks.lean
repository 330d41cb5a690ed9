import Feedbase.Lib.Turns
import Feedbase.Public.Submissions

/-!
# Attachments of posts

Any number of uploads and submissions run at the same time, and each may send any ids. A
submission claims attachments for the post that it has just inserted, which no other call knows;
so a post is attached to once, and the cap on what one statement claims is a cap on what the post
has.

## Main definitions

* `AttachmentsSound` — attachments are of their post's workspace, and a post has few
* `AttachPhase`, `AttachStep` — how far a call is, and what one statement does
* `attachSystem` — uploads and submissions
* `Attached` — the invariant of a pool

## Main results

* `Attached.link` — claiming for a fresh post
* `attachmentsSound_of_run` — in every run the attachments are sound, and a linked one stays
-/

namespace Feedbase

/-- The attachments of a post. -/
def Db.attachedTo (db : Db) (postId : Nat) : Nat :=
  db.postAttachments.rows.countP fun a => a.postId == some postId

/-- A linked attachment is linked to a post of its workspace, and no post has more than the cap. -/
structure AttachmentsSound (db : Db) : Prop where
  owned : ∀ a ∈ db.postAttachments, ∀ p, a.postId = some p →
    ∃ q ∈ db.posts, q.id = p ∧ q.tenantId = a.tenantId
  capped : ∀ p, db.attachedTo p ≤ MAX_ATTACHMENTS_PER_POST

theorem AttachmentsSound.of_empty {db : Db} (h : db.postAttachments = .empty) :
    AttachmentsSound db where
  owned a ha := by simp [h] at ha
  capped p := by simp [Db.attachedTo, h]

/-- Between the insert of its post and its claim, a call has the post to itself. -/
inductive AttachPhase where
  | idle
  | inserted (postId : Nat) (tenantId : Option Nat)
  | done

/-- What one statement does. -/
inductive AttachStep : AttachPhase → World → AttachPhase → World → Prop where
  | elsewhere {w w' : World} (φ : AttachPhase) (hposts : w'.db.posts = w.db.posts)
      (hattachments : w'.db.postAttachments = w.db.postAttachments) : AttachStep φ w φ w'
  | uploads {w w' : World} (φ : AttachPhase) (mk : Nat → PostAttachment)
      (hmk : ∀ n, (mk n).id = n) (hfree : ∀ n, (mk n).postId = none)
      (hposts : w'.db.posts = w.db.posts)
      (hinsert : w.db.postAttachments.insert? mk hmk = some w'.db.postAttachments) :
      AttachStep φ w φ w'
  | inserts {w w' : World} (n : NewPost) (tenantId : Nat) (htenant : n.tenantId = some tenantId)
      (hinsert : w.db.posts.insert? (n.row tenantId w.now) = some w'.db.posts)
      (hattachments : w'.db.postAttachments = w.db.postAttachments) :
      AttachStep .idle w (.inserted w.db.posts.next n.tenantId) w'
  | links {w w' : World} (ids : List Nat) (postId : Nat) (tenantId : Option Nat)
      (hids : ids.length ≤ MAX_ATTACHMENTS_PER_POST)
      (hdb : w'.db = w.db.link tenantId ids postId) :
      AttachStep (.inserted postId tenantId) w .done w'

/-! ### Claims -/

variable {db : Db} {w w' : World} {phases : List AttachPhase} {φ φ' : AttachPhase} {p : Nat}
  {T : Option Nat} {ids : List Nat} {a : PostAttachment}

/-- Rows whose keys are all in a list are no more than the list has entries. -/
theorem countP_claimed_le (db : Db) (T : Option Nat) (ids : List Nat) :
    db.postAttachments.rows.countP (PostAttachment.isClaimed T ids) ≤ ids.length := by
  rw [List.countP_eq_length_filter, ← List.length_map (f := PostAttachment.id)]
  have hnodup : ((db.postAttachments.rows.filter (PostAttachment.isClaimed T ids)).map
      PostAttachment.id).Nodup :=
    db.postAttachments.nodup.sublist (List.filter_sublist.map _)
  apply hnodup.length_le_of_subset
  intro id hid
  obtain ⟨a, ha, rfl⟩ := List.mem_map.mp hid
  have hclaimed := (List.mem_filter.mp ha).2
  simp only [PostAttachment.isClaimed, Bool.and_eq_true, List.contains_iff_mem] at hclaimed
  exact hclaimed.2

/-- A claim leaves the other posts what they have. -/
theorem attachedTo_link_of_ne {q : Nat} (hne : q ≠ p) :
    (db.link T ids p).attachedTo q = db.attachedTo q := by
  have hrows : (db.link T ids p).postAttachments.rows = db.postAttachments.rows.map fun a =>
      if a.isClaimed T ids then a.linkedTo p else a := rfl
  rw [Db.attachedTo, hrows, List.countP_map, Db.attachedTo]
  refine List.countP_congr fun a _ => ?_
  dsimp only [Function.comp]
  by_cases hclaimed : a.isClaimed T ids = true
  · have hfree : a.postId = none := by
      simp only [PostAttachment.isClaimed, Bool.and_eq_true, Option.isNone_iff_eq_none] at hclaimed
      exact hclaimed.1.2
    rw [if_pos hclaimed, hfree]
    simp [PostAttachment.linkedTo, Ne.symm hne]
  · rw [if_neg hclaimed]

/-- A post that has none gets what is claimed. -/
theorem attachedTo_link_self (hnone : ∀ a ∈ db.postAttachments, a.postId ≠ some p) :
    (db.link T ids p).attachedTo p =
      db.postAttachments.rows.countP (PostAttachment.isClaimed T ids) := by
  have hrows : (db.link T ids p).postAttachments.rows = db.postAttachments.rows.map fun a =>
      if a.isClaimed T ids then a.linkedTo p else a := rfl
  rw [Db.attachedTo, hrows, List.countP_map]
  refine List.countP_congr fun a ha => ?_
  dsimp only [Function.comp]
  by_cases hclaimed : a.isClaimed T ids = true
  · rw [if_pos hclaimed, hclaimed]
    simp [PostAttachment.linkedTo]
  · rw [if_neg hclaimed]
    simp [hclaimed, hnone a ha]

theorem mem_link : a ∈ (db.link T ids p).postAttachments ↔
    ∃ b ∈ db.postAttachments, a = if b.isClaimed T ids then b.linkedTo p else b := by
  change a ∈ db.postAttachments.update _ _ (PostAttachment.keyless_linkedTo p) ↔ _
  exact Sql.Table.mem_update

/-- What is linked already is not claimed. -/
theorem mem_link_of_linked (ha : a ∈ db.postAttachments) (hlinked : a.postId ≠ none) :
    a ∈ (db.link T ids p).postAttachments := by
  have hfree : a.isClaimed T ids = false := by
    rw [PostAttachment.isClaimed, Option.isNone_eq_false_iff.mpr (Option.isSome_iff_ne_none.mpr hlinked)]
    simp
  exact mem_link.mpr ⟨a, ha, by rw [hfree, if_neg Bool.false_ne_true]⟩

/-! ### The invariant -/

/-- The post exists in the workspace, and nothing is attached to it. -/
def FreshPost (db : Db) (postId : Nat) (tenantId : Option Nat) : Prop :=
  (∃ q ∈ db.posts, q.id = postId ∧ some q.tenantId = tenantId) ∧
    ∀ a ∈ db.postAttachments, a.postId ≠ some postId

/-- The call is about to claim attachments for this post. -/
def AboutToClaim (phases : List AttachPhase) (i p : Nat) (T : Option Nat) : Prop :=
  phases[i]? = some (.inserted p T)

/-- The attachments are sound, and the posts that calls are about to claim for are fresh, each
one's own. -/
structure Attached (db : Db) (phases : List AttachPhase) : Prop where
  sound : AttachmentsSound db
  fresh : ∀ i p T, AboutToClaim phases i p T → FreshPost db p T
  own : ∀ i j p T T', AboutToClaim phases i p T → AboutToClaim phases j p T' → i = j

variable {i j : Nat}

theorem aboutToClaim_append (h : AboutToClaim (phases ++ [.idle]) i p T) :
    AboutToClaim phases i p T := by
  unfold AboutToClaim at h ⊢
  by_cases hlt : i < phases.length
  · rwa [List.getElem?_append_left hlt] at h
  · rw [List.getElem?_append_right (by omega)] at h
    cases List.mem_singleton.mp (List.mem_of_getElem? h)

theorem aboutToClaim_set (h : AboutToClaim (phases.set i φ) j p T) :
    (j = i ∧ φ = .inserted p T) ∨ (j ≠ i ∧ AboutToClaim phases j p T) := by
  rcases getElem?_set_cases h with ⟨rfl, hφ⟩ | ⟨hne, hold⟩
  · exact .inl ⟨rfl, hφ.symm⟩
  · exact .inr ⟨hne, hold⟩

theorem AttachmentsSound.congr {db' : Db} (h : AttachmentsSound db)
    (hposts : db'.posts = db.posts) (hattachments : db'.postAttachments = db.postAttachments) :
    AttachmentsSound db' where
  owned := by
    rw [hattachments, hposts]
    exact h.owned
  capped p := by
    rw [Db.attachedTo, hattachments]
    exact h.capped p

theorem FreshPost.congr {db' : Db} (h : FreshPost db p T) (hposts : db'.posts = db.posts)
    (hattachments : db'.postAttachments = db.postAttachments) : FreshPost db' p T := by
  rw [FreshPost, hposts, hattachments]
  exact h

theorem Attached.start (h : AttachmentsSound db) : Attached db [] where
  sound := h
  fresh _ _ _ hi := by cases hi
  own _ _ _ _ _ hi := by cases hi

/-- A call that arrives is not about to claim. -/
theorem Attached.arrive (h : Attached db phases) : Attached db (phases ++ [.idle]) where
  sound := h.sound
  fresh i p T hi := h.fresh i p T (aboutToClaim_append hi)
  own i j p T T' hi hj := h.own i j p T T' (aboutToClaim_append hi) (aboutToClaim_append hj)

/-- A call that keeps its phase, or leaves it to claim nothing more. -/
theorem Attached.keep {db' : Db} (h : Attached db phases) (hφ : phases[i]? = some φ)
    (hsound : AttachmentsSound db') (hfresh : ∀ p T, FreshPost db p T → FreshPost db' p T) :
    Attached db' (phases.set i φ) where
  sound := hsound
  fresh j p T hj := by
    rcases aboutToClaim_set hj with ⟨rfl, rfl⟩ | ⟨-, hold⟩
    · exact hfresh p T (h.fresh _ p T hφ)
    · exact hfresh p T (h.fresh j p T hold)
  own j k p T T' hj hk := by
    rcases aboutToClaim_set hj with ⟨rfl, rfl⟩ | ⟨-, hj'⟩
    · rcases aboutToClaim_set hk with ⟨rfl, -⟩ | ⟨-, hk'⟩
      · rfl
      · exact h.own _ k p T T' hφ hk'
    · rcases aboutToClaim_set hk with ⟨rfl, rfl⟩ | ⟨-, hk'⟩
      · exact h.own j _ p T T' hj' hφ
      · exact h.own j k p T T' hj' hk'

/-- An upload belongs to no post yet. -/
theorem Attached.upload {db' : Db} {mk : Nat → PostAttachment} {hmk : ∀ n, (mk n).id = n}
    (h : Attached db phases) (hφ : phases[i]? = some φ) (hfree : ∀ n, (mk n).postId = none)
    (hposts : db'.posts = db.posts)
    (hinsert : db.postAttachments.insert? mk hmk = some db'.postAttachments) :
    Attached db' (phases.set i φ) := by
  have hmem : ∀ a ∈ db'.postAttachments, a ∈ db.postAttachments ∨ a.postId = none := by
    intro a ha
    rcases (Sql.Table.mem_insert? hinsert).mp ha with ha | rfl
    · exact .inl ha
    · exact .inr (hfree _)
  refine h.keep hφ ⟨fun a ha p hp => ?_, fun p => ?_⟩ fun p T hfresh => ⟨?_, fun a ha => ?_⟩
  · rcases hmem a ha with ha | hnone
    · rw [hposts]
      exact h.sound.owned a ha p hp
    · rw [hnone] at hp
      cases hp
  · have hcount : db'.attachedTo p = db.attachedTo p := by
      rw [Db.attachedTo, Sql.Table.insert?_rows hinsert, List.countP_append,
        List.countP_singleton, hfree]
      rfl
    rw [hcount]
    exact h.sound.capped p
  · rw [hposts]
    exact hfresh.1
  · rcases hmem a ha with ha | hnone
    · exact hfresh.2 a ha
    · rw [hnone]
      nofun

/-- A post that is inserted is nobody else's. -/
theorem Attached.insert {db' : Db} {n : NewPost} {tenantId : Nat} {now : Time}
    (h : Attached db phases) (htenant : n.tenantId = some tenantId)
    (hinsert : db.posts.insert? (n.row tenantId now) = some db'.posts)
    (hattachments : db'.postAttachments = db.postAttachments) :
    Attached db' (phases.set i (.inserted db.posts.next n.tenantId)) := by
  have hold : ∀ q ∈ db.posts, q ∈ db'.posts := fun q hq =>
    (Sql.Table.mem_insert? hinsert).mpr (.inl hq)
  have hlt : ∀ j p T, AboutToClaim phases j p T → p < db.posts.next := by
    intro j p T hj
    obtain ⟨⟨q, hq, rfl, -⟩, -⟩ := h.fresh j p T hj
    exact db.posts.id_lt q hq
  -- the id is new, so no attachment has it
  have hunused : ∀ a ∈ db.postAttachments, a.postId ≠ some db.posts.next := by
    intro a ha hpost
    obtain ⟨q, hq, hid, -⟩ := h.sound.owned a ha _ hpost
    exact absurd (db.posts.id_lt q hq) (Nat.not_lt.mpr (Nat.le_of_eq hid.symm))
  constructor
  · constructor
    · rw [hattachments]
      intro a ha p hp
      obtain ⟨q, hq, hown⟩ := h.sound.owned a ha p hp
      exact ⟨q, hold q hq, hown⟩
    · intro p
      rw [Db.attachedTo, hattachments]
      exact h.sound.capped p
  · intro j p T hj
    rw [FreshPost, hattachments]
    rcases aboutToClaim_set hj with ⟨-, heq⟩ | ⟨-, hj⟩
    · obtain ⟨rfl, rfl⟩ := AttachPhase.inserted.inj heq
      refine ⟨⟨n.row tenantId now db.posts.next, ?_, rfl, htenant.symm⟩, hunused⟩
      exact (Sql.Table.mem_insert? hinsert).mpr (.inr rfl)
    · obtain ⟨⟨q, hq, hown⟩, hnone⟩ := h.fresh j p T hj
      exact ⟨⟨q, hold q hq, hown⟩, hnone⟩
  · -- no two calls are about to claim for one post
    intro j k p T T' hj hk
    rcases aboutToClaim_set hj with ⟨rfl, heq⟩ | ⟨-, hj'⟩
    · obtain ⟨rfl, -⟩ := AttachPhase.inserted.inj heq
      rcases aboutToClaim_set hk with ⟨rfl, -⟩ | ⟨-, hk'⟩
      · rfl
      · exact absurd (hlt k _ T' hk') (Nat.lt_irrefl _)
    · rcases aboutToClaim_set hk with ⟨rfl, heq⟩ | ⟨-, hk'⟩
      · obtain ⟨rfl, -⟩ := AttachPhase.inserted.inj heq
        exact absurd (hlt j _ T hj') (Nat.lt_irrefl _)
      · exact h.own j k p T T' hj' hk'

/-- Claiming for a fresh post. -/
theorem Attached.link (h : Attached db phases) (hφ : AboutToClaim phases i p T)
    (hids : ids.length ≤ MAX_ATTACHMENTS_PER_POST) :
    Attached (db.link T ids p) (phases.set i .done) := by
  obtain ⟨⟨q, hq, hqid, hqT⟩, hnone⟩ := h.fresh i p T hφ
  have hothers : ∀ j, j ≠ i → ∀ r T', AboutToClaim phases j r T' → r ≠ p := by
    rintro j hne r T' hj rfl
    exact hne (h.own j i r T' T hj hφ)
  constructor
  · constructor
    · intro a ha r hr
      obtain ⟨b, hb, rfl⟩ := mem_link.mp ha
      by_cases hclaimed : b.isClaimed T ids = true
      · rw [if_pos hclaimed] at hr ⊢
        obtain rfl : p = r := Option.some.inj hr
        simp only [PostAttachment.isClaimed, Bool.and_eq_true, beq_iff_eq] at hclaimed
        exact ⟨q, hq, hqid, Option.some.inj (hqT.trans hclaimed.1.1)⟩
      · rw [if_neg hclaimed] at hr ⊢
        exact h.sound.owned b hb r hr
    · intro r
      -- the claimed post had none before, and takes at most as many as are named
      by_cases hr : r = p
      · rw [hr, attachedTo_link_self hnone]
        exact Nat.le_trans (countP_claimed_le db T ids) hids
      · rw [attachedTo_link_of_ne hr]
        exact h.sound.capped r
  · intro j r T' hj
    rcases aboutToClaim_set hj with ⟨-, heq⟩ | ⟨hne, hj⟩
    · cases heq
    · have hrp : r ≠ p := hothers j hne r T' hj
      obtain ⟨hexists, hfree⟩ := h.fresh j r T' hj
      refine ⟨hexists, fun a ha => ?_⟩
      obtain ⟨b, hb, rfl⟩ := mem_link.mp ha
      by_cases hclaimed : b.isClaimed T ids = true
      · rw [if_pos hclaimed]
        exact fun heq => hrp (Option.some.inj heq).symm
      · rw [if_neg hclaimed]
        exact hfree b hb
  · intro j k r T' T'' hj hk
    rcases aboutToClaim_set hj with ⟨-, heq⟩ | ⟨-, hj⟩
    · cases heq
    · rcases aboutToClaim_set hk with ⟨-, heq⟩ | ⟨-, hk⟩
      · cases heq
      · exact h.own j k r T' T'' hj hk

/-- Every statement keeps the invariant. -/
theorem Attached.step (h : Attached w.db phases) (hφ : phases[i]? = some φ)
    (hstep : AttachStep φ w φ' w') : Attached w'.db (phases.set i φ') := by
  cases hstep with
  | elsewhere _ hposts hattachments =>
    exact h.keep hφ (h.sound.congr hposts hattachments) fun p T hfresh =>
      hfresh.congr hposts hattachments
  | uploads _ mk hmk hfree hposts hinsert => exact h.upload hφ hfree hposts hinsert
  | inserts n tenantId htenant hinsert hattachments => exact h.insert htenant hinsert hattachments
  | links ids postId tenantId hids hdb =>
    rw [hdb]
    exact h.link hφ hids

/-- Every statement leaves a linked attachment as it is. -/
theorem AttachStep.mem_of_linked (hstep : AttachStep φ w φ' w') (ha : a ∈ w.db.postAttachments)
    (hlinked : a.postId ≠ none) : a ∈ w'.db.postAttachments := by
  cases hstep with
  | elsewhere _ _ hattachments => rwa [hattachments]
  | uploads _ mk hmk hfree _ hinsert => exact (Sql.Table.mem_insert? hinsert).mpr (.inl ha)
  | inserts n tenantId _ _ hattachments => rwa [hattachments]
  | links ids postId tenantId _ hdb =>
    rw [hdb]
    exact mem_link_of_linked ha hlinked

/-! ### The handlers -/

/-- Nothing that concerns attachments happens. -/
def OtherBoard (w w' : World) : Prop :=
  w'.db.posts = w.db.posts ∧ w'.db.postAttachments = w.db.postAttachments

theorem OtherBoard.refl (w : World) : OtherBoard w w := ⟨rfl, rfl⟩

theorem OtherBoard.step (h : OtherBoard w w') (φ : AttachPhase) : AttachStep φ w φ w' :=
  .elsewhere φ h.1 h.2

/-- A program that only reads stays in its phase. -/
theorem follows_reads {α : Type} {q : Handler α} (hq : Prog.Reads q) (φ : AttachPhase) :
    Follows AttachStep (fun φ' _ => φ' = φ) φ q := by
  refine .of_within hq fun w w' heq => ?_
  subst heq
  exact (OtherBoard.refl w').step φ

/-- The call may end anywhere. -/
def Anywhere {α : Type} (_ : AttachPhase) (_ : Except Failure α) : Prop := True

theorem follows_reject {α : Type} (φ : AttachPhase) (code : Nat) (key : String) :
    Follows AttachStep Anywhere φ (reject code key : Handler α) := .fail trivial

theorem follows_resolve {δ : Type} (φ : AttachPhase) (code : Nat) (key : String) (d : δ) :
    Follows AttachStep Anywhere φ (resolve code key d) := .ret trivial

theorem follows_failWith {α : Type} (φ : AttachPhase) (key : String) (e : Failure) :
    Follows AttachStep Anywhere φ (failWith key e : Handler α) := by
  cases e with
  | rejected code key' => exact follows_reject φ code key'
  | duplicate | belowMinimum | error => exact follows_reject φ 500 key

theorem follows_catching {α : Type} {q : Handler α} {key : String} {φ : AttachPhase}
    (hq : Follows AttachStep Anywhere φ q) :
    Follows AttachStep Anywhere φ (tryCatch q (failWith key)) :=
  hq.catching (fun _ _ => id) fun ψ e _ => follows_failWith ψ key e

/-- Reading first, and going on in the same phase. -/
theorem follows_reads_bind {α β : Type} {q : Handler α} (hq : Prog.Reads q) {k : α → Handler β}
    {φ : AttachPhase} (hk : ∀ a, Follows AttachStep Anywhere φ (k a)) :
    Follows AttachStep Anywhere φ (q >>= k) := by
  refine (follows_reads hq φ).bind (fun ψ a hψ => ?_) fun _ _ _ => trivial
  rw [hψ]
  exact hk a

theorem follows_insertAttachment (tenantId : Nat) (kind : AttachmentKind) (storagePath : String)
    (file : UploadedFile) :
    Follows AttachStep Anywhere .idle (insertAttachment tenantId kind storagePath file) := by
  refine follows_call (fun w => (OtherBoard.refl w).step _) trivial
    fun w n w' hw => ⟨.idle, ?_, trivial⟩
  split at hw
  · cases hw
  · obtain ⟨attachments, hinsert, heq⟩ := Option.map_eq_some_iff.mp hw
    obtain ⟨-, rfl⟩ := Prod.mk.inj heq
    exact .uploads .idle _ _ (fun _ => rfl) rfl hinsert

theorem follows_storeAttachment (file : Option UploadedFile) (tenantId : Nat)
    (storagePath : String) :
    Follows AttachStep Anywhere .idle (storeAttachment file tenantId storagePath) := by
  unfold storeAttachment
  cases file with
  | none => exact follows_reject _ _ _
  | some f =>
    dsimp only
    cases kindForMime f.mimetype with
    | none => exact follows_reject _ _ _
    | some kind =>
      dsimp only
      by_cases hlarge : f.size > kind.maxBytes
      · rw [if_pos hlarge]
        exact follows_reject _ _ _
      · rw [if_neg hlarge]
        refine .catching (?_ : Follows AttachStep Anywhere _ _) (fun _ _ => id)
          fun ψ _ _ => follows_reject ψ _ _
        refine (follows_insertAttachment tenantId kind storagePath f).bind (fun ψ n _ => ?_)
          fun _ _ _ => trivial
        exact follows_resolve ψ _ _ _

/-- A call has the post to itself that it has inserted. -/
theorem follows_insertPost (n : NewPost) :
    Follows AttachStep (fun φ r => match r with
      | .ok id => φ = .inserted id n.tenantId
      | .error _ => True) .idle (insertPost n) := by
  refine follows_call (fun w => (OtherBoard.refl w).step _) trivial fun w id w' hw => ?_
  dsimp only at hw
  split at hw
  · cases hw
  · rename_i tenantId htenant
    split at hw
    · obtain ⟨posts, hinsert, heq⟩ := Option.map_eq_some_iff.mp hw
      obtain ⟨rfl, rfl⟩ := Prod.mk.inj heq
      exact ⟨_, .inserts n tenantId htenant hinsert rfl, rfl⟩
    · cases hw

theorem follows_attachToPost (attachmentIds : AttachmentIds) (postId : Nat)
    (tenantId : Option Nat) :
    Follows AttachStep Anywhere (.inserted postId tenantId)
      (attachToPost attachmentIds postId tenantId) := by
  unfold attachToPost
  dsimp only
  by_cases hnone : attachable attachmentIds = []
  · rw [if_pos hnone]
    exact .ret trivial
  rw [if_neg hnone]
  refine .catching (?_ : Follows AttachStep Anywhere _ _) (fun _ _ => id) fun _ _ _ => .ret trivial
  refine follows_call (fun w => (OtherBoard.refl w).step _) trivial
    fun w count w' hw => ⟨.done, ?_, trivial⟩
  split at hw
  · cases hw
  · obtain ⟨-, rfl⟩ := Prod.mk.inj (Option.some.inj hw)
    exact .links _ postId tenantId (length_attachable_le attachmentIds) rfl

/-- The insert, and the claim for the post that it returns. -/
theorem follows_insertAndAttach {δ : Type} (n : NewPost) (attachmentIds : AttachmentIds)
    {k : Nat → Handler δ} (hk : ∀ φ id, Follows AttachStep Anywhere φ (k id)) :
    Follows AttachStep Anywhere .idle (insertPost n >>= fun id =>
      attachToPost attachmentIds id n.tenantId >>= fun _ => k id) := by
  refine (follows_insertPost n).bind (fun φ id hφ => ?_) fun _ _ _ => trivial
  obtain rfl : φ = .inserted id n.tenantId := hφ
  exact (follows_attachToPost attachmentIds id n.tenantId).bind (fun ψ _ _ => hk ψ id)
    fun _ _ _ => trivial

theorem follows_createPost (data : PostData) (auth : AuthData) :
    Follows AttachStep Anywhere .idle (createPost data auth) :=
  follows_catching (follows_insertAndAttach (data.row auth) data.attachmentIds fun φ _ =>
    follows_resolve φ _ _ _)

theorem follows_createPublicPost (env : PublicWriteEnv) (lower : Text.CaseMap) (tenantId : Nat)
    (requireAuth : Bool) (data : PublicPostData) (authUser : Option AuthData) :
    Follows AttachStep Anywhere .idle
      (createPublicPost env lower tenantId requireAuth data authUser) := by
  unfold createPublicPost
  refine follows_reads_bind (reads_refusesGuests _ _ _) fun restricted => ?_
  cases restricted with
  | true => exact follows_reject _ _ _
  | false =>
    rw [if_neg Bool.false_ne_true]
    cases publicPostProblem (Text.trim (data.title.getD [])) authUser.isNone
        (forGuest authUser (guestField 255 data.submitterEmail)) with
    | some key => exact follows_reject _ _ _
    | none =>
      dsimp only
      refine follows_reads_bind (reads_ofGuests (reads_postDuplicates _ _ _ _ _) _) fun count => ?_
      refine .bind (?_ : Follows AttachStep (fun φ _ => φ = .idle) _ _) (fun φ guard hφ => ?_)
        fun _ _ _ => trivial
      · exact .ofExcept rfl
      obtain rfl : φ = .idle := hφ
      by_cases hdiscard : guard.discard = true
      · rw [if_pos hdiscard]
        exact follows_resolve _ _ _ _
      rw [if_neg hdiscard]
      by_cases hlimited : guard.rateLimited = true
      · rw [if_pos hlimited]
        exact follows_reject _ _ _
      rw [if_neg hlimited]
      exact follows_catching (follows_insertAndAttach (data.row tenantId authUser guard)
        data.attachmentIds fun φ id => follows_resolve φ _ _ _)

/-! ### Runs -/

inductive AttachRequest where
  | storeAttachment (file : Option UploadedFile) (tenantId : Nat) (storagePath : String)
  | createPost (data : PostData) (auth : AuthData)
  | createPublicPost (env : PublicWriteEnv) (lower : Text.CaseMap) (tenantId : Nat)
      (requireAuth : Bool) (data : PublicPostData) (authUser : Option AuthData)

def attachHandler : AttachRequest → Handler Unit
  | .storeAttachment file tenantId storagePath =>
    withoutReply (storeAttachment file tenantId storagePath)
  | .createPost data auth => withoutReply (createPost data auth)
  | .createPublicPost env lower tenantId requireAuth data authUser =>
    withoutReply (createPublicPost env lower tenantId requireAuth data authUser)

/-- Anything else that happens leaves posts and attachments alone. -/
def attachSystem :
    System World Failure Unit AttachRequest { f : World → World // ∀ w, OtherBoard w (f w) } where
  handler := attachHandler
  env e w := e.1 w

abbrev AttachPool := Pool World Failure Unit AttachRequest

theorem follows_attachHandler (r : AttachRequest) :
    Follows AttachStep Anywhere .idle (attachHandler r) := by
  cases r with
  | storeAttachment file tenantId storagePath =>
    exact (follows_storeAttachment file tenantId storagePath).bind (fun _ _ _ => .ret trivial)
      fun _ _ _ => trivial
  | createPost data auth =>
    exact (follows_createPost data auth).bind (fun _ _ _ => .ret trivial) fun _ _ _ => trivial
  | createPublicPost env lower tenantId requireAuth data authUser =>
    exact (follows_createPublicPost env lower tenantId requireAuth data authUser).bind
      (fun _ _ _ => .ret trivial) fun _ _ _ => trivial

/-- What holds of a pool holds later, and what is linked stays. -/
theorem attached_of_run_from {P Q : AttachPool}
    (htracks : Tracks AttachStep Anywhere P phases)
    (hbegun : Tracks.Begun attachSystem (fun _ _ => .idle) P phases)
    (hP : Attached P.state.db phases) (hrun : attachSystem.Run (fun _ _ => True) P Q) :
    ∃ phases, Tracks AttachStep Anywhere Q phases ∧
      Tracks.Begun attachSystem (fun _ _ => .idle) Q phases ∧
        Attached Q.state.db phases ∧ ∀ a ∈ P.state.db.postAttachments, a.postId ≠ none →
          a ∈ Q.state.db.postAttachments := by
  refine Tracks.inv_of_run_from (I := fun R phases => Attached R.state.db phases ∧
      ∀ a ∈ P.state.db.postAttachments, a.postId ≠ none → a ∈ R.state.db.postAttachments)
    (fun r _ => follows_attachHandler r) htracks hbegun ⟨hP, fun a ha _ => ha⟩ ?_ ?_ ?_ hrun
  · intro R phases r _ _ h
    exact ⟨h.1.arrive, h.2⟩
  · intro R phases e _ h
    obtain ⟨hposts, hattachments⟩ := e.2 R.state
    refine ⟨⟨h.1.sound.congr hposts hattachments, fun i p T hi =>
      (h.1.fresh i p T hi).congr hposts hattachments, h.1.own⟩, fun a ha hlinked => ?_⟩
    change a ∈ (e.1 R.state).db.postAttachments
    rw [hattachments]
    exact h.2 a ha hlinked
  · intro R R' phases i c φ φ' prog _ _ _ _ _ _ hφ hstep _ h
    exact ⟨h.1.step hφ hstep, fun a ha hlinked => hstep.mem_of_linked (h.2 a ha hlinked) hlinked⟩

/-- In every run, in any order, every post has at most as many attachments as the cap, all of its
own workspace, and an attachment that is linked stays as it is. -/
theorem attachmentsSound_of_run {w₀ : World} {P : AttachPool} (hinit : AttachmentsSound w₀.db)
    (hrun : attachSystem.Run (fun _ _ => True) ⟨w₀, []⟩ P) :
    AttachmentsSound P.state.db ∧
      ∀ Q, attachSystem.Run (fun _ _ => True) P Q →
        ∀ a ∈ P.state.db.postAttachments, a.postId ≠ none → a ∈ Q.state.db.postAttachments := by
  obtain ⟨phases, htracks, hbegun, hP, -⟩ :=
    attached_of_run_from (.nil w₀) List.Forall₂.nil (.start hinit) hrun
  refine ⟨hP.sound, fun Q hlater => ?_⟩
  obtain ⟨_, -, -, -, hstays⟩ := attached_of_run_from htracks hbegun hP hlater
  exact hstays

/-! ### Two posts that want the same files -/

def gallery : Tenant where
  id := 1
  name := "Gallery"
  slug := "gallery"
  subdomain := "gallery"

def painter : User where
  id := 1
  tenantId := some 1
  email := "painter@gallery.co"

def galleryOpens : World where
  db := { tenants := .single gallery, users := .single painter }

def painterAuth : AuthData where
  id := 1
  tenantId := some 1
  role := .user
  email := "painter@gallery.co"

def uploadsImage : AttachRequest :=
  .storeAttachment (some { mimetype := "image/png", size := 10, originalName := none }) 1 "a.png"

def postsWith (ids : List (Option Int)) : AttachRequest :=
  .createPost { title := "Sketch", description := "", attachmentIds := some ids } painterAuth

/-- Both posts are inserted before either claims; the second to claim gets what is left. -/
theorem attachmentsSound_of_run_gallery : ∃ P Q : AttachPool,
    AttachmentsSound P.state.db ∧
      P.state.db.postAttachments.rows.map (·.postId) = [none, some 2] ∧
      Q.state.db.postAttachments.rows.map (·.postId) = [some 1, some 2] ∧
      ∀ a ∈ P.state.db.postAttachments, a.postId ≠ none → a ∈ Q.state.db.postAttachments := by
  let run := attachSystem.schedule ⟨galleryOpens, []⟩
    [.arrive uploadsImage, .arrive uploadsImage, .run 0, .run 1,
      .arrive (postsWith [some 1, some 2]), .arrive (postsWith [some 2, none, some 2, some 7]),
      .run 2, .run 3, .run 3]
  let later := run.bind fun P => attachSystem.schedule P [.run 2]
  have hP : run.map (fun P => P.state.db.postAttachments.rows.map (·.postId)) =
      some [none, some 2] := by decide +kernel
  have hQ : later.map (fun Q => Q.state.db.postAttachments.rows.map (·.postId)) =
      some [some 1, some 2] := by decide +kernel
  obtain ⟨P, hrun, hlinked⟩ := Option.map_eq_some_iff.mp hP
  obtain ⟨Q, hlater, hclaimed⟩ := Option.map_eq_some_iff.mp hQ
  dsimp only [later] at hlater
  rw [hrun] at hlater
  have hinit : AttachmentsSound galleryOpens.db := .of_empty rfl
  obtain ⟨hsound, hstays⟩ := attachmentsSound_of_run hinit (System.run_of_schedule hrun)
  exact ⟨P, Q, hsound, hlinked, hclaimed, hstays Q (System.run_of_schedule hlater)⟩

end Feedbase
