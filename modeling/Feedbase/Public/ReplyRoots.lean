import Feedbase.Lib.Chains
import Feedbase.Public.Submissions

/-!
# The root of a reply

A reply is attached to the top of its thread. The loop that climbs there goes from a comment to
its parent, and remembers the comments it has been at. Whatever the table of comments holds,
each round is at a comment it has not been at before.

## Main definitions

* `Comment.parentRef`, `Db.parentOf` — the link to the parent, and the parent
* `Climbs` — the loop ends, after a number of rounds

## Main results

* `Climbs.unique` — the loop ends in one way only
* `Climbs.climb_eq` — with a round for each, `climb` gives what the loop ends with
* `exists_climbs` — the loop ends, with no more rounds than the workspace has comments
* `Climbs.eq_top` — and it ends at the top when the parents lead to one
* `rootParent_at_top` — what a reply is attached to
-/

namespace Feedbase

variable {db : Db} {tenantId : Nat} {seen : List Nat} {c d root top : Comment} {n : Nat}

/-- The parent that a comment refers to. Identifiers start at one: zero is no parent. -/
def Comment.parentRef (c : Comment) : Option Nat := c.parentCommentId.filter (· ≠ 0)

/-- The parent, in the workspace. -/
def Db.parentOf (db : Db) (tenantId : Nat) (c : Comment) : Option Comment :=
  c.parentRef.bind (db.commentAt tenantId)

/-- The comments of a workspace. -/
def Db.commentsIn (db : Db) (tenantId : Nat) : List Comment :=
  db.comments.rows.filter fun c => c.tenantId == tenantId

/-- From `seen` and `c` the loop ends at `root`, after `n` rounds. -/
inductive Climbs (db : Db) (tenantId : Nat) : List Nat → Comment → Nat → Comment → Prop where
  | leaves (seen : List Nat) (c : Comment) (h : c.parentRef = none ∨ c.id ∈ seen) :
      Climbs db tenantId seen c 0 c
  | breaks (seen : List Nat) (c : Comment) (hparent : c.parentRef ≠ none) (hnew : c.id ∉ seen)
      (hup : db.parentOf tenantId c = none) : Climbs db tenantId seen c 1 c
  | climbs (seen : List Nat) (c up : Comment) (n : Nat) (root : Comment) (hnew : c.id ∉ seen)
      (hup : db.parentOf tenantId c = some up)
      (hrest : Climbs db tenantId (c.id :: seen) up n root) :
      Climbs db tenantId seen c (n + 1) root

theorem mem_commentsIn : c ∈ db.commentsIn tenantId ↔ c ∈ db.comments ∧ c.tenantId = tenantId := by
  rw [Db.commentsIn, List.mem_filter, beq_iff_eq]
  rfl

theorem parentOf_mem (h : db.parentOf tenantId c = some d) : d ∈ db.commentsIn tenantId := by
  obtain ⟨id, -, hfound⟩ := Option.bind_eq_some_iff.mp h
  have hat := commentAt_eq_some hfound
  exact mem_commentsIn.mpr ⟨hat.1, hat.2.2⟩

theorem parentRef_of_parentOf (h : db.parentOf tenantId c = some d) : c.parentRef ≠ none := by
  intro hnone
  rw [Db.parentOf, hnone] at h
  cases h

/-! ### The loop and its model -/

/-- A round of the model. -/
theorem climb_round : climb db tenantId (n + 1) seen c =
    if c.parentRef = none ∨ c.id ∈ seen then c
    else ((db.parentOf tenantId c).map (climb db tenantId n (c.id :: seen))).getD c := by
  rw [climb, Db.parentOf, Comment.parentRef]
  cases c.parentCommentId.filter (· ≠ 0) with
  | none => rfl
  | some id =>
    dsimp only
    by_cases hseen : c.id ∈ seen
    · rw [if_pos (List.contains_iff_mem.mpr hseen), if_pos (.inr hseen)]
    · have hstays : ¬ (some id = none ∨ c.id ∈ seen) := by
        rintro (hnone | hmem)
        · cases hnone
        · exact hseen hmem
      rw [if_neg (fun h => hseen (List.contains_iff_mem.mp h)), if_neg hstays, Option.bind_some]
      cases db.commentAt tenantId id with
      | none => rfl
      | some up => rfl

/-- With a round for each of the loop's, the model gives what the loop ends with. -/
theorem Climbs.climb_eq (h : Climbs db tenantId seen c n root) {m : Nat} (hm : n ≤ m) :
    climb db tenantId m seen c = root := by
  induction h generalizing m with
  | leaves seen c h =>
    cases m with
    | zero => rfl
    | succ m => rw [climb_round, if_pos h]
  | breaks seen c hparent hnew hup =>
    cases m with
    | zero => rfl
    | succ m =>
      have hstays : ¬ (c.parentRef = none ∨ c.id ∈ seen) := fun h => h.elim hparent hnew
      rw [climb_round, if_neg hstays, hup]
      rfl
  | climbs seen c up n root hnew hup _ ih =>
    cases m with
    | zero => omega
    | succ m =>
      have hstays : ¬ (c.parentRef = none ∨ c.id ∈ seen) :=
        fun h => h.elim (parentRef_of_parentOf hup) hnew
      rw [climb_round, if_neg hstays, hup]
      exact ih (Nat.le_of_succ_le_succ hm)

/-- The loop ends in one way only. -/
theorem Climbs.unique (h : Climbs db tenantId seen c n root) {m : Nat} {other : Comment}
    (h' : Climbs db tenantId seen c m other) : n = m ∧ root = other := by
  induction h generalizing m with
  | leaves seen c h =>
    cases h' with
    | leaves => exact ⟨rfl, rfl⟩
    | breaks _ _ hparent hnew => exact absurd h (not_or.mpr ⟨hparent, hnew⟩)
    | climbs _ _ up _ _ hnew hup => exact absurd h (not_or.mpr ⟨parentRef_of_parentOf hup, hnew⟩)
  | breaks seen c hparent hnew hup =>
    cases h' with
    | leaves _ _ h => exact absurd h (not_or.mpr ⟨hparent, hnew⟩)
    | breaks => exact ⟨rfl, rfl⟩
    | climbs _ _ up _ _ _ hup' =>
      rw [hup] at hup'
      cases hup'
  | climbs seen c up n root hnew hup _ ih =>
    cases h' with
    | leaves _ _ h => exact absurd h (not_or.mpr ⟨parentRef_of_parentOf hup, hnew⟩)
    | breaks _ _ _ _ hup' =>
      rw [hup] at hup'
      cases hup'
    | climbs _ _ up' _ _ _ hup' hrest =>
      rw [hup] at hup'
      obtain rfl := Option.some.inj hup'
      obtain ⟨hn, hroot⟩ := ih hrest
      exact ⟨congrArg (· + 1) hn, hroot⟩

/-! ### The rounds -/

/-- The identifiers that the loop remembers are those of comments of the workspace. -/
structure Seen (db : Db) (tenantId : Nat) (seen : List Nat) : Prop where
  nodup : seen.Nodup
  known : ∀ id ∈ seen, ∃ d ∈ db.commentsIn tenantId, d.id = id

theorem Seen.cons (h : Seen db tenantId seen) (hc : c ∈ db.commentsIn tenantId)
    (hnew : c.id ∉ seen) : Seen db tenantId (c.id :: seen) where
  nodup := List.nodup_cons.mpr ⟨hnew, h.nodup⟩
  known id hid := by
    rcases List.mem_cons.mp hid with rfl | hid
    · exact ⟨c, hc, rfl⟩
    · exact h.known id hid

theorem Seen.length_le (h : Seen db tenantId seen) :
    seen.length ≤ (db.commentsIn tenantId).length := by
  have hsubset : seen ⊆ (db.commentsIn tenantId).map Comment.id := by
    intro id hid
    obtain ⟨d, hd, rfl⟩ := h.known id hid
    exact List.mem_map_of_mem hd
  have hle := h.nodup.length_le_of_subset hsubset
  rwa [List.length_map] at hle

/-- The loop ends. Each round is at a comment of the workspace that is not remembered yet. -/
theorem exists_climbs (h : Seen db tenantId seen) (hc : c ∈ db.commentsIn tenantId) :
    ∃ n root, n + seen.length ≤ (db.commentsIn tenantId).length ∧
      Climbs db tenantId seen c n root := by
  -- by induction on the comments that are left
  induction hleft : (db.commentsIn tenantId).length - seen.length generalizing seen c with
  | zero =>
    have hle := h.length_le
    by_cases hseen : c.id ∈ seen
    · exact ⟨0, c, by omega, .leaves seen c (.inr hseen)⟩
    · have hmore := (h.cons hc hseen).length_le
      rw [List.length_cons] at hmore
      omega
  | succ left ih =>
    have hle := h.length_le
    by_cases hstop : c.parentRef = none ∨ c.id ∈ seen
    · exact ⟨0, c, by omega, .leaves seen c hstop⟩
    · obtain ⟨hparent, hnew⟩ := not_or.mp hstop
      cases hup : db.parentOf tenantId c with
      | none => exact ⟨1, c, by omega, .breaks seen c hparent hnew hup⟩
      | some up =>
        have hcons := h.cons hc hnew
        obtain ⟨n, root, hn, hrest⟩ := ih hcons (parentOf_mem hup) (by rw [List.length_cons]; omega)
        rw [List.length_cons] at hn
        exact ⟨n + 1, root, by omega, .climbs seen c up n root hnew hup hrest⟩

/-! ### The top -/

/-- The comments that the loop remembers are below the one it is at. -/
def Below (db : Db) (tenantId : Nat) (seen : List Nat) (c : Comment) : Prop :=
  ∀ id ∈ seen, ∃ d up, d ∈ db.commentsIn tenantId ∧ d.id = id ∧
    db.parentOf tenantId d = some up ∧ Chain.Leads (db.parentOf tenantId) up c

theorem Below.climbs (h : Below db tenantId seen c) (hc : c ∈ db.commentsIn tenantId)
    (hup : db.parentOf tenantId c = some d) : Below db tenantId (c.id :: seen) d := by
  intro id hid
  rcases List.mem_cons.mp hid with rfl | hid
  · exact ⟨c, d, hc, rfl, hup, .refl⟩
  · obtain ⟨e, up, he, heq, hlink, hleads⟩ := h id hid
    exact ⟨e, up, he, heq, hlink, hleads.tail hup⟩

/-- On the way to the top the loop comes to no comment twice. -/
theorem Below.not_mem (h : Below db tenantId seen c) (hc : c ∈ db.commentsIn tenantId)
    (hends : Chain.Ends (db.parentOf tenantId) c) : c.id ∉ seen := by
  intro hseen
  obtain ⟨d, up, hd, hid, hlink, hback⟩ := h c.id hseen
  have heq : d = c := Sql.Table.eq_of_id (mem_commentsIn.mp hd).1 (mem_commentsIn.mp hc).1 hid
  rw [heq] at hlink
  exact Chain.not_ends_of_cycle hlink hback hends

/-- The loop ends at the top, when the parents lead to one. -/
theorem Climbs.eq_top (h : Climbs db tenantId seen c n root) (hc : c ∈ db.commentsIn tenantId)
    (hbelow : Below db tenantId seen c) (htop : top.parentRef = none)
    (hleads : Chain.Leads (db.parentOf tenantId) c top) : root = top := by
  have hstop : db.parentOf tenantId top = none := by
    rw [Db.parentOf, htop]
    rfl
  induction h with
  | leaves seen c h =>
    have hnew := hbelow.not_mem hc ⟨top, hleads, hstop⟩
    have hnone : c.parentRef = none := h.resolve_right hnew
    refine hleads.eq_of_stop ?_
    rw [Db.parentOf, hnone]
    rfl
  | breaks seen c hparent _ hup =>
    have heq := hleads.eq_of_stop hup
    rw [heq] at hparent
    exact absurd htop hparent
  | climbs seen c up n root _ hup _ ih =>
    have hne : c ≠ top := by
      intro heq
      rw [heq] at hup
      exact parentRef_of_parentOf hup htop
    exact ih (parentOf_mem hup) (hbelow.climbs hc hup) (hleads.of_link hup hne)

theorem parentOn_mem {postId id : Nat} (h : db.parentOn tenantId postId id = some c) :
    c ∈ db.commentsIn tenantId ∧ c.id = id := by
  have hat := List.find?_some h
  simp only [Bool.and_eq_true, beq_iff_eq] at hat
  exact ⟨mem_commentsIn.mpr ⟨List.mem_of_find?_eq_some h, hat.2⟩, hat.1.1⟩

/-- A reply to a comment of the post is attached to the comment that the loop ends at: the top of
the thread, when the parents in the workspace lead to one. The loop makes no more rounds than
the workspace has comments. -/
theorem rootParent_at_top (db : Db) (tenantId postId id : Nat) (parent : Comment) (hid : id ≠ 0)
    (h : db.parentOn tenantId postId id = some parent) :
    ∃ n root, n ≤ (db.commentsIn tenantId).length ∧ Climbs db tenantId [] parent n root ∧
      rootParent db tenantId postId (some id) = .ok (some root.id) ∧
      ∀ top : Comment, top.parentRef = none →
        Chain.Leads (db.parentOf tenantId) parent top → root.id = top.id := by
  have hmem := (parentOn_mem h).1
  have hempty : Seen db tenantId [] := ⟨List.nodup_nil, fun _ hid => absurd hid List.not_mem_nil⟩
  obtain ⟨n, root, hn, hclimbs⟩ := exists_climbs hempty hmem
  rw [List.length_nil, Nat.add_zero] at hn
  have hrounds : n ≤ db.comments.rows.length + 1 := by
    have hle : (db.commentsIn tenantId).length ≤ db.comments.rows.length :=
      List.length_filter_le _ _
    omega
  refine ⟨n, root, hn, hclimbs, ?_, ?_⟩
  · have hsome : (some id).filter (· ≠ 0) = some id := by simp [hid]
    rw [rootParent, hsome]
    dsimp only
    rw [h]
    dsimp only
    rw [rootComment, hclimbs.climb_eq hrounds]
  · intro top htop hleads
    have hbelow : Below db tenantId [] parent := fun _ hid => absurd hid List.not_mem_nil
    rw [hclimbs.eq_top hmem hbelow htop hleads]

/-- Three comments under each other, and two that are each other's parents. -/
def threads : Db where
  comments :=
    { rows := [
        { id := 1, tenantId := 5, postId := 2, body := "a", createdAt := 0 },
        { id := 2, tenantId := 5, postId := 2, parentCommentId := some 1, body := "b",
          createdAt := 0 },
        { id := 3, tenantId := 5, postId := 2, parentCommentId := some 2, body := "c",
          createdAt := 0 },
        { id := 4, tenantId := 5, postId := 2, parentCommentId := some 5, body := "d",
          createdAt := 0 },
        { id := 5, tenantId := 5, postId := 3, parentCommentId := some 4, body := "e",
          createdAt := 0 }]
      next := 6
      id_lt := by decide
      nodup := by decide
      noClash := by decide }

/-- From the third comment the loop ends at the first, and from the fourth it comes round. -/
theorem rootParent_at_top_threads :
    (∃ n root, n ≤ (threads.commentsIn 5).length ∧
      Climbs threads 5 [] (threads.comments.rows[2]) n root ∧
      rootParent threads 5 2 (some 3) = .ok (some root.id) ∧
      ∀ top : Comment, top.parentRef = none →
        Chain.Leads (threads.parentOf 5) (threads.comments.rows[2]) top → root.id = top.id) ∧
      rootParent threads 5 2 (some 3) = .ok (some 1) ∧
      rootParent threads 5 2 (some 4) = .ok (some 4) :=
  ⟨rootParent_at_top threads 5 2 3 _ (by decide) rfl, rfl, rfl⟩

end Feedbase
