import Feedbase.Lib.Turns
import Feedbase.Public.BoardCards
import Feedbase.Public.GuestWrites
import Feedbase.Public.Submissions
import Feedbase.Schema.Cascade
import Feedbase.Schema.Prune

/-!
# Votes from the public board

A visitor votes once for a post and takes the vote back with the next click. Where the request
comes from an address, the hash of the address says whose the vote is, and the browser's guest id
otherwise; but a vote carries both, and each of the two is unique among the votes of a post. A
browser that has voted from another address has no vote to take back and cannot cast one either.

## Main definitions

* `Vote.isOf`, `voteOf` — the vote that a click takes back
* `insertVote`, `togglePublicVote`
* `toggled` — what a click does to the votes
* `GuestIsOwn` — the guest id has been used from this address only
* `TakesBack` — the second of two clicks undoes the first
* `VotesOwned`, `OneVotePerHash`, `voteSystem` — any number of visitors

## Main results

* `togglePublicVote_exec` — a click that is answered
* `takesBack_iff` — two clicks
* `OtherVotes.of_insertPost`, `OtherVotes.of_prune`, `OtherVotes.of_erase` — what every other
  request does to votes and posts
* `togglePublicVote_undoes_iff` — the same in every reachable state
-/

namespace Feedbase

open Sql

/-! ### The handler -/

/-- Whether the vote is the visitor's: by the hash of the address, and by the guest id only where
there is none. -/
def Vote.isOf (tenantId postId : Nat) (guest : String) (hash : Option VoterHash) (v : Vote) :
    Bool :=
  v.tenantId == tenantId && v.postId == postId &&
    match hash with
    | some h => v.voterHash == some h.text
    | none => v.guestId == some guest

/-- `SELECT id FROM votes WHERE tenant_id = ? AND post_id = ? AND …`. -/
def voteOf (tenantId postId : Nat) (guest : String) (hash : Option VoterHash) (T : Table Vote) :
    Option Vote :=
  T.rows.find? (Vote.isOf tenantId postId guest hash)

def newVote (tenantId postId : Nat) (guest : String) (hash : Option VoterHash) (id : Nat) :
    Vote where
  id := id
  tenantId := tenantId
  postId := postId
  guestId := some guest
  voterHash := hash.map VoterHash.text

/-- `INSERT IGNORE INTO votes`; returns `affectedRows`, which is 0 for a duplicate key and for a
foreign key that leads nowhere. -/
def insertVote (tenantId postId : Nat) (guest : String) (hash : Option VoterHash) : Handler Nat :=
  call .votesInsert fun w =>
    if (w.db.tenants.byId tenantId).isSome && (w.db.posts.byId postId).isSome then
      match w.db.votes.insert? (newVote tenantId postId guest hash) with
      | some votes => some (1, { w with db := { w.db with votes := votes } })
      | none => some (0, w)
    else some (0, w)

/-- `DELETE FROM votes WHERE id = ?`. -/
def deleteVote (id : Nat) : Handler Unit :=
  call .votesDelete fun w =>
    some ((), { w with db := { w.db with votes := w.db.votes.delete (·.id == id) } })

structure VoteResult where
  voted : Bool
  voteCount : Nat
  deriving DecidableEq

/-- The vote is deleted, or cast. -/
def castOrTakeBack (tenantId postId : Nat) (guest : String) (hash : Option VoterHash) :
    Option Vote → Handler Bool
  | some existing => do
    deleteVote existing.id
    return false
  | none => do
    let affectedRows ← insertVote tenantId postId guest hash
    return decide (0 < affectedRows)

/-- `(guestId || "").trim()`. -/
def guestText (guestId : Option String) : String := trim (guestId.getD "")

/-- The guest id that a request must have. -/
def ValidGuest (guestId : Option String) : Prop :=
  guestText guestId ≠ "" ∧ Utf16.length (guestText guestId).toList ≤ 64

instance (guestId : Option String) : Decidable (ValidGuest guestId) :=
  inferInstanceAs (Decidable (_ ∧ _))

/-- `hash` is `voterHash(req)`. -/
def togglePublicVote (tenantId postId : Nat) (guestId : Option String) (hash : Option VoterHash) :
    Handler (Reply VoteResult) :=
  let guest := guestText guestId
  if ¬ ValidGuest guestId then reject 400 "guest_id_required"
  else
    tryCatch (do
      let post ← selectAt .postsSelect fun db => visiblePost db tenantId postId
      if post.isNone then reject 404 "post_not_found"
      else do
        let existing ← selectAt .votesSelect fun db => voteOf tenantId postId guest hash db.votes
        let voted ← castOrTakeBack tenantId postId guest hash existing
        let voteCount ← selectAt .votesSelect fun db => db.votesOn postId
        resolve 200 "vote_updated_successfully" ⟨voted, voteCount⟩)
          (failWith "failed_to_update_vote")

/-! ### One click -/

variable {tenantId postId : Nat} {guest : String} {guestId : Option String}
  {hash : Option VoterHash} {T T' : Table Vote} {v u : Vote} {voted : Bool} {w w' : World}

/-- What a click does to the votes, and whether it reports a vote. -/
def toggled (tenantId postId : Nat) (guest : String) (hash : Option VoterHash) (T : Table Vote) :
    Bool × Table Vote :=
  match voteOf tenantId postId guest hash T with
  | some v => (false, T.delete (·.id == v.id))
  | none =>
    match T.insert? (newVote tenantId postId guest hash) with
    | some T' => (true, T')
    | none => (false, T)

/-- The number of votes of a post. -/
def countVotes (postId : Nat) (T : Table Vote) : Nat := T.rows.countP (·.postId == postId)

/-- What a click answers. -/
def voteAnswer (tenantId postId : Nat) (guest : String) (hash : Option VoterHash)
    (T : Table Vote) : VoteResult where
  voted := (toggled tenantId postId guest hash T).1
  voteCount := countVotes postId (toggled tenantId postId guest hash T).2

/-- The post can be voted on: the workspace exists, the post is visible, and no statement fails. -/
structure Votable (w : World) (tenantId postId : Nat) : Prop where
  tenant : (w.db.tenants.byId tenantId).isSome
  visible : (visiblePost w.db tenantId postId).isSome
  works : ∀ site ∈ [Site.postsSelect, .votesSelect, .votesInsert, .votesDelete],
    w.fails site = false

theorem visiblePost_eq_some {db : Db} {p : Post} (h : visiblePost db tenantId postId = some p) :
    p ∈ db.posts ∧ p.id = postId ∧ p.tenantId = tenantId := by
  obtain ⟨hfind, -⟩ := Option.filter_eq_some_iff.mp h
  have hat := List.find?_some hfind
  rw [Bool.and_eq_true, beq_iff_eq, beq_iff_eq] at hat
  exact ⟨List.mem_of_find?_eq_some hfind, hat.1, hat.2⟩

theorem Votable.post (h : Votable w tenantId postId) : (w.db.posts.byId postId).isSome := by
  obtain ⟨p, hp⟩ := Option.isSome_iff_exists.mp h.visible
  obtain ⟨hmem, hid, -⟩ := visiblePost_eq_some hp
  exact Table.byId_isSome_iff.mpr ⟨p, hmem, hid⟩

theorem exec_castOrTakeBack (h : Votable w tenantId postId) :
    (castOrTakeBack tenantId postId guest hash
        (voteOf tenantId postId guest hash w.db.votes)).exec w =
      (.ok (toggled tenantId postId guest hash w.db.votes).1,
        { w with db := { w.db with
          votes := (toggled tenantId postId guest hash w.db.votes).2 } }) := by
  rw [toggled]
  cases voteOf tenantId postId guest hash w.db.votes with
  | some v =>
    rw [castOrTakeBack, Prog.exec_bind, deleteVote, exec_call,
      if_neg (Bool.eq_false_iff.mp (h.works .votesDelete (by decide)))]
    rfl
  | none =>
    rw [castOrTakeBack, Prog.exec_bind, insertVote, exec_call,
      if_neg (Bool.eq_false_iff.mp (h.works .votesInsert (by decide))), h.tenant, h.post,
      Bool.and_self, if_pos rfl]
    cases w.db.votes.insert? (newVote tenantId postId guest hash) with
    | none => rfl
    | some T' => rfl

/-- A click that is answered. -/
theorem togglePublicVote_exec (hguest : ValidGuest guestId) (h : Votable w tenantId postId) :
    (togglePublicVote tenantId postId guestId hash).exec w =
      (.ok ⟨200, "vote_updated_successfully",
          voteAnswer tenantId postId (guestText guestId) hash w.db.votes⟩,
        { w with db := { w.db with
          votes := (toggled tenantId postId (guestText guestId) hash w.db.votes).2 } }) := by
  have hsees : ¬ (visiblePost w.db tenantId postId).isNone = true := by
    rw [Option.isNone_iff_eq_none]
    exact Option.isSome_iff_ne_none.mp h.visible
  have hselect : ¬ w.fails .votesSelect = true :=
    Bool.eq_false_iff.mp (h.works .votesSelect (by decide))
  rw [togglePublicVote, if_neg (not_not_intro hguest), Prog.exec_tryCatch, exec_selectAt_bind,
    if_neg (Bool.eq_false_iff.mp (h.works .postsSelect (by decide))), if_neg hsees,
    exec_selectAt_bind, if_neg hselect, Prog.exec_bind, exec_castOrTakeBack h]
  dsimp only
  rw [exec_selectAt_bind, if_neg hselect]
  rfl

/-! ### Two clicks -/

theorem isOf_vote_iff : v.isOf tenantId postId guest hash = true ↔
    v.tenantId = tenantId ∧ v.postId = postId ∧
      (∀ h, hash = some h → v.voterHash = some h.text) ∧
      (hash = none → v.guestId = some guest) := by
  unfold Vote.isOf
  cases hash with
  | none => simp [and_assoc]
  | some h => simp [and_assoc]

/-- The vote that a click casts is the visitor's. -/
theorem isOf_newVote (id : Nat) :
    (newVote tenantId postId guest hash id).isOf tenantId postId guest hash = true := by
  rw [isOf_vote_iff]
  refine ⟨rfl, rfl, fun h hh => ?_, fun _ => rfl⟩
  rw [hh]
  rfl

theorem sameKey_iff {a b : Option String} : sameKey a b = true ↔ a = b ∧ a ≠ none := by
  rw [sameKey, Bool.and_eq_true, beq_iff_eq, Option.isSome_iff_ne_none]
  exact and_comm

/-- What keeps a vote from being cast: another one with the guest id, or with the hash. -/
theorem clash_newVote_iff {id : Nat} :
    Row.clash v (newVote tenantId postId guest hash id) = true ↔
      v.tenantId = tenantId ∧ v.postId = postId ∧
        (v.guestId = some guest ∨ ∃ h, hash = some h ∧ v.voterHash = some h.text) := by
  have hkey : Row.clash v (newVote tenantId postId guest hash id) =
      (v.tenantId == tenantId && v.postId == postId &&
        (sameKey v.guestId (some guest) || sameKey v.voterHash (hash.map VoterHash.text))) := by
    change (v.tenantId == tenantId && v.postId == postId &&
      ((v.userId.isSome && false && v.userId == none) || _ || _)) = _
    rw [Bool.and_false, Bool.false_and, Bool.false_or]
    rfl
  rw [hkey, Bool.and_eq_true, Bool.and_eq_true, Bool.or_eq_true, sameKey_iff, sameKey_iff,
    beq_iff_eq, beq_iff_eq, and_assoc]
  refine and_congr_right fun _ => and_congr_right fun _ => or_congr ?_ ?_
  · exact ⟨And.left, fun heq => ⟨heq, by rw [heq]; nofun⟩⟩
  · cases hash with
    | none => exact ⟨fun h => absurd h.1 h.2, fun ⟨_, heq, _⟩ => by cases heq⟩
    | some h =>
      refine ⟨fun heq => ⟨h, rfl, heq.1⟩, ?_⟩
      rintro ⟨_, heq, hv⟩
      cases heq
      exact ⟨hv, by rw [hv]; nofun⟩

theorem voteOf_eq_none_iff : voteOf tenantId postId guest hash T = none ↔
    ∀ v ∈ T, v.isOf tenantId postId guest hash = false := by
  simp [voteOf, Table.mem_def]

theorem voteOf_eq_some (h : voteOf tenantId postId guest hash T = some v) :
    v ∈ T ∧ v.isOf tenantId postId guest hash = true :=
  ⟨List.mem_of_find?_eq_some h, List.find?_some h⟩

/-- A visitor has at most one vote. -/
theorem eq_of_isOf (hv : v ∈ T) (hu : u ∈ T) (hvof : v.isOf tenantId postId guest hash = true)
    (huof : u.isOf tenantId postId guest hash = true) : v = u := by
  obtain ⟨htenant, hpost, hhash, hguest⟩ := isOf_vote_iff.mp hvof
  obtain ⟨htenant', hpost', hhash', hguest'⟩ := isOf_vote_iff.mp huof
  have hkeys : sameKey v.guestId u.guestId = true ∨ sameKey v.voterHash u.voterHash = true := by
    cases hash with
    | none =>
      left
      rw [sameKey_iff, hguest rfl, hguest' rfl]
      exact ⟨rfl, nofun⟩
    | some h =>
      right
      rw [sameKey_iff, hhash h rfl, hhash' h rfl]
      exact ⟨rfl, nofun⟩
  apply Table.eq_of_clash hv hu
  change (v.tenantId == u.tenantId && v.postId == u.postId && _) = true
  rw [htenant, hpost, htenant', hpost', beq_self_eq_true, beq_self_eq_true, Bool.and_self,
    Bool.true_and, Bool.or_eq_true, Bool.or_eq_true]
  rcases hkeys with hkey | hkey
  · exact .inl (.inr hkey)
  · exact .inr hkey

/-- Whoever is known by the hash of an address has the guest id to that address alone. -/
def GuestIsOwn (tenantId postId : Nat) (guest : String) (hash : Option VoterHash)
    (T : Table Vote) : Prop :=
  ∀ h, hash = some h → ∀ v ∈ T, v.tenantId = tenantId → v.postId = postId →
    v.guestId = some guest → v.voterHash = some h.text

/-- Who has no vote may cast one if and only if the guest id is free elsewhere. -/
theorem insert?_isSome_iff (hnone : voteOf tenantId postId guest hash T = none) :
    (T.insert? (newVote tenantId postId guest hash)).isSome = true ↔
      GuestIsOwn tenantId postId guest hash T := by
  have hfree : ∀ v ∈ T, v.isOf tenantId postId guest hash = false := voteOf_eq_none_iff.mp hnone
  have hclash : T.insert? (newVote tenantId postId guest hash) = none ↔
      ∃ v ∈ T, Row.clash v (newVote tenantId postId guest hash T.next) = true :=
    Table.insert?_eq_none_iff
  rw [Option.isSome_iff_ne_none, ne_eq, hclash]
  constructor
  · intro hno h hh v hv htenant hpost hguest
    exact absurd ⟨v, hv, clash_newVote_iff.mpr ⟨htenant, hpost, .inl hguest⟩⟩ hno
  · rintro hown ⟨v, hv, hv'⟩
    obtain ⟨htenant, hpost, hkey⟩ := clash_newVote_iff.mp hv'
    have hof : v.isOf tenantId postId guest hash = true := by
      rw [isOf_vote_iff]
      refine ⟨htenant, hpost, fun h hh => ?_, fun hh => ?_⟩
      · rcases hkey with hguest | ⟨h', hh', hhash⟩
        · exact hown h hh v hv htenant hpost hguest
        · rw [hhash, Option.some.inj (hh.symm.trans hh')]
      · rcases hkey with hguest | ⟨h', hh', -⟩
        · exact hguest
        · rw [hh] at hh'
          cases hh'
    rw [hfree v hv] at hof
    cases hof

/-- Taking a vote back leaves the visitor without one, and the guest id where it was. -/
theorem voteOf_delete (h : voteOf tenantId postId guest hash T = some v) :
    voteOf tenantId postId guest hash (T.delete (·.id == v.id)) = none := by
  obtain ⟨hv, hvof⟩ := voteOf_eq_some h
  rw [voteOf_eq_none_iff]
  intro u hu
  obtain ⟨hu, hne⟩ := Table.mem_delete.mp hu
  by_contra huof
  have heq : u = v := eq_of_isOf hu hv (Bool.eq_true_of_not_eq_false huof) hvof
  rw [heq, beq_self_eq_true] at hne
  cases hne

theorem guestIsOwn_delete (h : voteOf tenantId postId guest hash T = some v) :
    GuestIsOwn tenantId postId guest hash (T.delete (·.id == v.id)) ↔
      GuestIsOwn tenantId postId guest hash T := by
  obtain ⟨hv, hvof⟩ := voteOf_eq_some h
  constructor
  · intro hown k hk u hu htenant hpost hguest
    by_cases heq : u.id = v.id
    · obtain rfl : u = v := Table.eq_of_id hu hv heq
      exact (isOf_vote_iff.mp hvof).2.2.1 k hk
    · exact hown k hk u (Table.mem_delete.mpr ⟨hu, beq_eq_false_iff_ne.mpr heq⟩) htenant hpost
        hguest
  · intro hown k hk u hu
    exact hown k hk u (Table.mem_delete.mp hu).1

/-- Taking the vote back takes one from the post's. -/
theorem countVotes_delete (h : voteOf tenantId postId guest hash T = some v) :
    countVotes postId T = countVotes postId (T.delete (·.id == v.id)) + 1 := by
  obtain ⟨hv, hvof⟩ := voteOf_eq_some h
  have hpost : (v.postId == postId) = true := beq_iff_eq.mpr (isOf_vote_iff.mp hvof).2.1
  have hsplit := Table.countP_eq_add_one (p := fun u : Vote => u.postId == postId) hv hpost
  rw [countVotes, hsplit, countVotes, Table.rows_delete, List.countP_filter]
  rfl

theorem countVotes_insert (h : T.insert? (newVote tenantId postId guest hash) = some T') :
    countVotes postId T' = countVotes postId T + 1 := by
  rw [countVotes, Table.insert?_rows h, List.countP_append, List.countP_singleton]
  simp [newVote, countVotes]

/-- The vote that was cast is the one to take back, and the votes are then as they were. -/
theorem voteOf_insert (hnone : voteOf tenantId postId guest hash T = none)
    (h : T.insert? (newVote tenantId postId guest hash) = some T') :
    voteOf tenantId postId guest hash T' = some (newVote tenantId postId guest hash T.next) := by
  have hold : T.rows.find? (Vote.isOf tenantId postId guest hash) = none := hnone
  rw [voteOf, Table.insert?_rows h, List.find?_append, hold, List.find?_singleton,
    isOf_newVote T.next]
  rfl

/-- A click that reports a vote counts one more than there were, and any other one less. -/
def CountsFrom (n : Nat) (r : VoteResult) : Prop :=
  (r.voted = true → r.voteCount = n + 1) ∧ (r.voted = false → r.voteCount + 1 = n)

/-- The second of two clicks undoes the first: the votes for the post are as many as before, and
one of the two clicks reports a vote. -/
structure TakesBack (before after : Nat) (first second : VoteResult) : Prop where
  restores : after = before
  once : first.voted = !second.voted
  counts : CountsFrom before first
  countsBack : CountsFrom first.voteCount second

/-- Two clicks in a row. -/
theorem takesBack_iff (tenantId postId : Nat) (guest : String) (hash : Option VoterHash)
    (h : toggled tenantId postId guest hash T = (voted, T')) :
    TakesBack (countVotes postId T)
        (countVotes postId (toggled tenantId postId guest hash T').2)
        (voteAnswer tenantId postId guest hash T) (voteAnswer tenantId postId guest hash T') ↔
      GuestIsOwn tenantId postId guest hash T := by
  cases hvote : voteOf tenantId postId guest hash T with
  | some v =>
    -- the vote is taken back first, and cast again
    have hcount := countVotes_delete hvote
    have hnone := voteOf_delete hvote
    have hfirst : toggled tenantId postId guest hash T = (false, T.delete (·.id == v.id)) := by
      rw [toggled, hvote]
    obtain ⟨rfl, rfl⟩ := Prod.mk.inj (h.symm.trans hfirst)
    rw [voteAnswer, voteAnswer, hfirst, ← guestIsOwn_delete hvote, ← insert?_isSome_iff hnone,
      toggled, hnone]
    dsimp only
    cases hinsert : (T.delete (·.id == v.id)).insert? (newVote tenantId postId guest hash) with
    -- the vote is cast first, and taken back
    | none => exact ⟨fun h => absurd h.once Bool.false_ne_true, nofun⟩
    | some T' =>
      have hcount' := countVotes_insert hinsert
      refine ⟨fun _ => rfl, fun _ => ⟨?_, rfl, ⟨nofun, fun _ => hcount.symm⟩, ?_, nofun⟩⟩
      · dsimp only
        omega
      · exact fun _ => hcount'
  | none =>
    rw [← insert?_isSome_iff hvote, voteAnswer, voteAnswer]
    cases hinsert : T.insert? (newVote tenantId postId guest hash) with
    | none =>
      have hfirst : toggled tenantId postId guest hash T = (false, T) := by
        rw [toggled, hvote, hinsert]
      obtain ⟨rfl, rfl⟩ := Prod.mk.inj (h.symm.trans hfirst)
      rw [hfirst]
      exact ⟨fun h => absurd h.once Bool.false_ne_true, nofun⟩
    | some T₁ =>
      have hfirst : toggled tenantId postId guest hash T = (true, T₁) := by
        rw [toggled, hvote, hinsert]
      have hfound := voteOf_insert hvote hinsert
      have hcount := countVotes_insert hinsert
      have hcount' := countVotes_delete hfound
      obtain ⟨rfl, rfl⟩ := Prod.mk.inj (h.symm.trans hfirst)
      rw [hfirst, toggled, hfound]
      dsimp only
      refine ⟨fun _ => rfl, fun _ => ⟨?_, rfl, ⟨fun _ => hcount, nofun⟩, nofun, ?_⟩⟩
      · omega
      · exact fun _ => hcount'.symm

/-! ### Any number of visitors -/

/-- Every vote is on a post of its workspace. -/
def VotesOwned (db : Db) : Prop :=
  ∀ v ∈ db.votes, ∃ p ∈ db.posts, p.id = v.postId ∧ p.tenantId = v.tenantId

/-- No address has voted twice for a post. -/
def OneVotePerHash (db : Db) : Prop :=
  ∀ postId hash, db.votes.rows.countP
    (fun v => v.postId == postId && v.voterHash == some hash) ≤ 1

theorem VotesOwned.oneVotePerHash {db : Db} (h : VotesOwned db) : OneVotePerHash db := by
  intro postId hash
  by_cases hnone : ∀ v ∈ db.votes, ¬ (v.postId == postId && v.voterHash == some hash) = true
  · rw [List.countP_eq_zero.mpr hnone]
    exact Nat.zero_le 1
  · push Not at hnone
    obtain ⟨v, hv, hvof⟩ := hnone
    rw [Bool.and_eq_true, beq_iff_eq, beq_iff_eq] at hvof
    obtain ⟨p, hp, hid, htenant⟩ := h v hv
    -- all the votes of the post are of the workspace of one, where the hash is unique
    have hsame : ∀ u ∈ db.votes, u.postId = postId → u.tenantId = v.tenantId := by
      intro u hu hpost
      obtain ⟨q, hq, hqid, hqtenant⟩ := h u hu
      have heq : q = p := Table.eq_of_id hq hp (by
        change q.id = p.id
        rw [hqid, hid, hpost, hvof.1])
      rw [← hqtenant, heq, htenant]
    have hcount : db.votes.rows.countP (fun u => u.postId == postId && u.voterHash == some hash) =
        db.votes.rows.countP (fun u => u.tenantId == v.tenantId && u.postId == postId &&
          u.voterHash == some hash) := by
      refine List.countP_congr fun u hu => ?_
      simp only [Bool.and_eq_true, beq_iff_eq]
      constructor
      · exact fun ⟨hpost, hhash⟩ => ⟨⟨hsame u hu hpost, hpost⟩, hhash⟩
      · exact fun ⟨⟨_, hpost⟩, hhash⟩ => ⟨hpost, hhash⟩
    rw [hcount]
    apply Table.countP_le_one
    intro a b ha hb
    simp only [Bool.and_eq_true, beq_iff_eq] at ha hb
    change (a.tenantId == b.tenantId && a.postId == b.postId && (_ || _ ||
      sameKey a.voterHash b.voterHash)) = true
    simp [sameKey, ha, hb]

/-- What every other request does to votes and posts: votes go, with their posts or with their
workspace; a post keeps its workspace; and the id of a post is not used again. -/
structure OtherVotes (db db' : Db) : Prop where
  votes : ∀ v ∈ db'.votes, v ∈ db.votes ∧ ∀ p ∈ db.posts, p.id = v.postId →
    ∃ q ∈ db'.posts, q.id = p.id ∧ q.tenantId = p.tenantId
  posts : ∀ p ∈ db'.posts, p.id < db.posts.next →
    ∃ q ∈ db.posts, q.id = p.id ∧ q.tenantId = p.tenantId
  next : db.posts.next ≤ db'.posts.next

theorem OtherVotes.refl (db : Db) : OtherVotes db db where
  votes _ hv := ⟨hv, fun p hp _ => ⟨p, hp, rfl, rfl⟩⟩
  posts p hp _ := ⟨p, hp, rfl, rfl⟩
  next := Nat.le_refl _

/-- A post that is inserted takes no vote along. -/
theorem OtherVotes.of_insertPost {n : NewPost} {id : Nat}
    (h : (insertPost n).exec w = (.ok id, w')) : OtherVotes w.db w'.db := by
  obtain ⟨tenantId, posts, -, -, hinsert, -, rfl⟩ := exec_insertPost_ok h
  constructor
  · intro v hv
    exact ⟨hv, fun p hp _ => ⟨p, (Table.mem_insert? hinsert).mpr (.inl hp), rfl, rfl⟩⟩
  · intro p hp hlt
    rcases (Table.mem_insert? hinsert).mp hp with hp | rfl
    · exact ⟨p, hp, rfl, rfl⟩
    · exact absurd hlt (Nat.lt_irrefl _)
  · exact Nat.le_of_lt (by rw [Table.insert?_next hinsert]; exact Nat.lt_succ_self _)

/-- A delete that takes the votes of a post along with it. -/
theorem OtherVotes.of_delete {db db' : Db} {gone c : Post → Bool} {f : Post → Post}
    (hf : Table.Keyless f) (htenant : ∀ p, (f p).tenantId = p.tenantId)
    (hposts : db'.posts = (db.posts.delete gone).update c f hf)
    (hvotes : ∀ v ∈ db'.votes, v ∈ db.votes ∧ ∀ p ∈ db.posts, p.id = v.postId → gone p = false) :
    OtherVotes db db' := by
  have hid : ∀ p, (f p).id = p.id := hf.id_eq
  constructor
  · -- a vote that is left is on a post that is left
    intro v hv
    obtain ⟨hold, hkept⟩ := hvotes v hv
    refine ⟨hold, fun p hp hpid => ⟨if c p then f p else p, ?_, ?_, ?_⟩⟩
    · rw [hposts]
      exact Table.mem_update.mpr ⟨p, Table.mem_delete.mpr ⟨hp, hkept p hp hpid⟩, rfl⟩
    · split
      · exact hid p
      · rfl
    · split
      · exact htenant p
      · rfl
  · intro p hp _
    rw [hposts] at hp
    obtain ⟨q, hq, rfl⟩ := Table.mem_update.mp hp
    refine ⟨q, (Table.mem_delete.mp hq).1, ?_, ?_⟩
    · split
      · exact (hid q).symm
      · rfl
    · split
      · exact (htenant q).symm
      · rfl
  · rw [hposts]
    exact Nat.le_refl _

/-- A vote goes with its post when a workspace or a user is deleted. -/
theorem OtherVotes.of_erase {db db' : Db} {s : Selection} (h : db.erase s = some db') :
    OtherVotes db db' := by
  obtain ⟨-, rfl⟩ := Db.erase_eq_some_iff.mp h
  refine .of_delete Post.keyless_unmarked (fun _ => rfl) rfl fun v hv => ?_
  obtain ⟨hold, hstays⟩ := Table.mem_delete.mp hv
  simp only [Bool.or_eq_false_iff] at hstays
  refine ⟨hold, fun p hp hid => ?_⟩
  by_contra hgone
  have hpost : db.gonePost s v.postId = true :=
    Db.gonePost_iff.mpr ⟨p, hp, hid, Bool.eq_true_of_not_eq_false hgone⟩
  rw [hpost] at hstays
  cases hstays.1.2

/-- And when the post is deleted. -/
theorem OtherVotes.of_prune (db : Db) (s : Pruning) : OtherVotes db (db.prune s) := by
  refine .of_delete Post.keyless_unmarked (fun _ => rfl) rfl fun v hv => ?_
  obtain ⟨hold, hstays⟩ := Table.mem_delete.mp hv
  refine ⟨hold, fun p hp hid => ?_⟩
  by_contra hgone
  have hpost : db.prunedPost s v.postId = true :=
    Db.prunedPost_iff.mpr ⟨p, hp, hid, Bool.eq_true_of_not_eq_false hgone⟩
  rw [hpost] at hstays
  cases hstays

structure VoteRequest where
  tenantId : Nat
  postId : Nat
  guestId : Option String
  hash : Option VoterHash

/-- Any number of clicks, among requests that cast no vote. -/
def voteSystem : System World Failure (Reply VoteResult) VoteRequest
    { f : World → World // ∀ w, OtherVotes w.db (f w).db } where
  handler r := togglePublicVote r.tenantId r.postId r.guestId r.hash
  env f := f.1

/-- Once a call has found the post, it may cast a vote on it. -/
inductive VotePhase where
  | arrived
  | found (tenantId postId : Nat)

/-- What one statement of a call does. -/
inductive VoteStep : VotePhase → World → VotePhase → World → Prop where
  | quiet {w w' : World} (φ : VotePhase) (hposts : w'.db.posts = w.db.posts)
      (hvotes : ∀ v ∈ w'.db.votes, v ∈ w.db.votes) : VoteStep φ w φ w'
  | finds {w : World} {p : Post} (hp : p ∈ w.db.posts) :
      VoteStep .arrived w (.found p.tenantId p.id) w
  | casts {w w' : World} (tenantId postId : Nat) (hposts : w'.db.posts = w.db.posts)
      (hpost : ∃ p ∈ w.db.posts, p.id = postId)
      (hvotes : ∀ v ∈ w'.db.votes, v ∈ w.db.votes ∨ v.tenantId = tenantId ∧ v.postId = postId) :
      VoteStep (.found tenantId postId) w (.found tenantId postId) w'

theorem VoteStep.refl (φ : VotePhase) (w : World) : VoteStep φ w φ w :=
  .quiet φ rfl fun _ hv => hv

/-- What a call knows of the post it has found: no post of the id is another workspace's. -/
def PostKnown (φ : VotePhase) (w : World) : Prop :=
  ∀ tenantId postId, φ = .found tenantId postId → postId < w.db.posts.next ∧
    ∀ p ∈ w.db.posts, p.id = postId → p.tenantId = tenantId

theorem PostKnown.congr {φ : VotePhase} (h : PostKnown φ w) (hposts : w'.db.posts = w.db.posts) :
    PostKnown φ w' := by
  rw [PostKnown, hposts]
  exact h

theorem PostKnown.other {φ : VotePhase} (h : PostKnown φ w) (hother : OtherVotes w.db w'.db) :
    PostKnown φ w' := by
  intro tenantId postId hφ
  obtain ⟨hlt, hknown⟩ := h tenantId postId hφ
  refine ⟨Nat.lt_of_lt_of_le hlt hother.next, ?_⟩
  rintro p hp rfl
  obtain ⟨q, hq, hid, htenant⟩ := hother.posts p hp hlt
  rw [← htenant]
  exact hknown q hq hid

theorem VotesOwned.other {db db' : Db} (h : VotesOwned db) (hother : OtherVotes db db') :
    VotesOwned db' := by
  intro v hv
  obtain ⟨hv, hkept⟩ := hother.votes v hv
  obtain ⟨p, hp, hid, htenant⟩ := h v hv
  obtain ⟨q, hq, hqid, hqtenant⟩ := hkept p hp hid
  exact ⟨q, hq, hqid.trans hid, hqtenant.trans htenant⟩

/-- Every statement of a call keeps the votes on posts of their workspace. -/
theorem VotesOwned.step {φ φ' : VotePhase} (h : VotesOwned w.db) (hknown : PostKnown φ w)
    (hstep : VoteStep φ w φ' w') : VotesOwned w'.db := by
  cases hstep with
  | quiet _ hposts hvotes =>
    intro v hv
    rw [hposts]
    exact h v (hvotes v hv)
  | finds hp => exact h
  | casts tenantId postId hposts hpost hvotes =>
    intro v hv
    rw [hposts]
    rcases hvotes v hv with hold | ⟨htenant, hid⟩
    · exact h v hold
    · obtain ⟨p, hp, hpid⟩ := hpost
      have hown := (hknown tenantId postId rfl).2 p hp hpid
      exact ⟨p, hp, hpid.trans hid.symm, hown.trans htenant.symm⟩

/-- After every statement a call knows the post it has found. -/
theorem PostKnown.step {φ φ' : VotePhase} (h : PostKnown φ w) (hstep : VoteStep φ w φ' w') :
    PostKnown φ' w' := by
  cases hstep with
  | quiet _ hposts _ => exact h.congr hposts
  | @finds _ p hp =>
    rintro _ _ ⟨⟩
    refine ⟨w.db.posts.id_lt p hp, fun q hq hid => ?_⟩
    rw [Table.eq_of_id hq hp hid]
  | casts _ _ hposts _ _ => exact h.congr hposts

theorem VoteStep.posts_eq {φ φ' : VotePhase} (hstep : VoteStep φ w φ' w') :
    w'.db.posts = w.db.posts := by
  cases hstep with
  | quiet _ hposts _ => exact hposts
  | finds _ => rfl
  | casts _ _ hposts _ _ => exact hposts

/-! ### The handler, statement by statement -/

/-- The call may end in any phase. -/
def AnyVoteEnd {α : Type} (_ : VotePhase) (_ : Except Failure α) : Prop := True

theorem follows_selectVotes {α : Type} (f : Db → α) (φ : VotePhase) :
    Follows VoteStep (fun φ' _ => φ' = φ) φ (selectAt .votesSelect f) := by
  refine follows_call (VoteStep.refl φ) rfl fun w a w' hw => ⟨φ, ?_, rfl⟩
  obtain ⟨-, rfl⟩ := Prod.mk.inj (Option.some.inj hw)
  exact .refl φ w

theorem follows_selectPost (tenantId postId : Nat) :
    Follows VoteStep (fun φ r => ∀ p, r = .ok (some p) → φ = .found tenantId postId) .arrived
      (selectAt .postsSelect fun db => visiblePost db tenantId postId) := by
  refine follows_call (VoteStep.refl _) (fun _ h => by cases h) fun w post w' hw => ?_
  obtain ⟨hpost, rfl⟩ := Prod.mk.inj (Option.some.inj hw)
  cases post with
  | none => exact ⟨.arrived, .refl _ w, fun _ h => by cases h⟩
  | some p =>
    obtain ⟨hp, rfl, rfl⟩ := visiblePost_eq_some hpost
    exact ⟨.found p.tenantId p.id, .finds hp, fun _ _ => rfl⟩

theorem follows_castOrTakeBack (tenantId postId : Nat) (guest : String) (hash : Option VoterHash)
    (existing : Option Vote) :
    Follows VoteStep AnyVoteEnd (.found tenantId postId)
      (castOrTakeBack tenantId postId guest hash existing) := by
  cases existing with
  | some v =>
    have hdelete : Follows VoteStep AnyVoteEnd (.found tenantId postId) (deleteVote v.id) := by
      refine follows_call (VoteStep.refl _) trivial fun w _ w' hw =>
        ⟨.found tenantId postId, ?_, trivial⟩
      obtain ⟨-, rfl⟩ := Prod.mk.inj (Option.some.inj hw)
      exact .quiet _ rfl fun u hu => (Table.mem_delete.mp hu).1
    exact hdelete.bind (fun _ _ _ => .ret trivial) fun _ _ _ => trivial
  | none =>
    have hinsert : Follows VoteStep AnyVoteEnd (.found tenantId postId)
        (insertVote tenantId postId guest hash) := by
      refine follows_call (VoteStep.refl _) trivial fun w n w' hw =>
        ⟨.found tenantId postId, ?_, trivial⟩
      split at hw
      · rename_i hrefers
        rw [Bool.and_eq_true] at hrefers
        split at hw
        · rename_i votes hvotes
          obtain ⟨-, rfl⟩ := Prod.mk.inj (Option.some.inj hw)
          refine .casts tenantId postId rfl (Table.byId_isSome_iff.mp hrefers.2) fun v hv => ?_
          rcases (Table.mem_insert? hvotes).mp hv with hv | rfl
          · exact .inl hv
          · exact .inr ⟨rfl, rfl⟩
        · obtain ⟨-, rfl⟩ := Prod.mk.inj (Option.some.inj hw)
          exact .refl _ w
      · obtain ⟨-, rfl⟩ := Prod.mk.inj (Option.some.inj hw)
        exact .refl _ w
    exact hinsert.bind (fun _ _ _ => .ret trivial) fun _ _ _ => trivial

theorem follows_togglePublicVote (r : VoteRequest) :
    Follows VoteStep AnyVoteEnd .arrived (voteSystem.handler r) := by
  obtain ⟨tenantId, postId, guestId, hash⟩ := r
  change Follows VoteStep AnyVoteEnd .arrived (togglePublicVote tenantId postId guestId hash)
  have hrethrow : ∀ (φ : VotePhase) (e : Failure), Follows VoteStep AnyVoteEnd φ
      (failWith "failed_to_update_vote" e : Handler (Reply VoteResult)) := by
    intro φ e
    cases e <;> exact .fail trivial
  rw [togglePublicVote]
  by_cases hguest : ¬ ValidGuest guestId
  · rw [if_pos hguest]
    exact .fail trivial
  rw [if_neg hguest]
  refine .catching (?_ : Follows VoteStep AnyVoteEnd .arrived _) (fun _ _ _ => trivial)
    fun φ e _ => hrethrow φ e
  refine (follows_selectPost tenantId postId).bind (fun φ post hφ => ?_) fun _ _ _ => trivial
  cases post with
  | none => exact .fail trivial
  | some p =>
    obtain rfl : φ = .found tenantId postId := hφ p rfl
    refine (follows_selectVotes _ _).bind (fun φ existing hφ => ?_) fun _ _ _ => trivial
    obtain rfl : φ = .found tenantId postId := hφ
    refine (follows_castOrTakeBack _ _ _ hash existing).bind (fun φ voted _ => ?_)
      fun _ _ _ => trivial
    exact (follows_selectVotes _ φ).bind (fun _ _ _ => .ret trivial) fun _ _ _ => trivial

/-! ### Runs -/

/-- In every run every vote is on a post of its workspace. -/
theorem votesOwned_of_run {w₀ : World} {P : Pool World Failure (Reply VoteResult) VoteRequest}
    (hinit : VotesOwned w₀.db) (hrun : voteSystem.Run (fun _ _ => True) ⟨w₀, []⟩ P) :
    VotesOwned P.state.db := by
  have hinv : ∃ phases, Tracks VoteStep AnyVoteEnd P phases ∧
      Tracks.Begun voteSystem (fun _ _ => .arrived) P phases ∧
        Tracks.Knows (fun w => VotesOwned w.db) (fun _ => PostKnown) P phases := by
    refine Tracks.inv_of_run (fun r _ => follows_togglePublicVote r) ⟨hinit, fun i c φ hc => ?_⟩
      ?_ ?_ ?_ hrun
    · cases hc
    · intro R phases r htracks _ h
      exact h.arrive htracks.length_eq nofun
    · intro R phases e _ h
      have hother := e.2 R.state
      exact ⟨h.state.other hother, fun i c φ hc hφ => (h.call i c φ hc hφ).other hother⟩
    · intro R R' phases i c φ φ' prog _ _ _ _ hc _ hφ hstep hcalls h
      have hknown := h.call i c φ hc hφ
      exact h.set hcalls (h.state.step hknown hstep) (hknown.step hstep)
        fun j d ψ _ _ _ hψ => hψ.congr hstep.posts_eq
  obtain ⟨_, -, -, hknows⟩ := hinv
  exact hknows.state

/-- In every reachable state no address has voted twice for a post, and two clicks of a visitor,
with no other vote in between, undo each other if and only if the guest id has been used from no
other address. -/
theorem togglePublicVote_undoes_iff {w₀ : World}
    {P : Pool World Failure (Reply VoteResult) VoteRequest} (hinit : VotesOwned w₀.db)
    (hrun : voteSystem.Run (fun _ _ => True) ⟨w₀, []⟩ P) :
    OneVotePerHash P.state.db ∧
      ∀ tenantId postId guestId hash, ValidGuest guestId → Votable P.state tenantId postId →
        ∃ first w₁, (togglePublicVote tenantId postId guestId hash).exec P.state =
            (.ok ⟨200, "vote_updated_successfully", first⟩, w₁) ∧
          ∀ w₂, w₂.db.votes = w₁.db.votes → Votable w₂ tenantId postId →
            ∃ second w₃, (togglePublicVote tenantId postId guestId hash).exec w₂ =
                (.ok ⟨200, "vote_updated_successfully", second⟩, w₃) ∧
              (TakesBack (P.state.db.votesOn postId) (w₃.db.votesOn postId) first second ↔
                GuestIsOwn tenantId postId (guestText guestId) hash P.state.db.votes) := by
  refine ⟨(votesOwned_of_run hinit hrun).oneVotePerHash, ?_⟩
  intro tenantId postId guestId hash hguest hvotable
  refine ⟨_, _, togglePublicVote_exec hguest hvotable, ?_⟩
  intro w₂ hsame hvotable'
  refine ⟨_, _, togglePublicVote_exec hguest hvotable', ?_⟩
  rw [hsame]
  exact takesBack_iff tenantId postId (guestText guestId) hash rfl

/-! ### A browser that moves -/

/-- The hash of an address, for the sake of an example. -/
def hashOf (c : Char) (h : c.isDigit = true) : VoterHash where
  text := String.ofList (List.replicate 64 c)
  length_eq := by simp
  hex d hd := by
    rw [String.toList_ofList] at hd
    rw [List.eq_of_mem_replicate hd]
    exact .inl h

def atHome : VoterHash := hashOf '1' rfl

def atWork : VoterHash := hashOf '2' rfl

def quietTenant : Tenant where
  id := 5
  name := "Acme"
  slug := "acme"
  subdomain := "acme"

def quietPost : Post where
  id := 1
  tenantId := 5
  title := "Dark mode"
  description := ""
  createdAt := 10

/-- A workspace with one post. -/
def quietBoard : World where
  db := { tenants := .single quietTenant, posts := .single quietPost }

theorem votable_quietBoard : Votable quietBoard 5 1 where
  tenant := by decide
  visible := by decide
  works := by decide

theorem togglePublicVote_undoes_iff_quiet :
    ∃ first w₁, (togglePublicVote 5 1 (some "g") (some atHome)).exec quietBoard =
        (.ok ⟨200, "vote_updated_successfully", first⟩, w₁) ∧
      ∀ w₂, w₂.db.votes = w₁.db.votes → Votable w₂ 5 1 →
        ∃ second w₃, (togglePublicVote 5 1 (some "g") (some atHome)).exec w₂ =
            (.ok ⟨200, "vote_updated_successfully", second⟩, w₃) ∧
          TakesBack 0 (w₃.db.votesOn 1) first second := by
  have howned : VotesOwned quietBoard.db := fun v hv => absurd hv Table.not_mem_empty
  have hown : GuestIsOwn 5 1 (guestText (some "g")) (some atHome) quietBoard.db.votes :=
    fun _ _ v hv => absurd hv Table.not_mem_empty
  obtain ⟨-, hboth⟩ := togglePublicVote_undoes_iff (P := ⟨quietBoard, []⟩) howned .refl
  obtain ⟨first, w₁, hfirst, hagain⟩ :=
    hboth 5 1 (some "g") (some atHome) (by decide) votable_quietBoard
  refine ⟨first, w₁, hfirst, fun w₂ hsame hvotable => ?_⟩
  obtain ⟨second, w₃, hsecond, hiff⟩ := hagain w₂ hsame hvotable
  exact ⟨second, w₃, hsecond, hiff.mpr hown⟩

def clickAtHome : VoteRequest := ⟨5, 1, some "g", some atHome⟩

/-- A browser that has voted at home clicks twice at work: neither click casts a vote, and the
post keeps its one. -/
theorem moved_browser_cannot_vote : ∃ P : Pool World Failure (Reply VoteResult) VoteRequest,
    voteSystem.Run (fun _ _ => True) ⟨quietBoard, []⟩ P ∧
      (togglePublicVote 5 1 (some "g") (some atWork)).exec P.state =
        (.ok ⟨200, "vote_updated_successfully", ⟨false, 1⟩⟩, P.state) := by
  have hrun : (voteSystem.schedule ⟨quietBoard, []⟩
      [.arrive clickAtHome, .run 0, .run 0, .run 0, .run 0]).isSome := by decide +kernel
  obtain ⟨P, hP⟩ := Option.isSome_iff_exists.mp hrun
  refine ⟨P, System.run_of_schedule hP, ?_⟩
  cases hP
  rfl

end Feedbase
