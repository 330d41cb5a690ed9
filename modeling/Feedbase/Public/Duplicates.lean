import Feedbase.Common.CompareText
import Feedbase.Public.Submissions

/-!
# Texts that are sent again

What a guest sends is compared with what guests have sent in the last day. The new text is brought
into its normal form, and the stored one only into small letters; so a stored text is found again
as long as the beginning of its normal form stands in it as it is.

## Main definitions

* `Post.CountedAgain`, `Comment.CountedAgain` — whoever sends the same text again is found out
* `FoundInLowerCase` — the normal form stands in the text

## Main results

* `countedAgain_iff` — one is the other
* `comma_hides_duplicate` — a comma is enough
-/

namespace Feedbase

open Text (CaseMap)

section

variable (cases lower : CaseMap)

/-! ### What the queries count -/

theorem exec_countOrZero {site : Site} {w : World} (hok : w.fails site = false) (f : World → Nat) :
    (countOrZero site f).exec w = (.ok (f w), w) := by
  rw [countOrZero, Prog.exec_tryCatch, exec_call, hok]
  rfl

theorem exec_postDuplicates {w : World} (hok : w.fails .postsSelect = false) (tenantId : Nat)
    {title description : Text} (hne : normalizeForCompare cases (title ++ 32 :: description) ≠ []) :
    (postDuplicates cases lower tenantId title description).exec w =
      (.ok (w.db.posts.rows.countP (Post.isDuplicate lower w.now tenantId
        (dupeNeedle (normalizeForCompare cases (title ++ 32 :: description))))), w) := by
  unfold postDuplicates
  rw [if_neg hne, exec_countOrZero hok]

theorem exec_commentDuplicates {w : World} (hok : w.fails .commentsSelect = false) (tenantId : Nat)
    {body : Text} (hne : normalizeForCompare cases body ≠ []) :
    (commentDuplicates cases lower tenantId body).exec w =
      (.ok (w.db.comments.rows.countP (Comment.isDuplicate lower w.now tenantId
        (dupeNeedle (normalizeForCompare cases body)))), w) := by
  unfold commentDuplicates
  rw [if_neg hne, exec_countOrZero hok]

/-- The normal form of the text stands in its small letters, or there is none. -/
def FoundInLowerCase (text : Text) : Prop :=
  normalizeForCompare cases text = [] ∨
    includes (lower.lower text) (dupeNeedle (normalizeForCompare cases text)) = true

/-- While the post is recent, a guest's post with the same normal form is found to be a
duplicate. -/
def Post.CountedAgain (p : Post) : Prop :=
  ∀ (data : PublicPostData) (w : World),
    let title := Text.trim (data.title.getD [])
    let description := Text.trim (data.description.getD [])
    publicPostProblem title true (guestField 255 data.submitterEmail) = none →
    p ∈ w.db.posts → isRecent w.now p.createdAt = true → w.fails .postsSelect = false →
    normalizeForCompare cases (title ++ 32 :: description) ≠ [] →
    normalizeForCompare cases (title ++ 32 :: description) = normalizeForCompare cases p.content →
    ∃ n, 1 ≤ n ∧
      (postDuplicates cases lower p.tenantId title description).exec w = (.ok n, w)

/-- The same for a comment. -/
def Comment.CountedAgain (c : Comment) : Prop :=
  ∀ (data : PublicCommentData) (w : World),
    let body := Text.trim (data.body.getD [])
    publicCommentProblem body (guestField 255 data.submitterEmail) = none →
    c ∈ w.db.comments → isRecent w.now c.createdAt = true → w.fails .commentsSelect = false →
    normalizeForCompare cases body ≠ [] →
    normalizeForCompare cases body = normalizeForCompare cases (Text.ofString c.body) →
    ∃ n, 1 ≤ n ∧ (commentDuplicates cases lower c.tenantId body).exec w = (.ok n, w)

variable {cases lower}

/-! ### Posts -/

theorem Post.isDuplicate_iff {now : Time} {needle : Text} {p : Post} (hguest : p.authorId = none)
    (hrecent : isRecent now p.createdAt = true) :
    p.isDuplicate lower now p.tenantId needle = includes (lower.lower p.content) needle := by
  rw [Post.isDuplicate, hguest, hrecent, beq_self_eq_true]
  rfl

theorem Post.countedAgain_of_found {p : Post} (hguest : p.authorId = none)
    (hfound : FoundInLowerCase cases lower p.content) : p.CountedAgain cases lower := by
  intro data w title description _ hp hrecent hok hne heq
  refine ⟨_, ?_, exec_postDuplicates cases lower hok p.tenantId hne⟩
  apply List.countP_pos_iff.mpr
  refine ⟨p, hp, ?_⟩
  rw [Post.isDuplicate_iff hguest hrecent, heq]
  exact hfound.resolve_left (heq ▸ hne)

/-- A dash for a title, and the normal form for a description. -/
def dashed (normal : Text) : PublicPostData where
  title := some [45]
  description := some normal
  submitterEmail := some "a@b.co"

theorem Post.found_of_countedAgain {p : Post} (hguest : p.authorId = none)
    (hcounted : p.CountedAgain cases lower) : FoundInLowerCase cases lower p.content := by
  by_cases hne : normalizeForCompare cases p.content = []
  · exact .inl hne
  right
  have hnormal := normalized_normalizeForCompare cases p.content
  have haccepted : publicPostProblem [45] true (guestField 255 (some "a@b.co")) = none := by
    decide +kernel
  have hagain := hcounted (dashed (normalizeForCompare cases p.content))
    { db := { posts := .single p }, now := p.createdAt } haccepted
  have htrim : Text.trim ((dashed (normalizeForCompare cases p.content)).description.getD []) =
      normalizeForCompare cases p.content := hnormal.trim
  have htitle : Text.trim ((dashed (normalizeForCompare cases p.content)).title.getD []) = [45] :=
    rfl
  have hrecent : isRecent p.createdAt p.createdAt = true := by simp [isRecent]
  rw [htrim, htitle, normalizeForCompare_dash cases hnormal hne] at hagain
  obtain ⟨n, hn, hexec⟩ := hagain List.mem_cons_self hrecent rfl hne rfl
  rw [exec_postDuplicates cases lower rfl p.tenantId (by
    rwa [normalizeForCompare_dash cases hnormal hne])] at hexec
  rw [normalizeForCompare_dash cases hnormal hne] at hexec
  have hcount := Except.ok.inj (Prod.mk.inj hexec).1
  obtain ⟨q, hq, hdup⟩ := List.countP_pos_iff.mp (hcount ▸ hn)
  rw [List.mem_singleton.mp hq, Post.isDuplicate_iff hguest hrecent] at hdup
  exact hdup

/-! ### Comments -/

theorem Comment.isDuplicate_iff {now : Time} {needle : Text} {c : Comment}
    (hguest : c.authorId = none) (hrecent : isRecent now c.createdAt = true) :
    c.isDuplicate lower now c.tenantId needle =
      includes (lower.lower (Text.ofString c.body)) needle := by
  rw [Comment.isDuplicate, hguest, hrecent, beq_self_eq_true]
  rfl

theorem Comment.countedAgain_of_found {c : Comment} (hguest : c.authorId = none)
    (hfound : FoundInLowerCase cases lower (Text.ofString c.body)) :
    c.CountedAgain cases lower := by
  intro data w body _ hc hrecent hok hne heq
  refine ⟨_, ?_, exec_commentDuplicates cases lower hok c.tenantId hne⟩
  apply List.countP_pos_iff.mpr
  refine ⟨c, hc, ?_⟩
  rw [Comment.isDuplicate_iff hguest hrecent, heq]
  exact hfound.resolve_left (heq ▸ hne)

theorem Comment.found_of_countedAgain {c : Comment} (hguest : c.authorId = none)
    (hcounted : c.CountedAgain cases lower) :
    FoundInLowerCase cases lower (Text.ofString c.body) := by
  by_cases hne : normalizeForCompare cases (Text.ofString c.body) = []
  · exact .inl hne
  right
  have hnormal := normalized_normalizeForCompare cases (Text.ofString c.body)
  have hself := normalizeForCompare_of_normalized cases hnormal
  have hagain := hcounted { body := some (normalizeForCompare cases (Text.ofString c.body)) }
    { db := { comments := .single c }, now := c.createdAt }
  have hrecent : isRecent c.createdAt c.createdAt = true := by simp [isRecent]
  have haccepted : publicCommentProblem (normalizeForCompare cases (Text.ofString c.body))
      (guestField 255 none) = none := by
    rw [publicCommentProblem, if_neg hne]
    rfl
  dsimp only [Option.getD_some] at hagain
  rw [hnormal.trim, hself] at hagain
  obtain ⟨n, hn, hexec⟩ := hagain haccepted List.mem_cons_self hrecent rfl hne rfl
  rw [exec_commentDuplicates cases lower rfl c.tenantId (by rwa [hself]), hself] at hexec
  have hcount := Except.ok.inj (Prod.mk.inj hexec).1
  obtain ⟨d, hd, hdup⟩ := List.countP_pos_iff.mp (hcount ▸ hn)
  rw [List.mem_singleton.mp hd, Comment.isDuplicate_iff hguest hrecent] at hdup
  exact hdup

end

/-- A guest's post and a guest's comment are found again exactly if their normal form stands in
their small letters. -/
theorem countedAgain_iff (cases lower : CaseMap) {p : Post} {c : Comment}
    (hp : p.authorId = none) (hc : c.authorId = none) :
    (p.CountedAgain cases lower ↔ FoundInLowerCase cases lower p.content) ∧
      (c.CountedAgain cases lower ↔ FoundInLowerCase cases lower (Text.ofString c.body)) :=
  ⟨⟨Post.found_of_countedAgain hp, Post.countedAgain_of_found hp⟩,
    ⟨Comment.found_of_countedAgain hc, Comment.countedAgain_of_found hc⟩⟩

/-- A post that a guest has written. -/
def greeting (title : String) : Post where
  id := 1
  tenantId := 1
  title := title
  description := ""
  createdAt := 0

def remark (body : String) : Comment where
  id := 1
  tenantId := 1
  postId := 1
  body := body
  createdAt := 0

theorem countedAgain_plain :
    (greeting "Hello World").CountedAgain .ascii .ascii ∧
      (remark "Me Too").CountedAgain .ascii .ascii := by
  have hiff := countedAgain_iff .ascii .ascii (p := greeting "Hello World")
    (c := remark "Me Too") rfl rfl
  have hpost : includes (CaseMap.ascii.lower (greeting "Hello World").content)
      (dupeNeedle (normalizeForCompare .ascii (greeting "Hello World").content)) = true := by
    decide +kernel
  have hcomment : includes (CaseMap.ascii.lower (Text.ofString (remark "Me Too").body))
      (dupeNeedle (normalizeForCompare .ascii (Text.ofString (remark "Me Too").body))) = true := by
    decide +kernel
  exact ⟨hiff.1.mpr (.inr hpost), hiff.2.mpr (.inr hcomment)⟩

/-- The text that was sent. -/
def greetingData (title : String) : PublicPostData where
  title := some (Text.ofString title)
  submitterEmail := some "a@b.co"

def greeted : World where
  db := { posts := .single (greeting "Hello, world"), comments := .single (remark "Me, too") }

/-- With a comma in it, the very same text is not found. -/
theorem comma_hides_duplicate :
    ¬ (greeting "Hello, world").CountedAgain .ascii .ascii ∧
      ¬ (remark "Me, too").CountedAgain .ascii .ascii := by
  constructor
  · intro h
    have hagain := h (greetingData "Hello, world") greeted (by decide +kernel)
      List.mem_cons_self (by decide) rfl (by decide +kernel) (by decide +kernel)
    obtain ⟨n, hn, hexec⟩ := hagain
    rw [exec_postDuplicates .ascii .ascii rfl _ (by decide +kernel)] at hexec
    have hcount := Except.ok.inj (Prod.mk.inj hexec).1
    rw [← hcount] at hn
    revert hn
    decide +kernel
  · intro h
    have hagain := h { body := some (Text.ofString "Me, too") } greeted (by decide +kernel)
      List.mem_cons_self (by decide) rfl (by decide +kernel) (by decide +kernel)
    obtain ⟨n, hn, hexec⟩ := hagain
    rw [exec_commentDuplicates .ascii .ascii rfl _ (by decide +kernel)] at hexec
    have hcount := Except.ok.inj (Prod.mk.inj hexec).1
    rw [← hcount] at hn
    revert hn
    decide +kernel

end Feedbase
