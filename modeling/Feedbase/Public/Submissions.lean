import Feedbase.Common.PlanGuard
import Feedbase.Post.Attachments
import Feedbase.Public.WriteGuard

/-!
# Posts and comments from the public board

A visitor posts and comments with an account or as a guest. What a guest sends is compared with
what other guests have sent in the last day, and judged.

## Main definitions

* `postDuplicates`, `commentDuplicates` — how often a text was sent before
* `rootComment` — the top of a thread
* `createPublicPost`, `createPublicComment`

## Main results

* `reads_postDuplicates`, `reads_commentDuplicates` — the comparison only reads
-/

namespace Feedbase

/-! ### What was sent before -/

/-- `LIKE '%…%'`, for a text without wildcards. -/
def includes (haystack needle : Text) : Bool := needle <:+: haystack

/-- `created_at > (NOW() - INTERVAL 24 HOUR)`. -/
def isRecent (now createdAt : Time) : Bool := now < createdAt + 86400

/-- `normalized.slice(0, 80)`. -/
def dupeNeedle (normalized : Text) : Text := normalized.take 80

/-- `CONCAT(title, ' ', description)`. -/
def Post.content (p : Post) : Text := Text.ofString (p.title ++ " " ++ p.description)

/-- The rows the duplicate query of `createPublicPost` counts. -/
def Post.isDuplicate (lower : Text.CaseMap) (now : Time) (tenantId : Nat) (needle : Text)
    (p : Post) : Bool :=
  p.tenantId == tenantId && p.authorId.isNone && isRecent now p.createdAt &&
    includes (lower.lower p.content) needle

/-- The rows the duplicate query of `createPublicComment` counts. -/
def Comment.isDuplicate (lower : Text.CaseMap) (now : Time) (tenantId : Nat) (needle : Text)
    (c : Comment) : Bool :=
  c.tenantId == tenantId && c.authorId.isNone && isRecent now c.createdAt &&
    includes (lower.lower (Text.ofString c.body)) needle

/-- A query whose failure counts for nothing. -/
def countOrZero (site : Site) (f : World → Nat) : Handler Nat :=
  tryCatch (call site fun w => some (f w, w)) fun _ => return 0

/-- The `duplicateCount` of a guest's post. -/
def postDuplicates (cases lower : Text.CaseMap) (tenantId : Nat) (title description : Text) :
    Handler Nat :=
  let normalized := normalizeForCompare cases (title ++ 32 :: description)
  if normalized = [] then return 0
  else
    countOrZero .postsSelect fun w =>
      w.db.posts.rows.countP (Post.isDuplicate lower w.now tenantId (dupeNeedle normalized))

/-- The `duplicateCount` of a guest's comment. -/
def commentDuplicates (cases lower : Text.CaseMap) (tenantId : Nat) (body : Text) : Handler Nat :=
  let normalized := normalizeForCompare cases body
  if normalized = [] then return 0
  else
    countOrZero .commentsSelect fun w =>
      w.db.comments.rows.countP (Comment.isDuplicate lower w.now tenantId (dupeNeedle normalized))

/-- Only guests are compared. -/
def ofGuests (authUser : Option AuthData) (count : Handler Nat) : Handler Nat :=
  if authUser.isSome then return 0 else count

/-! ### Posts -/

/-- `JSON.stringify(reasons)`, or `null` for none. -/
def reasonsText (reasons : List SpamReason) : Option String :=
  if reasons = [] then none
  else some ("[" ++ ",".intercalate (reasons.map fun r => "\"" ++ r.code ++ "\"") ++ "]")

/-- `(raw || "").trim().slice(0, n) || null`. -/
def guestField (n : Nat) (raw : Option String) : Option String :=
  orNull (some (sliceUnits n (trim (raw.getD ""))))

/-- `POST_TYPES`, and `"feedback"` for anything else. -/
def postTypeOf (text : Option String) : PostType :=
  match text with
  | some "feature_request" => .featureRequest
  | some "bug_report" => .bugReport
  | _ => .feedback

structure PublicPostData where
  title : Option Text := none
  description : Option Text := none
  postType : Option String := none
  submitterName : Option String := none
  submitterEmail : Option String := none
  guestId : Option String := none
  attachmentIds : AttachmentIds := none
  website : Option Text := none
  formToken : Option Text := none

/-- The message for a post that is refused; a guest must leave an address. -/
def publicPostProblem (title : Text) (isGuest : Bool) (email : Option String) : Option String :=
  if title = [] then some "title_required"
  else if title.length > 200 then some "title_too_long"
  else if isGuest && email.isNone then some "email_required"
  else if email.any fun e => !isEmail e then some "invalid_email"
  else none

/-- A field that only a guest has. -/
def forGuest {α : Type} (authUser : Option AuthData) (field : Option α) : Option α :=
  if authUser.isSome then none else field

/-- The row of a post that the guard has let through. -/
def PublicPostData.row (data : PublicPostData) (tenantId : Nat) (authUser : Option AuthData)
    (guard : GuardVerdict) : NewPost where
  tenantId := some tenantId
  authorId := authUser.map (·.id)
  submitterName := forGuest authUser (guestField 120 data.submitterName)
  submitterEmail := forGuest authUser (guestField 255 data.submitterEmail)
  guestId := forGuest authUser (guestField 64 data.guestId)
  voterHash := guard.voterHash
  title := Text.toString (Text.trim (data.title.getD []))
  description := Text.toString (Text.trim (data.description.getD []))
  postType := postTypeOf data.postType
  moderationState := guard.moderationState
  spamScore := guard.score
  spamReasons := reasonsText guard.reasons

/-- The insert, and the attachments that were uploaded for it. -/
def storePublicPost (n : NewPost) (attachmentIds : AttachmentIds) :
    Handler (Reply (Option Nat)) :=
  tryCatch (do
    let id ← insertPost n
    let _ ← attachToPost attachmentIds id n.tenantId
    resolve 201 "post_created_successfully" (some id)) (failWith "failed_to_create_post")

/-- `requireAuth` is the preference stored with the workspace; the plan has to allow it. -/
def refusesGuests (tenantId : Nat) (requireAuth : Bool) (authUser : Option AuthData) :
    Handler Bool :=
  if authUser.isNone && requireAuth then planAllows tenantId .restrictAnonymousPosting
  else return false

/-- `lower` is `LOWER` of the database. -/
def createPublicPost (env : PublicWriteEnv) (lower : Text.CaseMap) (tenantId : Nat)
    (requireAuth : Bool) (data : PublicPostData) (authUser : Option AuthData) :
    Handler (Reply (Option Nat)) := do
  let title := Text.trim (data.title.getD [])
  let description := Text.trim (data.description.getD [])
  let email := forGuest authUser (guestField 255 data.submitterEmail)
  let restricted ← refusesGuests tenantId requireAuth authUser
  if restricted then reject 401 "signin_required_to_post"
  else
    match publicPostProblem title authUser.isNone email with
    | some key => reject 400 key
    | none => do
      let duplicateCount ← ofGuests authUser
        (postDuplicates env.text.cases lower tenantId title description)
      let guard ← Prog.ofExcept ((evaluatePublicWrite env
        { title := title, body := description, email := email
          duplicateCount := duplicateCount, isAuthenticated := authUser.isSome
          honeypot := data.website, formToken := data.formToken }).mapError fun _ => .error)
      -- a filled honeypot gets the answer of a success
      if guard.discard then resolve 201 "post_created_successfully" none
      else if guard.rateLimited then reject 429 "too_many_requests"
      else storePublicPost (data.row tenantId authUser guard) data.attachmentIds

/-! ### Comments -/

/-- A comment of the workspace. -/
def Db.commentAt (db : Db) (tenantId id : Nat) : Option Comment :=
  db.comments.rows.find? fun c => c.id == id && c.tenantId == tenantId

/-- The loop that climbs to the top of a thread. It stops at a comment without a parent, at one
it has seen, and where a parent is missing. -/
def climb (db : Db) (tenantId : Nat) : Nat → List Nat → Comment → Comment
  | 0, _, current => current
  | n + 1, seen, current =>
    match current.parentCommentId.filter (· ≠ 0) with
    | none => current
    | some id =>
      if seen.contains current.id then current
      else
        match db.commentAt tenantId id with
        | none => current
        | some up => climb db tenantId n (current.id :: seen) up

/-- The climb, with a round for every comment and one more. -/
def rootComment (db : Db) (tenantId : Nat) (parent : Comment) : Comment :=
  climb db tenantId (db.comments.rows.length + 1) [] parent

/-- `SELECT id, parent_comment_id FROM comments WHERE id = ? AND post_id = ? AND tenant_id = ?`. -/
def Db.parentOn (db : Db) (tenantId postId id : Nat) : Option Comment :=
  db.comments.rows.find? fun c => c.id == id && c.postId == postId && c.tenantId == tenantId

/-- How the owner of a board is shown: 2 without a name, 1 with it and a badge, 0 as anybody. -/
def ownerDisplay (limits : Limits) (mode : Option String) : Nat :=
  if mode = some "hidden" ∧ limits.ownerPrivacy = true then 2
  else if limits.ownerBadge = true then 1 else 0

def resolveOwner (mode : Option String) (authUser : Option AuthData) (tenantId : Nat) :
    Handler Nat :=
  let isBoardOwner := authUser.any fun u => u.role == .owner && u.tenantId == some tenantId
  if !isBoardOwner || (mode ≠ some "named" && mode ≠ some "hidden") then return 0
  else do
    let plan ← getTenantPlan tenantId
    return ownerDisplay (getPlanLimits plan) mode

structure PublicCommentData where
  body : Option Text := none
  parentCommentId : Option Nat := none
  ownerMode : Option String := none
  submitterName : Option String := none
  submitterEmail : Option String := none
  guestId : Option String := none
  website : Option Text := none
  formToken : Option Text := none

def publicCommentProblem (body : Text) (email : Option String) : Option String :=
  if body = [] then some "comment_body_required"
  else if email.any fun e => !isEmail e then some "invalid_email"
  else none

def PublicCommentData.row (data : PublicCommentData) (tenantId postId : Nat)
    (authUser : Option AuthData) (asOwner : Nat) (rootParentId : Option Nat)
    (guard : GuardVerdict) : NewComment where
  tenantId := some tenantId
  postId := postId
  authorId := authUser.map (·.id)
  submitterName := forGuest authUser (guestField 120 data.submitterName)
  submitterEmail := forGuest authUser (guestField 255 data.submitterEmail)
  guestId := forGuest authUser (guestField 64 data.guestId)
  voterHash := guard.voterHash
  asOwner := asOwner
  parentCommentId := rootParentId
  body := Text.toString (Text.trim (data.body.getD []))
  moderationState := guard.moderationState
  spamScore := guard.score
  spamReasons := reasonsText guard.reasons

/-- The comment that a reply is attached to; `error` when the parent is not on this post. -/
def rootParent (db : Db) (tenantId postId : Nat) (parentCommentId : Option Nat) :
    Except Failure (Option Nat) :=
  match parentCommentId.filter (· ≠ 0) with
  | none => .ok none
  | some id =>
    match db.parentOn tenantId postId id with
    | none => .error (.rejected 400 "comment_not_found")
    | some parent => .ok (some (rootComment db tenantId parent).id)

/-- The post that a visitor may comment on. -/
def visiblePost (db : Db) (tenantId postId : Nat) : Option Post :=
  (db.posts.rows.find? fun p => p.id == postId && p.tenantId == tenantId).filter
    (·.moderationState ≠ .spam)

/-- From the duplicate check on. -/
def judgeAndStore (env : PublicWriteEnv) (lower : Text.CaseMap) (tenantId postId : Nat)
    (data : PublicCommentData) (authUser : Option AuthData) (asOwner : Nat)
    (rootParentId : Option Nat) : Handler (Reply (Option Nat)) := do
  let body := Text.trim (data.body.getD [])
  let duplicateCount ← ofGuests authUser (commentDuplicates env.text.cases lower tenantId body)
  let guard ← Prog.ofExcept ((evaluatePublicWrite env
    { body := body, email := forGuest authUser (guestField 255 data.submitterEmail)
      duplicateCount := duplicateCount, isAuthenticated := authUser.isSome
      honeypot := data.website, formToken := data.formToken }).mapError fun _ => .error)
  if guard.discard then resolve 201 "comment_created_successfully" none
  else if guard.rateLimited then reject 429 "too_many_requests"
  else do
    let id ← insertComment (data.row tenantId postId authUser asOwner rootParentId guard)
    resolve 201 "comment_created_successfully" (some id)

def createPublicComment (env : PublicWriteEnv) (lower : Text.CaseMap) (tenantId postId : Nat)
    (data : PublicCommentData) (authUser : Option AuthData) : Handler (Reply (Option Nat)) :=
  match publicCommentProblem (Text.trim (data.body.getD []))
      (forGuest authUser (guestField 255 data.submitterEmail)) with
  | some key => reject 400 key
  | none =>
    tryCatch (do
      let post ← selectAt .postsSelect fun db => visiblePost db tenantId postId
      if post.isNone then reject 404 "post_not_found"
      else do
        -- a reply to a reply hangs on the top of its thread
        let rootParentId ← selectAt .commentsSelect fun db =>
          rootParent db tenantId postId data.parentCommentId
        let rootParentId ← Prog.ofExcept rootParentId
        let asOwner ← resolveOwner data.ownerMode authUser tenantId
        judgeAndStore env lower tenantId postId data authUser asOwner rootParentId)
          (failWith "failed_to_create_comment")

/-! ### Reading and judging -/

theorem reads_countOrZero (site : Site) (f : World → Nat) : Prog.Reads (countOrZero site f) := by
  have hcall : Prog.Reads (call site fun w => some (f w, w)) := by
    refine within_call (R := fun s t => t = s) (fun _ => rfl) fun w a w' hw => ?_
    exact (Prod.mk.inj (Option.some.inj hw)).2.symm
  exact .tryCatch hcall fun _ => .pure _

theorem reads_postDuplicates (cases lower : Text.CaseMap) (tenantId : Nat)
    (title description : Text) :
    Prog.Reads (postDuplicates cases lower tenantId title description) := by
  unfold postDuplicates
  exact .ite (.pure _) (reads_countOrZero _ _)

theorem reads_commentDuplicates (cases lower : Text.CaseMap) (tenantId : Nat) (body : Text) :
    Prog.Reads (commentDuplicates cases lower tenantId body) := by
  unfold commentDuplicates
  exact .ite (.pure _) (reads_countOrZero _ _)

theorem reads_refusesGuests (tenantId : Nat) (requireAuth : Bool) (authUser : Option AuthData) :
    Prog.Reads (refusesGuests tenantId requireAuth authUser) := by
  unfold refusesGuests
  exact .ite (reads_query _) (.pure _)

theorem reads_ofGuests {count : Handler Nat} (h : Prog.Reads count)
    (authUser : Option AuthData) : Prog.Reads (ofGuests authUser count) := .ite (.pure _) h

/-! ### The parent -/

theorem commentAt_eq_some {db : Db} {tenantId id : Nat} {c : Comment}
    (h : db.commentAt tenantId id = some c) :
    c ∈ db.comments ∧ c.id = id ∧ c.tenantId = tenantId := by
  have hat := List.find?_some h
  rw [Bool.and_eq_true, beq_iff_eq, beq_iff_eq] at hat
  exact ⟨List.mem_of_find?_eq_some h, hat.1, hat.2⟩

end Feedbase
