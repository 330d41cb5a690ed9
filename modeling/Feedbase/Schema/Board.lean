import Feedbase.Schema.Accounts

/-!
# Feedback board tables

Row types of the tables that hold a workspace's feedback: posts, votes, comments,
tags, the roadmap, attachments, and the rows that name a user as their author.
-/

namespace Feedbase

inductive PostType where
  | feedback
  | featureRequest
  | bugReport
  deriving DecidableEq, Repr

inductive PostStatus where
  | open
  | planned
  | inProgress
  | completed
  | closed
  | rejected
  deriving DecidableEq, Repr

inductive ModerationState where
  | published
  | pending
  | spam
  deriving DecidableEq, Repr

structure Post where
  id : Nat
  tenantId : Nat
  authorId : Option Nat := none
  submitterName : Option String := none
  submitterEmail : Option String := none
  guestId : Option String := none
  voterHash : Option String := none
  title : String
  description : String
  postType : PostType := .feedback
  status : PostStatus := .open
  moderationState : ModerationState := .published
  spamScore : Nat := 0
  spamReasons : Option String := none
  spamReviewedAt : Option Time := none
  spamReviewedScore : Option Nat := none
  implementedNotifiedAt : Option Time := none
  priority : Nat := 3
  isPinned : Bool := false
  duplicateOfPostId : Option Nat := none
  createdAt : Time
  deriving DecidableEq

instance : Sql.Row Post where
  id := Post.id

/-- Both columns are set and equal; `NULL` never clashes. -/
def sameKey (a b : Option String) : Bool := a.isSome && a == b

theorem sameKey_comm (a b : Option String) : sameKey a b = sameKey b a := by
  unfold sameKey
  by_cases h : a = b
  · rw [h]
  · rw [beq_eq_false_iff_ne.mpr h, beq_eq_false_iff_ne.mpr (Ne.symm h), Bool.and_false,
      Bool.and_false]

structure Vote where
  id : Nat
  tenantId : Nat
  postId : Nat
  userId : Option Nat := none
  guestId : Option String := none
  voterHash : Option String := none
  deriving DecidableEq

instance : Sql.Row Vote where
  id := Vote.id
  clash v w := v.tenantId == w.tenantId && v.postId == w.postId &&
    ((v.userId.isSome && w.userId.isSome && v.userId == w.userId) ||
      sameKey v.guestId w.guestId || sameKey v.voterHash w.voterHash)
  clash_comm v w := by
    rw [Bool.beq_comm (a := v.tenantId), Bool.beq_comm (a := v.postId),
      Bool.beq_comm (a := v.userId), Bool.and_comm v.userId.isSome, sameKey_comm v.guestId,
      sameKey_comm v.voterHash]

structure Comment where
  id : Nat
  tenantId : Nat
  postId : Nat
  authorId : Option Nat := none
  submitterName : Option String := none
  submitterEmail : Option String := none
  guestId : Option String := none
  voterHash : Option String := none
  asOwner : Nat := 0
  parentCommentId : Option Nat := none
  body : String
  isEdited : Bool := false
  moderationState : ModerationState := .published
  spamScore : Nat := 0
  spamReasons : Option String := none
  spamReviewedAt : Option Time := none
  spamReviewedScore : Option Nat := none
  createdAt : Time
  deriving DecidableEq

instance : Sql.Row Comment where
  id := Comment.id

structure Tag where
  id : Nat
  tenantId : Nat
  name : String
  colorHex : Option String := none
  deriving DecidableEq

instance : Sql.Row Tag where
  id := Tag.id
  clash t u := t.tenantId == u.tenantId && t.name == u.name
  clash_comm t u := by rw [Bool.beq_comm (a := t.tenantId), Bool.beq_comm (a := t.name)]

structure PostTag where
  id : Nat
  tenantId : Nat
  postId : Nat
  tagId : Nat
  deriving DecidableEq

instance : Sql.Row PostTag where
  id := PostTag.id
  clash t u := t.tenantId == u.tenantId && t.postId == u.postId && t.tagId == u.tagId
  clash_comm t u := by
    rw [Bool.beq_comm (a := t.tenantId), Bool.beq_comm (a := t.postId),
      Bool.beq_comm (a := t.tagId)]

structure RoadmapColumn where
  id : Nat
  tenantId : Nat
  name : String
  columnKey : String
  sortOrder : Int := 0
  deriving DecidableEq

instance : Sql.Row RoadmapColumn where
  id := RoadmapColumn.id
  clash c d := c.tenantId == d.tenantId && c.columnKey == d.columnKey
  clash_comm c d := by rw [Bool.beq_comm (a := c.tenantId), Bool.beq_comm (a := c.columnKey)]

structure RoadmapItem where
  id : Nat
  tenantId : Nat
  postId : Nat
  roadmapColumnId : Nat
  sortOrder : Int := 0
  targetReleaseDate : Option Time := none
  deriving DecidableEq

instance : Sql.Row RoadmapItem where
  id := RoadmapItem.id
  clash i j := i.tenantId == j.tenantId && i.postId == j.postId
  clash_comm i j := by rw [Bool.beq_comm (a := i.tenantId), Bool.beq_comm (a := i.postId)]

inductive AttachmentKind where
  | image
  | video
  deriving DecidableEq, Repr

structure PostAttachment where
  id : Nat
  tenantId : Nat
  postId : Option Nat := none
  kind : AttachmentKind
  storagePath : String
  mimeType : String
  sizeBytes : Nat
  originalName : Option String := none
  deriving DecidableEq

instance : Sql.Row PostAttachment where
  id := PostAttachment.id

structure ChangelogEntry where
  id : Nat
  tenantId : Nat
  createdBy : Nat
  deriving DecidableEq

instance : Sql.Row ChangelogEntry where
  id := ChangelogEntry.id

structure ApiKey where
  id : Nat
  tenantId : Nat
  createdBy : Nat
  deriving DecidableEq

instance : Sql.Row ApiKey where
  id := ApiKey.id

structure FileUpload where
  id : Nat
  tenantId : Nat
  uploadedBy : Nat
  deriving DecidableEq

instance : Sql.Row FileUpload where
  id := FileUpload.id

open Sql in
/-- The whole database. -/
structure Db where
  tenants : Table Tenant := .empty
  billingAccounts : Table BillingAccount := .empty
  users : Table User := .empty
  promoCodes : Table PromoCode := .empty
  promoRedemptions : Table PromoRedemption := .empty
  offers : Table Offer := .empty
  invitations : Table Invitation := .empty
  passwordResets : Table PasswordReset := .empty
  userSessions : Table UserSession := .empty
  oauthAccounts : Table OauthAccount := .empty
  posts : Table Post := .empty
  votes : Table Vote := .empty
  comments : Table Comment := .empty
  tags : Table Tag := .empty
  postTags : Table PostTag := .empty
  roadmapColumns : Table RoadmapColumn := .empty
  roadmapItems : Table RoadmapItem := .empty
  postAttachments : Table PostAttachment := .empty
  changelogEntries : Table ChangelogEntry := .empty
  apiKeys : Table ApiKey := .empty
  fileUploads : Table FileUpload := .empty

end Feedbase
