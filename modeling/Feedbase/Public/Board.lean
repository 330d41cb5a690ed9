import Feedbase.Lib.Joins
import Feedbase.Lib.Paging
import Feedbase.Lib.Values
import Feedbase.Roadmap.RoadmapSync
import Mathlib.Data.Prod.Lex

/-!
# The public board

Anybody may list the posts of a workspace, filtered, sorted and page by page. The list is one
query; what else a card shows comes from three more, about the posts of the page alone. The page
that a visitor asks for is bounded.

## Main definitions

* `boardQuery` — what is read from the request
* `Db.boardRows` — the posts that the query finds, with their votes
* `getPublicBoard` — the page
* `changelogQuery` — what `getPublicChangelogList` reads from a request

## Main results

* `boardQuery_bounded` — the page of the board is bounded
* `publicPages_bounded_iff` — and when that of the changelog is as well
-/

namespace Feedbase

/-! ### What is read from the request -/

/-- The environment's `PUBLIC_MAX_ITEMS_PER_PAGE` and `PUBLIC_MAX_OFFSET`. -/
structure BoardCaps where
  maxItemsPerPage : Nat := 50
  maxOffset : Nat := 100000

structure BoardFilters where
  status : Option String := none
  postType : Option String := none
  tagId : Option Nat := none
  search : Option Text := none

inductive BoardSort where
  | newest
  | oldest
  | mostVoted
  | leastVoted
  deriving DecidableEq, Repr

def BoardSort.text : BoardSort → String
  | newest => "newest"
  | oldest => "oldest"
  | mostVoted => "most_voted"
  | leastVoted => "least_voted"

/-- What `SORTS[key] || SORTS.newest` stands for in the query. -/
inductive OrderBy where
  | sort (s : BoardSort)
  /-- The text of a function that every object inherits: no SQL. -/
  | inherited

/-- The properties that every object has without its own. -/
def inheritedNames : List String :=
  ["constructor", "__defineGetter__", "__defineSetter__", "hasOwnProperty", "__lookupGetter__",
    "__lookupSetter__", "isPrototypeOf", "propertyIsEnumerable", "toString", "valueOf", "__proto__",
    "toLocaleString"]

def orderByFor (key : Text) : OrderBy :=
  if inheritedNames.any fun name => Text.ofString name == key then .inherited
  else
    .sort (([BoardSort.newest, .oldest, .mostVoted, .leastVoted].find? fun s =>
      Text.ofString s.text == key).getD .newest)

/-- `(filters?.search || paginationData?.filterBy || "").trim().slice(0, MAX_SEARCH_LENGTH)`,
which only a text has. -/
def searchText (pagination : Value) (filters : BoardFilters) : Option Text :=
  match ((filters.search.map Value.str).getD .undefined).orElse
      ((pagination.get "filterBy").orElse (.str [])) with
  | .str t => some ((Text.trim t).take 100)
  | _ => none

/-- What the list query is sent with. -/
structure BoardQuery where
  orderBy : OrderBy
  limit : JsNum
  offset : JsNum
  search : Text

/-- `Math.min(Math.max(low, Math.floor(number || fallback)), high)` -/
def withinBounds (number : JsNum) (fallback low high : Nat) : JsNum :=
  (JsNum.max (.fin low) (number.orElse (.fin fallback)).floor).min (.fin high)

/-- The query; `none` when a conversion throws before anything is sent. -/
def boardQuery (caps : BoardCaps) (pagination : Value) (filters : BoardFilters) :
    Option BoardQuery := do
  let key ← (pagination.get "sortBy").toText
  let itemsPerPage ← (pagination.get "itemsPerPage").toNumber
  let offset ← (pagination.get "offset").toNumber
  let search ← searchText pagination filters
  some
    { orderBy := orderByFor key
      limit := withinBounds itemsPerPage 20 1 caps.maxItemsPerPage
      offset := withinBounds offset 0 0 caps.maxOffset
      search := search }

/-! ### The list query -/

def PostType.text : PostType → String
  | feedback => "feedback"
  | featureRequest => "feature_request"
  | bugReport => "bug_report"

/-- `text LIKE pattern`, with a collation for single characters. -/
def likes (collate : Char → Char → Bool) : List Char → List Char → Bool
  | [], s => s.isEmpty
  | '%' :: p, s => s.tails.any (likes collate p)
  | '_' :: p, s => !s.isEmpty && likes collate p s.tail
  | '\\' :: c :: p, s => s.head?.any (collate c) && likes collate p s.tail
  | c :: p, s => s.head?.any (collate c) && likes collate p s.tail

/-- `title LIKE ? OR description LIKE ?`. -/
def Post.contains (collate : Char → Char → Bool) (search : Text) (p : Post) : Bool :=
  let pattern := ("%" ++ Text.toString search ++ "%").toList
  likes collate pattern p.title.toList || likes collate pattern p.description.toList

/-- `p.id IN (SELECT post_id FROM post_tags WHERE tag_id = ? AND tenant_id = ?)`. -/
def Db.isTagged (db : Db) (tenantId tagId postId : Nat) : Bool :=
  db.postTags.rows.any fun pt =>
    pt.postId == postId && pt.tagId == tagId && pt.tenantId == tenantId

/-- The `WHERE` clause. -/
def Db.boardWhere (db : Db) (collate : Char → Char → Bool) (tenantId : Nat)
    (filters : BoardFilters) (search : Text) (p : Post) : Bool :=
  p.tenantId == tenantId && p.moderationState != .spam &&
    (filters.status.filter (· ≠ "")).all (· == p.status.text) &&
    (filters.postType.filter (· ≠ "")).all (· == p.postType.text) &&
    (filters.tagId.filter (· ≠ 0)).all (db.isTagged tenantId · p.id) &&
    (search == [] || p.contains collate search)

/-- What the list query selects. -/
structure BoardRow where
  id : Nat
  title : String
  description : String
  postType : PostType
  status : PostStatus
  priority : Nat
  isPinned : Bool
  createdAt : Time
  authorName : String
  voteCount : Nat
  deriving DecidableEq

/-- The selected columns; both joined rows may be missing. -/
def boardRow (p : Post) (author : Option User) (votes : Option (Nat × Nat)) : BoardRow where
  id := p.id
  title := p.title
  description := p.description
  postType := p.postType
  status := p.status
  priority := p.priority
  isPinned := p.isPinned
  createdAt := p.createdAt
  authorName := ((author.map (·.fullName)).or p.submitterName).getD "Anonymous"
  voteCount := (votes.map Prod.snd).getD 0

/-- `SELECT post_id, COUNT(*) FROM votes WHERE tenant_id = ? GROUP BY post_id`. -/
def Db.voteCounts (db : Db) (tenantId : Nat) : List (Nat × Nat) :=
  Join.groupCount Vote.postId (db.votes.rows.filter (·.tenantId == tenantId))

/-- The rows of the list query, before they are ordered and cut. -/
def Db.boardRows (db : Db) (collate : Char → Char → Bool) (tenantId : Nat)
    (filters : BoardFilters) (search : Text) : List BoardRow :=
  let authored := Join.left Post.authorId User.id db.posts.rows db.users.rows
  let counted := Join.left (fun r => some r.1.id) Prod.fst authored (db.voteCounts tenantId)
  (counted.filter fun r => db.boardWhere collate tenantId filters search r.1.1).map fun r =>
    boardRow r.1.1 r.1.2 r.2

/-- What the rows are ordered by, smallest first. -/
def BoardSort.key (s : BoardSort) (r : BoardRow) : Lex (Int × Lex (Int × Int)) :=
  let pinned : Int := if r.isPinned then 0 else 1
  match s with
  | newest => toLex (pinned, toLex (-(r.createdAt : Int), 0))
  | oldest => toLex (pinned, toLex ((r.createdAt : Int), 0))
  | mostVoted => toLex (pinned, toLex (-(r.voteCount : Int), -(r.createdAt : Int)))
  | leastVoted => toLex (pinned, toLex ((r.voteCount : Int), -(r.createdAt : Int)))

/-- `ORDER BY p.is_pinned DESC, …`. -/
def BoardSort.le (s : BoardSort) (a b : BoardRow) : Prop := s.key a ≤ s.key b

instance (s : BoardSort) : DecidableRel s.le := fun a b =>
  inferInstanceAs (Decidable (s.key a ≤ s.key b))

/-! ### The batched queries -/

structure TagRow where
  postId : Nat
  id : Nat
  name : String
  colorHex : Option String
  deriving DecidableEq

/-- A tag as a card shows it. -/
structure TagCard where
  id : Nat
  name : String
  colorHex : Option String
  deriving DecidableEq

def TagRow.card (t : TagRow) : TagCard where
  id := t.id
  name := t.name
  colorHex := t.colorHex

def tagRow (pt : PostTag) (t : Tag) : TagRow where
  postId := pt.postId
  id := t.id
  name := t.name
  colorHex := t.colorHex

/-- `FROM post_tags pt JOIN tags t ON pt.tag_id = t.id WHERE pt.tenant_id = ? AND pt.post_id
IN (?)`. -/
def Db.tagRows (db : Db) (tenantId : Nat) (postIds : List Nat) : List TagRow :=
  ((Join.inner (fun pt => some (PostTag.tagId pt)) Tag.id db.postTags.rows db.tags.rows).filter
    fun r => r.1.tenantId == tenantId && postIds.contains r.1.postId).map fun r => tagRow r.1 r.2

/-- `SELECT post_id, COUNT(*) … AND moderation_state <> 'spam' GROUP BY post_id`. -/
def Db.commentCounts (db : Db) (tenantId : Nat) (postIds : List Nat) : List (Nat × Nat) :=
  Join.groupCount Comment.postId (db.comments.rows.filter fun c =>
    c.tenantId == tenantId && postIds.contains c.postId && c.moderationState != .spam)

/-- `SELECT post_id, kind, storage_path FROM post_attachments WHERE … ORDER BY id ASC`. -/
def Db.attachmentRows (db : Db) (tenantId : Nat) (postIds : List Nat) : List PostAttachment :=
  (db.postAttachments.rows.filter fun a =>
    a.tenantId == tenantId && a.postId.any postIds.contains).insertionSort fun a b => a.id ≤ b.id

/-- What is kept of the attachments of a post. -/
structure AttachmentEntry where
  count : Nat := 0
  thumbnail : Option String := none
  deriving DecidableEq

def AttachmentEntry.add (entry : AttachmentEntry) (a : PostAttachment) : AttachmentEntry where
  count := entry.count + 1
  thumbnail :=
    if entry.thumbnail = none ∧ a.kind = .image then some a.storagePath else entry.thumbnail

def tagsByPost : List TagRow → Nat → Option (List TagCard) :=
  Join.collect TagRow.postId fun tags t => tags.getD [] ++ [t.card]

def commentsByPost : List (Nat × Nat) → Nat → Option Nat :=
  Join.collect Prod.fst fun _ c => c.2

/-- The key is `post_id`, which the query finds not `NULL`. -/
def attachmentsByPost : List PostAttachment → Option Nat → Option AttachmentEntry :=
  Join.collect PostAttachment.postId fun entry a => (entry.getD {}).add a

/-! ### The page -/

structure PostCard extends BoardRow where
  tags : List TagCard := []
  commentCount : Nat := 0
  attachmentCount : Nat := 0
  thumbnailPath : Option String := none
  deriving DecidableEq

/-- The order in which the database returns rows where a query leaves it open. -/
structure RowOrders where
  posts : List BoardRow → List BoardRow
  tags : List TagRow → List TagRow
  comments : List (Nat × Nat) → List (Nat × Nat)

/-- It returns the rows it has found, and the posts as they are asked to be sorted. -/
structure RowOrders.Valid (orders : RowOrders) (s : BoardSort) : Prop where
  posts : ∀ rows, Paging.Sorts s.le rows (orders.posts rows)
  tags : ∀ rows, (orders.tags rows).Perm rows
  comments : ∀ rows, (orders.comments rows).Perm rows

theorem BoardSort.le_total (s : BoardSort) (a b : BoardRow) : s.le a b ∨ s.le b a :=
  LinearOrder.le_total (s.key a) (s.key b)

theorem BoardSort.le_trans (s : BoardSort) (a b c : BoardRow) (h : s.le a b) (h' : s.le b c) :
    s.le a c := h.trans h'

/-- The order in which the rows are found, as far as the query leaves it open. -/
def RowOrders.found (s : BoardSort) : RowOrders where
  posts rows := rows.insertionSort s.le
  tags rows := rows
  comments rows := rows

theorem RowOrders.found_valid (s : BoardSort) : (RowOrders.found s).Valid s where
  posts rows := by
    have : Std.Total s.le := ⟨s.le_total⟩
    have : IsTrans BoardRow s.le := ⟨s.le_trans⟩
    exact ⟨List.perm_insertionSort s.le rows, List.pairwise_insertionSort s.le rows⟩
  tags rows := .refl rows
  comments rows := .refl rows

/-- `LIMIT ? OFFSET ?`, with numbers that are whole. -/
def sliced (limit offset : JsNum) (rows : List BoardRow) : List BoardRow :=
  (rows.drop offset.toNat).take limit.toNat

/-- The cards of a page. -/
def Db.cards (db : Db) (orders : RowOrders) (tenantId : Nat) (rows : List BoardRow) :
    List PostCard :=
  let postIds := rows.map (·.id)
  let tags := tagsByPost (orders.tags (db.tagRows tenantId postIds))
  let comments := commentsByPost (orders.comments (db.commentCounts tenantId postIds))
  let attachments := attachmentsByPost (db.attachmentRows tenantId postIds)
  rows.map fun p =>
    { p with
      tags := (tags p.id).getD []
      commentCount := (comments p.id).getD 0
      attachmentCount := ((attachments (some p.id)).map (·.count)).getD 0
      thumbnailPath := (attachments (some p.id)).bind (·.thumbnail) }

structure BoardPage where
  posts : List PostCard
  total : Nat
  deriving DecidableEq

inductive BoardReply where
  /-- A conversion has thrown. -/
  | throws
  /-- 500, `failed_to_get_posts`. -/
  | failed
  | page (p : BoardPage)
  deriving DecidableEq

/-- The two concurrent queries, and then the three about the posts of the page. Without posts there
is nothing to ask. -/
def Db.boardPage (db : Db) (collate : Char → Char → Bool) (orders : RowOrders) (tenantId : Nat)
    (filters : BoardFilters) (query : BoardQuery) : BoardPage :=
  let found := db.boardRows collate tenantId filters query.search
  let rows := sliced query.limit query.offset (orders.posts found)
  { posts := if rows.isEmpty then [] else db.cards orders tenantId rows
    total := db.posts.rows.countP (db.boardWhere collate tenantId filters query.search) }

def getPublicBoard (db : Db) (caps : BoardCaps) (collate : Char → Char → Bool)
    (orders : RowOrders) (tenantId : Nat) (pagination : Value) (filters : BoardFilters) :
    BoardReply :=
  match boardQuery caps pagination filters with
  | none => .throws
  | some query =>
    match query.orderBy with
    | .inherited => .failed
    | .sort _ => .page (db.boardPage collate orders tenantId filters query)

/-! ### The other public list -/

/-- What the list query of `getPublicChangelogList` is sent with. -/
structure ChangelogQuery where
  ascending : Bool
  limit : JsNum
  offset : JsNum

def changelogQuery (pagination : Value) : Option ChangelogQuery := do
  let itemsPerPage ← (pagination.get "itemsPerPage").toNumber
  let offset ← (pagination.get "offset").toNumber
  some
    { ascending := (pagination.get "sortOrder").isString "asc"
      limit := itemsPerPage.orElse (.fin 20)
      offset := offset.orElse (.fin 0) }

/-! ### The bounds of a page -/

/-- The query asks for a page that is not empty, and for no more than allowed. -/
def PageWithin (most farthest : Nat) (limit offset : JsNum) : Prop :=
  limit.IsCount 1 most ∧ offset.IsCount 0 farthest

/-- The board's own caps. -/
theorem boardQuery_bounded {caps : BoardCaps} (hcaps : 1 ≤ caps.maxItemsPerPage)
    {pagination : Value} {filters : BoardFilters} {q : BoardQuery}
    (h : boardQuery caps pagination filters = some q) :
    PageWithin caps.maxItemsPerPage caps.maxOffset q.limit q.offset := by
  rw [boardQuery] at h
  obtain ⟨key, -, h⟩ := Option.bind_eq_some_iff.mp h
  obtain ⟨itemsPerPage, -, h⟩ := Option.bind_eq_some_iff.mp h
  obtain ⟨offset, -, h⟩ := Option.bind_eq_some_iff.mp h
  obtain ⟨search, -, h⟩ := Option.bind_eq_some_iff.mp h
  obtain rfl := Option.some.inj h
  exact ⟨JsNum.isCount_clamp (JsNum.orElse_ne_nan _ _) hcaps,
    JsNum.isCount_clamp (JsNum.orElse_ne_nan _ _) (Nat.zero_le _)⟩

/-- What `number || fallback` is a count of. -/
theorem isCount_orElse_iff (x : JsNum) (fallback least most : Nat) :
    (x.orElse (.fin fallback)).IsCount least most ↔
      x.isFalsy = true ∧ least ≤ fallback ∧ fallback ≤ most ∨
        x.isFalsy = false ∧ x.IsCount least most := by
  rw [JsNum.orElse]
  cases hx : x.isFalsy with
  | true =>
    rw [if_pos rfl]
    constructor
    · rintro ⟨n, heq, hle⟩
      have hn : fallback = n := Nat.cast_injective (R := Rat) (JsNum.fin.inj heq)
      rw [← hn] at hle
      exact .inl ⟨rfl, hle⟩
    · rintro (⟨-, hle⟩ | ⟨hfalse, -⟩)
      · exact ⟨fallback, rfl, hle⟩
      · cases hfalse
  | false =>
    rw [if_neg Bool.false_ne_true]
    constructor
    · exact fun h => .inr ⟨rfl, h⟩
    · rintro (⟨htrue, -⟩ | ⟨-, h⟩)
      · cases htrue
      · exact h

/-- The numbers that a client asks the changelog for: nothing or zero, or a count. -/
structure AsksWithin (most farthest : Nat) (itemsPerPage offset : JsNum) : Prop where
  items : itemsPerPage.isFalsy = true ∧ 20 ≤ most ∨
    itemsPerPage.isFalsy = false ∧ itemsPerPage.IsCount 1 most
  offset : offset.isFalsy = true ∨ offset.isFalsy = false ∧ offset.IsCount 0 farthest

/-- Whatever a client sends, the board's query stays within its caps. That of the changelog stays
within others if and only if the client asks for what is within them. -/
theorem publicPages_bounded_iff (caps : BoardCaps) (hcaps : 1 ≤ caps.maxItemsPerPage)
    (most farthest : Nat) (pagination : Value) (filters : BoardFilters) :
    (∀ q, boardQuery caps pagination filters = some q →
      PageWithin caps.maxItemsPerPage caps.maxOffset q.limit q.offset) ∧
      ((∀ q, changelogQuery pagination = some q → PageWithin most farthest q.limit q.offset) ↔
        ∀ itemsPerPage offset, (pagination.get "itemsPerPage").toNumber = some itemsPerPage →
          (pagination.get "offset").toNumber = some offset →
            AsksWithin most farthest itemsPerPage offset) := by
  refine ⟨fun q h => boardQuery_bounded hcaps h, ?_⟩
  constructor
  · intro h itemsPerPage offset hitems hoffset
    have hquery : changelogQuery pagination = some
        { ascending := (pagination.get "sortOrder").isString "asc"
          limit := itemsPerPage.orElse (.fin 20)
          offset := offset.orElse (.fin 0) } := by
      rw [changelogQuery, hitems, hoffset]
      rfl
    obtain ⟨hlimit, hplace⟩ := h _ hquery
    -- what is absent, zero or no number takes the default
    have hlimit' := (isCount_orElse_iff itemsPerPage 20 1 most).mp hlimit
    have hplace' := (isCount_orElse_iff offset 0 0 farthest).mp hplace
    exact ⟨hlimit'.imp_left fun hdefault => ⟨hdefault.1, hdefault.2.2⟩,
      hplace'.imp_left And.left⟩
  · intro h q hq
    rw [changelogQuery] at hq
    obtain ⟨itemsPerPage, hitems, hq⟩ := Option.bind_eq_some_iff.mp hq
    obtain ⟨offset, hoffset, hq⟩ := Option.bind_eq_some_iff.mp hq
    obtain rfl := Option.some.inj hq
    obtain ⟨hlimit, hplace⟩ := h itemsPerPage offset hitems hoffset
    exact ⟨(isCount_orElse_iff itemsPerPage 20 1 most).mpr
        (hlimit.imp_left fun hdefault => ⟨hdefault.1, by decide, hdefault.2⟩),
      (isCount_orElse_iff offset 0 0 farthest).mpr
        (hplace.imp_left fun hdefault => ⟨hdefault, Nat.le_refl 0, Nat.zero_le _⟩)⟩

/-- A client that asks for a million entries, before the first. -/
def hugePage : Value :=
  .obj [(Text.ofString "itemsPerPage", .num (.fin 1000000)),
    (Text.ofString "offset", .num (.fin (-5)))]

theorem publicPages_bounded_huge :
    (∀ q, boardQuery {} hugePage {} = some q → PageWithin 50 100000 q.limit q.offset) ∧
      ¬ ∀ q, changelogQuery hugePage = some q → PageWithin 50 100000 q.limit q.offset := by
  obtain ⟨hboard, hchangelog⟩ := publicPages_bounded_iff {} (by decide) 50 100000 hugePage {}
  refine ⟨hboard, fun h => ?_⟩
  have hasks := hchangelog.mp h (.fin 1000000) (.fin (-5)) (by decide +kernel) (by decide +kernel)
  obtain ⟨hfalsy, -⟩ | ⟨-, n, hn, -, hmost⟩ := hasks.items
  · exact absurd hfalsy (by decide +kernel)
  · have hcount : (n : ℚ) = 1000000 := (JsNum.fin.inj hn).symm
    have hsmall : (n : ℚ) ≤ 50 := by exact_mod_cast hmost
    rw [hcount] at hsmall
    exact absurd hsmall (by decide +kernel)

/-- The changelog is asked for the million entries, and no caps would do. -/
theorem changelog_page_unbounded :
    (changelogQuery hugePage).map (fun q => (q.limit, q.offset)) =
        some (.fin 1000000, .fin (-5)) ∧
      ¬ ∃ most farthest, ∀ pagination q, changelogQuery pagination = some q →
        PageWithin most farthest q.limit q.offset := by
  have hquery : (changelogQuery hugePage).map (fun q => (q.limit, q.offset)) =
      some (.fin 1000000, .fin (-5)) := by decide +kernel
  refine ⟨hquery, ?_⟩
  rintro ⟨most, farthest, h⟩
  obtain ⟨q, hq, hpage⟩ := Option.map_eq_some_iff.mp hquery
  obtain ⟨-, n, hn, -⟩ := h hugePage q hq
  have hnegative : (n : Rat) = -5 := JsNum.fin.inj (hn.symm.trans (Prod.mk.inj hpage).2)
  have hpos : (0 : Rat) ≤ n := Nat.cast_nonneg n
  rw [hnegative] at hpos
  exact absurd hpos (by decide)

end Feedbase
