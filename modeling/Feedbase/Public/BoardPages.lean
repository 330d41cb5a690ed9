import Feedbase.Public.BoardCards

/-!
# The board, page after page

A visitor goes through the board with a fixed filter, sort and page size. Each page is a query of
its own, and the posts that compare equal may come in another order in each. Nothing is lost or
shown twice as long as no page ends between posts that compare equal: same pin, same number of
votes where these are sorted by, and made in the same second.

## Main definitions

* `pageRequest` — the request for a page
* `shownIds` — what is shown on the first pages

## Main results

* `getPublicBoard_pageRequest` — the reply to such a request
* `shownIds_perm_iff` — when the pages show every post once
* `twin_posts_shown_twice` — two posts of the same second
-/

namespace Feedbase

variable {db : Db} {caps : BoardCaps} {collate : Char → Char → Bool} {orders : RowOrders}
  {T n j : Nat} {filters : BoardFilters} {filterBy : Text} {s : BoardSort}

/-- The request for page `j`, of `n` posts. -/
def pageRequest (s : BoardSort) (filterBy : Text) (n j : Nat) : Value :=
  .obj [(Text.ofString "itemsPerPage", .num (.fin n)),
    (Text.ofString "offset", .num (.fin (j * n : Nat))),
    (Text.ofString "sortBy", .ofString s.text), (Text.ofString "filterBy", .str filterBy)]

/-- What is searched for. -/
def searchFor (filterBy : Text) (filters : BoardFilters) : Text :=
  (Text.trim (if (filters.search.getD []) = [] then filterBy else filters.search.getD [])).take 100

theorem get_pageRequest (s : BoardSort) (filterBy : Text) (n j : Nat) :
    (pageRequest s filterBy n j).get "itemsPerPage" = .num (.fin n) ∧
      (pageRequest s filterBy n j).get "offset" = .num (.fin (j * n : Nat)) ∧
        (pageRequest s filterBy n j).get "sortBy" = .ofString s.text ∧
          (pageRequest s filterBy n j).get "filterBy" = .str filterBy := ⟨rfl, rfl, rfl, rfl⟩

/-- A text with an empty one instead of nothing. -/
theorem orElse_str (t : Text) : (Value.str t).orElse (.str []) = .str t := by
  cases t with
  | nil => rfl
  | cons u t => rfl

theorem searchText_pageRequest (s : BoardSort) (filterBy : Text) (n j : Nat)
    (filters : BoardFilters) :
    searchText (pageRequest s filterBy n j) filters = some (searchFor filterBy filters) := by
  rw [searchText, (get_pageRequest s filterBy n j).2.2.2, searchFor, orElse_str]
  cases filters.search with
  | none => rfl
  | some t =>
    cases t with
    | nil => rfl
    | cons u t => rfl

theorem orderByFor_text (s : BoardSort) : orderByFor (Text.ofString s.text) = .sort s := by
  cases s <;> rfl

/-- A number that is within the bounds stays. -/
theorem withinBounds_natCast {m fallback low high : Nat} (hlow : low ≤ m) (hhigh : m ≤ high)
    (hdefault : fallback = 0 ∨ 0 < m) :
    withinBounds (.fin m) fallback low high = .fin m := by
  have horElse : (JsNum.fin m).orElse (.fin fallback) = .fin m := by
    rw [JsNum.orElse, JsNum.isFalsy_natCast]
    split
    · rename_i hzero
      have hm : m = 0 := of_decide_eq_true hzero
      rcases hdefault with hfallback | hpos
      · rw [hfallback, hm]
      · omega
    · rfl
  have hfloor : (JsNum.fin m).floor = .fin m := by
    rw [JsNum.floor, Int.floor_natCast, Int.cast_natCast]
  have hmax : JsNum.max (.fin low) (.fin m) = .fin m := by
    rw [JsNum.max_fin]
    split
    · rename_i hle
      have heq : m = low := Nat.le_antisymm (Nat.cast_le.mp hle) hlow
      rw [heq]
    · rfl
  rw [withinBounds, horElse, hfloor, hmax, JsNum.min_natCast,
    show Nat.min m high = m from Nat.min_eq_left hhigh]

/-- The query of a page within the caps. -/
theorem boardQuery_pageRequest (hn : 1 ≤ n) (hmost : n ≤ caps.maxItemsPerPage)
    (hplace : j * n ≤ caps.maxOffset) :
    boardQuery caps (pageRequest s filterBy n j) filters = some
      { orderBy := .sort s
        limit := .fin n
        offset := .fin (j * n : Nat)
        search := searchFor filterBy filters } := by
  obtain ⟨hitems, hoffset, hsort, -⟩ := get_pageRequest s filterBy n j
  rw [boardQuery, hitems, hoffset, hsort, searchText_pageRequest]
  have hkey : (Value.ofString s.text).toText = some (Text.ofString s.text) := rfl
  have hitems' : (Value.num (.fin n)).toNumber = some (.fin n) := rfl
  have hoffset' : (Value.num (.fin (j * n : Nat))).toNumber = some (.fin (j * n : Nat)) := rfl
  rw [hkey, hitems', hoffset']
  simp only [Option.bind_eq_bind, Option.bind_some]
  rw [orderByFor_text, withinBounds_natCast hn hmost (.inr hn),
    withinBounds_natCast (Nat.zero_le _) hplace (.inl rfl)]

/-- The posts that the filter finds. -/
def Db.boardIds (db : Db) (collate : Char → Char → Bool) (T : Nat) (filters : BoardFilters)
    (search : Text) : List Nat :=
  (db.posts.rows.filter (db.boardWhere collate T filters search)).map (·.id)

theorem map_id_boardRows (db : Db) (collate : Char → Char → Bool) (T : Nat)
    (filters : BoardFilters) (search : Text) :
    (db.boardRows collate T filters search).map (·.id) = db.boardIds collate T filters search := by
  rw [Db.boardRows_eq, List.map_map]
  rfl

/-- The reply to the request for a page within the caps. -/
theorem getPublicBoard_pageRequest (db : Db) (collate : Char → Char → Bool) (orders : RowOrders)
    (T : Nat) (s : BoardSort) (filterBy : Text) (filters : BoardFilters) (hn : 1 ≤ n)
    (hmost : n ≤ caps.maxItemsPerPage) (hplace : j * n ≤ caps.maxOffset) :
    ∃ page, getPublicBoard db caps collate orders T (pageRequest s filterBy n j) filters =
        .page page ∧
      page.posts.map (·.id) = (Paging.page n j
        (orders.posts (db.boardRows collate T filters (searchFor filterBy filters)))).map (·.id) ∧
      page.total = (db.boardIds collate T filters (searchFor filterBy filters)).length := by
  refine ⟨db.boardPage collate orders T filters
    { orderBy := .sort s
      limit := .fin n
      offset := .fin (j * n : Nat)
      search := searchFor filterBy filters }, ?_, ?_, ?_⟩
  · rw [getPublicBoard, boardQuery_pageRequest hn hmost hplace]
  · have htoNat : ∀ m : Nat, (JsNum.fin m).toNat = m := by
      intro m
      rw [JsNum.toNat, Int.floor_natCast]
      rfl
    rw [posts_boardPage, map_id_cards]
    dsimp only
    rw [sliced, htoNat, htoNat, Paging.page]
  · rw [Db.boardIds, List.length_map]
    exact List.countP_eq_length_filter

/-- What a reply shows. -/
def BoardReply.ids : BoardReply → List Nat
  | .page p => p.posts.map (·.id)
  | _ => []

/-- What is shown on the first `k` pages, each asked for in the orders of its own queries. -/
def shownIds (db : Db) (caps : BoardCaps) (collate : Char → Char → Bool)
    (orders : Nat → RowOrders) (T : Nat) (s : BoardSort) (filterBy : Text) (n k : Nat)
    (filters : BoardFilters) : List Nat :=
  (List.range k).flatMap fun j =>
    (getPublicBoard db caps collate (orders j) T (pageRequest s filterBy n j) filters).ids

theorem shownIds_eq (hn : 1 ≤ n) (hmost : n ≤ caps.maxItemsPerPage) {k : Nat}
    (hplace : ∀ j < k, j * n ≤ caps.maxOffset) (orders : Nat → RowOrders) :
    shownIds db caps collate orders T s filterBy n k filters =
      ((List.range k).flatMap fun j => Paging.page n j ((orders j).posts
        (db.boardRows collate T filters (searchFor filterBy filters)))).map (·.id) := by
  rw [shownIds, List.map_flatMap]
  refine List.flatMap_congr fun j hj => ?_
  obtain ⟨page, hreply, hids, -⟩ := getPublicBoard_pageRequest db collate (orders j) T s filterBy
    filters hn hmost (hplace j (List.mem_range.mp hj))
  rw [hreply]
  exact hids

/-- Another order for the same rows. -/
def RowOrders.withPosts (orders : RowOrders) (posts : List BoardRow → List BoardRow) : RowOrders :=
  { orders with posts := posts }

/-- Rows that have the same identifiers as others, which they are among, are the same rows. -/
theorem perm_of_map_id {rows found : List BoardRow} (hfound : (found.map (·.id)).Nodup)
    (hsubset : rows ⊆ found) (h : (rows.map (·.id)).Perm (found.map (·.id))) :
    rows.Perm found := by
  have hnodup : rows.Nodup := ((h.nodup_iff).mpr hfound).of_map
  refine (List.subperm_of_subset hnodup hsubset).perm_of_length_le ?_
  have hlength := h.length_eq
  rw [List.length_map, List.length_map] at hlength
  exact hlength.ge

/-- The pages show every post that is found once, whatever order the posts come in each time, if and
only if no page ends between posts that compare equal. The total is their number. -/
theorem shownIds_perm_iff (db : Db) (caps : BoardCaps) (collate : Char → Char → Bool) (T : Nat)
    (s : BoardSort) (filterBy : Text) (filters : BoardFilters) (n k : Nat) (hn : 1 ≤ n)
    (hmost : n ≤ caps.maxItemsPerPage) (hplace : ∀ j < k, j * n ≤ caps.maxOffset)
    (hall : (db.boardIds collate T filters (searchFor filterBy filters)).length ≤ k * n) :
    (∀ orders : Nat → RowOrders, (∀ j, (orders j).Valid s) →
      (shownIds db caps collate orders T s filterBy n k filters).Perm
          (db.boardIds collate T filters (searchFor filterBy filters)) ∧
        ∀ j < k, ∃ page, getPublicBoard db caps collate (orders j) T
            (pageRequest s filterBy n j) filters = .page page ∧
          page.total = (shownIds db caps collate orders T s filterBy n k filters).length) ↔
      ∀ j, ¬ Paging.Cuts s.le
        (db.boardRows collate T filters (searchFor filterBy filters)) (j * n) := by
  have hids := map_id_boardRows db collate T filters (searchFor filterBy filters)
  have hnodup := nodup_boardRows db collate T filters (searchFor filterBy filters)
  have hlength : (db.boardRows collate T filters (searchFor filterBy filters)).length ≤ k * n := by
    rwa [← hids, List.length_map] at hall
  rw [← Paging.pages_perm_iff s.le_total s.le_trans hnodup.of_map hn hlength]
  constructor
  · intro h ls hls
    -- the database takes the orders for this query, and any for others
    have hvalid : ∀ j, ((RowOrders.found s).withPosts fun rows =>
        if rows = db.boardRows collate T filters (searchFor filterBy filters) then ls j
        else (RowOrders.found s).posts rows).Valid s := by
      intro j
      refine ⟨fun rows => ?_, (RowOrders.found_valid s).tags, (RowOrders.found_valid s).comments⟩
      rw [RowOrders.withPosts]
      dsimp only
      split
      · rename_i hrows
        rw [hrows]
        exact hls j
      · exact (RowOrders.found_valid s).posts rows
    obtain ⟨hperm, -⟩ := h _ hvalid
    rw [shownIds_eq hn hmost hplace, ← hids] at hperm
    simp only [RowOrders.withPosts, if_true] at hperm
    refine perm_of_map_id hnodup ?_ hperm
    intro r hr
    obtain ⟨j, -, hmem⟩ := List.mem_flatMap.mp hr
    exact (hls j).perm.mem_iff.mp (List.mem_of_mem_drop (List.mem_of_mem_take hmem))
  · -- whatever the orders of ties are, the pages take all rows
    intro h orders hvalid
    have hperm := (h _ fun j => (hvalid j).posts _).map (·.id)
    rw [← shownIds_eq hn hmost hplace, hids] at hperm
    refine ⟨hperm, fun j hj => ?_⟩
    obtain ⟨page, hreply, -, htotal⟩ := getPublicBoard_pageRequest db collate (orders j) T s
      filterBy filters hn hmost (hplace j hj)
    exact ⟨page, hreply, htotal.trans hperm.length_eq.symm⟩

/-- Two posts of one second. -/
def twinPosts : Db where
  posts :=
    { rows := [{ id := 1, tenantId := 5, title := "Dark mode", description := "", createdAt := 10 },
        { id := 2, tenantId := 5, title := "Exports", description := "", createdAt := 10 }]
      next := 3
      id_lt := by decide
      nodup := by decide
      noClash := by decide }

/-- Two posts of different seconds, one on each page. -/
theorem shownIds_perm_iff_busy :
    busyBoard.boardIds (· == ·) 5 {} (searchFor [] {}) = [1, 2] ∧
      ∀ orders : Nat → RowOrders, (∀ j, (orders j).Valid .newest) →
        (shownIds busyBoard {} (· == ·) orders 5 .newest [] 1 2 {}).Perm
            (busyBoard.boardIds (· == ·) 5 {} (searchFor [] {})) ∧
          ∀ j < 2, ∃ page, getPublicBoard busyBoard {} (· == ·) (orders j) 5
              (pageRequest .newest [] 1 j) {} = .page page ∧
            page.total =
              (shownIds busyBoard {} (· == ·) orders 5 .newest [] 1 2 {}).length := by
  refine ⟨by decide +kernel, ?_⟩
  apply (shownIds_perm_iff busyBoard {} (· == ·) 5 .newest [] {} 1 2 (by decide) (by decide)
    (by decide) (by decide +kernel)).mpr
  intro j hcut
  have hlength : (busyBoard.boardRows (· == ·) 5 {} (searchFor [] {})).length = 2 := by
    decide +kernel
  have hj : j < 2 := by
    have hlt := hcut.lt_length
    omega
  have hpages : ∀ i < 2, ¬ Paging.Cuts BoardSort.newest.le
      (busyBoard.boardRows (· == ·) 5 {} (searchFor [] {})) (i * 1) := by
    decide +kernel
  exact hpages j hj hcut

/-- The order of the second page's query: rows that compare equal the other way round. -/
def lastFound (s : BoardSort) : RowOrders :=
  (RowOrders.found s).withPosts fun rows => (RowOrders.found s).posts rows.reverse

theorem lastFound_valid (s : BoardSort) : (lastFound s).Valid s where
  posts rows :=
    ⟨((RowOrders.found_valid s).posts rows.reverse).perm.trans rows.reverse_perm,
      ((RowOrders.found_valid s).posts rows.reverse).sorted⟩
  tags := (RowOrders.found_valid s).tags
  comments := (RowOrders.found_valid s).comments

/-- Of two posts of one second, one is shown on both pages and the other on none. -/
theorem twin_posts_shown_twice :
    ∃ orders : Nat → RowOrders, (∀ j, (orders j).Valid .newest) ∧
      twinPosts.boardIds (· == ·) 5 {} [] = [1, 2] ∧
        shownIds twinPosts {} (· == ·) orders 5 .newest [] 1 2 {} = [1, 1] :=
  ⟨fun j => if j = 0 then .found .newest else lastFound .newest, fun j => by
    dsimp only
    split
    · exact RowOrders.found_valid .newest
    · exact lastFound_valid .newest, by decide +kernel, by decide +kernel⟩

end Feedbase
