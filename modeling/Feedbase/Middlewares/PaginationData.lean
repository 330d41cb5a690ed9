import Feedbase.Lib.Values

/-!
# The page that a request asks for

The middleware checks what a client sends as `paginationData`, and hands on a page of bounded
size. A value that is not a number is refused, as is a negative one; what is left out or zero
becomes a default, and what is too large is cut.

## Main definitions

* `paginationData` — the middleware

## Main results

* `exists_clamped` — a whole number that is not negative becomes one within the bounds
* `paginationData_bounded` — what the middleware hands on
-/

namespace Feedbase

/-- The environment's `MAX_ITEMS_PER_PAGE` and `MAX_PAGE_NUMBER`. -/
structure PageLimits where
  maxItemsPerPage : Nat := 100
  maxPageNumber : Nat := 10000

/-- The page that is handed on. -/
structure Page where
  itemsPerPage : JsNum
  currentPageNumber : JsNum
  filterBy : Value
  sortOrder : Value
  lg : Value
  sortBy : Option Value
  offset : JsNum

/-- What the middleware does. -/
inductive PageOutcome where
  | next (page : Page)
  | badRequest (lg : Value)
  | throws

/-- The errors of one field. -/
def numberErrors (field : String) (number parsed : JsNum) : List String :=
  (if number.isNaN then [field ++ " must be a integer value"] else []) ++
    (if parsed.isNegative then [field ++ " must be a positive integer value"] else [])

def sortOrderErrors (sortOrder : Value) : List String :=
  if !sortOrder.isString "asc" && !sortOrder.isString "desc" then
    ["sortOrder - has to be either asc or desc"]
  else []

/-- `Math.min(parsed || fallback, most)` -/
def clamped (parsed : JsNum) (fallback most : Nat) : JsNum :=
  (parsed.orElse (.fin fallback)).min (.fin most)

def rebuiltPage (limits : PageLimits) (incoming language : Value)
    (itemsPerPage currentPageNumber : JsNum) : Page where
  itemsPerPage := clamped itemsPerPage 5 limits.maxItemsPerPage
  currentPageNumber := clamped currentPageNumber 0 limits.maxPageNumber
  filterBy := (incoming.get "filterBy").orElse (.str [])
  sortOrder := (incoming.get "sortOrder").orElse (.ofString "desc")
  lg := language
  sortBy := if (incoming.get "sortBy").truthy then some (incoming.get "sortBy") else none
  offset :=
    (clamped itemsPerPage 5 limits.maxItemsPerPage).mul
      (clamped currentPageNumber 0 limits.maxPageNumber)

/-- The checks, on the two numbers as `isNaN` and as `parseInt` read them. -/
def checkedPage (limits : PageLimits) (incoming language : Value)
    (itemsNumber itemsPerPage pageNumber currentPageNumber : JsNum) : PageOutcome :=
  let errors :=
    numberErrors "itemsPerPage" itemsNumber itemsPerPage ++
      numberErrors "currentPageNumber" pageNumber currentPageNumber ++
        sortOrderErrors (incoming.get "sortOrder")
  if errors.length ≥ 1 then .badRequest language
  else .next (rebuiltPage limits incoming language itemsPerPage currentPageNumber)

/-- The middleware, on the body of a request. -/
def paginationData (limits : PageLimits) (body : Value) : PageOutcome :=
  let language := (body.get "lg").orElse (.ofString "en")
  let incoming := (body.get "paginationData").orElse (.obj [])
  let perPage := incoming.get "itemsPerPage"
  let page := incoming.get "currentPageNumber"
  match perPage.toNumber, perPage.toText, page.toNumber, page.toText with
  | some itemsNumber, some itemsText, some pageNumber, some pageText =>
    checkedPage limits incoming language itemsNumber (parseInt itemsText) pageNumber
      (parseInt pageText)
  | _, _, _, _ => .throws

/-! ### The bounds -/

/-- A whole number that is not negative becomes one that is not larger than allowed. It is not
zero where the default is not. -/
theorem exists_clamped {x : JsNum} (hwhole : x.IsWhole) (hsign : x.isNegative = false)
    {fallback most : Nat} (h : fallback ≤ most) :
    ∃ n : Nat, clamped x fallback most = .fin n ∧ n ≤ most ∧ (0 < fallback → 0 < n) := by
  have hdefault : x.isFalsy = true →
      ∃ n : Nat, clamped x fallback most = .fin n ∧ n ≤ most ∧ (0 < fallback → 0 < n) := by
    intro hfalsy
    refine ⟨fallback, ?_, h, id⟩
    rw [clamped, JsNum.orElse, if_pos hfalsy, JsNum.min_natCast,
      show Nat.min fallback most = fallback from Nat.min_eq_left h]
  cases hwhole with
  | nan => exact hdefault rfl
  | inf negative =>
    obtain rfl : negative = false := hsign
    exact ⟨most, rfl, Nat.le_refl most, fun hpos => Nat.lt_of_lt_of_le hpos h⟩
  | fin z =>
    have hz : 0 ≤ z := by
      have hnot : ¬ ((z : Rat) < 0) := of_decide_eq_false hsign
      exact Int.cast_nonneg_iff.mp (not_lt.mp hnot)
    obtain ⟨n, rfl⟩ := Int.eq_ofNat_of_zero_le hz
    have hcast : (((n : Int) : Rat)) = (n : Rat) := Int.cast_natCast n
    rw [hcast] at hdefault ⊢
    by_cases hn : n = 0
    · exact hdefault (by rw [JsNum.isFalsy_natCast, decide_eq_true hn])
    · refine ⟨min n most, ?_, Nat.min_le_right n most, fun hpos => ?_⟩
      · rw [clamped, JsNum.orElse, JsNum.isFalsy_natCast, decide_eq_false hn, if_neg Bool.false_ne_true,
          JsNum.min_natCast]
      · exact Nat.lt_min.mpr ⟨Nat.pos_of_ne_zero hn, Nat.lt_of_lt_of_le hpos h⟩

/-- A page within the bounds. -/
structure Page.Bounded (limits : PageLimits) (page : Page) : Prop where
  items : ∃ n : Nat, page.itemsPerPage = .fin n ∧ 1 ≤ n ∧ n ≤ limits.maxItemsPerPage
  number : ∃ n : Nat, page.currentPageNumber = .fin n ∧ n ≤ limits.maxPageNumber
  offset : page.offset = page.itemsPerPage.mul page.currentPageNumber
  order : page.sortOrder = .ofString "asc" ∨ page.sortOrder = .ofString "desc"

theorem sign_of_numberErrors {field : String} {number parsed : JsNum}
    (h : numberErrors field number parsed = []) : parsed.isNegative = false := by
  obtain ⟨-, hsign⟩ := List.append_eq_nil_iff.mp h
  by_contra hneg
  rw [if_pos (eq_true_of_ne_false hneg)] at hsign
  cases hsign

theorem order_of_sortOrderErrors {v : Value} (h : sortOrderErrors v = []) :
    v = .ofString "asc" ∨ v = .ofString "desc" := by
  by_cases hasc : v.isString "asc" = true
  · exact .inl (Value.eq_ofString hasc)
  · by_cases hdesc : v.isString "desc" = true
    · exact .inr (Value.eq_ofString hdesc)
    · rw [sortOrderErrors, if_pos (by simp [hasc, hdesc])] at h
      cases h

/-- What passes the checks is a page within the bounds. -/
theorem checkedPage_bounded {limits : PageLimits} (hitems : 5 ≤ limits.maxItemsPerPage)
    (incoming language : Value) (itemsNumber pageNumber : JsNum) {itemsPerPage number : JsNum}
    (hwhole : itemsPerPage.IsWhole) (hwhole' : number.IsWhole) :
    checkedPage limits incoming language itemsNumber itemsPerPage pageNumber number =
        .badRequest language ∨
      ∃ page, checkedPage limits incoming language itemsNumber itemsPerPage pageNumber number =
        .next page ∧ page.Bounded limits := by
  rw [checkedPage]
  by_cases herrors : (numberErrors "itemsPerPage" itemsNumber itemsPerPage ++
      numberErrors "currentPageNumber" pageNumber number ++
        sortOrderErrors (incoming.get "sortOrder")).length ≥ 1
  · exact .inl (if_pos herrors)
  · have hnil := List.eq_nil_of_length_eq_zero (Nat.lt_one_iff.mp (not_le.mp herrors))
    obtain ⟨hnumbers, horder⟩ := List.append_eq_nil_iff.mp hnil
    obtain ⟨hfirst, hsecond⟩ := List.append_eq_nil_iff.mp hnumbers
    refine .inr ⟨_, if_neg herrors, ?_, ?_, rfl, ?_⟩
    · obtain ⟨n, heq, hle, hpos⟩ :=
        exists_clamped hwhole (sign_of_numberErrors hfirst) hitems
      exact ⟨n, heq, hpos (by decide), hle⟩
    · obtain ⟨n, heq, hle, -⟩ :=
        exists_clamped hwhole' (sign_of_numberErrors hsecond) (Nat.zero_le limits.maxPageNumber)
      exact ⟨n, heq, hle⟩
    · rcases order_of_sortOrderErrors horder with hasc | hdesc
      · left
        rw [rebuiltPage, hasc]
        rfl
      · right
        rw [rebuiltPage, hdesc]
        rfl

/-- Below 2 ^ 53 the offset is the product itself. -/
theorem Page.Bounded.offset_eq {limits : PageLimits} {page : Page} (h : page.Bounded limits)
    (hsmall : limits.maxItemsPerPage * limits.maxPageNumber < 2 ^ 53) :
    ∃ m n : Nat, page.itemsPerPage = .fin m ∧ page.currentPageNumber = .fin n ∧
      page.offset = .fin (m * n : Nat) := by
  obtain ⟨m, hm, -, hmle⟩ := h.items
  obtain ⟨n, hn, hnle⟩ := h.number
  have hlt : m * n < 2 ^ 53 := Nat.lt_of_le_of_lt (Nat.mul_le_mul hmle hnle) hsmall
  refine ⟨m, n, hm, hn, ?_⟩
  rw [h.offset, hm, hn, JsNum.mul, ← Nat.cast_mul, JsNum.ofRat_natCast_of_lt hlt]

/-- Whatever a client sends, as long as neither number is an object: the middleware hands on a page
within the bounds, or it answers 400. -/
theorem paginationData_bounded (limits : PageLimits) (hitems : 5 ≤ limits.maxItemsPerPage)
    (body : Value)
    (hperPage : (((body.get "paginationData").orElse (.obj [])).get "itemsPerPage").IsPlain)
    (hpage : (((body.get "paginationData").orElse (.obj [])).get "currentPageNumber").IsPlain) :
    (∃ page, paginationData limits body = .next page ∧ page.Bounded limits ∧
        (limits.maxItemsPerPage * limits.maxPageNumber < 2 ^ 53 →
          ∃ m n : Nat, page.itemsPerPage = .fin m ∧ page.currentPageNumber = .fin n ∧
            page.offset = .fin (m * n : Nat))) ∨
      ∃ language, paginationData limits body = .badRequest language := by
  obtain ⟨itemsText, hitemsText⟩ := Option.isSome_iff_exists.mp hperPage.toText
  obtain ⟨pageText, hpageText⟩ := Option.isSome_iff_exists.mp hpage.toText
  obtain ⟨itemsNumber, hitemsNumber⟩ :=
    Option.isSome_iff_exists.mp (Value.toNumber_isSome hperPage.toText)
  obtain ⟨pageNumber, hpageNumber⟩ :=
    Option.isSome_iff_exists.mp (Value.toNumber_isSome hpage.toText)
  rw [paginationData, hitemsText, hpageText, hitemsNumber, hpageNumber]
  dsimp only
  rcases checkedPage_bounded hitems ((body.get "paginationData").orElse (.obj []))
    ((body.get "lg").orElse (.ofString "en")) itemsNumber pageNumber (isWhole_parseInt itemsText)
    (isWhole_parseInt pageText) with hbad | ⟨page, hnext, hbounded⟩
  · exact .inr ⟨_, hbad⟩
  · exact .inl ⟨page, hnext, hbounded, hbounded.offset_eq⟩

/-- A page of a text and a list: `"1e5"` is read as 1, and `[3]` as 3. -/
def mixedBody : Value :=
  .obj [(Text.ofString "paginationData",
    .obj [(Text.ofString "itemsPerPage", .ofString "1e5"),
      (Text.ofString "currentPageNumber", .arr [.num (.fin 3)]),
      (Text.ofString "sortOrder", .ofString "asc")])]

theorem paginationData_bounded_mixed :
    (∃ page, paginationData {} mixedBody = .next page ∧ page.Bounded {} ∧
        (100 * 10000 < 2 ^ 53 →
          ∃ m n : Nat, page.itemsPerPage = .fin m ∧ page.currentPageNumber = .fin n ∧
            page.offset = .fin (m * n : Nat))) ∨
      ∃ language, paginationData {} mixedBody = .badRequest language :=
  paginationData_bounded {} (by decide) mixedBody (.str (Text.ofString "1e5"))
    (.arr [.num (.fin 3)] fun _ hv => List.mem_singleton.mp hv ▸ .num (.fin 3))

example :
    (match paginationData {} mixedBody with
      | .next page => some (page.itemsPerPage, page.currentPageNumber, page.offset)
      | _ => none) = some (.fin 1, .fin 3, .fin 3) := by decide +kernel

end Feedbase
