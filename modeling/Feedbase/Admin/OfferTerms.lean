import Feedbase.Admin.Offers

/-!
# What an offer shows and what its discount charges

`createOffer` fixes the terms of an offer twice. The discount gets an amount in cents and
a number of billing periods; the row gets a price and a window, from which `shape` computes
what is displayed, at every later time anew.

## Main definitions

* `LaterOffers` — what becomes of the `offers` table and the clock after a request
* `ChargesShown` — the discounted price is the displayed one, and can be charged
* `LastsAsShown` — the discount lasts as many periods as displayed

## Main results

* `createOffer_ok` — the row and the discount of an accepted request
* `chargesShown_iff` — the displayed price is charged unless it lies halfway between two
  cents or below the smallest charge
* `lastsAsShown_iff` — the displayed periods are charged unless the window has an end two
  months away and no beginning
-/

namespace Feedbase

variable {cfg : Config} {w w' w₁ w₂ : World} {data : OfferData} {adminId id : Nat}
  {reply : Reply Nat} {d : PaddleDiscount} {row row' : Offer} {p : ℚ}

/-! ### Later states -/

/-- A step of another request on offers, or the passing of time. -/
inductive OffersStep (w w' : World) : Prop where
  | request (step : OfferStep w w')
  | tick (seconds : Nat) (eq : w' = { w with now := w.now + seconds })

def LaterOffers : World → World → Prop := Relation.ReflTransGen OffersStep

/-- A row as created, but perhaps switched off. -/
def Offer.Remains (row row' : Offer) : Prop := row' = row ∨ row' = row.switchedOff

theorem Offer.Remains.step (h : row.Remains row') (hrow : w.db.offers.byId id = some row')
    (hstep : OffersStep w w') : ∃ row'', row.Remains row'' ∧ w'.db.offers.byId id = some row'' := by
  have hoff : row.Remains row'.switchedOff := by
    obtain rfl | rfl := h
    · exact .inr rfl
    · exact .inr rfl
  cases hstep with
  | tick seconds heq =>
    subst heq
    exact ⟨row', h, hrow⟩
  | request hstep =>
    cases hstep with
    | quiet _ hoffers => exact ⟨row', h, hoffers ▸ hrow⟩
    | off q _ hoffers =>
      rw [hoffers, Sql.Table.byId_update, hrow]
      by_cases hq : q row' = true
      · exact ⟨row'.switchedOff, hoff, by simp [hq]⟩
      · exact ⟨row', h, by simp [hq]⟩
    | add new _ hins =>
      obtain ⟨hmem, hid⟩ := Sql.Table.byId_eq_some_iff.mp hrow
      exact ⟨row', h, Sql.Table.byId_eq_some_iff.mpr
        ⟨(Sql.Table.mem_insert? hins).mpr (.inl hmem), hid⟩⟩

theorem OffersStep.now_le (h : OffersStep w w') : w.now ≤ w'.now := by
  cases h with
  | tick seconds heq =>
    subst heq
    exact Nat.le_add_right _ _
  | request hstep =>
    cases hstep with
    | quiet hnow => exact hnow.ge
    | off _ hnow => exact hnow.ge
    | add _ hnow => exact hnow.ge

/-- An offer is never changed but for being switched off. -/
theorem LaterOffers.remains (hrow : w₁.db.offers.byId id = some row) (h : LaterOffers w₁ w₂) :
    w₁.now ≤ w₂.now ∧ ∃ row', row.Remains row' ∧ w₂.db.offers.byId id = some row' := by
  induction h with
  | refl => exact ⟨Nat.le_refl _, row, .inl rfl, hrow⟩
  | tail _ hstep ih =>
    obtain ⟨hnow, row', hremains, hrow'⟩ := ih
    exact ⟨hnow.trans hstep.now_le, hremains.step hrow' hstep⟩

theorem LaterOffers.tick (w : World) (seconds : Nat) :
    LaterOffers w { w with now := w.now + seconds } :=
  .single (.tick seconds rfl)

/-! ### The row and its discount -/

/-- Paddle is asked for a discount with the amount and the periods, or nothing happens. -/
theorem exec_createPaddleOfferDiscount_cases {plan : String} {interval : Interval}
    {originalPrice : Int} {periods : Option Nat} {r : Except Failure (Option String)}
    (h : (createPaddleOfferDiscount cfg plan interval originalPrice p periods).exec w = (r, w₁)) :
    w₁ = w ∨ ∃ d : PaddleDiscount, r = .ok (some d.id) ∧ w₁.now = w.now ∧ w₁.db = w.db ∧
      w₁.paddle.discounts = w.paddle.discounts ++ [d] ∧
        d.amount = mathRound ((originalPrice - p) * 100) ∧
          d.maximumRecurringIntervals = periods := by
  unfold createPaddleOfferDiscount at h
  split at h
  · cases h
    exact .inl rfl
  · rw [Prog.exec_bind, paddleDiscountsCreate, exec_call] at h
    by_cases hfails : w.fails .paddleDiscountsCreate = true
    · rw [if_pos hfails] at h
      cases h
      exact .inl rfl
    · rw [if_neg hfails] at h
      cases h
      exact .inr ⟨_, rfl, rfl, rfl, rfl, rfl, rfl⟩

/-- With Paddle active, a discount that was created is the one whose id is returned. -/
theorem exec_offerDiscounts_ok {plan : String} {interval : Interval} {originalPrice : Int}
    {startsAt endsAt : Option Time} {ids : Option String × Option String}
    (hactive : isPaddleActive cfg.env = true)
    (h : (offerDiscounts cfg plan interval originalPrice p startsAt endsAt).exec w =
      (.ok ids, w₁))
    (hd : w₁.paddle.discounts = w.paddle.discounts ++ [d]) :
    w₁.now = w.now ∧ w₁.db = w.db ∧ ids.2 = some d.id ∧
      d.amount = mathRound ((originalPrice - p) * 100) ∧
        d.maximumRecurringIntervals = offerDurationPeriods cfg w.now interval startsAt endsAt := by
  unfold offerDiscounts at h
  rw [if_pos hactive, Prog.exec_tryCatch, exec_getNow_bind, Prog.exec_bind] at h
  rcases hcreate : (createPaddleOfferDiscount cfg plan interval originalPrice p
    (offerDurationPeriods cfg w.now interval startsAt endsAt)).exec w with ⟨r, w₂⟩
  rw [hcreate] at h
  -- a failure of the discount is caught, and leaves the state that it has left
  obtain rfl : w₂ = w₁ := by
    cases r with
    | error e =>
      cases h
      rfl
    | ok found =>
      cases h
      rfl
  obtain rfl | ⟨d', rfl, hnow, hdb, hd', hamount, hperiods⟩ :=
    exec_createPaddleOfferDiscount_cases hcreate
  · exact absurd hd (by simp)
  · obtain rfl : d' = d := by
      rw [hd'] at hd
      exact List.singleton_injective (List.append_cancel_left hd)
    cases h
    exact ⟨hnow, hdb, rfl, hamount, hperiods⟩

/-- The `UPDATE` and the `INSERT` ask nothing of Paddle. -/
theorem exec_recordOffer_ok {interval : Interval} {originalPrice : Int}
    (hactive : isPaddleActive cfg.env = true)
    (h : (recordOffer cfg data interval originalPrice p adminId).exec w = (.ok reply, w₁))
    (hd : w₁.paddle.discounts = w.paddle.discounts ++ [d]) :
    w₁.now = w.now ∧ d.amount = mathRound ((originalPrice - p) * 100) ∧
      d.maximumRecurringIntervals =
        offerDurationPeriods cfg w.now interval data.startsAt data.endsAt ∧
      ∃ row, w₁.db.offers.byId reply.result = some row ∧ row.plan = data.plan ∧
        row.billingInterval = interval ∧ row.offerPrice = toDecimal p ∧
          row.startsAt = data.startsAt ∧ row.endsAt = data.endsAt ∧
            row.paddleDiscountId = some d.id ∧ row.isActive = true := by
  unfold recordOffer at h
  obtain ⟨ids, w₂, hids, h⟩ := Prog.exec_bind_ok_iff.mp h
  obtain ⟨⟨⟩, w₃, hoff, h⟩ := Prog.exec_bind_ok_iff.mp h
  obtain ⟨created, w₄, hins, h⟩ := Prog.exec_bind_ok_iff.mp h
  obtain ⟨-, hoff⟩ := exec_call_ok_iff.mp hoff
  obtain ⟨-, hins⟩ := exec_call_ok_iff.mp hins
  obtain ⟨offers, hadd, hins⟩ := Option.map_eq_some_iff.mp hins
  cases hoff
  cases hins
  cases h
  obtain ⟨hnow, -, hid, hamount, hperiods⟩ := exec_offerDiscounts_ok hactive hids hd
  refine ⟨hnow, hamount, hperiods, _,
    Sql.Table.byId_eq_some_iff.mpr ⟨(Sql.Table.mem_insert? hadd).mpr (.inr rfl), rfl⟩,
    rfl, rfl, rfl, rfl, rfl, hid, rfl⟩

/-- The row and the discount of a request that was accepted. -/
theorem createOffer_ok (hactive : isPaddleActive cfg.env = true)
    (h : (createOffer cfg data adminId).exec w = (.ok reply, w₁))
    (hd : w₁.paddle.discounts = w.paddle.discounts ++ [d]) :
    ∃ p, data.offerPrice = some p ∧ w₁.now = w.now ∧
      d.amount =
        mathRound ((listPrice data.plan (billingIntervalOf data.interval) - p) * 100) ∧
      d.maximumRecurringIntervals = offerDurationPeriods cfg w.now
        (billingIntervalOf data.interval) data.startsAt data.endsAt ∧
      ∃ row, w₁.db.offers.byId reply.result = some row ∧ row.plan = data.plan ∧
        row.billingInterval = billingIntervalOf data.interval ∧ row.offerPrice = toDecimal p ∧
          row.startsAt = data.startsAt ∧ row.endsAt = data.endsAt ∧
            row.paddleDiscountId = some d.id ∧ row.isActive = true := by
  unfold createOffer at h
  split at h
  · cases h
  · dsimp only at h
    cases hprice : data.offerPrice with
    | none =>
      rw [hprice] at h
      cases h
    | some p =>
      rw [hprice] at h
      dsimp only at h
      split at h
      · cases h
      · split at h
        · cases h
        · exact ⟨p, rfl, exec_recordOffer_ok hactive (Prog.exec_tryCatch_ok
            (fun e u => by cases e <;> exact ⟨_, rfl⟩) h) hd⟩

/-! ### The price -/

/-- What is left of a whole price after an amount rounded half up is rounded half down. -/
theorem sub_mathRound (n : Int) (x : ℚ) : n - mathRound (n - x) = ⌈x - 1 / 2⌉ := by
  have hround : mathRound (n - x) = ⌊(n : ℚ) - (x - 1 / 2)⌋ := by
    unfold mathRound
    congr 1
    ring
  have hfloor : ⌊(n : ℚ) - (x - 1 / 2)⌋ = n - ⌈x - 1 / 2⌉ := by
    rw [sub_eq_add_neg, Int.floor_intCast_add, Int.floor_neg, ← sub_eq_add_neg]
  omega

/-- Rounding halves down and rounding halves up differ at halves only. -/
theorem ceil_eq_mathRound_iff (x : ℚ) : ⌈x - 1 / 2⌉ = mathRound x ↔ Int.fract x ≠ 1 / 2 := by
  have hround : mathRound x = ⌊x - 1 / 2⌋ + 1 := by
    rw [← Int.floor_add_one]
    unfold mathRound
    congr 1
    ring
  rw [hround, Int.ceil_eq_floor_add_one_iff_notMem, not_iff_not]
  constructor
  · rintro ⟨n, hn⟩
    rw [Int.fract_eq_iff]
    exact ⟨by norm_num, by norm_num, n, hn.symm⟩
  · intro hfract
    exact ⟨⌊x⌋, by rw [← hfract, Int.self_sub_fract]⟩

/-- The smallest charge Paddle makes, `MIN_CHARGE_USD`, in cents. -/
def minChargeCents : Int := 70

/-- What Paddle charges in cents with the discount. -/
def chargedCents (row : Offer) (d : PaddleDiscount) : Int :=
  100 * listPrice row.plan row.billingInterval - d.amount

/-- The offer is backed by the discount, the discounted price is the one displayed whenever
the offer is shaped, and it can be charged. -/
def ChargesShown (cfg : Config) (w : World) (id : Nat) (d : PaddleDiscount) : Prop :=
  ∀ w', LaterOffers w w' → ∀ row, w'.db.offers.byId id = some row →
    row.paddleDiscountId = some d.id ∧
      (chargedCents row d : ℚ) = 100 * (shapeOffer cfg w'.now row).offerPrice ∧
        minChargeCents ≤ chargedCents row d

theorem Offer.Remains.offerPrice (h : row.Remains row') : row'.offerPrice = row.offerPrice := by
  obtain rfl | rfl := h <;> rfl

/-- The discount behind an offer leaves the price rounded to cents, halves down. -/
theorem chargedCents_eq (hamount : d.amount =
    mathRound ((listPrice row.plan row.billingInterval - p) * 100)) :
    chargedCents row d = ⌈100 * p - 1 / 2⌉ := by
  have hcents : ((listPrice row.plan row.billingInterval : ℚ) - p) * 100 =
      ((100 * listPrice row.plan row.billingInterval : Int) : ℚ) - 100 * p := by
    push_cast
    ring
  rw [chargedCents, hamount, hcents, sub_mathRound]

/-- The displayed price is charged, and can be charged, if and only if it does not lie
halfway between two cents and exceeds 69.5 cents. -/
theorem chargesShown_iff (hactive : isPaddleActive cfg.env = true)
    (hexec : (createOffer cfg data adminId).exec w = (.ok reply, w₁))
    (hd : w₁.paddle.discounts = w.paddle.discounts ++ [d]) (hprice : data.offerPrice = some p) :
    ChargesShown cfg w₁ reply.result d ↔ Int.fract (100 * p) ≠ 1 / 2 ∧ 139 / 2 < 100 * p := by
  obtain ⟨p', hp', -, hamount, -, row, hrow, hplan, hinterval, hshown, -, -, hid, -⟩ :=
    createOffer_ok hactive hexec hd
  obtain rfl : p' = p := Option.some.inj (hp'.symm.trans hprice)
  -- a row that is switched off later keeps its price, its plan and its interval
  have hcharged : ∀ row', row.Remains row' → chargedCents row' d = ⌈100 * p' - 1 / 2⌉ := by
    intro row' hremains
    refine chargedCents_eq ?_
    obtain rfl | rfl := hremains
    · rw [hplan, hinterval, hamount]
    · exact hamount.trans (by rw [← hplan, ← hinterval]; rfl)
  have hdisplayed : ∀ t, ∀ row', row.Remains row' →
      100 * (shapeOffer cfg t row').offerPrice = mathRound (100 * p') := by
    intro t row' hremains
    change 100 * row'.offerPrice = _
    rw [hremains.offerPrice, hshown, toDecimal, mul_comm p']
    ring
  -- 70 cents, rounded, are what is more than 69 and a half
  have hmin : minChargeCents ≤ ⌈100 * p' - 1 / 2⌉ ↔ 139 / 2 < 100 * p' := by
    rw [minChargeCents, show (70 : Int) = 69 + 1 from rfl, Int.add_one_le_iff, Int.lt_ceil]
    constructor
    · intro h
      push_cast at h
      linarith
    · intro h
      push_cast
      linarith
  constructor
  · intro h
    obtain ⟨-, hshow, hleast⟩ := h w₁ .refl row hrow
    rw [hcharged row (.inl rfl), hdisplayed _ row (.inl rfl), Int.cast_inj] at hshow
    rw [hcharged row (.inl rfl)] at hleast
    exact ⟨(ceil_eq_mathRound_iff _).mp hshow, hmin.mp hleast⟩
  · rintro ⟨hfract, hleast⟩ w₂ hlater row₂ hrow₂
    obtain ⟨-, row', hremains, hrow'⟩ := hlater.remains hrow
    obtain rfl : row' = row₂ := Option.some.inj (hrow'.symm.trans hrow₂)
    refine ⟨?_, ?_, ?_⟩
    · obtain rfl | rfl := hremains
      · exact hid
      · exact hid
    · rw [hcharged row' hremains, hdisplayed _ row' hremains, Int.cast_inj]
      exact (ceil_eq_mathRound_iff _).mpr hfract
    · rw [hcharged row' hremains]
      exact hmin.mpr hleast

/-- A monthly offer for Pro. -/
def proMonthly (price : ℚ) : OfferData where
  plan := "pro"
  interval := some "month"
  offerPrice := some price

/-- The discount of the first Pro offer. -/
def proDiscount (amount : Int) : PaddleDiscount where
  id := "dsc_0"
  restrictTo := ["pri_pro"]
  amount := amount

/-- The first offer created in an empty world. -/
def firstOffer (data : OfferData) : Except Failure (Reply Nat) × World :=
  (createOffer .paddleDemo data 1).exec {}

theorem firstOffer_eq (h : (firstOffer data).1.toOption = some reply) :
    (createOffer .paddleDemo data 1).exec {} = (.ok reply, (firstOffer data).2) := by
  unfold firstOffer at h ⊢
  rcases hexec : (createOffer .paddleDemo data 1).exec {} with ⟨e | r, w'⟩
  · rw [hexec] at h
    cases h
  · rw [hexec] at h
    cases h
    rfl

/-- An offer of eight dollars is charged as displayed. -/
theorem chargesShown_iff_eightDollars :
    ∃ reply w', (createOffer .paddleDemo (proMonthly 8) 1).exec {} = (.ok reply, w') ∧
      w'.paddle.discounts = [proDiscount 200] ∧
        ChargesShown .paddleDemo w' reply.result (proDiscount 200) := by
  have hexec := firstOffer_eq (show (firstOffer (proMonthly 8)).1.toOption =
    some ⟨201, "offer_created", 1⟩ by decide +kernel)
  have hd : (firstOffer (proMonthly 8)).2.paddle.discounts = [proDiscount 200] := by
    decide +kernel
  have hcents : (100 * 8 : ℚ) = ((800 : ℤ) : ℚ) := by norm_num
  refine ⟨_, _, hexec, hd, (chargesShown_iff rfl hexec hd rfl).mpr ?_⟩
  rw [hcents, Int.fract_intCast]
  norm_num

/-- An offer of 8.125 dollars is displayed a cent above its charge, and one of fifty cents
cannot be charged. -/
theorem accepted_offers_misprice :
    (∃ reply w', (createOffer .paddleDemo (proMonthly (65 / 8)) 1).exec {} =
        (.ok reply, w') ∧ w'.paddle.discounts = [proDiscount 188] ∧
      ¬ ChargesShown .paddleDemo w' reply.result (proDiscount 188)) ∧
    ∃ reply w', (createOffer .paddleDemo (proMonthly (1 / 2)) 1).exec {} =
        (.ok reply, w') ∧ w'.paddle.discounts = [proDiscount 950] ∧
      ¬ ChargesShown .paddleDemo w' reply.result (proDiscount 950) := by
  have hhalf := firstOffer_eq (show (firstOffer (proMonthly (65 / 8))).1.toOption =
    some ⟨201, "offer_created", 1⟩ by decide +kernel)
  have hlow := firstOffer_eq (show (firstOffer (proMonthly (1 / 2))).1.toOption =
    some ⟨201, "offer_created", 1⟩ by decide +kernel)
  refine ⟨⟨_, _, hhalf, by decide +kernel, fun h => ?_⟩,
    ⟨_, _, hlow, by decide +kernel, fun h => ?_⟩⟩
  · -- 812 cents are charged, and 8.13 is shown
    have hrow : ((firstOffer (proMonthly (65 / 8))).2.db.offers.byId 1).map (fun row =>
        (chargedCents row (proDiscount 188), row.offerPrice)) = some (812, 813 / 100) := by
      decide +kernel
    obtain ⟨row, hrow, heq⟩ := Option.map_eq_some_iff.mp hrow
    obtain ⟨hcharged, hprice⟩ := Prod.mk.inj heq
    have hshow := (h _ .refl row hrow).2.1
    rw [hcharged] at hshow
    change ((812 : Int) : ℚ) = 100 * row.offerPrice at hshow
    rw [hprice] at hshow
    norm_num at hshow
  · -- 50 cents are charged
    have hrow : ((firstOffer (proMonthly (1 / 2))).2.db.offers.byId 1).map (fun row =>
        chargedCents row (proDiscount 950)) = some 50 := by
      decide +kernel
    obtain ⟨row, hrow, hcharged⟩ := Option.map_eq_some_iff.mp hrow
    have hleast := (h _ .refl row hrow).2.2
    rw [hcharged] at hleast
    exact absurd hleast (by decide)

/-! ### The duration -/

/-- A bound of the window as an admin sends it: a date, a naive date and time, or an instant
with its zone. -/
inductive BoundText where
  | day (date : Nat × Nat × Nat)
  | wallClock (date : Nat × Nat × Nat) (second : Nat)
  | zoned (instant : Time)
  deriving DecidableEq

/-- `toLocalDateTime`, as the instant that `new Date` reads from its result. What is naive
is server-local; `localTime` says when the local clock shows a second of a day. -/
def toLocalDateTime (localTime : Nat × Nat × Nat → Nat → Time) (endOfDayIfDateOnly : Bool) :
    BoundText → Time
  | .day date => localTime date (if endOfDayIfDateOnly then 24 * 3600 - 1 else 0)
  | .wallClock date second => localTime date second
  | .zoned instant => instant

/-- The offer is backed by the discount, and whenever it is active the displayed number of
periods is the discount's. -/
def LastsAsShown (cfg : Config) (w : World) (id : Nat) (d : PaddleDiscount) : Prop :=
  ∀ w', LaterOffers w w' → ∀ row, w'.db.offers.byId id = some row →
    row.paddleDiscountId = some d.id ∧ (row.activeAt w'.now = true →
      (shapeOffer cfg w'.now row).durationPeriods = d.maximumRecurringIntervals)

/-- The months since year 0 on a date. -/
def monthNumber (date : Nat × Nat × Nat) : Nat := date.1 * 12 + date.2.1

/-- The first date is not after the second. -/
def DateLE (s e : Nat × Nat × Nat) : Prop :=
  monthNumber s < monthNumber e ∨ monthNumber s = monthNumber e ∧ s.2.2 ≤ e.2.2

/-- Two dates are less than two whole months apart. -/
def WithinTwoMonths (s e : Nat × Nat × Nat) : Prop :=
  monthNumber e < monthNumber s + 2 ∨ monthNumber e = monthNumber s + 2 ∧ e.2.2 < s.2.2

/-- The date that the local calendar shows never goes back. -/
def Config.DatesAdvance (cfg : Config) : Prop :=
  ∀ s t, s ≤ t → DateLE (cfg.dateOf s) (cfg.dateOf t)

theorem WithinTwoMonths.of_dateLE {s e : Nat × Nat × Nat} (h : DateLE e s) :
    WithinTwoMonths s e := by
  unfold DateLE at h
  unfold WithinTwoMonths
  omega

/-- The closer date is within two months as well. -/
theorem WithinTwoMonths.mono {s t e : Nat × Nat × Nat} (h : WithinTwoMonths s e)
    (hst : DateLE s t) : WithinTwoMonths t e := by
  unfold WithinTwoMonths at h ⊢
  unfold DateLE at hst
  omega

/-- An offer without a beginning shows one period as long as its end is near. -/
theorem offerDurationPeriods_eq_one_iff {now e : Time} :
    offerDurationPeriods cfg now .month none (some e) = some 1 ↔
      WithinTwoMonths (cfg.dateOf now) (cfg.dateOf e) := by
  rcases hs : cfg.dateOf now with ⟨sy, sm, sd⟩
  rcases he : cfg.dateOf e with ⟨ey, em, ed⟩
  unfold WithinTwoMonths monthNumber
  simp only [offerDurationPeriods, Option.map_some, Option.getD_none, hs, he, Option.some.injEq]
  by_cases hday : ed < sd
  · rw [if_pos hday]
    omega
  · rw [if_neg hday]
    omega

/-- The window decides on its own how long the offer lasts. -/
def WindowSettles (cfg : Config) (now : Time) (interval : Interval)
    (startsAt endsAt : Option Time) : Prop :=
  interval = .year ∨ startsAt.isSome = true ∨
    ∀ e, endsAt = some e → WithinTwoMonths (cfg.dateOf now) (cfg.dateOf e)

/-- A window that settles the duration settles it for good. -/
theorem WindowSettles.offerDurationPeriods_eq {now later : Time} {interval : Interval}
    {startsAt endsAt : Option Time} (hcal : cfg.DatesAdvance) (hlater : now ≤ later)
    (h : WindowSettles cfg now interval startsAt endsAt) :
    offerDurationPeriods cfg later interval startsAt endsAt =
      offerDurationPeriods cfg now interval startsAt endsAt := by
  rcases h with rfl | hstart | hend
  · rfl
  · obtain ⟨s, rfl⟩ := Option.isSome_iff_exists.mp hstart
    rfl
  · cases interval with
    | year => rfl
    | month =>
      cases startsAt with
      | some s => rfl
      | none =>
        cases endsAt with
        | none => rfl
        | some e =>
          have hnow := hend e rfl
          rw [offerDurationPeriods_eq_one_iff.mpr hnow,
            offerDurationPeriods_eq_one_iff.mpr (hnow.mono (hcal _ _ hlater))]

/-- At its end an offer without a beginning shows one period, so it must from the start. -/
theorem WindowSettles.of_end {now : Time} {interval : Interval} {startsAt endsAt : Option Time}
    (hcal : cfg.DatesAdvance) (h : startsAt = none → ∀ e, endsAt = some e → now ≤ e →
      offerDurationPeriods cfg e interval startsAt endsAt =
        offerDurationPeriods cfg now interval startsAt endsAt) :
    WindowSettles cfg now interval startsAt endsAt := by
  cases interval with
  | year => exact .inl rfl
  | month =>
    cases startsAt with
    | some s => exact .inr (.inl rfl)
    | none =>
      refine .inr (.inr fun e he => ?_)
      subst he
      by_cases hend : now ≤ e
      · have hone : offerDurationPeriods cfg e .month none (some e) = some 1 :=
          offerDurationPeriods_eq_one_iff.mpr (.of_dateLE (hcal e e (Nat.le_refl e)))
        exact offerDurationPeriods_eq_one_iff.mp ((h rfl e rfl hend).symm.trans hone)
      · exact .of_dateLE (hcal e now (Nat.le_of_not_le hend))

theorem Offer.Remains.eq_of_active {t : Time} (h : row.Remains row')
    (hactive : row'.activeAt t = true) : row' = row := by
  obtain rfl | rfl := h
  · rfl
  · cases hactive

/-- The discount lasts as many periods as displayed, whenever the offer is active, if and only
if the offer is yearly, has a beginning, or has no end two whole months away. -/
theorem lastsAsShown_iff (localTime : Nat × Nat × Nat → Nat → Time)
    (startsAt endsAt : Option BoundText) (hcal : cfg.DatesAdvance)
    (hactive : isPaddleActive cfg.env = true)
    (hexec : (createOffer cfg
      { data with
        startsAt := startsAt.map (toLocalDateTime localTime false)
        endsAt := endsAt.map (toLocalDateTime localTime true) } adminId).exec w = (.ok reply, w₁))
    (hd : w₁.paddle.discounts = w.paddle.discounts ++ [d]) :
    LastsAsShown cfg w₁ reply.result d ↔
      WindowSettles cfg w.now (billingIntervalOf data.interval)
        (startsAt.map (toLocalDateTime localTime false))
        (endsAt.map (toLocalDateTime localTime true)) := by
  generalize startsAt.map (toLocalDateTime localTime false) = starts at hexec ⊢
  generalize endsAt.map (toLocalDateTime localTime true) = ends at hexec ⊢
  obtain ⟨-, -, hnow, -, hperiods, row, hrow, hplan, hinterval, -, hstarts, hends, hid, hon⟩ :=
    createOffer_ok hactive hexec hd
  dsimp only at hperiods hinterval hstarts hends
  have hshown : ∀ t, (shapeOffer cfg t row).durationPeriods =
      offerDurationPeriods cfg t (billingIntervalOf data.interval) starts ends := by
    intro t
    rw [← hinterval, ← hstarts, ← hends]
    rfl
  constructor
  · intro h
    refine .of_end hcal fun hnone e he hend => ?_
    -- the offer is shown up to its last second
    have hlater : LaterOffers w₁ { w₁ with now := e } := by
      have htick := LaterOffers.tick w₁ (e - w₁.now)
      rwa [Nat.add_sub_cancel' (hnow ▸ hend)] at htick
    have hrow' : row.activeAt e = true := by
      rw [Offer.activeAt, hon, hstarts, hends, hnone, he]
      simp
    rw [← hshown, ← hperiods]
    exact (h _ hlater row hrow).2 hrow'
  · intro h w₂ hlater row₂ hrow₂
    obtain ⟨hle, row', hremains, hrow'⟩ := hlater.remains hrow
    obtain rfl : row' = row₂ := Option.some.inj (hrow'.symm.trans hrow₂)
    constructor
    · obtain rfl | rfl := hremains
      · exact hid
      · exact hid
    · intro hat
      obtain rfl := hremains.eq_of_active hat
      rw [hshown, hperiods]
      exact h.offerDurationPeriods_eq hcal (hnow ▸ hle)

/-- Months of thirty days advance. -/
theorem datesAdvance_plain (env : Env) : (Config.plain env).DatesAdvance := by
  intro s t hst
  change DateLE (s / (12 * 30 * 24 * 3600), s / (30 * 24 * 3600) % 12, s / (24 * 3600) % 30)
    (t / (12 * 30 * 24 * 3600), t / (30 * 24 * 3600) % 12, t / (24 * 3600) % 30)
  have hmonth : ∀ u : Nat, u / (30 * 24 * 3600) = u / (24 * 3600) / 30 := fun u =>
    (Nat.div_div_eq_div_mul u (24 * 3600) 30).symm
  have hyear : ∀ u : Nat, u / (12 * 30 * 24 * 3600) = u / (24 * 3600) / 30 / 12 := fun u => by
    rw [Nat.div_div_eq_div_mul, Nat.div_div_eq_div_mul]
  have hday : s / (24 * 3600) ≤ t / (24 * 3600) := Nat.div_le_div_right hst
  rw [hmonth, hmonth, hyear, hyear]
  generalize s / (24 * 3600) = i at hday ⊢
  generalize t / (24 * 3600) = j at hday ⊢
  obtain ⟨k, rfl⟩ := Nat.exists_eq_add_of_le hday
  unfold DateLE monthNumber
  dsimp only
  omega

/-- A hundred days, which are three months. -/
def hundredDays : Time := 100 * (24 * 3600)

/-- A monthly offer for Pro without a beginning. -/
def proUntil (endsAt : Time) : OfferData := { proMonthly 8 with endsAt := some endsAt }

/-- The discount of that offer lasts three months. -/
def proThreeMonths : PaddleDiscount := { proDiscount 200 with maximumRecurringIntervals := some 3 }

/-- An offer for the next forty days is shown for one month for as long as it is shown. -/
theorem lastsAsShown_iff_fortyDays :
    ∃ reply w', (createOffer .paddleDemo (proUntil (40 * (24 * 3600))) 1).exec {} =
        (.ok reply, w') ∧
      w'.paddle.discounts = [{ proDiscount 200 with maximumRecurringIntervals := some 1 }] ∧
        LastsAsShown .paddleDemo w' reply.result
          { proDiscount 200 with maximumRecurringIntervals := some 1 } := by
  have hexec := firstOffer_eq (show (firstOffer (proUntil (40 * (24 * 3600)))).1.toOption =
    some ⟨201, "offer_created", 1⟩ by decide +kernel)
  have hd : (firstOffer (proUntil (40 * (24 * 3600)))).2.paddle.discounts =
      [{ proDiscount 200 with maximumRecurringIntervals := some 1 }] := by
    decide +kernel
  refine ⟨_, _, hexec, hd, (lastsAsShown_iff (fun _ second => second) none
    (some (.zoned (40 * (24 * 3600)))) (datesAdvance_plain _) rfl hexec hd).mpr ?_⟩
  refine .inr (.inr fun e he => .inl ?_)
  cases he
  decide +kernel

/-- After forty days a discount of three months is displayed as one of two. -/
theorem open_start_shrinks_duration :
    ∃ reply w', (createOffer .paddleDemo (proUntil hundredDays) 1).exec {} = (.ok reply, w') ∧
      w'.paddle.discounts = [proThreeMonths] ∧
        ¬ LastsAsShown .paddleDemo w' reply.result proThreeMonths := by
  have hexec := firstOffer_eq (show (firstOffer (proUntil hundredDays)).1.toOption =
    some ⟨201, "offer_created", 1⟩ by decide +kernel)
  refine ⟨_, _, hexec, by decide +kernel, fun h => ?_⟩
  have hrow : ((firstOffer (proUntil hundredDays)).2.db.offers.byId 1).map (fun row =>
      (row.activeAt (40 * (24 * 3600)),
        (shapeOffer .paddleDemo (40 * (24 * 3600)) row).durationPeriods)) =
        some (true, some 2) := by
    decide +kernel
  obtain ⟨row, hrow, heq⟩ := Option.map_eq_some_iff.mp hrow
  obtain ⟨hactive, hperiods⟩ := Prod.mk.inj heq
  have hnow : (firstOffer (proUntil hundredDays)).2.now = 0 := by decide +kernel
  generalize (firstOffer (proUntil hundredDays)).2 = w' at h hrow hnow
  generalize 40 * (24 * 3600) = t at hactive hperiods
  have hlasts := (h _ (LaterOffers.tick w' t) row hrow).2
  rw [hnow, Nat.zero_add] at hlasts
  have htwo := hperiods.symm.trans (hlasts hactive)
  exact absurd htwo (by decide)

end Feedbase
