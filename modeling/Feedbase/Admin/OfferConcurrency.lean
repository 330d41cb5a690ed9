import Feedbase.Admin.Offers
import Feedbase.Billing.Checkout
import Feedbase.Lib.Pool

/-!
# Offers shown and offers charged

The display path drops the rows without a discount and then picks the most recent one;
the charging path picks the most recent one and then looks for its discount. The two
agree as long as no two active rows of a plan and interval compete. Two `createOffer`
requests can interleave between the `UPDATE` and the `INSERT`, and then they may not.

## Main definitions

* `Offer.Competes` — the two paths may disagree about two active rows
* `AppliesShown` — what is shown for a plan and interval is what a checkout charges
* `offerSystem`, `InsertsApart`

## Main results

* `appliesShown_of_apart` — rows that do not compete are shown as they are charged
* `offers_applied` — in every run whose inserts meet no competing row
* `competing_insert` — an insert next to a competing row breaks the agreement
-/

namespace Feedbase

variable {cfg : Config} {w w' : World} {plan : String} {interval : Interval}

/-! ### Competing rows -/

/-- The later row `b` hides the discount of `a` from the checkout, or ties with it. -/
def Offer.Competes (env : Env) (a b : Offer) : Prop :=
  a.plan = b.plan ∧ a.billingInterval = b.billingInterval ∧
    (∃ t, a.activeAt t ∧ b.activeAt t) ∧
    if a.createdAt < b.createdAt then isHonourable env a = true ∧ isHonourable env b = false
    else isHonourable env a = true ∨ isHonourable env b = true

/-- No two rows compete. -/
def Apart (env : Env) (offers : Sql.Table Offer) : Prop :=
  ∀ a ∈ offers, ∀ b ∈ offers, a ≠ b → a.createdAt ≤ b.createdAt → ¬ a.Competes env b

/-- Whatever is shown for the plan and interval is the row that is charged, and a checkout
without a promo code attaches its discount. `display` and `charge` are the orders in which
the two queries return rows. -/
def AppliesShown (cfg : Config) (w : World) (plan : String) (interval : Interval) : Prop :=
  ∀ (t : Time) (display charge : RecentFirst) (shown : List PublicOffer) (w₁ : World),
    (getActiveOffers cfg).exec { w with now := t, recentFirst := display } = (.ok shown, w₁) →
    shownOffer shown plan interval = none ∨
    ∃ offer discountId, shownOffer shown plan interval = some offer.toPublicOffer ∧
      offer.paddleDiscountId = some discountId ∧
      (∃ w₂, (getActiveOfferForPlanInterval cfg plan interval).exec
        { w with now := t, recentFirst := charge } = (.ok (some offer), w₂)) ∧
      ∀ auth text reply w₂, billingIntervalOf text = interval →
        (createCheckout cfg plan auth none text).exec
          { w with now := t, recentFirst := charge } = (.ok reply, w₂) →
        ∃ txn, w₂.paddle.transactions = w.paddle.transactions ++ [txn] ∧
          txn.discountId = some discountId

/-- The row the charging path picks. -/
def chargedRow (order : RecentFirst) (rows : List Offer) (now : Time) (plan : String)
    (interval : Interval) : Option Offer :=
  (order.sort (rows.filter fun row =>
    row.plan == plan && row.billingInterval == interval && row.activeAt now)).head?

theorem activeOfferFor_eq (order : RecentFirst) (rows : List Offer) (now : Time) :
    activeOfferFor cfg order rows now plan interval =
      (chargedRow order rows now plan interval).map (shapeOffer cfg now) := rfl

theorem displayedRow_eq_some {order : RecentFirst} {rows : List Offer} {t : Time} {a : Offer}
    (h : displayedRow cfg order rows t plan interval = some a) :
    a ∈ rows ∧ a.activeAt t ∧ isHonourable cfg.env a ∧ a.plan = plan ∧
      a.billingInterval = interval := by
  have hmem := order.mem_sort.mp (List.mem_of_find?_eq_some h)
  have hp := List.find?_some h
  simp only [List.mem_filter] at hmem
  simp only [Bool.and_eq_true, beq_iff_eq] at hp
  exact ⟨hmem.1, hmem.2, hp.1, hp.2.1, hp.2.2⟩

theorem chargedRow_eq_some {order : RecentFirst} {rows : List Offer} {t : Time} {b : Offer}
    (h : chargedRow order rows t plan interval = some b) :
    b ∈ rows ∧ b.activeAt t ∧ b.plan = plan ∧ b.billingInterval = interval := by
  have hmem := order.mem_sort.mp (List.mem_of_head? h)
  simp only [List.mem_filter, Bool.and_eq_true, beq_iff_eq] at hmem
  exact ⟨hmem.1, hmem.2.2, hmem.2.1.1, hmem.2.1.2⟩

/-- The charged row is a most recent one of the active rows of its plan and interval. -/
theorem createdAt_le_chargedRow {order : RecentFirst} {rows : List Offer} {t : Time} {a b : Offer}
    (h : chargedRow order rows t plan interval = some b) (ha : a ∈ rows) (hactive : a.activeAt t)
    (hplan : a.plan = plan) (hinterval : a.billingInterval = interval) :
    a.createdAt ≤ b.createdAt := by
  obtain ⟨rest, hrest⟩ := List.head?_eq_some_iff.mp h
  have hsorted := order.sorted (rows.filter fun row =>
    row.plan == plan && row.billingInterval == interval && row.activeAt t)
  have hmem : a ∈ order.sort (rows.filter fun row =>
      row.plan == plan && row.billingInterval == interval && row.activeAt t) :=
    order.mem_sort.mpr (List.mem_filter.mpr ⟨ha, by simp [hplan, hinterval, hactive]⟩)
  rw [hrest] at hsorted hmem
  rcases List.mem_cons.mp hmem with rfl | hmem
  · exact Nat.le_refl _
  · exact List.rel_of_pairwise_cons hsorted hmem

/-- The displayed row is a most recent one of those with a discount. -/
theorem createdAt_le_displayedRow {order : RecentFirst} {rows : List Offer} {t : Time}
    {a b : Offer} (h : displayedRow cfg order rows t plan interval = some a) (hb : b ∈ rows)
    (hactive : b.activeAt t) (hhon : isHonourable cfg.env b) (hplan : b.plan = plan)
    (hinterval : b.billingInterval = interval) : b.createdAt ≤ a.createdAt :=
  order.createdAt_le_of_find? h (List.mem_filter.mpr ⟨hb, hactive⟩)
    (by simp [hhon, hplan, hinterval])

/-- Among rows that do not compete, the displayed row is the charged one. -/
theorem chargedRow_of_displayedRow {offers : Sql.Table Offer} (hapart : Apart cfg.env offers)
    {display : RecentFirst} (charge : RecentFirst) {t : Time} {a : Offer}
    (ha : displayedRow cfg display offers.rows t plan interval = some a) :
    chargedRow charge offers.rows t plan interval = some a := by
  obtain ⟨hmem, hactive, hhon, hplan, hinterval⟩ := displayedRow_eq_some ha
  cases hb : chargedRow charge offers.rows t plan interval with
  | none =>
    -- the displayed row is one of those that the checkout looks through
    have hin : a ∈ charge.sort (offers.rows.filter fun row =>
        row.plan == plan && row.billingInterval == interval && row.activeAt t) :=
      charge.mem_sort.mpr (List.mem_filter.mpr ⟨hmem, by simp [hplan, hinterval, hactive]⟩)
    rw [List.head?_eq_none_iff.mp hb] at hin
    cases hin
  | some b =>
    obtain ⟨hbmem, hbactive, hbplan, hbinterval⟩ := chargedRow_eq_some hb
    by_cases heq : a = b
    · rw [heq]
    -- the charged row is no older, so the two would compete
    have hle := createdAt_le_chargedRow hb hmem hactive hplan hinterval
    have hno := hapart a hmem b hbmem heq hle
    by_cases hlt : a.createdAt < b.createdAt
    · -- a later row without a competitor has a discount of its own, so it was shown first
      have hbhon : isHonourable cfg.env b = true := by
        by_contra hfalse
        refine hno ⟨hplan.trans hbplan.symm, hinterval.trans hbinterval.symm,
          ⟨t, hactive, hbactive⟩, ?_⟩
        rw [if_pos hlt]
        exact ⟨hhon, by simpa using hfalse⟩
      have hge := createdAt_le_displayedRow ha hbmem hbactive hbhon hbplan hbinterval
      exact absurd hlt (Nat.not_lt.mpr hge)
    · refine absurd ⟨hplan.trans hbplan.symm, hinterval.trans hbinterval.symm,
        ⟨t, hactive, hbactive⟩, ?_⟩ hno
      rw [if_neg hlt]
      exact .inl hhon

/-- Rows that do not compete are shown as they are charged. -/
theorem appliesShown_of_apart (hpaddle : isPaddleActive cfg.env = true)
    (hapart : Apart cfg.env w.db.offers) : AppliesShown cfg w plan interval := by
  intro t display charge shown w₁ hshown
  rw [getActiveOffers, Prog.exec_read] at hshown
  cases hshown
  rw [shownOffer_activeOffersOf]
  cases ha : displayedRow cfg display w.db.offers.rows t plan interval with
  | none => exact .inl rfl
  | some a =>
    have hcharged := chargedRow_of_displayedRow hapart charge ha
    obtain ⟨-, -, hhon, -, -⟩ := displayedRow_eq_some ha
    have hid : (orNull a.paddleDiscountId).isSome := by
      simpa [isHonourable, hpaddle] using hhon
    obtain ⟨discountId, hid⟩ := Option.isSome_iff_exists.mp hid
    have hoffer : activeOfferFor cfg charge w.db.offers.rows t plan interval =
        some (shapeOffer cfg t a) := by
      rw [activeOfferFor_eq, hcharged]
      rfl
    refine .inr ⟨_, discountId, rfl, hid, ⟨{ w with now := t, recentFirst := charge }, ?_⟩, ?_⟩
    · rw [getActiveOfferForPlanInterval, Prog.exec_read]
      exact congrArg (fun o => (Except.ok o, _)) hoffer
    · intro auth text reply w₂ htext hcheckout
      obtain ⟨txn, htxns, -, hdiscount⟩ := createCheckout_attaches hcheckout
      refine ⟨txn, htxns, ?_⟩
      rw [hdiscount, htext]
      exact (congrArg (·.bind (·.paddleDiscountId)) hoffer).trans hid

/-- Two paths that pick different rows disagree. -/
theorem not_appliesShown {t : Time} {display charge : RecentFirst} {a b : Offer}
    (ha : displayedRow cfg display w.db.offers.rows t plan interval = some a)
    (hb : chargedRow charge w.db.offers.rows t plan interval = some b) (hne : a ≠ b) :
    ¬ AppliesShown cfg w plan interval := by
  intro happlies
  have hshown : shownOffer (activeOffersOf cfg display w.db.offers.rows t) plan interval =
      some (shapeOffer cfg t a).toPublicOffer := by
    rw [shownOffer_activeOffersOf, ha]
    rfl
  rcases happlies t display charge _ _ (Prog.exec_read _ _) with hnone | hsome
  · exact absurd (hshown.symm.trans hnone) (by simp)
  · obtain ⟨offer, -, hoffer, -, ⟨w₂, hcharge⟩, -⟩ := hsome
    have hcharged : some offer = some (shapeOffer cfg t b) := by
      have hread : Except.ok (activeOfferFor cfg charge w.db.offers.rows t plan interval) =
          Except.ok (some offer) := congrArg Prod.fst ((Prog.exec_read _ _).symm.trans hcharge)
      rw [activeOfferFor_eq, hb] at hread
      exact (Except.ok.inj hread).symm
    rw [Option.some.inj hcharged] at hoffer
    have hid : a.id = b.id := congrArg PublicOffer.id (Option.some.inj (hshown.symm.trans hoffer))
    exact hne (w.db.offers.eq_of_id (displayedRow_eq_some ha).1 (chargedRow_eq_some hb).1 hid)

theorem exists_displayedRow {t : Time} (display : RecentFirst) {a : Offer} (ha : a ∈ w.db.offers)
    (hactive : a.activeAt t) (hhon : isHonourable cfg.env a) :
    ∃ d, displayedRow cfg display w.db.offers.rows t a.plan a.billingInterval = some d := by
  refine Option.isSome_iff_exists.mp (List.find?_isSome.mpr ⟨a, ?_, by simp [hhon]⟩)
  exact display.mem_sort.mpr (List.mem_filter.mpr ⟨ha, hactive⟩)

theorem chargedRow_favour {t : Time} {b : Offer} (hb : b ∈ w.db.offers) (hactive : b.activeAt t)
    (hmax : ∀ c ∈ w.db.offers, c.createdAt ≤ b.createdAt) :
    chargedRow (.favour b) w.db.offers.rows t b.plan b.billingInterval = some b := by
  have hmem : b ∈ w.db.offers.rows.filter fun row =>
      row.plan == b.plan && row.billingInterval == b.billingInterval && row.activeAt t :=
    List.mem_filter.mpr ⟨hb, by simp [hactive]⟩
  obtain ⟨rest, hrest⟩ := RecentFirst.sort_favour hmem fun c hc =>
    hmax c (List.mem_of_mem_filter hc)
  rw [chargedRow, hrest]
  rfl

/-- A youngest row with a competitor is charged where the other is shown. -/
theorem not_appliesShown_of_competes {a b : Offer} (ha : a ∈ w.db.offers) (hb : b ∈ w.db.offers)
    (hne : a ≠ b) (hmax : ∀ c ∈ w.db.offers, c.createdAt ≤ b.createdAt)
    (hcomp : a.Competes cfg.env b) : ¬ AppliesShown cfg w b.plan b.billingInterval := by
  obtain ⟨hplan, hinterval, ⟨t, hat, hbt⟩, hhon⟩ := hcomp
  -- a charged row without a discount is never the one shown
  have hwithout : ∀ x ∈ w.db.offers, x.plan = b.plan → x.billingInterval = b.billingInterval →
      x.activeAt t → (∀ c ∈ w.db.offers, c.createdAt ≤ x.createdAt) →
      isHonourable cfg.env x = false → ∀ y ∈ w.db.offers, y.plan = b.plan →
      y.billingInterval = b.billingInterval → y.activeAt t → isHonourable cfg.env y = true →
      ¬ AppliesShown cfg w b.plan b.billingInterval := by
    intro x hx hxplan hxinterval hxt hxmax hxhon y hy hyplan hyinterval hyt hyhon
    obtain ⟨d, hd⟩ := exists_displayedRow .stable hy hyt hyhon
    rw [hyplan, hyinterval] at hd
    have hc := chargedRow_favour hx hxt hxmax
    rw [hxplan, hxinterval] at hc
    refine not_appliesShown hd hc fun heq => ?_
    have hdhon := (displayedRow_eq_some hd).2.2.1
    rw [heq, hxhon] at hdhon
    cases hdhon
  -- a row that is older competes by its discount; of two from one second either may come first
  by_cases hlt : a.createdAt < b.createdAt
  · rw [if_pos hlt] at hhon
    exact hwithout b hb rfl rfl hbt hmax hhon.2 a ha hplan hinterval hat hhon.1
  rw [if_neg hlt] at hhon
  have htie : ∀ c ∈ w.db.offers, c.createdAt ≤ a.createdAt := fun c hc =>
    (hmax c hc).trans (Nat.not_lt.mp hlt)
  cases hahon : isHonourable cfg.env a with
  | false =>
    have hbhon : isHonourable cfg.env b = true := by
      rcases hhon with h | h
      · rw [hahon] at h
        cases h
      · exact h
    exact hwithout a ha hplan hinterval hat htie hahon b hb rfl rfl hbt hbhon
  | true =>
    cases hbhon : isHonourable cfg.env b with
    | false => exact hwithout b hb rfl rfl hbt hmax hbhon a ha hplan hinterval hat hahon
    | true =>
      -- both have a discount: one query may return one first, the other the other
      have hmem : a ∈ w.db.offers.rows.filter (·.activeAt t) := List.mem_filter.mpr ⟨ha, hat⟩
      obtain ⟨rest, hrest⟩ := RecentFirst.sort_favour hmem fun c hc =>
        htie c (List.mem_of_mem_filter hc)
      have hd : displayedRow cfg (.favour a) w.db.offers.rows t b.plan b.billingInterval =
          some a := by
        rw [displayedRow, hrest, List.find?_cons_of_pos]
        simp [hahon, hplan, hinterval]
      exact not_appliesShown hd (chargedRow_favour hb hbt hmax) hne

/-! ### Runs -/

/-- A request to one of the two endpoints. -/
inductive OfferRequest where
  | create (data : OfferData) (adminId : Nat)
  | deactivate (id : Nat)

/-- What else may happen meanwhile: time passes, calls of the providers start to fail, and
anything that does not touch the offers. -/
def OfferEnv : Type :=
  { f : World → World // ∀ w, (f w).db.offers = w.db.offers ∧ w.now ≤ (f w).now }

def offerSystem (cfg : Config) : System World Failure Unit OfferRequest OfferEnv where
  handler
    | .create data adminId => do
      let _ ← createOffer cfg data adminId
      return ()
    | .deactivate id => do
      let _ ← deactivateOffer id
      return ()
  env e := e.1

/-- A row that is new in `Q` competes with no row of `P`. -/
def InsertsApart (env : Env) (P Q : Pool World Failure Unit OfferRequest) : Prop :=
  ∀ row ∈ Q.state.db.offers, (∀ a ∈ P.state.db.offers, a.id ≠ row.id) →
    ∀ a ∈ P.state.db.offers, ¬ a.Competes env row

/-- What holds of the offers in every run: no row is younger than the clock. -/
structure OffersSound (env : Env) (w : World) : Prop where
  past : ∀ a ∈ w.db.offers, a.createdAt ≤ w.now
  apart : Apart env w.db.offers

/-- Switching rows off adds no competitors. -/
theorem OffersSound.off {env : Env} {offers : Sql.Table Offer} {p : Offer → Bool}
    (hapart : Apart env offers) :
    Apart env (offers.update p Offer.switchedOff Offer.keyless_switchedOff) := by
  intro a ha b hb hne hle hcomp
  obtain ⟨-, -, ⟨t, hat, hbt⟩, -⟩ := id hcomp
  simp only [Sql.Table.mem_update] at ha hb
  obtain ⟨a', ha', rfl⟩ := ha
  obtain ⟨b', hb', rfl⟩ := hb
  by_cases hpa : p a'
  · rw [if_pos hpa] at hat
    cases hat
  by_cases hpb : p b'
  · rw [if_pos hpb] at hbt
    cases hbt
  rw [if_neg hpa, if_neg hpb] at hne hle hcomp
  exact hapart a' ha' b' hb' hne hle hcomp

theorem OffersSound.add {env : Env} {row : Offer} {offers : Sql.Table Offer}
    (h : OffersSound env w)
    (hins : w.db.offers.insert? (fun id => { row with id := id, createdAt := w.now }) = some offers)
    (hnew : ∀ b ∈ offers, (∀ a ∈ w.db.offers, a.id ≠ b.id) →
      ∀ a ∈ w.db.offers, ¬ a.Competes env b) : Apart env offers := by
  intro a ha b hb hne hle
  rcases (Sql.Table.mem_insert? hins).mp ha with ha' | rfl
  · rcases (Sql.Table.mem_insert? hins).mp hb with hb' | rfl
    · exact h.apart a ha' b hb' hne hle
    · refine hnew _ hb (fun c hc => ?_) a ha'
      exact Nat.ne_of_lt (w.db.offers.id_lt c hc)
  · rcases (Sql.Table.mem_insert? hins).mp hb with hb' | rfl
    · -- the older row was created in this very second: a tie counts both ways
      intro hcomp
      have hpast := h.past b hb'
      obtain ⟨hplan, hinterval, ⟨t, hat, hbt⟩, hhon⟩ := hcomp
      refine hnew _ ha (fun c hc => Nat.ne_of_lt (w.db.offers.id_lt c hc)) b hb'
        ⟨hplan.symm, hinterval.symm, ⟨t, hbt, hat⟩, ?_⟩
      rw [if_neg (by simpa using hpast)] at hhon
      rw [if_neg (by simpa using hle)]
      exact hhon.symm
    · exact absurd rfl hne

/-- One step of a request keeps the offers sound, if an inserted row has no competitor. -/
theorem OffersSound.step {env : Env} (h : OffersSound env w) (hstep : OfferStep w w')
    (hnew : ∀ b ∈ w'.db.offers, (∀ a ∈ w.db.offers, a.id ≠ b.id) →
      ∀ a ∈ w.db.offers, ¬ a.Competes env b) : OffersSound env w' := by
  cases hstep with
  | quiet now offers => exact ⟨by rw [offers, now]; exact h.past, by rw [offers]; exact h.apart⟩
  | off p now offers =>
    refine ⟨fun a ha => ?_, by rw [offers]; exact OffersSound.off h.apart⟩
    rw [offers] at ha
    simp only [Sql.Table.mem_update] at ha
    obtain ⟨b, hb, rfl⟩ := ha
    have hpast := h.past b hb
    rw [now]
    split <;> exact hpast
  | add row now offers =>
    refine ⟨fun a ha => ?_, h.add offers hnew⟩
    rw [now]
    rcases (Sql.Table.mem_insert? offers).mp ha with ha | rfl
    · exact h.past a ha
    · exact Nat.le_refl _

theorem within_offerRequest (r : OfferRequest) :
    Prog.Within OfferStep ((offerSystem cfg).handler r) := by
  cases r with
  | create data adminId => exact .bind (within_createOffer data adminId) fun _ => .pure _
  | deactivate id => exact .bind (within_deactivateOffer id) fun _ => .pure _

/-- The offers stay sound in every run whose inserts meet no competing row. -/
theorem offersSound_of_run {P Q : Pool World Failure Unit OfferRequest}
    (hsound : OffersSound cfg.env P.state)
    (hcalls : ∀ c ∈ P.calls, Prog.Within OfferStep c.prog)
    (hrun : (offerSystem cfg).Run (InsertsApart cfg.env) P Q) :
    OffersSound cfg.env Q.state ∧ ∀ c ∈ Q.calls, Prog.Within OfferStep c.prog := by
  induction hrun with
  | refl => exact ⟨hsound, hcalls⟩
  | tail _ hstep ih =>
    obtain ⟨⟨m, hm⟩, hnew⟩ := hstep
    obtain ⟨hsound, hcalls⟩ := ih
    rcases System.move_within within_offerRequest hcalls hm with
      ⟨hwithin, hstate | ⟨e, hstate⟩ | hstep⟩
    · exact ⟨hstate ▸ hsound, hwithin⟩
    · refine ⟨?_, hwithin⟩
      obtain ⟨hoffers, hnow⟩ := e.2 _
      rw [hstate]
      refine ⟨fun a ha => ?_, ?_⟩
      · have hpast := hsound.past a (hoffers ▸ ha)
        exact hpast.trans hnow
      · have hapart := hsound.apart
        rw [← hoffers] at hapart
        exact hapart
    · exact ⟨hsound.step hstep hnew, hwithin⟩

theorem offersSound_of_empty {env : Env} (hempty : w.db.offers = .empty) : OffersSound env w := by
  refine ⟨fun a ha => ?_, fun a ha => ?_⟩
  · rw [hempty] at ha
    exact absurd ha Sql.Table.not_mem_empty
  · rw [hempty] at ha
    exact absurd ha Sql.Table.not_mem_empty

/-- In every run of `createOffer` and `deactivateOffer` whose inserts meet no competing
row, no offer is shown that a checkout does not apply. -/
theorem offers_applied (hpaddle : isPaddleActive cfg.env = true) {w₀ : World}
    (hempty : w₀.db.offers = .empty) {Q : Pool World Failure Unit OfferRequest}
    (hrun : (offerSystem cfg).Run (InsertsApart cfg.env) ⟨w₀, []⟩ Q) (plan : String)
    (interval : Interval) : AppliesShown cfg Q.state plan interval := by
  exact appliesShown_of_apart hpaddle
    (offersSound_of_run (offersSound_of_empty hempty)
      (fun _ h => absurd h List.not_mem_nil) hrun).1.apart

/-- And only in those: an insert next to a competing row breaks the agreement at once. -/
theorem competing_insert {w₀ : World} (hempty : w₀.db.offers = .empty)
    {P Q : Pool World Failure Unit OfferRequest}
    (hrun : (offerSystem cfg).Run (InsertsApart cfg.env) ⟨w₀, []⟩ P)
    {m : Move OfferRequest OfferEnv} (hm : (offerSystem cfg).move P m = some Q)
    (hcompetes : ¬ InsertsApart cfg.env P Q) :
    ∃ plan interval, ¬ AppliesShown cfg Q.state plan interval := by
  obtain ⟨hsound, hcalls⟩ := offersSound_of_run (offersSound_of_empty hempty)
    (fun _ h => absurd h List.not_mem_nil) hrun
  obtain ⟨b, hb, hnew, a, ha, hcomp⟩ : ∃ b ∈ Q.state.db.offers,
      (∀ a ∈ P.state.db.offers, a.id ≠ b.id) ∧ ∃ a ∈ P.state.db.offers, a.Competes cfg.env b := by
    simpa [InsertsApart] using hcompetes
  have hold : ∀ c ∈ P.state.db.offers, c.id ≠ b.id := hnew
  -- only the statement that inserts adds a row
  rcases (System.move_within within_offerRequest hcalls hm).2 with hstate | ⟨e, hstate⟩ | hstep
  · rw [hstate] at hb
    exact absurd rfl (hold b hb)
  · rw [hstate] at hb
    have hoffers : (e.1 P.state).db.offers = P.state.db.offers := (e.2 _).1
    exact absurd rfl (hold b (hoffers ▸ hb))
  · cases hstep with
    | quiet now offers => exact absurd rfl (hold b (offers ▸ hb))
    | off p now offers =>
      rw [offers] at hb
      simp only [Sql.Table.mem_update] at hb
      obtain ⟨c, hc, rfl⟩ := hb
      refine absurd ?_ (hold c hc)
      split <;> rfl
    | add row now offers =>
      obtain rfl : b = { row with id := P.state.db.offers.next, createdAt := P.state.now } := by
        rcases (Sql.Table.mem_insert? offers).mp hb with hb | hb
        · exact absurd rfl (hold b hb)
        · exact hb
      refine ⟨_, _, not_appliesShown_of_competes
        ((Sql.Table.mem_insert? offers).mpr (.inl ha)) hb (fun heq => ?_) (fun c hc => ?_) hcomp⟩
      · exact hold a ha (congrArg Offer.id heq)
      · rcases (Sql.Table.mem_insert? offers).mp hc with hc | rfl
        · exact hsound.past c hc
        · exact Nat.le_refl _

/-! ### Two admins -/

/-- A monthly price for Pro. -/
def proOffer (offerPrice : ℚ) : Move OfferRequest OfferEnv :=
  .arrive (.create { plan := "pro", offerPrice := some offerPrice } 1)

/-- Paddle stops creating discounts. -/
def discountOutage : OfferEnv :=
  ⟨fun w => { w with fails := fun site => site == .paddleDiscountsCreate },
    fun w => ⟨rfl, Nat.le_refl w.now⟩⟩

def tickSecond : OfferEnv := ⟨fun w => { w with now := w.now + 1 }, fun w => ⟨rfl, Nat.le_succ w.now⟩⟩

/-- One admin at a time. -/
theorem offers_applied_alone :
    ∃ Q, (offerSystem .paddleDemo).scheduleWhile (fun P => P.state.db.offers.rows.isEmpty)
        ⟨{}, []⟩ ([proOffer 8] ++ List.replicate 4 (.run 0)) = some Q ∧
      Q.state.db.offers.rows.length = 1 ∧ AppliesShown .paddleDemo Q.state "pro" .month := by
  have hone : ((offerSystem .paddleDemo).scheduleWhile
      (fun P => P.state.db.offers.rows.isEmpty) ⟨{}, []⟩
        ([proOffer 8] ++ List.replicate 4 (.run 0))).map
      (fun Q => Q.state.db.offers.rows.length) = some 1 := by
    decide +kernel
  obtain ⟨Q, hQ, hlength⟩ := Option.map_eq_some_iff.mp hone
  refine ⟨Q, hQ, hlength, offers_applied (by decide) rfl (System.run_of_scheduleWhile ?_ hQ) _ _⟩
  intro P Q hnone row hrow hnew a ha
  have hempty : P.state.db.offers.rows = [] := List.isEmpty_iff.mp hnone
  rw [Sql.Table.mem_def, hempty] at ha
  cases ha

/-- The two requests switch off what is there and then both insert; the second one has no
discount. -/
def crossedOffers : List (Move OfferRequest OfferEnv) :=
  [proOffer 8, proOffer 7, .run 0, .run 0, .run 1, .env discountOutage, .run 1, .run 0, .run 1,
    .run 0, .env tickSecond, .run 1]

/-- The pricing page shows the first offer, and the checkout charges the list price. -/
theorem crossed_offers_advertise_uncharged_price :
    ∃ Q, (offerSystem .paddleDemo).Run (fun _ _ => True) ⟨{}, []⟩ Q ∧
      ¬ AppliesShown .paddleDemo Q.state "pro" .month := by
  have hrows : ((offerSystem .paddleDemo).schedule ⟨{}, []⟩ crossedOffers).map (fun Q =>
      ((displayedRow .paddleDemo .stable Q.state.db.offers.rows Q.state.now "pro" .month).map (·.id),
        (chargedRow .stable Q.state.db.offers.rows Q.state.now "pro" .month).map (·.id))) =
      some (some 1, some 2) := by
    decide +kernel
  obtain ⟨Q, hQ, hids⟩ := Option.map_eq_some_iff.mp hrows
  obtain ⟨a, ha, hida⟩ := Option.map_eq_some_iff.mp (congrArg Prod.fst hids)
  obtain ⟨b, hb, hidb⟩ := Option.map_eq_some_iff.mp (congrArg Prod.snd hids)
  refine ⟨Q, System.run_of_schedule hQ, not_appliesShown ha hb fun heq => ?_⟩
  rw [heq, hidb] at hida
  cases hida

end Feedbase
