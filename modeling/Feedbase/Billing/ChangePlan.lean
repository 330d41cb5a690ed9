import Feedbase.Billing.Downgrade
import Feedbase.Billing.StripePending

/-!
# Plan changes at Stripe

An upgrade is invoiced at once. A downgrade becomes the second phase of a subscription
schedule, whose first phase keeps the current price until the period ends. Cancelling a
scheduled change releases the schedule.

The handlers read the phases of the schedule they write to. Stripe makes a schedule with one
phase for the current period, replaces the phases on an update, and detaches a schedule that
is released.

## Main definitions

* `StripeDesk` — the world, the schedules at Stripe, and every update they have been sent
* `applyPlanChange`, `cancelScheduledChange`
* `WellFormed`, `Honoured` — what an update of a schedule, and a request, have to be

## Main results

* `honouredThroughout_iff`
-/

namespace Feedbase.ChangePlan

variable {cfg : Config}

/-! ### Schedules at Stripe -/

/-- A phase of a schedule; the last one may be without an end. -/
structure Phase where
  priceId : String
  startDate : Time
  endDate : Option Time
  deriving DecidableEq

structure Schedule where
  id : Nat
  subId : String
  phases : List Phase
  deriving DecidableEq

/-- A phase as an update describes it; it starts where the one before it ends. -/
structure PhaseParam where
  priceId : String
  startDate : Option Time := none
  endDate : Option Time := none
  deriving DecidableEq

/-- The arguments of one `subscriptionSchedules.update`. -/
structure ScheduleUpdate where
  scheduleId : Nat
  phases : List PhaseParam
  deriving DecidableEq

/-- The calls of the SDK that may fail, besides those of `Site`. -/
inductive SdkCall where
  | schedulesCreate
  | schedulesRetrieve
  | schedulesUpdate
  | schedulesRelease
  | subscriptionsUpdate
  deriving DecidableEq, Repr

/-- The server, the start of each subscription's current period, the schedules that are
attached, and the updates that have been sent. -/
structure StripeDesk where
  world : World := {}
  periodStart : String → Time := fun _ => 0
  schedules : List Schedule := []
  created : Nat := 0
  sent : List ScheduleUpdate := []
  refuses : SdkCall → Bool := fun _ => false
  /-- Stripe's own checks of an update. -/
  accepts : ScheduleUpdate → Bool := fun _ => true
  /-- What a price change makes of a subscription. -/
  repriced : StripeSub → String → StripeSub :=
    fun sub priceId => { sub with priceId := some priceId }

abbrev Op (α : Type) := Prog StripeDesk Failure α

/-- What only concerns the server. -/
def onWorld {α : Type} (p : Handler α) : Op α :=
  p.zoom StripeDesk.world fun d w => { d with world := w }

/-- The schedule attached to a subscription. -/
def StripeDesk.attached (d : StripeDesk) (subId : String) : Option Schedule :=
  d.schedules.find? (·.subId == subId)

/-- The schedule Stripe makes from a subscription. -/
def StripeDesk.fromSubscription (d : StripeDesk) (sub : StripeSub) (priceId : String) :
    Schedule where
  id := d.created
  subId := sub.id
  phases := [⟨priceId, d.periodStart sub.id, sub.currentPeriodEnd⟩]

/-- The world with the `schedule` of a subscription set or cleared. -/
def setScheduled (w : World) (subId : String) (hasSchedule : Bool) : World :=
  { w with
    stripe := { w.stripe with
      subscriptions := w.stripe.subscriptions.map fun s =>
        if s.id == subId then { s with hasSchedule := hasSchedule } else s } }

/-- `stripe.subscriptions.retrieve(id)`, with the id of the schedule. -/
def subscriptionsRetrieve (id : String) : Op (StripeSub × Option Nat) :=
  Prog.attempt .error fun d =>
    if d.world.fails .stripeSubscriptionsRetrieve then none
    else (d.world.stripe.subscriptions.find? (·.id == id)).map fun sub =>
      ((sub, (d.attached sub.id).map (·.id)), d)

/-- `stripe.subscriptions.update(id, { items, … })`. -/
def subscriptionsUpdate (id priceId : String) : Op Unit :=
  Prog.attempt .error fun d =>
    if d.refuses .subscriptionsUpdate then none
    else some ((), { d with
      world := { d.world with
        stripe := { d.world.stripe with
          subscriptions := d.world.stripe.subscriptions.map fun s =>
            if s.id == id then d.repriced s priceId else s } } })

/-- `stripe.subscriptionSchedules.create({ from_subscription })`. -/
def schedulesCreate (sub : StripeSub) (priceId : String) : Op Nat :=
  Prog.attempt .error fun d =>
    if d.refuses .schedulesCreate then none
    else some (d.created, { d with
      world := setScheduled d.world sub.id true
      schedules := d.schedules ++ [d.fromSubscription sub priceId]
      created := d.created + 1 })

/-- `stripe.subscriptionSchedules.retrieve(id)`. -/
def schedulesRetrieve (id : Nat) : Op Schedule :=
  Prog.attempt .error fun d =>
    if d.refuses .schedulesRetrieve then none
    else (d.schedules.find? (·.id == id)).map (·, d)

/-- The phases an update stands for, from the time `t` on. -/
def placed : Time → List PhaseParam → List Phase
  | _, [] => []
  | t, p :: ps =>
    let start := p.startDate.getD t
    ⟨p.priceId, start, p.endDate⟩ :: placed (p.endDate.getD start) ps

/-- `stripe.subscriptionSchedules.update(id, { phases, … })`. -/
def schedulesUpdate (id : Nat) (phases : List PhaseParam) : Op Unit :=
  Prog.atomic fun d =>
    let u : ScheduleUpdate := ⟨id, phases⟩
    let d' := { d with sent := d.sent ++ [u] }
    if d.refuses .schedulesUpdate || !d.accepts u then (.error .error, d')
    else (.ok (), { d' with
      schedules := d.schedules.map fun s =>
        if s.id == id then { s with phases := placed d.world.now phases } else s })

/-- `stripe.subscriptionSchedules.release(id)`, whose errors the handlers swallow. -/
def schedulesRelease (id : Nat) : Op Unit :=
  Prog.write fun d =>
    if d.refuses .schedulesRelease then d
    else
      { d with
        world := ((d.schedules.find? (·.id == id)).map (·.subId)).elim d.world
          fun subId => setScheduled d.world subId false
        schedules := d.schedules.filter (·.id != id) }

/-! ### The handlers -/

/-- What `loadForChange` resolves to. -/
structure Change where
  email : String
  sub : StripeSub
  scheduleId : Option Nat
  curPriceId : String
  newPriceId : String
  plan : String
  interval : Interval
  direction : Direction

/-- The price of a paid plan. -/
def paidPriceId (env : Env) (plan : String) (interval : Interval) : Option String :=
  if plan = "free" then none else orNull (priceIdFor env plan interval)

/-- `directionOf`, for the account as stored. -/
def accountDirection (acct : BillingAccount) (plan : String) (interval : Interval) : Direction :=
  directionOf ((orNull (some acct.planName)).getD "free") (acct.billingInterval.getD .month) plan
    interval

/-- `loadForChange`. -/
def loadForChange (cfg : Config) (plan : String) (interval : Option String) (auth : AuthData) :
    Op Change :=
  let billingInterval := billingIntervalOf interval
  if auth.role ≠ .owner then throw (.rejected 403 "billing_forbidden")
  else if isStripeConfigured cfg.env = false then throw (.rejected 500 "stripe_not_configured")
  else
    match paidPriceId cfg.env plan billingInterval with
    | none => throw (.rejected 400 "invalid_plan")
    | some newPriceId => do
      let acct ← onWorld (getAccount auth.email)
      -- there must be a paid subscription to change
      match orNull acct.stripeSubscriptionId with
      | none => throw (.rejected 400 "no_active_subscription")
      | some subId =>
        if acct.subscriptionStatus = some "comped" then
          throw (.rejected 400 "no_active_subscription")
        else
          let (sub, scheduleId) ← subscriptionsRetrieve subId
          match sub.priceId with
          | none => throw (.rejected 400 "no_active_subscription")
          | some curPriceId =>
            if accountDirection acct plan billingInterval = .same then
              throw (.rejected 400 "already_on_plan")
            else return {
              email := auth.email
              sub := sub
              scheduleId := scheduleId
              curPriceId := curPriceId
              newPriceId := newPriceId
              plan := plan
              interval := billingInterval
              direction := accountDirection acct plan billingInterval }

/-- Anything but a server response becomes `plan_change_failed`. -/
def failed {α : Type} : Failure → Op α
  | .rejected code key => throw (.rejected code key)
  | _ => throw (.rejected 500 "plan_change_failed")

/-- `clearPending`. -/
def clearPending (email : String) : Handler Unit := setAccountPlan email noPendingFields

/-- An upgrade supersedes a scheduled change, and is invoiced at once. -/
def upgradeNow (cfg : Config) (c : Change) : Op (Reply PlanChange) := do
  match c.scheduleId with
  | some id => schedulesRelease id
  | none => pure ()
  subscriptionsUpdate c.sub.id c.newPriceId
  onWorld (reconcileAccount cfg c.email)
  onWorld (clearPending c.email)
  return ⟨200, "plan_changed", ⟨.upgrade, c.plan, c.interval, none⟩⟩

/-- The schedule of the subscription, made if there is none. -/
def ensureSchedule (c : Change) : Op Nat :=
  match c.scheduleId with
  | some id => pure id
  | none => schedulesCreate c.sub c.curPriceId

/-- The current plan until the period ends, then the target; `cur` is the schedule's last
phase. -/
def downgradePhases (c : Change) (cur : Phase) : List PhaseParam :=
  [{ priceId := c.curPriceId, startDate := some cur.startDate, endDate := c.sub.currentPeriodEnd },
    { priceId := c.newPriceId }]

/-- Send the phases, and note what is scheduled. -/
def sendDowngrade (c : Change) (scheduleId : Nat) (sched : Schedule) : Op (Reply PlanChange) :=
  match sched.phases.getLast? with
  | none => throw .error
  | some cur => do
    schedulesUpdate scheduleId (downgradePhases c cur)
    let effectiveAt := c.sub.currentPeriodEnd.filter (· ≠ 0)
    onWorld (setAccountPlan c.email (pendingFields c.plan c.interval effectiveAt))
    return ⟨200, "plan_change_scheduled", ⟨.downgrade, c.plan, c.interval, effectiveAt⟩⟩

/-- A downgrade is scheduled at the end of the period. -/
def downgradeLater (c : Change) : Op (Reply PlanChange) := do
  let scheduleId ← ensureSchedule c
  let sched ← schedulesRetrieve scheduleId
  sendDowngrade c scheduleId sched

/-- `applyPlanChange`. -/
def applyPlanChange (cfg : Config) (plan : String) (interval : Option String) (auth : AuthData) :
    Op (Reply PlanChange) := do
  let c ← tryCatch (loadForChange cfg plan interval auth) failed
  tryCatch (if c.direction = .upgrade then upgradeNow cfg c else downgradeLater c) failed

/-- `cancelScheduledChange`. -/
def cancelScheduledChange (cfg : Config) (auth : AuthData) : Op (Reply Unit) :=
  if auth.role ≠ .owner then throw (.rejected 403 "billing_forbidden")
  else if isStripeConfigured cfg.env = false then throw (.rejected 500 "stripe_not_configured")
  else
    tryCatch
      (do
        let acct ← onWorld (getAccount auth.email)
        match orNull acct.stripeSubscriptionId with
        | none => pure ()
        | some subId =>
          let (_, scheduleId) ← subscriptionsRetrieve subId
          match scheduleId with
          | some id => schedulesRelease id
          | none => pure ()
        onWorld (clearPending auth.email)
        return ⟨200, "plan_change_cancelled", ()⟩)
      fun _ => throw (.rejected 500 "plan_change_failed")

/-! ### What the calls do -/

-- prices and directions are compared, never computed, in what follows
attribute [local irreducible] paidPriceId accountDirection

variable {d : StripeDesk} {c : Change} {plan : String} {interval : Option String}
  {auth : AuthData}

theorem exec_onWorld {α : Type} (p : Handler α) (d : StripeDesk) :
    (onWorld p).exec d = ((p.exec d.world).1, { d with world := (p.exec d.world).2 }) := by
  unfold onWorld
  refine Prog.exec_zoom ?_ ?_ ?_ p d
  · exact fun _ _ => rfl
  · exact fun _ _ _ => rfl
  · exact fun _ => rfl

/-- The subscription with an id, as Stripe has it. -/
def StripeDesk.subscription (d : StripeDesk) (id : String) : Option StripeSub :=
  d.world.stripe.subscriptions.find? (·.id == id)

theorem id_of_subscription {id : String} {sub : StripeSub} (h : d.subscription id = some sub) :
    sub.id = id := by
  simpa using List.find?_some h

/-- The subscription of an account. -/
def StripeDesk.subscriptionOf (d : StripeDesk) (email : String) : Option StripeSub :=
  (orNull (accountOf d.world.db email).stripeSubscriptionId).bind d.subscription

/-- A change that has been loaded is about the account's subscription as it is. -/
structure Change.Loaded (c : Change) (d : StripeDesk) (env : Env) (plan : String)
    (interval : Option String) (email : String) : Prop where
  email_eq : c.email = email
  sub : d.subscriptionOf email = some c.sub
  found : d.subscription c.sub.id = some c.sub
  schedule : c.scheduleId = (d.attached c.sub.id).map (·.id)
  current : c.sub.priceId = some c.curPriceId
  target : paidPriceId env plan (billingIntervalOf interval) = some c.newPriceId

theorem exec_loadForChange (cfg : Config) (plan : String) (interval : Option String)
    (auth : AuthData) (d : StripeDesk) :
    ((loadForChange cfg plan interval auth).exec d).2 = d ∧
      ∀ c, ((loadForChange cfg plan interval auth).exec d).1 = .ok c →
        c.Loaded d cfg.env plan interval auth.email := by
  unfold loadForChange
  dsimp only
  by_cases hrole : auth.role ≠ .owner
  · rw [if_pos hrole]
    exact ⟨rfl, fun c hc => by cases hc⟩
  by_cases hconf : isStripeConfigured cfg.env = false
  · rw [if_neg hrole, if_pos hconf]
    exact ⟨rfl, fun c hc => by cases hc⟩
  rw [if_neg hrole, if_neg hconf]
  cases hprice : paidPriceId cfg.env plan (billingIntervalOf interval) with
  | none => exact ⟨rfl, fun c hc => by cases hc⟩
  | some newPriceId =>
    dsimp only
    rw [Prog.exec_bind, exec_onWorld]
    have hget : (getAccount auth.email).exec d.world = (.ok (accountOf d.world.db auth.email),
        d.world) := exec_query _ _
    rw [hget]
    dsimp only
    -- only a stored subscription that is not a comp is fetched
    cases hid : orNull (accountOf d.world.db auth.email).stripeSubscriptionId with
    | none => exact ⟨rfl, fun c hc => by cases hc⟩
    | some subId =>
      dsimp only
      by_cases hcomped : (accountOf d.world.db auth.email).subscriptionStatus = some "comped"
      · rw [if_pos hcomped]
        exact ⟨rfl, fun c hc => by cases hc⟩
      rw [if_neg hcomped, Prog.exec_bind, subscriptionsRetrieve, Prog.exec_attempt]
      cases hfails : d.world.fails .stripeSubscriptionsRetrieve with
      | true => exact ⟨rfl, fun c hc => by cases hc⟩
      | false =>
        have hsub : d.world.stripe.subscriptions.find? (·.id == subId) = d.subscription subId := rfl
        rw [if_neg Bool.false_ne_true, hsub]
        cases hfound : d.subscription subId with
        | none => exact ⟨rfl, fun c hc => by cases hc⟩
        | some sub =>
          dsimp only [Option.map_some]
          cases hcur : sub.priceId with
          | none => exact ⟨rfl, fun c hc => by cases hc⟩
          | some curPriceId =>
            dsimp only
            split
            · exact ⟨rfl, fun c hc => by cases hc⟩
            · -- every check has been passed
              refine ⟨rfl, fun c hc => ?_⟩
              cases hc
              have hsubId := id_of_subscription hfound
              exact ⟨rfl, by rw [StripeDesk.subscriptionOf, hid]; exact hfound,
                by rw [hsubId]; exact hfound, rfl, hcur, hprice⟩

/-! ### Within a billing period -/

/-- The end of a subscription's current period. -/
def StripeDesk.periodEnd (d : StripeDesk) (id : String) : Option (Option Time) :=
  (d.subscription id).map (·.currentPeriodEnd)

/-- A schedule of a subscription whose period ends at `e`: one phase is in force, and a second
one may follow it. -/
def Schedule.Current (s : Schedule) (now e : Time) : Prop :=
  ∃ p : Phase, p.startDate ≤ now ∧ p.endDate = some e ∧
    (s.phases = [p] ∨ ∃ q : Phase, s.phases = [p, q] ∧ q.startDate = e)

/-- Every subscription is in its current period, and so is its schedule. -/
structure InPeriod (d : StripeDesk) : Prop where
  period : ∀ id e?, d.periodEnd id = some e? → ∃ e, e? = some e ∧
    d.periodStart id ≤ d.world.now ∧ d.world.now < e ∧
      ∀ s ∈ d.schedules, s.subId = id → s.Current d.world.now e
  nodup : (d.schedules.map Schedule.id).Nodup
  lt_created : ∀ s ∈ d.schedules, s.id < d.created

/-- What the invariant reads besides the schedules. -/
structure SamePeriods (d d' : StripeDesk) : Prop where
  periodEnd : d'.periodEnd = d.periodEnd
  periodStart : d'.periodStart = d.periodStart
  now : d'.world.now = d.world.now

theorem InPeriod.of_samePeriods {d' : StripeDesk} (h : InPeriod d) (hsame : SamePeriods d d')
    (hschedules : d'.schedules = d.schedules) (hcreated : d'.created = d.created) :
    InPeriod d' := by
  refine ⟨fun id e? he => ?_, hschedules ▸ h.nodup, fun s hs => ?_⟩
  · rw [hsame.periodEnd] at he
    obtain ⟨e, heq, hstart, hend, hshape⟩ := h.period id e? he
    refine ⟨e, heq, ?_, ?_, fun s hs hid => ?_⟩
    · rw [hsame.periodStart, hsame.now]
      exact hstart
    · rw [hsame.now]
      exact hend
    · rw [hsame.now]
      exact hshape s (hschedules ▸ hs) hid
  · rw [hcreated]
    exact h.lt_created s (hschedules ▸ hs)

theorem periodEnd_setScheduled (w : World) (subId id : String) (b : Bool) :
    ((setScheduled w subId b).stripe.subscriptions.find? (·.id == id)).map
      (·.currentPeriodEnd) =
    (w.stripe.subscriptions.find? (·.id == id)).map (·.currentPeriodEnd) := by
  have hid : ((fun s : StripeSub => s.id == id) ∘ fun s : StripeSub =>
      if s.id == subId then { s with hasSchedule := b } else s) = fun s => s.id == id := by
    funext s
    dsimp only [Function.comp]
    split <;> rfl
  unfold setScheduled
  dsimp only
  rw [List.find?_map, hid, Option.map_map]
  congr 1
  funext s
  dsimp only [Function.comp]
  split <;> rfl

/-- The desk once a schedule has been made for a subscription. -/
def StripeDesk.withSchedule (d : StripeDesk) (sub : StripeSub) (priceId : String) : StripeDesk :=
  { d with
    world := setScheduled d.world sub.id true
    schedules := d.schedules ++ [d.fromSubscription sub priceId]
    created := d.created + 1 }

theorem samePeriods_withSchedule (d : StripeDesk) (sub : StripeSub) (priceId : String) :
    SamePeriods d (d.withSchedule sub priceId) :=
  ⟨funext fun id => periodEnd_setScheduled d.world sub.id id true, rfl, rfl⟩

/-- The schedule Stripe makes has one phase, which is in force. -/
theorem InPeriod.withSchedule (h : InPeriod d) {sub : StripeSub} {priceId : String}
    (hsub : d.subscription sub.id = some sub) :
    InPeriod (d.withSchedule sub priceId) := by
  have hsame := samePeriods_withSchedule d sub priceId
  refine ⟨fun id e? he => ?_, ?_, fun s hs => ?_⟩
  · rw [hsame.periodEnd] at he
    obtain ⟨e, rfl, hstart, hend, hshape⟩ := h.period id e? he
    refine ⟨e, rfl, hstart, hend, fun s hs hid => ?_⟩
    rcases List.mem_append.mp hs with hs | hs
    · exact hshape s hs hid
    · -- the new schedule is for this subscription
      obtain rfl := List.mem_singleton.mp hs
      change sub.id = id at hid
      subst hid
      have he' : sub.currentPeriodEnd = some e := by
        rw [StripeDesk.periodEnd, hsub] at he
        exact Option.some.inj he
      exact ⟨⟨priceId, d.periodStart sub.id, sub.currentPeriodEnd⟩, hstart, he', .inl rfl⟩
  · -- the id of the new schedule is new
    change ((d.schedules ++ [d.fromSubscription sub priceId]).map Schedule.id).Nodup
    rw [List.map_append, List.map_singleton]
    refine h.nodup.append (List.nodup_singleton _) ?_
    intro n hn hn'
    obtain ⟨s, hs, rfl⟩ := List.mem_map.mp hn
    have hlt := h.lt_created s hs
    have heq : s.id = d.created := List.mem_singleton.mp hn'
    omega
  · rcases List.mem_append.mp hs with hs | hs
    · exact Nat.lt_succ_of_lt (h.lt_created s hs)
    · rw [List.mem_singleton.mp hs]
      exact Nat.lt_succ_self d.created

/-- The desk once the phases of a schedule have been replaced. -/
def StripeDesk.replacePhases (d : StripeDesk) (id : Nat) (phases : List PhaseParam) : StripeDesk :=
  { d with
    schedules := d.schedules.map fun s =>
      if s.id == id then { s with phases := placed d.world.now phases } else s }

theorem attached_replacePhases (d : StripeDesk) (id : Nat) (phases : List PhaseParam)
    (subId : String) : (d.replacePhases id phases).attached subId =
      (d.attached subId).map fun s =>
        if s.id == id then { s with phases := placed d.world.now phases } else s := by
  have hsub : ((fun s : Schedule => s.subId == subId) ∘ fun s : Schedule =>
      if s.id == id then { s with phases := placed d.world.now phases } else s) =
        fun s => s.subId == subId := by
    funext s
    dsimp only [Function.comp]
    split <;> rfl
  change (d.schedules.map _).find? _ = _
  rw [List.find?_map, hsub]
  rfl

/-- Replacing the phases of a subscription's schedule by ones of the same period. -/
theorem InPeriod.replacePhases (h : InPeriod d) {s : Schedule} {phases : List PhaseParam}
    (hs : s ∈ d.schedules) (hphases : ∀ e, d.periodEnd s.subId = some (some e) →
      ({ s with phases := placed d.world.now phases } : Schedule).Current d.world.now e) :
    InPeriod (d.replacePhases s.id phases) := by
  have hids : (d.replacePhases s.id phases).schedules.map Schedule.id =
      d.schedules.map Schedule.id := by
    change (d.schedules.map _).map _ = _
    rw [List.map_map]
    refine List.map_congr_left fun t _ => ?_
    dsimp only [Function.comp]
    split <;> rfl
  refine ⟨fun id e? he => ?_, hids ▸ h.nodup, fun t ht => ?_⟩
  · obtain ⟨e, rfl, hstart, hend, hshape⟩ := h.period id e? he
    refine ⟨e, rfl, hstart, hend, fun t ht hid => ?_⟩
    obtain ⟨r, hr, rfl⟩ := List.mem_map.mp ht
    by_cases heq : r.id = s.id
    · rw [if_pos (beq_iff_eq.mpr heq)] at hid ⊢
      have hrs : r = s := List.inj_on_of_nodup_map h.nodup hr hs heq
      subst hrs
      change r.subId = id at hid
      subst hid
      exact hphases e he
    · rw [if_neg fun hbeq => heq (beq_iff_eq.mp hbeq)] at hid ⊢
      exact hshape r hr hid
  · have hmem : t.id ∈ d.schedules.map Schedule.id := hids ▸ List.mem_map_of_mem ht
    obtain ⟨r, hr, hid⟩ := List.mem_map.mp hmem
    exact hid ▸ h.lt_created r hr

/-! ### One downgrade -/

theorem exec_schedulesRetrieve {α : Type} (id : Nat) (k : Schedule → Op α) (d : StripeDesk) :
    (schedulesRetrieve id >>= k).exec d =
      match if d.refuses .schedulesRetrieve then none else d.schedules.find? (·.id == id) with
      | some s => (k s).exec d
      | none => (.error .error, d) := by
  rw [Prog.exec_bind, schedulesRetrieve, Prog.exec_attempt]
  cases d.refuses .schedulesRetrieve with
  | true => rfl
  | false =>
    rw [if_neg Bool.false_ne_true, if_neg Bool.false_ne_true]
    cases d.schedules.find? (·.id == id) <;> rfl

/-- With a schedule attached, it is read and written to. -/
theorem exec_downgradeLater_of_some {env : Env} {email : String} (h : InPeriod d)
    (hc : c.Loaded d env plan interval email) {s : Schedule}
    (hs : d.attached c.sub.id = some s) :
    (downgradeLater c).exec d = if d.refuses .schedulesRetrieve then (.error .error, d)
      else (sendDowngrade c s.id s).exec d := by
  have hid : c.scheduleId = some s.id := by rw [hc.schedule, hs]; rfl
  have hfind : d.schedules.find? (·.id == s.id) = some s := by
    have hmem := List.mem_of_find?_eq_some hs
    cases hfound : d.schedules.find? (·.id == s.id) with
    | none => simpa using List.find?_eq_none.mp hfound s hmem
    | some t =>
      have ht : t.id = s.id := by simpa using List.find?_some hfound
      rw [List.inj_on_of_nodup_map h.nodup (List.mem_of_find?_eq_some hfound) hmem ht]
  have hensure : ensureSchedule c = pure s.id := by rw [ensureSchedule, hid]
  unfold downgradeLater
  rw [hensure, pure_bind, exec_schedulesRetrieve, hfind]
  cases d.refuses .schedulesRetrieve <;> rfl

/-- Without one, it is made first. -/
theorem exec_downgradeLater_of_none {env : Env} {email : String} (h : InPeriod d)
    (hc : c.Loaded d env plan interval email) (hnone : d.attached c.sub.id = none) :
    (downgradeLater c).exec d =
      if d.refuses .schedulesCreate then (.error .error, d)
      else if d.refuses .schedulesRetrieve then
        (.error .error, d.withSchedule c.sub c.curPriceId)
      else (sendDowngrade c d.created (d.fromSubscription c.sub c.curPriceId)).exec
        (d.withSchedule c.sub c.curPriceId) := by
  have hid : c.scheduleId = none := by rw [hc.schedule, hnone]; rfl
  have hensure : ensureSchedule c = schedulesCreate c.sub c.curPriceId := by
    rw [ensureSchedule, hid]
  -- the schedule that has just been created is found again
  have hfind : (d.withSchedule c.sub c.curPriceId).schedules.find? (·.id == d.created) =
      some (d.fromSubscription c.sub c.curPriceId) := by
    change (d.schedules ++ [_]).find? _ = _
    have hold : d.schedules.find? (·.id == d.created) = none := by
      refine List.find?_eq_none.mpr fun s hs => ?_
      have hlt := h.lt_created s hs
      simp only [beq_iff_eq]
      omega
    rw [List.find?_append, hold, Option.none_or]
    exact List.find?_cons_of_pos (beq_self_eq_true _)
  unfold downgradeLater
  rw [hensure, Prog.exec_bind, schedulesCreate, Prog.exec_attempt]
  cases d.refuses .schedulesCreate with
  | true => rfl
  | false =>
    rw [if_neg Bool.false_ne_true]
    change (schedulesRetrieve d.created >>= fun sched => sendDowngrade c d.created sched).exec
      (d.withSchedule c.sub c.curPriceId) = _
    have hrefuses : (d.withSchedule c.sub c.curPriceId).refuses = d.refuses := rfl
    rw [exec_schedulesRetrieve, hfind, hrefuses, if_neg Bool.false_ne_true]
    cases d.refuses .schedulesRetrieve <;> rfl

/-- The phase is in force. -/
def Phase.covers (now : Time) (p : Phase) : Bool := p.startDate ≤ now && p.endDate.all (now < ·)

/-- The phase a schedule is in. -/
def Schedule.inForce (s : Schedule) (now : Time) : Option Phase := s.phases.find? (·.covers now)

/-- The schedule a change of the subscription meets: the one attached, or the one that Stripe
makes for it. -/
def StripeDesk.scheduleOf (d : StripeDesk) (sub : StripeSub) (priceId : String) : Schedule :=
  (d.attached sub.id).getD (d.fromSubscription sub priceId)

/-- The update keeps the current price from the start of the phase in force to the end of the
period, and then sets the target price. -/
def WellFormed (d : StripeDesk) (sub : StripeSub) (target : String) (u : ScheduleUpdate) : Prop :=
  ∃ cur p e, sub.priceId = some cur ∧ sub.currentPeriodEnd = some e ∧
    (d.scheduleOf sub cur).inForce d.world.now = some p ∧ p.startDate < e ∧
    u.phases = [{ priceId := cur, startDate := some p.startDate, endDate := some e },
      { priceId := target }]

theorem inForce_eq {s : Schedule} {now e : Time} {p : Phase} (hstart : p.startDate ≤ now)
    (hend : p.endDate = some e) (hnow : now < e)
    (hphases : s.phases = [p] ∨ ∃ q : Phase, s.phases = [p, q] ∧ q.startDate = e) :
    s.inForce now = some p := by
  have hcovers : p.covers now = true := by simp [Phase.covers, hstart, hend, hnow]
  unfold Schedule.inForce
  rcases hphases with hphases | ⟨q, hphases, -⟩
  · rw [hphases]
    exact List.find?_cons_of_pos hcovers
  · rw [hphases]
    exact List.find?_cons_of_pos hcovers

/-- The desk once an update has been sent, and once Stripe has taken it. -/
def StripeDesk.afterUpdate (d : StripeDesk) (u : ScheduleUpdate) : StripeDesk :=
  if d.refuses .schedulesUpdate || !d.accepts u then { d with sent := d.sent ++ [u] }
  else { d.replacePhases u.scheduleId u.phases with sent := d.sent ++ [u] }

theorem exec_sendDowngrade (c : Change) (s : Schedule) (id : Nat) {cur : Phase}
    (hcur : s.phases.getLast? = some cur) (d : StripeDesk) :
    ∃ db, ((sendDowngrade c id s).exec d).2 =
      { d.afterUpdate ⟨id, downgradePhases c cur⟩ with world := { d.world with db := db } } := by
  unfold sendDowngrade
  rw [hcur]
  dsimp only
  rw [Prog.exec_bind, schedulesUpdate, Prog.exec_atomic]
  dsimp only
  unfold StripeDesk.afterUpdate
  by_cases href : (d.refuses .schedulesUpdate || !d.accepts ⟨id, downgradePhases c cur⟩) = true
  · rw [if_pos href, if_pos href]
    exact ⟨d.world.db, rfl⟩
  · rw [if_neg href, if_neg href]
    dsimp only
    rw [Prog.exec_bind, exec_onWorld]
    dsimp only
    rcases hset : (setAccountPlan c.email (pendingFields c.plan c.interval
      (c.sub.currentPeriodEnd.filter (· ≠ 0)))).exec d.world with ⟨e | ⟨⟨⟩⟩, w⟩
    · have hw := exec_setAccountPlan_error hset
      subst hw
      exact ⟨d.world.db, rfl⟩
    · obtain ⟨-, -, db, -, rfl⟩ := exec_setAccountPlan_ok_iff.mp hset
      exact ⟨db, rfl⟩

/-- A call that returns has had its update taken. -/
theorem taken_of_ok {s : Schedule} {id : Nat} {cur : Phase} {r : Reply PlanChange}
    (hcur : s.phases.getLast? = some cur) (h : ((sendDowngrade c id s).exec d).1 = .ok r) :
    (d.refuses .schedulesUpdate || !d.accepts ⟨id, downgradePhases c cur⟩) = false := by
  unfold sendDowngrade at h
  rw [hcur] at h
  dsimp only at h
  rw [Prog.exec_bind, schedulesUpdate, Prog.exec_atomic] at h
  dsimp only at h
  by_cases href : (d.refuses .schedulesUpdate || !d.accepts ⟨id, downgradePhases c cur⟩) = true
  · rw [if_pos href] at h
    cases h
  · exact Bool.eq_false_iff.mpr href

theorem placed_downgradePhases {cur : Phase} {e : Time} (now : Time)
    (he : c.sub.currentPeriodEnd = some e) : placed now (downgradePhases c cur) =
      [⟨c.curPriceId, cur.startDate, some e⟩, ⟨c.newPriceId, e, none⟩] := by
  unfold downgradePhases
  rw [he]
  rfl

/-- What is sent to a schedule in its only phase keeps the desk within the period, and a call
that returns leaves the target as the next phase. -/
theorem sendDowngrade_spec {s : Schedule} {p : Phase} {e : Time} (h : InPeriod d)
    (hend : c.sub.currentPeriodEnd = some e) (hperiod : d.periodEnd c.sub.id = some (some e))
    (hs : d.attached c.sub.id = some s) (hphases : s.phases = [p])
    (hstart : p.startDate ≤ d.world.now) :
    ((sendDowngrade c s.id s).exec d).2.sent = d.sent ++ [⟨s.id, downgradePhases c p⟩] ∧
      InPeriod ((sendDowngrade c s.id s).exec d).2 ∧
        ∀ r, ((sendDowngrade c s.id s).exec d).1 = .ok r →
          ∃ t, ((sendDowngrade c s.id s).exec d).2.attached c.sub.id = some t ∧
            t.phases = [⟨c.curPriceId, p.startDate, some e⟩, ⟨c.newPriceId, e, none⟩] := by
  have hcur : s.phases.getLast? = some p := by rw [hphases]; rfl
  have hmem : s ∈ d.schedules := List.mem_of_find?_eq_some hs
  have hid : s.subId = c.sub.id := by simpa using List.find?_some hs
  obtain ⟨db, hexec⟩ := exec_sendDowngrade c s s.id hcur d
  rw [hexec]
  -- the new phases are the current period and the one after it
  have hreplaced : InPeriod (d.replacePhases s.id (downgradePhases c p)) := by
    refine h.replacePhases hmem fun e' he' => ?_
    rw [hid, hperiod] at he'
    cases he'
    refine ⟨⟨c.curPriceId, p.startDate, some e⟩, hstart, rfl,
      .inr ⟨⟨c.newPriceId, e, none⟩, ?_, rfl⟩⟩
    exact placed_downgradePhases d.world.now hend
  unfold StripeDesk.afterUpdate
  refine ⟨?_, ?_, fun r hr => ?_⟩
  · split <;> rfl
  · split
    · exact h.of_samePeriods ⟨rfl, rfl, rfl⟩ rfl rfl
    · exact hreplaced.of_samePeriods ⟨rfl, rfl, rfl⟩ rfl rfl
  · -- an accepted update is what is attached afterwards
    rw [if_neg (Bool.eq_false_iff.mp (taken_of_ok hcur hr))]
    refine ⟨{ s with phases := placed d.world.now (downgradePhases c p) }, ?_,
      placed_downgradePhases d.world.now hend⟩
    change (d.replacePhases s.id (downgradePhases c p)).attached c.sub.id = _
    rw [attached_replacePhases, hs, Option.map_some, if_pos (beq_self_eq_true _)]

theorem loadForChange_snd (hload : ((loadForChange cfg plan interval auth).exec d).1 = .ok c) :
    (loadForChange cfg plan interval auth).exec d = (.ok c, d) :=
  Prod.ext hload (exec_loadForChange cfg plan interval auth d).1

theorem exec_failed {α : Type} (e : Failure) (d : StripeDesk) :
    ∃ e', (failed e : Op α).exec d = (.error e', d) := by
  cases e <;> exact ⟨_, rfl⟩

/-- A call that does not load leaves everything as it is. -/
theorem applyPlanChange_of_error {e : Failure}
    (hload : ((loadForChange cfg plan interval auth).exec d).1 = .error e) :
    ∃ e', (applyPlanChange cfg plan interval auth).exec d = (.error e', d) := by
  have hexec : (loadForChange cfg plan interval auth).exec d = (.error e, d) :=
    Prod.ext hload (exec_loadForChange cfg plan interval auth d).1
  obtain ⟨e', hfailed⟩ := exec_failed (α := Change) e d
  refine ⟨e', ?_⟩
  unfold applyPlanChange
  rw [Prog.exec_bind, Prog.exec_tryCatch, hexec]
  dsimp only
  rw [hfailed]

/-- A downgrade that loads does what `downgradeLater` does. -/
theorem applyPlanChange_of_loaded
    (hload : ((loadForChange cfg plan interval auth).exec d).1 = .ok c)
    (hdown : c.direction = .downgrade) :
    ((applyPlanChange cfg plan interval auth).exec d).2 = ((downgradeLater c).exec d).2 ∧
      ∀ r, ((applyPlanChange cfg plan interval auth).exec d).1 = .ok r →
        ((downgradeLater c).exec d).1 = .ok r := by
  have hnot : ¬ c.direction = .upgrade := by
    rw [hdown]
    decide
  unfold applyPlanChange
  rw [Prog.exec_bind, Prog.exec_tryCatch, loadForChange_snd hload]
  dsimp only
  rw [if_neg hnot]
  refine ⟨Prog.exec_tryCatch_snd exec_failed, fun r hr => ?_⟩
  rw [Prog.exec_tryCatch_ok (t := _) exec_failed (Prod.ext hr rfl)]

/-! ### Calls in a row -/

/-- What happens to the subscriptions of a desk: a plan change is requested, or a scheduled one
cancelled, or time passes and other calls of the SDK and statements fail. -/
inductive Event where
  | apply (plan : String) (interval : Option String) (auth : AuthData)
  | cancel (auth : AuthData)
  | meanwhile (now : Time) (refuses : SdkCall → Bool) (fails : Site → Bool)

/-- The desk afterwards; a handler runs to completion. -/
def Event.run (cfg : Config) (d : StripeDesk) : Event → StripeDesk
  | .apply plan interval auth => ((applyPlanChange cfg plan interval auth).exec d).2
  | .cancel auth => ((cancelScheduledChange cfg auth).exec d).2
  | .meanwhile now refuses fails =>
    { d with world := { d.world with now := now, fails := fails }, refuses := refuses }

/-- Every update the request sends is well formed, and once it returns the target is what
comes after the current period. -/
structure Honoured (cfg : Config) (plan : String) (interval : Option String) (auth : AuthData)
    (d : StripeDesk) : Prop where
  wellFormed : ∀ u ∈ ((applyPlanChange cfg plan interval auth).exec d).2.sent.drop d.sent.length,
    ∃ sub target, d.subscriptionOf auth.email = some sub ∧
      paidPriceId cfg.env plan (billingIntervalOf interval) = some target ∧
        WellFormed d sub target u
  takesEffect : ∀ r, ((applyPlanChange cfg plan interval auth).exec d).1 = .ok r →
    ∃ sub target cur e s start, d.subscriptionOf auth.email = some sub ∧
      paidPriceId cfg.env plan (billingIntervalOf interval) = some target ∧
        sub.priceId = some cur ∧ sub.currentPeriodEnd = some e ∧
          ((applyPlanChange cfg plan interval auth).exec d).2.attached sub.id = some s ∧
            s.phases = [⟨cur, start, some e⟩, ⟨target, e, none⟩]

/-- If the request gets as far as reading an attached schedule, that schedule has one phase. -/
def OnePhase (cfg : Config) (plan : String) (interval : Option String) (auth : AuthData)
    (d : StripeDesk) : Prop :=
  ∀ c, ((loadForChange cfg plan interval auth).exec d).1 = .ok c →
    d.refuses .schedulesRetrieve = false →
      ∀ s, d.attached c.sub.id = some s → s.phases.length = 1

/-- The request is no upgrade. -/
def NoUpgrade (cfg : Config) (plan : String) (interval : Option String) (auth : AuthData)
    (d : StripeDesk) : Prop :=
  ∀ c, ((loadForChange cfg plan interval auth).exec d).1 = .ok c → c.direction = .downgrade

theorem period_of_loaded {env : Env} {email : String} (h : InPeriod d)
    (hc : c.Loaded d env plan interval email) :
    ∃ e, c.sub.currentPeriodEnd = some e ∧ d.periodEnd c.sub.id = some (some e) ∧
      d.periodStart c.sub.id ≤ d.world.now ∧ d.world.now < e ∧
        ∀ s, d.attached c.sub.id = some s → s.Current d.world.now e := by
  have hperiod : d.periodEnd c.sub.id = some c.sub.currentPeriodEnd := by
    rw [StripeDesk.periodEnd, hc.found]
    rfl
  obtain ⟨e, he, hstart, hlt, hshape⟩ := h.period c.sub.id _ hperiod
  refine ⟨e, he, he ▸ hperiod, hstart, hlt, fun s hs => ?_⟩
  have hid : s.subId = c.sub.id := by simpa using List.find?_some hs
  exact hshape s (List.mem_of_find?_eq_some hs) hid

/-- With one phase to go on, the request is honoured and the desk stays within the period. -/
theorem honoured_of_onePhase (h : InPeriod d) (hdown : NoUpgrade cfg plan interval auth d)
    (hone : OnePhase cfg plan interval auth d) :
    Honoured cfg plan interval auth d ∧
      InPeriod ((applyPlanChange cfg plan interval auth).exec d).2 := by
  cases hload : ((loadForChange cfg plan interval auth).exec d).1 with
  -- nothing has been sent
  | error err =>
    obtain ⟨e', hexec⟩ := applyPlanChange_of_error hload
    refine ⟨⟨fun u hu => ?_, fun r hr => ?_⟩, ?_⟩
    · rw [hexec, List.drop_length] at hu
      cases hu
    · rw [hexec] at hr
      cases hr
    · rw [hexec]
      exact h
  | ok c =>
    obtain ⟨hsnd, hok⟩ := applyPlanChange_of_loaded hload (hdown c hload)
    have hc := (exec_loadForChange cfg plan interval auth d).2 c hload
    obtain ⟨e, hend, hperiod, hstart, hlt, hshape⟩ := period_of_loaded h hc
    -- nothing has been sent, or one update to a schedule in its only phase
    suffices hspec : (((downgradeLater c).exec d).2.sent = d.sent ∧
        (∀ r, ((downgradeLater c).exec d).1 ≠ .ok r) ∧ InPeriod ((downgradeLater c).exec d).2) ∨
        ∃ s p, (d.scheduleOf c.sub c.curPriceId).inForce d.world.now = some p ∧
          p.startDate < e ∧
          ((downgradeLater c).exec d).2.sent = d.sent ++ [⟨s, downgradePhases c p⟩] ∧
          InPeriod ((downgradeLater c).exec d).2 ∧
          ∀ r, ((downgradeLater c).exec d).1 = .ok r →
            ∃ t, ((downgradeLater c).exec d).2.attached c.sub.id = some t ∧
              t.phases = [⟨c.curPriceId, p.startDate, some e⟩, ⟨c.newPriceId, e, none⟩] by
      rcases hspec with ⟨hsent, hfails, hin⟩ | ⟨s, p, hforce, hpe, hsent, hin, heffect⟩
      · refine ⟨⟨fun u hu => ?_, fun r hr => absurd (hok r hr) (hfails r)⟩, hsnd ▸ hin⟩
        rw [hsnd, hsent, List.drop_length] at hu
        cases hu
      · refine ⟨⟨fun u hu => ?_, fun r hr => ?_⟩, hsnd ▸ hin⟩
        · rw [hsnd, hsent, List.drop_left] at hu
          rw [List.mem_singleton.mp hu]
          refine ⟨c.sub, c.newPriceId, hc.sub, hc.target, c.curPriceId, p, e, hc.current, hend,
            hforce, hpe, ?_⟩
          dsimp only [downgradePhases]
          rw [hend]
        · obtain ⟨t, ht, hphases⟩ := heffect r (hok r hr)
          exact ⟨c.sub, c.newPriceId, c.curPriceId, e, t, p.startDate, hc.sub, hc.target,
            hc.current, hend, hsnd ▸ ht, hphases⟩
    cases hs : d.attached c.sub.id with
    | none =>
      -- a schedule is created from the subscription, in one phase
      have hnew : InPeriod (d.withSchedule c.sub c.curPriceId) := h.withSchedule hc.found
      have hsame := samePeriods_withSchedule d c.sub c.curPriceId
      rw [exec_downgradeLater_of_none h hc hs]
      cases d.refuses .schedulesCreate with
      | true => exact .inl ⟨rfl, nofun, h⟩
      | false =>
        rw [if_neg Bool.false_ne_true]
        cases d.refuses .schedulesRetrieve with
        | true => exact .inl ⟨rfl, nofun, hnew⟩
        | false =>
          rw [if_neg Bool.false_ne_true]
          have hattached : (d.withSchedule c.sub c.curPriceId).attached c.sub.id =
              some (d.fromSubscription c.sub c.curPriceId) := by
            change (d.schedules ++ [_]).find? _ = _
            rw [List.find?_append, show d.schedules.find? (·.subId == c.sub.id) = none from hs,
              Option.none_or]
            exact List.find?_cons_of_pos (beq_self_eq_true _)
          obtain ⟨hsent, hin, heffect⟩ := sendDowngrade_spec
            (p := ⟨c.curPriceId, d.periodStart c.sub.id, c.sub.currentPeriodEnd⟩) hnew hend
            (hsame.periodEnd ▸ hperiod) hattached rfl hstart
          refine .inr ⟨_, ⟨c.curPriceId, d.periodStart c.sub.id, c.sub.currentPeriodEnd⟩, ?_,
            hstart.trans_lt hlt, hsent, hin, heffect⟩
          rw [StripeDesk.scheduleOf, hs]
          exact inForce_eq hstart hend hlt (.inl rfl)
    | some s =>
      rw [exec_downgradeLater_of_some h hc hs]
      cases hrefuses : d.refuses .schedulesRetrieve with
      | true => exact .inl ⟨rfl, nofun, h⟩
      | false =>
        rw [if_neg Bool.false_ne_true]
        -- the schedule that is there has one phase by assumption
        obtain ⟨p, hpstart, hpend, hphases | ⟨q, hphases, -⟩⟩ := hshape s hs
        · obtain ⟨hsent, hin, heffect⟩ := sendDowngrade_spec h hend hperiod hs hphases hpstart
          refine .inr ⟨_, p, ?_, hpstart.trans_lt hlt, hsent, hin, heffect⟩
          rw [StripeDesk.scheduleOf, hs]
          exact inForce_eq hpstart hpend hlt (.inl hphases)
        · have hlength := hone c hload hrefuses s hs
          rw [hphases] at hlength
          cases hlength

/-- A schedule with a second phase is sent an empty first one. -/
theorem onePhase_of_honoured (h : InPeriod d) (hdown : NoUpgrade cfg plan interval auth d)
    (hhonoured : Honoured cfg plan interval auth d) : OnePhase cfg plan interval auth d := by
  intro c hload hrefuses s hs
  obtain ⟨hsnd, -⟩ := applyPlanChange_of_loaded hload (hdown c hload)
  have hc := (exec_loadForChange cfg plan interval auth d).2 c hload
  obtain ⟨e, hend, -, hstart, hlt, hshape⟩ := period_of_loaded h hc
  obtain ⟨p, hpstart, hpend, hphases | ⟨q, hphases, hq⟩⟩ := hshape s hs
  · rw [hphases]
    rfl
  · have hcur : s.phases.getLast? = some q := by rw [hphases]; rfl
    obtain ⟨db, hexec⟩ := exec_sendDowngrade c s s.id hcur d
    have hsent : ((applyPlanChange cfg plan interval auth).exec d).2.sent =
        d.sent ++ [⟨s.id, downgradePhases c q⟩] := by
      rw [hsnd, exec_downgradeLater_of_some h hc hs, hrefuses, if_neg Bool.false_ne_true, hexec]
      unfold StripeDesk.afterUpdate
      split <;> rfl
    have hmem : (⟨s.id, downgradePhases c q⟩ : ScheduleUpdate) ∈
        ((applyPlanChange cfg plan interval auth).exec d).2.sent.drop d.sent.length := by
      rw [hsent, List.drop_left]
      exact List.mem_singleton.mpr rfl
    obtain ⟨sub, target, -, -, cur, p', e', -, -, -, hlt', hphases'⟩ := hhonoured.wellFormed _ hmem
    -- the first phase would start at its own end
    have hfirst := (List.cons.inj hphases').1
    have hstart' : q.startDate = p'.startDate :=
      Option.some.inj (congrArg PhaseParam.startDate hfirst)
    have hend' : c.sub.currentPeriodEnd = some e' := congrArg PhaseParam.endDate hfirst
    rw [hend] at hend'
    cases hend'
    exact absurd (hstart'.symm.trans hq) hlt'.ne

/-- Releasing a schedule keeps the desk within the period. -/
theorem InPeriod.release (h : InPeriod d) (id : Nat) :
    InPeriod ((schedulesRelease id).exec d).2 := by
  rw [schedulesRelease, Prog.exec_write]
  dsimp only
  by_cases href : d.refuses .schedulesRelease = true
  · rw [if_pos href]
    exact h
  rw [if_neg href]
  have hfilter : InPeriod { d with schedules := d.schedules.filter (·.id != id) } := by
    refine ⟨fun sub e? he => ?_, ?_, fun s hs => h.lt_created s (List.mem_filter.mp hs).1⟩
    · obtain ⟨e, heq, hstart, hend, hshape⟩ := h.period sub e? he
      exact ⟨e, heq, hstart, hend, fun s hs => hshape s (List.mem_filter.mp hs).1⟩
    · exact h.nodup.sublist (List.filter_sublist.map Schedule.id)
  refine hfilter.of_samePeriods ⟨?_, rfl, ?_⟩ rfl rfl
  · cases (d.schedules.find? (·.id == id)).map (·.subId) with
    | none => rfl
    | some subId => exact funext fun sub => periodEnd_setScheduled d.world subId sub false
  · cases (d.schedules.find? (·.id == id)).map (·.subId) <;> rfl

/-- Cancelling a scheduled change keeps the desk within the period. -/
theorem InPeriod.cancel (h : InPeriod d) (cfg : Config) (auth : AuthData) :
    InPeriod ((cancelScheduledChange cfg auth).exec d).2 := by
  let Keeps (d d' : StripeDesk) : Prop := InPeriod d → InPeriod d'
  have hrefl : ∀ d, Keeps d d := fun _ => id
  -- what a handler does to the accounts is of no concern to the schedules
  have hworld {α : Type} {p : Handler α}
      (hp : Prog.Within (fun w w' => ∃ db, w' = { w with db := db }) p) :
      Prog.Within Keeps (onWorld p) := by
    refine hp.zoom fun d w hw hin => ?_
    obtain ⟨db, rfl⟩ := hw
    exact hin.of_samePeriods ⟨rfl, rfl, rfl⟩ rfl rfl
  -- the steps of the handler, one by one
  have hclear : Prog.Within Keeps (onWorld (clearPending auth.email)) := by
    refine hworld (.ite (.throw _) (within_call (fun w => ⟨w.db, rfl⟩) fun w _ w' hw => ?_))
    obtain ⟨db, -, heq⟩ := Option.map_eq_some_iff.mp hw
    cases heq
    exact ⟨db, rfl⟩
  have hretrieve (id : String) : Prog.Within Keeps (subscriptionsRetrieve id) := by
    refine .attempt hrefl fun d a d' hd => ?_
    split at hd
    · cases hd
    · obtain ⟨sub, -, heq⟩ := Option.map_eq_some_iff.mp hd
      cases heq
      exact hrefl d
  have hrelease (id : Nat) : Prog.Within Keeps (schedulesRelease id) :=
    .write fun d hin => hin.release id
  have hcancel : Prog.Within Keeps (cancelScheduledChange cfg auth) := by
    unfold cancelScheduledChange
    refine .ite (.throw _) (.ite (.throw _) (.tryCatch ?_ fun _ => .throw _))
    refine .bind (hworld (.read (fun w => ⟨w.db, rfl⟩) _)) fun acct => ?_
    split
    · exact .bind hclear fun _ => .pure _
    · refine .bind (hretrieve _) fun found => ?_
      obtain ⟨sub, scheduleId⟩ := found
      cases scheduleId with
      | some id => exact .bind (hrelease id) fun _ => .bind hclear fun _ => .pure _
      | none => exact .bind hclear fun _ => .pure _
  exact hcancel.exec hrefl (fun _ _ _ h h' hin => h' (h hin)) d h

/-! ### Within one period -/

/-- The sequence stays within the current periods, and requests no upgrade. -/
def WithinPeriod (cfg : Config) : StripeDesk → List Event → Prop
  | _, [] => True
  | d, .apply plan interval auth :: es =>
    NoUpgrade cfg plan interval auth d ∧
      WithinPeriod cfg ((Event.apply plan interval auth).run cfg d) es
  | d, .cancel auth :: es => WithinPeriod cfg ((Event.cancel auth).run cfg d) es
  | d, .meanwhile now refuses fails :: es =>
    (∀ id e, d.periodEnd id = some (some e) → d.world.now ≤ now ∧ now < e) ∧
      WithinPeriod cfg ((Event.meanwhile now refuses fails).run cfg d) es

/-- Every request of the sequence is honoured. -/
def HonouredThroughout (cfg : Config) : StripeDesk → List Event → Prop
  | _, [] => True
  | d, .apply plan interval auth :: es => Honoured cfg plan interval auth d ∧
      HonouredThroughout cfg ((Event.apply plan interval auth).run cfg d) es
  | d, .cancel auth :: es => HonouredThroughout cfg ((Event.cancel auth).run cfg d) es
  | d, .meanwhile now refuses fails :: es =>
    HonouredThroughout cfg ((Event.meanwhile now refuses fails).run cfg d) es

/-- Every request of the sequence that reads an attached schedule finds one phase. -/
def OnePhaseThroughout (cfg : Config) : StripeDesk → List Event → Prop
  | _, [] => True
  | d, .apply plan interval auth :: es => OnePhase cfg plan interval auth d ∧
      OnePhaseThroughout cfg ((Event.apply plan interval auth).run cfg d) es
  | d, .cancel auth :: es => OnePhaseThroughout cfg ((Event.cancel auth).run cfg d) es
  | d, .meanwhile now refuses fails :: es =>
    OnePhaseThroughout cfg ((Event.meanwhile now refuses fails).run cfg d) es

/-- A phase in force stays so until the period ends. -/
theorem InPeriod.meanwhile (h : InPeriod d) {now : Time}
    (hnow : ∀ id e, d.periodEnd id = some (some e) → d.world.now ≤ now ∧ now < e)
    (refuses : SdkCall → Bool) (fails : Site → Bool) :
    InPeriod ((Event.meanwhile now refuses fails).run cfg d) := by
  refine ⟨fun id e? he => ?_, h.nodup, h.lt_created⟩
  obtain ⟨e, rfl, hstart, -, hshape⟩ := h.period id e? he
  obtain ⟨hle, hlt⟩ := hnow id e he
  refine ⟨e, rfl, hstart.trans hle, hlt, fun s hs hid => ?_⟩
  obtain ⟨p, hpstart, hpend, hphases⟩ := hshape s hs hid
  exact ⟨p, hpstart.trans hle, hpend, hphases⟩

/-- Over any sequence of downgrades and cancellations within one period, every update is well
formed, and every request that returns decides what comes after the period, exactly when each
request that reads an attached schedule finds it with one phase. -/
theorem honouredThroughout_iff {es : List Event} (h : InPeriod d)
    (hwithin : WithinPeriod cfg d es) :
    HonouredThroughout cfg d es ↔ OnePhaseThroughout cfg d es := by
  induction es generalizing d with
  | nil => exact Iff.rfl
  | cons event es ih =>
    cases event with
    | cancel auth => exact ih (h.cancel cfg auth) hwithin
    | meanwhile now refuses fails => exact ih (h.meanwhile hwithin.1 refuses fails) hwithin.2
    | apply plan interval auth =>
      obtain ⟨hdown, hwithin⟩ := hwithin
      constructor
      · rintro ⟨hhonoured, hrest⟩
        have hone := onePhase_of_honoured h hdown hhonoured
        obtain ⟨-, hin⟩ := honoured_of_onePhase h hdown hone
        exact ⟨hone, (ih hin hwithin).mp hrest⟩
      · rintro ⟨hone, hrest⟩
        obtain ⟨hhonoured, hin⟩ := honoured_of_onePhase h hdown hone
        exact ⟨hhonoured, (ih hin hwithin).mpr hrest⟩

/-! ### Two downgrades in one period -/

/-- Ada's account on Business. -/
def adaOnBusiness : BillingAccount where
  id := 1
  email := "ada@example.com"
  planName := "business"
  subscriptionStatus := some "active"
  billingInterval := some .month
  currentPeriodEnd := some 1000
  stripeCustomerId := some "cus_ada"
  stripeSubscriptionId := some "sub_2"

/-- Her subscription, a tenth of the way through its period. -/
def adaDesk : StripeDesk where
  world :=
    { db :=
        { billingAccounts :=
            { rows := [adaOnBusiness]
              next := 2
              id_lt := by decide
              nodup := by decide
              noClash := by decide } }
      stripe := { subscriptions := [{ adaStripeBusiness with currentPeriodEnd := some 1000 }] }
      now := 100 }

theorem inPeriod_adaDesk : InPeriod adaDesk := by
  refine ⟨fun id e? he => ?_, List.nodup_nil, nofun⟩
  obtain ⟨sub, hsub, rfl⟩ := Option.map_eq_some_iff.mp he
  obtain rfl := List.mem_singleton.mp (List.mem_of_find?_eq_some hsub)
  exact ⟨1000, rfl, Nat.zero_le 100, by decide, nofun⟩

theorem noUpgrade_of_direction (h : ((loadForChange cfg plan interval auth).exec d).1.toOption.map
    Change.direction = some .downgrade) : NoUpgrade cfg plan interval auth d := by
  intro c hc
  rw [hc] at h
  exact Option.some.inj h

theorem onePhase_of_all (h : d.schedules.all (·.phases.length == 1) = true) :
    OnePhase cfg plan interval auth d := by
  intro c _ _ s hs
  exact beq_iff_eq.mp (List.all_eq_true.mp h s (List.mem_of_find?_eq_some hs))

/-- The first downgrade is taken back before the second is requested. -/
def changedMind : List Event :=
  [.apply "pro" (some "month") adaOwner, .cancel adaOwner, .apply "pro" (some "year") adaOwner]

/-- The second downgrade follows the first. -/
def downgradedTwice : List Event :=
  [.apply "pro" (some "month") adaOwner, .apply "pro" (some "year") adaOwner]

theorem honouredThroughout_iff_ada : HonouredThroughout .stripeDemo adaDesk changedMind ∧
    (changedMind.foldl (Event.run .stripeDemo) adaDesk).schedules.map Schedule.phases =
      [[⟨"price_business", 0, some 1000⟩, ⟨"price_pro_yearly", 1000, none⟩]] := by
  have hwithin : WithinPeriod .stripeDemo adaDesk changedMind :=
    ⟨noUpgrade_of_direction (by decide +kernel), noUpgrade_of_direction (by decide +kernel),
      trivial⟩
  have hone : OnePhaseThroughout .stripeDemo adaDesk changedMind :=
    ⟨onePhase_of_all (by decide +kernel), onePhase_of_all (by decide +kernel), trivial⟩
  exact ⟨(honouredThroughout_iff inPeriod_adaDesk hwithin).mpr hone, by decide +kernel⟩

/-- The first phase of the second update ends where it starts. -/
theorem second_downgrade_sends_empty_phase :
    InPeriod adaDesk ∧ WithinPeriod .stripeDemo adaDesk downgradedTwice ∧
      (downgradedTwice.foldl (Event.run .stripeDemo) adaDesk).sent.map ScheduleUpdate.phases =
        [[⟨"price_business", some 0, some 1000⟩, ⟨"price_pro", none, none⟩],
          [⟨"price_business", some 1000, some 1000⟩, ⟨"price_pro_yearly", none, none⟩]] ∧
      ¬ HonouredThroughout .stripeDemo adaDesk downgradedTwice := by
  have hfirst : NoUpgrade .stripeDemo "pro" (some "month") adaOwner adaDesk :=
    noUpgrade_of_direction (by decide +kernel)
  have hsecond : NoUpgrade .stripeDemo "pro" (some "year") adaOwner
      ((Event.apply "pro" (some "month") adaOwner).run .stripeDemo adaDesk) :=
    noUpgrade_of_direction (by decide +kernel)
  refine ⟨inPeriod_adaDesk, ⟨hfirst, hsecond, trivial⟩, by decide +kernel, fun hhonoured => ?_⟩
  obtain ⟨-, hin⟩ := honoured_of_onePhase inPeriod_adaDesk hfirst (onePhase_of_all (by decide))
  -- were it honoured, the schedule would have one phase, and it has two
  have hone := onePhase_of_honoured hin hsecond hhonoured.2.1
  have hloads : (((loadForChange .stripeDemo "pro" (some "year") adaOwner).exec
      ((Event.apply "pro" (some "month") adaOwner).run .stripeDemo adaDesk)).1.toOption.map
        fun c => c.sub.id) = some "sub_2" := by decide +kernel
  obtain ⟨c, hc, hid⟩ := Option.map_eq_some_iff.mp hloads
  have hload : ((loadForChange .stripeDemo "pro" (some "year") adaOwner).exec
      ((Event.apply "pro" (some "month") adaOwner).run .stripeDemo adaDesk)).1 = .ok c := by
    revert hc
    cases ((loadForChange .stripeDemo "pro" (some "year") adaOwner).exec
      ((Event.apply "pro" (some "month") adaOwner).run .stripeDemo adaDesk)).1 with
    | error e => exact nofun
    | ok c' => exact fun hc => congrArg _ (Option.some.inj hc)
  have hattached : (((Event.apply "pro" (some "month") adaOwner).run .stripeDemo adaDesk).attached
      "sub_2").map (·.phases.length) = some 2 := by decide +kernel
  obtain ⟨s, hs, hlength⟩ := Option.map_eq_some_iff.mp hattached
  have hshort := hone c hload (by decide +kernel) s (hid ▸ hs)
  omega

end Feedbase.ChangePlan
