import Feedbase.Billing.Stripe
import Mathlib.Data.List.Induction

/-!
# Stripe subscription events in any order

A history is the list of snapshots the provider took of an account's subscriptions,
one for each event. The events are delivered in any order and any number of times;
each delivery writes its own snapshot, so after a run the account shows the snapshot
of the last delivery that was not lost to a database fault, live or not.

## Main definitions

* `liveAtEnd` — the subscription that is live at the end of a history
* `StripeDelivery`, `deliverAll`, `Belong`
* `ShowsLive`, `EndsOnLive`

## Main results

* `shown_deliverAll` — what the account shows after a run
* `showsLive_iff` — when that is the live subscription
-/

namespace Feedbase

variable {cfg : Config} {w : World} {email : String} {ds : List StripeDelivery}
  {history : List StripeSub}

/-! ### Histories -/

/-- The last snapshot of a subscription. -/
def latestOf (history : List StripeSub) (id : String) : Option StripeSub :=
  history.reverse.find? (·.id == id)

/-- The subscriptions that are live at the end of the history. -/
def liveSubscriptions (history : List StripeSub) : List StripeSub :=
  (history.filter fun s => s.status.isActive && latestOf history s.id == some s).dedup

/-- The subscription that is live at the end of the history. -/
def liveAtEnd (history : List StripeSub) : Option StripeSub := (liveSubscriptions history).head?

/-- At no moment of the history are two subscriptions live. -/
def OneLiveAtATime (history : List StripeSub) : Prop :=
  ∀ past ∈ history.inits, (liveSubscriptions past).length ≤ 1

instance : Decidable (OneLiveAtATime history) :=
  inferInstanceAs (Decidable (∀ past ∈ _, _))

/-! ### Deliveries -/

/-- One delivery of an event, with the faults that hit its handling. -/
structure StripeDelivery where
  change : SubscriptionChange
  sub : StripeSub
  fails : Site → Bool := fun _ => false

/-- The world after the webhook has handled the delivery. -/
def deliver (cfg : Config) (w : World) (d : StripeDelivery) : World :=
  ((handleStripeWebhook cfg (some (.customerSubscription d.change d.sub))).exec
    { w with fails := d.fails }).2

def deliverAll (cfg : Config) (w : World) (ds : List StripeDelivery) : World :=
  ds.foldl (deliver cfg) w

/-- Every event is one of the account's, as the server sees it when the event comes. -/
def Belong (cfg : Config) (email : String) : World → List StripeDelivery → Prop
  | _, [] => True
  | w, d :: ds => attributedEmail w.db d.sub = some email ∧ Belong cfg email (deliver cfg w d) ds

/-- Events whose metadata names the account are the account's. -/
theorem belong_of_named (hne : email ≠ "") (h : ∀ d ∈ ds, d.sub.accountEmail = some email) :
    Belong cfg email w ds := by
  induction ds generalizing w with
  | nil => trivial
  | cons d ds ih =>
    have hnamed : orNull d.sub.accountEmail = some email :=
      orNull_eq_some_iff.mpr ⟨h d List.mem_cons_self, hne⟩
    refine ⟨?_, ih fun d' hd' => h d' (List.mem_cons_of_mem _ hd')⟩
    unfold attributedEmail
    rw [hnamed]
    rfl

/-! ### What the account shows -/

/-- The three columns a subscription decides. -/
structure Shown where
  planName : String
  subscriptionStatus : Option String
  stripeSubscriptionId : Option String
  deriving DecidableEq

def BillingAccount.shown (a : BillingAccount) : Shown :=
  ⟨a.planName, a.subscriptionStatus, a.stripeSubscriptionId⟩

def StripeSub.shown (env : Env) (s : StripeSub) : Shown :=
  ⟨s.planName env, some s.status.text, some s.id⟩

/-- The account shows the live subscription, and free when there is none. -/
def ShowsLive (env : Env) (live : Option StripeSub) (x : Shown) : Prop :=
  match live with
  | some s => x = s.shown env
  | none => x.planName = "free"

instance {env : Env} {live : Option StripeSub} {x : Shown} : Decidable (ShowsLive env live x) := by
  unfold ShowsLive
  split <;> infer_instance

/-- The snapshot of the last delivery that was not lost to a database fault. -/
def lastWritten (ds : List StripeDelivery) : Option StripeSub :=
  (ds.filter fun d => !d.fails .setAccountPlan).getLast?.map (·.sub)

/-- The last delivery that was not lost carries what the live subscription carries at
the end; without one, the account is to show it already. -/
def EndsOnLive (env : Env) (history : List StripeSub) (initial : Shown)
    (ds : List StripeDelivery) : Prop :=
  match lastWritten ds, liveAtEnd history with
  | some last, some live =>
    last.id = live.id ∧ last.status = live.status ∧ last.planName env = live.planName env
  | some last, none => last.planName env = "free"
  | none, live => ShowsLive env live initial

/-- One delivery writes its snapshot, unless the transaction fails. -/
theorem shown_deliver {d : StripeDelivery} (h : attributedEmail w.db d.sub = some email) :
    (accountOf (deliver cfg w d).db email).shown =
      if d.fails .setAccountPlan then (accountOf w.db email).shown else d.sub.shown cfg.env := by
  have hne : email ≠ "" := attributedEmail_ne_empty h
  have hsnd := handleStripeWebhook_snd cfg { w with fails := d.fails }
    (.customerSubscription d.change d.sub)
  have htarget : (StripeEvent.customerSubscription d.change d.sub).target
      { w with fails := d.fails } = some (email, d.sub) := by
    simp [StripeEvent.target, StripeEvent.applied, h]
  rw [htarget] at hsnd
  unfold deliver
  rw [hsnd]
  rcases exec_setAccountPlan_cases (f := subscriptionFields cfg.env d.sub)
    { w with fails := d.fails } hne (by simp [subscriptionFields]) with
    ⟨hfails, hexec⟩ | ⟨hfails, db', htx, hexec⟩
  · dsimp only at hfails ⊢
    rw [hexec, hfails]
    rfl
  · dsimp only at hfails htx ⊢
    rw [hexec, hfails]
    have hacct := accountOf_setAccountPlanTx hne htx
    dsimp only
    rw [hacct]
    rfl

theorem deliverAll_concat (d : StripeDelivery) :
    deliverAll cfg w (ds ++ [d]) = deliver cfg (deliverAll cfg w ds) d := by
  unfold deliverAll
  rw [List.foldl_concat]

theorem Belong.concat {d : StripeDelivery} (h : Belong cfg email w (ds ++ [d])) :
    Belong cfg email w ds ∧ attributedEmail (deliverAll cfg w ds).db d.sub = some email := by
  induction ds generalizing w with
  | nil => exact ⟨trivial, h.1⟩
  | cons d' ds ih =>
    obtain ⟨hinit, hlast⟩ := ih h.2
    exact ⟨⟨h.1, hinit⟩, hlast⟩

theorem lastWritten_concat (d : StripeDelivery) :
    lastWritten (ds ++ [d]) =
      if d.fails .setAccountPlan then lastWritten ds else some d.sub := by
  unfold lastWritten
  rw [List.filter_append]
  cases hfails : d.fails .setAccountPlan with
  | true => simp [hfails]
  | false => simp [hfails]

/-- The last delivery that was not lost decides what the account shows. -/
theorem shown_deliverAll (h : Belong cfg email w ds) :
    (accountOf (deliverAll cfg w ds).db email).shown =
      ((lastWritten ds).map (·.shown cfg.env)).getD (accountOf w.db email).shown := by
  induction ds using List.reverseRecOn with
  | nil => rfl
  | append_singleton ds d ih =>
    obtain ⟨hinit, hlast⟩ := h.concat
    rw [deliverAll_concat, shown_deliver hlast, lastWritten_concat, ih hinit]
    split <;> rfl

theorem StripeStatus.text_injective {s t : StripeStatus} (h : s.text = t.text) : s = t := by
  revert h
  cases s <;> cases t <;> decide

theorem StripeSub.shown_eq_iff {env : Env} {s t : StripeSub} :
    s.shown env = t.shown env ↔
      s.id = t.id ∧ s.status = t.status ∧ s.planName env = t.planName env := by
  simp only [StripeSub.shown, Shown.mk.injEq, Option.some.injEq]
  constructor
  · intro ⟨hplan, hstatus, hid⟩
    exact ⟨hid, StripeStatus.text_injective hstatus, hplan⟩
  · intro ⟨hid, hstatus, hplan⟩
    exact ⟨hplan, congrArg StripeStatus.text hstatus, hid⟩

/-- After any deliveries, in any order and repetition, the account shows the
subscription that is live at the end exactly when the last delivery carries it. -/
theorem showsLive_iff (h : Belong cfg email w ds) :
    ShowsLive cfg.env (liveAtEnd history) (accountOf (deliverAll cfg w ds).db email).shown ↔
      EndsOnLive cfg.env history (accountOf w.db email).shown ds := by
  rw [shown_deliverAll h]
  unfold EndsOnLive ShowsLive
  cases lastWritten ds with
  | none => cases liveAtEnd history <;> exact Iff.rfl
  | some last =>
    cases liveAtEnd history with
    | none => exact Iff.rfl
    | some live => exact StripeSub.shown_eq_iff

/-! ### A late deletion -/

/-- Stripe is active, with a price for each paid plan and interval. -/
def Config.stripeDemo : Config :=
  .plain
    { billingProvider := some "stripe"
      stripeSecretKey := some "sk_live_key"
      stripePricePro := some "price_pro"
      stripePriceProYearly := some "price_pro_yearly"
      stripePriceBusiness := some "price_business"
      stripePriceBusinessYearly := some "price_business_yearly" }

/-- Ada's first Stripe subscription, as its checkout creates it. -/
def adaStripePro : StripeSub where
  id := "sub_1"
  customer := some "cus_ada"
  status := .active
  priceId := some "price_pro"
  accountEmail := some "ada@example.com"
  created := 0

/-- Her next one, on Business. -/
def adaStripeBusiness : StripeSub :=
  { adaStripePro with id := "sub_2", priceId := some "price_business", created := 100 }

/-- She subscribes, cancels, and subscribes again. -/
def adaStripeHistory : List StripeSub :=
  [adaStripePro, { adaStripePro with status := .canceled }, adaStripeBusiness]

/-- The deletion of the first subscription arrives last. -/
def lateDeletion : List StripeDelivery :=
  [⟨.created, adaStripePro, fun _ => false⟩, ⟨.created, adaStripeBusiness, fun _ => false⟩,
    ⟨.deleted, { adaStripePro with status := .canceled }, fun _ => false⟩]

/-- The account ends on free, with the id of the deleted subscription, while the second
one is live. -/
theorem late_deletion_hides_live_subscription :
    OneLiveAtATime adaStripeHistory ∧ (lateDeletion.map (·.sub)).Perm adaStripeHistory ∧
      Belong .stripeDemo "ada@example.com" {} lateDeletion ∧
      liveAtEnd adaStripeHistory = some adaStripeBusiness ∧
      (accountOf (deliverAll .stripeDemo {} lateDeletion).db "ada@example.com").shown =
        ⟨"free", some "canceled", some "sub_1"⟩ ∧
      ¬ ShowsLive Config.stripeDemo.env (liveAtEnd adaStripeHistory)
        (accountOf (deliverAll .stripeDemo {} lateDeletion).db "ada@example.com").shown := by
  refine ⟨by decide, by decide, belong_of_named (by decide) (by decide), by decide, by decide, ?_⟩
  decide

/-- In the order of the history the account ends on the live subscription. -/
theorem showsLive_iff_in_order :
    ShowsLive Config.stripeDemo.env (liveAtEnd adaStripeHistory)
        (accountOf (deliverAll .stripeDemo {}
          (adaStripeHistory.map fun s => ⟨.updated, s, fun _ => false⟩)).db "ada@example.com").shown ↔
      EndsOnLive Config.stripeDemo.env adaStripeHistory (accountOf {} "ada@example.com").shown
        (adaStripeHistory.map fun s => ⟨.updated, s, fun _ => false⟩) :=
  showsLive_iff (belong_of_named (by decide) (by decide))

end Feedbase
