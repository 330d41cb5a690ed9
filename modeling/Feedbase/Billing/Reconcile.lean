import Feedbase.Billing.PaddleBilling

/-!
# What reconcile does to an account

Spec lemmas for `reconcile` run to completion. `lookupSub` is the subscription its
two lookup routes lead to, and `reconcile_cases` says what the account holds
afterwards in each of the four cases: a subscription that is paid and live, with or
without a scheduled change in flight, and none, with or without a stored status.
-/

namespace Feedbase

variable {cfg : Config} {w w' : World} {email : String} {sub : NormalizedSub}

/-! ### Frames -/

/-- Everything but the database and Paddle is as before. -/
structure SameServer (w w' : World) : Prop where
  now : w'.now = w.now
  fails : w'.fails = w.fails
  recentFirst : w'.recentFirst = w.recentFirst

theorem SameServer.refl (w : World) : SameServer w w := ⟨rfl, rfl, rfl⟩

theorem SameServer.trans {w'' : World} (h : SameServer w w') (h' : SameServer w' w'') :
    SameServer w w'' :=
  ⟨h'.now.trans h.now, h'.fails.trans h.fails, h'.recentFirst.trans h.recentFirst⟩

/-- A committed `setAccountPlan`. -/
theorem setAccountPlan_spec {f : AccountFields} (h : (setAccountPlan email f).exec w = (.ok (), w')) :
    accountOf w'.db email = f.apply { accountOf w.db email with id := (accountOf w'.db email).id } ∧
      w'.paddle = w.paddle ∧ SameServer w w' := by
  obtain ⟨hne, -, db', htx, rfl⟩ := exec_setAccountPlan_ok_iff.mp h
  exact ⟨accountOf_setAccountPlanTx hne htx, rfl, ⟨rfl, rfl, rfl⟩⟩

/-! ### The lookup -/

/-- The customer the account is looked up by: the stored id, else the first customer
with the account's email. -/
def accountCustomer (w : World) (email : String) : Option String :=
  (orNull (accountOf w.db email).paddleCustomerId).or
    (orNull ((w.paddle.customersOf email).head?.map (·.id)))

/-- The subscription the two routes of `fetchSubscription` lead to. -/
def lookupSub (w : World) (email : String) : Option PaddleSub :=
  match orNull (accountOf w.db email).paddleSubscriptionId with
  | some id => w.paddle.get id
  | none => (accountCustomer w email).bind fun customerId =>
      (w.paddle.listLive customerId).head?

/-- At most the provider ids of the account were written. -/
structure IdsOnly (email : String) (w w' : World) : Prop where
  columns : (accountOf w'.db email).toPlanColumns = (accountOf w.db email).toPlanColumns
  paddle : w'.paddle = w.paddle
  server : SameServer w w'

theorem IdsOnly.refl (email : String) (w : World) : IdsOnly email w w := ⟨rfl, rfl, .refl w⟩

theorem IdsOnly.trans {w'' : World} (h : IdsOnly email w w') (h' : IdsOnly email w' w'') :
    IdsOnly email w w'' :=
  ⟨h'.columns.trans h.columns, h'.paddle.trans h.paddle, h.server.trans h'.server⟩

theorem resolveCustomer_spec {found : Option String}
    (h : (resolveCustomer email (accountOf w.db email)).exec w = (.ok found, w')) :
    found = accountCustomer w email ∧ IdsOnly email w w' := by
  unfold resolveCustomer at h
  split at h
  · rename_i id hid
    cases h
    exact ⟨by simp [accountCustomer, hid], .refl email w⟩
  · rename_i hnone
    obtain ⟨customers, t, hlist, hrest⟩ := Prog.exec_bind_ok_iff.mp h
    obtain ⟨-, heq⟩ := exec_call_ok_iff.mp hlist
    cases heq
    simp only [accountCustomer, hnone, Option.none_or]
    split at hrest
    · rename_i id hid
      obtain ⟨⟨⟩, t, hset, hret⟩ := Prog.exec_bind_ok_iff.mp hrest
      cases hret
      obtain ⟨hacct, hpaddle, hserver⟩ := setAccountPlan_spec hset
      refine ⟨hid.symm, ?_, hpaddle, hserver⟩
      rw [hacct]
      rfl
    · rename_i hid
      cases hrest
      exact ⟨hid.symm, .refl email w⟩

/-- `fetchSubscription` finds `lookupSub` and leaves the plan columns alone. -/
theorem fetchSubscription_spec {found : Option NormalizedSub}
    (h : (fetchSubscription cfg email).exec w = (.ok found, w')) :
    found = (lookupSub w email).map (normalizeSub cfg.env) ∧ IdsOnly email w w' := by
  unfold fetchSubscription at h
  simp only [getAccount, exec_query_bind] at h
  unfold lookupSub
  -- a stored id is fetched, else the customer of the account is looked through
  cases hstored : orNull (accountOf w.db email).paddleSubscriptionId with
  | some id =>
    simp only [hstored] at h ⊢
    obtain ⟨sub, t, hget, hret⟩ := Prog.exec_bind_ok_iff.mp h
    obtain ⟨-, heq⟩ := exec_call_ok_iff.mp hget
    obtain ⟨sub', hsub, heq⟩ := Option.map_eq_some_iff.mp heq
    cases heq
    cases hret
    simp only [hsub, Option.map_some]
    exact ⟨trivial, .refl email w⟩
  | none =>
    simp only [hstored] at h ⊢
    obtain ⟨customer, t, hresolve, hrest⟩ := Prog.exec_bind_ok_iff.mp h
    obtain ⟨rfl, hids⟩ := resolveCustomer_spec hresolve
    split at hrest
    · rename_i hcust
      cases hrest
      simp only [hcust, Option.bind_none, Option.map_none]
      exact ⟨trivial, hids⟩
    · rename_i customerId hcust
      simp only [hcust, Option.bind_some]
      obtain ⟨subs, t', hlist, hrest⟩ := Prog.exec_bind_ok_iff.mp hrest
      obtain ⟨-, heq⟩ := exec_call_ok_iff.mp hlist
      cases heq
      rw [hids.paddle] at hrest
      split at hrest
      · rename_i hhead
        cases hrest
        simp only [hhead, Option.map_none]
        exact ⟨trivial, hids⟩
      · rename_i sub hhead
        -- the subscription that was found is stored, under the id only
        obtain ⟨⟨⟩, t', hset, hret⟩ := Prog.exec_bind_ok_iff.mp hrest
        cases hret
        obtain ⟨hacct, hpaddle, hserver⟩ := setAccountPlan_spec hset
        simp only [hhead, Option.map_some]
        refine ⟨trivial, hids.trans ⟨?_, hpaddle, hserver⟩⟩
        rw [hacct]
        rfl

/-! ### The four outcomes -/

/-- The subscription is live and its first item has a configured price. -/
def PaddleSub.isPaid (env : Env) (s : PaddleSub) : Bool :=
  s.status.isActive && (planByPaddlePriceId env s.priceId).isSome

theorem planName_normalizeSub_ne_free_iff {env : Env} {s : PaddleSub} :
    (normalizeSub env s).planName ≠ "free" ↔ s.isPaid env := by
  simp only [normalizeSub, PaddleSub.isPaid, Bool.and_eq_true]
  split
  · rename_i hactive
    cases hplan : planByPaddlePriceId env s.priceId with
    | none => simp
    | some plan =>
      have hne : plan ≠ "free" := fun h => planByPaddlePriceId_ne_free (h ▸ hplan)
      simpa [hactive] using hne
  · simp_all

/-- What a completed `reconcile` of an account that is not comped has done. -/
theorem reconcile_cases (hrun : (reconcile cfg email).exec w = (.ok (), w')) (hne : email ≠ "")
    (hconf : isPaddleConfigured cfg.env = true)
    (hcomped : (accountOf w.db email).subscriptionStatus ≠ some "comped") :
    (∃ s a₀, lookupSub w email = some s ∧ s.isPaid cfg.env ∧
      (accountOf w.db email).pendingActive w.now = true ∧
      a₀.toPlanColumns = (accountOf w.db email).toPlanColumns ∧
      accountOf w'.db email =
        (heldFields (accountOf w.db email) (normalizeSub cfg.env s)).apply a₀) ∨
    (∃ s a₀, lookupSub w email = some s ∧ s.isPaid cfg.env ∧
      (accountOf w.db email).pendingActive w.now = false ∧
      accountOf w'.db email = (liveFields (normalizeSub cfg.env s)).apply a₀) ∨
    (∃ status a₀, (∀ s, lookupSub w email = some s → ¬ s.isPaid cfg.env) ∧
      (orNull (accountOf w.db email).subscriptionStatus).isSome ∧
      accountOf w'.db email = (resetFields status).apply a₀) ∨
    ((∀ s, lookupSub w email = some s → ¬ s.isPaid cfg.env) ∧
      orNull (accountOf w.db email).subscriptionStatus = none ∧
      (accountOf w'.db email).toPlanColumns = (accountOf w.db email).toPlanColumns) := by
  unfold reconcile at hrun
  rw [if_neg (by simp [hne, hconf])] at hrun
  simp only [getAccount, exec_query_bind, if_neg hcomped] at hrun
  obtain ⟨found, t, hfetch, hrest⟩ := Prog.exec_bind_ok_iff.mp hrun
  obtain ⟨rfl, hids⟩ := fetchSubscription_spec hfetch
  -- a subscription on a paid plan, or anything less
  split at hrest
  · rename_i sub hsub
    obtain ⟨hfound, hpaid⟩ := Option.filter_eq_some_iff.mp hsub
    obtain ⟨s, hlookup, rfl⟩ := Option.map_eq_some_iff.mp hfound
    rw [decide_eq_true_eq, planName_normalizeSub_ne_free_iff] at hpaid
    unfold reconcileLive at hrest
    rw [exec_getNow_bind, hids.server.now] at hrest
    split at hrest
    · -- a scheduled change holds the columns until its date
      rename_i hpending
      obtain ⟨hacct, -, -⟩ := setAccountPlan_spec hrest
      refine .inl ⟨s, _, hlookup, hpaid, hpending, ?_, hacct⟩
      exact hids.columns
    · rename_i hpending
      obtain ⟨⟨⟩, u, hoffer, hset⟩ := Prog.exec_bind_ok_iff.mp hrest
      obtain ⟨hacct, -, -⟩ := setAccountPlan_spec hset
      exact .inr (.inl ⟨s, _, hlookup, hpaid, by simpa using hpending, hacct⟩)
  · rename_i hnone
    have hunpaid : ∀ s, lookupSub w email = some s → ¬ s.isPaid cfg.env := by
      intro s hs hpaid
      rw [hs, Option.map_some] at hnone
      have hplan := planName_normalizeSub_ne_free_iff.mpr hpaid
      simp [Option.filter_some, hplan] at hnone
    split at hrest
    · rename_i hstatus
      obtain ⟨hacct, -, -⟩ := setAccountPlan_spec hrest
      exact .inr (.inr (.inl ⟨_, _, hunpaid, hstatus, hacct⟩))
    · rename_i hstatus
      cases hrest
      exact .inr (.inr (.inr ⟨hunpaid, by simpa using hstatus, hids.columns⟩))

end Feedbase
