import Feedbase.Billing.SweepPhases
import Feedbase.Lib.Turns

/-!
# Sweeps without the scheduler's lock

Any number of sweeps run at once. Each reads the item of a subscription before it updates
it, and the two are separate calls: a sweep that finds the target price does nothing, and
two sweeps that both read the old one both send the update.

## Main definitions

* `SetsItem` — the next action of a call is an update of a subscription's item
* `SendsAlone`, `UpdatesItem`

## Main results

* `updatedOnce_of_run`
-/

namespace Feedbase

variable {cfg : Config} {subId : String} {w w' : World}

/-! ### Interleavings -/

/-- What happens between the actions of the sweeps: time passes, providers and statements
fail or work again, and nothing changes an account or the item of a subscription. -/
structure KeepsItems (w w' : World) : Prop where
  accounts : w'.db.billingAccounts = w.db.billingAccounts
  price : ∀ id, priceOf w' id = priceOf w id

def SweepEnv : Type := { f : World → World // ∀ w, KeepsItems w (f w) }

/-- A request is the lead time of a sweep, in seconds. -/
def sweepSystem (cfg : Config) : System World Failure Unit Time SweepEnv where
  handler := applyDuePendingChanges cfg
  env e := e.1

abbrev SweepPool := Pool World Failure Unit Time

abbrev SweepCall := Call World Failure Unit Time

/-- The next action of the call is an update of the subscription's item by `patch`. -/
def SetsItem (cfg : Config) (subId : String) (patch : SubPatch) (c : SweepCall) : Prop :=
  ∃ ready next cont, c.prog = .act ready next cont ∧ patch.priceId.isSome ∧
    ∀ w : World, w.updates subId → ready w = true ∧
      next w = { w with paddle := w.paddle.updateSub cfg subId patch }

/-- At most one sweep stands between its reading of the item and its update. -/
def SendsAlone (cfg : Config) (subId : String) (P : SweepPool) : Prop :=
  ∀ (i j : Nat) (c d : SweepCall) (p q : SubPatch), P.calls[i]? = some c → P.calls[j]? = some d →
    SetsItem cfg subId p c → SetsItem cfg subId q d → i = j

/-- From one pool to the next a sweep updates the item by `patch`, and Paddle carries the
update out. -/
def UpdatesItem (cfg : Config) (subId : String) (patch : SubPatch) (P Q : SweepPool) : Prop :=
  ∃ i c, (sweepSystem cfg).move P (.run i) = some Q ∧ P.calls[i]? = some c ∧
    SetsItem cfg subId patch c ∧ P.state.updates subId

/-- The pending changes of one subscription ask for one price. -/
def OneTarget (cfg : Config) (subId : String) (db : Db) : Prop :=
  ∀ a ∈ db.billingAccounts, ∀ b ∈ db.billingAccounts,
    a.pendingPlan.isSome → b.pendingPlan.isSome → a.paddleSubscriptionId = some subId →
      b.paddleSubscriptionId = some subId → targetPrice cfg a = targetPrice cfg b

/-! ### Prices -/

/-- The sweep is about to update the subscription. -/
def SweepPhase.Sends (subId : String) : SweepPhase → Prop
  | .sending _ row _ => row.subId = subId
  | _ => False

theorem ReconcileStep.priceOf_eq {email : String} {φ φ' : ReconcilePhase}
    (h : ReconcileStep cfg email φ w φ' w') (id : String) : priceOf w' id = priceOf w id := by
  cases h with
  | offer h =>
    cases h with
    | quiet h => rw [h]
    | account e f db hA => exact hA.elim
    | paddle p hP h =>
      obtain ⟨id', d, rfl⟩ := hP
      rw [h]
      exact priceOf_updateSub (.inr rfl)
    | stripe s h => rw [h]; rfl
  | _ => rfl

theorem SweepStep.priceOf_eq {φ φ' : SweepPhase} (h : SweepStep cfg φ w φ' w')
    (hne : ¬ φ.Sends subId) : priceOf w' subId = priceOf w subId := by
  cases h with
  | updates h => exact priceOf_updateSub (.inl fun heq => hne heq.symm)
  | reconciles h => exact h.priceOf_eq subId
  | _ => rfl

/-- An update that is carried out leaves the item at its price. -/
theorem priceOf_updated {patch : SubPatch} {price : String} (hprice : patch.priceId = some price)
    (h : w.updates subId) :
    priceOf { w with paddle := w.paddle.updateSub cfg subId patch } subId = some price := by
  obtain ⟨sub, hsub⟩ := Option.isSome_iff_exists.mp h.2
  have hid : sub.id = subId := (Paddle.get_eq_some_iff.mp hsub).2
  rw [priceOf, Paddle.updateSub, Paddle.get_setSub, hsub, Option.map_some, Option.bind_some,
    if_pos (beq_iff_eq.mpr hid), cfg.price_patchSub, hprice, Option.some_or]

/-- The subscription is still there afterwards. -/
theorem World.updates.again (h : w.updates subId) (patch : SubPatch) :
    World.updates { w with paddle := w.paddle.updateSub cfg subId patch } subId := by
  refine ⟨h.1, ?_⟩
  dsimp only
  rw [Paddle.updateSub, Paddle.get_setSub, Option.isSome_map]
  exact h.2

variable {P Q : SweepPool} {phases : List SweepPhase}

/-- A call that is about to update can do it. -/
theorem SetsItem.exists_updatesItem {c : SweepCall} {patch : SubPatch} {i : Nat}
    (h : SetsItem cfg subId patch c) (hc : P.calls[i]? = some c) (hw : P.state.updates subId) :
    ∃ Q, UpdatesItem cfg subId patch P Q ∧ Q.state.updates subId ∧
      ∀ j, j ≠ i → Q.calls[j]? = P.calls[j]? := by
  obtain ⟨ready, next, cont, hprog, hprice, hnext⟩ := h
  obtain ⟨hready, hstate⟩ := hnext P.state hw
  refine ⟨_, ⟨i, c, System.move_run hc hprog hready, hc,
    ⟨ready, next, cont, hprog, hprice, hnext⟩, hw⟩, ?_, fun j hj => ?_⟩
  · dsimp only
    rw [hstate]
    exact hw.again patch
  · exact List.getElem?_set_ne (Ne.symm hj)

/-- A call whose next action is the update is in the phase before it. -/
theorem sends_of_setsItem {c : SweepCall} {φ : SweepPhase} {patch : SubPatch}
    (hfollows : Follows (SweepStep cfg) SweepDone φ c.prog) (hsets : SetsItem cfg subId patch c)
    (hw : w.updates subId) : φ.Sends subId := by
  obtain ⟨ready, next, cont, hprog, hprice, hnext⟩ := hsets
  obtain ⟨price, hprice⟩ := Option.isSome_iff_exists.mp hprice
  rw [hprog] at hfollows
  by_contra hne
  -- a state in which the item has another price
  let other := { w with
    paddle := w.paddle.updateSub cfg subId { priceId := some (price ++ "'") } }
  have hother : priceOf other subId = some (price ++ "'") := priceOf_updated rfl hw
  have hupdates : other.updates subId := hw.again _
  obtain ⟨hready, hstate⟩ := hnext other hupdates
  have hset : priceOf (next other) subId = some price := by
    rw [hstate]
    exact priceOf_updated hprice hupdates
  obtain ⟨φ', hstep, -⟩ := hfollows other hready
  rw [hstep.priceOf_eq hne, hother] at hset
  have hlength := congrArg String.length (Option.some.inj hset)
  simp at hlength

/-- The phase before the update. -/
theorem setsItem_of_sends {c : SweepCall} {rows : List BillingAccount} {row : BillingAccount}
    {patch : SubPatch}
    (hfollows : Follows (SweepStep cfg) SweepDone (.sending rows row patch) c.prog)
    (hwaits : Prog.NeverWaits c.prog) (hsub : row.subId = subId) (hprice : patch.priceId.isSome) :
    SetsItem cfg subId patch c := by
  obtain ⟨r, since, p⟩ := c
  cases p with
  | ret a => rcases hfollows with h | ⟨l, h⟩ <;> cases h
  | fail e => rcases hfollows with h | ⟨l, h⟩ <;> cases h
  | act ready next cont =>
    refine ⟨ready, next, cont, rfl, hprice, fun w hw => ⟨(hwaits w).1, ?_⟩⟩
    obtain ⟨φ', hstep, -⟩ := hfollows w (hwaits w).1
    generalize next w = w' at hstep
    cases hstep with
    | updates h => rw [hsub]
    | updateFails h => exact absurd (hsub ▸ hw) h

/-! ### What the sweeps work on -/

/-- The subscription an account's row names. -/
def storedSub (db : Db) (email : String) : Option String :=
  (accountRow db email).bind (·.paddleSubscriptionId)

theorem storedSub_of_mem {db : Db} {row : BillingAccount} (h : row ∈ db.billingAccounts) :
    storedSub db row.email = row.paddleSubscriptionId := by
  rw [storedSub, accountRow_eq_some_iff.mpr ⟨h, rfl⟩]
  rfl

theorem storedSub_setAccountPlanTx {db db' : Db} {email : String} {fields : AccountFields}
    (h : setAccountPlanTx email fields db = some db') (e : String) :
    storedSub db' e = if e = email then
      fields.paddleSubscriptionId.getD (storedSub db email) else storedSub db e := by
  by_cases he : e = email
  · subst he
    rw [if_pos rfl, storedSub, accountRow_setAccountPlanTx h, storedSub, ensuredAccount]
    cases accountRow db e <;> rfl
  · rw [if_neg he, storedSub, accountRow_setAccountPlanTx_of_ne he h, storedSub]

/-- The fields leave the stored subscription and the target as they are, or clear the
pending change. -/
def AccountFields.KeepsTarget (f : AccountFields) (stored : Option String) : Prop :=
  (f.paddleSubscriptionId = none ∨ f.paddleSubscriptionId = some stored) ∧
    ((f.pendingPlan = none ∧ f.pendingInterval = none) ∨ f.pendingPlan = some none)

/-- What no sweep changes: the subscription each account names, and the price the pending
changes of the subscription ask for. -/
structure SameTargets (cfg : Config) (subId : String) (ids : String → Option String)
    (target : Option String) (db : Db) : Prop where
  stored : ∀ email, storedSub db email = ids email
  aims : ∀ a ∈ db.billingAccounts, a.pendingPlan.isSome → a.paddleSubscriptionId = some subId →
    targetPrice cfg a = target

variable {ids : String → Option String} {target : Option String}

theorem SameTargets.of_accounts {db db' : Db} (h : SameTargets cfg subId ids target db)
    (haccounts : db'.billingAccounts = db.billingAccounts) :
    SameTargets cfg subId ids target db' where
  stored email := by
    rw [storedSub, accountRow, haccounts]
    exact h.stored email
  aims a ha := h.aims a (haccounts ▸ ha)

theorem SameTargets.write {db db' : Db} {email : String} {fields : AccountFields}
    (h : SameTargets cfg subId ids target db)
    (htx : setAccountPlanTx email fields db = some db')
    (hkeeps : fields.KeepsTarget (ids email)) : SameTargets cfg subId ids target db' := by
  -- the stored id stays, or is the same again
  have hsub : fields.paddleSubscriptionId.getD (storedSub db email) = ids email := by
    rcases hkeeps.1 with hnone | hsome
    · rw [hnone]
      exact h.stored email
    · rw [hsome]
      rfl
  refine ⟨fun e => ?_, fun a ha hpending hid => ?_⟩
  · rw [storedSub_setAccountPlanTx htx]
    split
    · rename_i he
      rw [he, hsub]
    · exact h.stored e
  · rcases (mem_billingAccounts_setAccountPlanTx htx).mp ha with ⟨ha, -⟩ | rfl
    · exact h.aims a ha hpending hid
    -- the row that was written still has its pending change, so the fields leave it alone
    obtain ⟨hplan, hinterval⟩ : fields.pendingPlan = none ∧ fields.pendingInterval = none := by
      refine hkeeps.2.resolve_right fun hcleared => ?_
      simp [AccountFields.apply, hcleared] at hpending
    have hpending' : (ensuredAccount db email).pendingPlan.isSome := by
      simpa [AccountFields.apply, hplan] using hpending
    cases hrow : accountRow db email with
    | none => simp [ensuredAccount, hrow, freeAccount] at hpending'
    | some a =>
      obtain ⟨ha, hemail⟩ := accountRow_eq_some_iff.mp hrow
      have hensured : ensuredAccount db email = a := by rw [ensuredAccount, hrow]; rfl
      have hstored : a.paddleSubscriptionId = some subId := by
        have happly : fields.paddleSubscriptionId.getD a.paddleSubscriptionId = some subId := by
          rw [← hensured]
          exact hid
        rw [← storedSub_of_mem ha, hemail, hsub] at happly
        rw [← storedSub_of_mem ha, hemail, h.stored, happly]
      -- the row that was there asked for the same price
      have htarget := h.aims a ha (hensured ▸ hpending') hstored
      rw [hensured, ← htarget]
      simp [targetPrice, AccountFields.apply, hplan, hinterval]

/-- A row the sweep has selected names what its account names. -/
structure RowAims (cfg : Config) (subId : String) (ids : String → Option String)
    (target : Option String) (row : BillingAccount) : Prop where
  stored : ids row.email = row.paddleSubscriptionId
  isSome : row.paddleSubscriptionId.isSome
  aims : row.paddleSubscriptionId = some subId → targetPrice cfg row = target

/-- The reconcile run works on the stored subscription. -/
def ReconcilePhase.Stores (stored : String) : ReconcilePhase → Prop
  | .byId _ id => id = stored
  | .live _ sub => sub.subscriptionId = stored
  | .writing fields => fields.KeepsTarget (some stored)
  | .customerLookup _ | .newCustomer _ _ | .byCustomer _ _ | .newSub _ _ => False
  | _ => True

/-- Once the provider has answered for the stored subscription. -/
theorem stores_conclude {stored : String} {acct : BillingAccount} {sub : PaddleSub}
    (hid : sub.id = stored) :
    (conclude acct (some (normalizeSub cfg.env sub))).Stores stored := by
  unfold conclude
  split
  · rename_i found hfound
    obtain ⟨hsome, -⟩ := Option.filter_eq_some_iff.mp hfound
    cases hsome
    exact hid
  · split
    · exact ⟨.inl rfl, .inr rfl⟩
    · trivial

/-- A reconcile run of an account that names a subscription finds no other. -/
theorem ReconcileStep.stores {email stored : String} {φ φ' : ReconcilePhase}
    (h : ReconcileStep cfg email φ w φ' w') (hφ : φ.Stores stored) (hne : email ≠ "")
    (hstored : storedSub w.db email = some stored) (hempty : stored ≠ "") : φ'.Stores stored := by
  cases h with
  | readAccount =>
    split
    · trivial
    · trivial
  | compClock =>
    split
    · exact ⟨.inl rfl, .inr rfl⟩
    · trivial
  | readIds =>
    have hacct : orNull (accountOf w.db email).paddleSubscriptionId = some stored := by
      obtain ⟨a, ha, hid⟩ := Option.bind_eq_some_iff.mp hstored
      rw [accountOf_of_ne hne, ha]
      exact orNull_eq_some_iff.mpr ⟨hid, hempty⟩
    -- with a stored id no other is looked for
    unfold lookupPhase
    rw [hacct]
    rfl
  | get h => exact stores_conclude ((Paddle.get_eq_some_iff.mp h).2.trans hφ)
  | missing h => trivial
  | findCustomer => exact hφ.elim
  | storeCustomer htx => exact hφ.elim
  | findSub => exact hφ.elim
  | storeSub htx => exact hφ.elim
  | liveClock =>
    have hid : _ = stored := hφ
    split
    · exact ⟨.inr (by rw [← hid]; rfl), .inl ⟨rfl, rfl⟩⟩
    · exact ⟨.inr (by rw [← hid]; rfl), .inr rfl⟩
  | offer h => exact hφ
  | write htx => trivial
  | fault h => trivial

/-! ### The rows of a sweep -/

/-- What the rows of a phase name, and what the phase is about to do with one of them. -/
def SweepPhase.Aims (cfg : Config) (subId : String) (ids : String → Option String)
    (target : Option String) : SweepPhase → Prop
  | .start => True
  | .sweeping rows | .retargeting rows _ _ => ∀ row ∈ rows, RowAims cfg subId ids target row
  | .sending rows row patch =>
    (∀ row ∈ rows, RowAims cfg subId ids target row) ∧ row ∈ rows ∧ row.subId ≠ "" ∧
      ∃ price, targetPrice cfg row = some price ∧ patch.priceId = some price
  | .reconciling rows row φ =>
    (∀ row ∈ rows, RowAims cfg subId ids target row) ∧ row ∈ rows ∧ row.email ≠ "" ∧
      row.subId ≠ "" ∧ φ.Stores row.subId

theorem RowAims.subId_eq {row : BillingAccount} (h : RowAims cfg subId ids target row) :
    row.paddleSubscriptionId = some row.subId := by
  obtain ⟨id, hid⟩ := Option.isSome_iff_exists.mp h.isSome
  rw [BillingAccount.subId, hid, Option.getD_some]

/-- The rows a sweep selects. -/
theorem SameTargets.rowAims (h : SameTargets cfg subId ids target w.db) {row : BillingAccount}
    {leadSeconds : Time} (hrow : row ∈ w.db.billingAccounts) (hdue : row.isDue w.now leadSeconds) :
    RowAims cfg subId ids target row := by
  simp only [BillingAccount.isDue, Bool.and_eq_true] at hdue
  obtain ⟨⟨⟨hpending, -⟩, hsub⟩, -⟩ := hdue
  exact ⟨by rw [← h.stored, storedSub_of_mem hrow], hsub, h.aims row hrow hpending⟩

/-- A reconcile run that works on the stored subscription keeps the targets. -/
theorem ReconcileStep.sameTargets {email stored : String} {φ φ' : ReconcilePhase}
    (h : ReconcileStep cfg email φ w φ' w') (hφ : φ.Stores stored) (hids : ids email = some stored)
    (hG : SameTargets cfg subId ids target w.db) : SameTargets cfg subId ids target w'.db := by
  cases h with
  | storeCustomer htx => exact hφ.elim
  | storeSub htx => exact hφ.elim
  | write htx => exact hG.write htx (hids ▸ hφ)
  | offer h =>
    cases h with
    | quiet h => rwa [h]
    | account e f db hA => exact hA.elim
    | paddle p hP h => rwa [h]
    | stripe s h => rwa [h]
  | _ => exact hG

/-- What one action of a sweep leaves of the targets. -/
theorem SweepStep.aims {φ φ' : SweepPhase} (h : SweepStep cfg φ w φ' w')
    (hφ : φ.Aims cfg subId ids target) (hG : SameTargets cfg subId ids target w.db) :
    SameTargets cfg subId ids target w'.db ∧ φ'.Aims cfg subId ids target := by
  cases h with
  | selects leadSeconds =>
    refine ⟨hG, fun row hrow => ?_⟩
    -- a row that is due has a pending change
    obtain ⟨hmem, hdue⟩ := List.mem_filter.mp hrow
    exact hG.rowAims hmem hdue
  | skips => exact ⟨hG, hφ⟩
  | @finds _ rows row price sub hrow htarget hget =>
    refine ⟨hG, ?_⟩
    have hne : row.subId ≠ "" := by
      obtain ⟨hsub, hid⟩ := Paddle.get_eq_some_iff.mp hget
      rw [← hid]
      exact w.paddle.id_ne_empty sub hsub
    unfold foundPhase
    split
    · exact hφ
    split
    · split
      · exact hφ
      · exact hφ
    · exact ⟨hφ, hrow, hne, price, htarget, rfl⟩
  | retargets htx => exact ⟨hG.write htx ⟨.inl rfl, .inl ⟨rfl, rfl⟩⟩, hφ⟩
  | retargetFails => exact ⟨hG, hφ⟩
  | updates h =>
    obtain ⟨hrows, hrow, hne, -⟩ := hφ
    refine ⟨hG, ?_⟩
    split
    · exact hrows
    · rename_i hemail
      exact ⟨hrows, hrow, hemail, hne, trivial⟩
  | updateFails h => exact ⟨hG, hφ.1⟩
  | @reconciles _ _ rows row φ φ' h =>
    obtain ⟨hrows, hrow, hemail, hne, hstores⟩ := hφ
    -- the run after an update is for the account of the row
    have hids : ids row.email = some row.subId :=
      (hrows row hrow).stored.trans (hrows row hrow).subId_eq
    have hstored : storedSub w.db row.email = some row.subId := (hG.stored row.email).trans hids
    refine ⟨h.sameTargets hstores hids hG, ?_⟩
    have hstores' := h.stores hstores hemail hstored hne
    cases φ' with
    | done => exact hrows
    | _ => exact ⟨hrows, hrow, hemail, hne, hstores'⟩

/-- Once the item has the target price, no sweep gets ready to update it. -/
theorem SweepStep.not_sends {φ φ' : SweepPhase} {price : String} (h : SweepStep cfg φ w φ' w')
    (hφ : φ.Aims cfg subId ids (some price)) (hprice : priceOf w subId = some price)
    (hne : price ≠ "") : ¬ φ'.Sends subId := by
  intro hsends
  cases h with
  | skips => exact hsends
  | selects => exact hsends
  | @finds _ rows row target sub hrow htarget hget =>
    unfold foundPhase at hsends
    split at hsends
    · exact hsends
    rename_i hother
    split at hsends
    · split at hsends
      · exact hsends
      · exact hsends
    have hrowId : row.subId = subId := hsends
    have haims := hφ row hrow
    -- the row asks for the price the item has
    have htargetPrice : target = price := by
      rw [haims.aims (by rw [haims.subId_eq, hrowId])] at htarget
      exact (Option.some.inj htarget).symm
    have hsubPrice : sub.priceId = some price := by
      rw [priceOf, ← hrowId, hget] at hprice
      exact hprice
    rw [htargetPrice] at hother
    exact hother (orNull_eq_some_iff.mpr ⟨hsubPrice, hne⟩)
  | retargets htx => exact hsends
  | retargetFails => exact hsends
  | updates h =>
    split at hsends
    · exact hsends
    · exact hsends
  | updateFails h => exact hsends
  | @reconciles _ _ rows row φ φ' h =>
    cases φ' with
    | _ => exact hsends

/-! ### At most one update -/

/-- Before the update: what the sweeps work on. -/
theorem aims_of_run {ok : SweepPool → SweepPool → Prop}
    (hG : SameTargets cfg subId ids target w.db)
    (h : (sweepSystem cfg).Run ok ⟨w, []⟩ P) :
    ∃ phases, Tracks (SweepStep cfg) SweepDone P phases ∧
      Tracks.Begun (sweepSystem cfg) (fun _ _ => .start) P phases ∧
      Tracks.Knows (fun w => SameTargets cfg subId ids target w.db)
        (fun _ φ _ => φ.Aims cfg subId ids target) P phases := by
  refine Tracks.knows_of_run (fun r _ => follows_applyDuePendingChanges r) hG
    (fun _ _ _ => trivial) ?_ ?_ h
  · intro e w hG
    exact ⟨hG.of_accounts (e.2 w).accounts, fun _ _ hφ => hφ⟩
  · intro P Q phases i c φ φ' _ _ _ _ hc _ hφ hT hknows
    obtain ⟨hG', hφ'⟩ := hT.aims (hknows.call i c φ hc hφ) hknows.state
    exact ⟨hG', hφ', fun _ _ _ _ _ _ hL => hL⟩

/-- After it: the item keeps its price, and nobody is about to update it. -/
theorem settled_of_run {price : String} {ok : SweepPool → SweepPool → Prop} (hne : price ≠ "")
    (htracks : Tracks (SweepStep cfg) SweepDone P phases)
    (hbegun : Tracks.Begun (sweepSystem cfg) (fun _ _ => .start) P phases)
    (hknows : Tracks.Knows
      (fun w => SameTargets cfg subId ids (some price) w.db ∧ priceOf w subId = some price)
      (fun _ φ _ => φ.Aims cfg subId ids (some price) ∧ ¬ φ.Sends subId) P phases)
    (h : (sweepSystem cfg).Run ok P Q) :
    ∃ phases, Tracks (SweepStep cfg) SweepDone Q phases ∧
      ∀ (i : Nat) (c : SweepCall) (φ : SweepPhase), Q.calls[i]? = some c → phases[i]? = some φ →
        ¬ φ.Sends subId := by
  have hrun := Tracks.knows_of_run_from (fun r _ => follows_applyDuePendingChanges r) htracks hbegun
    hknows (fun _ _ _ => ⟨trivial, id⟩) ?_ ?_ h
  · obtain ⟨phases, htracks, -, hknows⟩ := hrun
    exact ⟨phases, htracks, fun i c φ hc hφ => (hknows.call i c φ hc hφ).2⟩
  · rintro e w ⟨hG, hprice⟩
    exact ⟨⟨hG.of_accounts (e.2 w).accounts, ((e.2 w).price subId).trans hprice⟩, fun _ _ hφ => hφ⟩
  · intro P Q phases i c φ φ' _ _ _ _ hc _ hφ hT hknows
    obtain ⟨haims, hsends⟩ := hknows.call i c φ hc hφ
    obtain ⟨hG, hprice⟩ := hknows.state
    obtain ⟨hG', hφ'⟩ := hT.aims haims hG
    exact ⟨⟨hG', (hT.priceOf_eq hsends).trans hprice⟩, ⟨hφ', hT.not_sends haims hprice hne⟩,
      fun _ _ _ _ _ _ hL => hL⟩

theorem exists_sameTargets {db : Db} (hone : OneTarget cfg subId db) :
    ∃ target, SameTargets cfg subId (storedSub db) target db := by
  by_cases h : ∃ a ∈ db.billingAccounts, a.pendingPlan.isSome ∧ a.paddleSubscriptionId = some subId
  · obtain ⟨a, ha, hpending, hsub⟩ := h
    exact ⟨targetPrice cfg a, fun _ => rfl, fun b hb hpending' hsub' =>
      hone b hb a ha hpending' hpending hsub' hsub⟩
  · exact ⟨none, fun _ => rfl, fun a ha hpending hsub => absurd ⟨a, ha, hpending, hsub⟩ h⟩

/-- A call in the phase before the update is about to make it. -/
theorem setsItem_of_aims {c : SweepCall} {φ : SweepPhase}
    (hfollows : Follows (SweepStep cfg) SweepDone φ c.prog) (hwaits : Prog.NeverWaits c.prog)
    (haims : φ.Aims cfg subId ids target) (hsends : φ.Sends subId) :
    ∃ patch, SetsItem cfg subId patch c := by
  cases φ with
  | sending rows row patch =>
    obtain ⟨-, -, -, price, -, hprice⟩ := haims
    exact ⟨patch, setsItem_of_sends hfollows hwaits hsends (by rw [hprice]; rfl)⟩
  | _ => exact hsends.elim

theorem neverWaits_of_run {ok : SweepPool → SweepPool → Prop}
    (h : (sweepSystem cfg).Run ok ⟨w, []⟩ P) : ∀ c ∈ P.calls, Prog.NeverWaits c.prog :=
  System.calls_of_run (K := fun _ p => Prog.NeverWaits p) neverWaits_applyDuePendingChanges
    (fun _ _ _ _ s hwaits _ => (hwaits s).2) (fun _ hc => by cases hc) h

/-- In every interleaving of sweeps without the lock, an update of a subscription's item that
Paddle carries out is the last one, if at that moment no other sweep stands between its
reading of the item and its update, and the changes pending for the subscription ask for
one price. -/
theorem updatedOnce_of_run {R R' : SweepPool} {patch patch' : SubPatch}
    {ok ok' : SweepPool → SweepPool → Prop} (hone : OneTarget cfg subId w.db)
    (hbefore : (sweepSystem cfg).Run ok ⟨w, []⟩ P) (halone : SendsAlone cfg subId P)
    (hfirst : UpdatesItem cfg subId patch P Q) (hafter : (sweepSystem cfg).Run ok' Q R) :
    ¬ UpdatesItem cfg subId patch' R R' := by
  obtain ⟨target, hG⟩ := exists_sameTargets hone
  obtain ⟨phases, htracks, hbegun, hknows⟩ := aims_of_run hG hbefore
  obtain ⟨i, c, hm, hc, hsets, hupdates⟩ := hfirst
  obtain ⟨c', φ, φ', prog, hc', -, hφ, hT, hcalls, htracks', hbegun'⟩ :=
    Tracks.move_run htracks hbegun hm
  obtain rfl : c = c' := Option.some.inj (hc.symm.trans hc')
  -- the call that updates has read the item, and its row asks for the price it sends
  have hsends : φ.Sends subId := by
    obtain ⟨φ₀, hφ₀, hfollows⟩ := forall₂_getElem? htracks hc
    obtain rfl : φ₀ = φ := Option.some.inj (hφ₀.symm.trans hφ)
    exact sends_of_setsItem hfollows hsets hupdates
  have haims := hknows.call i c φ hc hφ
  obtain ⟨hG', hφ'⟩ := hT.aims haims hknows.state
  obtain ⟨price, htarget, hprice, hne, hnot⟩ : ∃ price, target = some price ∧
      priceOf Q.state subId = some price ∧ price ≠ "" ∧ ¬ φ'.Sends subId := by
    cases φ with
    | sending rows row patch =>
      obtain ⟨hrows, hrow, -, price, hprice, hpatch⟩ := haims
      have hid : row.paddleSubscriptionId = some subId := by
        rw [(hrows row hrow).subId_eq, hsends]
      refine ⟨price, ((hrows row hrow).aims hid).symm.trans hprice, ?_⟩
      have hrowId : row.subId = subId := hsends
      subst hrowId
      generalize Q.state = s at hT
      cases hT with
      | updates h =>
        refine ⟨priceOf_updated hpatch h, paddlePriceIdFor_ne_empty hprice, ?_⟩
        split
        · exact id
        · exact id
      | updateFails h => exact absurd hupdates h
    | _ => exact hsends.elim
  subst htarget
  -- nobody else had read it
  have hothers : ∀ (j : Nat) (d : SweepCall) (ψ : SweepPhase), j ≠ i → P.calls[j]? = some d →
      phases[j]? = some ψ → ¬ ψ.Sends subId := by
    intro j d ψ hji hd hψ hψsends
    obtain ⟨ψ₀, hψ₀, hfollows⟩ := forall₂_getElem? htracks hd
    obtain rfl : ψ₀ = ψ := Option.some.inj (hψ₀.symm.trans hψ)
    have hwaits := neverWaits_of_run hbefore d (List.mem_of_getElem? hd)
    obtain ⟨q, hsets'⟩ := setsItem_of_aims hfollows hwaits (hknows.call j d ψ₀ hd hψ) hψsends
    exact hji (halone j i d c q patch hd hc hsets' hsets)
  -- from now on the item has its price, and no call is about to send it
  have hsettled := settled_of_run hne htracks' hbegun' ⟨⟨hG', hprice⟩, ?_⟩ hafter
  · rintro ⟨k, e, -, he, hsetsAgain, hupdatesAgain⟩
    obtain ⟨phasesAfter, htracksAfter, hnobody⟩ := hsettled
    obtain ⟨χ, hχ, hfollows⟩ := forall₂_getElem? htracksAfter he
    exact hnobody k e χ he hχ (sends_of_setsItem hfollows hsetsAgain hupdatesAgain)
  · intro j d ψ hd hψ
    rw [hcalls] at hd
    rcases getElem?_set_cases hd with ⟨rfl, -⟩ | ⟨hji, hd⟩
    · rcases getElem?_set_cases hψ with ⟨-, rfl⟩ | ⟨hne', -⟩
      · exact ⟨hφ', hnot⟩
      · exact absurd rfl hne'
    · rcases getElem?_set_cases hψ with ⟨rfl, -⟩ | ⟨-, hψ⟩
      · exact absurd rfl hji
      · exact ⟨hknows.call j d ψ hd hψ, hothers j d ψ hji hd hψ⟩

/-! ### Two sweeps near the end of a year -/

/-- Ada's yearly Business subscription at its renewal; a downgrade to monthly Pro is due. -/
def yearEnd : World := { sweptMonthly with now := 365 * daySeconds }

/-- A month of Pro, charged at once. -/
def chargeNow : SubPatch := { priceId := some "pri_pro", prorateNow := true }

/-- A sweep that has read Ada's item. -/
def adaSweep : SweepCall := ⟨6 * 3600, yearEnd, do
  tryCatch (do
      paddleSubscriptionsUpdate .paddleDemo "sub_2" chargeNow
      reconcile .paddleDemo "ada@example.com")
    fun _ => pure ()
  List.forM [] fun row => tryCatch (applyDueChange .paddleDemo row) fun _ => pure ()⟩

theorem setsItem_adaSweep : SetsItem .paddleDemo "sub_2" chargeNow adaSweep := by
  refine ⟨_, _, _, rfl, rfl, fun w hw => ⟨rfl, ?_⟩⟩
  dsimp only
  rw [if_neg (by rw [hw.1]; exact Bool.false_ne_true), if_pos hw.2]

theorem oneTarget_yearEnd : OneTarget .paddleDemo "sub_2" yearEnd.db := by
  have hrows : yearEnd.db.billingAccounts.rows.length = 1 := rfl
  obtain ⟨row, hrow⟩ := List.length_eq_one_iff.mp hrows
  intro a ha b hb _ _ _ _
  rw [Sql.Table.mem_def, hrow] at ha hb
  rw [List.mem_singleton.mp ha, List.mem_singleton.mp hb]

/-- With one sweep about to send, the update is the last. -/
theorem updatedOnce_of_run_yearEnd : ∃ P Q : SweepPool,
    (sweepSystem .paddleDemo).Run (fun _ _ => True) ⟨yearEnd, []⟩ P ∧
      UpdatesItem .paddleDemo "sub_2" chargeNow P Q ∧
        ∀ (R R' : SweepPool) (patch : SubPatch),
          (sweepSystem .paddleDemo).Run (fun _ _ => True) Q R →
            ¬ UpdatesItem .paddleDemo "sub_2" patch R R' := by
  have hread : (sweepSystem .paddleDemo).schedule ⟨yearEnd, []⟩
      [.arrive (6 * 3600), .run 0, .run 0] = some ⟨yearEnd, [adaSweep]⟩ := rfl
  have hbefore := System.run_of_schedule hread
  have halone : SendsAlone .paddleDemo "sub_2" ⟨yearEnd, [adaSweep]⟩ := by
    intro i j c d _ _ hc hd _ _
    have hi := (List.getElem?_eq_some_iff.mp hc).1
    have hj := (List.getElem?_eq_some_iff.mp hd).1
    dsimp only [List.length_singleton] at hi hj
    omega
  obtain ⟨Q, hfirst, -, -⟩ := setsItem_adaSweep.exists_updatesItem
    (P := ⟨yearEnd, [adaSweep]⟩) (i := 0) rfl ⟨rfl, rfl⟩
  exact ⟨_, Q, hbefore, hfirst, fun R R' patch hafter =>
    updatedOnce_of_run oneTarget_yearEnd hbefore halone hfirst hafter⟩

/-- Two sweeps that both read the yearly price both send the prorated update. -/
theorem two_sweeps_charge_twice : OneTarget .paddleDemo "sub_2" yearEnd.db ∧
    chargeNow.prorateNow = true ∧ ∃ P Q R : SweepPool,
      (sweepSystem .paddleDemo).Run (fun _ _ => True) ⟨yearEnd, []⟩ P ∧
        UpdatesItem .paddleDemo "sub_2" chargeNow P Q ∧
          UpdatesItem .paddleDemo "sub_2" chargeNow Q R := by
  have hread : (sweepSystem .paddleDemo).schedule ⟨yearEnd, []⟩
      [.arrive (6 * 3600), .arrive (6 * 3600), .run 0, .run 1, .run 0, .run 1] =
        some ⟨yearEnd, [adaSweep, adaSweep]⟩ := rfl
  obtain ⟨Q, hfirst, hupdates, hothers⟩ := setsItem_adaSweep.exists_updatesItem
    (P := ⟨yearEnd, [adaSweep, adaSweep]⟩) (i := 0) rfl ⟨rfl, rfl⟩
  obtain ⟨R, hsecond, -⟩ := setsItem_adaSweep.exists_updatesItem
    (hothers 1 Nat.one_ne_zero) hupdates
  exact ⟨oneTarget_yearEnd, rfl, _, Q, R, System.run_of_schedule hread, hfirst, hsecond⟩

end Feedbase
