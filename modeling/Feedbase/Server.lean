import Feedbase.Lib.Pool
import Feedbase.Schema.Board
import Mathlib.Data.List.Sort

/-!
# The server and what it talks to

A request handler is a program over the `World`: the database, the payment
providers, the clock, and the row locks of open transactions. One atomic action is
one SQL statement, one provider call, or one transaction whose statements nobody
else can observe halfway.

Paddle and Stripe are outside the repository. Their state is part of the world, what
an update does to a subscription is a field of `Config`, and `World.fails` says
which calls fail at the moment.

## Main definitions

* `PaddleSub`, `Paddle`, `StripeSub`, `Stripe` — what the handlers read of a provider
* `Config` — process environment, calendar and the provider's update
* `Collation` — how the database compares texts
* `World`, `Failure`, `Reply`, `Handler`
-/

namespace Feedbase

/-! ### Paddle -/

inductive PaddleStatus where
  | active
  | trialing
  | pastDue
  | paused
  | canceled
  deriving DecidableEq, Repr

/-- The text of a status, as stored in `subscription_status`. -/
def PaddleStatus.text : PaddleStatus → String
  | .active => "active"
  | .trialing => "trialing"
  | .pastDue => "past_due"
  | .paused => "paused"
  | .canceled => "canceled"

/-- `["active", "trialing", "past_due"].includes(status)`. -/
def PaddleStatus.isActive : PaddleStatus → Bool
  | .active | .trialing | .pastDue => true
  | .paused | .canceled => false

/-- The first item's price, the current period and the fields the handlers read. -/
structure PaddleSub where
  id : String
  customerId : String
  status : PaddleStatus
  priceId : Option String
  endsAt : Option Time := none
  cancelScheduled : Bool := false
  discountId : Option String := none
  accountEmail : Option String := none
  deriving DecidableEq

structure PaddleCustomer where
  id : String
  email : String
  deriving DecidableEq

/-- A discount; an empty `restrictTo` applies to every price, and without
`maximumRecurringIntervals` it recurs for ever. -/
structure PaddleDiscount where
  id : String
  restrictTo : List String := []
  amount : Int := 0
  maximumRecurringIntervals : Option Nat := none
  deriving DecidableEq

/-- A checkout transaction; it stays payable until it has made a subscription. -/
structure PaddleTransaction where
  priceId : String
  customerId : String
  accountEmail : String
  discountId : Option String
  subscriptionId : Option String := none
  deriving DecidableEq

theorem PaddleSub.nodup_nil : (List.map PaddleSub.id []).Nodup := List.nodup_nil

theorem PaddleSub.nodup_single (s : PaddleSub) : (List.map PaddleSub.id [s]).Nodup :=
  List.nodup_singleton _

theorem PaddleSub.id_ne_empty_nil : ∀ s ∈ ([] : List PaddleSub), s.id ≠ "" :=
  fun _ h => absurd h List.not_mem_nil

/-- The state of the account at Paddle; subscription ids are unique and never empty. -/
structure Paddle where
  customers : List PaddleCustomer := []
  subscriptions : List PaddleSub := []
  discounts : List PaddleDiscount := []
  transactions : List PaddleTransaction := []
  created : Nat := 0
  nodup : (subscriptions.map PaddleSub.id).Nodup := by
    first
    | exact PaddleSub.nodup_nil
    | exact PaddleSub.nodup_single _
    | decide
  id_ne_empty : ∀ s ∈ subscriptions, s.id ≠ "" := by
    first
    | exact PaddleSub.id_ne_empty_nil
    | decide

namespace Paddle

/-- `subscriptions.get(id)`. -/
def get (p : Paddle) (id : String) : Option PaddleSub := p.subscriptions.find? (·.id == id)

/-- `subscriptions.list({ customerId, status: live })`. -/
def listLive (p : Paddle) (customerId : String) : List PaddleSub :=
  p.subscriptions.filter fun s => s.customerId == customerId && s.status.isActive

/-- `customers.list({ email })`. -/
def customersOf (p : Paddle) (email : String) : List PaddleCustomer :=
  p.customers.filter (·.email == email)

theorem map_id_setSub {id : String} {f : PaddleSub → PaddleSub} (hf : ∀ s, (f s).id = s.id)
    (l : List PaddleSub) :
    (l.map fun s => if s.id == id then f s else s).map PaddleSub.id = l.map PaddleSub.id := by
  rw [List.map_map]
  refine List.map_congr_left fun s _ => ?_
  dsimp only [Function.comp]
  split
  · exact hf s
  · rfl

theorem get_eq_some_iff {p : Paddle} {id : String} {s : PaddleSub} :
    p.get id = some s ↔ s ∈ p.subscriptions ∧ s.id = id := by
  constructor
  · intro h
    exact ⟨List.mem_of_find?_eq_some h, by simpa using List.find?_some h⟩
  · rintro ⟨hs, rfl⟩
    cases ht : p.get s.id with
    | none => simpa using List.find?_eq_none.mp ht s hs
    | some t =>
      have hid : t.id = s.id := by simpa using List.find?_some ht
      rw [List.inj_on_of_nodup_map p.nodup (List.mem_of_find?_eq_some ht) hs hid]

end Paddle

/-- The fields of `subscriptions.update`. -/
structure SubPatch where
  priceId : Option String := none
  discountId : Option String := none
  prorateNow : Bool := false
  deriving DecidableEq

/-! ### Stripe -/

inductive StripeStatus where
  | active
  | trialing
  | pastDue
  | canceled
  | incomplete
  | incompleteExpired
  | unpaid
  | paused
  deriving DecidableEq, Repr

/-- The text of a status, as stored in `subscription_status`. -/
def StripeStatus.text : StripeStatus → String
  | .active => "active"
  | .trialing => "trialing"
  | .pastDue => "past_due"
  | .canceled => "canceled"
  | .incomplete => "incomplete"
  | .incompleteExpired => "incomplete_expired"
  | .unpaid => "unpaid"
  | .paused => "paused"

/-- `["active", "trialing", "past_due"].includes(status)`. -/
def StripeStatus.isActive : StripeStatus → Bool
  | .active | .trialing | .pastDue => true
  | _ => false

structure StripeSub where
  id : String
  customer : Option String
  status : StripeStatus
  priceId : Option String
  isYearly : Bool := false
  currentPeriodEnd : Option Time := none
  accountEmail : Option String := none
  tenantId : Option Nat := none
  hasSchedule : Bool := false
  created : Time
  deriving DecidableEq

/-- An amount-off coupon, in cents. -/
structure StripeCoupon where
  id : String
  amountOff : Int
  deriving DecidableEq

structure Stripe where
  subscriptions : List StripeSub := []
  coupons : List StripeCoupon := []

/-! ### The world -/

/-- What may fail: a provider call, or a statement or transaction on the database. -/
inductive Site where
  | paddleCustomersList
  | paddleCustomersCreate
  | paddleSubscriptionsGet
  | paddleSubscriptionsList
  | paddleSubscriptionsUpdate
  | paddleSubscriptionsCancel
  | paddleDiscountsGet
  | paddleDiscountsCreate
  | paddleTransactionsCreate
  | paddleMinimum
  | stripeSubscriptionsList
  | stripeSubscriptionsRetrieve
  | stripeSubscriptionsCancel
  | stripeCouponsCreate
  | stripePromotionCodesCreate
  | setAccountPlan
  | getConnection
  | claimUpdate
  | claimInsert
  | claimCommit
  | releaseDelete
  | releaseUpdate
  | promoCodesUpdate
  | promoRedemptionsDelete
  | offersUpdate
  | offersInsert
  | postsUpdate
  | postsDelete
  | postsInsert
  | postsSelect
  | commentsUpdate
  | commentsDelete
  | commentsInsert
  | commentsSelect
  | votesSelect
  | votesInsert
  | votesDelete
  | tenantsSelect
  | postAttachmentsUpdate
  | postAttachmentsInsert
  | usersSelect
  | usersUpdate
  | passwordResetsSelect
  | passwordResetsUpdate
  | passwordResetsInsert
  | resetCommit
  | sendEmail
  deriving DecidableEq, Repr

/-- The open transaction of one `claimRedemption`: it holds the row lock of the
promo code, and its writes are seen by nobody else until it commits. -/
structure Claim where
  promoId : Nat
  counted : Bool
  pending : Option PromoRedemption := none
  deriving DecidableEq

/-- A row that an open transaction has locked with `FOR UPDATE`. -/
inductive RowLock where
  | invitation (id : Nat)
  | tenant (id : Nat)
  | passwordReset (id : Nat)
  deriving DecidableEq

/-- An order in which `ORDER BY created_at DESC` may return the rows of `offers`. -/
structure RecentFirst where
  sort : List Offer → List Offer
  perm : ∀ l, (sort l).Perm l
  sorted : ∀ l, (sort l).Pairwise fun a b => b.createdAt ≤ a.createdAt

/-- The order that keeps rows with equal `created_at` as they are stored. -/
def RecentFirst.stable : RecentFirst where
  sort := List.insertionSort fun a b => b.createdAt ≤ a.createdAt
  perm := List.perm_insertionSort _
  sorted l := by
    have htotal : Std.Total fun a b : Offer => b.createdAt ≤ a.createdAt :=
      ⟨fun a b => Nat.le_total b.createdAt a.createdAt⟩
    have htrans : IsTrans Offer fun a b => b.createdAt ≤ a.createdAt :=
      ⟨fun _ _ _ hab hbc => Nat.le_trans hbc hab⟩
    exact List.pairwise_insertionSort _ l

/-- What the database compares of a text: neither case nor accents. Texts of small letters and
underscores are compared as they are. -/
structure Collation where
  weights : String → String
  plain : ∀ s, (s.toList.all fun c => c.isLower || c == '_') = true → weights s = s

/-- `a = b` in a statement. -/
def Collation.same (C : Collation) (a b : String) : Bool := C.weights a == C.weights b

theorem toLower_of_isLower {c : Char} (h : c.isLower = true) : c.toLower = c := by
  have hboth : (decide (c.val ≥ 97) && decide (c.val ≤ 122)) = true := h
  have hsmall : 97 ≤ c.toNat := of_decide_eq_true (Bool.and_eq_true_iff.mp hboth).1
  unfold Char.toLower
  rw [dif_neg]
  rintro ⟨-, hle⟩
  have hcapital : c.toNat ≤ 90 := hle
  omega

/-- The case of ASCII letters is passed over. -/
def Collation.ascii : Collation where
  weights s := String.ofList (s.toList.map Char.toLower)
  plain s h := by
    have hlower : s.toList.map Char.toLower = s.toList := by
      refine (List.map_congr_left fun c hc => ?_).trans (List.map_id _)
      have hplain := List.all_eq_true.mp h c hc
      rcases (Bool.or_eq_true _ _).mp hplain with hsmall | hscore
      · exact toLower_of_isLower hsmall
      · rw [beq_iff_eq.mp hscore]
        decide
    rw [hlower, String.ofList_toList]

/-- The state that the handlers share; `failedReleases` are the lines on the console about a
redemption that could not be given back, by code and account. -/
structure World where
  db : Db := {}
  paddle : Paddle := {}
  stripe : Stripe := {}
  now : Time := 0
  fails : Site → Bool := fun _ => false
  claims : List Claim := []
  failedReleases : List (Nat × String) := []
  recentFirst : RecentFirst := .stable
  collation : Collation := .ascii
  rowLocks : List RowLock := []

/-- What a rejected promise carries: a server response, or another error. -/
inductive Failure where
  | rejected (statusCode : Nat) (msgKey : String)
  | duplicate
  /-- Paddle would be paid less than it accepts -/
  | belowMinimum
  | error
  deriving DecidableEq, Repr

/-- `setServerResponse(statusCode, msgKey, lg, result)` of a request that succeeds. -/
structure Reply (δ : Type) where
  statusCode : Nat
  msgKey : String
  result : δ
  deriving DecidableEq

/-- What a signed-in request carries. -/
structure AuthData where
  id : Nat
  tenantId : Option Nat
  role : Role
  email : String
  deriving DecidableEq

/-- An asynchronous function of the server. -/
abbrev Handler (α : Type) := Prog World Failure α

/-- `Promise.reject(setServerResponse(code, msgKey, lg))`. -/
def reject {α : Type} (statusCode : Nat) (msgKey : String) : Handler α :=
  throw (.rejected statusCode msgKey)

@[simp] theorem exec_reject {α : Type} (statusCode : Nat) (msgKey : String) (w : World) :
    (reject statusCode msgKey : Handler α).exec w = (.error (.rejected statusCode msgKey), w) := rfl

/-- Anything but a server response becomes `internal_server_error`. -/
def internalError {α : Type} : Failure → Handler α
  | .rejected code key => reject code key
  | _ => reject 500 "internal_server_error"

/-- Anything but a server response becomes an error of the handler's own. -/
def failWith {α : Type} (msgKey : String) : Failure → Handler α
  | .rejected code key => reject code key
  | _ => reject 500 msgKey

theorem exec_failWith {α : Type} (msgKey : String) (e : Failure) (w : World) :
    ∃ e', (failWith msgKey e : Handler α).exec w = (.error e', w) := by
  cases e <;> exact ⟨_, rfl⟩

/-- `Promise.resolve(setServerResponse(code, msgKey, lg, result))`. -/
def resolve {δ : Type} (statusCode : Nat) (msgKey : String) (result : δ) : Handler (Reply δ) :=
  pure ⟨statusCode, msgKey, result⟩

/-- A handler whose reply is of no interest. -/
def withoutReply {α : Type} (p : Handler α) : Handler Unit := do
  let _ ← p
  return ()

theorem exec_withoutReply_snd {α : Type} (q : Handler α) (w : World) :
    ((withoutReply q).exec w).2 = (q.exec w).2 := by
  unfold withoutReply
  rw [Prog.exec_bind]
  rcases q.exec w with ⟨_ | _, _⟩ <;> rfl

theorem exec_tryCatch_failWith {α : Type} (q : Handler α) (key : String) (w : World) :
    (Prog.exec (tryCatch q (failWith key)) w).2 = (q.exec w).2 :=
  Prog.exec_tryCatch_snd (exec_failWith key)

/-- Read from the database. -/
def query {α : Type} (f : Db → α) : Handler α := Prog.read fun w => f w.db

/-- Change the database. -/
def update (f : Db → Db) : Handler Unit := Prog.write fun w => { w with db := f w.db }

/-- A statement that throws on a duplicate key. -/
def keyed (f : Db → Option Db) : Handler Unit :=
  Prog.attempt .duplicate fun w => (f w.db).map fun db => ((), { w with db := db })

/-- A transaction that either commits or throws and leaves the database alone. -/
def transaction {α : Type} (f : Db → Except Failure (α × Db)) : Handler α :=
  Prog.atomic fun w => match f w.db with
    | .ok (a, db) => (.ok a, { w with db := db })
    | .error e => (.error e, w)

theorem exec_transaction {α : Type} (f : Db → Except Failure (α × Db)) (w : World) :
    (transaction f).exec w = match f w.db with
      | .ok (a, db) => (.ok a, { w with db := db })
      | .error e => (.error e, w) := Prog.exec_atomic _ w

/-- A transaction that reads the clock too. -/
def timedTransaction {α : Type} (f : Time → Db → Except Failure (α × Db)) : Handler α :=
  Prog.atomic fun w => match f w.now w.db with
    | .ok (a, db) => (.ok a, { w with db := db })
    | .error e => (.error e, w)

theorem exec_timedTransaction {α : Type} (f : Time → Db → Except Failure (α × Db)) (w : World) :
    (timedTransaction f).exec w = match f w.now w.db with
      | .ok (a, db) => (.ok a, { w with db := db })
      | .error e => (.error e, w) := Prog.exec_atomic _ w

/-- A transaction does what it commits, or nothing. -/
theorem within_timedTransaction {R : World → World → Prop} (hrefl : ∀ w, R w w) {α : Type}
    {f : Time → Db → Except Failure (α × Db)}
    (h : ∀ w a db, f w.now w.db = .ok (a, db) → R w { w with db := db }) :
    Prog.Within R (timedTransaction f) := by
  refine .step fun w => ?_
  cases hf : f w.now w.db with
  | error e => exact hrefl w
  | ok r => exact h w r.1 r.2 hf

/-- A statement or call that throws when it fails and otherwise returns and changes
the world. -/
def call {α : Type} (site : Site) (f : World → Option (α × World)) : Handler α :=
  Prog.attempt .error fun w => if w.fails site then none else f w

theorem exec_call {α : Type} {site : Site} {f : World → Option (α × World)} {w : World} :
    (call site f).exec w = match if w.fails site then none else f w with
      | some (a, t) => (.ok a, t)
      | none => (.error .error, w) := by
  rw [call, Prog.exec_attempt]
  rcases (if w.fails site then none else f w) with _ | r <;> rfl

theorem exec_call_ok_iff {α : Type} {site : Site} {f : World → Option (α × World)} {w w' : World}
    {a : α} : (call site f).exec w = (.ok a, w') ↔ w.fails site = false ∧ f w = some (a, w') := by
  rw [exec_call]
  cases w.fails site
  · cases hf : f w with
    | none => simp
    | some r => simp [Prod.ext_iff]
  · simp

theorem within_call {R : World → World → Prop} (hrefl : ∀ w, R w w) {α : Type} {site : Site}
    {f : World → Option (α × World)} (h : ∀ w a w', f w = some (a, w') → R w w') :
    Prog.Within R (call site f) := by
  refine Prog.Within.attempt hrefl fun w a w' hw => ?_
  split at hw
  · cases hw
  · exact h w a w' hw

/-- A statement that throws or does what `h` says. -/
theorem follows_call {Φ α : Type} {T : Φ → World → Φ → World → Prop} {site : Site}
    {f : World → Option (α × World)} {post : Φ → Except Failure α → Prop} {φ : Φ}
    (hrefl : ∀ w, T φ w φ w) (hthrows : post φ (.error .error))
    (h : ∀ w a w', f w = some (a, w') → ∃ φ', T φ w φ' w' ∧ post φ' (.ok a)) :
    Follows T post φ (call site f) := by
  refine .step fun w _ => ?_
  dsimp only
  rcases hf : (if w.fails site then none else f w) with _ | ⟨a, w'⟩
  · exact ⟨φ, hrefl w, hthrows⟩
  · split at hf
    · cases hf
    · exact h w a w' hf

/-- A handler of one statement: it may throw, affect no row, or return something about the
rows it affected. -/
def affecting {δ : Type} (site : Site) (f : World → Option (Option δ × World))
    (missing done : Nat × String) (failKey : String) : Handler (Reply δ) :=
  tryCatch (do
    match ← call site f with
    | none => reject missing.1 missing.2
    | some d => resolve done.1 done.2 d) (failWith failKey)

theorem exec_affecting {δ : Type} (site : Site) (f : World → Option (Option δ × World))
    (missing done : Nat × String) (failKey : String) (w : World) :
    (affecting site f missing done failKey).exec w =
      match if w.fails site then none else f w with
      | none => (.error (.rejected 500 failKey), w)
      | some (none, w') => (.error (.rejected missing.1 missing.2), w')
      | some (some d, w') => (.ok ⟨done.1, done.2, d⟩, w') := by
  rw [affecting, Prog.exec_tryCatch, Prog.exec_bind, exec_call]
  rcases (if w.fails site then none else f w) with _ | ⟨_ | d, w'⟩
  · rfl
  · rfl
  · rfl

/-- Whether an `UPDATE` or `DELETE` found a row. -/
def affected {ρ : Type} (rows : List ρ) (p : ρ → Bool) : Option Unit :=
  if rows.any p then some () else none

/-- The statement throws, finds a row, or finds none. -/
theorem exec_affected_cases {ρ : Type} (site : Site) (rows : World → List ρ) (p : ρ → Bool)
    (g : World → World) (missing done : Nat × String) (failKey : String) (w : World) :
    (affecting site (fun w => some (affected (rows w) p, g w)) missing done failKey).exec w =
        (.error (.rejected 500 failKey), w) ∨
      (∃ r ∈ rows w, p r = true) ∧
        (affecting site (fun w => some (affected (rows w) p, g w)) missing done failKey).exec w =
          (.ok ⟨done.1, done.2, ()⟩, g w) ∨
      (∀ r ∈ rows w, p r = false) ∧
        (affecting site (fun w => some (affected (rows w) p, g w)) missing done failKey).exec w =
          (.error (.rejected missing.1 missing.2), g w) := by
  rw [exec_affecting]
  by_cases hfails : w.fails site = true
  · exact .inl (by rw [if_pos hfails])
  · rw [if_neg hfails, affected]
    by_cases hany : (rows w).any p = true
    · exact .inr (.inl ⟨List.any_eq_true.mp hany, by rw [if_pos hany]⟩)
    · refine .inr (.inr ⟨fun r hr => ?_, by rw [if_neg hany]⟩)
      exact Bool.eq_false_iff.mpr fun hp => hany (List.any_eq_true.mpr ⟨r, hr, hp⟩)

/-- The statement that `affecting` runs is all that it does. -/
theorem exec_affecting_snd {δ : Type} (site : Site) (f : World → Option δ) (g : World → World)
    (missing done : Nat × String) (failKey : String) (w : World) :
    ((affecting site (fun w => some (f w, g w)) missing done failKey).exec w).2 =
      if w.fails site then w else g w := by
  rw [exec_affecting]
  by_cases hfails : w.fails site = true
  · rw [if_pos hfails, if_pos hfails]
  · rw [if_neg hfails, if_neg hfails]
    cases f w with
    | none => rfl
    | some d => rfl

/-- A `SELECT` that may fail. -/
def selectAt {α : Type} (site : Site) (f : Db → α) : Handler α :=
  call site fun w => some (f w.db, w)

theorem exec_selectAt_bind {α β : Type} (site : Site) (f : Db → α) (k : α → Handler β)
    (w : World) : (selectAt site f >>= k).exec w =
      if w.fails site then (.error .error, w) else (k (f w.db)).exec w := by
  rw [Prog.exec_bind, selectAt, exec_call]
  by_cases hfails : w.fails site = true
  · rw [if_pos hfails, if_pos hfails]
  · rw [if_neg hfails, if_neg hfails]

@[simp] theorem exec_query {α : Type} (f : Db → α) (w : World) :
    (query f).exec w = (.ok (f w.db), w) := Prog.exec_read _ w

@[simp] theorem exec_query_bind {α β : Type} (f : Db → α) (k : α → Handler β) (w : World) :
    (query f >>= k).exec w = (k (f w.db)).exec w := Prog.exec_read_bind _ k w

theorem reads_query {α : Type} (f : Db → α) : Prog.Reads (query f : Handler α) :=
  Prog.reads_read _

theorem reads_reject {α : Type} (statusCode : Nat) (msgKey : String) :
    Prog.Reads (reject statusCode msgKey : Handler α) := trivial

theorem exec_keyed {f : Db → Option Db} {w : World} :
    (keyed f).exec w = match f w.db with
      | some db => (.ok (), { w with db := db })
      | none => (.error .duplicate, w) := by
  rw [keyed, Prog.exec_attempt]
  cases f w.db with
  | none => rfl
  | some db => rfl

/-- The clock. -/
def getNow : Handler Time := Prog.read World.now

@[simp] theorem exec_getNow_bind {β : Type} (k : Time → Handler β) (w : World) :
    (getNow >>= k).exec w = (k w.now).exec w := Prog.exec_read_bind _ k w

/-- Time stands still. -/
def SameClock (w w' : World) : Prop := w'.now = w.now

theorem SameClock.refl (w : World) : SameClock w w := Eq.refl w.now

theorem now_exec {w : World} {α : Type} {p : Handler α} (h : Prog.Within SameClock p) :
    (p.exec w).2.now = w.now := by
  have htrans : ∀ t u v : World, SameClock t u → SameClock u v → SameClock t v :=
    fun _ _ _ h h' => Eq.trans h' h
  exact h.exec (R := SameClock) SameClock.refl htrans w

/-- The process environment, the local calendar, and what Paddle does with an update. -/
structure Config where
  env : Env
  /-- `d.setMonth(d.getMonth() + n)`. -/
  addMonths : Nat → Time → Time
  /-- Year, month and day of the local calendar. -/
  dateOf : Time → Nat × Nat × Nat
  patchSub : PaddleSub → SubPatch → PaddleSub
  id_patchSub : ∀ s p, (patchSub s p).id = s.id
  customer_patchSub : ∀ s p, (patchSub s p).customerId = s.customerId
  price_patchSub : ∀ s p, (patchSub s p).priceId = p.priceId.or s.priceId
  live_patchSub : ∀ s p, s.status.isActive → (patchSub s p).status.isActive

/-- Months of thirty days, and a provider that writes exactly what it is given. -/
def Config.plain (env : Env) : Config where
  env := env
  addMonths n t := t + n * (30 * 24 * 3600)
  dateOf t := (t / (12 * 30 * 24 * 3600), t / (30 * 24 * 3600) % 12, t / (24 * 3600) % 30)
  patchSub s p :=
    { s with priceId := p.priceId.or s.priceId, discountId := p.discountId.or s.discountId }
  id_patchSub _ _ := rfl
  customer_patchSub _ _ := rfl
  price_patchSub _ _ := rfl
  live_patchSub _ _ h := h

/-- Paddle is active and configured, with a price for each paid plan and interval. -/
def Config.paddleDemo : Config :=
  .plain
    { paddleApiKey := some "pdl_live_key"
      paddlePricePro := some "pri_pro"
      paddlePriceProYearly := some "pri_pro_yearly"
      paddlePriceBusiness := some "pri_business"
      paddlePriceBusinessYearly := some "pri_business_yearly" }

namespace Paddle

/-- Replace the subscription with the given id. -/
def setSub (p : Paddle) (id : String) (f : PaddleSub → PaddleSub)
    (hf : ∀ s, (f s).id = s.id := by intro; rfl) : Paddle :=
  { p with
    subscriptions := p.subscriptions.map fun s => if s.id == id then f s else s
    nodup := by
      rw [map_id_setSub hf]
      exact p.nodup
    id_ne_empty := by
      intro s hs
      have hmem := List.mem_map_of_mem (f := PaddleSub.id) hs
      rw [map_id_setSub hf] at hmem
      obtain ⟨t, ht, heq⟩ := List.mem_map.mp hmem
      exact heq ▸ p.id_ne_empty t ht }

/-- `subscriptions.update(id, patch)`. -/
def updateSub (p : Paddle) (cfg : Config) (id : String) (patch : SubPatch) : Paddle :=
  p.setSub id (fun s => cfg.patchSub s patch) fun s => cfg.id_patchSub s patch

/-- `subscriptions.cancel(id, { effectiveFrom: "immediately" })`. -/
def cancelSub (p : Paddle) (id : String) : Paddle :=
  p.setSub id fun s => { s with status := .canceled }

theorem get_setSub {p : Paddle} {id n : String} {f : PaddleSub → PaddleSub}
    {hf : ∀ s, (f s).id = s.id} :
    (p.setSub id f hf).get n = (p.get n).map fun s => if s.id == id then f s else s := by
  unfold get
  change (p.subscriptions.map fun s => if s.id == id then f s else s).find? (·.id == n) = _
  rw [List.find?_map]
  congr 2
  funext s
  dsimp only [Function.comp]
  split
  · rw [hf]
  · rfl

end Paddle

end Feedbase
