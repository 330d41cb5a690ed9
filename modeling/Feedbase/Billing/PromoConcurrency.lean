import Feedbase.Billing.PromoSteps

/-!
# Promo codes under concurrency

Any number of `redeemPromo` calls, interleaved statement by statement. The row lock of
a code has at most one holder, the count of a code is the count at the start plus the
calls that hold one, and likewise for its rows.

## Main definitions

* `Locks` — every open transaction belongs to one call and has room under the cap
* `Accounts` — counts and rows, by what the calls hold

## Main results

* `Locks.step`, `Accounts.step` — one statement keeps them
* `redeemPromo_concurrent`
-/

namespace Feedbase

open Sql

variable {cfg : Config} {w w' w₀ : World} {phases : List Phase} {φ φ' : Phase} {i : Nat}

/-! ### What the ledger says -/

/-- `times_redeemed` of a code. -/
def timesOf (db : Db) (promoId : Nat) : Nat :=
  ((db.promoCodes.byId promoId).map PromoCode.timesRedeemed).getD 0

/-- The number of redemptions of a code. -/
def rowsOf (db : Db) (promoId : Nat) : Nat :=
  db.promoRedemptions.rows.countP fun r => r.promoCodeId == promoId

/-- The number of redemptions of a code by an account. -/
def rowsFor (db : Db) (promoId : Nat) (email : String) : Nat :=
  db.promoRedemptions.rows.countP fun r => r.promoCodeId == promoId && r.accountEmail == some email

/-- No code has been redeemed more often than it may. -/
def WithinCap (db : Db) : Prop :=
  ∀ p ∈ db.promoCodes, p.maxRedemptions.all (p.timesRedeemed ≤ ·) = true

instance (db : Db) : Decidable (WithinCap db) :=
  inferInstanceAs (Decidable (∀ p ∈ db.promoCodes, _))

theorem rowsFor_le_one (db : Db) (promoId : Nat) (email : String) : rowsFor db promoId email ≤ 1 := by
  refine Table.countP_le_one fun r s hr hs => ?_
  simp only [Bool.and_eq_true, beq_iff_eq] at hr hs
  simp [Row.clash, hr.1, hr.2, hs.1, hs.2]

/-! ### The transactions -/

/-- Every call inside its transaction owns one of the open claims, no two calls the same,
and a claim that counted has room for one more. -/
structure Locks (w : World) (phases : List Phase) : Prop where
  owned : ∀ (i : Nat) (φ : Phase), phases[i]? = some φ → ∀ c ∈ φ.2.claim, c ∈ w.claims
  nodup : (w.claims.map Claim.promoId).Nodup
  exclusive : ∀ (i j : Nat) (φ ψ : Phase), i ≠ j → phases[i]? = some φ → phases[j]? = some ψ →
    ∀ c ∈ φ.2.claim, ∀ d ∈ ψ.2.claim, c.promoId ≠ d.promoId
  room : ∀ c ∈ w.claims, c.counted = true →
    ∃ p ∈ w.db.promoCodes, p.id = c.promoId ∧ p.maxRedemptions.all (p.timesRedeemed < ·) = true

theorem Locks.nil (hclaims : w.claims = []) : Locks w [] := by
  refine ⟨fun i φ h => ?_, ?_, fun i j φ ψ _ h => ?_, ?_⟩
  · simp at h
  · simp [hclaims]
  · simp at h
  · simp [hclaims]

/-- A change of one call's phase that takes away no claim of another call. -/
theorem Locks.owned_set (h : Locks w phases) (hφ : phases[i]? = some φ)
    (hother : ∀ c ∈ w.claims, (∀ d ∈ φ.2.claim, c.promoId ≠ d.promoId) → c ∈ w'.claims)
    (hnew : ∀ c ∈ φ'.2.claim, c ∈ w'.claims) :
    ∀ (j : Nat) (ψ : Phase), (phases.set i φ')[j]? = some ψ → ∀ c ∈ ψ.2.claim, c ∈ w'.claims := by
  intro j ψ hψ c hc
  rcases getElem?_set_cases hψ with ⟨rfl, rfl⟩ | ⟨hne, hψ⟩
  · exact hnew c hc
  · exact hother c (h.owned j ψ hψ c hc) fun d hd => h.exclusive j i ψ φ hne hψ hφ c hc d hd

/-- A phase whose new claim is on a code that no other call has a claim on. -/
theorem Locks.exclusive_set (h : Locks w phases)
    (hnew : ∀ c ∈ φ'.2.claim, ∀ (j : Nat) (ψ : Phase), j ≠ i → phases[j]? = some ψ →
      ∀ d ∈ ψ.2.claim, c.promoId ≠ d.promoId) :
    ∀ (j k : Nat) (ψ χ : Phase), j ≠ k → (phases.set i φ')[j]? = some ψ →
      (phases.set i φ')[k]? = some χ → ∀ c ∈ ψ.2.claim, ∀ d ∈ χ.2.claim, c.promoId ≠ d.promoId := by
  intro j k ψ χ hjk hψ hχ c hc d hd
  rcases getElem?_set_cases hψ with ⟨rfl, rfl⟩ | ⟨hj, hψ'⟩
  · rcases getElem?_set_cases hχ with ⟨rfl, rfl⟩ | ⟨hk, hχ'⟩
    · exact absurd rfl hjk
    · exact hnew c hc k χ hk hχ' d hd
  · rcases getElem?_set_cases hχ with ⟨rfl, rfl⟩ | ⟨hk, hχ'⟩
    · exact (hnew d hd j ψ hj hψ' c hc).symm
    · exact h.exclusive j k ψ χ hjk hψ' hχ' c hc d hd

theorem unlocked_iff {promoId : Nat} :
    w.unlocked promoId = true ↔ ∀ c ∈ w.claims, c.promoId ≠ promoId := by
  simp [World.unlocked]

theorem mem_withoutClaim {promoId : Nat} {c : Claim} :
    c ∈ (w.withoutClaim promoId).claims ↔ c ∈ w.claims ∧ c.promoId ≠ promoId := by
  simp [World.withoutClaim]

theorem nodup_withoutClaim {promoId : Nat} (h : (w.claims.map Claim.promoId).Nodup) :
    ((w.withoutClaim promoId).claims.map Claim.promoId).Nodup :=
  h.sublist (List.filter_sublist.map _)

/-- A commit touches no other code. -/
theorem mem_committed {promoId : Nat} {redemptions : Table PromoRedemption} {p : PromoCode}
    (hp : p ∈ w.db.promoCodes) (hne : p.id ≠ promoId) :
    p ∈ (w.committed promoId redemptions).db.promoCodes := by
  simp only [World.committed, Table.mem_update]
  exact ⟨p, hp, by simp [hne]⟩

theorem mem_countReleased {promoId : Nat} {p : PromoCode} (hp : p ∈ w.db.promoCodes)
    (hne : p.id ≠ promoId) : p ∈ (w.countReleased promoId).db.promoCodes := by
  simp only [World.countReleased, Table.mem_update]
  exact ⟨p, hp, by simp [hne]⟩

/-- One statement keeps the transactions apart. -/
theorem Locks.step (h : Locks w phases) (hφ : phases[i]? = some φ) (hT : PhaseStep φ w φ' w') :
    Locks w' (phases.set i φ') := by
  obtain ⟨email, σ⟩ := φ
  obtain ⟨email', σ'⟩ := φ'
  obtain ⟨rfl, hT⟩ := hT
  have hnone : ∀ {p : Claim → Prop}, ∀ c ∈ (none : Option Claim), p c :=
    fun c hc => absurd hc (Option.not_mem_none c)
  cases hT with
  | quiet same =>
    refine ⟨h.owned_set hφ (fun c hc _ => same.claims ▸ hc) fun c hc => ?_, ?_,
      h.exclusive_set fun c hc j ψ hj hψ => h.exclusive i j _ ψ (Ne.symm hj) hφ hψ c hc, ?_⟩
    · exact same.claims ▸ h.owned i _ hφ c hc
    · rw [same.claims]
      exact h.nodup
    · rw [same.claims, same.promoCodes]
      exact h.room
  -- the claim is new: nobody holds the lock, and the claimed code has room if it counted
  | @lock _ promoId counted free claimable =>
    have hfree := unlocked_iff.mp free
    refine ⟨h.owned_set hφ (fun c hc _ => List.mem_append_left _ hc) ?_, ?_,
      h.exclusive_set ?_, ?_⟩
    · rintro _ ⟨⟩
      exact List.mem_append_right _ List.mem_cons_self
    · simp only [World.withClaim, List.map_append, List.map_cons, List.map_nil]
      refine h.nodup.append (List.nodup_singleton _) fun n hn hn' => ?_
      obtain ⟨c, hc, rfl⟩ := List.mem_map.mp hn
      exact hfree c hc (List.mem_singleton.mp hn')
    · rintro _ ⟨⟩ j ψ - hψ d hd
      exact (hfree d (h.owned j ψ hψ d hd)).symm
    · intro c hc hcounted
      rcases List.mem_append.mp hc with hc | hc
      · exact h.room c hc hcounted
      · obtain rfl := List.mem_singleton.mp hc
        exact claimable hcounted
  | @abandon _ _ c claim =>
    refine ⟨h.owned_set hφ (fun d hd hne => ?_) hnone, nodup_withoutClaim h.nodup,
      h.exclusive_set hnone, fun d hd => h.room d (mem_withoutClaim.mp hd).1⟩
    exact mem_withoutClaim.mpr ⟨hd, hne c claim⟩
  -- the pending row is written into the claim, whose code and count stay
  | @insert _ promoId row code account =>
    have hmine : (⟨promoId, true, none⟩ : Claim) ∈ w.claims := h.owned i _ hφ _ rfl
    have hids : (w.withPending row).claims.map Claim.promoId = w.claims.map Claim.promoId := by
      simp only [World.withPending, List.map_map]
      refine List.map_congr_left fun c _ => ?_
      dsimp only [Function.comp]
      split <;> rfl
    refine ⟨h.owned_set hφ (fun c hc hne => ?_) ?_, hids ▸ h.nodup, h.exclusive_set ?_, ?_⟩
    · have hother : c.promoId ≠ promoId := hne _ rfl
      refine List.mem_map.mpr ⟨c, hc, ?_⟩
      rw [code, if_neg (by simpa using hother)]
    · rintro _ ⟨⟩
      refine List.mem_map.mpr ⟨_, hmine, ?_⟩
      rw [code, if_pos (beq_self_eq_true promoId)]
    · rintro _ ⟨⟩ j ψ hj hψ d hd
      exact h.exclusive i j _ ψ (Ne.symm hj) hφ hψ _ rfl d hd
    · intro c hc hcounted
      obtain ⟨d, hd, rfl⟩ := List.mem_map.mp hc
      split at hcounted
      · rename_i hid
        rw [if_pos hid]
        exact h.room d hd hcounted
      · rename_i hid
        rw [if_neg hid]
        exact h.room d hd hcounted
  -- the count is raised by the claim that ends here, so other claims keep their room
  | @commit _ promoId row row' c redemptions code account claim pending inserted =>
    refine ⟨h.owned_set hφ (fun d hd hne => ?_) hnone, nodup_withoutClaim h.nodup,
      h.exclusive_set hnone, ?_⟩
    · exact mem_withoutClaim.mpr ⟨hd, hne _ rfl⟩
    · intro d hd hcounted
      obtain ⟨hd, hne⟩ := mem_withoutClaim.mp hd
      obtain ⟨p, hp, hid, hroom⟩ := h.room d hd hcounted
      exact ⟨p, mem_committed hp (hid ▸ hne), hid, hroom⟩
  | delete => exact ⟨h.owned_set hφ (fun c hc _ => hc) hnone, h.nodup, h.exclusive_set hnone, h.room⟩
  -- the code that is counted down is not locked, so no claim is about it
  | @release _ promoId free =>
    refine ⟨h.owned_set hφ (fun c hc _ => hc) hnone, h.nodup, h.exclusive_set hnone, ?_⟩
    intro c hc hcounted
    obtain ⟨p, hp, hid, hroom⟩ := h.room c hc hcounted
    have hne : p.id ≠ promoId := hid ▸ unlocked_iff.mp free c hc
    exact ⟨p, mem_countReleased hp hne, hid, hroom⟩
  | deleteFails =>
    exact ⟨h.owned_set hφ (fun c hc _ => hc) hnone, h.nodup, h.exclusive_set hnone, h.room⟩
  | releaseFails =>
    exact ⟨h.owned_set hφ (fun c hc _ => hc) hnone, h.nodup, h.exclusive_set hnone, h.room⟩
  | log => exact ⟨h.owned_set hφ (fun c hc _ => hc) hnone, h.nodup, h.exclusive_set hnone, h.room⟩

/-- The transactions do not depend on the redemptions. -/
theorem Locks.of_codes (h : Locks w phases) (hclaims : w'.claims = w.claims)
    (hcodes : w'.db.promoCodes = w.db.promoCodes) : Locks w' phases := by
  obtain ⟨howned, hnodup, hexclusive, hroom⟩ := h
  refine ⟨?_, ?_, hexclusive, ?_⟩
  · exact fun j ψ hψ c hc => hclaims ▸ howned j ψ hψ c hc
  · exact hclaims ▸ hnodup
  · exact hclaims ▸ hcodes ▸ hroom

/-- What leaves the ledger alone leaves the transactions alone. -/
theorem Locks.of_sameLedger (h : Locks w phases) (same : SameLedger w w') : Locks w' phases :=
  h.of_codes same.claims same.promoCodes

/-- A call that arrives has no transaction. -/
theorem Locks.append_idle (h : Locks w phases) (email : String) :
    Locks w (phases ++ [(email, .idle)]) := by
  have hold : ∀ (j : Nat) (ψ : Phase), (phases ++ [(email, Stage.idle)])[j]? = some ψ →
      ∀ c ∈ ψ.2.claim, phases[j]? = some ψ := by
    intro j ψ hψ c hc
    rw [List.getElem?_append] at hψ
    split at hψ
    · exact hψ
    · obtain rfl : ψ = (email, Stage.idle) := List.mem_singleton.mp (List.mem_of_getElem? hψ)
      cases hc
  refine ⟨fun j ψ hψ c hc => h.owned j ψ (hold j ψ hψ c hc) c hc, h.nodup, ?_, h.room⟩
  intro j k ψ χ hjk hψ hχ c hc d hd
  exact h.exclusive j k ψ χ hjk (hold j ψ hψ c hc) (hold k χ hχ d hd) c hc d hd

/-- A call without a transaction rewrites a code that nobody has locked. -/
theorem Locks.of_unlocked (h : Locks w phases) {promoId : Nat} (free : w.unlocked promoId = true)
    (hclaims : w'.claims = w.claims)
    (hcodes : ∀ p ∈ w.db.promoCodes, p.id ≠ promoId → p ∈ w'.db.promoCodes) : Locks w' phases := by
  obtain ⟨howned, hnodup, hexclusive, hroom⟩ := h
  refine ⟨?_, ?_, hexclusive, ?_⟩
  · exact fun j ψ hψ c hc => hclaims ▸ howned j ψ hψ c hc
  · exact hclaims ▸ hnodup
  · intro c hc hcounted
    rw [hclaims] at hc
    obtain ⟨p, hp, hid, hp'⟩ := hroom c hc hcounted
    exact ⟨p, hcodes p hp (hid ▸ unlocked_iff.mp free c hc), hid, hp'⟩

/-! ### Counts and rows -/

/-- Rewriting one code, in terms of its count. -/
theorem timesOf_update {codes : Table PromoCode} {promoId : Nat} {f : PromoCode → PromoCode}
    {hf : Table.Keyless f} (n : Nat) :
    ((codes.update (fun p => p.id == promoId) f hf).byId n).map PromoCode.timesRedeemed =
      (codes.byId n).map fun p => if n = promoId then (f p).timesRedeemed else p.timesRedeemed := by
  rw [Table.byId_update]
  cases hp : codes.byId n with
  | none => rfl
  | some p =>
    have hid : p.id = n := (Table.byId_eq_some_iff.mp hp).2
    simp only [Option.map_some, hid, beq_iff_eq]
    split <;> rfl

theorem timesOf_committed {promoId : Nat} {redemptions : Table PromoRedemption} {p : PromoCode}
    (hp : p ∈ w.db.promoCodes) (hid : p.id = promoId) (n : Nat) :
    timesOf (w.committed promoId redemptions).db n =
      timesOf w.db n + if n = promoId then 1 else 0 := by
  have hbyId : w.db.promoCodes.byId promoId = some p := Table.byId_eq_some_iff.mpr ⟨hp, hid⟩
  simp only [timesOf, World.committed, timesOf_update]
  by_cases hn : n = promoId
  · subst hn
    simp [hbyId]
  · simp [hn]

theorem timesOf_countReleased {promoId : Nat} (n : Nat) :
    timesOf (w.countReleased promoId).db n =
      timesOf w.db n - if n = promoId then 1 else 0 := by
  simp only [timesOf, World.countReleased, timesOf_update]
  by_cases hn : n = promoId
  · subst hn
    cases w.db.promoCodes.byId n <;> simp
  · simp [hn]

section Inserted

variable {redemptions : Table PromoRedemption} {row : PromoRedemption} {promoId : Nat}
  {email : String}

theorem countP_inserted {q : PromoRedemption → Bool}
    (hq : ∀ n, q { row with id := n } = q row)
    (h : w.db.promoRedemptions.insert? (fun id => { row with id := id }) = some redemptions) :
    redemptions.rows.countP q =
      w.db.promoRedemptions.rows.countP q + if q row then 1 else 0 := by
  rw [Table.insert?_rows h, List.countP_append, List.countP_singleton, hq]

end Inserted

/-- The deleted row counts once for its code and its account. -/
theorem countP_rowDeleted (w : World) (promoId : Nat) (email : String)
    (q : PromoRedemption → Bool) :
    (w.rowDeleted promoId email).db.promoRedemptions.rows.countP q +
        w.db.promoRedemptions.rows.countP
          (fun r => q r && (r.promoCodeId == promoId && r.accountEmail == some email)) =
      w.db.promoRedemptions.rows.countP q := by
  have hsplit := List.countP_eq_countP_filter_add w.db.promoRedemptions.rows q
    fun r => r.promoCodeId == promoId && r.accountEmail == some email
  rw [List.countP_filter] at hsplit
  simp only [World.rowDeleted, Table.rows_delete]
  omega

theorem rowsOf_rowDeleted (w : World) (promoId : Nat) (email : String) (n : Nat) :
    rowsOf (w.rowDeleted promoId email).db n +
      (if n = promoId then rowsFor w.db promoId email else 0) = rowsOf w.db n := by
  refine Eq.trans ?_ (countP_rowDeleted w promoId email fun r => r.promoCodeId == n)
  refine congrArg₂ (· + ·) rfl ?_
  by_cases hn : n = promoId
  · subst hn
    rw [if_pos rfl, rowsFor]
    refine List.countP_congr fun r _ => ?_
    simp
  · rw [if_neg hn, eq_comm, List.countP_eq_zero]
    intro r _
    simp only [Bool.and_eq_true, beq_iff_eq]
    rintro ⟨h, h', -⟩
    exact hn (h.symm.trans h')

theorem rowsFor_rowDeleted (w : World) (promoId : Nat) (email : String) (n : Nat) (e : String) :
    rowsFor (w.rowDeleted promoId email).db n e +
      (if n = promoId ∧ e = email then rowsFor w.db promoId email else 0) = rowsFor w.db n e := by
  refine Eq.trans ?_ (countP_rowDeleted w promoId email fun r =>
    r.promoCodeId == n && r.accountEmail == some e)
  refine congrArg₂ (· + ·) rfl ?_
  by_cases hn : n = promoId ∧ e = email
  · obtain ⟨rfl, rfl⟩ := hn
    rw [if_pos ⟨rfl, rfl⟩, rowsFor]
    refine List.countP_congr fun r _ => ?_
    simp
  · rw [if_neg hn, eq_comm, List.countP_eq_zero]
    intro r _
    simp only [Bool.and_eq_true, beq_iff_eq]
    rintro ⟨⟨h₁, h₂⟩, h₃, h₄⟩
    exact hn ⟨h₁.symm.trans h₃, Option.some.inj (h₂.symm.trans h₄)⟩

/-! ### The accounts -/

/-- The call holds a count of the code. -/
def counts (promoId : Nat) (φ : Phase) : Bool := φ.2.count == some promoId

/-- The call holds a row of the code. -/
def holdsRow (promoId : Nat) (φ : Phase) : Bool := φ.2.row == some promoId

/-- The call holds a row of the code for the account. -/
def holdsRowFor (promoId : Nat) (email : String) (φ : Phase) : Bool :=
  φ.1 == email && φ.2.row == some promoId

/-- The call of the account has logged that it could not give the code back. -/
def unreleasedFor (promoId : Nat) (email : String) (φ : Phase) : Bool :=
  φ.1 == email && φ.2.unreleased == some promoId

/-- How often the log says that the account could not give the code back. -/
def failedReleasesOf (w : World) (promoId : Nat) (email : String) : Nat :=
  w.failedReleases.count (promoId, email)

/-- Since the start every count and every row has been added for one call that holds it, no
cap has been passed, and every line of the log is about one call whose release failed. -/
structure Accounts (w₀ w : World) (phases : List Phase) : Prop where
  times : ∀ n, timesOf w.db n = timesOf w₀.db n + phases.countP (counts n)
  rows : ∀ n, rowsOf w.db n = rowsOf w₀.db n + phases.countP (holdsRow n)
  rowsFor : ∀ n e, rowsFor w.db n e = rowsFor w₀.db n e + phases.countP (holdsRowFor n e)
  unreleased : ∀ n e, failedReleasesOf w n e =
    failedReleasesOf w₀ n e + phases.countP (unreleasedFor n e)
  cap : WithinCap w₀.db → WithinCap w.db

/-- A statement that writes no ledger and no log and changes nothing its call holds. -/
theorem Accounts.idle_step (h : Accounts w₀ w phases) (hφ : phases[i]? = some φ)
    (hcodes : w'.db.promoCodes = w.db.promoCodes)
    (hrows : w'.db.promoRedemptions = w.db.promoRedemptions)
    (hlog : w'.failedReleases = w.failedReleases) (hemail : φ'.1 = φ.1)
    (hcount : φ'.2.count = φ.2.count) (hrow : φ'.2.row = φ.2.row)
    (hunreleased : φ'.2.unreleased = φ.2.unreleased) : Accounts w₀ w' (phases.set i φ') := by
  refine ⟨fun n => ?_, fun n => ?_, fun n e => ?_, fun n e => ?_, fun h₀ => ?_⟩
  · rw [countP_set_of_eq hφ (by simp only [counts, hcount]), ← h.times n]
    simp only [timesOf, hcodes]
  · rw [countP_set_of_eq hφ (by simp only [holdsRow, hrow]), ← h.rows n]
    simp only [rowsOf, hrows]
  · rw [countP_set_of_eq hφ (by simp only [holdsRowFor, hemail, hrow]), ← h.rowsFor n e]
    simp only [Feedbase.rowsFor, hrows]
  · rw [countP_set_of_eq hφ (by simp only [unreleasedFor, hemail, hunreleased]), ← h.unreleased n]
    simp only [failedReleasesOf, hlog]
  · simp only [WithinCap, hcodes]
    exact h.cap h₀

/-- The claim a commit finds is the committing call's own. -/
theorem Locks.claim_eq (h : Locks w phases) (hφ : phases[i]? = some φ) {promoId : Nat} {c d : Claim}
    (hd : φ.2.claim = some d) (hid : d.promoId = promoId)
    (hc : w.claims.find? (·.promoId == promoId) = some c) : c = d := by
  refine List.inj_on_of_nodup_map h.nodup (List.mem_of_find?_eq_some hc) (h.owned i φ hφ d hd) ?_
  have hcid : c.promoId = promoId := by simpa using List.find?_some hc
  rw [hcid, hid]

theorem Accounts.commit_step {email : String} {promoId : Nat} {row row' : PromoRedemption}
    {c : Claim} {redemptions : Table PromoRedemption} (hlocks : Locks w phases)
    (h : Accounts w₀ w phases) (hφ : phases[i]? = some (email, .pending promoId row))
    (code : row.promoCodeId = promoId) (account : row.accountEmail = some email)
    (claim : w.claims.find? (·.promoId == promoId) = some c) (pending : c.pending = some row')
    (inserted : w.db.promoRedemptions.insert? (fun id => { row' with id := id }) =
      some redemptions) :
    Accounts w₀ (w.committed promoId redemptions) (phases.set i (email, .held promoId)) := by
  -- the committed claim is the one of this call, with the row it has inserted
  obtain rfl : c = ⟨promoId, true, some row⟩ := hlocks.claim_eq hφ rfl rfl claim
  obtain rfl : row' = row := (Option.some.inj pending).symm
  obtain ⟨p, hp, hid, hroom⟩ := hlocks.room _ (hlocks.owned i _ hφ _ rfl) rfl
  have hset := fun q => countP_set_add (p := q) (b := (email, Stage.held promoId)) hφ
  refine ⟨fun n => ?_, fun n => ?_, fun n e => ?_, fun n e => ?_, fun h₀ => ?_⟩
  · have hcount := hset (counts n)
    rw [timesOf_committed hp hid, h.times]
    simp only [counts, Stage.count, Option.some_beq_some, beq_iff_eq, eq_comm (a := promoId),
      reduceCtorEq, if_false] at hcount ⊢
    omega
  · have hcount := hset (holdsRow n)
    have hrows := countP_inserted (q := fun r => r.promoCodeId == n) (fun _ => rfl) inserted
    have hprev := h.rows n
    simp only [rowsOf, World.committed] at hrows hprev ⊢
    simp only [holdsRow, Stage.row, Option.some_beq_some, code] at hcount hrows ⊢
    simp only [beq_iff_eq, reduceCtorEq, if_false] at hcount hrows
    omega
  · have hcount := hset (holdsRowFor n e)
    have hrows := countP_inserted
      (q := fun r => r.promoCodeId == n && r.accountEmail == some e) (fun _ => rfl) inserted
    have hprev := h.rowsFor n e
    simp only [Feedbase.rowsFor, World.committed] at hrows hprev ⊢
    simp only [holdsRowFor, Stage.row, Option.some_beq_some, code, account] at hcount hrows ⊢
    simp only [Bool.and_eq_true, beq_iff_eq, reduceCtorEq, and_false, if_false] at hcount hrows
    simp only [and_comm (a := promoId = n)] at hrows
    omega
  · have hsame : (phases.set i (email, Stage.held promoId)).countP (unreleasedFor n e) =
        phases.countP (unreleasedFor n e) := countP_set_of_eq hφ rfl
    rw [hsame]
    exact h.unreleased n e
  · -- the cap: the claim has kept room for exactly this redemption
    intro q hq
    simp only [World.committed, Table.mem_update] at hq
    obtain ⟨r, hr, rfl⟩ := hq
    by_cases hrid : r.id = promoId
    · obtain rfl : r = p := Table.eq_of_id hr hp (hrid.trans hid.symm)
      rw [if_pos (beq_iff_eq.mpr hrid)]
      cases hmax : r.maxRedemptions with
      | none => rfl
      | some m =>
        rw [hmax] at hroom
        simpa [hmax, Nat.succ_le_iff] using hroom
    · rw [if_neg (by simpa using hrid)]
      exact h.cap h₀ r hr

/-- The call's own row is the one row the `DELETE` removes. -/
theorem Accounts.delete_step {email : String} {promoId : Nat} (h : Accounts w₀ w phases)
    (hφ : phases[i]? = some (email, .held promoId)) :
    Accounts w₀ (w.rowDeleted promoId email) (phases.set i (email, .halfReleased promoId)) := by
  have hset := fun q => countP_set_add (p := q) (b := (email, Stage.halfReleased promoId)) hφ
  -- the call still has its row, and the unique key leaves room for no other
  have hone : Feedbase.rowsFor w.db promoId email = 1 := by
    have hle := rowsFor_le_one w.db promoId email
    have hpos : 0 < phases.countP (holdsRowFor promoId email) :=
      List.countP_pos_iff.mpr ⟨_, List.mem_of_getElem? hφ, by simp [holdsRowFor, Stage.row]⟩
    have hrows := h.rowsFor promoId email
    omega
  refine ⟨fun n => ?_, fun n => ?_, fun n e => ?_, fun n e => ?_, h.cap⟩
  · have hsame : (phases.set i (email, Stage.halfReleased promoId)).countP (counts n) =
        phases.countP (counts n) := countP_set_of_eq hφ rfl
    rw [hsame]
    exact h.times n
  · have hcount := hset (holdsRow n)
    have hrows := rowsOf_rowDeleted w promoId email n
    have hprev := h.rows n
    rw [hone] at hrows
    simp only [holdsRow, Stage.row, Option.some_beq_some, beq_iff_eq, reduceCtorEq, if_false,
      eq_comm (a := promoId)] at hcount hprev ⊢
    omega
  · have hcount := hset (holdsRowFor n e)
    have hrows := rowsFor_rowDeleted w promoId email n e
    have hprev := h.rowsFor n e
    rw [hone] at hrows
    simp only [holdsRowFor, Stage.row, Option.some_beq_some, Bool.and_eq_true, beq_iff_eq,
      reduceCtorEq, false_and, if_false, eq_comm (a := promoId), eq_comm (a := email),
      and_comm (a := e = email)] at hcount hprev ⊢
    omega
  · have hsame : (phases.set i (email, Stage.halfReleased promoId)).countP (unreleasedFor n e) =
        phases.countP (unreleasedFor n e) := countP_set_of_eq hφ rfl
    rw [hsame]
    exact h.unreleased n e

/-- The call's own count is the one the `UPDATE` takes back. -/
theorem Accounts.release_step {email : String} {promoId : Nat} (h : Accounts w₀ w phases)
    (hφ : phases[i]? = some (email, .halfReleased promoId)) :
    Accounts w₀ (w.countReleased promoId) (phases.set i (email, .idle)) := by
  refine ⟨fun n => ?_, fun n => ?_, fun n e => ?_, fun n e => ?_, fun h₀ => ?_⟩
  · have hcount := countP_set_add (p := counts n) (b := (email, Stage.idle)) hφ
    have hprev := h.times n
    rw [timesOf_countReleased]
    simp only [counts, Stage.count, Option.some_beq_some, beq_iff_eq, reduceCtorEq, if_false,
      eq_comm (a := promoId)] at hcount hprev ⊢
    omega
  · have hsame : (phases.set i (email, Stage.idle)).countP (holdsRow n) =
        phases.countP (holdsRow n) := countP_set_of_eq hφ rfl
    rw [hsame]
    exact h.rows n
  · have hsame : (phases.set i (email, Stage.idle)).countP (holdsRowFor n e) =
        phases.countP (holdsRowFor n e) := countP_set_of_eq hφ rfl
    rw [hsame]
    exact h.rowsFor n e
  · have hsame : (phases.set i (email, Stage.idle)).countP (unreleasedFor n e) =
        phases.countP (unreleasedFor n e) := countP_set_of_eq hφ rfl
    rw [hsame]
    exact h.unreleased n e
  · -- a count that goes down stays within the cap
    intro q hq
    simp only [World.countReleased, Table.mem_update] at hq
    obtain ⟨r, hr, rfl⟩ := hq
    have hcap := h.cap h₀ r hr
    split
    · cases hmax : r.maxRedemptions with
      | none => rfl
      | some m =>
        rw [hmax] at hcap
        simp only [Option.all_some, decide_eq_true_eq] at hcap
        simpa [hmax] using Nat.le_succ_of_le hcap
    · exact hcap

/-- The line that a call writes is about its own code and account. -/
theorem Accounts.log_step {email : String} {promoId : Nat} {hasRow : Bool}
    (h : Accounts w₀ w phases) (hφ : phases[i]? = some (email, .failing promoId hasRow)) :
    Accounts w₀ (w.withFailedRelease promoId email)
      (phases.set i (email, .stuck promoId hasRow)) := by
  have hrow : (Stage.stuck promoId hasRow).row = (Stage.failing promoId hasRow).row := by
    cases hasRow <;> rfl
  refine ⟨fun n => ?_, fun n => ?_, fun n e => ?_, fun n e => ?_, h.cap⟩
  · have hsame : (phases.set i (email, Stage.stuck promoId hasRow)).countP (counts n) =
        phases.countP (counts n) := countP_set_of_eq hφ rfl
    rw [hsame]
    exact h.times n
  · rw [countP_set_of_eq hφ (by simp only [holdsRow, hrow])]
    exact h.rows n
  · rw [countP_set_of_eq hφ (by simp only [holdsRowFor, hrow])]
    exact h.rowsFor n e
  · have hcount := countP_set_add (p := unreleasedFor n e)
      (b := (email, Stage.stuck promoId hasRow)) hφ
    have hprev := h.unreleased n e
    simp only [failedReleasesOf, World.withFailedRelease, List.count_append, List.count_singleton,
      unreleasedFor, Stage.unreleased, Option.some_beq_some, Bool.and_eq_true, beq_iff_eq,
      reduceCtorEq, and_false, if_false, Prod.mk.injEq, and_comm (a := promoId = n)]
      at hcount hprev ⊢
    omega

/-- One statement keeps the accounts. -/
theorem Accounts.step (hlocks : Locks w phases) (h : Accounts w₀ w phases)
    (hφ : phases[i]? = some φ) (hT : PhaseStep φ w φ' w') : Accounts w₀ w' (phases.set i φ') := by
  obtain ⟨email, σ⟩ := φ
  obtain ⟨email', σ'⟩ := φ'
  obtain ⟨rfl, hT⟩ := hT
  cases hT with
  | quiet same =>
    exact h.idle_step hφ same.promoCodes same.promoRedemptions same.failedReleases rfl rfl rfl rfl
  | lock free claimable => exact h.idle_step hφ rfl rfl rfl rfl rfl rfl rfl
  | abandon claim =>
    -- inside its transaction a call holds nothing yet
    have hnothing : σ.count = none ∧ σ.row = none ∧ σ.unreleased = none := by
      cases σ with
      | locked promoId counted => exact ⟨rfl, rfl, rfl⟩
      | pending promoId row => exact ⟨rfl, rfl, rfl⟩
      | _ => cases claim
    exact h.idle_step hφ rfl rfl rfl rfl hnothing.1.symm hnothing.2.1.symm hnothing.2.2.symm
  | insert code account => exact h.idle_step hφ rfl rfl rfl rfl rfl rfl rfl
  | commit code account claim pending inserted =>
    exact h.commit_step hlocks hφ code account claim pending inserted
  | delete => exact h.delete_step hφ
  | release free => exact h.release_step hφ
  | deleteFails fails => exact h.idle_step hφ rfl rfl rfl rfl rfl rfl rfl
  | releaseFails fails => exact h.idle_step hφ rfl rfl rfl rfl rfl rfl rfl
  | log => exact h.log_step hφ

/-! ### All interleavings -/

variable {P₀ P Q : Pool World Failure (Reply Redeemed) RedeemRequest}

/-- The invariant of every interleaving. -/
structure RedeemInv (P₀ P : Pool World Failure (Reply Redeemed) RedeemRequest)
    (phases : List Phase) : Prop where
  tracks : Tracks PhaseStep (fun φ r => Settled φ.2 r) P phases
  accounts_of : List.Forall₂ (fun c φ => φ.1 = c.request.auth.email) P.calls phases
  locks : Locks P.state phases
  accounts : Accounts P₀.state P.state phases

theorem RedeemInv.step (h : RedeemInv P₀ P phases) {m : Move RedeemRequest LedgerEnv}
    (hm : (redeemSystem cfg).move P m = some Q) : ∃ phases', RedeemInv P₀ Q phases' := by
  have hstart : ∀ (r : RedeemRequest) (s : World), Follows PhaseStep (fun φ r => Settled φ.2 r)
      (r.auth.email, .idle) ((redeemSystem cfg).handler r) := fun r _ =>
    (follows_redeemPromo r.code r.auth).mono fun _ _ hpost => hpost.2
  rcases h.tracks.move_cases (fun r _ => (r.auth.email, Stage.idle)) hstart hm with
    ⟨r, -, rfl, htracks⟩ | ⟨e, -, rfl, htracks⟩ |
      ⟨i, c, φ, φ', prog, -, hc, -, hφ, hT, hcalls, htracks⟩
  · -- a call arrives, holding nothing
    refine ⟨_, htracks, List.rel_append h.accounts_of (.cons rfl .nil), h.locks.append_idle _, ?_⟩
    refine ⟨fun n => ?_, fun n => ?_, fun n e => ?_, fun n e => ?_, h.accounts.cap⟩
    · simpa [counts, Stage.count] using h.accounts.times n
    · simpa [holdsRow, Stage.row] using h.accounts.rows n
    · simpa [holdsRowFor, Stage.row] using h.accounts.rowsFor n e
    · simpa [unreleasedFor, Stage.unreleased] using h.accounts.unreleased n e
  · -- the environment leaves the ledger alone
    have same := e.2 P.state
    refine ⟨phases, htracks, h.accounts_of, h.locks.of_sameLedger same, ?_⟩
    obtain ⟨htimes, hrows, hrowsFor, hunreleased, hcap⟩ := h.accounts
    refine ⟨fun n => ?_, fun n => ?_, fun n e => ?_, fun n e => ?_, fun h₀ => ?_⟩
    · rw [← htimes n]
      exact congrArg (fun T => ((Table.byId T n).map PromoCode.timesRedeemed).getD 0) same.promoCodes
    · rw [← hrows n]
      exact congrArg (fun T : Table PromoRedemption => T.rows.countP _) same.promoRedemptions
    · rw [← hrowsFor n e]
      exact congrArg (fun T : Table PromoRedemption => T.rows.countP _) same.promoRedemptions
    · rw [← hunreleased n e]
      exact congrArg (List.count (n, e)) same.failedReleases
    · intro p hp
      exact hcap h₀ p (same.promoCodes ▸ hp)
  · -- one statement of one call
    refine ⟨_, htracks, ?_, h.locks.step hφ hT, h.accounts.step h.locks hφ hT⟩
    rw [hcalls]
    obtain ⟨ψ, hψ, hemail⟩ := forall₂_getElem? h.accounts_of hc
    obtain rfl : ψ = φ := Option.some.inj (hψ.symm.trans hφ)
    have hset := forall₂_set (i := i) (a := { c with prog := prog }) (b := φ') h.accounts_of
      (hT.1.trans hemail)
    exact hset

/-- A code that grants Pro for a month, once. -/
def launchCode : PromoCode where
  id := 1
  code := "LAUNCH"
  type := .freePlan
  planGrant := some "pro"
  maxRedemptions := some 1

/-- Two workspaces and the code. -/
def launchHosts : List Tenant :=
  [{ id := 1, name := "Acme", slug := "acme", subdomain := "acme" },
    { id := 2, name := "Bolt", slug := "bolt", subdomain := "bolt" }]

def launchDay : World where
  db :=
    { tenants :=
        { rows := launchHosts
          next := 3
          id_lt := by decide
          nodup := by decide
          noClash := by decide }
      promoCodes :=
        { rows := [launchCode], next := 2, id_lt := by decide, nodup := by decide
          noClash := by decide } }

end Feedbase
