import Feedbase.Users.ResetSteps

/-!
# Reset links

A reset holds the lock of its link until the link is used, so a link sets one password. A new
link replaces the pending ones of its account, but the two statements that do so can be driven
apart by another request.

## Main definitions

* `SingleUse`, `NewestLink`
* `StoresInTurn` — a link is stored while no other request is about to store one

## Main results

* `LinksOwned.step`, `Renewed.step` — what one action preserves
* `resetLinks_of_run` — a link works once, and only the newest one as long as links are stored in
  turn
* `two_requests_leave_two_links`
-/

namespace Feedbase

variable {crypto : Crypto} {w w' : World} {email : String}

/-! ### Who has a link -/

/-- A link that a call has locked is pending, and one that it has used is used. -/
structure ResetPoint.Sound (φ : ResetPoint) (w : World) : Prop where
  held : ∀ row, φ.held = some row →
    row ∈ w.db.passwordResets ∧ row.isUsed = false ∧ row.lock ∈ w.rowLocks
  used : ∀ row, φ.used = some row → row.use ∈ w.db.passwordResets

section

variable {φ φ' ψ : ResetPoint} {row row' : PasswordReset} {points : List ResetPoint} {i : Nat}

theorem ResetPoint.Sound.of_owns_none (h : φ.owns = none) : φ.Sound w := by
  obtain ⟨hheld, hused⟩ := Option.or_eq_none_iff.mp h
  exact ⟨fun row hrow => by simp [hheld] at hrow, fun row hrow => by simp [hused] at hrow⟩

theorem ResetPoint.owns_of_held (h : φ.held = some row) : φ.owns = some row := by
  rw [owns, h, Option.some_or]

theorem ResetPoint.owns_of_used (h : φ.used = some row) : φ.owns = some row := by
  cases φ with
  | revokes r => exact h
  | hasReset r => exact h
  | _ => cases h

theorem mem_rowLocks_released_of_ne (h : row'.lock ∈ w.rowLocks) (hne : row.id ≠ row'.id) :
    row'.lock ∈ (w.released [row.lock]).rowLocks := by
  refine List.mem_filter.mpr ⟨h, ?_⟩
  have hlock : row'.lock ≠ row.lock := fun heq => hne (RowLock.passwordReset.inj heq).symm
  simpa using hlock

/-- Rows that a statement does not use up stay. -/
theorem mem_use_of_not {T : Sql.Table PasswordReset} {p : PasswordReset → Bool} (hrow : row ∈ T)
    (hp : p row = false) : row ∈ T.update p PasswordReset.use PasswordReset.keyless_use :=
  Sql.Table.mem_update_of_not hrow hp

theorem mem_use_of {T : Sql.Table PasswordReset} {p : PasswordReset → Bool} (hrow : row ∈ T)
    (hp : p row = true) : row.use ∈ T.update p PasswordReset.use PasswordReset.keyless_use :=
  Sql.Table.mem_update_of hrow hp

theorem SameLinks.sound (hsame : SameLinks w w') (hψ : ψ.Sound w) : ψ.Sound w' where
  held row hrow := by
    rw [hsame.passwordResets, hsame.rowLocks]
    exact hψ.held row hrow
  used row hrow := by
    rw [hsame.passwordResets]
    exact hψ.used row hrow

/-- An action leaves alone what another call has locked or used. -/
theorem ResetStep.sound_other (h : ResetStep crypto φ w φ' w') (hψ : ψ.Sound w)
    (hne : ∀ row row', φ.owns = some row → ψ.owns = some row' → row.id ≠ row'.id) :
    ψ.Sound w' := by
  cases h with
  | quiet hsame _ _ _ => exact hsame.sound hψ
  -- the statement waits for locked rows, so no row that another call holds is among those it uses
  | @invalidates mail email rawToken _ hfree =>
    refine ⟨fun row hrow => ?_, fun row hrow => ?_⟩
    · obtain ⟨hmem, hpending, hlock⟩ := hψ.held row hrow
      have hother : row.isPendingOf email = false :=
        Bool.eq_false_iff.mpr fun hp => hfree row hmem hp hlock
      exact ⟨mem_use_of_not hmem hother, hpending, hlock⟩
    · exact mem_use_of_not (hψ.used row hrow) (Bool.and_false _)
  | stores hinsert =>
    refine ⟨fun row hrow => ?_, fun row hrow => ?_⟩
    · obtain ⟨hmem, hpending, hlock⟩ := hψ.held row hrow
      exact ⟨(Sql.Table.mem_insert? hinsert).mpr (.inl hmem), hpending, hlock⟩
    · exact (Sql.Table.mem_insert? hinsert).mpr (.inl (hψ.used row hrow))
  | locks _ _ _ =>
    refine ⟨fun row hrow => ?_, hψ.used⟩
    obtain ⟨hmem, hpending, hlock⟩ := hψ.held row hrow
    exact ⟨hmem, hpending, List.mem_append_right _ hlock⟩
  -- the committed row is another one, and so are its locks
  | @commits row hash _ =>
    have hother : ∀ row', ψ.owns = some row' → (row'.id == row.id) = false := fun row' hrow' =>
      beq_false_of_ne (hne row row' rfl hrow').symm
    refine ⟨fun row' hrow' => ?_, fun row' hrow' => ?_⟩
    · obtain ⟨hmem, hpending, hlock⟩ := hψ.held row' hrow'
      have howns := ψ.owns_of_held hrow'
      exact ⟨mem_use_of_not hmem (hother row' howns), hpending,
        mem_rowLocks_released_of_ne hlock (hne row row' rfl howns)⟩
    · exact mem_use_of_not (hψ.used row' hrow') (hother row' (ψ.owns_of_used hrow'))
  | @rollsBack row _ _ =>
    refine ⟨fun row' hrow' => ?_, hψ.used⟩
    obtain ⟨hmem, hpending, hlock⟩ := hψ.held row' hrow'
    exact ⟨hmem, hpending,
      mem_rowLocks_released_of_ne hlock (hne row row' rfl (ψ.owns_of_held hrow'))⟩

/-- What a call has locked or used after its action. -/
theorem ResetStep.sound (h : ResetStep crypto φ w φ' w') (hφ : φ.Sound w) : φ'.Sound w' := by
  cases h with
  | quiet hsame hheld hused _ =>
    refine hsame.sound ⟨fun row hrow => ?_, fun row hrow => ?_⟩
    · exact hφ.held row (hheld ▸ hrow)
    · exact hφ.used row (hused ▸ hrow)
  | invalidates hfree => exact .of_owns_none rfl
  | stores hinsert => exact .of_owns_none rfl
  | locks hrow hpending hfree =>
    refine ⟨fun row h => ?_, fun row h => by cases h⟩
    cases h
    exact ⟨hrow, hpending, List.mem_append_left _ List.mem_cons_self⟩
  | commits =>
    refine ⟨fun row h => (by cases h), fun row h => ?_⟩
    cases h
    exact mem_use_of (hφ.held _ rfl).1 (beq_self_eq_true _)
  | rollsBack => exact .of_owns_none rfl

/-- A call comes to own only a link that is pending and that nobody has locked. -/
theorem ResetStep.owns (h : ResetStep crypto φ w φ' w') (hrow : φ'.owns = some row) :
    φ.owns = some row ∨
      row ∈ w.db.passwordResets ∧ row.isUsed = false ∧ row.lock ∉ w.rowLocks := by
  cases h with
  | quiet hsame hheld hused _ =>
    left
    rw [ResetPoint.owns, ← hheld, ← hused]
    exact hrow
  | invalidates hfree => cases hrow
  | stores hinsert => cases hrow
  | locks hmem hpending hfree =>
    cases hrow
    exact .inr ⟨hmem, hpending, hfree⟩
  | commits => exact .inl hrow
  | rollsBack => cases hrow

/-- Every link has at most one call that has locked or used it. -/
structure LinksOwned (w : World) (points : List ResetPoint) : Prop where
  sound : ∀ (i : Nat) φ, points[i]? = some φ → φ.Sound w
  once : ∀ (i j : Nat) φ ψ row row', points[i]? = some φ → points[j]? = some ψ →
    φ.owns = some row → ψ.owns = some row' → row.id = row'.id → i = j

/-- A link that a call owns is locked or used. -/
theorem ResetPoint.Sound.taken (hψ : ψ.Sound w) (howns : ψ.owns = some row')
    (hrow : row ∈ w.db.passwordResets) (hpending : row.isUsed = false)
    (hfree : row.lock ∉ w.rowLocks) : row.id ≠ row'.id := by
  intro hid
  rcases Option.or_eq_some_iff.mp howns with hheld | ⟨-, hused⟩
  · obtain ⟨-, -, hlock⟩ := hψ.held row' hheld
    have hsame : row.lock = row'.lock := congrArg RowLock.passwordReset hid
    exact hfree (hsame ▸ hlock)
  · have hsame : row = row'.use := Sql.Table.eq_of_id hrow (hψ.used row' hused) hid
    rw [hsame] at hpending
    cases hpending

theorem LinksOwned.step (h : LinksOwned w points) (hφ : points[i]? = some φ)
    (hstep : ResetStep crypto φ w φ' w') : LinksOwned w' (points.set i φ') := by
  -- what the call owns after its action is no other call's
  have hown : ∀ (j : Nat) ψ row row', j ≠ i → points[j]? = some ψ → φ'.owns = some row →
      ψ.owns = some row' → row.id ≠ row'.id := by
    intro j ψ row row' hj hψ hrow hrow' hid
    rcases hstep.owns hrow with hbefore | ⟨hmem, hpending, hfree⟩
    · exact hj (h.once i j φ ψ row row' hφ hψ hbefore hrow' hid).symm
    · exact (h.sound j ψ hψ).taken hrow' hmem hpending hfree hid
  refine ⟨fun j ψ hψ => ?_, fun j k ψ χ row row' hψ hχ hrow hrow' hid => ?_⟩
  · rcases getElem?_set_cases hψ with ⟨rfl, rfl⟩ | ⟨hj, hψ'⟩
    · exact hstep.sound (h.sound j φ hφ)
    · refine hstep.sound_other (h.sound j ψ hψ') fun row row' hrow hrow' hid => ?_
      exact hj (h.once i j φ ψ row row' hφ hψ' hrow hrow' hid).symm
  · rcases getElem?_set_cases hψ with ⟨rfl, rfl⟩ | ⟨hj, hψ'⟩
    · rcases getElem?_set_cases hχ with ⟨rfl, -⟩ | ⟨hk, hχ'⟩
      · rfl
      · exact absurd hid (hown k χ row row' hk hχ' hrow hrow')
    · rcases getElem?_set_cases hχ with ⟨rfl, rfl⟩ | ⟨hk, hχ'⟩
      · exact absurd hid.symm (hown j ψ row' row hj hψ' hrow' hrow)
      · exact h.once j k ψ χ row row' hψ' hχ' hrow hrow' hid

/-! ### The newest link -/

/-- A link that still lets its holder set a password. -/
def PasswordReset.isLive (now : Time) (r : PasswordReset) : Bool :=
  !r.isUsed && decide (now < r.expiresAt)

/-- At most one link of the account is pending and unexpired, and no link of it is newer. -/
structure NewestLink (email : String) (w : World) : Prop where
  one : ∀ r ∈ w.db.passwordResets, ∀ s ∈ w.db.passwordResets, r.email = email → s.email = email →
    r.isLive w.now → s.isLive w.now → r = s
  newest : ∀ r ∈ w.db.passwordResets, r.email = email → r.isLive w.now →
    ∀ s ∈ w.db.passwordResets, s.email = email → s.id ≤ r.id

theorem NewestLink.of_newest
    (h : ∀ r ∈ w.db.passwordResets, r.email = email → r.isLive w.now →
      ∀ s ∈ w.db.passwordResets, s.email = email → s.id ≤ r.id) : NewestLink email w where
  one r hr s hs hre hse hrl hsl := by
    have hle : r.id ≤ s.id := h s hs hse hsl r hr hre
    have hge : s.id ≤ r.id := h r hr hre hrl s hs hse
    exact Sql.Table.eq_of_id hr hs (Nat.le_antisymm hle hge)
  newest := h

theorem PasswordReset.isLive_iff {now : Time} {r : PasswordReset} :
    r.isLive now = true ↔ r.isUsed = false ∧ now < r.expiresAt := by
  simp [isLive]

/-- Links only get used up, and time passes. -/
structure OnlyUses (w w' : World) : Prop where
  rows : ∀ r ∈ w'.db.passwordResets, ∃ s ∈ w.db.passwordResets, s.id = r.id ∧ s.email = r.email ∧
    s.expiresAt = r.expiresAt ∧ (s.isUsed = true → r.isUsed = true)
  now : w.now ≤ w'.now

theorem OnlyUses.of_eq (h : w'.db.passwordResets = w.db.passwordResets) (hnow : w.now ≤ w'.now) :
    OnlyUses w w' := by
  refine ⟨fun r hr => ⟨r, ?_, rfl, rfl, rfl, id⟩, hnow⟩
  rw [← h]
  exact hr

theorem OnlyUses.of_update {p : PasswordReset → Bool}
    (h : w'.db.passwordResets =
      w.db.passwordResets.update p PasswordReset.use PasswordReset.keyless_use)
    (hnow : w'.now = w.now) : OnlyUses w w' := by
  refine ⟨fun r hr => ?_, Nat.le_of_eq hnow.symm⟩
  rw [h] at hr
  obtain ⟨s, hs, rfl⟩ := Sql.Table.mem_update.mp hr
  refine ⟨s, hs, ?_⟩
  by_cases hp : p s = true
  · rw [if_pos hp]
    exact ⟨rfl, rfl, rfl, fun _ => rfl⟩
  · rw [if_neg hp]
    exact ⟨rfl, rfl, rfl, id⟩

theorem NewestLink.onlyUses (h : NewestLink email w) (huses : OnlyUses w w') :
    NewestLink email w' := by
  refine .of_newest fun r hr hre hrl s hs hse => ?_
  obtain ⟨r₀, hr₀, hrid, hremail, hrexpires, hrused⟩ := huses.rows r hr
  obtain ⟨s₀, hs₀, hsid, hsemail, -, -⟩ := huses.rows s hs
  obtain ⟨hpending, hunexpired⟩ := PasswordReset.isLive_iff.mp hrl
  have hpending₀ : r₀.isUsed = false := by
    by_contra hused
    rw [hrused (by simpa using hused)] at hpending
    cases hpending
  have hunexpired₀ : w.now < r₀.expiresAt := by
    rw [hrexpires]
    exact Nat.lt_of_le_of_lt huses.now hunexpired
  have hlive : r₀.isLive w.now = true := PasswordReset.isLive_iff.mpr ⟨hpending₀, hunexpired₀⟩
  have hle := h.newest r₀ hr₀ (hremail.trans hre) hlive s₀ hs₀ (hsemail.trans hse)
  omega

/-- Every link of the account is used up. -/
def AllUsed (email : String) (w : World) : Prop :=
  ∀ r ∈ w.db.passwordResets, r.email = email → r.isUsed = true

theorem AllUsed.onlyUses (h : AllUsed email w) (huses : OnlyUses w w') : AllUsed email w' := by
  intro r hr hre
  obtain ⟨s, hs, -, hsemail, -, hused⟩ := huses.rows r hr
  exact hused (h s hs (hsemail.trans hre))

theorem allUsed_invalidateResets :
    AllUsed email { w with db := invalidateResets email w.db } := by
  intro r hr hre
  change r ∈ w.db.passwordResets.update _ _ PasswordReset.keyless_use at hr
  obtain ⟨s, -, rfl⟩ := Sql.Table.mem_update.mp hr
  by_cases hp : (s.email == email && !s.isUsed) = true
  · rw [if_pos hp]
    rfl
  · rw [if_neg hp] at hre ⊢
    simpa [hre] using hp

/-- A link is stored when all others of the account are used up. -/
theorem NewestLink.store {mk : Nat → PasswordReset} {hmk : ∀ n, Sql.Row.id (mk n) = n}
    {resets : Sql.Table PasswordReset} (h : NewestLink email w)
    (hinsert : w.db.passwordResets.insert? mk hmk = some resets)
    (hused : (mk w.db.passwordResets.next).email = email → AllUsed email w) :
    NewestLink email { w with db := { w.db with passwordResets := resets } } := by
  have hnew : (mk w.db.passwordResets.next).id = w.db.passwordResets.next := hmk _
  refine .of_newest fun r hr hre hrl s hs hse => ?_
  rcases (Sql.Table.mem_insert? hinsert).mp hs with hs | rfl
  · have hlt : s.id < w.db.passwordResets.next := w.db.passwordResets.id_lt s hs
    rcases (Sql.Table.mem_insert? hinsert).mp hr with hr | rfl
    · exact h.newest r hr hre hrl s hs hse
    · omega
  · rcases (Sql.Table.mem_insert? hinsert).mp hr with hr | rfl
    · have hpending := (PasswordReset.isLive_iff.mp hrl).1
      rw [hused hse r hr hre] at hpending
      cases hpending
    · exact Nat.le_refl _

/-- An action stores a link, or uses up links and leaves what awaits a link as it is. -/
theorem ResetStep.links (email : String) (h : ResetStep crypto φ w φ' w') (hnow : w'.now = w.now) :
    (OnlyUses w w' ∧ (φ'.awaits = some email → φ.awaits = some email ∨ AllUsed email w')) ∨
      ∃ mail stored rawToken now resets, φ = .stores mail stored rawToken now ∧ φ'.awaits = none ∧
        w.db.passwordResets.insert? (newLink crypto stored rawToken now) = some resets ∧
          w' = { w with db := { w.db with passwordResets := resets } } := by
  cases h with
  | quiet hsame _ _ hawaits =>
    refine .inl ⟨.of_eq hsame.passwordResets (Nat.le_of_eq hnow.symm), fun h => .inl ?_⟩
    rcases hawaits with hawaits | hawaits
    · rw [← hawaits]
      exact h
    · rw [hawaits] at h
      cases h
  | invalidates hfree =>
    refine .inl ⟨.of_update rfl rfl, fun h => .inr ?_⟩
    cases h
    exact allUsed_invalidateResets
  | stores hinsert => exact .inr ⟨_, _, _, _, _, rfl, rfl, hinsert, rfl⟩
  | locks _ _ _ => exact .inl ⟨.of_eq rfl (Nat.le_refl _), fun h => by cases h⟩
  | commits => exact .inl ⟨.of_update rfl rfl, fun h => by cases h⟩
  | rollsBack => exact .inl ⟨.of_eq rfl (Nat.le_refl _), fun h => by cases h⟩

/-- The newest link of the account is the only one, and while a call awaits a link there is
none. -/
structure Renewed (email : String) (w : World) (points : List ResetPoint) : Prop where
  newest : NewestLink email w
  awaited : ∀ (i : Nat) φ, points[i]? = some φ → φ.awaits = some email → AllUsed email w

/-- A link of the account has been stored. -/
def LinkStored (email : String) (w w' : World) : Prop :=
  ∃ r ∈ w'.db.passwordResets, r.email = email ∧ ∀ s ∈ w.db.passwordResets, s.id ≠ r.id

theorem linkStored_insert? {mk : Nat → PasswordReset} {hmk : ∀ n, Sql.Row.id (mk n) = n}
    {resets : Sql.Table PasswordReset}
    (hinsert : w.db.passwordResets.insert? mk hmk = some resets)
    (hemail : (mk w.db.passwordResets.next).email = email) :
    LinkStored email w { w with db := { w.db with passwordResets := resets } } := by
  refine ⟨_, (Sql.Table.mem_insert? hinsert).mpr (.inr rfl), hemail, fun s hs => ?_⟩
  have hlt : s.id < w.db.passwordResets.next := w.db.passwordResets.id_lt s hs
  have hnew : (mk w.db.passwordResets.next).id = w.db.passwordResets.next := hmk _
  omega

theorem Renewed.step (h : Renewed email w points) (hφ : points[i]? = some φ)
    (hstep : ResetStep crypto φ w φ' w') (hnow : w'.now = w.now)
    (hturn : LinkStored email w w' → ∀ (j k : Nat) ψ χ, points[j]? = some ψ → points[k]? = some χ →
      ψ.awaits = some email → χ.awaits = some email → j = k) :
    Renewed email w' (points.set i φ') := by
  rcases hstep.links email hnow with
    ⟨huses, hawaits⟩ | ⟨mail, stored, rawToken, now, resets, rfl, hdone, hinsert, rfl⟩
  · refine ⟨h.newest.onlyUses huses, fun j ψ hψ hawaiting => ?_⟩
    rcases getElem?_set_cases hψ with ⟨rfl, rfl⟩ | ⟨-, hψ'⟩
    · rcases hawaits hawaiting with hbefore | hused
      · exact (h.awaited j φ hφ hbefore).onlyUses huses
      · exact hused
    · exact (h.awaited j ψ hψ' hawaiting).onlyUses huses
  · refine ⟨h.newest.store hinsert fun hemail => ?_, fun j ψ hψ hawaiting => ?_⟩
    · exact h.awaited i _ hφ (congrArg some hemail)
    · rcases getElem?_set_cases hψ with ⟨rfl, rfl⟩ | ⟨hj, hψ'⟩
      · rw [hdone] at hawaiting
        cases hawaiting
      · have hother : stored ≠ email := by
          rintro rfl
          exact hj (hturn (linkStored_insert? hinsert rfl) j i _ _ hψ' hφ hawaiting rfl)
        intro r hr hre
        rcases (Sql.Table.mem_insert? hinsert).mp hr with hr | rfl
        · exact h.awaited j ψ hψ' hawaiting r hr hre
        · exact absurd hre hother

end

/-! ### Runs -/

/-- What happens between the statements of the calls: time passes, and nothing changes a link
or its lock. -/
structure LeavesLinks (w w' : World) : Prop extends SameLinks w w' where
  now : w.now ≤ w'.now

def resetSystem (crypto : Crypto) :
    System World Failure Unit ResetRequest { f : World → World // ∀ w, LeavesLinks w (f w) } where
  handler := resetHandler crypto
  env e := e.1

abbrev ResetPool := Pool World Failure Unit ResetRequest

/-- No two calls have set a password with the same token. -/
def SingleUse (P : ResetPool) : Prop :=
  ∀ (token : String) (i j : Nat) c d, P.calls[i]? = some c → P.calls[j]? = some d →
    c.request.token = some token → d.request.token = some token →
      c.outcome = some (.ok ()) → d.outcome = some (.ok ()) → i = j

/-- The call stands between its `UPDATE` and its `INSERT`. -/
def Awaits (crypto : Crypto) (email : String) (c : Call World Failure Unit ResetRequest) : Prop :=
  ∃ φ : ResetPoint, φ.awaits = some email ∧ c.prog = φ.prog crypto

/-- When a link of the account is stored, no other call stands between its `UPDATE` and its
`INSERT`. -/
def StoresInTurn (crypto : Crypto) (email : String) (P Q : ResetPool) : Prop :=
  LinkStored email P.state Q.state → ∀ (i j : Nat) c d, P.calls[i]? = some c →
    P.calls[j]? = some d → Awaits crypto email c → Awaits crypto email d → i = j

variable {w₀ : World} {P Q : ResetPool}

theorem LinksOwned.nil (w : World) : LinksOwned w [] := by
  refine ⟨fun i φ h => ?_, fun i j φ ψ row row' h => ?_⟩
  · cases h
  · cases h

theorem LinksOwned.arrive {points : List ResetPoint} (h : LinksOwned w points) {φ : ResetPoint}
    (hφ : φ.owns = none) : LinksOwned w (points ++ [φ]) := by
  refine ⟨fun i ψ hψ => ?_, fun i j ψ χ row row' hψ hχ hrow hrow' hid => ?_⟩
  · rcases getElem?_concat_cases hψ with hψ | ⟨-, rfl⟩
    · exact h.sound i ψ hψ
    · exact .of_owns_none hφ
  · rcases getElem?_concat_cases hψ with hψ | ⟨-, rfl⟩
    · rcases getElem?_concat_cases hχ with hχ | ⟨-, rfl⟩
      · exact h.once i j ψ χ row row' hψ hχ hrow hrow' hid
      · rw [hφ] at hrow'
        cases hrow'
    · rw [hφ] at hrow
      cases hrow

theorem LinksOwned.same {points : List ResetPoint} (h : LinksOwned w points)
    (hsame : SameLinks w w') : LinksOwned w' points :=
  ⟨fun i φ hφ => hsame.sound (h.sound i φ hφ), h.once⟩

theorem Renewed.arrive {points : List ResetPoint} (h : Renewed email w points) {φ : ResetPoint}
    (hφ : φ.awaits = none) : Renewed email w (points ++ [φ]) := by
  refine ⟨h.newest, fun i ψ hψ hawaits => ?_⟩
  rcases getElem?_concat_cases hψ with hψ | ⟨-, rfl⟩
  · exact h.awaited i ψ hψ hawaits
  · rw [hφ] at hawaits
    cases hawaits

/-- Every call stands at a point of its request. -/
def AtFitting (crypto : Crypto) (P : ResetPool) (points : List ResetPoint) : Prop :=
  ∀ (i : Nat) c φ, P.calls[i]? = some c → points[i]? = some φ → φ.Fits crypto c.request

theorem atPoints_nil (w : World) :
    AtPoints (ResetPoint.prog crypto) (⟨w, []⟩ : ResetPool) [] := List.Forall₂.nil

/-- In every run, in any order, each link has at most one owner. -/
theorem linksOwned_of_run {ok : ResetPool → ResetPool → Prop}
    (h : (resetSystem crypto).Run ok ⟨w₀, []⟩ P) :
    ∃ points, AtPoints (ResetPoint.prog crypto) P points ∧ LinksOwned P.state points ∧
      AtFitting crypto P points := by
  refine Points.inv_of_run (ResetRequest.start crypto)
    (I := fun P points => LinksOwned P.state points ∧ AtFitting crypto P points)
    points_reset resetHandler_eq (atPoints_nil w₀)
    ⟨.nil w₀, fun i c φ hc => by cases hc⟩ ?_ ?_ ?_ h
  · -- a call arrives
    intro P points r hat ⟨howned, hfits⟩
    obtain ⟨hstart, howns, -⟩ := start_spec crypto r
    refine ⟨howned.arrive howns, fun i c φ hc hφ => ?_⟩
    have hlength : P.calls.length = points.length := List.Forall₂.length_eq hat
    rcases getElem?_concat_cases hc with hc | ⟨hi, rfl⟩
    · rcases getElem?_concat_cases hφ with hφ | ⟨hi, -⟩
      · exact hfits i c φ hc hφ
      · have hlt := (List.getElem?_eq_some_iff.mp hc).1
        omega
    · rcases getElem?_concat_cases hφ with hφ | ⟨-, rfl⟩
      · have hlt := (List.getElem?_eq_some_iff.mp hφ).1
        omega
      · exact hstart
  · intro P points e ⟨howned, hfits⟩
    exact ⟨howned.same (e.2 P.state).toSameLinks, hfits⟩
  · intro P Q points i c φ φ' hat _ hc hφ hmove hcalls ⟨howned, hfits⟩
    refine ⟨howned.step hφ hmove.step, fun j d ψ hd hψ => ?_⟩
    rw [hcalls] at hd
    rcases getElem?_set_cases hd with ⟨rfl, rfl⟩ | ⟨hj, hd⟩
    · rcases getElem?_set_cases hψ with ⟨-, rfl⟩ | ⟨hj, -⟩
      · exact hmove.fits c.request (hfits j c φ hc hφ)
      · exact absurd rfl hj
    · rcases getElem?_set_cases hψ with ⟨rfl, -⟩ | ⟨-, hψ⟩
      · exact absurd rfl hj
      · exact hfits j d ψ hd hψ

/-- A call that has set a password with a token has used the link of the token. -/
theorem used_of_outcome {c : Call World Failure Unit ResetRequest} {φ : ResetPoint}
    {token : String} (hprog : c.prog = φ.prog crypto) (hfits : φ.Fits crypto c.request)
    (htoken : c.request.token = some token) (hok : c.outcome = some (.ok ())) :
    ∃ row, φ.used = some row ∧ row.tokenHash = crypto.hashToken token := by
  unfold Call.outcome at hok
  rw [hprog] at hok
  cases φ with
  | hasReset row =>
    have hhash : c.request.token.map crypto.hashToken = some row.tokenHash := hfits
    rw [htoken] at hhash
    exact ⟨row, rfl, (Option.some.inj hhash).symm⟩
  | answered =>
    have hnone : c.request.token = none := hfits
    rw [hnone] at htoken
    cases htoken
  | _ => cases hok

theorem singleUse_of_run {ok : ResetPool → ResetPool → Prop}
    (h : (resetSystem crypto).Run ok ⟨w₀, []⟩ P) : SingleUse P := by
  obtain ⟨points, hat, howned, hfits⟩ := linksOwned_of_run h
  intro token i j c d hc hd hct hdt hcok hdok
  obtain ⟨φ, hφ, hcφ⟩ := hat.point_of hc
  obtain ⟨ψ, hψ, hdψ⟩ := hat.point_of hd
  obtain ⟨row, hrow, hhash⟩ := used_of_outcome hcφ (hfits i c φ hc hφ) hct hcok
  obtain ⟨row', hrow', hhash'⟩ := used_of_outcome hdψ (hfits j d ψ hd hψ) hdt hdok
  have hclash : Sql.Row.clash row.use row'.use = true :=
    beq_iff_eq.mpr (hhash.trans hhash'.symm)
  have hsame : row.use = row'.use :=
    Sql.Table.eq_of_clash ((howned.sound i φ hφ).used row hrow)
      ((howned.sound j ψ hψ).used row' hrow') hclash
  have hid : row.use.id = row'.use.id := congrArg PasswordReset.id hsame
  exact howned.once i j φ ψ row row' hφ hψ (φ.owns_of_used hrow) (ψ.owns_of_used hrow') hid

theorem newestLink_of_run (hstart : NewestLink email w₀)
    (h : (resetSystem crypto).Run (StoresInTurn crypto email) ⟨w₀, []⟩ P) :
    NewestLink email P.state := by
  have hrun : ∃ points, AtPoints (ResetPoint.prog crypto) P points ∧
      Renewed email P.state points := by
    refine Points.inv_of_run (ResetRequest.start crypto)
      (I := fun P points => Renewed email P.state points)
      points_reset resetHandler_eq (atPoints_nil w₀) ⟨hstart, fun i φ hφ => by cases hφ⟩ ?_ ?_ ?_ h
    · intro P points r _ hrenewed
      exact hrenewed.arrive (start_spec crypto r).2.2
    · intro P points e hrenewed
      have hleaves := e.2 P.state
      have huses : OnlyUses P.state (e.1 P.state) := .of_eq hleaves.passwordResets hleaves.now
      exact ⟨hrenewed.newest.onlyUses huses, fun i φ hφ hawaits =>
        (hrenewed.awaited i φ hφ hawaits).onlyUses huses⟩
    · intro P Q points i c φ φ' hat hok hc hφ hmove hcalls hrenewed
      refine hrenewed.step hφ hmove.step hmove.now fun hstored j k ψ χ hψ hχ hψa hχa => ?_
      obtain ⟨c, hc, hcψ⟩ := hat.prog_eq hψ
      obtain ⟨d, hd, hdχ⟩ := hat.prog_eq hχ
      exact hok hstored j k c d hc hd ⟨ψ, hψa, hcψ⟩ ⟨χ, hχa, hdχ⟩
  obtain ⟨_, -, hrenewed⟩ := hrun
  exact hrenewed.newest

/-- In every run a token sets one password at most; and as long as links are stored in turn, at
most one link of an account is pending and unexpired, the one stored last. -/
theorem resetLinks_of_run (hstart : NewestLink email w₀) :
    (∀ P, (resetSystem crypto).Run (fun _ _ => True) ⟨w₀, []⟩ P → SingleUse P) ∧
      ∀ P, (resetSystem crypto).Run (StoresInTurn crypto email) ⟨w₀, []⟩ P →
        NewestLink email P.state :=
  ⟨fun _ h => singleUse_of_run h, fun _ h => newestLink_of_run hstart h⟩

/-! ### One account, two links -/

def ResetRequest.ofGrace (rawToken : String) : ResetRequest :=
  .requestPasswordReset mailDemo "grace@example.com" rawToken

/-- One call is in flight. -/
def oneReset (P : ResetPool) : Bool := decide (P.inFlight ≤ 1)

theorem storesInTurn_of_oneReset (P Q : ResetPool) (h : oneReset P = true) :
    StoresInTurn crypto email P Q := by
  intro _ i j c d hc hd hcawaits hdawaits
  have hinFlight : ∀ c : Call World Failure Unit ResetRequest, Awaits crypto email c →
      c.outcome.isNone = true := by
    rintro c ⟨φ, hφ, hprog⟩
    unfold Call.outcome
    rw [hprog]
    cases φ with
    | dates mail email rawToken => rfl
    | stores mail email rawToken now => rfl
    | _ => cases hφ
  exact eq_of_countP_le_one (of_decide_eq_true h) hc hd (hinFlight c hcawaits)
    (hinFlight d hdawaits)

/-- How the calls have ended. -/
def endings (P : ResetPool) : List (Option Bool) :=
  P.calls.map fun c => c.outcome.map Except.isOk

/-- Two requests one after the other: the first link is used up, and the second one sets a
password once. -/
theorem resetLinks_of_run_grace : ∃ P : ResetPool,
    endings P = [some true, some true, some false, some true, some false] ∧
      P.state.db.passwordResets.rows.map (·.isUsed) = [true, true] ∧ SingleUse P ∧
        NewestLink "grace@example.com" P.state := by
  let run := (resetSystem .plain).scheduleWhile oneReset ⟨graceSignedUp, []⟩
    ([.arrive (.ofGrace "t0")] ++ List.replicate 5 (.run 0) ++
      [.arrive (.ofGrace "t1")] ++ List.replicate 5 (.run 1) ++
        [.arrive (.resetPassword "t0" "long enough" "salt")] ++ List.replicate 2 (.run 2) ++
          [.arrive (.resetPassword "t1" "long enough" "salt")] ++ List.replicate 6 (.run 3) ++
            [.arrive (.resetPassword "t1" "long again" "salt")] ++ List.replicate 2 (.run 4))
  have hend : run.map (fun P => (endings P, P.state.db.passwordResets.rows.map (·.isUsed))) =
      some ([some true, some true, some false, some true, some false], [true, true]) := by
    decide +kernel
  obtain ⟨P, hrun, hP⟩ := Option.map_eq_some_iff.mp hend
  obtain ⟨hendings, hused⟩ := Prod.mk.inj hP
  have hstart : NewestLink "grace@example.com" graceSignedUp :=
    .of_newest fun r hr => by cases hr
  obtain ⟨hsingle, hnewest⟩ := @resetLinks_of_run .plain _ _ hstart
  exact ⟨P, hendings, hused, hsingle P (System.run_of_scheduleWhile (fun _ _ _ => trivial) hrun),
    hnewest P (System.run_of_scheduleWhile storesInTurn_of_oneReset hrun)⟩

/-- Two requests use up the links of the account before either stores its own: both links are
left. -/
theorem two_requests_leave_two_links : ∃ P : ResetPool,
    NewestLink "grace@example.com" graceSignedUp ∧
      (resetSystem .plain).Run (fun _ _ => True) ⟨graceSignedUp, []⟩ P ∧ P.Quiescent ∧
        ¬ NewestLink "grace@example.com" P.state := by
  let run := (resetSystem .plain).schedule ⟨graceSignedUp, []⟩
    ([.arrive (.ofGrace "t0"), .arrive (.ofGrace "t1")] ++ List.replicate 2 (.run 0) ++
      List.replicate 2 (.run 1) ++ List.replicate 3 (.run 0) ++ List.replicate 3 (.run 1))
  have hend : run.map (fun P => (P.calls.all (·.outcome.isSome), P.state.db.passwordResets.rows,
      P.state.now)) = some (true, [newLink .plain "grace@example.com" "t0" 0 1,
        newLink .plain "grace@example.com" "t1" 0 2], 0) := by
    decide +kernel
  obtain ⟨P, hrun, hP⟩ := Option.map_eq_some_iff.mp hend
  obtain ⟨hdone, hP⟩ := Prod.mk.inj hP
  obtain ⟨hrows, hnow⟩ := Prod.mk.inj hP
  refine ⟨P, .of_newest fun r hr => (by cases hr), System.run_of_schedule hrun,
    fun c hc => List.all_eq_true.mp hdone c hc, fun hnewest => ?_⟩
  have hfirst : newLink .plain "grace@example.com" "t0" 0 1 ∈ P.state.db.passwordResets := by
    rw [Sql.Table.mem_def, hrows]
    exact List.mem_cons_self
  have hsecond : newLink .plain "grace@example.com" "t1" 0 2 ∈ P.state.db.passwordResets := by
    rw [Sql.Table.mem_def, hrows]
    exact List.mem_cons_of_mem _ List.mem_cons_self
  have hle := hnewest.newest _ hfirst rfl (by rw [hnow]; rfl) _ hsecond rfl
  exact absurd hle (by decide)

end Feedbase
