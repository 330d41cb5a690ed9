import Feedbase.Lib.Turns
import Feedbase.Users.InvitationSteps
import Feedbase.Users.Login
import Feedbase.Users.Passwords

/-!
# Signing an account up

Four handlers create the first row of an account: the sign-up form, a social sign-in, the
grant of the administrator's role, and the acceptance of an invitation. Each looks for the
account first and inserts in a later statement, and the unique key does not tell two rows
without a workspace apart.

## Main definitions

* `SignUpStep` — what a statement does to the accounts
* `AddsFor`, `AddsAlone`

## Main results

* `provisionedOnce_of_run`
-/

namespace Feedbase

variable {crypto : Crypto} {email : String} {w w' : World}

/-! ### The accounts -/

/-- The address and the active flag of every row. -/
def accountsOf (db : Db) : List (String × Bool) := db.users.rows.map fun u => (u.email, u.isActive)

/-- The rows of an account. -/
def rowsOfAccount (db : Db) (email : String) : List User :=
  db.users.rows.filter fun u => u.email == email

theorem length_rowsOfAccount (db : Db) (email : String) :
    (rowsOfAccount db email).length = (accountsOf db).countP fun a => a.1 == email := by
  rw [rowsOfAccount, accountsOf, ← List.countP_eq_length_filter, List.countP_map]
  rfl

theorem accountsOf_insert {users : Sql.Table User} {mk : Nat → User}
    {hmk : ∀ n, Sql.Row.id (mk n) = n} (h : w.db.users.insert? mk hmk = some users) :
    accountsOf { w.db with users := users } =
      accountsOf w.db ++ [((mk w.db.users.next).email, (mk w.db.users.next).isActive)] := by
  rw [accountsOf, accountsOf, Sql.Table.insert?_rows h, List.map_append]
  rfl

theorem accountsOf_joinWorkspace {inv : Invitation} {fullName : String}
    {passwordHash avatarUrl : Option String} {db : Db}
    (h : joinWorkspace inv fullName passwordHash avatarUrl w.db = some db) :
    accountsOf db = accountsOf w.db ++ [(inv.email, true)] := by
  obtain ⟨users, hins, rfl⟩ := Option.map_eq_some_iff.mp h
  exact accountsOf_insert hins

/-- Only another row can be in the way of an insert. -/
theorem exists_user_of_clash {mk : Nat → User} {hmk : ∀ n, Sql.Row.id (mk n) = n}
    (h : w.db.users.insert? mk hmk = none) : ∃ u, u ∈ w.db.users := by
  obtain ⟨u, hu, -⟩ := Sql.Table.insert?_eq_none_iff.mp h
  exact ⟨u, hu⟩

/-! ### The statements -/

/-- What one statement does to the accounts. A call is in phase `some email` when it has
found no active row of the account and is about to add one. -/
inductive SignUpStep : Option String → World → Option String → World → Prop where
  | keeps {w w' : World} (h : accountsOf w'.db = accountsOf w.db) : SignUpStep none w none w'
  | finds {w w' : World} (email : String) (hnone : (email, true) ∉ accountsOf w.db)
      (h : accountsOf w'.db = accountsOf w.db) : SignUpStep none w (some email) w'
  | adds {w w' : World} (email : String)
      (h : accountsOf w'.db = accountsOf w.db ++ [(email, true)]) : SignUpStep (some email) w none w'
  | clashes {w w' : World} (email : String) (hu : ∃ u, u ∈ w.db.users)
      (h : accountsOf w'.db = accountsOf w.db) : SignUpStep (some email) w none w'

/-- No call ends between its search and its insert. -/
def SignedUp {α : Type} (φ : Option String) (_ : Except Failure α) : Prop := φ = none

/-- A statement that writes no user. -/
def KeepsAccounts (w w' : World) : Prop := accountsOf w'.db = accountsOf w.db

theorem KeepsAccounts.refl (w : World) : KeepsAccounts w w := Eq.refl (accountsOf w.db)

theorem signsUp_of_within {α : Type} {p : Handler α} (h : Prog.Within KeepsAccounts p) :
    Follows SignUpStep SignedUp none p :=
  (Follows.of_within h fun _ _ => .keeps).mono fun _ _ hφ => hφ

theorem signsUp_bind {α β : Type} {p : Handler α} {f : α → Handler β} {φ : Option String}
    (hp : Follows SignUpStep SignedUp φ p) (hf : ∀ a, Follows SignUpStep SignedUp none (f a)) :
    Follows SignUpStep SignedUp φ (p >>= f) :=
  hp.bind (fun _ a hφ => hφ ▸ hf a) fun _ _ hφ => hφ

theorem signsUp_catching {α : Type} {p : Handler α} {h : Failure → Handler α} {φ : Option String}
    (hp : Follows SignUpStep SignedUp φ p) (hh : ∀ e, Follows SignUpStep SignedUp none (h e)) :
    Follows SignUpStep SignedUp φ (tryCatch p h) :=
  hp.catching (fun _ _ hφ => hφ) fun _ e hφ => hφ ▸ hh e

theorem signsUp_ret {α : Type} (a : α) : Follows SignUpStep SignedUp none (pure a : Handler α) :=
  .ret rfl

theorem signsUp_fail {α : Type} (e : Failure) :
    Follows SignUpStep SignedUp none (throw e : Handler α) := .fail rfl

theorem signsUp_failWith {α : Type} (msgKey : String) (e : Failure) :
    Follows SignUpStep SignedUp none (failWith msgKey e : Handler α) := by
  cases e <;> exact .fail rfl

/-- A search that sends the call on to its insert when it finds no active row. -/
theorem signsUp_search {α β : Type} {f : Db → α} {k : α → Handler β}
    (hfind : ∀ db, Follows SignUpStep SignedUp none (k (f db)) ∨
      ∃ email, (email, true) ∉ accountsOf db ∧
        Follows SignUpStep SignedUp (some email) (k (f db))) :
    Follows SignUpStep SignedUp none (query f >>= k) := by
  intro s _
  rcases hfind s.db with h | ⟨email, hnone, h⟩
  · exact ⟨none, .keeps rfl, h⟩
  · exact ⟨some email, .finds email hnone rfl, h⟩

/-- The insert of a call that has found no row. -/
theorem signsUp_attempt {α : Type} {e : Failure} {f : World → Option (α × World)}
    (hsome : ∀ w a w', f w = some (a, w') →
      accountsOf w'.db = accountsOf w.db ++ [(email, true)])
    (hnone : ∀ w, f w = none → ∃ u, u ∈ w.db.users) :
    Follows SignUpStep SignedUp (some email) (Prog.attempt e f) := by
  refine .step fun w _ => ⟨none, ?_, ?_⟩
  · cases hf : f w with
    | none => exact .clashes email (hnone w hf) rfl
    | some r => exact .adds email (hsome w r.1 r.2 hf)
  · rfl

theorem signsUp_insertUser {mk : Nat → User} {hmk : ∀ n, Sql.Row.id (mk n) = n}
    (hemail : ∀ n, (mk n).email = email) (hactive : ∀ n, (mk n).isActive = true) :
    Follows SignUpStep SignedUp (some email)
      (keyed fun db => (db.users.insert? mk hmk).map fun users => { db with users := users }) := by
  refine signsUp_attempt (fun w a w' h => ?_) fun w h => ?_
  · obtain ⟨db, hdb, heq⟩ := Option.map_eq_some_iff.mp h
    obtain ⟨users, hins, rfl⟩ := Option.map_eq_some_iff.mp hdb
    cases heq
    dsimp only
    rw [accountsOf_insert hins, hemail, hactive]
  · exact exists_user_of_clash (Option.map_eq_none_iff.mp (Option.map_eq_none_iff.mp h))

/-! ### The handlers -/

/-- Every statement of the handler is one of `SignUpStep`, and it ends without an insert
ahead of it. -/
structure SignsUp {α : Type} (p : Handler α) : Prop where
  follows : Follows SignUpStep SignedUp none p

theorem signsUp_finishSignIn (user : User) (force : Bool) (sessionId msgKey : String) :
    Follows SignUpStep SignedUp none (finishSignIn user force sessionId msgKey) :=
  signsUp_of_within (within_finishSignIn (R := KeepsAccounts) .refl (fun _ => rfl)
    (fun _ _ _ => rfl) force msgKey)

/-- No row of the account, so none that is active. -/
theorem not_mem_accountsOf {db : Db} (h : (db.users.rows.any fun u => u.email == email) ≠ true) :
    (email, true) ∉ accountsOf db := by
  intro hmem
  obtain ⟨u, hu, heq⟩ := List.mem_map.mp hmem
  exact h (List.any_eq_true.mpr ⟨u, hu, beq_iff_eq.mpr (congrArg Prod.fst heq)⟩)

theorem signsUp_registerNewUser (data : SignUp) :
    SignsUp (registerNewUser data) := by
  constructor
  refine signsUp_catching (signsUp_search fun db => ?_) fun e => ?_
  · by_cases hdup : (db.users.rows.any fun u => u.email == data.email) = true
    · rw [if_pos hdup]
      exact .inl (signsUp_fail _)
    · rw [if_neg hdup]
      exact .inr ⟨data.email, not_mem_accountsOf hdup,
        signsUp_bind (signsUp_insertUser (fun _ => rfl) fun _ => rfl) fun _ => signsUp_ret _⟩
  · cases e <;> exact signsUp_fail _

theorem signsUp_findOrProvision (email fullName avatarUrl : String) :
    Follows SignUpStep SignedUp none (findOrProvision email fullName avatarUrl) := by
  refine signsUp_search fun db => ?_
  cases hrow : findAccountRow db email with
  | some user => exact .inl (signsUp_ret _)
  | none =>
    refine .inr ⟨email, fun hmem => ?_, signsUp_bind (signsUp_attempt ?_ ?_) fun id => ?_⟩
    · obtain ⟨u, hu, heq⟩ := List.mem_map.mp hmem
      obtain ⟨rfl, hactive⟩ := Prod.mk.inj heq
      exact findAccountRow_ne_none hu hactive hrow
    · intro w a w' h
      obtain ⟨users, hins, heq⟩ := Option.map_eq_some_iff.mp h
      cases heq
      exact accountsOf_insert hins
    · exact fun w h => exists_user_of_clash (Option.map_eq_none_iff.mp h)
    · exact signsUp_of_within (.read .refl _)

theorem signsUp_oauthLogin (data : OauthData) (sessionId : String) :
    SignsUp (oauthLogin data sessionId) := by
  constructor
  unfold oauthLogin
  split
  · exact signsUp_fail _
  refine signsUp_catching (signsUp_search fun db => .inl ?_) (signsUp_failWith _)
  refine signsUp_bind (signsUp_findOrProvision _ _ _) fun found => ?_
  cases found with
  | none => exact signsUp_fail _
  | some user =>
    have hlink : Follows SignUpStep SignedUp none (update (rememberLink
        (linkedEmail (oauthLink db (toLowerCase data.provider) data.providerUserId) data.address)
        (toLowerCase data.provider) data.providerUserId)) :=
      signsUp_of_within (.write fun w => by
        unfold KeepsAccounts accountsOf
        dsimp only
        rw [users_rememberLink])
    dsimp only
    split
    · exact signsUp_bind hlink fun _ => signsUp_finishSignIn _ _ _ _
    · exact signsUp_finishSignIn _ _ _ _

theorem signsUp_insertAdmin {password : String} (hlength : ¬ lengthUnits password < 8)
    (email fullName salt : String) :
    Follows SignUpStep SignedUp (some email) (insertAdmin crypto email fullName password salt) := by
  rw [insertAdmin, if_neg hlength]
  refine signsUp_bind (signsUp_catching (signsUp_insertUser ?_ ?_) (signsUp_failWith _)) fun _ => ?_
  · exact fun _ => rfl
  · exact fun _ => rfl
  · exact signsUp_ret _

theorem signsUp_createAdmin (data : AdminData) (salt : String) :
    SignsUp (createAdmin crypto data salt) := by
  constructor
  unfold createAdmin
  dsimp only
  generalize trim (toLowerCase data.email) = email
  generalize trim data.fullName = fullName
  by_cases hemail : isEmail email = false
  · rw [if_pos hemail]
    exact signsUp_fail _
  by_cases hname : fullName = ""
  · rw [if_neg hemail, if_pos hname]
    exact signsUp_fail _
  rw [if_neg hemail, if_neg hname]
  refine signsUp_search fun db => ?_
  cases hrows : db.users.rows.filter (·.email == email) with
  | nil =>
    by_cases hlength : lengthUnits data.password < 8
    · refine .inl ?_
      rw [insertAdmin, if_pos hlength]
      exact signsUp_fail _
    · refine .inr ⟨_, not_mem_accountsOf fun hany => ?_, signsUp_insertAdmin hlength _ _ _⟩
      obtain ⟨u, hu, hemail⟩ := List.any_eq_true.mp hany
      exact List.filter_eq_nil_iff.mp hrows u hu hemail
  -- an address that is known adds no account
  | cons u rows =>
    left
    dsimp only
    split
    · exact signsUp_fail _
    · refine signsUp_bind (signsUp_of_within (.write fun w => ?_)) fun _ => signsUp_ret _
      unfold KeepsAccounts accountsOf
      rw [Sql.Table.rows_update, List.map_map]
      refine List.map_congr_left fun v _ => ?_
      dsimp only [Function.comp]
      split <;> rfl

theorem signsUp_commitMember (inv : Invitation) (tenant : Tenant) (fullName : String)
    (passwordHash avatarUrl : Option String) :
    Follows SignUpStep SignedUp (some inv.email)
      (commitMember inv tenant fullName passwordHash avatarUrl) := by
  refine .step fun w _ => ⟨none, ?_, ?_⟩
  · cases hjoin : joinWorkspace inv fullName passwordHash avatarUrl w.db with
    | some db => exact .adds inv.email (accountsOf_joinWorkspace hjoin)
    | none => exact .clashes inv.email (exists_user_of_clash (Option.map_eq_none_iff.mp hjoin)) rfl
  · cases joinWorkspace inv fullName passwordHash avatarUrl w.db <;> rfl

theorem signsUp_newUserSteps (token fullName password salt sessionId : String) :
    SignsUp (newUserSteps crypto token fullName password salt sessionId) := by
  constructor
  unfold newUserSteps
  dsimp only
  split
  · exact signsUp_fail _
  split
  · exact signsUp_fail _
  refine signsUp_catching (signsUp_bind ?_ fun found => ?_) (signsUp_failWith _)
  · refine signsUp_of_within (.step fun w => ?_)
    cases openInvitation w.db w.now token <;> rfl
  cases found with
  | none => exact signsUp_fail _
  | some r =>
    refine signsUp_search fun db => ?_
    by_cases hknown : (db.users.rows.any (·.email == r.1.email)) = true
    · rw [if_pos hknown]
      exact .inl (signsUp_bind (signsUp_of_within (.write fun _ => rfl)) fun _ => signsUp_fail _)
    · rw [if_neg hknown]
      refine .inr ⟨r.1.email, not_mem_accountsOf hknown, ?_⟩
      refine signsUp_bind (signsUp_commitMember _ _ _ _ _) fun memberId => ?_
      refine signsUp_bind (signsUp_of_within ?_) fun _ => signsUp_ret _
      exact within_createSession (R := KeepsAccounts) .refl fun _ _ _ => rfl

/-! ### Interleavings -/

/-- A request that may create the first row of an account. Random values are part of it. -/
inductive SignUpRequest where
  | register (data : SignUp)
  | oauth (data : OauthData) (sessionId : String)
  | admin (data : AdminData) (salt : String)
  | accept (token fullName password salt sessionId : String)

/-- What happens between the statements of the calls: time passes, sessions, invitations and
workspaces change, and accounts that exist change but for their addresses and flags. -/
def SignUpEnv : Type := { f : World → World // ∀ w, KeepsAccounts w (f w) }

theorem SignsUp.withoutReply {α : Type} {p : Handler α} (h : SignsUp p) :
    SignsUp (withoutReply p) :=
  ⟨signsUp_bind h.follows fun _ => signsUp_ret _⟩

/-- The handler of a request, without its reply. -/
def signUpHandler (crypto : Crypto) : SignUpRequest → Handler Unit
  | .register data => withoutReply (registerNewUser data)
  | .oauth data sessionId => withoutReply (oauthLogin data sessionId)
  | .admin data salt => withoutReply (createAdmin crypto data salt)
  | .accept token fullName password salt sessionId =>
    withoutReply (newUserSteps crypto token fullName password salt sessionId)

def signUpSystem (crypto : Crypto) : System World Failure Unit SignUpRequest SignUpEnv where
  handler := signUpHandler crypto
  env e := e.1

abbrev SignUpPool := Pool World Failure Unit SignUpRequest

theorem signsUp_handler (r : SignUpRequest) : SignsUp (signUpHandler crypto r) := by
  cases r with
  | register data => exact (signsUp_registerNewUser data).withoutReply
  | oauth data sessionId => exact (signsUp_oauthLogin data sessionId).withoutReply
  | admin data salt => exact (signsUp_createAdmin data salt).withoutReply
  | accept token fullName password salt sessionId =>
    exact (signsUp_newUserSteps token fullName password salt sessionId).withoutReply

/-- The next statement of the call is an insert for the account: performed on a server
without users it would add one. -/
def AddsFor (email : String) (c : Call World Failure Unit SignUpRequest) : Prop :=
  ∃ ready next cont, c.prog = .act ready next cont ∧
    ∀ w : World, ready w = true → (∀ u, u ∉ w.db.users) → ∃ u ∈ (next w).db.users, u.email = email

/-- At most one call stands between its search for the account and its insert. -/
def AddsAlone (email : String) (P : SignUpPool) : Prop :=
  ∀ (i j : Nat) c d, P.calls[i]? = some c → P.calls[j]? = some d →
    AddsFor email c → AddsFor email d → i = j

/-- A call between its search and its insert is about to add a row. -/
theorem addsFor_of_follows {c : Call World Failure Unit SignUpRequest}
    (h : Follows SignUpStep SignedUp (some email) c.prog) : AddsFor email c := by
  obtain ⟨r, since, p⟩ := c
  cases p with
  | ret a => cases (h : SignedUp (some email) (.ok a))
  | fail e => cases (h : SignedUp (some email) (.error e))
  | act ready next cont =>
    refine ⟨ready, next, cont, rfl, fun w hready hnone => ?_⟩
    obtain ⟨φ, hstep, -⟩ := h w hready
    cases hstep with
    | adds _ hadds =>
      have hmem : (email, true) ∈ accountsOf (next w).db := by
        rw [hadds]
        exact List.mem_append_right _ (List.mem_singleton.mpr rfl)
      obtain ⟨u, hu, heq⟩ := List.mem_map.mp hmem
      exact ⟨u, hu, congrArg Prod.fst heq⟩
    | clashes _ hu _ =>
      obtain ⟨u, hu⟩ := hu
      exact absurd hu (hnone u)

/-- What holds of every state: a call that is about to insert finds no row of the account. -/
structure AtMostOnce (email : String) (P : SignUpPool) (phases : List (Option String)) : Prop where
  one : (accountsOf P.state.db).countP (·.1 == email) ≤ 1
  active : ∀ a ∈ accountsOf P.state.db, a.1 = email → a.2 = true
  none_of_phase : some email ∈ phases → (accountsOf P.state.db).countP (·.1 == email) = 0

/-- One statement of a call keeps it, if no other call is about to insert. -/
theorem AtMostOnce.step {P Q : SignUpPool} {phases : List (Option String)}
    (h : AtMostOnce email P phases) (htracks : Tracks SignUpStep SignedUp P phases)
    (halone : AddsAlone email P) {i : Nat} {c : Call World Failure Unit SignUpRequest}
    {φ φ' : Option String} (hc : P.calls[i]? = some c) (hφ : phases[i]? = some φ)
    (hstep : SignUpStep φ P.state φ' Q.state) : AtMostOnce email Q (phases.set i φ') := by
  have hother (hne : φ' ≠ some email) : some email ∈ phases.set i φ' → some email ∈ phases := by
    intro hmem
    rcases List.mem_or_eq_of_mem_set hmem with hmem | heq
    · exact hmem
    · exact absurd heq.symm hne
  cases hstep with
  | keeps hkeeps =>
    exact ⟨hkeeps ▸ h.one, hkeeps ▸ h.active, fun hmem =>
      hkeeps ▸ h.none_of_phase (hother (by simp) hmem)⟩
  | finds address hnone hkeeps =>
    refine ⟨hkeeps ▸ h.one, hkeeps ▸ h.active, fun hmem => hkeeps ▸ ?_⟩
    by_cases haddress : address = email
    · -- the search has seen every row of the account, since all of them are active
      subst haddress
      refine List.countP_eq_zero.mpr fun a ha heq => hnone ?_
      have hfst : a.1 = address := beq_iff_eq.mp heq
      rw [← hfst, ← h.active a ha hfst]
      exact ha
    · exact h.none_of_phase (hother (by simpa using haddress) hmem)
  | adds address hadds =>
    by_cases haddress : address = email
    · subst haddress
      have hzero := h.none_of_phase (List.mem_of_getElem? hφ)
      refine ⟨?_, fun a ha heq => ?_, fun hmem => ?_⟩
      · rw [hadds, List.countP_append, hzero]
        simp
      · rw [hadds] at ha
        rcases List.mem_append.mp ha with ha | ha
        · exact h.active a ha heq
        · rw [List.mem_singleton.mp ha]
      · -- another call about to insert would not be alone
        obtain ⟨j, hj⟩ := List.getElem?_of_mem hmem
        rcases getElem?_set_cases hj with ⟨-, heq⟩ | ⟨hne, hj⟩
        · cases heq
        · obtain ⟨d, hd, hfollows⟩ := forall₂_getElem? htracks.flip hj
          obtain ⟨ψ, hψ, hcfollows⟩ := forall₂_getElem? htracks hc
          obtain rfl : ψ = some address := Option.some.inj (hψ.symm.trans hφ)
          exact absurd (halone j i d c hd hc (addsFor_of_follows hfollows)
            (addsFor_of_follows hcfollows)) hne
    · refine ⟨?_, fun a ha heq => ?_, fun hmem => ?_⟩
      · rw [hadds, List.countP_append]
        simpa [haddress] using h.one
      · rw [hadds] at ha
        rcases List.mem_append.mp ha with ha | ha
        · exact h.active a ha heq
        · rw [List.mem_singleton.mp ha]
      · rw [hadds, List.countP_append, h.none_of_phase (hother (by simp) hmem)]
        simp [haddress]
  | clashes address hu hkeeps =>
    exact ⟨hkeeps ▸ h.one, hkeeps ▸ h.active, fun hmem =>
      hkeeps ▸ h.none_of_phase (hother (by simp) hmem)⟩

theorem atMostOnce_of_run {w₀ : World} (hnew : ∀ u ∈ w₀.db.users, u.email ≠ email)
    {Q : SignUpPool}
    (hrun : (signUpSystem crypto).Run (fun P _ => AddsAlone email P) ⟨w₀, []⟩ Q) :
    ∃ phases, Tracks SignUpStep SignedUp Q phases ∧
      Tracks.Begun (signUpSystem crypto) (fun _ _ => none) Q phases ∧
        AtMostOnce email Q phases := by
  have hzero : (accountsOf w₀.db).countP (·.1 == email) = 0 := by
    refine List.countP_eq_zero.mpr fun a ha heq => ?_
    obtain ⟨u, hu, rfl⟩ := List.mem_map.mp ha
    exact hnew u hu (beq_iff_eq.mp heq)
  refine Tracks.inv_of_run (fun r _ => (signsUp_handler r).follows) ?_ ?_ ?_ ?_ hrun
  · refine ⟨hzero.le.trans (by omega), fun a ha heq => ?_, fun hmem => by cases hmem⟩
    exact absurd (beq_iff_eq.mpr heq) (List.countP_eq_zero.mp hzero a ha)
  · intro P phases r htracks hbegun h
    refine ⟨h.one, h.active, fun hmem => h.none_of_phase ?_⟩
    simpa using hmem
  · intro P phases e hok h
    have hkeeps : accountsOf (e.1 P.state).db = accountsOf P.state.db := e.2 P.state
    exact ⟨hkeeps ▸ h.one, hkeeps ▸ h.active, fun hmem => hkeeps ▸ h.none_of_phase hmem⟩
  · intro P Q phases i c φ φ' prog _ htracks hbegun halone hc hout hφ hstep hcalls h
    exact h.step htracks halone hc hφ hstep

/-- In every run in which at most one call at a time stands between its search for the
account and its insert, an account without a row gets at most one: at most one row without
a workspace, and at most one password hash. -/
theorem provisionedOnce_of_run {w₀ : World} (hnew : ∀ u ∈ w₀.db.users, u.email ≠ email)
    {Q : SignUpPool}
    (hrun : (signUpSystem crypto).Run (fun P _ => AddsAlone email P) ⟨w₀, []⟩ Q) :
    (rowsOfAccount Q.state.db email).length ≤ 1 ∧
      ((rowsOfAccount Q.state.db email).filter (·.tenantId.isNone)).length ≤ 1 ∧
        ((rowsOfAccount Q.state.db email).filterMap User.passwordHash).length ≤ 1 := by
  obtain ⟨phases, -, -, hinv⟩ := atMostOnce_of_run hnew hrun
  have hone := hinv.one
  rw [← length_rowsOfAccount] at hone
  exact ⟨hone, (List.length_filter_le _ _).trans hone, (List.length_filterMap_le _ _).trans hone⟩

/-! ### Runs on one address -/

/-- The sign-up form, sent with one password or another. -/
def signUpForm (hash : String) : SignUpRequest :=
  .register { fullName := "Lin", email := "lin@example.com", password := hash }

/-- A call that is about to insert is in flight. -/
theorem addsAlone_of_inFlight {P : SignUpPool} (h : decide (P.inFlight ≤ 1) = true) :
    AddsAlone email P := by
  intro i j c d hc hd hcadds hdadds
  have hflying {c : Call World Failure Unit SignUpRequest} (hadds : AddsFor email c) :
      c.outcome.isNone = true := by
    obtain ⟨ready, next, cont, hprog, -⟩ := hadds
    unfold Call.outcome
    rw [hprog]
    rfl
  exact eq_of_countP_le_one (of_decide_eq_true h) hc hd (hflying hcadds) (hflying hdadds)

/-- The form is sent twice, and the second is answered after the first. -/
theorem provisionedOnce_of_run_form : ∃ Q : SignUpPool, Q.Quiescent ∧ Q.calls.length = 2 ∧
    (rowsOfAccount Q.state.db "lin@example.com").length ≤ 1 := by
  let run := (signUpSystem .plain).scheduleWhile (fun P => decide (P.inFlight ≤ 1)) ⟨{}, []⟩
    [.arrive (signUpForm "h1"), .run 0, .run 0, .arrive (signUpForm "h2"), .run 1]
  have hend : run.map (fun Q => (Q.calls.all (·.outcome.isSome), Q.calls.length)) =
      some (true, 2) := by decide +kernel
  obtain ⟨Q, hrun, hQ⟩ := Option.map_eq_some_iff.mp hend
  obtain ⟨hdone, hcalls⟩ := Prod.mk.inj hQ
  have hnew : ∀ u ∈ ({} : World).db.users, u.email ≠ "lin@example.com" :=
    fun u hu => absurd hu Sql.Table.not_mem_empty
  exact ⟨Q, fun c hc => List.all_eq_true.mp hdone c hc, hcalls,
    (provisionedOnce_of_run hnew
      (System.run_of_scheduleWhile (fun _ _ => addsAlone_of_inFlight) hrun)).1⟩

/-- Both calls search before either inserts: the account has two rows without a workspace,
with two passwords. -/
theorem form_sent_twice_signs_up_twice : ∃ Q : SignUpPool,
    (∀ u ∈ ({} : World).db.users, u.email ≠ "lin@example.com") ∧
      (signUpSystem .plain).Run (fun _ _ => True) ⟨{}, []⟩ Q ∧ Q.Quiescent ∧
        ((rowsOfAccount Q.state.db "lin@example.com").filter (·.tenantId.isNone)).length = 2 ∧
          (rowsOfAccount Q.state.db "lin@example.com").filterMap User.passwordHash =
            ["h1", "h2"] := by
  let run := (signUpSystem .plain).schedule ⟨{}, []⟩
    [.arrive (signUpForm "h1"), .arrive (signUpForm "h2"), .run 0, .run 1, .run 0, .run 1]
  have hend : run.map (fun Q => (Q.calls.all (·.outcome.isSome),
      ((rowsOfAccount Q.state.db "lin@example.com").filter (·.tenantId.isNone)).length,
        (rowsOfAccount Q.state.db "lin@example.com").filterMap User.passwordHash)) =
          some (true, 2, ["h1", "h2"]) := by decide +kernel
  obtain ⟨Q, hrun, hQ⟩ := Option.map_eq_some_iff.mp hend
  obtain ⟨hdone, hrows⟩ := Prod.mk.inj hQ
  obtain ⟨htwo, hhashes⟩ := Prod.mk.inj hrows
  exact ⟨Q, fun u hu => absurd hu Sql.Table.not_mem_empty, System.run_of_schedule hrun,
    fun c hc => List.all_eq_true.mp hdone c hc, htwo, hhashes⟩

end Feedbase
