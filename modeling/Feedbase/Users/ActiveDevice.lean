import Feedbase.Common.SessionConcurrency
import Feedbase.Users.Passwords
import Mathlib.Algebra.Order.Floor.Semiring
import Mathlib.Data.NNRat.Defs
import Mathlib.Data.Rat.Floor

/-!
# An active device keeps its place

A request that is let through writes the time to the row of its session, at most once a
minute, and a session counts as live for fifteen minutes. So for fourteen minutes after
the request an unforced sign-in of the account is refused, unless the session has been
ended in between. The database counts whole seconds: the fourteen minutes begin with the second
in which the request came.

## Main definitions

* `Moment` — the server at an instant
* `DeviceEvent` — what may happen, each at once
* `DeviceEvent.EndsSessions`, `Spared` — the events that are meant to end a session
* `SeenBy`, `Unrevoked` — the row of the session

## Main results

* `SeenBy.serve`, `Protects.serve` — one event keeps the row
* `blocked_of_accepted` — a request that was let through protects its session
* `displaced_within_fourteen_minutes` — not for the rest of its second
-/

namespace Feedbase

variable {crypto : Crypto} {w w' : World} {s : UserSession} {sid email : String} {t : Time}

/-! ### The row of a session -/

/-- The session was seen less than a minute before `t`, or after. -/
def SeenBy (sid email : String) (t : Time) (w : World) : Prop :=
  ∃ s ∈ w.db.userSessions, s.sessionId = sid ∧ s.email = email ∧ t ≤ s.lastSeenAt + 60

def Unrevoked (sid : String) (w : World) : Prop :=
  ∃ s ∈ w.db.userSessions, s.sessionId = sid ∧ s.revokedAt = none

instance (sid : String) (w : World) : Decidable (Unrevoked sid w) :=
  inferInstanceAs (Decidable (∃ s ∈ w.db.userSessions, s.sessionId = sid ∧ s.revokedAt = none))

theorem eq_of_sessionId {sessions : Sql.Table UserSession} {s s' : UserSession} (hs : s ∈ sessions)
    (hs' : s' ∈ sessions) (h : s.sessionId = s'.sessionId) : s = s' :=
  Sql.Table.eq_of_clash hs hs' (beq_iff_eq.mpr h)

theorem unrevoked_iff (hs : s ∈ w.db.userSessions) (hsid : s.sessionId = sid) :
    Unrevoked sid w ↔ s.revokedAt = none := by
  constructor
  · rintro ⟨s', hs', hsid', hnone⟩
    rw [eq_of_sessionId hs hs' (hsid.trans hsid'.symm)]
    exact hnone
  · intro hnone
    exact ⟨s, hs, hsid, hnone⟩

/-- Every session is still there, seen as late as before. -/
def Retains (w w' : World) : Prop :=
  ∀ s ∈ w.db.userSessions, ∃ s' ∈ w'.db.userSessions,
    s'.sessionId = s.sessionId ∧ s'.email = s.email ∧ s.lastSeenAt ≤ s'.lastSeenAt

theorem Retains.refl (w : World) : Retains w w := fun s hs => ⟨s, hs, rfl, rfl, Nat.le_refl _⟩

theorem Retains.trans {w'' : World} (h : Retains w w') (h' : Retains w' w'') : Retains w w'' := by
  intro s hs
  obtain ⟨s', hs', hsid', hemail', hle'⟩ := h s hs
  obtain ⟨s'', hs'', hsid, hemail, hle⟩ := h' s' hs'
  exact ⟨s'', hs'', hsid.trans hsid', hemail.trans hemail', hle'.trans hle⟩

theorem Retains.of_eq (h : w'.db.userSessions = w.db.userSessions) : Retains w w' := by
  intro s hs
  exact ⟨s, h ▸ hs, rfl, rfl, Nat.le_refl _⟩

theorem Retains.exec {α : Type} {p : Handler α} (hp : Prog.Within Retains p) (w : World) :
    Retains w (p.exec w).2 :=
  Prog.Within.exec (R := Retains) Retains.refl (fun _ _ _ => .trans) hp w

/-- An `UPDATE` that sets none of the columns but a later time. -/
theorem retains_update {p : UserSession → Bool} {f : UserSession → UserSession}
    {hf : Sql.Table.Keyless f} (hsid : ∀ s, (f s).sessionId = s.sessionId)
    (hemail : ∀ s, (f s).email = s.email)
    (hlater : ∀ s, p s = true → s.lastSeenAt ≤ (f s).lastSeenAt) :
    Retains w (w.setSessions (w.db.userSessions.update p f hf)) := by
  intro s hs
  by_cases hp : p s = true
  · have hmem : f s ∈ w.db.userSessions.update p f hf := Sql.Table.mem_update_of hs hp
    exact ⟨f s, hmem, hsid s, hemail s, hlater s hp⟩
  · have hmem : s ∈ w.db.userSessions.update p f hf :=
      Sql.Table.mem_update_of_not hs (by simpa using hp)
    exact ⟨s, hmem, rfl, rfl, Nat.le_refl _⟩

theorem retains_sessionsRevoked (w : World) (email : String) :
    Retains w (w.sessionsRevoked email) :=
  retains_update (fun _ => rfl) (fun _ => rfl) fun _ _ => Nat.le_refl _

theorem retains_insert {sessions : Sql.Table UserSession} {mk : Nat → UserSession}
    {hmk : ∀ n, Sql.Row.id (mk n) = n} (h : w.db.userSessions.insert? mk hmk = some sessions) :
    Retains w (w.setSessions sessions) := by
  intro s hs
  exact ⟨s, (Sql.Table.mem_insert? h).mpr (.inl hs), rfl, rfl, Nat.le_refl _⟩

/-- Whoever is seen stays seen. -/
theorem SeenBy.mono (h : SeenBy sid email t w) (hretains : Retains w w') :
    SeenBy sid email t w' := by
  obtain ⟨s, hs, hsid, hemail, hle⟩ := h
  obtain ⟨s', hs', hsid', hemail', hle'⟩ := hretains s hs
  exact ⟨s', hs', hsid'.trans hsid, hemail'.trans hemail,
    hle.trans (Nat.add_le_add_right hle' 60)⟩

/-! ### What one event does -/

def StartRequest.handler (r : StartRequest) : Handler SessionStart :=
  startSession r.email r.tenantId r.force r.sessionId

theorem within_authenticateToken {R : World → World → Prop} (hrefl : ∀ w, R w w) {claims : Token}
    (htouch : ∀ w, R w ((touchSession claims.sid).exec w).2) :
    Prog.Within R (authenticateToken claims) := by
  refine .bind (.read hrefl _) fun live => .ite (.throw _) (.bind (.read hrefl _) fun user => ?_)
  cases user with
  | none => exact .throw _
  | some user =>
    refine .bind (.write fun w => ?_) fun _ => .pure _
    have htouched := htouch w
    rwa [touchSession, Prog.exec_write] at htouched

theorem sameClock_resetPassword (token newPassword salt : String) :
    Prog.Within SameClock (resetPassword crypto token newPassword salt) := by
  refine .ite (.throw _) (.bind (within_timedTransaction SameClock.refl fun _ _ _ _ => rfl)
    fun email => ?_)
  exact .bind (.write fun _ => rfl) fun _ => .pure _

theorem sameClock_resetUserPassword (id : Nat) (newPassword salt : String) :
    Prog.Within SameClock (resetUserPassword crypto id newPassword salt) := by
  refine .ite (.throw _) (.bind (.read SameClock.refl _) fun email => ?_)
  cases email with
  | none => exact .throw _
  | some email =>
    refine .bind (.write fun _ => rfl) fun _ => ?_
    exact .bind (.write fun _ => rfl) fun _ => .pure _

theorem sameClock_start (r : StartRequest) : Prog.Within SameClock r.handler :=
  within_startSession SameClock.refl (fun _ => rfl) (fun _ _ _ => rfl) r.tenantId r.force

theorem sameClock_authenticateToken (claims : Token) :
    Prog.Within SameClock (authenticateToken claims) :=
  within_authenticateToken SameClock.refl fun _ => rfl

theorem sameClock_revokeSession (sessionId : String) :
    Prog.Within SameClock (revokeSession sessionId) := .write fun _ => rfl

/-- The server at an instant, in seconds; `NOW()` leaves out the fraction of a second. -/
structure Moment where
  world : World
  time : ℚ
  now_eq : world.now = ⌊time⌋₊

namespace Moment

/-- A handler that runs at once. -/
def exec {α : Type} (m : Moment) {p : Handler α} (hp : Prog.Within SameClock p) : Moment where
  world := (p.exec m.world).2
  time := m.time
  now_eq := (now_exec hp).trans m.now_eq

/-- Some time later. -/
def elapse (m : Moment) (seconds : ℚ≥0) : Moment where
  world := { m.world with now := ⌊m.time + seconds⌋₊ }
  time := m.time + seconds
  now_eq := rfl

end Moment

variable {m : Moment}

/-- Something that touches no session: another request, or the same person's plan changing. -/
structure OtherChange where
  run : World → World
  sessions : ∀ w, (run w).db.userSessions = w.db.userSessions
  now : ∀ w, (run w).now = w.now

/-- What may happen, each at once. -/
inductive DeviceEvent where
  | start (r : StartRequest)
  | request (claims : Token)
  | logout (sessionId : String)
  | reset (token newPassword salt : String)
  | adminReset (id : Nat) (newPassword salt : String)
  | elapse (seconds : ℚ≥0)
  | other (change : OtherChange)

/-- The server after an event. -/
def DeviceEvent.serve (crypto : Crypto) (m : Moment) : DeviceEvent → Moment
  | .start r => m.exec (sameClock_start r)
  | .request claims => m.exec (sameClock_authenticateToken claims)
  | .logout sessionId => m.exec (sameClock_revokeSession sessionId)
  | .reset token newPassword salt =>
    m.exec (p := resetPassword crypto token newPassword salt)
      (sameClock_resetPassword token newPassword salt)
  | .adminReset id newPassword salt =>
    m.exec (p := resetUserPassword crypto id newPassword salt)
      (sameClock_resetUserPassword id newPassword salt)
  | .elapse seconds => m.elapse seconds
  | .other change => ⟨change.run m.world, m.time, (change.now m.world).trans m.now_eq⟩

/-- The events that are meant to end a session. -/
def DeviceEvent.EndsSessions : DeviceEvent → Prop
  | .start r => r.force = true
  | .logout _ | .reset .. | .adminReset .. => True
  | .request _ | .elapse _ | .other _ => False

/-- The server after a list of events. -/
def serveAll (crypto : Crypto) (m : Moment) (events : List DeviceEvent) : Moment :=
  events.foldl (DeviceEvent.serve crypto) m

/-- No logout, forced sign-in or password reset of the list revokes the session. -/
def Spared (crypto : Crypto) (sid : String) : Moment → List DeviceEvent → Prop
  | _, [] => True
  | m, e :: events =>
    (e.EndsSessions → Unrevoked sid (e.serve crypto m).world) ∧
      Spared crypto sid (e.serve crypto m) events

theorem within_startSession_retains (r : StartRequest) : Prog.Within Retains r.handler :=
  within_startSession Retains.refl (fun w => retains_sessionsRevoked w r.email)
    (fun _ _ hins => retains_insert hins) r.tenantId r.force

/-- A request keeps the row of every session, and brings its own up to the minute. -/
theorem mem_touchSession (hs : s ∈ w.db.userSessions) (sid : String) :
    ∃ s' ∈ ((touchSession sid).exec w).2.db.userSessions,
      s'.sessionId = s.sessionId ∧ s'.email = s.email ∧ s'.revokedAt = s.revokedAt ∧
        s.lastSeenAt ≤ s'.lastSeenAt ∧
          (s.sessionId = sid → s.revokedAt = none → w.now ≤ s'.lastSeenAt + 60) := by
  let p (s : UserSession) : Bool :=
    s.sessionId == sid && s.revokedAt.isNone && decide (s.lastSeenAt + 60 < w.now)
  let f (s : UserSession) : UserSession := { s with lastSeenAt := w.now }
  have hf : Sql.Table.Keyless f := ⟨fun _ => rfl, fun _ _ => rfl⟩
  by_cases hp : p s = true
  · have hmem : f s ∈ w.db.userSessions.update p f hf := Sql.Table.mem_update_of hs hp
    have hlater : s.lastSeenAt + 60 < w.now := by
      simp only [p, Bool.and_eq_true, decide_eq_true_eq] at hp
      exact hp.2
    refine ⟨f s, hmem, rfl, rfl, rfl, ?_, fun _ _ => Nat.le_add_right _ 60⟩
    exact (Nat.le_add_right _ 60).trans (Nat.le_of_lt hlater)
  · have hmem : s ∈ w.db.userSessions.update p f hf :=
      Sql.Table.mem_update_of_not hs (by simpa using hp)
    refine ⟨s, hmem, rfl, rfl, rfl, Nat.le_refl _, fun hsid hnone => ?_⟩
    simpa [p, hsid, hnone] using hp

theorem retains_touchSession (sid : String) (w : World) :
    Retains w ((touchSession sid).exec w).2 := by
  intro s hs
  obtain ⟨s', hs', hsid, hemail, -, hle, -⟩ := mem_touchSession hs sid
  exact ⟨s', hs', hsid, hemail, hle⟩

theorem within_resetPassword_retains (token newPassword salt : String) :
    Prog.Within Retains (resetPassword crypto token newPassword salt) := by
  refine .ite (.throw _) (.bind (within_timedTransaction Retains.refl fun w email db htx => ?_)
    fun email => ?_)
  · obtain ⟨row, -, -, rfl⟩ := resetPasswordTx_ok htx
    exact .of_eq rfl
  · exact .bind (.write fun w => retains_sessionsRevoked w email) fun _ => .pure _

theorem retains_revokeSession (sid : String) (w : World) :
    Retains w ((revokeSession sid).exec w).2 := by
  rw [revokeSession, Prog.exec_write]
  exact retains_update (fun _ => rfl) (fun _ => rfl) fun _ _ => Nat.le_refl _

/-- The admin's reset deletes the sessions of an account. -/
theorem mem_resetUserPassword {id : Nat} {newPassword salt : String}
    (hs : s ∈ ((resetUserPassword crypto id newPassword salt).exec w).2.db.userSessions) :
    s ∈ w.db.userSessions := by
  unfold resetUserPassword at hs
  split at hs
  · exact hs
  rw [exec_query_bind] at hs
  cases hemail : emailOfUserId w.db id with
  | none =>
    rw [hemail] at hs
    exact hs
  | some email =>
    rw [hemail] at hs
    exact (Sql.Table.mem_delete.mp hs).1

/-- An event that spares a session leaves it seen. -/
theorem SeenBy.serve {e : DeviceEvent} (h : SeenBy sid email t m.world)
    (hspared : e.EndsSessions → Unrevoked sid (e.serve crypto m).world) :
    SeenBy sid email t (e.serve crypto m).world := by
  cases e with
  | start r => exact h.mono (.exec (within_startSession_retains r) m.world)
  | request claims =>
    have htouch := retains_touchSession claims.sid
    exact h.mono (.exec (within_authenticateToken Retains.refl htouch) m.world)
  | logout sessionId => exact h.mono (retains_revokeSession sessionId m.world)
  | reset token newPassword salt => exact h.mono (.exec (within_resetPassword_retains _ _ _) m.world)
  | adminReset id newPassword salt =>
    obtain ⟨s, hs, hsid, hemail, hle⟩ := h
    obtain ⟨s', hs', hsid', -⟩ := hspared trivial
    obtain rfl : s = s' := eq_of_sessionId hs (mem_resetUserPassword hs') (hsid.trans hsid'.symm)
    exact ⟨s, hs', hsid, hemail, hle⟩
  | elapse seconds => exact h.mono (.of_eq rfl)
  | other change => exact h.mono (.of_eq (change.sessions m.world))

/-! ### While the session is live -/

/-- The session has not been ended, and was seen by `t`. -/
structure Protects (sid email : String) (t : Time) (w : World) : Prop where
  seen : SeenBy sid email t w
  unrevoked : Unrevoked sid w

theorem Protects.isLive (h : Protects sid email t w) (hsoon : w.now < t + 14 * 60) :
    ∃ s ∈ w.db.userSessions, s.sessionId = sid ∧ s.email = email ∧ s.isLive w.now = true := by
  obtain ⟨s, hs, hsid, hemail, hle⟩ := h.seen
  have hnone : s.revokedAt = none := (unrevoked_iff hs hsid).mp h.unrevoked
  have hidle (now seen t : Nat) (hle : t ≤ seen + 60) (hsoon : now < t + 14 * 60) :
      now < seen + 15 * 60 := by
    omega
  have hlive : w.now < s.lastSeenAt + idleSeconds := hidle _ _ _ hle hsoon
  exact ⟨s, hs, hsid, hemail, by simp [UserSession.isLive, hnone, hlive]⟩

/-- A sign-in that finds a live session of the account is refused. -/
theorem exec_startSession_blocked {r : StartRequest} (hs : s ∈ w.db.userSessions)
    (hemail : s.email = r.email) (hlive : s.isLive w.now = true) (hforce : r.force = false)
    (hsingle : ∀ id, r.tenantId = some id → allows w.db id .multiDevice = false) :
    ∃ live, r.handler.exec w = (.ok (.blocked live), w) := by
  have hmem : s ∈ (w.db.userSessions.rows.filter fun s =>
      s.email == r.email && s.isLive w.now).insertionSort
        fun a b => b.lastSeenAt ≤ a.lastSeenAt := by
    rw [List.mem_insertionSort, List.mem_filter, hemail, hlive]
    exact ⟨hs, by simp⟩
  obtain ⟨live, hhead⟩ : ∃ live, ((w.db.userSessions.rows.filter fun s =>
      s.email == r.email && s.isLive w.now).insertionSort
        fun a b => b.lastSeenAt ≤ a.lastSeenAt).head? = some live :=
    Option.isSome_iff_exists.mp (List.isSome_head?.mpr (List.ne_nil_of_mem hmem))
  refine ⟨live, ?_⟩
  have hgate : (startSingle r.email r.force r.sessionId).exec w = (.ok (.blocked live), w) := by
    unfold startSingle getLiveSessionForEmail
    rw [hforce, if_neg Bool.false_ne_true, Prog.exec_read_bind, hhead]
    rfl
  unfold StartRequest.handler startSession allowsMultiDevice
  cases htenant : r.tenantId with
  | none => exact hgate
  | some id =>
    have hallows := hsingle id htenant
    unfold planAllows
    dsimp only
    rw [exec_query_bind, hallows]
    exact hgate

/-- An insert leaves every session in place. -/
theorem mem_openSession {sessionId : String} (hs : s ∈ w.db.userSessions) :
    s ∈ ((openSession email sessionId).exec w).2.db.userSessions := by
  have hwithin : Prog.Within (fun w w' => s ∈ w.db.userSessions → s ∈ w'.db.userSessions)
      (openSession email sessionId) := by
    refine .bind (within_createSession (fun _ h => h) fun w sessions hins hs => ?_) fun _ => .pure _
    exact (Sql.Table.mem_insert? hins).mpr (.inl hs)
  exact hwithin.exec (fun _ h => h) (fun _ _ _ h h' hs => h' (h hs)) w hs

/-- A sign-in leaves the sessions of other accounts in place. -/
theorem mem_startSession {r : StartRequest} (hs : s ∈ w.db.userSessions)
    (hemail : s.email ≠ r.email) : s ∈ (r.handler.exec w).2.db.userSessions := by
  have hwithin : Prog.Within (fun w w' => s ∈ w.db.userSessions → s ∈ w'.db.userSessions)
      r.handler := by
    refine within_startSession (fun _ h => h) (fun w hs => ?_) (fun w sessions hins hs => ?_) _ _
    · have hother : (s.email == r.email && s.revokedAt.isNone) = false := by simp [hemail]
      have hmem : s ∈ w.db.userSessions.update (fun s => s.email == r.email && s.revokedAt.isNone)
          _ (UserSession.keyless_revoke w.now) := Sql.Table.mem_update_of_not hs hother
      exact hmem
    · exact (Sql.Table.mem_insert? hins).mpr (.inl hs)
  exact hwithin.exec (fun _ h => h) (fun _ _ _ h h' hs => h' (h hs)) w hs

/-- On a plan with `multiDevice` a sign-in only inserts. -/
theorem exec_startSession_multiDevice {r : StartRequest} {id : Nat} (htenant : r.tenantId = some id)
    (hallows : allows w.db id .multiDevice = true) :
    r.handler.exec w = (openSession r.email r.sessionId).exec w := by
  unfold StartRequest.handler startSession allowsMultiDevice planAllows
  rw [htenant]
  dsimp only
  rw [exec_query_bind, hallows]
  rfl

/-- While the session is live, an unforced sign-in leaves it alone. -/
theorem mem_startSession_of_live {r : StartRequest} (hs : s ∈ w.db.userSessions)
    (hlive : s.isLive w.now = true) (hforce : r.force = false) :
    s ∈ (r.handler.exec w).2.db.userSessions := by
  by_cases hemail : s.email = r.email
  · by_cases hmulti : ∃ id, r.tenantId = some id ∧ allows w.db id .multiDevice = true
    · obtain ⟨id, htenant, hallows⟩ := hmulti
      rw [exec_startSession_multiDevice htenant hallows]
      exact mem_openSession hs
    · have hsingle : ∀ id, r.tenantId = some id → allows w.db id .multiDevice = false := by
        intro id htenant
        by_contra hallows
        exact hmulti ⟨id, htenant, by simpa using hallows⟩
      obtain ⟨live, hexec⟩ := exec_startSession_blocked hs hemail hlive hforce hsingle
      rw [hexec]
      exact hs
  · exact mem_startSession hs hemail

/-- A request keeps every session open. -/
theorem unrevoked_authenticateToken {claims : Token} (h : Unrevoked sid w) :
    Unrevoked sid ((authenticateToken claims).exec w).2 := by
  have hwithin : Prog.Within (fun w w' => Unrevoked sid w → Unrevoked sid w')
      (authenticateToken claims) := by
    refine within_authenticateToken (fun _ h => h) fun w h => ?_
    obtain ⟨s, hs, hsid, hnone⟩ := h
    obtain ⟨s', hs', hsid', -, hrevoked, -⟩ := mem_touchSession hs claims.sid
    exact ⟨s', hs', hsid'.trans hsid, hrevoked.trans hnone⟩
  exact hwithin.exec (fun _ h => h) (fun _ _ _ h h' hopen => h' (h hopen)) w h

/-- An event keeps a protected session, unless it is meant to end sessions and does. -/
theorem Protects.serve {e : DeviceEvent} (h : Protects sid email t m.world)
    (hsoon : m.world.now < t + 14 * 60)
    (hspared : e.EndsSessions → Unrevoked sid (e.serve crypto m).world) :
    Protects sid email t (e.serve crypto m).world := by
  refine ⟨h.seen.serve hspared, ?_⟩
  by_cases hends : e.EndsSessions
  · exact hspared hends
  cases e with
  | start r =>
    have hforce : r.force = false := by simpa [DeviceEvent.EndsSessions] using hends
    obtain ⟨s, hs, hsid, -, hlive⟩ := h.isLive hsoon
    have hopen : s.revokedAt = none := (unrevoked_iff hs hsid).mp h.unrevoked
    exact ⟨s, mem_startSession_of_live hs hlive hforce, hsid, hopen⟩
  | request claims => exact unrevoked_authenticateToken h.unrevoked
  | logout sessionId => exact absurd trivial hends
  | reset token newPassword salt => exact absurd trivial hends
  | adminReset id newPassword salt => exact absurd trivial hends
  | elapse seconds => exact h.unrevoked
  | other change =>
    obtain ⟨s, hs, hsid, hnone⟩ := h.unrevoked
    exact ⟨s, (change.sessions m.world).symm ▸ hs, hsid, hnone⟩

/-! ### The clock -/

theorem now_le_serve (e : DeviceEvent) (m : Moment) :
    m.world.now ≤ (e.serve crypto m).world.now := by
  have htime : m.time ≤ (e.serve crypto m).time := by
    cases e with
    | elapse seconds => exact le_add_of_nonneg_right seconds.2
    | _ => exact le_refl m.time
  rw [m.now_eq, (e.serve crypto m).now_eq]
  exact Nat.floor_mono htime

theorem now_le_serveAll (crypto : Crypto) (events : List DeviceEvent) (m : Moment) :
    m.world.now ≤ (serveAll crypto m events).world.now := by
  induction events generalizing m with
  | nil => exact Nat.le_refl _
  | cons e events ih => exact (now_le_serve e m).trans (ih (e.serve crypto m))

/-! ### The protection of an accepted request -/

/-- Before the fourteen minutes are over, every list of events that spares the session
keeps it. -/
theorem Protects.serveAll {events : List DeviceEvent} (h : Protects sid email t m.world)
    (hspared : Spared crypto sid m events)
    (hsoon : (serveAll crypto m events).world.now < t + 14 * 60) :
    Protects sid email t (serveAll crypto m events).world := by
  induction events generalizing m with
  | nil => exact h
  | cons e events ih =>
    have hnow : m.world.now < t + 14 * 60 :=
      Nat.lt_of_le_of_lt (now_le_serveAll crypto (e :: events) m) hsoon
    exact ih (h.serve hnow hspared.1) hspared.2 hsoon

/-- An accepted request leaves its session seen and open. -/
theorem protects_of_accepted {claims : Token} {auth : AuthData}
    (haccepted : ((authenticateToken claims).exec w).1 = .ok auth)
    (hs : s ∈ w.db.userSessions) (hsid : s.sessionId = claims.sid) :
    Protects claims.sid s.email w.now ((authenticateToken claims).exec w).2 := by
  unfold authenticateToken isSessionActive at haccepted ⊢
  rw [exec_query_bind] at haccepted ⊢
  split at haccepted
  · cases haccepted
  rename_i hactive
  rw [if_neg hactive]
  rw [exec_query_bind] at haccepted ⊢
  cases huser : getActiveUser w.db claims.id claims.email with
  | none =>
    rw [huser] at haccepted
    cases haccepted
  | some user =>
    have hopen : Unrevoked claims.sid w := by
      simp only [Bool.not_eq_false, Bool.and_eq_true, List.any_eq_true, beq_iff_eq,
        Option.isNone_iff_eq_none] at hactive
      obtain ⟨-, s', hs', hsid', hnone⟩ := hactive
      exact ⟨s', hs', hsid', hnone⟩
    have hnone : s.revokedAt = none := (unrevoked_iff hs hsid).mp hopen
    change Protects claims.sid s.email w.now ((touchSession claims.sid).exec w).2
    obtain ⟨s', hs', hsid', hemail, hrevoked, -, hseen⟩ := mem_touchSession hs claims.sid
    exact ⟨⟨s', hs', hsid'.trans hsid, hemail, hseen hsid hnone⟩,
      ⟨s', hs', hsid'.trans hsid, hrevoked.trans hnone⟩⟩

/-- A session whose request has been let through is not displaced for fourteen minutes from the
second of the request on: an unforced sign-in of its account, on a workspace without
`multiDevice`, is refused as long as no logout, forced sign-in or password reset has revoked
the session. -/
theorem blocked_of_accepted (crypto : Crypto) {claims : Token} {auth : AuthData}
    (haccepted : ((authenticateToken claims).exec m.world).1 = .ok auth)
    (hs : s ∈ m.world.db.userSessions) (hsid : s.sessionId = claims.sid)
    (events : List DeviceEvent)
    (hspared : Spared crypto claims.sid ((DeviceEvent.request claims).serve crypto m) events)
    (hsoon : (serveAll crypto m (.request claims :: events)).time < ⌊m.time⌋₊ + 14 * 60)
    {r : StartRequest} (hemail : r.email = s.email) (hforce : r.force = false)
    (hsingle : ∀ id, r.tenantId = some id →
      allows (serveAll crypto m (.request claims :: events)).world.db id .multiDevice = false) :
    ∃ live, (startSession r.email r.tenantId r.force r.sessionId).exec
        (serveAll crypto m (.request claims :: events)).world =
      (.ok (.blocked live), (serveAll crypto m (.request claims :: events)).world) := by
  have hnow : (serveAll crypto m (.request claims :: events)).world.now <
      m.world.now + 14 * 60 := by
    rw [Moment.now_eq, m.now_eq, Nat.floor_lt' (Nat.succ_ne_zero _)]
    exact_mod_cast hsoon
  have hprotects := (protects_of_accepted haccepted hs hsid).serveAll
    (m := (DeviceEvent.request claims).serve crypto m) hspared hnow
  obtain ⟨s', hs', -, hemail', hlive⟩ := hprotects.isLive hnow
  exact exec_startSession_blocked hs' (hemail'.trans hemail.symm) hlive hforce hsingle

/-- The row of a session that was opened at time 100. -/
def graceSession : UserSession := newSession "grace@example.com" "phone" 100 1

/-- Grace's workspace, on the free plan. -/
def graceBoard : Tenant := { id := 1, name := "Notes", slug := "notes", subdomain := "notes" }

/-- Grace is signed in on her phone; the time is 160.9 seconds. -/
def graceSignedIn : Moment where
  world :=
    { db :=
        { users := graceSignedUp.db.users
          tenants :=
            { rows := [graceBoard], next := 2, id_lt := by decide, nodup := by decide
              noClash := by decide }
          userSessions :=
            (Sql.Table.empty.insert? (newSession "grace@example.com" "phone" 100)).getD .empty }
      now := 160 }
  time := 1609 / 10
  now_eq := by decide +kernel

def graceToken : Token where
  id := 1
  email := "grace@example.com"
  tenantId := none
  role := .user
  sid := "phone"

theorem graceToken_accepted : ((authenticateToken graceToken).exec graceSignedIn.world).1 =
    .ok ⟨1, none, .user, "grace@example.com"⟩ := rfl

/-- A sign-in on a laptop, and the end of a session that is not hers. -/
def graceEvents : List DeviceEvent :=
  [.elapse 400, .start ⟨"grace@example.com", some 1, false, "laptop"⟩, .logout "other",
    .elapse 439]

theorem spared_graceEvents :
    Spared .plain "phone" ((DeviceEvent.request graceToken).serve .plain graceSignedIn)
      graceEvents := by
  refine ⟨fun h => h.elim, fun h => ?_, fun _ => ?_, fun h => h.elim, trivial⟩
  · cases h
  · decide +kernel

/-- A tenth of a second before minute fourteen is over a tablet is refused. -/
theorem blocked_of_accepted_phone :
    ∃ live, (startSession "grace@example.com" (some 1) false "tablet").exec
        (serveAll .plain graceSignedIn (.request graceToken :: graceEvents)).world =
      (.ok (.blocked live),
        (serveAll .plain graceSignedIn (.request graceToken :: graceEvents)).world) :=
  blocked_of_accepted .plain (s := graceSession) graceToken_accepted
    (List.mem_singleton.mpr rfl : graceSession ∈ [graceSession]) rfl graceEvents spared_graceEvents
    (by decide +kernel) (r := ⟨"grace@example.com", some 1, false, "tablet"⟩) rfl rfl fun id hid => by
      obtain rfl : 1 = id := Option.some.inj hid
      decide +kernel

/-- What is left of the second in which a request was let through does not count: 839.6 seconds
later, with no other event in between, the tablet is let in on the same workspace. -/
theorem displaced_within_fourteen_minutes :
    ((authenticateToken graceToken).exec graceSignedIn.world).1 =
        .ok ⟨1, none, .user, "grace@example.com"⟩ ∧
      graceSession ∈ graceSignedIn.world.db.userSessions ∧ graceSession.sessionId = graceToken.sid ∧
        Spared .plain "phone" ((DeviceEvent.request graceToken).serve .plain graceSignedIn)
          [.elapse (4198 / 5)] ∧
        (serveAll .plain graceSignedIn [.request graceToken, .elapse (4198 / 5)]).time <
          graceSignedIn.time + 14 * 60 ∧
        allows (serveAll .plain graceSignedIn [.request graceToken, .elapse (4198 / 5)]).world.db 1
          .multiDevice = false ∧
        ((startSession graceSession.email (some 1) false "tablet").exec
          (serveAll .plain graceSignedIn [.request graceToken, .elapse (4198 / 5)]).world).1 =
            .ok (.started "tablet") := by
  refine ⟨graceToken_accepted, List.mem_singleton.mpr rfl, rfl, ⟨fun h => h.elim, trivial⟩, ?_, ?_,
    ?_⟩
  · decide +kernel
  · decide +kernel
  · decide +kernel

end Feedbase
