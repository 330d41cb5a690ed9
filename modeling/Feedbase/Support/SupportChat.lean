import Feedbase.Common.WriteCounters
import Feedbase.Lib.Turns
import Feedbase.Server
import Mathlib.Data.List.MinMax

/-!
# Support chat

A user talks to the platform administrator in a session. Opening a session looks for an open
one first, and posting a message checks that the session is open first; the insert is a later
statement in both, and no key of the tables backs the check.

## Main definitions

* `SupportDesk` — the two tables and what the handlers read besides
* `openSupportSession`, `sendUserMessage`, `sendAdminMessage`, `closeSupportSession`
* `SupportStep` — what a statement does to the tables
* `ChatApart` — no two calls open at once, no close falls into a message

## Main results

* `exclusive_of_run` — one open session at most, and none gains a message once closed
-/

namespace Feedbase

/-! ### The tables -/

inductive SupportStatus where
  | opened
  | closed
  deriving DecidableEq, Repr

structure SupportSession where
  id : Nat
  tenantId : Option Nat := none
  userId : Option Nat := none
  userEmail : String
  userName : Option String := none
  status : SupportStatus := .opened
  createdAt : Time
  lastMessageAt : Option Time := none
  userLastReadAt : Option Time := none
  adminLastReadAt : Option Time := none
  closedAt : Option Time := none
  closedByAdminId : Option Nat := none
  deriving DecidableEq

instance : Sql.Row SupportSession where
  id := SupportSession.id

/-- `sender`, with `sender_user_id` or `sender_admin_id`. -/
inductive Sender where
  | user (id : Nat)
  | admin (id : Nat)
  deriving DecidableEq, Repr

structure SupportMessage where
  id : Nat
  sessionId : Nat
  sender : Sender
  body : String
  createdAt : Time
  deriving DecidableEq

instance : Sql.Row SupportMessage where
  id := SupportMessage.id

/-- The tables of the support chat. While `refuses` holds, every statement throws: the
connection is lost, or a row the statement refers to is gone. -/
structure SupportDesk where
  db : Db := {}
  sessions : Sql.Table SupportSession := .empty
  messages : Sql.Table SupportMessage := .empty
  now : Time := 0
  refuses : Bool := false

abbrev SupportProg (α : Type) := Prog SupportDesk Failure α

/-- One SQL statement. -/
def statement {α : Type} (f : SupportDesk → Option (α × SupportDesk)) : SupportProg α :=
  Prog.attempt .error fun s => if s.refuses then none else f s

/-- A `SELECT`. -/
def select {α : Type} (f : SupportDesk → α) : SupportProg α := statement fun s => some (f s, s)

/-- `catch (error)`: a statement that throws becomes `internal_server_error`. A server
response is returned, not thrown, so it passes. -/
def supportError {α : Type} : Failure → SupportProg α
  | .rejected code key => throw (.rejected code key)
  | _ => throw (.rejected 500 "internal_server_error")

/-! ### The user's side -/

def SupportSession.isOpenOf (userId : Nat) (r : SupportSession) : Bool :=
  r.userId == some userId && r.status == .opened

/-- `findOpenSession`: the newest open session of the user. -/
def findOpenSession (userId : Nat) (s : SupportDesk) : Option SupportSession :=
  (s.sessions.rows.filter (·.isOpenOf userId)).argmax SupportSession.id

/-- `INSERT INTO support_sessions`; the new row's id. -/
def insertSession (auth : AuthData) (userName : Option String) : SupportProg Nat :=
  statement fun s =>
    (s.sessions.insert? fun id =>
      { id := id
        tenantId := auth.tenantId.filter (· ≠ 0)
        userId := some auth.id
        userEmail := auth.email
        userName := userName
        createdAt := s.now }).map fun sessions =>
      (s.sessions.next, { s with sessions := sessions })

/-- Resume the caller's open session, or create one. -/
def openSupportSession (auth : AuthData) : SupportProg (Reply (Option SupportSession)) :=
  tryCatch (do
      match ← select (findOpenSession auth.id) with
      | some existing => return ⟨200, "support_session_ready", some existing⟩
      | none =>
        let user ← select fun s => s.db.users.byId auth.id
        let id ← insertSession auth (orNull (user.map User.fullName))
        let session ← select fun s => s.sessions.byId id
        return ⟨201, "support_session_ready", session⟩)
    supportError

/-- `ownOpenSession`: the session, if it is the caller's and still open. -/
def ownOpenSession (sessionId userId : Nat) (s : SupportDesk) : Option SupportSession :=
  (s.sessions.byId sessionId).filter (·.isOpenOf userId)

/-- `INSERT INTO support_messages`. -/
def insertMessage (sessionId : Nat) (sender : Sender) (text : String) : SupportProg Unit :=
  statement fun s =>
    (s.messages.insert? fun id =>
      { id := id
        sessionId := sessionId
        sender := sender
        body := sliceUnits 4000 text
        createdAt := s.now }).map fun messages => ((), { s with messages := messages })

/-- The `UPDATE` after a message: its time, and the sender's own mark. -/
def markSent (sessionId : Nat) : Sender → SupportProg Unit
  | .user _ => statement fun s => some ((), { s with
      sessions := s.sessions.update (·.id == sessionId)
        fun r => { r with lastMessageAt := some s.now, userLastReadAt := some s.now } })
  | .admin _ => statement fun s => some ((), { s with
      sessions := s.sessions.update (·.id == sessionId)
        fun r => { r with lastMessageAt := some s.now, adminLastReadAt := some s.now } })

/-- Post a user message into the caller's open session. -/
def sendUserMessage (sessionId : Nat) (body : String) (auth : AuthData) :
    SupportProg (Reply Unit) :=
  let text := trim body
  if text = "" then throw (.rejected 400 "message_body_required")
  else
    tryCatch (do
        match ← select (ownOpenSession sessionId auth.id) with
        | none => throw (.rejected 403 "support_session_unavailable")
        | some _ =>
          insertMessage sessionId (.user auth.id) text
          markSent sessionId (.user auth.id)
          return ⟨201, "support_message_sent", ()⟩)
      supportError

/-! ### The administrator's side -/

/-- Admin reply into an open session. -/
def sendAdminMessage (id : Nat) (body : String) (adminId : Nat) : SupportProg (Reply Unit) :=
  let text := trim body
  if text = "" then throw (.rejected 400 "message_body_required")
  else
    tryCatch (do
        match ← select fun s => s.sessions.byId id with
        | none => throw (.rejected 404 "support_session_not_found")
        | some session =>
          if session.status ≠ .opened then throw (.rejected 400 "support_session_closed")
          else
            insertMessage id (.admin adminId) text
            markSent id (.admin adminId)
            return ⟨201, "support_message_sent", ()⟩)
      supportError

/-- `UPDATE support_sessions SET status = 'closed', … WHERE id = ? AND status = 'open'`; the
number of rows it has changed. -/
def markClosed (id adminId : Nat) : SupportProg Nat :=
  statement fun s =>
    some (s.sessions.rows.countP fun r => r.id == id && r.status == .opened,
      { s with
        sessions := s.sessions.update (fun r => r.id == id && r.status == .opened)
          fun r => { r with
            status := .closed, closedAt := some s.now, closedByAdminId := some adminId } })

/-- Close a session. -/
def closeSupportSession (id adminId : Nat) : SupportProg (Reply Unit) :=
  tryCatch (do
      let affectedRows ← markClosed id adminId
      if affectedRows = 0 then
        match ← select fun s => s.sessions.byId id with
        | none => throw (.rejected 404 "support_session_not_found")
        | some _ => return ⟨200, "support_session_closed_success", ()⟩
      else return ⟨200, "support_session_closed_success", ()⟩)
    supportError

/-! ### What a statement does -/

/-- Whose each session is, and whether it is open. -/
def standing (s : SupportDesk) : List (Nat × Option Nat × SupportStatus) :=
  s.sessions.rows.map fun r => (r.id, r.userId, r.status)

/-- Which session each message belongs to. -/
def posted (s : SupportDesk) : List (Nat × Nat) :=
  s.messages.rows.map fun m => (m.id, m.sessionId)

/-- How many sessions of the user are open. -/
def openCount (userId : Nat) (s : SupportDesk) : Nat :=
  s.sessions.rows.countP (·.isOpenOf userId)

/-- The messages of a session. -/
def messagesOf (n : Nat) (s : SupportDesk) : List Nat :=
  (s.messages.rows.filter (·.sessionId == n)).map SupportMessage.id

def IsOpen (s : SupportDesk) (n : Nat) : Prop := ∃ u, (n, u, .opened) ∈ standing s

def IsClosed (s : SupportDesk) (n : Nat) : Prop := ∃ u, (n, u, .closed) ∈ standing s

variable {s s' : SupportDesk} {userId n : Nat}

theorem openCount_eq : openCount userId s =
    (standing s).countP fun r => r.2.1 == some userId && r.2.2 == .opened := by
  rw [standing, List.countP_map]
  rfl

theorem messagesOf_eq :
    messagesOf n s = ((posted s).filter fun m => m.2 == n).map Prod.fst := by
  rw [messagesOf, posted, List.filter_map, List.map_map]
  rfl

/-- A session is not both open and closed. -/
theorem IsOpen.not_isClosed (h : IsOpen s n) : ¬ IsClosed s n := by
  rintro ⟨v, hv⟩
  obtain ⟨u, hu⟩ := h
  obtain ⟨r, hr, hru⟩ := List.mem_map.mp hu
  obtain ⟨t, ht, htv⟩ := List.mem_map.mp hv
  have hid : r.id = t.id := (congrArg Prod.fst hru).trans (congrArg Prod.fst htv).symm
  have heq : r = t := Sql.Table.eq_of_id hr ht hid
  subst heq
  rw [hru] at htv
  cases htv

/-- Neither table changes as far as the checks can see. -/
structure SameTalk (s s' : SupportDesk) : Prop where
  standing : standing s' = standing s
  posted : posted s' = posted s

theorem SameTalk.refl (s : SupportDesk) : SameTalk s s := ⟨rfl, rfl⟩

theorem SameTalk.trans {s'' : SupportDesk} (h : SameTalk s s') (h' : SameTalk s' s'') :
    SameTalk s s'' :=
  ⟨h'.standing.trans h.standing, h'.posted.trans h.posted⟩

theorem SameTalk.openCount_eq (h : SameTalk s s') : openCount userId s' = openCount userId s := by
  rw [Feedbase.openCount_eq, h.standing, ← Feedbase.openCount_eq]

theorem SameTalk.messagesOf_eq (h : SameTalk s s') : messagesOf n s' = messagesOf n s := by
  rw [Feedbase.messagesOf_eq, h.posted, ← Feedbase.messagesOf_eq]

/-- Setting columns other than the user and the status. -/
theorem sameTalk_update {p : SupportSession → Bool} {f : SupportSession → SupportSession}
    {hf : Sql.Table.Keyless f} (huser : ∀ r, (f r).userId = r.userId)
    (hstatus : ∀ r, (f r).status = r.status) :
    SameTalk s { s with sessions := s.sessions.update p f hf } := by
  refine ⟨?_, rfl⟩
  unfold Feedbase.standing
  rw [Sql.Table.rows_update, List.map_map]
  refine List.map_congr_left fun r _ => ?_
  have hid : (f r).id = r.id := hf.id_eq r
  dsimp only [Function.comp]
  split
  · rw [hid, huser, hstatus]
  · rfl

/-- A call is about to insert from the statement that looked on; it is done once the insert
has been tried. -/
inductive SupportPhase where
  | idle
  | opening (userId : Nat)
  | posting (sessionId : Nat)
  | done
  deriving DecidableEq

/-- What one statement does. -/
inductive SupportStep : SupportPhase → SupportDesk → SupportPhase → SupportDesk → Prop where
  | idles {s s' : SupportDesk} (h : SameTalk s s') : SupportStep .idle s .idle s'
  | ends {s s' : SupportDesk} (h : SameTalk s s') : SupportStep .done s .done s'
  | finds {s : SupportDesk} (userId : Nat) (h : openCount userId s = 0) :
    SupportStep .idle s (.opening userId) s
  | looksUp {s : SupportDesk} (userId : Nat) : SupportStep (.opening userId) s (.opening userId) s
  | opens {s s' : SupportDesk} (userId n : Nat)
      (h : standing s' = standing s ++ [(n, some userId, .opened)]) (hp : posted s' = posted s) :
    SupportStep (.opening userId) s .done s'
  | checks {s : SupportDesk} (n : Nat) (h : IsOpen s n) : SupportStep .idle s (.posting n) s
  | posts {s s' : SupportDesk} (n m : Nat) (h : standing s' = standing s)
      (hp : posted s' = posted s ++ [(m, n)]) : SupportStep (.posting n) s .done s'
  | refused {s : SupportDesk} {φ : SupportPhase} (h : s.refuses = true) : SupportStep φ s .done s
  | closes {s s' : SupportDesk} (n : Nat) (hp : posted s' = posted s)
      (h : standing s' = (standing s).map fun r =>
        if r.1 = n ∧ r.2.2 = .opened then (r.1, r.2.1, .closed) else r) :
    SupportStep .idle s .idle s'

/-- No call ends between its check and its insert. -/
def Ended {α : Type} (φ : SupportPhase) (_ : Except Failure α) : Prop := φ = .idle ∨ φ = .done

/-! ### The handlers -/

-- what `trim` computes plays no part in what follows
attribute [local irreducible] trim

theorem ended_ret {α : Type} {φ : SupportPhase} (h : φ = .idle ∨ φ = .done) (a : α) :
    Follows SupportStep Ended φ (pure a : SupportProg α) := .ret h

theorem ended_throw {α : Type} {φ : SupportPhase} (h : φ = .idle ∨ φ = .done) (e : Failure) :
    Follows SupportStep Ended φ (throw e : SupportProg α) := .fail h

/-- A statement, and what the call goes on with. -/
theorem follows_statement {α β : Type} {f : SupportDesk → Option (α × SupportDesk)}
    {k : α → SupportProg β} {φ : SupportPhase} (hf : ∀ s, f s ≠ none)
    (h : ∀ s a s', f s = some (a, s') →
      ∃ φ', SupportStep φ s φ' s' ∧ Follows SupportStep Ended φ' (k a)) :
    Follows SupportStep Ended φ (statement f >>= k) := by
  rw [Prog.bind_eq]
  intro s _
  dsimp only
  cases hrefuses : s.refuses with
  | true => exact ⟨.done, .refused hrefuses, ended_throw (.inr rfl) _⟩
  | false =>
    rcases hs : f s with _ | ⟨a, s'⟩
    · exact absurd hs (hf s)
    · exact h s a s' hs

theorem follows_select {α β : Type} {f : SupportDesk → α} {k : α → SupportProg β}
    {φ : SupportPhase}
    (h : ∀ s, ∃ φ', SupportStep φ s φ' s ∧ Follows SupportStep Ended φ' (k (f s))) :
    Follows SupportStep Ended φ (select f >>= k) := by
  refine follows_statement (fun _ => Option.some_ne_none _) fun s a s' hs => ?_
  cases hs
  exact h s

theorem follows_catch {α : Type} {p : SupportProg α} {φ : SupportPhase}
    (h : Follows SupportStep Ended φ p) :
    Follows SupportStep Ended φ (tryCatch p supportError) := by
  refine h.catching (fun _ _ hφ => hφ) fun _ e hφ => ?_
  cases e with
  | rejected code key => exact ended_throw hφ _
  | duplicate | belowMinimum | error => exact ended_throw hφ _

/-- No insert of the chat meets another row's key. -/
theorem insertSession?_ne_none {T : Sql.Table SupportSession} {mk : Nat → SupportSession}
    {hmk : ∀ n, Sql.Row.id (mk n) = n} : T.insert? mk hmk ≠ none := by
  intro h
  obtain ⟨r, -, hclash⟩ := Sql.Table.insert?_eq_none_iff.mp h
  cases hclash

theorem insertMessage?_ne_none {T : Sql.Table SupportMessage} {mk : Nat → SupportMessage}
    {hmk : ∀ n, Sql.Row.id (mk n) = n} : T.insert? mk hmk ≠ none := by
  intro h
  obtain ⟨r, -, hclash⟩ := Sql.Table.insert?_eq_none_iff.mp h
  cases hclash

/-- The search has found no open session. -/
theorem openCount_of_findOpenSession (h : findOpenSession userId s = none) :
    openCount userId s = 0 := by
  rw [openCount, List.countP_eq_length_filter, List.argmax_eq_none.mp h]
  rfl

theorem follows_openSupportSession (auth : AuthData) :
    Follows SupportStep Ended .idle (openSupportSession auth) := by
  refine follows_catch (follows_select fun s => ?_)
  cases hfind : findOpenSession auth.id s with
  | some existing => exact ⟨.idle, .idles (.refl s), ended_ret (.inl rfl) _⟩
  | none =>
    refine ⟨.opening auth.id, .finds auth.id (openCount_of_findOpenSession hfind), ?_⟩
    refine follows_select fun s => ⟨.opening auth.id, .looksUp auth.id, ?_⟩
    refine follows_statement (fun s => ?_) fun s id s' hs => ?_
    · exact fun h => insertSession?_ne_none (Option.map_eq_none_iff.mp h)
    · obtain ⟨sessions, hins, heq⟩ := Option.map_eq_some_iff.mp hs
      cases heq
      refine ⟨.done, .opens auth.id s.sessions.next ?_ rfl, ?_⟩
      · unfold standing
        rw [Sql.Table.insert?_rows hins, List.map_append]
        rfl
      · exact follows_select fun s => ⟨.done, .ends (.refl s), ended_ret (.inr rfl) _⟩

/-- The two statements after a check that has found the session open. -/
theorem follows_send (sender : Sender) (text : String) {β : Type} (b : β) :
    Follows SupportStep Ended (.posting n) (do
      insertMessage n sender text
      markSent n sender
      return b) := by
  refine follows_statement (fun s => ?_) fun s _ s' hs => ?_
  · exact fun h => insertMessage?_ne_none (Option.map_eq_none_iff.mp h)
  · obtain ⟨messages, hins, heq⟩ := Option.map_eq_some_iff.mp hs
    cases heq
    refine ⟨.done, .posts n s.messages.next rfl ?_, ?_⟩
    · unfold posted
      rw [Sql.Table.insert?_rows hins, List.map_append]
      rfl
    · cases sender with
      | user id =>
        refine follows_statement (fun _ => Option.some_ne_none _) fun s _ s' hs => ?_
        cases hs
        exact ⟨.done, .ends (sameTalk_update (fun _ => rfl) fun _ => rfl), ended_ret (.inr rfl) _⟩
      | admin id =>
        refine follows_statement (fun _ => Option.some_ne_none _) fun s _ s' hs => ?_
        cases hs
        exact ⟨.done, .ends (sameTalk_update (fun _ => rfl) fun _ => rfl), ended_ret (.inr rfl) _⟩

theorem isOpen_of_byId {r : SupportSession} (hr : s.sessions.byId n = some r)
    (hopen : r.status = .opened) : IsOpen s n := by
  obtain ⟨hmem, hid⟩ := Sql.Table.byId_eq_some_iff.mp hr
  refine ⟨r.userId, List.mem_map.mpr ⟨r, hmem, ?_⟩⟩
  rw [hopen, show r.id = n from hid]

theorem follows_sendUserMessage (body : String) (auth : AuthData) :
    Follows SupportStep Ended .idle (sendUserMessage n body auth) := by
  unfold sendUserMessage
  dsimp only
  generalize trim body = text
  by_cases htext : text = ""
  · rw [if_pos htext]
    exact ended_throw (.inl rfl) _
  rw [if_neg htext]
  refine follows_catch (follows_select fun s => ?_)
  cases hown : ownOpenSession n auth.id s with
  | none => exact ⟨.idle, .idles (.refl s), ended_throw (.inl rfl) _⟩
  | some r =>
    obtain ⟨hr, hopen⟩ := Option.filter_eq_some_iff.mp hown
    have hstatus : r.status = .opened := beq_iff_eq.mp (Bool.and_eq_true_iff.mp hopen).2
    exact ⟨.posting n, .checks n (isOpen_of_byId hr hstatus), follows_send _ _ _⟩

theorem follows_sendAdminMessage (body : String) (adminId : Nat) :
    Follows SupportStep Ended .idle (sendAdminMessage n body adminId) := by
  unfold sendAdminMessage
  dsimp only
  generalize trim body = text
  by_cases htext : text = ""
  · rw [if_pos htext]
    exact ended_throw (.inl rfl) _
  rw [if_neg htext]
  refine follows_catch (follows_select fun s => ?_)
  cases hfound : s.sessions.byId n with
  | none => exact ⟨.idle, .idles (.refl s), ended_throw (.inl rfl) _⟩
  | some r =>
    by_cases hstatus : r.status = .opened
    · refine ⟨.posting n, .checks n (isOpen_of_byId hfound hstatus), ?_⟩
      dsimp only
      rw [if_neg (not_not_intro hstatus)]
      exact follows_send _ _ _
    · refine ⟨.idle, .idles (.refl s), ?_⟩
      dsimp only
      rw [if_pos hstatus]
      exact ended_throw (.inl rfl) _

theorem follows_closeSupportSession (adminId : Nat) :
    Follows SupportStep Ended .idle (closeSupportSession n adminId) := by
  refine follows_catch (follows_statement (fun _ => Option.some_ne_none _) fun s a s' hs => ?_)
  cases hs
  refine ⟨.idle, .closes n rfl ?_, ?_⟩
  · unfold standing
    rw [Sql.Table.rows_update, List.map_map, List.map_map]
    refine List.map_congr_left fun r _ => ?_
    by_cases hr : r.id = n ∧ r.status = .opened
    · simp [hr.1, hr.2]
    · have hcond : (r.id == n && r.status == .opened) = false := by
        rw [← Bool.not_eq_true, Bool.and_eq_true, beq_iff_eq, beq_iff_eq]
        exact hr
      dsimp only [Function.comp]
      rw [hcond, if_neg hr]
      rfl
  · split
    · refine follows_select fun s => ⟨.idle, .idles (.refl s), ?_⟩
      cases s.sessions.byId n with
      | none => exact ended_throw (.inl rfl) _
      | some r => exact ended_ret (.inl rfl) _
    · exact ended_ret (.inl rfl) _

/-! ### Interleavings -/

inductive SupportRequest where
  | openSession (auth : AuthData)
  | userMessage (sessionId : Nat) (body : String) (auth : AuthData)
  | adminMessage (id : Nat) (body : String) (adminId : Nat)
  | closeSession (id adminId : Nat)

/-- What happens between the statements of the calls: time passes, messages are read, other
tables change, and the server refuses statements or accepts them again. -/
def SupportEnv : Type := { f : SupportDesk → SupportDesk // ∀ s, SameTalk s (f s) }

/-- A handler whose reply nobody reads. -/
def unread {α : Type} (p : SupportProg α) : SupportProg Unit := do
  let _ ← p
  return ()

def supportHandler : SupportRequest → SupportProg Unit
  | .openSession auth => unread (openSupportSession auth)
  | .userMessage sessionId body auth => unread (sendUserMessage sessionId body auth)
  | .adminMessage id body adminId => unread (sendAdminMessage id body adminId)
  | .closeSession id adminId => unread (closeSupportSession id adminId)

def supportSystem : System SupportDesk Failure Unit SupportRequest SupportEnv where
  handler := supportHandler
  env e := e.1

abbrev SupportPool := Pool SupportDesk Failure Unit SupportRequest

abbrev SupportCall := Call SupportDesk Failure Unit SupportRequest

theorem follows_unread {α : Type} {p : SupportProg α} {φ : SupportPhase}
    (h : Follows SupportStep Ended φ p) : Follows SupportStep Ended φ (unread p) :=
  h.bind (fun _ _ hφ => ended_ret hφ ()) fun _ _ hφ => hφ

theorem follows_supportHandler (r : SupportRequest) :
    Follows SupportStep Ended .idle (supportHandler r) := by
  cases r with
  | openSession auth => exact follows_unread (follows_openSupportSession auth)
  | userMessage n body auth => exact follows_unread (follows_sendUserMessage body auth)
  | adminMessage n body adminId =>
    exact follows_unread (follows_sendAdminMessage body adminId)
  | closeSession n adminId => exact follows_unread (follows_closeSupportSession adminId)

theorem neverWaits_supportError {α : Type} (e : Failure) :
    (supportError e : SupportProg α).NeverWaits := by
  cases e <;> exact .throw _

theorem neverWaits_statement {α : Type} (f : SupportDesk → Option (α × SupportDesk)) :
    (statement f).NeverWaits := .attempt _ _

theorem neverWaits_markSent (sender : Sender) : (markSent n sender).NeverWaits := by
  cases sender <;> exact neverWaits_statement _

theorem neverWaits_openSupportSession (auth : AuthData) : (openSupportSession auth).NeverWaits := by
  refine .tryCatch (.bind (neverWaits_statement _) fun found => ?_) neverWaits_supportError
  cases found with
  | some existing => exact .pure _
  | none =>
    exact .bind (neverWaits_statement _) fun _ => .bind (neverWaits_statement _) fun _ =>
      .bind (neverWaits_statement _) fun _ => .pure _

theorem neverWaits_sendUserMessage (body : String) (auth : AuthData) :
    (sendUserMessage n body auth).NeverWaits := by
  unfold sendUserMessage
  dsimp only
  generalize trim body = text
  refine .ite (.throw _) (.tryCatch (.bind (neverWaits_statement _) fun own => ?_)
    neverWaits_supportError)
  cases own with
  | none => exact .throw _
  | some r =>
    exact .bind (neverWaits_statement _) fun _ => .bind (neverWaits_markSent _) fun _ => .pure _

theorem neverWaits_sendAdminMessage (body : String) (adminId : Nat) :
    (sendAdminMessage n body adminId).NeverWaits := by
  unfold sendAdminMessage
  dsimp only
  generalize trim body = text
  refine .ite (.throw _) (.tryCatch (.bind (neverWaits_statement _) fun found => ?_)
    neverWaits_supportError)
  cases found with
  | none => exact .throw _
  | some r =>
    dsimp only
    split
    · exact .throw _
    · exact .bind (neverWaits_statement _) fun _ => .bind (neverWaits_markSent _) fun _ => .pure _

theorem neverWaits_closeSupportSession (adminId : Nat) :
    (closeSupportSession n adminId).NeverWaits := by
  refine .tryCatch (.bind (neverWaits_statement _) fun affectedRows => ?_) neverWaits_supportError
  split
  · refine .bind (neverWaits_statement _) fun found => ?_
    cases found with
    | none => exact .throw _
    | some r => exact .pure _
  · exact .pure _

theorem neverWaits_unread {α : Type} {p : SupportProg α} (h : p.NeverWaits) :
    (unread p).NeverWaits := .bind h fun _ => .pure _

theorem neverWaits_supportHandler (r : SupportRequest) : (supportHandler r).NeverWaits := by
  cases r with
  | openSession auth => exact neverWaits_unread (neverWaits_openSupportSession auth)
  | userMessage n body auth => exact neverWaits_unread (neverWaits_sendUserMessage body auth)
  | adminMessage n body adminId =>
    exact neverWaits_unread (neverWaits_sendAdminMessage body adminId)
  | closeSession n adminId => exact neverWaits_unread (neverWaits_closeSupportSession adminId)

/-- The call has searched, and left to itself it would still open a session for the user. -/
def Opening (userId : Nat) (c : SupportCall) : Prop :=
  supportSystem.UnderWay c ∧ ∃ s, openCount userId (c.prog.exec s).2 ≠ openCount userId s

/-- The call has made its check, and left to itself it would still post in the session. -/
def Posting (n : Nat) (c : SupportCall) : Prop :=
  supportSystem.UnderWay c ∧ ∃ s, messagesOf n (c.prog.exec s).2 ≠ messagesOf n s

/-- At most one call stands between its search for an open session of the user and its
insert, and no call closes a session between the check of another call's message and its
insert. -/
structure ChatApart (userId : Nat) (P Q : SupportPool) : Prop where
  opensAlone : ∀ (i j : Nat) c d, P.calls[i]? = some c → P.calls[j]? = some d →
    Opening userId c → Opening userId d → i = j
  closesApart : ∀ (i j n : Nat) d, supportSystem.move P (.run i) = some Q →
    IsOpen P.state n → IsClosed Q.state n → P.calls[j]? = some d → Posting n d → j = i

/-! ### A call with an insert ahead -/

/-- Once its insert has been tried, a call changes nothing the checks can see. -/
theorem sameTalk_exec_of_done {p : SupportProg Unit} (h : Follows SupportStep Ended .done p)
    (hwaits : p.NeverWaits) (s : SupportDesk) : SameTalk s (p.exec s).2 := by
  induction p generalizing s with
  | ret a => exact .refl s
  | fail e => exact .refl s
  | act ready next cont ih =>
    obtain ⟨φ', hstep, hrest⟩ := h s (hwaits s).1
    change SameTalk s ((cont s).exec (next s)).2
    generalize next s = t at hstep ⊢
    cases hstep with
    | ends hsame => exact hsame.trans (ih s hrest (hwaits s).2 t)
    | refused hrefuses => exact ih s hrest (hwaits s).2 s

/-- Left to itself on an empty desk, a call that has found no session opens one. -/
theorem openCount_exec_of_opening {p : SupportProg Unit}
    (h : Follows SupportStep Ended (.opening userId) p) (hwaits : p.NeverWaits) :
    openCount userId (p.exec {}).2 = 1 := by
  induction p with
  | ret a => cases h <;> contradiction
  | fail e => cases h <;> contradiction
  | act ready next cont ih =>
    obtain ⟨φ', hstep, hrest⟩ := h {} (hwaits {}).1
    have hcont := (hwaits {}).2
    change openCount userId ((cont {}).exec (next {})).2 = 1
    generalize hs : ({} : SupportDesk) = s at hstep hrest hcont ⊢
    generalize next s = t at hstep ⊢
    cases hstep with
    | looksUp => exact hs ▸ ih s (hs ▸ hrest) (hs ▸ hcont)
    | opens _ n hadds hposted =>
      rw [(sameTalk_exec_of_done hrest hcont t).openCount_eq, openCount_eq, hadds, ← hs]
      simp [standing]
    | refused hrefuses =>
      rw [← hs] at hrefuses
      cases hrefuses

/-- Left to itself on an empty desk, a call that has made its check posts its message. -/
theorem messagesOf_exec_of_posting {p : SupportProg Unit}
    (h : Follows SupportStep Ended (.posting n) p) (hwaits : p.NeverWaits) :
    messagesOf n (p.exec {}).2 ≠ [] := by
  cases p with
  | ret a => cases h <;> contradiction
  | fail e => cases h <;> contradiction
  | act ready next cont =>
    obtain ⟨φ', hstep, hrest⟩ := h {} (hwaits {}).1
    have hcont := (hwaits {}).2
    change messagesOf n ((cont {}).exec (next {})).2 ≠ []
    generalize hs : ({} : SupportDesk) = s at hstep hrest hcont ⊢
    generalize next s = t at hstep ⊢
    cases hstep with
    | posts _ m hsame hposted =>
      rw [(sameTalk_exec_of_done hrest hcont t).messagesOf_eq, messagesOf_eq, hposted]
      simp
    | refused hrefuses =>
      rw [← hs] at hrefuses
      cases hrefuses

/-! ### The invariant -/

theorem IsOpen.mono {l : List (Nat × Option Nat × SupportStatus)} (h : IsOpen s n)
    (hs : standing s' = standing s ++ l) : IsOpen s' n := by
  obtain ⟨u, hu⟩ := h
  exact ⟨u, hs ▸ List.mem_append_left l hu⟩

theorem SameTalk.isOpen (h : SameTalk s s') (hopen : IsOpen s n) : IsOpen s' n :=
  hopen.mono (h.standing.trans (List.append_nil _).symm)

/-- Closing is for good. -/
theorem SupportStep.isClosed {φ φ' : SupportPhase} (h : SupportStep φ s φ' s')
    (hclosed : IsClosed s n) : IsClosed s' n := by
  obtain ⟨u, hu⟩ := hclosed
  refine ⟨u, ?_⟩
  cases h with
  | idles h => exact h.standing ▸ hu
  | ends h => exact h.standing ▸ hu
  | finds => exact hu
  | looksUp => exact hu
  | opens _ _ h => exact h ▸ List.mem_append_left _ hu
  | checks => exact hu
  | posts _ _ h => exact h ▸ hu
  | refused => exact hu
  | closes m _ h =>
    rw [h]
    refine List.mem_map.mpr ⟨_, hu, if_neg fun hm => ?_⟩
    cases hm.2

/-- Only a call that has made its check posts in the session. -/
theorem SupportStep.messagesOf_eq {φ φ' : SupportPhase} (h : SupportStep φ s φ' s')
    (hφ : φ ≠ .posting n) : messagesOf n s' = messagesOf n s := by
  cases h with
  | idles h => exact h.messagesOf_eq
  | ends h => exact h.messagesOf_eq
  | opens _ _ _ hp => rw [Feedbase.messagesOf_eq, hp, ← Feedbase.messagesOf_eq]
  | posts m k _ hp =>
    have hm : m ≠ n := fun heq => hφ (congrArg _ heq)
    have hrest : [(k, m)].filter (fun r => r.2 == n) = [] := by simp [hm]
    rw [Feedbase.messagesOf_eq, hp, List.filter_append, hrest, List.append_nil,
      ← Feedbase.messagesOf_eq]
  | closes _ hp => rw [Feedbase.messagesOf_eq, hp, ← Feedbase.messagesOf_eq]
  | _ => rfl

/-- A call about to insert a session finds none open, one about to post finds its open. -/
structure Exclusive (userId : Nat) (s : SupportDesk) (phases : List SupportPhase) : Prop where
  one : openCount userId s ≤ 1
  opening : .opening userId ∈ phases → openCount userId s = 0
  posting : ∀ n, .posting n ∈ phases → IsOpen s n

theorem Exclusive.sameTalk {phases phases' : List SupportPhase} (h : Exclusive userId s phases)
    (hs : SameTalk s s') (hopening : .opening userId ∈ phases' → .opening userId ∈ phases)
    (hposting : ∀ n, .posting n ∈ phases' → .posting n ∈ phases) :
    Exclusive userId s' phases' :=
  ⟨hs.openCount_eq ▸ h.one, fun hmem => hs.openCount_eq ▸ h.opening (hopening hmem),
    fun n hmem => hs.isOpen (h.posting n (hposting n hmem))⟩

/-- Closing a session opens none. -/
theorem openCount_le_of_closes (h : standing s' = (standing s).map fun r =>
    if r.1 = n ∧ r.2.2 = .opened then (r.1, r.2.1, .closed) else r) :
    openCount userId s' ≤ openCount userId s := by
  rw [openCount_eq, openCount_eq, h, List.countP_map]
  refine List.countP_mono_left fun r _ hr => ?_
  dsimp only [Function.comp] at hr
  split at hr
  · simp at hr
  · exact hr

/-- One statement keeps it, unless a second call is about to insert or a message is under way
in the session that is closed. -/
theorem Exclusive.step {phases : List SupportPhase} {i : Nat} {φ φ' : SupportPhase}
    (h : Exclusive userId s phases) (hφ : phases[i]? = some φ) (hstep : SupportStep φ s φ' s')
    (halone : φ = .opening userId → ∀ j : Nat, phases[j]? = some (.opening userId) → j = i)
    (hcloses : ∀ n, IsOpen s n → IsClosed s' n →
      ∀ j : Nat, phases[j]? = some (.posting n) → j = i) :
    Exclusive userId s' (phases.set i φ') := by
  have hother {ψ : SupportPhase} (hmem : ψ ∈ phases.set i φ') (hne : ψ ≠ φ') : ψ ∈ phases :=
    (List.mem_or_eq_of_mem_set hmem).resolve_right hne
  cases hstep with
  | idles hs => exact h.sameTalk hs (hother · nofun) fun n hmem => hother hmem nofun
  | ends hs => exact h.sameTalk hs (hother · nofun) fun n hmem => hother hmem nofun
  -- the search has seen no open session of the user
  | finds u hnone =>
    refine ⟨h.one, fun hmem => ?_, fun n hmem => h.posting n (hother hmem nofun)⟩
    by_cases hu : u = userId
    · exact hu ▸ hnone
    · exact h.opening (hother hmem fun heq => hu (SupportPhase.opening.inj heq).symm)
  | looksUp u =>
    have hsame : ∀ {ψ}, ψ ∈ phases.set i (.opening u) → ψ ∈ phases := by
      intro ψ hmem
      rcases List.mem_or_eq_of_mem_set hmem with hmem | rfl
      · exact hmem
      · exact List.mem_of_getElem? hφ
    exact h.sameTalk (.refl s) hsame fun n => hsame
  | opens u n hadds hposted =>
    have hcount : openCount userId s' =
        openCount userId s + if u = userId then 1 else 0 := by
      rw [openCount_eq, hadds, List.countP_append, ← openCount_eq]
      simp [List.countP_cons]
    by_cases hu : u = userId
    · subst hu
      have hzero := h.opening (List.mem_of_getElem? hφ)
      rw [hzero, if_pos rfl] at hcount
      refine ⟨hcount.le, fun hmem => ?_, fun n hmem => ?_⟩
      · -- a second call about to insert would not be alone
        obtain ⟨j, hj⟩ := List.getElem?_of_mem hmem
        rcases getElem?_set_cases hj with ⟨-, heq⟩ | ⟨hne, hj⟩
        · cases heq
        · exact absurd (halone rfl j hj) hne
      · exact (h.posting n (hother hmem nofun)).mono hadds
    · rw [if_neg hu, Nat.add_zero] at hcount
      exact ⟨hcount ▸ h.one, fun hmem => hcount ▸ h.opening (hother hmem nofun),
        fun n hmem => (h.posting n (hother hmem nofun)).mono hadds⟩
  -- the session that was checked is open
  | checks n hopen =>
    refine ⟨h.one, fun hmem => h.opening (hother hmem nofun), fun m hmem => ?_⟩
    by_cases hm : m = n
    · exact hm ▸ hopen
    · exact h.posting m (hother hmem fun heq => hm (SupportPhase.posting.inj heq))
  | posts n m hsame hposted =>
    have hcount : openCount userId s' = openCount userId s := by
      rw [openCount_eq, hsame, ← openCount_eq]
    exact ⟨hcount ▸ h.one, fun hmem => hcount ▸ h.opening (hother hmem nofun),
      fun k hmem => (h.posting k (hother hmem nofun)).mono
        (hsame.trans (List.append_nil _).symm)⟩
  | refused => exact h.sameTalk (.refl s) (hother · nofun) fun n hmem => hother hmem nofun
  | closes n hposted hclosed =>
    have hle : openCount userId s' ≤ openCount userId s := openCount_le_of_closes hclosed
    refine ⟨hle.trans h.one, fun hmem => ?_, fun m hmem => ?_⟩
    · exact Nat.le_zero.mp (h.opening (hother hmem nofun) ▸ hle)
    · have hin := hother hmem nofun
      obtain ⟨u, hu⟩ := h.posting m hin
      by_cases hm : m = n
      · -- the session that is closed has no message under way
        subst hm
        obtain ⟨j, hj⟩ := List.getElem?_of_mem hin
        have hnow : IsClosed s' m :=
          ⟨u, hclosed ▸ List.mem_map.mpr ⟨_, hu, if_pos ⟨rfl, rfl⟩⟩⟩
        obtain rfl : j = i := hcloses m ⟨u, hu⟩ hnow j hj
        cases hφ.symm.trans hj
      · refine ⟨u, ?_⟩
        rw [hclosed]
        exact List.mem_map.mpr ⟨_, hu, if_neg fun hmn => hm hmn.1⟩

/-! ### Every interleaving -/

section Run

variable {P Q R : SupportPool} {phases : List SupportPhase}

/-- A phase other than the first is one of a call under way. -/
theorem opening_of_phase (htracks : Tracks SupportStep Ended P phases)
    (hbegun : Tracks.Begun supportSystem (fun _ _ => .idle) P phases)
    (hwaits : ∀ c ∈ P.calls, c.prog.NeverWaits) {i : Nat} {c : SupportCall}
    (hc : P.calls[i]? = some c) (hφ : phases[i]? = some (.opening userId)) : Opening userId c := by
  obtain ⟨φ, hφ', hfol⟩ := forall₂_getElem? htracks hc
  obtain rfl : φ = .opening userId := Option.some.inj (hφ'.symm.trans hφ)
  have hout : c.outcome = none := hfol.outcome_eq_none fun _ hr => by cases hr <;> contradiction
  refine ⟨hbegun.underWay hc hφ hout nofun, {}, ?_⟩
  rw [openCount_exec_of_opening hfol (hwaits c (List.mem_of_getElem? hc))]
  exact Nat.one_ne_zero

theorem posting_of_phase (htracks : Tracks SupportStep Ended P phases)
    (hbegun : Tracks.Begun supportSystem (fun _ _ => .idle) P phases)
    (hwaits : ∀ c ∈ P.calls, c.prog.NeverWaits) {i : Nat} {c : SupportCall}
    (hc : P.calls[i]? = some c) (hφ : phases[i]? = some (.posting n)) : Posting n c := by
  obtain ⟨φ, hφ', hfol⟩ := forall₂_getElem? htracks hc
  obtain rfl : φ = .posting n := Option.some.inj (hφ'.symm.trans hφ)
  have hout : c.outcome = none := hfol.outcome_eq_none fun _ hr => by cases hr <;> contradiction
  exact ⟨hbegun.underWay hc hφ hout nofun, {},
    messagesOf_exec_of_posting hfol (hwaits c (List.mem_of_getElem? hc))⟩

/-- The moves the results are about. -/
abbrev ChatApart.Waitless (userId : Nat) (P Q : SupportPool) : Prop :=
  ChatApart userId P Q ∧ ∀ c ∈ P.calls, c.prog.NeverWaits

theorem run_waitless (hP : ∀ c ∈ P.calls, c.prog.NeverWaits)
    (hrun : supportSystem.Run (ChatApart userId) P Q) :
    supportSystem.Run (ChatApart.Waitless userId) P Q ∧ ∀ c ∈ Q.calls, c.prog.NeverWaits := by
  have hcalls (R : SupportPool) (h : supportSystem.Run (ChatApart userId) P R) :
      ∀ c ∈ R.calls, c.prog.NeverWaits :=
    System.calls_of_run (K := fun _ p => p.NeverWaits) neverWaits_supportHandler
      (fun _ _ _ _ s hwaits _ => (hwaits s).2) hP h
  exact ⟨System.run_with hcalls hrun, hcalls Q hrun⟩

/-- One action of one call keeps the invariant. -/
theorem Exclusive.move {i : Nat} {c : SupportCall} {φ φ' : SupportPhase}
    (h : Exclusive userId P.state phases) (htracks : Tracks SupportStep Ended P phases)
    (hbegun : Tracks.Begun supportSystem (fun _ _ => .idle) P phases)
    (hm : supportSystem.move P (.run i) = some Q)
    (hok : ChatApart.Waitless userId P Q) (hc : P.calls[i]? = some c)
    (hφ : phases[i]? = some φ) (hstep : SupportStep φ P.state φ' Q.state) :
    Exclusive userId Q.state (phases.set i φ') := by
  obtain ⟨hapart, hwaits⟩ := hok
  refine h.step hφ hstep (fun hopening j hj => ?_) fun n hopen hclosed j hj => ?_
  · subst hopening
    obtain ⟨d, hd, -⟩ := forall₂_getElem? htracks.flip hj
    exact hapart.opensAlone j i d c hd hc (opening_of_phase htracks hbegun hwaits hd hj)
      (opening_of_phase htracks hbegun hwaits hc hφ)
  · obtain ⟨d, hd, -⟩ := forall₂_getElem? htracks.flip hj
    exact hapart.closesApart i j n d hm hopen hclosed hd
      (posting_of_phase htracks hbegun hwaits hd hj)

/-- The invariant of a call that arrives. -/
theorem Exclusive.arrive (h : Exclusive userId s phases) :
    Exclusive userId s (phases ++ [.idle]) :=
  h.sameTalk (.refl s) (fun hmem => by simpa using hmem) fun n hmem => by simpa using hmem

theorem exclusive_of_run_from (htracks : Tracks SupportStep Ended P phases)
    (hbegun : Tracks.Begun supportSystem (fun _ _ => .idle) P phases)
    (hP : Exclusive userId P.state phases)
    (hrun : supportSystem.Run (ChatApart.Waitless userId) P Q) :
    ∃ phases, Tracks SupportStep Ended Q phases ∧
      Tracks.Begun supportSystem (fun _ _ => .idle) Q phases ∧
        Exclusive userId Q.state phases ∧ ∀ n, IsClosed P.state n →
          IsClosed Q.state n ∧ messagesOf n Q.state = messagesOf n P.state := by
  refine Tracks.inv_of_run_from (I := fun R phases => Exclusive userId R.state phases ∧
      ∀ n, IsClosed P.state n →
        IsClosed R.state n ∧ messagesOf n R.state = messagesOf n P.state)
    (fun r _ => follows_supportHandler r) htracks hbegun ⟨hP, fun n hn => ⟨hn, rfl⟩⟩ ?_ ?_ ?_ hrun
  · intro R phases r _ _ h
    exact ⟨h.1.arrive, h.2⟩
  · intro R phases e _ h
    have hsame : SameTalk R.state (e.1 R.state) := e.2 R.state
    refine ⟨h.1.sameTalk hsame id fun _ => id, fun n hn => ?_⟩
    obtain ⟨hclosed, hmessages⟩ := h.2 n hn
    exact ⟨SupportStep.isClosed (.idles hsame) hclosed, hsame.messagesOf_eq.trans hmessages⟩
  · intro R R' phases i c φ φ' prog hm htracks hbegun hok hc _ hφ hstep _ h
    refine ⟨h.1.move htracks hbegun hm hok hc hφ hstep, fun n hn => ?_⟩
    obtain ⟨hclosed, hmessages⟩ := h.2 n hn
    refine ⟨hstep.isClosed hclosed, (hstep.messagesOf_eq fun hposting => ?_).trans hmessages⟩
    -- a call about to post has its session open
    subst hposting
    exact (h.1.posting n (List.mem_of_getElem? hφ)).not_isClosed hclosed

/-- In every run in which at most one call at a time stands between its search and its
insert, and no session is closed between the check and the insert of a message: the user has
at most one open session, and a session that is closed stays closed and gains no message. -/
theorem exclusive_of_run {s₀ : SupportDesk} (hinit : openCount userId s₀ ≤ 1)
    (hrun : supportSystem.Run (ChatApart userId) ⟨s₀, []⟩ P) :
    openCount userId P.state ≤ 1 ∧
      ∀ Q, supportSystem.Run (ChatApart userId) P Q → ∀ n, IsClosed P.state n →
        IsClosed Q.state n ∧ messagesOf n Q.state = messagesOf n P.state := by
  obtain ⟨hrun, hwaits⟩ := run_waitless (fun _ hc => by cases hc) hrun
  obtain ⟨phases, htracks, hbegun, hP, -⟩ := exclusive_of_run_from (.nil s₀) List.Forall₂.nil
    ⟨hinit, fun hmem => absurd hmem List.not_mem_nil,
      fun n hmem => absurd hmem List.not_mem_nil⟩ hrun
  refine ⟨hP.one, fun Q hlater => ?_⟩
  obtain ⟨_, -, -, -, hclosed⟩ :=
    exclusive_of_run_from htracks hbegun hP (run_waitless hwaits hlater).1
  exact hclosed

/-- Calls that are answered one after the other do not disturb each other. -/
theorem chatApart_of_inFlight (h : decide (P.inFlight ≤ 1) = true) :
    ChatApart userId P Q := by
  refine ⟨fun i j c d hc hd hcopens hdopens => ?_, fun i j n d hm _ _ hd hposting => ?_⟩
  · exact eq_of_countP_le_one (of_decide_eq_true h) hc hd
      (Option.isNone_iff_eq_none.mpr hcopens.1.1) (Option.isNone_iff_eq_none.mpr hdopens.1.1)
  · obtain ⟨c, hc, hout⟩ := System.outcome_of_move_run hm
    exact eq_of_countP_le_one (of_decide_eq_true h) hd hc
      (Option.isNone_iff_eq_none.mpr hposting.1.1) (Option.isNone_iff_eq_none.mpr hout)

end Run

/-! ### Two tabs and a close -/

def linSignedIn : AuthData where
  id := 1
  tenantId := none
  role := .user
  email := "lin@example.com"

/-- Lin opens a session and posts in it, and the administrator closes it; what Lin posts next
is refused. -/
theorem exclusive_of_run_lin : ∃ P Q : SupportPool, openCount 1 P.state ≤ 1 ∧
    IsClosed P.state 1 ∧ messagesOf 1 P.state = [1] ∧
      Q.calls.length = 4 ∧ messagesOf 1 Q.state = messagesOf 1 P.state := by
  let run := supportSystem.scheduleWhile (fun P => decide (P.inFlight ≤ 1)) ⟨{}, []⟩
    [.arrive (.openSession linSignedIn), .run 0, .run 0, .run 0, .run 0,
      .arrive (.userMessage 1 "help" linSignedIn), .run 1, .run 1, .run 1,
      .arrive (.closeSession 1 9), .run 2]
  let later := run.bind fun P => supportSystem.scheduleWhile (fun P => decide (P.inFlight ≤ 1)) P
    [.arrive (.userMessage 1 "thanks" linSignedIn), .run 3]
  have hP : run.map (fun P => (standing P.state, messagesOf 1 P.state)) =
      some ([(1, some 1, .closed)], [1]) := by decide +kernel
  have hQ : later.map (·.calls.length) = some 4 := by decide +kernel
  obtain ⟨P, hrun, hP⟩ := Option.map_eq_some_iff.mp hP
  obtain ⟨Q, hlater, hQ⟩ := Option.map_eq_some_iff.mp hQ
  obtain ⟨hstanding, hmessages⟩ := Prod.mk.inj hP
  have hclosed : IsClosed P.state 1 := ⟨some 1, hstanding ▸ List.mem_cons_self⟩
  dsimp only [later] at hlater
  rw [hrun] at hlater
  have hok : ∀ P Q : SupportPool, decide (P.inFlight ≤ 1) = true → ChatApart 1 P Q :=
    fun _ _ => chatApart_of_inFlight
  have hinit : openCount 1 ({} : SupportDesk) ≤ 1 := Nat.zero_le 1
  obtain ⟨hone, hafter⟩ := exclusive_of_run hinit (System.run_of_scheduleWhile hok hrun)
  obtain ⟨-, hsame⟩ := hafter Q (System.run_of_scheduleWhile hok hlater) 1 hclosed
  exact ⟨P, Q, hone, hclosed, hmessages, hQ, hsame⟩

/-- Two tabs search before either inserts: Lin has two open sessions. A message that was
checked before the close is inserted after it. -/
theorem overlapping_calls_break_chat :
    (∃ P : SupportPool, supportSystem.Run (fun _ _ => True) ⟨{}, []⟩ P ∧
      openCount 1 P.state = 2) ∧
    ∃ P Q : SupportPool, supportSystem.Run (fun _ _ => True) ⟨{}, []⟩ P ∧
      supportSystem.Run (fun _ _ => True) P Q ∧ IsClosed P.state 1 ∧
        messagesOf 1 P.state = [] ∧ messagesOf 1 Q.state = [1] := by
  constructor
  · let run := supportSystem.schedule ⟨{}, []⟩
      [.arrive (.openSession linSignedIn), .arrive (.openSession linSignedIn),
        .run 0, .run 1, .run 0, .run 1, .run 0, .run 1]
    have hend : run.map (fun P => openCount 1 P.state) = some 2 := by decide +kernel
    obtain ⟨P, hrun, hP⟩ := Option.map_eq_some_iff.mp hend
    exact ⟨P, System.run_of_schedule hrun, hP⟩
  · let run := supportSystem.schedule ⟨{}, []⟩
      [.arrive (.openSession linSignedIn), .run 0, .run 0, .run 0, .run 0,
        .arrive (.userMessage 1 "help" linSignedIn), .run 1,
        .arrive (.closeSession 1 9), .run 2]
    let later := run.bind fun P => supportSystem.schedule P [.run 1]
    have hP : run.map (fun P => (standing P.state, messagesOf 1 P.state)) =
        some ([(1, some 1, .closed)], []) := by decide +kernel
    have hQ : later.map (fun Q => messagesOf 1 Q.state) = some [1] := by decide +kernel
    obtain ⟨P, hrun, hP⟩ := Option.map_eq_some_iff.mp hP
    obtain ⟨Q, hlater, hQ⟩ := Option.map_eq_some_iff.mp hQ
    obtain ⟨hstanding, hmessages⟩ := Prod.mk.inj hP
    dsimp only [later] at hlater
    rw [hrun] at hlater
    exact ⟨P, Q, System.run_of_schedule hrun, System.run_of_schedule hlater,
      ⟨some 1, hstanding ▸ List.mem_cons_self⟩, hmessages, hQ⟩

end Feedbase
