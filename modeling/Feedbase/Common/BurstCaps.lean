import Feedbase.Common.WriteCounters
import Feedbase.Lib.Pool
import Mathlib.Algebra.Order.Floor.Semiring
import Mathlib.Data.Finset.Card
import Mathlib.Data.Rat.Floor
import Mathlib.Logic.Relation
import Mathlib.Order.Interval.Finset.Nat

/-!
# Burst caps under any interleaving

Any number of workers charge public writes at the same time, and any of them may prune. A
charge asks for all its bumps at once; a bump reads the clock for the start of its window, and
its upsert reaches the database later. The database's clock, which the prune goes by, is the
local time of a server somewhere: within 14 hours of UTC.

## Main definitions

* `Bump`, `BurstDesk`, `BurstEvent`, `BurstDesk.step`
* `BurstDesk.resultOf`, `okCalls` — what the charges return
* `BurstEvent.InTime` — no upsert runs later than 34 hours after its window began

## Main results

* `prune_keeps_open_window` — the prune leaves the rows of windows that have not ended
* `burstCaps_of_run` — when the upserts run in time, a cap bounds the writes accepted in a window
  and twice the cap those accepted in an interval as long as the window
* `late_upserts_pass_the_cap` — what happens when they do not
-/

namespace Feedbase

/-- How far a bump has got: the time it read, and the count its upsert returned. -/
inductive BumpState where
  | asked
  | read (now : Nat)
  | counted (now count : Nat)
  deriving DecidableEq, Repr

/-- One `bump` of the charge with number `call`. -/
structure Bump where
  call : Nat
  check : Check
  state : BumpState := .asked
  deriving DecidableEq

/-- The window start a bump of the check passes at the time `now`. -/
def Check.startAt (c : Check) (now : Nat) : Time := windowStart c.scope.size now

/-- The shared table, the charges made so far, and the time in milliseconds. -/
structure BurstDesk where
  utc : Nat
  counters : Counters
  bumps : List Bump := []
  calls : Nat := 0

inductive BurstEvent where
  | elapse (ms : Nat)
  | charge (tenantId : Nat) (voterHash emailDomain : Option String)
  | read (i : Nat)
  | upsert (i : Nat)
  | prune (dbNow : Int)

/-- The database's clock is within 14 hours of UTC. -/
def ClockNear (utc : Nat) (dbNow : Int) : Prop :=
  (dbNow - (utc / 1000 : Nat)).natAbs ≤ 14 * 3600

instance (utc : Nat) (dbNow : Int) : Decidable (ClockNear utc dbNow) :=
  inferInstanceAs (Decidable (_ ≤ _))

namespace BurstDesk

variable {d d' : BurstDesk}

/-- `windowStart(sizeMs)` reads the clock. -/
def readClock (d : BurstDesk) (i : Nat) : Option BurstDesk :=
  match d.bumps[i]? with
  | some ⟨call, c, .asked⟩ => some { d with bumps := d.bumps.set i ⟨call, c, .read d.utc⟩ }
  | _ => none

/-- The upsert of a bump, atomic and returning the count it made. -/
def upsert (d : BurstDesk) (i : Nat) : Option BurstDesk :=
  match d.bumps[i]? with
  | some ⟨call, c, .read now⟩ =>
    let (count, counters) := upsertCounter d.counters c.scopeKey (c.startAt now)
    some { d with counters := counters, bumps := d.bumps.set i ⟨call, c, .counted now count⟩ }
  | _ => none

def prune (d : BurstDesk) (dbNow : Int) : Option BurstDesk :=
  if ClockNear d.utc dbNow then some { d with counters := pruneCounters d.counters dbNow }
  else none

/-- One step: time passes, a worker takes up a request, a bump goes on, or somebody prunes. -/
def step (d : BurstDesk) : BurstEvent → Option BurstDesk
  | .elapse ms => some { d with utc := d.utc + ms }
  | .charge tenantId voterHash emailDomain =>
    some { d with
      bumps := d.bumps ++
        (checksFor tenantId voterHash emailDomain).map fun c => ⟨d.calls, c, .asked⟩
      calls := d.calls + 1 }
  | .read i => d.readClock i
  | .upsert i => d.upsert i
  | .prune dbNow => d.prune dbNow

/-- Everything a step can do. -/
theorem step_cases {e : BurstEvent} (h : d.step e = some d') :
    (∃ ms, e = .elapse ms ∧ d' = { d with utc := d.utc + ms }) ∨
    (∃ checks : List Check, d' = { d with
      bumps := d.bumps ++ checks.map fun c => ⟨d.calls, c, .asked⟩
      calls := d.calls + 1 }) ∨
    (∃ i call c, d.bumps[i]? = some ⟨call, c, .asked⟩ ∧
      d' = { d with bumps := d.bumps.set i ⟨call, c, .read d.utc⟩ }) ∨
    (∃ i call c now, e = .upsert i ∧ d.bumps[i]? = some ⟨call, c, .read now⟩ ∧
      d' = { d with
        counters := (upsertCounter d.counters c.scopeKey (c.startAt now)).2
        bumps := d.bumps.set i
          ⟨call, c, .counted now (upsertCounter d.counters c.scopeKey (c.startAt now)).1⟩ }) ∨
    ∃ dbNow, ClockNear d.utc dbNow ∧
      d' = { d with counters := pruneCounters d.counters dbNow } := by
  cases e with
  | elapse ms => exact .inl ⟨ms, rfl, (Option.some.inj h).symm⟩
  | charge tenantId voterHash emailDomain =>
    exact .inr (.inl ⟨checksFor tenantId voterHash emailDomain, (Option.some.inj h).symm⟩)
  | read i =>
    change d.readClock i = some d' at h
    unfold readClock at h
    split at h
    · exact .inr (.inr (.inl ⟨i, _, _, ‹_›, (Option.some.inj h).symm⟩))
    · cases h
  | upsert i =>
    change d.upsert i = some d' at h
    unfold upsert at h
    split at h
    · exact .inr (.inr (.inr (.inl ⟨i, _, _, _, rfl, ‹_›, (Option.some.inj h).symm⟩)))
    · cases h
  | prune dbNow =>
    change d.prune dbNow = some d' at h
    unfold prune at h
    split at h
    · exact .inr (.inr (.inr (.inr ⟨dbNow, ‹_›, (Option.some.inj h).symm⟩)))
    · cases h

end BurstDesk

/-! ### What a charge returns -/

/-- The count a bump has returned. -/
def Bump.count? (b : Bump) : Option Nat :=
  match b.state with
  | .counted _ count => some count
  | _ => none

/-- The time a bump read. -/
def Bump.readAt? (b : Bump) : Option Nat :=
  match b.state with
  | .counted now _ | .read now => some now
  | .asked => none

/-- `r.count > r.max`. -/
def Bump.tripped (limits : WriteLimits) (b : Bump) : Bool :=
  b.count?.any fun count => limits.max b.check.scope < count

/-- What a charge returns once all its bumps have: the scope of the first cap that tripped, or
`none` for `ok: true`. -/
def BurstDesk.resultOf (d : BurstDesk) (limits : WriteLimits) (call : Nat) :
    Option (Option Scope) :=
  let results := d.bumps.filter (·.call == call)
  if results.all (·.count?.isSome) then
    some ((results.find? (·.tripped limits)).map (·.check.scope))
  else none

/-- The charges that returned `ok: true` and have a bump with the property. -/
def okCalls (limits : WriteLimits) (d : BurstDesk) (p : Bump → Bool) : Finset Nat :=
  (Finset.range d.calls).filter fun call =>
    d.resultOf limits call = some none ∧ ∃ b ∈ d.bumps, b.call = call ∧ p b = true

/-- The bump counts against the scope key in the window that starts at `start`. -/
def Bump.inWindow (scope : Scope) (key : String) (start : Time) (b : Bump) : Bool :=
  b.check.scope == scope && b.check.scopeKey == key &&
    b.readAt?.any fun now => b.check.startAt now == start

/-- The bump counts against the scope key and read its clock in the interval, as long as the
scope's window, that begins at the millisecond `since`. -/
def Bump.inInterval (scope : Scope) (key : String) (since : Nat) (b : Bump) : Bool :=
  b.check.scope == scope && b.check.scopeKey == key &&
    b.readAt?.any fun now => since ≤ now && now ≤ since + scope.size

/-! ### Runs -/

/-- An upsert runs no later than 34 hours after its window began. -/
def BurstEvent.InTime (d : BurstDesk) : BurstEvent → Prop
  | .upsert i => ∀ call c now, d.bumps[i]? = some ⟨call, c, .read now⟩ →
    d.utc / 1000 ≤ c.startAt now + 34 * 3600
  | _ => True

/-- The runs all of whose events have the property. -/
def BurstDesk.Run (ok : BurstDesk → BurstEvent → Prop) : BurstDesk → BurstDesk → Prop :=
  Relation.ReflTransGen fun d d' => ∃ e, ok d e ∧ d.step e = some d'

/-! ### The prune and the open windows -/

variable {d d' : BurstDesk} {i : Nat} {key : String} {start : Time} {count : Nat}

/-- The prune leaves every row whose window began less than 34 hours ago. -/
theorem pruneCounters_of_le {utc : Nat} {dbNow : Int} (hnear : ClockNear utc dbNow)
    (hle : utc / 1000 ≤ start + 34 * 3600) (counters : Counters) :
    pruneCounters counters dbNow key start = counters key start := by
  unfold ClockNear at hnear
  have hkept : ¬ (start : Int) < dbNow - 2 * 24 * 3600 := by omega
  rw [pruneCounters, if_neg hkept]

theorem Scope.size_le (scope : Scope) : scope.size ≤ 24 * 3600 * 1000 := by
  cases scope <;> decide

/-- No window is longer than a day, so the prune leaves those that have not ended. -/
theorem prune_keeps_open_window {utc : Nat} {dbNow : Int} (hnear : ClockNear utc dbNow)
    {scope : Scope} (hopen : utc < start * 1000 + scope.size) (counters : Counters) :
    pruneCounters counters dbNow key start = counters key start := by
  have hsize := scope.size_le
  have hle : utc / 1000 ≤ start + 34 * 3600 := by
    have hlt : utc < (start + 24 * 3600) * 1000 := by omega
    have hdiv := (Nat.div_lt_iff_lt_mul (by decide)).mpr hlt
    exact hdiv.le.trans (Nat.add_le_add_left (by decide) start)
  exact pruneCounters_of_le hnear hle counters

/-! ### Counts of one window are distinct -/

/-- The bump at place `i` has counted `count` in the window. -/
def BurstDesk.CountedAt (d : BurstDesk) (i : Nat) (key : String) (start : Time) (count : Nat) :
    Prop :=
  ∃ b now, d.bumps[i]? = some b ∧ b.state = .counted now count ∧ b.check.scopeKey = key ∧
    b.check.startAt now = start

/-- No two bumps have counted the same in one window, and for 34 hours from its start the
window's row is there and holds at least what has been counted. -/
structure CountsApart (d : BurstDesk) : Prop where
  pos : ∀ {i key start count}, d.CountedAt i key start count → 1 ≤ count
  held : ∀ {i key start count}, d.CountedAt i key start count →
    d.utc / 1000 ≤ start + 34 * 3600 → ∃ n, d.counters key start = some n ∧ count ≤ n
  distinct : ∀ {i j key start count}, d.CountedAt i key start count →
    d.CountedAt j key start count → i = j

/-- Nobody counts, and the rows still needed stay. -/
theorem CountsApart.mono (h : CountsApart d) (hutc : d.utc ≤ d'.utc)
    (hbumps : ∀ {i key start count}, d'.CountedAt i key start count →
      d.CountedAt i key start count)
    (hrows : ∀ {key start}, d'.utc / 1000 ≤ start + 34 * 3600 →
      d'.counters key start = d.counters key start) : CountsApart d' where
  pos hc := h.pos (hbumps hc)
  held hc hle := by
    have hle' := (Nat.div_le_div_right (c := 1000) hutc).trans hle
    rw [hrows hle]
    exact h.held (hbumps hc) hle'
  distinct hc hc' := h.distinct (hbumps hc) (hbumps hc')

/-- What has counted after a bump has been replaced: the new one, or a bump that had before. -/
theorem countedAt_of_set {b : Bump} (hd : d'.bumps = d.bumps.set i b) {j : Nat}
    (hc : d'.CountedAt j key start count) :
    (j = i ∧ ∃ now, b.state = .counted now count ∧ b.check.scopeKey = key ∧
      b.check.startAt now = start) ∨ (j ≠ i ∧ d.CountedAt j key start count) := by
  obtain ⟨a, now, ha, hstate, hkey, hstart⟩ := hc
  rw [hd] at ha
  rcases getElem?_set_cases ha with ⟨rfl, rfl⟩ | ⟨hne, ha⟩
  · exact .inl ⟨rfl, now, hstate, hkey, hstart⟩
  · exact .inr ⟨hne, a, now, ha, hstate, hkey, hstart⟩

/-- New bumps have not counted yet. -/
theorem countedAt_of_append {checks : List Check} {call : Nat}
    (hd : d'.bumps = d.bumps ++ checks.map fun c => ⟨call, c, .asked⟩) {j : Nat}
    (hc : d'.CountedAt j key start count) : d.CountedAt j key start count := by
  obtain ⟨a, now, ha, hstate, hkey, hstart⟩ := hc
  rw [hd] at ha
  by_cases hj : j < d.bumps.length
  · rw [List.getElem?_append_left hj] at ha
    exact ⟨a, now, ha, hstate, hkey, hstart⟩
  · rw [List.getElem?_append_right (by omega)] at ha
    obtain ⟨c, -, rfl⟩ := List.mem_map.mp (List.mem_of_getElem? ha)
    cases hstate

theorem upsertCounter_snd_of_ne {counters : Counters} {key' : String} {start' : Time}
    (h : ¬ (key = key' ∧ start = start')) :
    (upsertCounter counters key' start').2 key start = counters key start :=
  if_neg h

/-- An upsert in time counts more than every bump of its window so far. -/
theorem CountsApart.upsert (h : CountsApart d) {call now : Nat} {c : Check}
    (hin : d.utc / 1000 ≤ c.startAt now + 34 * 3600)
    (hd : d' = { d with
      counters := (upsertCounter d.counters c.scopeKey (c.startAt now)).2
      bumps := d.bumps.set i
        ⟨call, c, .counted now (upsertCounter d.counters c.scopeKey (c.startAt now)).1⟩ }) :
    CountsApart d' := by
  have hbumps := congrArg BurstDesk.bumps hd
  -- the counter of the window is at least what any bump of it has counted
  have hmore : ∀ {j count}, d.CountedAt j c.scopeKey (c.startAt now) count →
      count < (upsertCounter d.counters c.scopeKey (c.startAt now)).1 := by
    intro j count hc
    obtain ⟨n, hn, hle⟩ := h.held hc hin
    change count < (d.counters c.scopeKey (c.startAt now)).getD 0 + 1
    rw [hn]
    exact Nat.lt_succ_of_le hle
  constructor
  case pos =>
    intro j key start count hc
    rcases countedAt_of_set hbumps hc with ⟨-, now', hstate, -⟩ | ⟨-, hc⟩
    · cases hstate
      exact Nat.le_add_left 1 _
    · exact h.pos hc
  case held =>
    intro j key start count hc hle
    subst hd
    by_cases hsame : key = c.scopeKey ∧ start = c.startAt now
    · obtain ⟨rfl, rfl⟩ := hsame
      refine ⟨_, if_pos ⟨rfl, rfl⟩, ?_⟩
      rcases countedAt_of_set hbumps hc with ⟨-, now', hstate, -⟩ | ⟨-, hc⟩
      · cases hstate
        exact le_rfl
      · exact (hmore hc).le
    · rcases countedAt_of_set hbumps hc with ⟨-, now', hstate, hkey, hstart⟩ | ⟨-, hc⟩
      · cases hstate
        exact absurd ⟨hkey.symm, hstart.symm⟩ hsame
      · obtain ⟨n, hn, hcount⟩ := h.held hc hle
        exact ⟨n, (upsertCounter_snd_of_ne hsame).trans hn, hcount⟩
  case distinct =>
    intro j k key start count hj hk
    rcases countedAt_of_set hbumps hj with ⟨rfl, now', hstate, hkey, hstart⟩ | ⟨hnej, hj⟩
    · rcases countedAt_of_set hbumps hk with ⟨rfl, -⟩ | ⟨-, hk⟩
      · rfl
      · -- an earlier bump of the window has counted less
        cases hstate
        subst hkey hstart
        exact absurd (hmore hk) (Nat.lt_irrefl _)
    · rcases countedAt_of_set hbumps hk with ⟨rfl, now', hstate, hkey, hstart⟩ | ⟨-, hk⟩
      · cases hstate
        subst hkey hstart
        exact absurd (hmore hj) (Nat.lt_irrefl _)
      · exact h.distinct hj hk

theorem CountsApart.step (h : CountsApart d) {e : BurstEvent} (hin : e.InTime d)
    (hstep : d.step e = some d') : CountsApart d' := by
  rcases BurstDesk.step_cases hstep with ⟨ms, -, rfl⟩ | ⟨checks, rfl⟩ | ⟨i, call, c, -, rfl⟩ |
    ⟨i, call, c, now, rfl, hi, hd⟩ | ⟨dbNow, hnear, rfl⟩
  · exact h.mono (Nat.le_add_right _ _) id fun _ => rfl
  · exact h.mono le_rfl (countedAt_of_append rfl) fun _ => rfl
  · refine h.mono le_rfl (fun hc => ?_) fun _ => rfl
    rcases countedAt_of_set rfl hc with ⟨-, now, hstate, -⟩ | ⟨-, hc⟩
    · cases hstate
    · exact hc
  · exact h.upsert (hin call c now hi) hd
  · exact h.mono le_rfl id fun hle => pruneCounters_of_le hnear hle d.counters

/-- The run: from a moment at which nothing is under way. -/
theorem countsApart_of_run {d₀ : BurstDesk} (hd₀ : d₀.bumps = [])
    (hrun : BurstDesk.Run (fun d e => e.InTime d) d₀ d) : CountsApart d := by
  induction hrun with
  | refl =>
    have hnone : ∀ {i key start count}, ¬ d₀.CountedAt i key start count := by
      rintro i key start count ⟨b, now, hb, -⟩
      rw [hd₀] at hb
      cases hb
    exact ⟨fun hc => absurd hc hnone, fun hc => absurd hc hnone, fun hc => absurd hc hnone⟩
  | tail _ hstep ih =>
    obtain ⟨e, hin, hstep⟩ := hstep
    exact ih.step hin hstep

/-! ### What a cap bounds -/

variable {limits : WriteLimits} {scope : Scope}

theorem mem_okCalls {p : Bump → Bool} {call : Nat} :
    call ∈ okCalls limits d p ↔ call < d.calls ∧ d.resultOf limits call = some none ∧
      ∃ b ∈ d.bumps, b.call = call ∧ p b = true := by
  rw [okCalls, Finset.mem_filter, Finset.mem_range]

/-- The bumps of an accepted charge have all counted, and none of them above its cap. -/
theorem counted_of_ok {call : Nat} (hok : d.resultOf limits call = some none) {b : Bump}
    (hb : b ∈ d.bumps) (hcall : b.call = call) :
    ∃ now count, b.state = .counted now count ∧ (count : ℚ) ≤ limits.max b.check.scope := by
  unfold BurstDesk.resultOf at hok
  dsimp only at hok
  split at hok
  · rename_i hall
    have hmem : b ∈ d.bumps.filter (·.call == call) := List.mem_filter.mpr ⟨hb, by simp [hcall]⟩
    have hcount : b.count?.isSome = true := List.all_eq_true.mp hall b hmem
    have hnone := Option.map_eq_none_iff.mp (Option.some.inj hok)
    have huntripped := List.find?_eq_none.mp hnone b hmem
    rcases hstate : b.state with _ | now | ⟨now, count⟩
    · simp [Bump.count?, hstate] at hcount
    · simp [Bump.count?, hstate] at hcount
    · refine ⟨now, count, rfl, ?_⟩
      simpa [Bump.tripped, Bump.count?, hstate] using huntripped
  · cases hok

/-- An accepted charge has a bump of its own that counted in the window. -/
theorem countedAt_of_mem_okCalls {call : Nat}
    (h : call ∈ okCalls limits d (Bump.inWindow scope key start)) :
    ∃ i count, d.CountedAt i key start count ∧ (count : ℚ) ≤ limits.max scope ∧
      ∃ b, d.bumps[i]? = some b ∧ b.call = call := by
  obtain ⟨-, hok, b, hb, hcall, hin⟩ := mem_okCalls.mp h
  obtain ⟨now, count, hstate, hle⟩ := counted_of_ok hok hb hcall
  obtain ⟨i, hi⟩ := List.getElem?_of_mem hb
  simp only [Bump.inWindow, Bump.readAt?, hstate, Option.any_some, Bool.and_eq_true,
    beq_iff_eq] at hin
  obtain ⟨⟨rfl, hkey⟩, hstart⟩ := hin
  exact ⟨i, count, ⟨b, now, hi, hstate, hkey, hstart⟩, hle, b, hi, hcall⟩

/-- A cap bounds the charges accepted in one window. -/
theorem CountsApart.card_inWindow_le (h : CountsApart d) (hmax : 0 ≤ limits.max scope) :
    ((okCalls limits d (Bump.inWindow scope key start)).card : ℚ) ≤ limits.max scope := by
  have hcounted : ∀ call ∈ okCalls limits d (Bump.inWindow scope key start), ∃ i count,
      d.CountedAt i key start count ∧ (count : ℚ) ≤ limits.max scope ∧
        ∃ b, d.bumps[i]? = some b ∧ b.call = call := fun _ => countedAt_of_mem_okCalls
  choose! place count hplace hle howner using hcounted
  have hmaps : ∀ call ∈ okCalls limits d (Bump.inWindow scope key start),
      count call ∈ Finset.Icc 1 ⌊limits.max scope⌋₊ := by
    intro call hcall
    exact Finset.mem_Icc.mpr ⟨h.pos (hplace call hcall), Nat.le_floor (hle call hcall)⟩
  have hinj : Set.InjOn count (okCalls limits d (Bump.inWindow scope key start)) := by
    intro call hcall call' hcall' heq
    have hsame := h.distinct (hplace call hcall) (heq ▸ hplace call' hcall')
    obtain ⟨b, hb, rfl⟩ := howner call hcall
    obtain ⟨b', hb', rfl⟩ := howner call' hcall'
    rw [hsame, hb'] at hb
    rw [Option.some.inj hb]
  have hcard := Finset.card_le_card_of_injOn count hmaps hinj
  rw [Nat.card_Icc, Nat.add_sub_cancel] at hcard
  calc ((okCalls limits d (Bump.inWindow scope key start)).card : ℚ)
      ≤ (⌊limits.max scope⌋₊ : ℚ) := Nat.cast_le.mpr hcard
    _ ≤ limits.max scope := Nat.floor_le hmax

/-- An interval as long as the window meets two windows at most. -/
theorem startAt_of_mem_interval {c : Check} {now since : Nat} (hge : since ≤ now)
    (hle : now ≤ since + c.scope.size) :
    c.startAt now = c.startAt since ∨ c.startAt now = c.startAt (since + c.scope.size) := by
  have hsize : 0 < c.scope.size := by cases c.scope <;> decide
  have hlow : since / c.scope.size ≤ now / c.scope.size := Nat.div_le_div_right hge
  have hhigh : now / c.scope.size ≤ (since + c.scope.size) / c.scope.size :=
    Nat.div_le_div_right hle
  have hnext : (since + c.scope.size) / c.scope.size = since / c.scope.size + 1 :=
    Nat.add_div_right since hsize
  unfold Check.startAt windowStart
  rcases Nat.eq_or_lt_of_le hlow with heq | hlt
  · exact .inl (by rw [heq])
  · have heq : now / c.scope.size = (since + c.scope.size) / c.scope.size := by omega
    exact .inr (by rw [heq])

theorem okCalls_inInterval_subset (since : Nat) :
    okCalls limits d (Bump.inInterval scope key since) ⊆
      okCalls limits d (Bump.inWindow scope key (windowStart scope.size since)) ∪
        okCalls limits d
          (Bump.inWindow scope key (windowStart scope.size (since + scope.size))) := by
  intro call hcall
  obtain ⟨hlt, hok, b, hb, rfl, hin⟩ := mem_okCalls.mp hcall
  simp only [Bump.inInterval, Bool.and_eq_true, beq_iff_eq, Option.any_eq_true,
    decide_eq_true_eq] at hin
  obtain ⟨⟨rfl, hkey⟩, now, hnow, hge, hle⟩ := hin
  rw [Finset.mem_union, mem_okCalls, mem_okCalls]
  rcases startAt_of_mem_interval hge hle with hstart | hstart
  all_goals
    unfold Check.startAt at hstart
  · exact .inl ⟨hlt, hok, b, hb, rfl, by simp [Bump.inWindow, hkey, hnow, Check.startAt, hstart]⟩
  · exact .inr ⟨hlt, hok, b, hb, rfl, by simp [Bump.inWindow, hkey, hnow, Check.startAt, hstart]⟩

/-- Twice the cap bounds the charges accepted in an interval as long as the window. -/
theorem CountsApart.card_inInterval_le (h : CountsApart d) (hmax : 0 ≤ limits.max scope)
    (since : Nat) :
    ((okCalls limits d (Bump.inInterval scope key since)).card : ℚ) ≤ 2 * limits.max scope := by
  have hsubset : okCalls limits d (Bump.inInterval scope key since) ⊆ _ :=
    okCalls_inInterval_subset since
  have hunion := (Finset.card_le_card hsubset).trans (Finset.card_union_le _ _)
  calc ((okCalls limits d (Bump.inInterval scope key since)).card : ℚ)
      ≤ (okCalls limits d (Bump.inWindow scope key (windowStart scope.size since))).card +
          (okCalls limits d
            (Bump.inWindow scope key (windowStart scope.size (since + scope.size)))).card := by
        exact_mod_cast hunion
    _ ≤ limits.max scope + limits.max scope :=
        add_le_add (h.card_inWindow_le hmax) (h.card_inWindow_le hmax)
    _ = 2 * limits.max scope := (two_mul _).symm

/-- In every run in which no upsert comes more than 34 hours after its window began: the cap
bounds the charges of one window that are accepted, twice the cap those that read their clock in
an interval as long as the window, and a prune leaves the row of a window that has not ended. -/
theorem burstCaps_of_run (hmax : ∀ scope, 1 ≤ limits.max scope) {d₀ : BurstDesk}
    (hd₀ : d₀.bumps = []) (hrun : BurstDesk.Run (fun d e => e.InTime d) d₀ d) (scope : Scope)
    (key : String) :
    (∀ start, ((okCalls limits d (Bump.inWindow scope key start)).card : ℚ) ≤ limits.max scope) ∧
    (∀ since, ((okCalls limits d (Bump.inInterval scope key since)).card : ℚ) ≤
      2 * limits.max scope) ∧
    ∀ dbNow d', d.step (.prune dbNow) = some d' → ∀ start, d.utc < start * 1000 + scope.size →
      d'.counters key start = d.counters key start := by
  have happart := countsApart_of_run hd₀ hrun
  have hnonneg : 0 ≤ limits.max scope := zero_le_one.trans (hmax scope)
  refine ⟨fun start => happart.card_inWindow_le hnonneg,
    fun since => happart.card_inInterval_le hnonneg since, fun dbNow d' hstep start hopen => ?_⟩
  change d.prune dbNow = some d' at hstep
  unfold BurstDesk.prune at hstep
  split at hstep
  · cases hstep
    exact prune_keeps_open_window ‹_› hopen d.counters
  · cases hstep

/-! ### Two charges on one board -/

/-- The events in order. -/
def BurstDesk.runAll : BurstDesk → List BurstEvent → Option BurstDesk
  | d, [] => some d
  | d, e :: events => (d.step e).bind fun d' => d'.runAll events

theorem BurstDesk.runAll_cons {e : BurstEvent} {events : List BurstEvent}
    (h : d.runAll (e :: events) = some d') : ∃ m, d.step e = some m ∧ m.runAll events = some d' :=
  Option.bind_eq_some_iff.mp h

theorem BurstDesk.utc_le_of_step {e : BurstEvent} (h : d.step e = some d') : d.utc ≤ d'.utc := by
  rcases step_cases h with ⟨ms, -, rfl⟩ | ⟨_, rfl⟩ | ⟨_, _, _, -, rfl⟩ | ⟨_, _, _, _, -, -, rfl⟩ |
    ⟨_, -, rfl⟩
  · exact Nat.le_add_right _ _
  all_goals exact le_rfl

theorem BurstDesk.utc_le_of_runAll {events : List BurstEvent} (h : d.runAll events = some d') :
    d.utc ≤ d'.utc := by
  induction events generalizing d with
  | nil => exact (congrArg BurstDesk.utc (Option.some.inj h)).le
  | cons e events ih =>
    obtain ⟨m, hstep, hrest⟩ := runAll_cons h
    exact (utc_le_of_step hstep).trans (ih hrest)

theorem BurstDesk.run_of_runAll {events : List BurstEvent} (h : d.runAll events = some d') :
    BurstDesk.Run (fun _ _ => True) d d' := by
  induction events generalizing d with
  | nil => exact Option.some.inj h ▸ .refl
  | cons e events ih =>
    obtain ⟨m, hstep, hrest⟩ := runAll_cons h
    exact (ih hrest).head ⟨e, trivial, hstep⟩

/-- In the first 34 hours of all every upsert is in time. -/
theorem BurstDesk.run_of_runAll_early {events : List BurstEvent} (h : d.runAll events = some d')
    (hearly : d'.utc / 1000 ≤ 34 * 3600) : BurstDesk.Run (fun d e => e.InTime d) d d' := by
  induction events generalizing d with
  | nil => exact Option.some.inj h ▸ .refl
  | cons e events ih =>
    obtain ⟨m, hstep, hrest⟩ := runAll_cons h
    have hutc := Nat.div_le_div_right (c := 1000) (utc_le_of_runAll h)
    refine (ih hrest).head ⟨e, ?_, hstep⟩
    cases e with
    | upsert i => exact fun call c now _ => (hutc.trans hearly).trans (Nat.le_add_left _ _)
    | _ => trivial

/-- Every cap is one. -/
def WriteLimits.ones : WriteLimits := ⟨1, 1, 1⟩

theorem WriteLimits.one_le_ones (scope : Scope) : 1 ≤ WriteLimits.ones.max scope := by
  cases scope <;> exact le_rfl

/-- An empty table at the start of a window. -/
def BurstDesk.quiet : BurstDesk := ⟨0, fun _ _ => none, [], 0⟩

/-- A charge of board 1 that knows neither voter nor domain. -/
def BurstEvent.chargeBoard : BurstEvent := .charge 1 none none

/-- Of two writes to the board in one hour one is accepted. -/
theorem burstCaps_of_run_two_writes :
    ∃ d, BurstDesk.Run (fun d e => e.InTime d) .quiet d ∧ d.calls = 2 ∧
      (okCalls .ones d (Bump.inWindow .tenantHour (tenantKey 1) 0)).card = 1 ∧
      ((okCalls .ones d (Bump.inWindow .tenantHour (tenantKey 1) 0)).card : ℚ) ≤ 1 := by
  let events : List BurstEvent :=
    [.chargeBoard, .chargeBoard, .read 0, .read 1, .upsert 1, .upsert 0]
  have hend : (BurstDesk.quiet.runAll events).map (fun d => (d.utc, d.calls,
      (okCalls .ones d (Bump.inWindow .tenantHour (tenantKey 1) 0)).card)) = some (0, 2, 1) := by
    decide +kernel
  obtain ⟨d, hrun, hd⟩ := Option.map_eq_some_iff.mp hend
  obtain ⟨hutc, hrest⟩ := Prod.mk.inj hd
  obtain ⟨hcalls, hcard⟩ := Prod.mk.inj hrest
  have hrun := BurstDesk.run_of_runAll_early hrun (by rw [hutc]; decide)
  obtain ⟨hwindow, -⟩ := burstCaps_of_run WriteLimits.one_le_ones rfl hrun .tenantHour (tenantKey 1)
  exact ⟨d, hrun, hcalls, hcard, hwindow 0⟩

/-- An upsert that comes 34 hours and a second after its window began may find the row pruned,
and is accepted like the one before the prune. And upserts of three windows that come together
are accepted together. -/
theorem late_upserts_pass_the_cap :
    (∃ d, BurstDesk.Run (fun _ _ => True) .quiet d ∧
      (okCalls .ones d (Bump.inWindow .tenantHour (tenantKey 1) 0)).card = 2) ∧
    ∃ d d', BurstDesk.Run (fun _ _ => True) .quiet d ∧ BurstDesk.Run (fun _ _ => True) d d' ∧
      d.utc = d'.utc ∧ (okCalls .ones d (fun b => b.check.scopeKey == tenantKey 1)).card = 0 ∧
        (okCalls .ones d' (fun b => b.check.scopeKey == tenantKey 1)).card = 3 := by
  constructor
  · -- the counter is pruned between the two upserts of one window
    let events : List BurstEvent :=
      [.chargeBoard, .chargeBoard, .read 0, .read 1, .upsert 0, .elapse (122401 * 1000),
        .prune (122401 + 14 * 3600), .upsert 1]
    have hend : (BurstDesk.quiet.runAll events).map (fun d =>
        (okCalls .ones d (Bump.inWindow .tenantHour (tenantKey 1) 0)).card) = some 2 := by
      decide +kernel
    obtain ⟨d, hrun, hd⟩ := Option.map_eq_some_iff.mp hend
    exact ⟨d, BurstDesk.run_of_runAll hrun, hd⟩
  · -- three bumps of different hours count at one instant
    let before : List BurstEvent :=
      [.chargeBoard, .read 0, .elapse (3600 * 1000), .chargeBoard, .read 1,
        .elapse (3600 * 1000), .chargeBoard, .read 2]
    let after : List BurstEvent := [.upsert 0, .upsert 1, .upsert 2]
    have hbefore : (BurstDesk.quiet.runAll before).map (fun d => (d.utc,
        (okCalls .ones d (fun b => b.check.scopeKey == tenantKey 1)).card)) =
          some (7200000, 0) := by decide +kernel
    have hafter : ((BurstDesk.quiet.runAll before).bind (·.runAll after)).map (fun d => (d.utc,
        (okCalls .ones d (fun b => b.check.scopeKey == tenantKey 1)).card)) =
          some (7200000, 3) := by decide +kernel
    obtain ⟨d, hrun, hd⟩ := Option.map_eq_some_iff.mp hbefore
    obtain ⟨d', hrun', hd'⟩ := Option.map_eq_some_iff.mp hafter
    rw [hrun] at hrun'
    obtain ⟨hutc, hcard⟩ := Prod.mk.inj hd
    obtain ⟨hutc', hcard'⟩ := Prod.mk.inj hd'
    exact ⟨d, d', BurstDesk.run_of_runAll hrun, BurstDesk.run_of_runAll hrun',
      hutc.trans hutc'.symm, hcard, hcard'⟩

end Feedbase
