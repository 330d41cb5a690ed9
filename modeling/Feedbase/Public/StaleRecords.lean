import Feedbase.Public.PortalCache
import Feedbase.Lib.Turns

/-!
# Records older than a change

A record is read in one statement and kept in another step, and between the two anything may
happen: a change of the workspace, and the dropping of its key. Then the old record is kept after
all. Nor does every change drop the key. Whoever asks after a change has been answered gets a
record from after the change as long as no older record was on its way when the answer was given,
and none was left in the cache.

## Main definitions

* `storing`, `finishUpdate` — what is left of a call before its last step
* `StaleLoad`, `StaleEntry`, `Invalidates` — older records on their way and in the cache
* `PortalPoint`, `PortalStep` — the steps of a call
* `FreshRecords` — the invariant after the answer
* `PortalChange` — a statement that changes a cached record

## Main results

* `FreshRecords.step` — every step keeps it
* `resolves_fresh_record` — whoever asks later gets a later record
* `load_overtakes_invalidation` — a record that is kept after its key was dropped
-/

namespace Feedbase

variable {cfg : CacheConfig} {s s' : Portal} {key : Text} {n m : Nat} {l : Loaded}

/-! ### Older records -/

/-- A call that has read a record and is about to keep it. -/
def storing (cfg : CacheConfig) (key : Text) (l : Loaded) : PortalProg (Option PublicTenant) := do
  cacheSet cfg key l
  return some (publicTenant l)

/-- An `updateTenant` that is about to drop keys. -/
def finishUpdate (subdomains : List String) : PortalProg (Option PublicTenant) := do
  invalidateTenantCache subdomains
  return none

/-- A call is about to keep a record that was read before the `n`-th statement. -/
def StaleLoad (cfg : CacheConfig) (key : Text) (n : Nat) (P : PortalPool) : Prop :=
  ∃ c ∈ P.calls, ∃ l, c.prog = storing cfg key l ∧ l.readAt < n

/-- The cache has such a record, and it has not expired. -/
def StaleEntry (key : Text) (n : Nat) (s : Portal) : Prop :=
  ∃ e l, s.cache.get? key = some e ∧ e.isExpired s.millis = false ∧ e.value = some l ∧
    l.readAt < n

/-- The call is about to drop the key. -/
def Invalidates (key : Text) (P : PortalPool) (i : Nat) : Prop :=
  ∃ c subdomains, P.calls[i]? = some c ∧ c.prog = finishUpdate subdomains ∧
    key ∈ invalidatedKeys subdomains

/-- Entries only go, and time does not run backwards. -/
structure Shrinks (s s' : Portal) : Prop where
  entries : ∀ k e, s'.cache.get? k = some e → s.cache.get? k = some e
  millis : s.millis ≤ s'.millis
  statements : s.statements ≤ s'.statements

theorem Shrinks.refl (s : Portal) : Shrinks s s := ⟨fun _ _ h => h, Nat.le_refl _, Nat.le_refl _⟩

theorem Shrinks.staleEntry (h : Shrinks s s') (hstale : StaleEntry key n s') :
    StaleEntry key n s := by
  obtain ⟨e, l, he, hlive, hvalue, hlt⟩ := hstale
  exact ⟨e, l, h.entries key e he, Cache.isExpired_of_le hlive h.millis, hvalue, hlt⟩

theorem Shrinks.after (s : Portal) (w : World) : Shrinks s (s.after w) :=
  ⟨fun _ _ h => h, Nat.le_refl _, Nat.le_succ _⟩

theorem Shrinks.looked (s : Portal) (key : Text) : Shrinks s (s.looked key) where
  entries k e he := by
    change (Cache.get s.millis key s.cache).2.get? k = some e at he
    rw [Cache.get?_get] at he
    split at he
    · cases he
    · exact he
  millis := Nat.le_refl _
  statements := Nat.le_refl _

/-- What is left after keys have been dropped. -/
theorem get?_dropped (keys : List Text) :
    (s.dropped keys).cache.get? key = if key ∈ keys then none else s.cache.get? key := by
  change (keys.foldl (fun store k => Cache.invalidate k store) s.cache).get? key = _
  generalize s.cache = store
  induction keys generalizing store with
  | nil => rfl
  | cons k keys ih =>
    rw [List.foldl_cons, ih, Cache.invalidate, OrderedMap.get?_delete]
    by_cases hk : key = k
    · simp [hk]
    · simp [hk]

theorem Shrinks.dropped (s : Portal) (keys : List Text) : Shrinks s (s.dropped keys) where
  entries k e he := by
    rw [get?_dropped] at he
    split at he
    · cases he
    · exact he
  millis := Nat.le_refl _
  statements := Nat.le_refl _

/-! ### The steps of a call -/

/-- How far a call is. -/
inductive PortalPoint where
  | looks (value : String)
  | selects (value : String)
  | stores (key : Text) (l : Loaded)
  | ended (key : Text) (r : Except Failure (Option PublicTenant))
  | writes (p : { p : PortalProg (Option PublicTenant) // Prog.Within Shrinks p })

namespace PortalPoint

/-- The program that is left. -/
def prog (cfg : CacheConfig) : PortalPoint → PortalProg (Option PublicTenant)
  | looks value => do
    let reply ← tryCatch (do
      let rows ← Cache.wrap (cacheGet (portalKey value)) (cacheSet cfg (portalKey value))
        (selectPortalRow value)
      answerTenant rows) tenantFailure
    return some reply.result
  | selects value => do
    let reply ← tryCatch (do
      let rows ← Cache.loadAndKeep (cacheSet cfg (portalKey value)) (selectPortalRow value)
      answerTenant rows) tenantFailure
    return some reply.result
  | stores key l => storing cfg key l
  | ended _ r => Prog.ofExcept r
  | writes p => p.1

/-- The key that the call is about. -/
def about : PortalPoint → Option Text
  | looks value | selects value => some (portalKey value)
  | stores key _ | ended key _ => some key
  | writes _ => none

end PortalPoint

/-- What one step of a call does. -/
inductive PortalStep (cfg : CacheConfig) : PortalPoint → Portal → PortalPoint → Portal → Prop where
  | hits {value : String} {s : Portal} {l : Loaded}
      (h : (Cache.get s.millis (portalKey value) s.cache).1 = some l) :
      PortalStep cfg (.looks value) s (.ended (portalKey value) (.ok (some (publicTenant l))))
        (s.looked (portalKey value))
  | misses {value : String} {s : Portal} :
      PortalStep cfg (.looks value) s (.selects value) (s.looked (portalKey value))
  | reads {value : String} {s : Portal} {row : PortalRow} :
      PortalStep cfg (.selects value) s (.stores (portalKey value) ⟨row, s.statements + 1⟩)
        (s.after s.world)
  | fails {value : String} {s : Portal} {e : Failure} :
      PortalStep cfg (.selects value) s (.ended (portalKey value) (.error e)) (s.after s.world)
  | keeps {key : Text} {s : Portal} {l : Loaded} :
      PortalStep cfg (.stores key l) s (.ended key (.ok (some (publicTenant l)))) (s.kept cfg key l)
  | writes {p q : { p : PortalProg (Option PublicTenant) // Prog.Within Shrinks p }} {s s' : Portal}
      (h : Shrinks s s') : PortalStep cfg (.writes p) s (.writes q) s'

/-- Every program is one of `Shrinks` when it is only the database that it changes. -/
theorem within_onWorld {α : Type} (p : Handler α) : Prog.Within Shrinks (onWorld p) := by
  have hany : Prog.Within (fun _ _ => True) p := by
    induction p with
    | ret a => trivial
    | fail e => trivial
    | act ready next cont ih => exact fun w => ⟨trivial, ih w⟩
  exact hany.zoom fun s w _ => Shrinks.after s w

theorem within_thenResumes {α : Type} (p : Handler α) : Prog.Within Shrinks (thenResumes p) :=
  .bind (within_onWorld p) fun _ => .read Shrinks.refl _

theorem within_updateTenantCached (id : Nat) (data : TenantData) :
    Prog.Within Shrinks (updateTenantCached id data) := by
  refine .bind (within_onWorld _) fun r => .bind (within_onWorld _) fun allowed => ?_
  refine .ite (.throw _) (.ite (.pure _) (.tryCatch ?_ fun e => ?_))
  · refine .bind (within_onWorld _) fun _ => .bind (within_onWorld _) fun touched => ?_
    exact .bind (.write fun s => Shrinks.dropped s _) fun _ => .pure _
  · cases e <;> exact .throw _

/-- The point a request starts at. -/
def PortalRequest.start : PortalRequest → PortalPoint
  | .resolvePublicTenant identifier =>
    if portalName identifier = "" then
      .ended (portalKey "") (.error (.rejected 400 "tenant_not_found"))
    else .looks (portalName identifier)
  | .updateTenant id data =>
    .writes ⟨_, .bind (within_updateTenantCached id data) fun _ => .pure none⟩
  | .updateWorkspace id data => .writes ⟨_, within_thenResumes (Feedbase.updateWorkspace id data)⟩
  | .deleteWorkspace id => .writes ⟨_, within_thenResumes (Feedbase.deleteWorkspace id)⟩
  | .setAccountPlan email fields =>
    .writes ⟨_, within_thenResumes (Feedbase.setAccountPlan email fields)⟩

theorem portalHandler_eq (r : PortalRequest) : portalHandler cfg r = r.start.prog cfg := by
  cases r with
  | resolvePublicTenant identifier =>
    rw [portalHandler, resolvePublicTenant, PortalRequest.start]
    by_cases hempty : portalName identifier = ""
    · rw [if_pos hempty, if_pos hempty]
      rfl
    · rw [if_neg hempty, if_neg hempty]
      rfl
  | updateTenant id data => rfl
  | updateWorkspace id data => rfl
  | deleteWorkspace id => rfl
  | setAccountPlan email fields => rfl

/-- Every step of a call leads to one of the points. -/
theorem points_portal : Points (PortalPoint.prog cfg) (PortalStep cfg) := by
  intro φ
  cases φ with
  | looks value =>
    intro ready next cont s hprog _
    cases hprog
    cases hget : (Cache.get s.millis (portalKey value) s.cache).1 with
    | some l =>
      refine ⟨.ended (portalKey value) (.ok (some (publicTenant l))), ?_, .hits hget⟩
      dsimp only
      rw [hget]
      rfl
    | none =>
      refine ⟨.selects value, ?_, .misses⟩
      dsimp only
      rw [hget]
      rfl
  -- the statement fails, finds the row, or finds none
  | selects value =>
    intro ready next cont s hprog _
    cases hprog
    by_cases hfails : s.world.fails .tenantsSelect = true
    · refine ⟨.ended (portalKey value) (.error (.rejected 500 "failed_to_get_tenant")), ?_, ?_⟩
      · dsimp only
        rw [if_pos hfails]
        rfl
      · dsimp only
        rw [if_pos hfails]
        exact .fails
    · dsimp only
      rw [if_neg hfails]
      cases s.world.db.portalRow value with
      | some row => exact ⟨.stores (portalKey value) ⟨row, s.statements + 1⟩, rfl, .reads⟩
      | none => exact ⟨.ended (portalKey value) (.error _), rfl, .fails⟩
  | stores key l =>
    intro ready next cont s hprog _
    cases hprog
    exact ⟨.ended key (.ok (some (publicTenant l))), rfl, .keeps⟩
  | ended key r =>
    cases r with
    | ok t => exact leadsOn_ret t
    | error e => exact leadsOn_fail e
  | writes p =>
    obtain ⟨p, hp⟩ := p
    intro ready next cont s hprog _
    obtain rfl : p = .act ready next cont := hprog
    exact ⟨.writes ⟨cont s, (hp s).2⟩, rfl, .writes (hp s).1⟩

/-! ### After the answer -/

/-- From the `n`-th statement on nothing older is kept under the key, and the calls from the
`m`-th on have been told nothing older. -/
structure FreshRecords (key : Text) (n m : Nat) (s : Portal) (points : List PortalPoint) : Prop where
  statements : n ≤ s.statements
  entry : ¬ StaleEntry key n s
  load : ∀ l, .stores key l ∈ points → n ≤ l.readAt
  told : ∀ j t, m ≤ j → points[j]? = some (.ended key (.ok (some t))) → n ≤ t.readAt

/-- No older record is on its way. -/
structure NoOldLoad (key : Text) (n : Nat) (s : Portal) (points : List PortalPoint) : Prop where
  statements : n ≤ s.statements
  load : ∀ l, .stores key l ∈ points → n ≤ l.readAt

variable {points : List PortalPoint} {φ φ' : PortalPoint} {i j : Nat}

theorem PortalStep.statements_le (h : PortalStep cfg φ s φ' s') : s.statements ≤ s'.statements := by
  cases h with
  | hits _ => exact Nat.le_refl _
  | misses => exact Nat.le_refl _
  | reads => exact Nat.le_succ _
  | fails => exact Nat.le_succ _
  | keeps => exact Nat.le_refl _
  | writes h => exact h.statements

/-- A record that a step takes on its way has been read in this step. -/
theorem PortalStep.load_eq (h : PortalStep cfg φ s φ' s') (hφ' : φ' = .stores key l) :
    s.statements ≤ l.readAt := by
  cases h with
  | reads =>
    cases hφ'
    exact Nat.le_succ _
  | hits _ => cases hφ'
  | misses => cases hφ'
  | fails => cases hφ'
  | keeps => cases hφ'
  | writes _ => cases hφ'

/-- What is cached after a step was cached before it, or was on its way. -/
theorem PortalStep.entry_cases (h : PortalStep cfg φ s φ' s') (hstale : StaleEntry key n s') :
    StaleEntry key n s ∨ ∃ l, φ = .stores key l ∧ l.readAt < n := by
  cases h with
  | hits _ => exact .inl ((Shrinks.looked s _).staleEntry hstale)
  | misses => exact .inl ((Shrinks.looked s _).staleEntry hstale)
  | reads => exact .inl ((Shrinks.after s _).staleEntry hstale)
  | fails => exact .inl ((Shrinks.after s _).staleEntry hstale)
  | writes h => exact .inl (h.staleEntry hstale)
  | @keeps k _ l =>
    obtain ⟨e, l', he, hlive, hvalue, hlt⟩ := hstale
    let c : Cache.Call Loaded := ⟨s.millis, .set k (some l) cfg.ttlTenant⟩
    have hrun : (c.run cfg.maxEntries s.cache).get? key = some e := he
    rcases Cache.get?_run hrun with ⟨ttlMs, hop, -, -⟩ | ⟨hold, -⟩
    · -- the record has just been kept
      obtain ⟨rfl, hloaded, -⟩ := Cache.Op.set.inj hop
      rw [hvalue] at hloaded
      cases hloaded
      exact .inr ⟨l, rfl, hlt⟩
    · exact .inl ⟨e, l', hold, hlive, hvalue, hlt⟩

/-- What a call is told was on its way, or was cached. -/
theorem PortalStep.told_le {t : PublicTenant} (h : PortalStep cfg φ s φ' s')
    (hload : ∀ l, φ = .stores key l → n ≤ l.readAt) (hentry : ¬ StaleEntry key n s)
    (hφ' : φ' = .ended key (.ok (some t))) : n ≤ t.readAt := by
  cases h with
  | @hits value s l hget =>
    cases hφ'
    obtain ⟨e, he, hlive, hvalue⟩ := Cache.get_fst_eq_some_iff.mp hget
    by_contra hlt
    exact hentry ⟨e, l, he, hlive, hvalue, Nat.not_le.mp hlt⟩
  | @keeps k s l =>
    cases hφ'
    exact hload l rfl
  | misses => cases hφ'
  | reads => cases hφ'
  | fails => cases hφ'
  | writes _ => cases hφ'

theorem NoOldLoad.step (h : NoOldLoad key n s points) (hstep : PortalStep cfg φ s φ' s') :
    NoOldLoad key n s' (points.set i φ') where
  statements := h.statements.trans hstep.statements_le
  load l hl := by
    rcases List.mem_or_eq_of_mem_set hl with hold | hnew
    · exact h.load l hold
    · exact h.statements.trans (hstep.load_eq hnew.symm)

/-- Every step of a call keeps the invariant. -/
theorem FreshRecords.step (h : FreshRecords key n m s points) (hφ : points[i]? = some φ)
    (hstep : PortalStep cfg φ s φ' s') : FreshRecords key n m s' (points.set i φ') where
  statements := h.statements.trans hstep.statements_le
  entry hstale := by
    rcases hstep.entry_cases hstale with hold | ⟨l, rfl, hlt⟩
    · exact h.entry hold
    · exact absurd (h.load l (List.mem_of_getElem? hφ)) (Nat.not_le.mpr hlt)
  load := (NoOldLoad.step ⟨h.statements, h.load⟩ hstep).load
  told j t hj ht := by
    rcases getElem?_set_cases ht with ⟨rfl, hnew⟩ | ⟨-, hold⟩
    · refine hstep.told_le (fun l hl => ?_) h.entry hnew.symm
      rw [hl] at hφ
      exact h.load l (List.mem_of_getElem? hφ)
    · exact h.told j t hj hold

theorem PortalRequest.start_ne_stores (r : PortalRequest) : r.start ≠ .stores key l := by
  cases r with
  | resolvePublicTenant identifier =>
    rw [start]
    split <;> nofun
  | updateTenant id data => nofun
  | updateWorkspace id data => nofun
  | deleteWorkspace id => nofun
  | setAccountPlan email fields => nofun

theorem PortalRequest.start_ne_told {t : Option PublicTenant} (r : PortalRequest) :
    r.start ≠ .ended key (.ok t) := by
  cases r with
  | resolvePublicTenant identifier =>
    rw [start]
    split <;> nofun
  | updateTenant id data => nofun
  | updateWorkspace id data => nofun
  | deleteWorkspace id => nofun
  | setAccountPlan email fields => nofun

theorem NoOldLoad.arrive (h : NoOldLoad key n s points) (r : PortalRequest) :
    NoOldLoad key n s (points ++ [r.start]) where
  statements := h.statements
  load l hl := by
    rcases List.mem_append.mp hl with hold | hnew
    · exact h.load l hold
    · exact absurd (List.mem_singleton.mp hnew).symm r.start_ne_stores

theorem FreshRecords.arrive (h : FreshRecords key n m s points) (r : PortalRequest) :
    FreshRecords key n m s (points ++ [r.start]) where
  statements := h.statements
  entry := h.entry
  load := (NoOldLoad.arrive ⟨h.statements, h.load⟩ r).load
  told j t hj ht := by
    by_cases hlt : j < points.length
    · rw [List.getElem?_append_left hlt] at ht
      exact h.told j t hj ht
    · rw [List.getElem?_append_right (Nat.not_lt.mp hlt)] at ht
      have hstart := List.mem_singleton.mp (List.mem_of_getElem? ht)
      exact absurd hstart.symm r.start_ne_told

theorem FreshRecords.env (h : FreshRecords key n m s points) (e : PortalEnv) :
    FreshRecords key n m ((portalSystem cfg).env e s) points where
  statements := h.statements
  entry hstale := by
    have hshrinks : Shrinks s ((portalSystem cfg).env e s) :=
      ⟨fun _ _ he => he, Nat.le_add_right _ _, Nat.le_refl _⟩
    exact h.entry (hshrinks.staleEntry hstale)
  load := h.load
  told := h.told

/-! ### Runs -/

/-- The point of a call is about the key of its request. -/
def AboutRequest (r : PortalRequest) (φ : PortalPoint) (_ : Portal) : Prop :=
  ∀ identifier, r = .resolvePublicTenant identifier →
    φ.about = some (portalKey (portalName identifier))

theorem PortalRequest.about_start (r : PortalRequest) (s : Portal) : AboutRequest r r.start s := by
  rintro identifier rfl
  rw [start]
  by_cases hempty : portalName identifier = ""
  · rw [if_pos hempty, hempty]
    rfl
  · rw [if_neg hempty]
    rfl

theorem PortalStep.about_eq (h : PortalStep cfg φ s φ' s') : φ'.about = φ.about := by
  cases h <;> rfl

/-- Every call is at a point about the key of its request. -/
structure AtPortal (cfg : CacheConfig) (P : PortalPool) (points : List PortalPoint) : Prop where
  at_points : AtPoints (PortalPoint.prog cfg) P points
  about : Tracks.Knows (fun _ => True) AboutRequest P points

/-- What every arrival, every step of the environment and every step of a call keeps. -/
theorem AtPortal.inv_of_run {I : Portal → List PortalPoint → Prop} {P Q : PortalPool}
    (harrive : ∀ s points r, I s points → I s (points ++ [PortalRequest.start r]))
    (henv : ∀ s points e, I s points → I ((portalSystem cfg).env e s) points)
    (hstep : ∀ s s' points i φ φ', points[i]? = some φ → PortalStep cfg φ s φ' s' →
      I s points → I s' (points.set i φ'))
    (hat : AtPortal cfg P points) (hinit : I P.state points)
    (hrun : (portalSystem cfg).Run (fun _ _ => True) P Q) :
    ∃ points, AtPortal cfg Q points ∧ I Q.state points := by
  have hinv : ∃ points, AtPoints (PortalPoint.prog cfg) Q points ∧
      Tracks.Knows (fun _ => True) AboutRequest Q points ∧ I Q.state points := by
    refine Points.inv_of_run (I := fun R points =>
      Tracks.Knows (fun _ => True) AboutRequest R points ∧ I R.state points)
      PortalRequest.start points_portal portalHandler_eq hat.at_points ⟨hat.about, hinit⟩
      ?_ ?_ ?_ hrun
    · intro R points r hat h
      exact ⟨h.1.arrive hat.length_eq (r.about_start R.state), harrive _ _ r h.2⟩
    · intro R points e h
      exact ⟨⟨trivial, h.1.call⟩, henv _ _ e h.2⟩
    · intro R R' points i c φ φ' _ _ hc hφ hT hcalls h
      refine ⟨h.1.set hcalls trivial ?_ fun _ _ _ _ _ _ h => h, hstep _ _ _ i φ φ' hφ hT h.2⟩
      intro identifier hr
      rw [hT.about_eq]
      exact h.1.call i c φ hc hφ identifier hr
  obtain ⟨points, hpoints, habout, hI⟩ := hinv
  exact ⟨points, ⟨hpoints, habout⟩, hI⟩

theorem AtPortal.start (s : Portal) : AtPortal cfg ⟨s, []⟩ [] where
  at_points := .nil
  about := ⟨trivial, fun _ _ _ hc => by cases hc⟩

/-- A request that changes workspaces. -/
def PortalRequest.writes : PortalRequest → Bool
  | .resolvePublicTenant _ => false
  | _ => true

/-- What the portal may be told of a workspace. -/
def Db.portalOf (db : Db) (id : Nat) : Option (PortalRow × Bool) :=
  (db.tenants.byId id).map fun t => (t.portalRow, t.isActive)

/-- A statement of the `i`-th call changes what the portal may be told of a workspace, and the key
is that of its old or its new subdomain. -/
structure PortalChange (cfg : CacheConfig) (P P' : PortalPool) (i : Nat) (key : Text) : Prop where
  moves : (portalSystem cfg).move P (.run i) = some P'
  writer : ∃ c, P.calls[i]? = some c ∧ c.request.writes = true
  changes : ∃ id, P.state.world.db.portalOf id ≠ P'.state.world.db.portalOf id ∧
    ∃ t, (t ∈ P.state.world.db.tenants ∨ t ∈ P'.state.world.db.tenants) ∧ t.id = id ∧
      key = portalKey (portalName (some t.subdomain))

/-- The `i`-th call returns. -/
structure Answers (cfg : CacheConfig) (Q Q' : PortalPool) (i : Nat) : Prop where
  moves : (portalSystem cfg).move Q (.run i) = some Q'
  returned : ∃ c a, Q'.calls[i]? = some c ∧ c.outcome = some (.ok a)

/-- Dropping the key leaves nothing under it. -/
theorem not_staleEntry_of_invalidates {Q Q' : PortalPool}
    (hmove : (portalSystem cfg).move Q (.run i) = some Q') (h : Invalidates key Q i) :
    ¬ StaleEntry key n Q'.state := by
  obtain ⟨c, subdomains, hc, hprog, hkey⟩ := h
  have hmove' := System.move_run (S := portalSystem cfg) hc hprog rfl
  rw [hmove] at hmove'
  cases hmove'
  rintro ⟨e, l, he, -⟩
  change (Q.state.dropped (invalidatedKeys subdomains)).cache.get? key = some e at he
  rw [get?_dropped, if_pos hkey] at he
  cases he

/-- Only a call that has ended with it has told something. -/
theorem PortalPoint.eq_ended {c : Call Portal Failure (Option PublicTenant) PortalRequest}
    {t : PublicTenant} (hprog : c.prog = φ.prog cfg) (habout : φ.about = some key)
    (hout : c.outcome = some (.ok (some t))) : φ = .ended key (.ok (some t)) := by
  obtain ⟨r, since, p⟩ := c
  obtain rfl : p = φ.prog cfg := hprog
  cases φ with
  | looks value => cases hout
  | selects value => cases hout
  | stores k l => cases hout
  | writes p => cases habout
  | ended k r =>
    cases habout
    cases r with
    | error e => cases hout
    | ok a =>
      obtain rfl : a = some t := by
        change some (Except.ok a) = some (Except.ok (some t)) at hout
        simpa using hout
      rfl

/-- One step is a run. -/
theorem run_single {P Q : PortalPool} (hmove : (portalSystem cfg).move P (.run i) = some Q) :
    (portalSystem cfg).Run (fun _ _ => True) P Q :=
  Relation.ReflTransGen.single ⟨⟨_, hmove⟩, trivial⟩

/-- No older record is on its way or cached when a change has been answered, unless one was before
the answer. -/
theorem AtPortal.fresh_of_answer {Q Q' : PortalPool} (hat : AtPortal cfg Q points)
    (hn : n ≤ Q.state.statements) (hmove : (portalSystem cfg).move Q (.run i) = some Q')
    (hload : ¬ StaleLoad cfg key n Q)
    (hentry : ¬ StaleEntry key n Q.state ∨ Invalidates key Q i) :
    ∃ points, AtPortal cfg Q' points ∧ FreshRecords key n Q'.calls.length Q'.state points := by
  -- nobody holds a row that was read before the change
  have hloads : ∀ l, .stores key l ∈ points → n ≤ l.readAt := by
    intro l hl
    obtain ⟨j, hj⟩ := List.getElem?_of_mem hl
    obtain ⟨c, hc, hprog⟩ := hat.at_points.prog_eq hj
    by_contra hlt
    exact hload ⟨c, List.mem_of_getElem? hc, l, hprog, Nat.not_le.mp hlt⟩
  rcases hentry with hentry | hinvalidates
  · -- nobody has been told anything by a call that has not arrived
    have hfresh : FreshRecords key n Q.calls.length Q.state points := by
      refine ⟨hn, hentry, hloads, fun j t hj ht => ?_⟩
      have hlt := (List.getElem?_eq_some_iff.mp ht).1
      rw [← hat.at_points.length_eq] at hlt
      exact absurd hlt (Nat.not_lt.mpr hj)
    have hlength : Q'.calls.length = Q.calls.length := by
      rcases System.move_eq hmove with ⟨_, hm, _⟩ | ⟨_, hm, _⟩ | ⟨_, _, _, _, _, -, -, -, -, rfl⟩
      · cases hm
      · cases hm
      · exact List.length_set
    rw [hlength]
    exact hat.inv_of_run (fun _ _ r h => h.arrive r) (fun _ _ e h => h.env e)
      (fun _ _ _ _ _ _ hφ hstep h => h.step hφ hstep) hfresh (run_single hmove)
  · -- the answer takes the stale entry out of the cache
    obtain ⟨points', hat', hno⟩ := hat.inv_of_run (I := NoOldLoad key n) (fun _ _ r h => h.arrive r)
      (fun _ _ _ h => ⟨h.statements, h.load⟩) (fun _ _ _ _ _ _ _ hstep h => h.step hstep)
      ⟨hn, hloads⟩ (run_single hmove)
    refine ⟨points', hat', hno.statements, not_staleEntry_of_invalidates hmove hinvalidates,
      hno.load, fun j t hj ht => ?_⟩
    have hlt := (List.getElem?_eq_some_iff.mp ht).1
    rw [← hat'.at_points.length_eq] at hlt
    exact absurd hlt (Nat.not_lt.mpr hj)

/-- A change takes effect in some run, and later its call returns. If no older record is on its way
then, and none is cached, or the call drops the key in this step, then every call that arrives
after that is told of a record that has been read after the change. -/
theorem resolves_fresh_record {s₀ : Portal} {P P' Q Q' R : PortalPool}
    {c : Call Portal Failure (Option PublicTenant) PortalRequest} {identifier : Option String}
    {t : PublicTenant} (hbefore : (portalSystem cfg).Run (fun _ _ => True) ⟨s₀, []⟩ P)
    (hchange : PortalChange cfg P P' i (portalKey (portalName identifier)))
    (hbetween : (portalSystem cfg).Run (fun _ _ => True) P' Q) (hanswers : Answers cfg Q Q' i)
    (hload : ¬ StaleLoad cfg (portalKey (portalName identifier)) P'.state.statements Q)
    (hentry : ¬ StaleEntry (portalKey (portalName identifier)) P'.state.statements Q.state ∨
      Invalidates (portalKey (portalName identifier)) Q i)
    (hafter : (portalSystem cfg).Run (fun _ _ => True) Q' R) (hlate : Q'.calls.length ≤ j)
    (hcall : R.calls[j]? = some c) (hrequest : c.request = .resolvePublicTenant identifier)
    (hout : c.outcome = some (.ok (some t))) : P'.state.statements ≤ t.readAt := by
  have hreached : (portalSystem cfg).Run (fun _ _ => True) ⟨s₀, []⟩ P' :=
    hbefore.trans (run_single hchange.moves)
  obtain ⟨_, hatP', -⟩ := (AtPortal.start s₀).inv_of_run (I := fun _ _ => True)
    (fun _ _ _ _ => trivial) (fun _ _ _ _ => trivial) (fun _ _ _ _ _ _ _ _ _ => trivial) trivial
    hreached
  obtain ⟨_, hatQ, hn⟩ := hatP'.inv_of_run (I := fun s _ => P'.state.statements ≤ s.statements)
    (fun _ _ _ h => h) (fun _ _ _ h => h)
    (fun _ _ _ _ _ _ _ hstep h => h.trans hstep.statements_le) (Nat.le_refl _) hbetween
  obtain ⟨_, hatQ', hfresh⟩ := hatQ.fresh_of_answer hn hanswers.moves hload hentry
  obtain ⟨points, hatR, hfresh⟩ := hatQ'.inv_of_run (fun _ _ r h => h.arrive r)
    (fun _ _ e h => h.env e) (fun _ _ _ _ _ _ hφ hstep h => h.step hφ hstep) hfresh hafter
  obtain ⟨φ, hφ, hprog⟩ := hatR.at_points.point_of hcall
  have habout := hatR.about.call j c φ hcall hφ identifier hrequest
  rw [PortalPoint.eq_ended hprog habout hout] at hφ
  exact hfresh.told j t hlate hφ

/-! ### A load that comes late, and one that does not -/

def lakeside : Tenant where
  id := 1
  name := "Lakeside"
  slug := "lakeside"
  subdomain := "lakeside"

def lakesidePortal : Portal where
  world := { db := { tenants := .single lakeside } }

def lakesideConfig : CacheConfig where
  maxEntries := .fin 5000
  ttlTenant := .fin 10000

def asksLakeside : PortalRequest := .resolvePublicTenant (some "lakeside")

def renamesLakeside : PortalRequest := .updateTenant 1 { name := some "Seaside" }

def lakesideSystem : System Portal Failure (Option PublicTenant) PortalRequest PortalEnv :=
  portalSystem lakesideConfig

def lakesideKey : Text := portalKey (portalName (some "lakeside"))

/-- What a call has been told. -/
def toldBy (c : Call Portal Failure (Option PublicTenant) PortalRequest) :
    Option (Option PublicTenant) :=
  match c.outcome with
  | some (.ok a) => some a
  | _ => none

theorem outcome_of_toldBy {c : Call Portal Failure (Option PublicTenant) PortalRequest}
    {a : Option PublicTenant} (h : toldBy c = some a) : c.outcome = some (.ok a) := by
  unfold toldBy at h
  split at h
  · rename_i b hout
    rw [hout, Option.some.inj h]
  · cases h

def PortalRequest.asksFor : PortalRequest → Option String
  | .resolvePublicTenant identifier => identifier
  | _ => none

theorem eq_of_asksFor {r : PortalRequest} {name : String} (h : r.asksFor = some name) :
    r = .resolvePublicTenant (some name) := by
  cases r with
  | resolvePublicTenant identifier => exact congrArg _ h
  | updateTenant id data => cases h
  | updateWorkspace id data => cases h
  | deleteWorkspace id => cases h
  | setAccountPlan email fields => cases h

/-- The pool after a schedule. -/
def lakesideAfter (ms : List (Move PortalRequest PortalEnv)) : PortalPool :=
  lakesideSystem.poolAfter ⟨lakesidePortal, []⟩ ms

/-- The name changes after the record has been read. -/
def readsBefore : List (Move PortalRequest PortalEnv) :=
  [.arrive asksLakeside, .run 0, .run 0, .arrive renamesLakeside]

def keepsLate : List (Move PortalRequest PortalEnv) :=
  [.run 0, .arrive asksLakeside, .run 2]

theorem portalChange_lakeside {ms : List (Move PortalRequest PortalEnv)} {i : Nat}
    (hmove : (lakesideSystem.schedule ⟨lakesidePortal, []⟩ (ms ++ [.run i])).isSome = true)
    (hwrites : ((lakesideAfter ms).calls[i]?.any fun c => c.request.writes) = true)
    (hold : (lakesideAfter ms).state.world.db.tenants.byId 1 = some lakeside)
    (hnew : (lakesideAfter (ms ++ [.run i])).state.world.db.portalOf 1 ≠
      (lakesideAfter ms).state.world.db.portalOf 1) :
    PortalChange lakesideConfig (lakesideAfter ms) (lakesideAfter (ms ++ [.run i])) i
      lakesideKey := by
  obtain ⟨c, hc, hw⟩ := (Option.any_eq_true _ _).mp hwrites
  refine ⟨System.move_poolAfter hmove, ⟨c, hc, hw⟩, 1, hnew.symm, lakeside, .inl ?_, rfl, rfl⟩
  exact (Sql.Table.byId_eq_some_iff.mp hold).1

/-- The record is read before the name changes and kept after the key has been dropped: who asks
next is told the old name. -/
theorem load_overtakes_invalidation : ∃ P P' Q Q' R : PortalPool,
    lakesideSystem.Run (fun _ _ => True) ⟨lakesidePortal, []⟩ P ∧
      PortalChange lakesideConfig P P' 1 lakesideKey ∧
      lakesideSystem.Run (fun _ _ => True) P' Q ∧ Answers lakesideConfig Q Q' 1 ∧
      lakesideSystem.Run (fun _ _ => True) Q' R ∧
      ∃ c t, R.calls[Q'.calls.length]? = some c ∧
        c.request = .resolvePublicTenant (some "lakeside") ∧
        c.outcome = some (.ok (some t)) ∧ t.name = "Lakeside" ∧
        t.readAt < P'.state.statements := by
  let P := lakesideAfter readsBefore
  let P' := lakesideAfter (readsBefore ++ [.run 1])
  let Q := lakesideAfter (readsBefore ++ [.run 1] ++ [.run 1])
  let Q' := lakesideAfter (readsBefore ++ [.run 1] ++ [.run 1] ++ [.run 1])
  let R := lakesideAfter (readsBefore ++ [.run 1] ++ [.run 1] ++ [.run 1] ++ keepsLate)
  have hstart : lakesideSystem.Run (fun _ _ => True) ⟨lakesidePortal, []⟩ P :=
    System.run_of_schedule (System.schedule_eq_poolAfter (by decide +kernel))
  have hchange : PortalChange lakesideConfig P P' 1 lakesideKey :=
    portalChange_lakeside (by decide +kernel) (by decide +kernel) (by decide +kernel)
      (by decide +kernel)
  have hbetween : lakesideSystem.Run (fun _ _ => True) P' Q :=
    System.run_poolAfter (by decide +kernel)
  have hreturned : (Q'.calls[1]?.bind toldBy) = some none := by decide +kernel
  have hafter : lakesideSystem.Run (fun _ _ => True) Q' R :=
    System.run_poolAfter (by decide +kernel)
  have hasks : R.calls[Q'.calls.length]?.map (fun c => (c.request.asksFor, toldBy c)) =
      some (some "lakeside", some (some (publicTenant ⟨lakeside.portalRow, 1⟩))) := by
    decide +kernel
  have hstatements : 1 < P'.state.statements := by decide +kernel
  obtain ⟨d, hd, htold⟩ := Option.bind_eq_some_iff.mp hreturned
  obtain ⟨c, hc, hcall⟩ := Option.map_eq_some_iff.mp hasks
  obtain ⟨hrequest, hout⟩ := Prod.mk.inj hcall
  exact ⟨P, P', Q, Q', R, hstart, hchange, hbetween,
    ⟨System.move_poolAfter (by decide +kernel), d, none, hd, outcome_of_toldBy htold⟩, hafter,
    c, _, hc, eq_of_asksFor hrequest, outcome_of_toldBy hout, rfl, hstatements⟩

/-- The record has been read and kept before the name changes. -/
def keepsBefore : List (Move PortalRequest PortalEnv) :=
  [.arrive asksLakeside, .run 0, .run 0, .run 0, .arrive renamesLakeside]

/-- No call is about to keep a record, as none that is left to end would be told one. -/
theorem not_staleLoad_of_exec {P : PortalPool}
    (h : P.calls.all (fun c => (toldBy c).isSome ||
      (match (c.prog.exec lakesidePortal).1 with
        | .ok (some _) => false
        | _ => true)) = true) : ¬ StaleLoad lakesideConfig lakesideKey n P := by
  rintro ⟨⟨r, since, p⟩, hc, l, hprog, -⟩
  obtain rfl : p = storing lakesideConfig lakesideKey l := hprog
  have hcall := List.all_eq_true.mp h _ hc
  cases hcall

theorem resolves_fresh_record_lakeside :
    (lakesideAfter (keepsBefore ++ [.run 1] ++ [.run 1] ++ [.run 1] ++
      [.arrive asksLakeside, .run 2, .run 2, .run 2])).calls[2]?.bind toldBy =
        some (some (publicTenant ⟨{ lakeside.portalRow with name := "Seaside" }, 4⟩)) ∧
      (lakesideAfter (keepsBefore ++ [.run 1])).state.statements ≤ 4 := by
  let Q := lakesideAfter (keepsBefore ++ [.run 1] ++ [.run 1])
  let Q' := lakesideAfter (keepsBefore ++ [.run 1] ++ [.run 1] ++ [.run 1])
  have htold : (lakesideAfter (keepsBefore ++ [.run 1] ++ [.run 1] ++ [.run 1] ++
      [.arrive asksLakeside, .run 2, .run 2, .run 2])).calls[2]?.bind toldBy =
        some (some (publicTenant ⟨{ lakeside.portalRow with name := "Seaside" }, 4⟩)) := by
    decide +kernel
  refine ⟨htold, ?_⟩
  obtain ⟨c, hc, hcall⟩ := Option.bind_eq_some_iff.mp htold
  have hreturned : (Q'.calls[1]?.bind toldBy) = some none := by decide +kernel
  obtain ⟨d, hd, hnone⟩ := Option.bind_eq_some_iff.mp hreturned
  have hasks : (lakesideAfter (keepsBefore ++ [.run 1] ++ [.run 1] ++ [.run 1] ++
      [.arrive asksLakeside, .run 2, .run 2, .run 2])).calls[2]?.map (fun c => c.request.asksFor) =
        some (some "lakeside") := by decide +kernel
  rw [hc] at hasks
  have hload : ¬ StaleLoad lakesideConfig lakesideKey
      (lakesideAfter (keepsBefore ++ [.run 1])).state.statements Q :=
    not_staleLoad_of_exec (by decide +kernel)
  have hdrops : Invalidates lakesideKey Q 1 :=
    ⟨_, ["lakeside"], rfl, rfl, by decide⟩
  exact resolves_fresh_record (System.run_of_schedule (System.schedule_eq_poolAfter
      (by decide +kernel)))
    (portalChange_lakeside (by decide +kernel) (by decide +kernel) (by decide +kernel)
      (by decide +kernel))
    (System.run_poolAfter (by decide +kernel))
    ⟨System.move_poolAfter (by decide +kernel), d, none, hd, outcome_of_toldBy hnone⟩
    hload (.inr hdrops) (System.run_poolAfter (by decide +kernel)) (by decide +kernel) hc
    (eq_of_asksFor (Option.some.inj hasks)) (outcome_of_toldBy hcall)

end Feedbase
