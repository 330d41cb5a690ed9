import Feedbase.Common.BootWorkers

/-!
# Orderly boots

When nothing fails, every worker boots. The look into `information_schema` and the `ALTER` behind
it are two statements, so this rests on the lock: its holder alone alters the schema, and what it
found missing is still missing when it adds it. The unique key on the votes can always be added,
because a hash is stored by servers that listen, and those have the key.

A worker that dies with the lock does not keep the others waiting: its connection ends, and the
server gives the lock to another one.

## Main definitions

* `Orderly` — nothing fails, nobody waits too long, nobody else alters the schema
* `Booting` — the invariant of orderly runs

## Main results

* `boots_of_run` — in an orderly run every worker boots, and the dead do not block the others
-/

namespace Feedbase

/-! ### Orderly runs -/

/-- A move from `P` to `Q` when everything goes its way: no statement fails and no connection is
lost, `GET_LOCK` is answered in time, nobody runs a script by hand, and a vote with a hash is
stored only by a server that has checked the schema. -/
structure Orderly (P Q : Workers) : Prop where
  works : ∀ t, P.state.fails t = false
  kept : Q.state.lost = []
  alone : Q.state.byHand = []
  prompt : ∀ w ∈ P.state.waiting, P.state.now < w.since + BootState.lockTimeoutSeconds
  votes : ∀ v, Q.state.votes = P.state.votes ++ [v] → v.voterHash = none ∨
    ∃ c ∈ P.calls, c.request = false ∧ c.outcome = some (.ok .listening)

/-- What a phase promises about the server in an orderly run. A dead worker promises nothing. -/
def BootPhase.Sound : BootPhase → BootState → Prop
  | .holding c _, s => s.alive c = true → s.holder = some c
  | .adding c known ch, s =>
    (s.alive c = true → s.holder = some c ∧ ch.part ∉ s.schema) ∧
      ∀ p ∈ ch.needs, p ∈ oldParts ∨ p ∈ known
  | .failing _, _ | .refused, _ => False
  | _, _ => True

/-- It is about the lock, the dead and the schema. -/
theorem BootPhase.Sound.congr {φ : BootPhase} {s t : BootState} (h : φ.Sound s)
    (hholder : t.holder = s.holder) (hschema : t.schema = s.schema)
    (hkilled : t.killed = s.killed) : φ.Sound t := by
  cases φ with
  | holding c known =>
    intro halive
    rw [hholder]
    exact h (by rwa [BootState.alive, ← hkilled])
  | adding c known ch =>
    refine ⟨fun halive => ?_, h.2⟩
    rw [hholder, hschema]
    exact h.1 (by rwa [BootState.alive, ← hkilled])
  | _ => exact h

/-- The invariant of orderly runs. -/
structure Booting (P : Workers) (phases : List BootPhase) : Prop where
  informed : Informed P phases
  handles : Handles BootPhase.conn P.state.nextConn phases
  old : ∀ p ∈ oldParts, p ∈ P.state.schema
  differ : VotesDiffer P.state.votes
  kept : P.state.lost = []
  held : ∀ c, P.state.holder = some c → P.state.alive c = true ∧ ∃ φ ∈ phases, φ.Holds c
  sound : ∀ φ ∈ phases, φ.Sound P.state

section Steps

variable {φ φ' ψ : BootPhase} {s t : BootState} {c : Nat}

theorem BootStep.killed (h : BootStep φ s φ' t) : t.killed = s.killed := by
  cases h with
  | adds => exact BootState.withPart_killed
  | fails h => rcases h with rfl | rfl <;> rfl
  | _ => rfl

theorem BootStep.alive (h : BootStep φ s φ' t) (c : Nat) : t.alive c = s.alive c := by
  unfold BootState.alive
  rw [h.killed]

theorem BootStep.votes (h : BootStep φ s φ' t) : t.votes = s.votes := by
  cases h with
  | adds => exact BootState.withPart_votes
  | fails h => rcases h with rfl | rfl <;> rfl
  | _ => rfl

/-- The connection of a worker is a new one, the one it had, or none. -/
theorem BootStep.conn (h : BootStep φ s φ' t) :
    (φ'.conn = some s.nextConn ∧ t.nextConn = s.nextConn + 1) ∨
      ((φ'.conn = φ.conn ∨ φ'.conn = none) ∧ t.nextConn = s.nextConn) := by
  cases h with
  | connects => exact .inl ⟨rfl, rfl⟩
  | adds => exact .inr ⟨.inl rfl, BootState.withPart_nextConn⟩
  | fails h => rcases h with rfl | rfl <;> exact .inr ⟨.inr rfl, rfl⟩
  | noConnection => exact .inr ⟨.inr rfl, rfl⟩
  | askFails => exact .inr ⟨.inr rfl, rfl⟩
  | givesUp => exact .inr ⟨.inr rfl, rfl⟩
  | unlocks => exact .inr ⟨.inr rfl, rfl⟩
  | unlockFails => exact .inr ⟨.inr rfl, rfl⟩
  | _ => exact .inr ⟨.inl rfl, rfl⟩

theorem not_broken (hworks : ∀ t, s.fails t = false) (hkept : s.lost = []) : ¬ s.Broken c := by
  rintro (hlost | ⟨t, ht⟩)
  · simp [hkept] at hlost
  · rw [hworks t] at ht
    cases ht

theorem not_timedOut (hprompt : ∀ w ∈ s.waiting, s.now < w.since + BootState.lockTimeoutSeconds) :
    s.timedOut c = false := by
  rw [← Bool.not_eq_true, BootState.timedOut, List.any_eq_true]
  rintro ⟨w, hw, htest⟩
  have hlate : w.since + BootState.lockTimeoutSeconds ≤ s.now := by
    simpa using (Bool.and_eq_true_iff.mp htest).2
  have hearly := hprompt w hw
  omega

theorem BootState.alive_kill {conn : Nat} :
    (s.after (.kill conn)).alive c = true ↔ s.alive c = true ∧ c ≠ conn := by
  simp [BootState.after, BootState.alive, and_comm]

/-- The server frees the lock of a worker that dies, and nobody else's. -/
theorem BootState.holder_kill {conn : Nat} :
    (s.after (.kill conn)).holder = some c ↔ s.holder = some c ∧ c ≠ conn := by
  change (if s.holder = some conn then none else s.holder) = some c ↔ _
  by_cases hmine : s.holder = some conn
  · simp [hmine, eq_comm]
  · rw [if_neg hmine]
    exact ⟨fun hc => ⟨hc, fun heq => hmine (heq ▸ hc)⟩, And.left⟩

/-- With the lock in hand, what was missing still is, and the statement goes through. -/
theorem accepts_of_sound {known : List Part} {ch : Change} (hold : ∀ p ∈ oldParts, p ∈ s.schema)
    (hdiffer : VotesDiffer s.votes) (hknown : ∀ p ∈ known, p ∈ s.schema)
    (hsound : (BootPhase.adding c known ch).Sound s) (alive : s.alive c = true) :
    s.accepts ch = true := by
  have hmissing : ch.part ∉ s.schema := (hsound.1 alive).2
  have hneeds : ∀ p ∈ ch.needs, p ∈ s.schema := fun p hp =>
    (hsound.2 p hp).elim (hold p) (hknown p)
  simpa [BootState.accepts, hmissing, hdiffer] using hneeds

/-- What a worker's own action leaves it with. -/
theorem BootStep.sound (h : BootStep φ s φ' t) (hold : ∀ p ∈ oldParts, p ∈ s.schema)
    (hdiffer : VotesDiffer s.votes) (hknown : ∀ p ∈ φ.known, p ∈ s.schema)
    (hworks : ∀ t, s.fails t = false) (hkept : s.lost = [])
    (hprompt : ∀ w ∈ s.waiting, s.now < w.since + BootState.lockTimeoutSeconds)
    (hsound : φ.Sound s) : φ'.Sound t := by
  have hunbroken : ∀ c, ¬ s.Broken c := fun _ => not_broken hworks hkept
  cases h with
  | connects => trivial
  | noConnection hfails => simp [hworks] at hfails
  | asks => trivial
  | askFails hbroken => exact hunbroken _ hbroken
  | locks => exact fun _ => rfl
  | givesUp hgone =>
    rcases hgone with hlost | hlate
    · exact hunbroken _ (.inl hlost)
    · rw [not_timedOut hprompt] at hlate
      cases hlate
  | finds => exact hsound
  | misses alive missing needs => exact ⟨fun halive => ⟨hsound halive, missing⟩, needs⟩
  | adds alive =>
    intro _
    rw [BootState.withPart_holder]
    exact (hsound.1 alive).1
  -- under the lock a part that is missing is accepted, so no worker finds it in the way
  | addFails alive hfails =>
    rcases hfails with hrefused | hbroken
    · rw [accepts_of_sound hold hdiffer hknown hsound alive] at hrefused
      cases hrefused
    · exact hunbroken _ hbroken
  | scriptFails hbroken => exact hunbroken _ hbroken
  | spawns => exact hsound
  | logs => exact hsound
  | unlocks => trivial
  | unlockFails hbroken => exact hunbroken _ hbroken
  | fails => exact hsound

/-- Nobody takes the lock from its holder. -/
theorem BootStep.holder_other (h : BootStep φ s φ' t) (hholder : s.holder = some c)
    (hother : φ.conn ≠ some c) : t.holder = some c := by
  have hunlock : ∀ {d : Nat}, d ≠ c → (s.unlock d).holder = some c := by
    intro d hne
    rw [BootState.unlock, if_neg (fun heq => hne (Option.some.inj (heq.symm.trans hholder)))]
    exact hholder
  cases h with
  | locks alive free =>
    rw [hholder] at free
    cases free
  | adds => rwa [BootState.withPart_holder]
  | unlocks => exact hunlock fun heq => hother (congrArg some heq)
  | fails h =>
    rcases h with rfl | rfl
    · exact hholder
    · exact hunlock fun heq => hother (congrArg some heq)
  | _ => exact hholder

/-- Nobody alters the schema while another one holds the lock. -/
theorem BootStep.schema_other (h : BootStep φ s φ' t) (hsound : φ.Sound s)
    (hholder : s.holder = some c) (hother : φ.conn ≠ some c) : t.schema = s.schema := by
  cases h with
  | adds alive =>
    have hheld := (hsound.1 alive).1
    exact absurd (hheld.symm.trans hholder) hother
  | fails h => exact hsound.elim
  | _ => rfl

theorem BootStep.sound_other (h : BootStep φ s φ' t) (hsound : φ.Sound s) (hψ : ψ.Sound s)
    (hother : ∀ c, ψ.conn = some c → φ.conn ≠ some c) : ψ.Sound t := by
  cases ψ with
  | holding c known =>
    intro halive
    rw [h.alive] at halive
    exact h.holder_other (hψ halive) (hother c rfl)
  | adding c known ch =>
    refine ⟨fun halive => ?_, hψ.2⟩
    rw [h.alive] at halive
    obtain ⟨hholder, hmissing⟩ := hψ.1 halive
    rw [h.schema_other hsound hholder (hother c rfl)]
    exact ⟨h.holder_other hholder (hother c rfl), hmissing⟩
  | _ => exact hψ

/-- A worker keeps the lock until it releases it. -/
theorem BootStep.holds (h : BootStep φ s φ' t) (hunbroken : ∀ c, ¬ s.Broken c)
    (hsound : φ.Sound s) (hholder : t.holder = some c) (hholds : φ.Holds c) : φ'.Holds c := by
  cases h with
  | unlocks =>
    obtain rfl := hholds
    rw [BootState.unlock] at hholder
    split_ifs at hholder with hmine
    exact absurd hholder hmine
  | locks => exact hholds.elim
  | unlockFails hbroken => exact absurd hbroken (hunbroken _)
  | fails => exact hsound.elim
  | _ => exact hholds

/-- The lock has a new holder only when it was free. -/
theorem BootStep.holder_cases (h : BootStep φ s φ' t) (hsound : φ.Sound s)
    (hholder : t.holder = some c) :
    s.holder = some c ∨ (s.alive c = true ∧ φ'.Holds c) := by
  cases h with
  | locks alive free =>
    cases hholder
    exact .inr ⟨alive, rfl⟩
  | adds =>
    rw [BootState.withPart_holder] at hholder
    exact .inl hholder
  | unlocks =>
    rw [BootState.unlock] at hholder
    split_ifs at hholder
    exact .inl hholder
  | fails => exact hsound.elim
  | _ => exact .inl hholder

end Steps

namespace Booting

variable {P Q : Workers} {phases : List BootPhase} {φ φ' : BootPhase} {i : Nat}

theorem arrive (h : Booting P phases) (hlength : P.calls.length = phases.length) (skip : Bool) :
    Booting { P with calls := P.calls ++ [⟨skip, P.state, startServer skip⟩] }
      (phases ++ [startPhase skip]) where
  informed := h.informed.arrive hlength skip
  handles := h.handles.concat (by cases skip <;> rfl)
  old := h.old
  differ := h.differ
  kept := h.kept
  held c hc := by
    obtain ⟨halive, φ, hφ, hholds⟩ := h.held c hc
    exact ⟨halive, φ, List.mem_append_left _ hφ, hholds⟩
  sound φ hφ := by
    rcases List.mem_append.mp hφ with hφ | hφ
    · exact h.sound φ hφ
    · rw [List.mem_singleton.mp hφ]
      cases skip <;> trivial

/-- The worker that acts goes on in another phase, and the others stay where they are. -/
theorem step (h : Booting P phases) (hok : Orderly P Q)
    {c : Call BootState BootError Started Bool} {prog : Boot Started} (hc : P.calls[i]? = some c)
    (hφ : phases[i]? = some φ) (hstep : BootStep φ P.state φ' Q.state)
    (hcalls : Q.calls = P.calls.set i { c with prog := prog }) :
    Booting Q (phases.set i φ') where
  informed := h.informed.step hc hφ hstep hcalls
  handles := by
    rcases hstep.conn with ⟨hnew, hnext⟩ | ⟨hsame, hnext⟩
    · rw [hnext]
      exact h.handles.set_next hφ hnew
    · rw [hnext]
      exact h.handles.set hφ hsame
  old p hp := hstep.schema_subset (h.old p hp)
  differ := by
    rw [hstep.votes]
    exact h.differ
  kept := hok.kept
  held := by
    intro d hd
    have hφmem : φ ∈ phases := List.mem_of_getElem? hφ
    have hi : i < phases.length := (List.getElem?_eq_some_iff.mp hφ).1
    rw [hstep.alive]
    rcases hstep.holder_cases (h.sound φ hφmem) hd with hold | ⟨halive, hholds⟩
    -- the old holder is the worker that acts, or one that stays where it is
    · obtain ⟨halive, ψ, hψ, hholds⟩ := h.held d hold
      refine ⟨halive, ?_⟩
      obtain ⟨j, hj⟩ := List.getElem?_of_mem hψ
      by_cases hij : j = i
      · subst hij
        obtain rfl : φ = ψ := Option.some.inj (hφ.symm.trans hj)
        exact ⟨φ', List.mem_set hi φ', hstep.holds (fun _ => not_broken hok.works h.kept)
          (h.sound φ hφmem) hd hholds⟩
      · exact ⟨ψ, List.mem_of_getElem? ((List.getElem?_set_ne (Ne.symm hij)).trans hj), hholds⟩
    · exact ⟨halive, φ', List.mem_set hi φ', hholds⟩
  sound := by
    have hφmem : φ ∈ phases := List.mem_of_getElem? hφ
    intro ψ hψ
    obtain ⟨j, hj⟩ := List.getElem?_of_mem hψ
    rcases getElem?_set_cases hj with ⟨-, rfl⟩ | ⟨hne, hj⟩
    · exact hstep.sound h.old h.differ (h.informed.known φ hφmem) hok.works h.kept hok.prompt
        (h.sound φ hφmem)
    · refine hstep.sound_other (h.sound φ hφmem) (h.sound ψ (List.mem_of_getElem? hj)) ?_
      exact fun c hψc hφc => hne (h.handles.once j i ψ φ c hj hφ hψc hφc)

/-- A worker dies, and the server frees what it held. -/
theorem kill (h : Booting P phases) (conn : Nat) :
    Booting { P with state := P.state.after (.kill conn) } phases where
  informed := h.informed.env _
  handles := h.handles
  old := h.old
  differ := h.differ
  kept := h.kept
  held c hc := by
    obtain ⟨hholder, hne⟩ := BootState.holder_kill.mp hc
    obtain ⟨halive, hheld⟩ := h.held c hholder
    exact ⟨BootState.alive_kill.mpr ⟨halive, hne⟩, hheld⟩
  sound φ hφ := by
    have hsound := h.sound φ hφ
    -- a connection that still lives is not the one that died, so it keeps the lock
    cases φ with
    | holding c known =>
      intro halive
      obtain ⟨halive, hne⟩ := BootState.alive_kill.mp halive
      exact BootState.holder_kill.mpr ⟨hsound halive, hne⟩
    | adding c known ch =>
      refine ⟨fun halive => ?_, hsound.2⟩
      obtain ⟨halive, hne⟩ := BootState.alive_kill.mp halive
      obtain ⟨hholder, hmissing⟩ := hsound.1 halive
      exact ⟨BootState.holder_kill.mpr ⟨hholder, hne⟩, hmissing⟩
    | _ => exact hsound

/-- A vote is counted twice by no key: before there is one, nobody stores a hash. -/
theorem vote (h : Booting P phases) (v : Vote)
    (hpaced : List.Forall₂ (fun (c : Call BootState BootError Started Bool) φ =>
      Works StartEnds φ c.prog) P.calls phases)
    (hok : Orderly P { P with state := P.state.after (.vote v) }) :
    Booting { P with state := P.state.after (.vote v) } phases := by
  have hinformed := h.informed.env (.vote v)
  have hvotes := hok.votes v
  simp only [BootState.after] at hinformed hvotes ⊢
  unfold BootState.castVote at hinformed hvotes ⊢
  -- refused before the column is there, and after the key by the key
  by_cases hcolumn : (v.voterHash.isSome && !P.state.schema.contains (.column "votes" "voter_hash")) =
      true
  · rw [if_pos hcolumn]
    exact h
  rw [if_neg hcolumn] at hinformed hvotes ⊢
  by_cases hclash : (P.state.schema.contains (.index "votes" "uq_votes_voter_hash") &&
      P.state.votes.any (sameHash · v)) = true
  · rw [if_pos hclash]
    exact h
  rw [if_neg hclash] at hinformed hvotes ⊢
  have hdiffer : VotesDiffer (P.state.votes ++ [v]) := by
    rw [VotesDiffer, List.pairwise_append]
    refine ⟨h.differ, List.pairwise_singleton _ _, fun w hw u hu => ?_⟩
    rw [List.mem_singleton.mp hu]
    rcases hvotes rfl with hnone | ⟨c, hc, hreq, hout⟩
    · rw [sameHash, sameKey, hnone]
      cases w.voterHash <;> simp
    -- a hash comes from a server that listens, and that one has seen the key
    · have hindex := h.informed.complete hpaced hc hreq hout
        (.index "votes" "uq_votes_voter_hash") (by decide)
      have hany : P.state.votes.any (sameHash · v) = false := by simpa [hindex] using hclash
      simpa using List.any_eq_false.mp hany w hw
  exact ⟨hinformed, h.handles, h.old, hdiffer, h.kept, h.held,
    fun φ hφ => (h.sound φ hφ).congr rfl rfl rfl⟩

theorem env (h : Booting P phases) (e : BootEvent)
    (hpaced : List.Forall₂ (fun (c : Call BootState BootError Started Bool) φ =>
      Works StartEnds φ c.prog) P.calls phases)
    (hok : Orderly P { P with state := P.state.after e }) :
    Booting { P with state := P.state.after e } phases := by
  cases e with
  | kill conn => exact h.kill conn
  | vote v => exact h.vote v hpaced hok
  | lose conn => exact absurd hok.kept (List.cons_ne_nil _ _)
  | alter p => exact absurd hok.alone (List.cons_ne_nil _ _)
  | tick seconds =>
    exact ⟨h.informed.env _, h.handles, h.old, h.differ, h.kept, h.held,
      fun φ hφ => (h.sound φ hφ).congr rfl rfl rfl⟩
  | fail trouble on =>
    exact ⟨h.informed.env _, h.handles, h.old, h.differ, h.kept, h.held,
      fun φ hφ => (h.sound φ hφ).congr rfl rfl rfl⟩

/-- When no worker can act, each of those in flight is dead. -/
theorem dead_of_stuck (h : Booting P phases)
    (hwaits : ∀ φ ∈ phases, φ.conn.isSome = true → φ.Waits P.state) (hφ : φ ∈ phases) {c : Nat}
    (hconn : φ.conn = some c) : c ∈ P.state.killed := by
  have hdead : ∀ {d : Nat}, P.state.alive d = false → d ∈ P.state.killed := by
    intro d hd
    simpa [BootState.alive] using hd
  have hwait := hwaits φ hφ (by rw [hconn]; rfl)
  cases φ with
  | waiting d =>
    cases hconn
    rcases hwait with hdies | hholder
    · exact hdead hdies
    -- whoever holds the lock lives, and could act
    · obtain ⟨d, hd⟩ := Option.ne_none_iff_exists'.mp hholder
      obtain ⟨halive, ψ, hψ, hholds⟩ := h.held d hd
      have hstuck : ψ.Waits P.state := hwaits ψ hψ (by rw [hholds.conn_eq]; rfl)
      have hdies := hholds.dead hstuck
      rw [halive] at hdies
      cases hdies
  | connected d => cases hconn; exact hdead hwait
  | holding d known => cases hconn; exact hdead hwait
  | adding d known ch => cases hconn; exact hdead hwait
  | failing d => cases hconn; exact hdead hwait
  | _ => cases hconn

end Booting

/-- A server as the first worker finds it: nobody holds the lock, the parts that the migrations
build on are there, and the stored hashes do not clash. How many of the migrations have been
done before makes no difference. -/
structure BeforeBoot (s : BootState) : Prop where
  old : ∀ p ∈ oldParts, p ∈ s.schema
  differ : VotesDiffer s.votes
  free : s.holder = none
  kept : s.lost = []

theorem BeforeBoot.booting {s : BootState} (h : BeforeBoot s) : Booting ⟨s, []⟩ [] where
  informed := .nil s
  handles := .nil
  old := h.old
  differ := h.differ
  kept := h.kept
  held c hc := by
    rw [h.free] at hc
    cases hc
  sound _ hφ := absurd hφ List.not_mem_nil

/-- In an orderly run every worker that comes to an end listens. And the lock blocks nobody for
good: when no worker can act, the only ones that have not come to an end are dead. -/
theorem boots_of_run {s₀ : BootState} (hbefore : BeforeBoot s₀) {Q : Workers}
    (h : bootSystem.Run Orderly ⟨s₀, []⟩ Q) :
    (∀ c ∈ Q.calls, ∀ r, c.outcome = some r → r = .ok .listening) ∧
      ((∀ i, bootSystem.move Q (.run i) = none) → Q.inFlight ≤ Q.state.killed.length) := by
  -- each worker stands in a phase, and together they keep `Booting`
  obtain ⟨phases, hpaced, hbooting⟩ := Paced.inv_of_run (I := Booting)
    (fun r _ => paced_startServer r) hbefore.booting
    (fun P phases r hlength h => h.arrive hlength r)
    (fun P phases e hok hpaced h => h.env e hpaced hok)
    (fun P Q phases i c φ φ' prog hok hc hφ hstep hcalls h => h.step hok hc hφ hstep hcalls) h
  constructor
  · intro c hc r hr
    obtain ⟨i, hi⟩ := List.getElem?_of_mem hc
    obtain ⟨φ, hφ, hcall⟩ := forall₂_getElem? hpaced hi
    have hend := hcall.post_of_outcome hr
    have hsound := hbooting.sound φ (List.mem_of_getElem? hφ)
    rcases r with e | started
    · exact hend.elim
    · cases started with
      | listening => rfl
      | exited =>
        rw [show φ = .refused from hend] at hsound
        exact hsound.elim
  · -- nobody can move: who is still in flight waits for a lock that a killed worker holds
    intro hstuck
    have hwaits : ∀ (i : Nat) c φ, Q.calls[i]? = some c → phases[i]? = some φ →
        c.outcome = none → φ.Waits Q.state :=
      fun i c φ hc hφ hout => Paced.waits_of_stuck hpaced hstuck hc hφ hout
    refine hbooting.handles.inFlight_le hpaced.length_eq ?_ ?_
    · intro i c φ hc hφ hout
      have hwait := hwaits i c φ hc hφ hout
      cases φ <;> first | rfl | exact hwait.elim
    · intro φ hφ x hx
      refine hbooting.dead_of_stuck (fun ψ hψ hconn => ?_) hφ hx
      obtain ⟨i, hi⟩ := List.getElem?_of_mem hψ
      obtain ⟨hlt, -⟩ := List.getElem?_eq_some_iff.mp hi
      have hc := List.getElem?_eq_getElem (hpaced.length_eq ▸ hlt)
      refine hwaits i _ ψ hc hi ?_
      -- a worker that has finished has no connection left
      obtain ⟨ψ', hψ', hcall⟩ := forall₂_getElem? hpaced hc
      obtain rfl : ψ = ψ' := Option.some.inj (hi.symm.trans hψ')
      rw [← Option.not_isSome_iff_eq_none]
      intro hsome
      obtain ⟨r, hr⟩ := Option.isSome_iff_exists.mp hsome
      have hend : StartEnds ψ r := hcall.post_of_outcome hr
      rw [hend.conn] at hconn
      cases hconn

/-! The first worker dies between two changes, and the second one, which waits for the lock, does
the rest. Then the first vote with a hash comes in. -/

def diedMidway : List (Move Bool BootEvent) :=
  [.arrive false, .arrive false] ++ turns 0 6 ++ turns 1 2 ++ [.env (.kill 0)] ++ turns 1 43 ++
    [.env (.vote { id := 2, tenantId := 1, postId := 1, guestId := some "bob", voterHash := some "b" })]

/-- What can be computed of `Orderly`. -/
def orderlyTest (P Q : Workers) : Bool :=
  (!P.state.fails .connections && !P.state.fails .statements && !P.state.fails .processes) &&
    (Q.state.lost.isEmpty && Q.state.byHand.isEmpty) &&
    P.state.waiting.all (fun w => decide (P.state.now < w.since + BootState.lockTimeoutSeconds)) &&
    (Q.state.votes.length == P.state.votes.length ||
      P.calls.any fun c => !c.request && Call.listens c)

theorem orderly_of_test {P Q : Workers} (h : orderlyTest P Q = true) : Orderly P Q := by
  simp only [orderlyTest, Bool.and_eq_true, Bool.not_eq_true', List.isEmpty_iff,
    List.all_eq_true, decide_eq_true_eq, Bool.or_eq_true, beq_iff_eq] at h
  obtain ⟨⟨⟨⟨⟨hconnections, hstatements⟩, hprocesses⟩, hkept, halone⟩, hprompt⟩, hvotes⟩ := h
  refine ⟨fun t => by cases t <;> assumption, hkept, halone, hprompt, fun v hv => ?_⟩
  rcases hvotes with hlength | hlistens
  · simp [hv] at hlength
  · obtain ⟨c, hc, hboth⟩ := List.any_eq_true.mp hlistens
    obtain ⟨hreq, hout⟩ := Bool.and_eq_true_iff.mp hboth
    exact .inr ⟨c, hc, by simpa using hreq, Call.outcome_of_listens hout⟩

theorem boots_diedMidway :
    ∃ Q : Workers, Q.state.votes.length = 2 ∧
      (∀ c ∈ Q.calls, ∀ r, c.outcome = some r → r = .ok .listening) ∧
      ((∀ i, bootSystem.move Q (.run i) = none) → Q.inFlight ≤ Q.state.killed.length) := by
  have hrun : (bootSystem.scheduleWith orderlyTest ⟨oldBoard, []⟩ diedMidway).any
      (fun Q => Q.state.votes.length == 2) = true := by decide +kernel
  obtain ⟨Q, hQ, hvotes⟩ := (Option.any_eq_true _ _).mp hrun
  exact ⟨Q, by simpa using hvotes, boots_of_run ⟨by decide, by decide, rfl, rfl⟩
    (System.run_of_scheduleWith (fun _ _ => orderly_of_test) hQ)⟩

end Feedbase
