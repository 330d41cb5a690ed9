import Feedbase.Lib.Numbers
import Feedbase.Lib.OrderedMap
import Feedbase.Lib.Prog

/-!
# The cache

A map in the memory of the process, whose entries expire. An entry that has expired is dropped
when it is asked for, and where there is no room for a new key the oldest entry goes, expired or
not.

## Main definitions

* `Cache.Store`, `Cache.get`, `Cache.set`, `Cache.invalidate`, `Cache.invalidatePrefix`,
  `Cache.wrap`
* `Cache.Call`, `Cache.after` — the store after any sequence of calls
* `Cache.Stored` — what the calls say is stored

## Main results

* `stored_of_get?`, `get?_of_stored` — an entry of the store and the calls before it
* `size_after_le` — the bound
* `cache_bounded_ttl_map` — both, after every sequence of calls
* `fractional_cap_exceeded` — a cap between two whole numbers
-/

namespace Feedbase.Cache

/-- `undefined` is no value. -/
structure Entry (ν : Type) where
  value : Option ν
  expiresAt : JsNum

abbrev Store (ν : Type) := OrderedMap Text (Entry ν)

section

variable {ν : Type}

/-- The first key is the oldest. -/
def evictOne (store : Store ν) : Store ν :=
  match store.firstKey with
  | some oldestKey => store.delete oldestKey
  | none => store

/-- `hit.expiresAt <= now()`. -/
def Entry.isExpired (hit : Entry ν) (now : Nat) : Bool := hit.expiresAt.le (.fin now)

def get (now : Nat) (key : Text) (store : Store ν) : Option ν × Store ν :=
  match store.get? key with
  | none => (none, store)
  | some hit => if hit.isExpired now then (none, store.delete key) else (hit.value, store)

/-- `Number.isFinite(ttlMs) && ttlMs > 0`. -/
def isEffective : JsNum → Bool
  | .fin q => 0 < q
  | _ => false

/-- `{ value, expiresAt: now() + ttlMs }`. -/
def newEntry (now : Nat) (value : Option ν) (ttlMs : JsNum) : Entry ν where
  value := value
  expiresAt := (JsNum.fin now).add ttlMs

/-- `store.size >= MAX_ENTRIES`. -/
def isFull (maxEntries : JsNum) (store : Store ν) : Bool := maxEntries.le (.fin store.size)

/-- The key is taken out first, so that it moves to the end. -/
def set (maxEntries : JsNum) (now : Nat) (key : Text) (value : Option ν) (ttlMs : JsNum)
    (store : Store ν) : Store ν :=
  if !isEffective ttlMs then store
  else
    let store := if isFull maxEntries store && !store.has key then evictOne store else store
    (store.delete key).set key (newEntry now value ttlMs)

def invalidate (key : Text) (store : Store ν) : Store ν := store.delete key

def invalidatePrefix (start : Text) (store : Store ν) : Store ν :=
  store.deleteIf start.isPrefixOf

def clear (_ : Store ν) : Store ν := .empty

/-- A loaded `undefined` is not kept. -/
def loadAndKeep {σ ε : Type} (keep : ν → Prog σ ε Unit) (loader : Prog σ ε (Option ν)) :
    Prog σ ε (Option ν) := do
  let loaded ← loader
  match loaded with
  | some value => do
    keep value
    return some value
  | none => return none

/-- `wrap`, for a program that looks up and one that stores. -/
def wrap {σ ε : Type} (lookUp : Prog σ ε (Option ν)) (keep : ν → Prog σ ε Unit)
    (loader : Prog σ ε (Option ν)) : Prog σ ε (Option ν) := do
  let cached ← lookUp
  match cached with
  | some value => return some value
  | none => loadAndKeep keep loader

/-! ### Sequences of calls -/

inductive Op (ν : Type) where
  | get (key : Text)
  | set (key : Text) (value : Option ν) (ttlMs : JsNum)
  | invalidate (key : Text)
  | invalidatePrefix (start : Text)
  | clear

/-- A call and the time at which it is made. -/
structure Call (ν : Type) where
  now : Nat
  op : Op ν

def Call.run (maxEntries : JsNum) (store : Store ν) (c : Call ν) : Store ν :=
  match c.op with
  | .get key => (Cache.get c.now key store).2
  | .set key value ttlMs => Cache.set maxEntries c.now key value ttlMs store
  | .invalidate key => Cache.invalidate key store
  | .invalidatePrefix start => Cache.invalidatePrefix start store
  | .clear => Cache.clear store

/-- The store after a sequence of calls. -/
def after (maxEntries : JsNum) (calls : List (Call ν)) : Store ν :=
  calls.foldl (Call.run maxEntries) .empty

/-- What was stored under the key before the call is not what is stored there after it. -/
def Op.ends (key : Text) : Op ν → Bool
  | .get _ => false
  | .set k _ ttlMs => k = key && isEffective ttlMs
  | .invalidate k => k = key
  | .invalidatePrefix start => start.isPrefixOf key
  | .clear => true

/-- A new key finds the store full. -/
def Call.crowds (maxEntries : JsNum) (key : Text) (store : Store ν) (c : Call ν) : Prop :=
  ∃ k value ttlMs, c.op = .set k value ttlMs ∧ k ≠ key ∧ isEffective ttlMs = true ∧
    isFull maxEntries store = true ∧ store.has k = false

/-- The call is an effective `set` of the key, which makes the entry. -/
def Call.stores (key : Text) (e : Entry ν) (c : Call ν) : Prop :=
  ∃ ttlMs, c.op = .set key e.value ttlMs ∧ isEffective ttlMs = true ∧
    e = newEntry c.now e.value ttlMs

/-- The last effective `set` of the key made the entry, and nothing has removed it since. -/
def Stored (key : Text) (e : Entry ν) (calls : List (Call ν)) : Prop :=
  ∃ before c since, calls = before ++ c :: since ∧ c.stores key e ∧
    ∀ d ∈ since, d.op.ends key = false

variable {maxEntries : JsNum} {store : Store ν} {c : Call ν} {calls before since : List (Call ν)}
  {key k : Text} {e : Entry ν} {value : Option ν} {ttlMs : JsNum} {now t : Nat} {v : ν}

/-! ### One call -/

theorem get?_get : (get now key store).2.get? k =
    if k = key ∧ (store.get? key).any (·.isExpired now) = true then none else store.get? k := by
  unfold get
  cases hhit : store.get? key with
  | none =>
    rw [if_neg (by simp)]
  | some hit =>
    dsimp only
    by_cases hexpired : hit.isExpired now = true
    · rw [if_pos hexpired, OrderedMap.get?_delete]
      simp [hexpired]
    · rw [if_neg hexpired]
      simp [hexpired]

theorem get_fst_eq_some_iff : (get now key store).1 = some v ↔
    ∃ e, store.get? key = some e ∧ e.isExpired now = false ∧ e.value = some v := by
  unfold get
  cases hhit : store.get? key with
  | none => simp
  | some hit =>
    by_cases hexpired : hit.isExpired now = true
    · simp [hexpired]
    · simp [hexpired]

/-- Making room takes no entry but those that make room. -/
theorem get?_evictOne (h : (evictOne store).get? k = some e) : store.get? k = some e := by
  unfold evictOne at h
  split at h
  · rw [OrderedMap.get?_delete] at h
    split at h
    · cases h
    · exact h
  · exact h

theorem get?_set (h : isEffective ttlMs = true) :
    (set maxEntries now key value ttlMs store).get? k =
      if k = key then some (newEntry now value ttlMs)
      else (if isFull maxEntries store && !store.has key then evictOne store
        else store).get? k := by
  rw [set, h, Bool.not_true, if_neg Bool.false_ne_true]
  dsimp only
  rw [OrderedMap.get?_set]
  by_cases hk : k = key
  · rw [if_pos hk, if_pos hk]
  · rw [if_neg hk, if_neg hk, OrderedMap.get?_delete, if_neg hk]

theorem set_of_not_effective (h : isEffective ttlMs = false) :
    set maxEntries now key value ttlMs store = store := by
  rw [set, h, Bool.not_false, if_pos rfl]

/-- What is stored after a call was made by the call, or was stored before it. -/
theorem get?_run (h : (c.run maxEntries store).get? key = some e) :
    c.stores key e ∨ store.get? key = some e ∧ c.op.ends key = false := by
  obtain ⟨now, op⟩ := c
  cases op with
  | get k =>
    change (get now k store).2.get? key = some e at h
    rw [get?_get] at h
    split at h
    · cases h
    · exact .inr ⟨h, rfl⟩
  | set k value ttlMs =>
    change (set maxEntries now k value ttlMs store).get? key = some e at h
    by_cases heffective : isEffective ttlMs = true
    · -- a set may evict other keys, and never adds one
      rw [get?_set heffective] at h
      by_cases hk : key = k
      · subst hk
        rw [if_pos rfl] at h
        cases h
        exact .inl ⟨ttlMs, rfl, heffective, rfl⟩
      · rw [if_neg hk] at h
        refine .inr ⟨?_, by simp [Op.ends, Ne.symm hk]⟩
        split at h
        · exact get?_evictOne h
        · exact h
    · rw [Bool.not_eq_true] at heffective
      rw [set_of_not_effective heffective] at h
      exact .inr ⟨h, by simp [Op.ends, heffective]⟩
  | invalidate k =>
    change (store.delete k).get? key = some e at h
    rw [OrderedMap.get?_delete] at h
    by_cases hk : key = k
    · rw [if_pos hk] at h
      cases h
    · rw [if_neg hk] at h
      exact .inr ⟨h, by simp [Op.ends, Ne.symm hk]⟩
  | invalidatePrefix start =>
    change (store.deleteIf start.isPrefixOf).get? key = some e at h
    rw [OrderedMap.get?_deleteIf] at h
    by_cases hstart : start.isPrefixOf key = true
    · rw [if_pos hstart] at h
      cases h
    · rw [if_neg hstart] at h
      exact .inr ⟨h, Bool.not_eq_true _ ▸ hstart⟩
  | clear => cases h

/-- What is stored stays, unless it expires, is ended, or makes room for a new key. -/
theorem get?_run_of (h : store.get? key = some e) (hlive : e.isExpired c.now = false)
    (hends : c.op.ends key = false) (hroom : ¬ c.crowds maxEntries key store) :
    (c.run maxEntries store).get? key = some e := by
  obtain ⟨now, op⟩ := c
  cases op with
  | get k =>
    change (get now k store).2.get? key = some e
    rw [get?_get, if_neg]
    · exact h
    · rintro ⟨rfl, hexpired⟩
      rw [h, Option.any_some, hlive] at hexpired
      cases hexpired
  | set k value ttlMs =>
    change (set maxEntries now k value ttlMs store).get? key = some e
    by_cases heffective : isEffective ttlMs = true
    · have hk : k ≠ key := by
        rintro rfl
        simp [Op.ends, heffective] at hends
      -- a set that needed room would crowd the key out
      have hfull : ¬ (isFull maxEntries store && !store.has k) = true := by
        rw [Bool.and_eq_true, Bool.not_eq_true']
        exact fun ⟨hfull, hnew⟩ => hroom ⟨k, value, ttlMs, rfl, hk, heffective, hfull, hnew⟩
      rw [get?_set heffective, if_neg (Ne.symm hk), if_neg hfull]
      exact h
    · rw [Bool.not_eq_true] at heffective
      rw [set_of_not_effective heffective]
      exact h
  | invalidate k =>
    change (store.delete k).get? key = some e
    have hk : key ≠ k := by
      rintro rfl
      simp [Op.ends] at hends
    rw [OrderedMap.get?_delete, if_neg hk]
    exact h
  | invalidatePrefix start =>
    change (store.deleteIf start.isPrefixOf).get? key = some e
    have hstart : start.isPrefixOf key = false := hends
    rw [OrderedMap.get?_deleteIf, hstart, if_neg Bool.false_ne_true]
    exact h
  | clear => cases hends

/-- A call leaves no more entries than a bound that the cap is within. -/
theorem size_run_le {n : Nat} (hone : (JsNum.fin (1 : Nat)).le maxEntries = true)
    (hn : maxEntries.le (.fin n) = true) (h : store.size ≤ n) :
    (c.run maxEntries store).size ≤ n := by
  obtain ⟨now, op⟩ := c
  cases op with
  | get k =>
    change (get now k store).2.size ≤ n
    unfold get
    split
    · exact h
    · split
      · exact OrderedMap.size_delete_le.trans h
      · exact h
  | set k value ttlMs =>
    change (set maxEntries now k value ttlMs store).size ≤ n
    rw [set]
    split
    · exact h
    dsimp only
    rw [OrderedMap.size_set OrderedMap.not_mem_keys_delete]
    by_cases hhas : store.has k = true
    · -- the key's own entry makes room for it
      have hsize := OrderedMap.size_delete (OrderedMap.has_iff.mp hhas)
      rw [hhas, Bool.not_true, Bool.and_false, if_neg Bool.false_ne_true]
      omega
    · by_cases hfull : isFull maxEntries store = true
      · have hpos : 1 ≤ store.size := JsNum.le_natCast_iff.mp (JsNum.le_trans hone hfull)
        obtain ⟨oldest, holdest⟩ :=
          Option.isSome_iff_exists.mp (OrderedMap.firstKey_isSome_iff.mpr hpos)
        have hsize := OrderedMap.size_delete (OrderedMap.mem_keys_of_firstKey holdest)
        have hle := OrderedMap.size_delete_le (m := store.delete oldest) (k := k)
        rw [Bool.not_eq_true] at hhas
        rw [hfull, hhas, Bool.not_false, Bool.and_self, if_pos rfl, evictOne, holdest]
        dsimp only
        omega
      · -- below the cap the size is a whole number below the bound
        have hlt : store.size < n := by
          by_contra hge
          have hcast : (JsNum.fin n).le (.fin store.size) = true :=
            JsNum.le_natCast_iff.mpr (Nat.not_lt.mp hge)
          exact hfull (JsNum.le_trans hn hcast)
        have hle := OrderedMap.size_delete_le (m := store) (k := k)
        rw [Bool.not_eq_true] at hfull
        rw [hfull, Bool.false_and, if_neg Bool.false_ne_true]
        omega
  | invalidate k => exact OrderedMap.size_delete_le.trans h
  | invalidatePrefix start => exact OrderedMap.size_deleteIf_le.trans h
  | clear => exact Nat.zero_le n

/-! ### Any sequence of calls -/

theorem after_append (h : List (Call ν)) :
    after maxEntries (calls ++ h) = h.foldl (Call.run maxEntries) (after maxEntries calls) :=
  List.foldl_append

theorem after_concat :
    after maxEntries (calls ++ [c]) = c.run maxEntries (after maxEntries calls) :=
  after_append [c]

/-- Whatever is in the store, the last effective `set` of its key has put there. -/
theorem stored_of_get? (h : (after maxEntries calls).get? key = some e) : Stored key e calls := by
  induction calls using List.reverseRecOn with
  | nil => cases h
  | append_singleton calls c ih =>
    rw [after_concat] at h
    rcases get?_run h with hstores | ⟨hold, hends⟩
    · exact ⟨calls, c, [], rfl, hstores, nofun⟩
    · obtain ⟨before, d, since, rfl, hstores, hsince⟩ := ih hold
      refine ⟨before, d, since ++ [c], by simp, hstores, fun b hb => ?_⟩
      rcases List.mem_append.mp hb with hb | hb
      · exact hsince b hb
      · rw [List.mem_singleton.mp hb]
        exact hends

/-- After an effective `set` the entry is in the store. -/
theorem get?_of_stores (h : c.stores key e) : (c.run maxEntries store).get? key = some e := by
  obtain ⟨now, op⟩ := c
  obtain ⟨ttlMs, hop, heffective, he⟩ := h
  obtain rfl : op = .set key e.value ttlMs := hop
  change (set maxEntries now key e.value ttlMs store).get? key = some e
  rw [get?_set heffective, if_pos rfl]
  exact congrArg some he.symm

/-- An entry that has not expired now had not expired earlier. -/
theorem isExpired_of_le (h : e.isExpired t = false) (hle : now ≤ t) : e.isExpired now = false := by
  by_contra hexpired
  have hearlier : e.expiresAt.le (.fin now) = true := Bool.eq_true_of_not_eq_false hexpired
  have hlater : e.expiresAt.le (.fin t) = true :=
    JsNum.le_trans hearlier (JsNum.le_natCast_iff.mpr hle)
  rw [Entry.isExpired, hlater] at h
  cases h

/-- The entry is in the store until it expires, is ended, or makes room for a new key. -/
theorem get?_of_stored (hstores : c.stores key e) (hends : ∀ d ∈ since, d.op.ends key = false)
    (hlive : e.isExpired t = false) (htimes : ∀ d ∈ since, d.now ≤ t)
    (hroom : ∀ first d rest, since = first ++ d :: rest →
      ¬ d.crowds maxEntries key (after maxEntries (before ++ c :: first))) :
    (after maxEntries (before ++ c :: since)).get? key = some e := by
  induction since using List.reverseRecOn with
  | nil =>
    rw [after_concat]
    exact get?_of_stores hstores
  | append_singleton since d ih =>
    have hstill : (after maxEntries (before ++ c :: since)).get? key = some e := by
      refine ih (fun b hb => hends b (List.mem_append_left _ hb))
        (fun b hb => htimes b (List.mem_append_left _ hb)) fun first b rest hsplit => ?_
      exact hroom first b (rest ++ [d]) (by rw [hsplit]; simp)
    have hd : d ∈ since ++ [d] := List.mem_append_right _ (List.mem_singleton.mpr rfl)
    rw [← List.cons_append, ← List.append_assoc, after_concat]
    exact get?_run_of hstill (isExpired_of_le hlive (htimes d hd)) (hends d hd)
      (hroom since d [] rfl)

/-- The store never holds more entries than the cap, rounded up. -/
theorem size_after_le {n : Nat} (hone : (JsNum.fin (1 : Nat)).le maxEntries = true)
    (hn : maxEntries.le (.fin n) = true) (calls : List (Call ν)) :
    (after maxEntries calls).size ≤ n := by
  induction calls using List.reverseRecOn with
  | nil => exact Nat.zero_le n
  | append_singleton calls c ih =>
    rw [after_concat]
    exact size_run_le hone hn ih

/-- After every sequence of calls the store holds no more entries than any whole number that the
cap does not exceed. A look-up finds what the last effective `set` of the key has stored, if that
has not expired or been removed; and it finds it, unless a new key has found the store full. -/
theorem cache_bounded_ttl_map (maxEntries : JsNum) (hone : (JsNum.fin (1 : Nat)).le maxEntries = true)
    (calls : List (Call ν)) :
    (∀ n : Nat, maxEntries.le (.fin n) = true → (after maxEntries calls).size ≤ n) ∧
      ∀ key t v, (∀ c ∈ calls, c.now ≤ t) →
        ((get t key (after maxEntries calls)).1 = some v →
          ∃ e, Stored key e calls ∧ e.value = some v ∧ e.isExpired t = false) ∧
        ∀ e before c since, calls = before ++ c :: since → c.stores key e →
          (∀ d ∈ since, d.op.ends key = false) → e.value = some v → e.isExpired t = false →
          (∀ first d rest, since = first ++ d :: rest →
            ¬ d.crowds maxEntries key (after maxEntries (before ++ c :: first))) →
          (get t key (after maxEntries calls)).1 = some v := by
  refine ⟨fun n hn => size_after_le hone hn calls, fun key t v htimes => ⟨fun h => ?_, ?_⟩⟩
  · obtain ⟨e, he, hlive, hvalue⟩ := get_fst_eq_some_iff.mp h
    exact ⟨e, stored_of_get? he, hvalue, hlive⟩
  · intro e before c since hcalls hstores hends hvalue hlive hroom
    subst hcalls
    have hsince : ∀ d ∈ since, d.now ≤ t := fun d hd =>
      htimes d (List.mem_append_right _ (List.mem_cons_of_mem _ hd))
    exact get_fst_eq_some_iff.mpr
      ⟨e, get?_of_stored hstores hends hlive hsince hroom, hlive, hvalue⟩

end

/-- Three keys, one after the other. -/
def threeSets : List (Call Nat) :=
  [⟨0, .set [97] (some 1) (.fin 10)⟩, ⟨1, .set [98] (some 2) (.fin 10)⟩,
    ⟨2, .set [99] (some 3) (.fin 10)⟩]

/-- The second key is still there after the third has come. -/
theorem cache_bounded_ttl_map_three :
    (after (.fin (3 : Nat)) threeSets).size ≤ 3 ∧
      (get 3 [98] (after (.fin (3 : Nat)) threeSets)).1 = some 2 := by
  have hone : (JsNum.fin (1 : Nat)).le (.fin (3 : Nat)) = true := JsNum.le_natCast_iff.mpr (by decide)
  obtain ⟨hsize, hlook⟩ := cache_bounded_ttl_map (.fin (3 : Nat)) hone threeSets
  refine ⟨hsize 3 (JsNum.le_natCast_iff.mpr (Nat.le_refl 3)), ?_⟩
  have htimes : ∀ c ∈ threeSets, c.now ≤ 3 := by decide
  refine (hlook [98] 3 2 htimes).2 (newEntry 1 (some 2) (.fin 10))
    [⟨0, .set [97] (some 1) (.fin 10)⟩] ⟨1, .set [98] (some 2) (.fin 10)⟩
    [⟨2, .set [99] (some 3) (.fin 10)⟩] rfl ⟨.fin 10, rfl, rfl, rfl⟩ (by decide) rfl
    (by decide +kernel) ?_
  intro first d rest hsplit hcrowds
  obtain ⟨_, _, _, -, -, -, hfull, -⟩ := hcrowds
  cases first with
  | nil =>
    have hroom : isFull (.fin (3 : Nat)) (after (.fin (3 : Nat))
        ([⟨0, .set [97] (some 1) (.fin 10)⟩] ++ [⟨1, .set [98] (some 2) (.fin 10)⟩] :
          List (Call Nat))) = false := by decide +kernel
    rw [hroom] at hfull
    cases hfull
  | cons b first => cases first <;> cases hsplit

/-- A cap of two and a half lets three entries in. -/
theorem fractional_cap_exceeded : ∃ calls : List (Call Nat),
    (JsNum.fin (1 : Nat)).le (.fin (5 / 2)) = true ∧
      (JsNum.fin ((after (.fin (5 / 2)) calls).size : Nat)).le (.fin (5 / 2)) = false := by
  refine ⟨threeSets, by decide +kernel, by decide +kernel⟩

end Feedbase.Cache
