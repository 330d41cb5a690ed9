import Feedbase.Common.Strings
import Feedbase.Schema.Accounts

/-!
# Burst caps for public writes

Every unauthenticated write to a public board bumps up to three counters: one for the voter
on the board, one for the board, and one for the email domain on the board. A counter is a
row of `public_write_counters`, whose primary key is a scope key, cut to 100 code units, and
the start of a fixed window.

## Main definitions

* `Scope`, `WriteLimits`, `Check`, `checksFor` — the caps a write is charged against
* `windowStart`, `upsertCounter`, `pruneCounters` — the table
-/

namespace Feedbase

/-- What a counter counts. -/
inductive Scope where
  | voterHour
  | tenantHour
  | domainDay
  deriving DecidableEq, Repr

/-- `WINDOW`: the size of the scope's windows in milliseconds. -/
def Scope.size : Scope → Nat
  | .voterHour | .tenantHour => 60 * 60 * 1000
  | .domainDay => 24 * 60 * 60 * 1000

/-- `LIMITS`, from the environment or by default. -/
structure WriteLimits where
  perVoterPerTenantHour : ℚ := 10
  perTenantHour : ℚ := 60
  perEmailDomainDay : ℚ := 30

def WriteLimits.max (limits : WriteLimits) : Scope → ℚ
  | .voterHour => limits.perVoterPerTenantHour
  | .tenantHour => limits.perTenantHour
  | .domainDay => limits.perEmailDomainDay

/-- One cap a write is charged against; its window size and limit are the scope's. -/
structure Check where
  key : String
  scope : Scope
  deriving DecidableEq

/-- The scope key as the column stores it. -/
def Check.scopeKey (c : Check) : String := sliceUnits 100 c.key

def voterKey (voterHash : String) (tenantId : Nat) : String :=
  "v:" ++ voterHash ++ ":" ++ toString tenantId

def tenantKey (tenantId : Nat) : String := "t:" ++ toString tenantId

def domainKey (emailDomain : String) (tenantId : Nat) : String :=
  "d:" ++ emailDomain ++ ":" ++ toString tenantId

/-- The caps of `chargePublicWrite`; an empty hash or domain counts as none. -/
def checksFor (tenantId : Nat) (voterHash emailDomain : Option String) : List Check :=
  (orNull voterHash).toList.map (fun h => ⟨voterKey h tenantId, .voterHour⟩) ++
    ⟨tenantKey tenantId, .tenantHour⟩ ::
      (orNull emailDomain).toList.map fun d => ⟨domainKey d tenantId, .domainDay⟩

theorem mem_checksFor {tenantId : Nat} {voterHash emailDomain : Option String} {c : Check} :
    c ∈ checksFor tenantId voterHash emailDomain ↔
      (∃ h, orNull voterHash = some h ∧ c = ⟨voterKey h tenantId, .voterHour⟩) ∨
      c = ⟨tenantKey tenantId, .tenantHour⟩ ∨
      ∃ d, orNull emailDomain = some d ∧ c = ⟨domainKey d tenantId, .domainDay⟩ := by
  simp [checksFor, eq_comm]

/-! ### The table -/

/-- The start, in seconds, of the fixed window that contains the millisecond `now`. -/
def windowStart (sizeMs now : Nat) : Time := now / sizeMs * sizeMs / 1000

/-- `public_write_counters`: the count of each scope key and window start. -/
abbrev Counters := String → Time → Option Nat

/-- `INSERT … ON DUPLICATE KEY UPDATE`: one more, and the count including this request. -/
def upsertCounter (counters : Counters) (scopeKey : String) (start : Time) : Nat × Counters :=
  let count := (counters scopeKey start).getD 0 + 1
  (count, fun k s => if k = scopeKey ∧ s = start then some count else counters k s)

/-- `DELETE … WHERE window_start < (NOW() - INTERVAL 2 DAY)`, when `NOW()` is `dbNow`. -/
def pruneCounters (counters : Counters) (dbNow : Int) : Counters :=
  fun k s => if (s : Int) < dbNow - 2 * 24 * 3600 then none else counters k s

end Feedbase
