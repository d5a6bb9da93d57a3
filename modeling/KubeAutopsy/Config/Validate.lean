/-
# KubeAutopsy.Config.Validate — the checks a configuration has to pass

`Validate` and `validateWebhookURL` of `internal/config/config.go`, and the two durations
made of a configuration.  `url.Parse` and the verb `%q` are parameters.

The retention has an upper bound, so that its duration cannot wrap.  The report cooldown has
none: its duration is exact as long as it is at most `9223372036` seconds, and a longer one
that is accepted wraps (`durations_exact_iff`), for some values to a window that suppresses
nothing (`longCooldown_wraps`).
-/
import KubeAutopsy.Agent.LogTruncate
import KubeAutopsy.Config.Settings
import KubeAutopsy.Theory.Clock
import KubeAutopsy.Theory.Words

namespace KubeAutopsy.Config

open KubeAutopsy.Agent (maxLogLines)
open KubeAutopsy.Theory.Bytes (GoString lit itoa)
open KubeAutopsy.Theory.Clock
open KubeAutopsy.Theory.Words

set_option autoImplicit false
set_option linter.dupNamespace false

/-! ## The checks -/

/-- The parts of a `url.URL` that are looked at. -/
structure URL where
  scheme : GoString
  host : GoString
  deriving DecidableEq, Repr

/-- What the checks use of the standard library. -/
structure Library where
  /-- `url.Parse`; `none` is an error. -/
  parseURL : GoString → Option URL
  /-- The verb `%q`. -/
  quote : GoString → GoString

def maxTTLHours : Int := 24 * 365 * 10

/-- The check of a lower bound. -/
def atLeast (name : GoString) (least value : Int) : List GoString :=
  if value < least then
    [name ++ lit " must be at least " ++ itoa least ++ lit ", got " ++ itoa value]
  else []

/-- The check of an upper bound; `what` is its remark and `why` its reason. -/
def atMost (name : GoString) (most : Int) (what : GoString) (value : Int) (why : GoString) :
    List GoString :=
  if value > most then
    [name ++ lit " must be at most " ++ itoa most ++ what ++ lit ", got " ++ itoa value ++ why]
  else []

def notNegative (name : GoString) (value : Int) : List GoString :=
  if value < 0 then [name ++ lit " cannot be negative, got " ++ itoa value] else []

/-- `none` is a URL the client can use. -/
def validateWebhookURL (std : Library) (raw : GoString) : Option GoString :=
  if raw ≠ trimSpace raw then some (lit "it has leading or trailing whitespace")
  else
    match std.parseURL raw with
    | none => some (lit "it is not a valid URL")
    | some u =>
        if u.scheme ≠ lit "http" ∧ u.scheme ≠ lit "https" then
          some (lit "its scheme is " ++ std.quote u.scheme ++ lit ", want http or https")
        else if u.host = [] then some (lit "it has no host")
        else none

/-- The errors that are joined; a configuration is accepted if there are none. -/
def validate (std : Library) (c : Config) : List GoString :=
  atLeast (lit "ttl-hours") 1 c.ttlHours ++
  atMost (lit "ttl-hours") maxTTLHours (lit " (about ten years)") c.ttlHours
    (lit (": a larger value overflows the retention duration and makes the collector " ++
      "delete every report")) ++
  atLeast (lit "log-tail-lines") 1 c.logTailLines ++
  atMost (lit "log-tail-lines") maxLogLines [] c.logTailLines
    (lit (": the PodCrashReport schema rejects a longer list, which would fail the status " ++
      "write and lose every other diagnostic along with the logs")) ++
  atLeast (lit "max-concurrent-reports") 1 c.maxConcurrentReports ++
  atLeast (lit "max-concurrent-reconciles") 1 c.maxConcurrentReconciles ++
  notNegative (lit "max-reports") c.maxReports ++
  notNegative (lit "report-cooldown-seconds") c.reportCooldownSeconds ++
  if c.webhookURL ≠ [] then
    match validateWebhookURL std c.webhookURL with
    | some err => [lit "webhook URL is not usable: " ++ err]
    | none => []
  else []

/-! ## The durations -/

/-- A count of units as a `time.Duration`: the product wraps. -/
def duration (count unit : Int) : Int64 := Int64.ofInt count * Int64.ofInt unit

def Config.ttlDuration (c : Config) : Int64 := duration c.ttlHours hour
def Config.reportCooldown (c : Config) : Int64 := duration c.reportCooldownSeconds second

/-- Neither duration has wrapped. -/
structure Config.Exact (c : Config) : Prop where
  ttl : c.ttlDuration.toInt = c.ttlHours * 3600 * 10 ^ 9
  ttl_positive : 0 < c.ttlDuration.toInt
  cooldown : c.reportCooldown.toInt = c.reportCooldownSeconds * 10 ^ 9
  cooldown_zero : c.reportCooldown.toInt = 0 → c.reportCooldownSeconds = 0
  cooldown_nonneg : 0 ≤ c.reportCooldown.toInt

theorem toInt_duration {count u : Int} (counted : InRange count) (units : InRange u)
    (range : InRange (count * u)) : (duration count u).toInt = count * u := by
  have same : (Int64.ofInt count).toInt * (Int64.ofInt u).toInt = count * u := by
    rw [toInt_ofInt counted, toInt_ofInt units]
  rw [← same] at range ⊢
  exact toInt_mul range

/-- What an accepted configuration is known to satisfy of the two counts. -/
theorem bounds_of_validate {std : Library} {c : Config} (accepted : validate std c = []) :
    1 ≤ c.ttlHours ∧ c.ttlHours ≤ maxTTLHours ∧ 0 ≤ c.reportCooldownSeconds := by
  simp only [validate, atLeast, atMost, notNegative, List.append_eq_nil_iff, ite_eq_right_iff,
    List.cons_ne_nil, imp_false] at accepted
  omega

/-- **When no accepted duration wraps.** -/
theorem durations_exact_iff (std : Library) (c : Config) (accepted : validate std c = []) :
    c.Exact ↔ c.reportCooldownSeconds ≤ 9223372036 := by
  obtain ⟨positive, bounded, nonneg⟩ := bounds_of_validate accepted
  constructor
  · intro exact_
    have same := exact_.cooldown
    have high := c.reportCooldown.toInt_lt
    omega
  · intro short
    have hours : c.ttlHours ≤ 87600 := bounded
    have ttl : c.ttlDuration.toInt = c.ttlHours * 3600000000000 :=
      toInt_duration (u := 3600000000000) ⟨by omega, by omega⟩ ⟨by decide, by decide⟩
        ⟨by omega, by omega⟩
    have cooldown : c.reportCooldown.toInt = c.reportCooldownSeconds * 1000000000 :=
      toInt_duration (u := 1000000000) ⟨by omega, by omega⟩ ⟨by decide, by decide⟩
        ⟨by omega, by omega⟩
    refine ⟨?_, ?_, ?_, ?_, ?_⟩ <;> omega

/-- The checks of a configuration without a webhook use neither. -/
def noURLs : Library := ⟨fun _ => none, id⟩

theorem durations_exact_iff_newConfig : validate noURLs newConfig = [] ∧ newConfig.Exact := by
  have accepted : validate noURLs newConfig = [] := by decide +kernel
  exact ⟨accepted, (durations_exact_iff noURLs newConfig accepted).2 (by decide)⟩

/-- A configuration with another report cooldown. -/
def withCooldown (seconds : Int) : Config := { newConfig with reportCooldownSeconds := seconds }

/-- **A long cooldown is accepted and wraps**, one to a window below zero and one to no
window at all: both suppress nothing. -/
theorem longCooldown_wraps :
    (validate noURLs (withCooldown 9223372037) = [] ∧
      (withCooldown 9223372037).reportCooldown.toInt = -9223372036709551616 ∧
      ¬ (withCooldown 9223372037).Exact) ∧
    (validate noURLs (withCooldown (2 ^ 55)) = [] ∧
      (withCooldown (2 ^ 55)).reportCooldown.toInt = 0 ∧ ¬ (withCooldown (2 ^ 55)).Exact) := by
  have negative : (withCooldown 9223372037).reportCooldown.toInt = -9223372036709551616 := by
    decide +kernel
  have zero : (withCooldown (2 ^ 55)).reportCooldown.toInt = 0 := by decide +kernel
  refine ⟨⟨by decide +kernel, negative, ?_⟩, ⟨by decide +kernel, zero, ?_⟩⟩
  · intro exact_
    have nonneg := exact_.cooldown_nonneg
    rw [negative] at nonneg
    exact absurd nonneg (by decide)
  · intro exact_
    exact absurd (exact_.cooldown_zero zero) (by decide)

end KubeAutopsy.Config
