import RedTeaming.Licenses.Services

/-!
# `RedTeaming.Licenses.PlatformSettings`: the settings of the platform

`core/platform_settings/models.py`, `core/platform_settings/schemas.py`, and
`core/platform_settings/service.py`. The settings are one row, which the first write makes. Until
then a read serves the shipped defaults.

A `Knob` names a column of the row that is not bookkeeping, as `SETTINGS_KNOBS` does. So the
settings are a value for each knob, and a patch is a value for some of them.
-/

set_option autoImplicit false

namespace RedTeaming.Licenses

open RedTeaming.Library

/-- `SETTINGS_KNOBS`. -/
inductive Knob
  | defaultLicenseId | inviteOnly | emailVerificationTtlHours | passwordMinLength
  | passwordRequireUppercase | passwordRequireDigit | passwordRequireSymbol
  | passwordResetCooldownSeconds | passwordResetMaxPerDay
deriving DecidableEq, Repr

namespace Knob

/-- Every knob, in the order of the model. -/
def all : List Knob :=
  [.defaultLicenseId, .inviteOnly, .emailVerificationTtlHours, .passwordMinLength,
    .passwordRequireUppercase, .passwordRequireDigit, .passwordRequireSymbol,
    .passwordResetCooldownSeconds, .passwordResetMaxPerDay]

theorem mem_all (k : Knob) : k ∈ all := by cases k <;> decide

/-- The type of the column. -/
def Value : Knob → Type
  | .defaultLicenseId => UUID
  | .inviteOnly | .passwordRequireUppercase | .passwordRequireDigit |
      .passwordRequireSymbol => Bool
  | .emailVerificationTtlHours | .passwordMinLength | .passwordResetCooldownSeconds
  | .passwordResetMaxPerDay => Nat

instance : ∀ k : Knob, DecidableEq k.Value
  | .defaultLicenseId => inferInstanceAs (DecidableEq UUID)
  | .inviteOnly | .passwordRequireUppercase | .passwordRequireDigit | .passwordRequireSymbol =>
    inferInstanceAs (DecidableEq Bool)
  | .emailVerificationTtlHours | .passwordMinLength | .passwordResetCooldownSeconds
  | .passwordResetMaxPerDay => inferInstanceAs (DecidableEq Nat)

/-- The bounds of `PlatformSettingsUpdate`. -/
def inBounds : (k : Knob) → k.Value → Prop
  | .emailVerificationTtlHours, (hours : Nat) => 1 ≤ hours ∧ hours ≤ 8760
  | .passwordMinLength, (length : Nat) => 8 ≤ length ∧ length ≤ 128
  | .passwordResetCooldownSeconds, (seconds : Nat) => seconds ≤ 3600
  | .passwordResetMaxPerDay, (count : Nat) => 1 ≤ count ∧ count ≤ 100
  | _, _ => True

end Knob

/-- A value for each knob. -/
abbrev Knobs := ∀ k : Knob, k.Value

/-- A value for some knobs: the fields that a payload sets. -/
abbrev Changes := ∀ k : Knob, Option k.Value

/-- `PlatformSettingsUpdate`. -/
structure PlatformSettingsUpdate where
  changes : Changes
  inBounds : ∀ k v, changes k = some v → k.inBounds v

/-- `PlatformSettings`. A transient row has no `updatedAt`. -/
structure PlatformSettings where
  knobs : Knobs
  updatedAt : Option Time

/-- The settings of the deployment, from its environment. -/
structure Settings where
  catalog : Catalog
  platformDefaultDataLicense : String
  emailVerificationTtlHours : Nat
  restoreWindowDays : Nat
  selectable : catalog.isSelectablePlatformDefault platformDefaultDataLicense = true
  ttl : 1 ≤ emailVerificationTtlHours ∧ emailVerificationTtlHours ≤ 8760

/-- `restore_cutoff`. -/
def Settings.restoreCutoff (settings : Settings) (now : Time) : Time :=
  now - settings.restoreWindowDays * 86400

/-- The shipped defaults. Two come from the environment, the others are the defaults of the
model. -/
def Settings.shippedDefaults (settings : Settings) : Knobs
  | .defaultLicenseId => curatedLicenseId settings.platformDefaultDataLicense
  | .emailVerificationTtlHours => settings.emailVerificationTtlHours
  | .inviteOnly => false
  | .passwordMinLength => (8 : Nat)
  | .passwordRequireUppercase => false
  | .passwordRequireDigit => false
  | .passwordRequireSymbol => false
  | .passwordResetCooldownSeconds => (60 : Nat)
  | .passwordResetMaxPerDay => (5 : Nat)

/-- `get_platform_settings`: the row, or a transient one with the shipped defaults. -/
def getPlatformSettings (settings : Settings) (row : Option PlatformSettings) :
    PlatformSettings :=
  row.getD ⟨settings.shippedDefaults, none⟩

namespace Changes

/-- The knobs after a write of the changes. -/
def applyTo (changes : Changes) (knobs : Knobs) : Knobs := fun k => (changes k).getD (knobs k)

/-- No knob is set. -/
def isEmpty (changes : Changes) : Bool := Knob.all.all fun k => (changes k).isNone

/-- What a patch changes: the fields whose value is not the current one. -/
def against (payload : Changes) (current : Knobs) : Changes :=
  fun k => (payload k).filter fun v => decide (current k ≠ v)

theorem applyTo_of_some {changes : Changes} {k : Knob} {v : k.Value} (h : changes k = some v)
    (knobs : Knobs) : changes.applyTo knobs k = v := by rw [applyTo, h, Option.getD_some]

theorem applyTo_of_none {changes : Changes} {k : Knob} (h : changes k = none) (knobs : Knobs) :
    changes.applyTo knobs k = knobs k := by rw [applyTo, h, Option.getD_none]

/-- A change is a value of the payload. -/
theorem of_against {payload : Changes} {current : Knobs} {k : Knob} {v : k.Value}
    (h : payload.against current k = some v) : payload k = some v :=
  (Option.filter_eq_some_iff.mp h).1

/-- A field of the payload that is no change has the current value. -/
theorem against_eq_none {payload : Changes} {current : Knobs} {k : Knob} {v : k.Value}
    (hv : payload k = some v) (h : payload.against current k = none) : current k = v := by
  rw [against, hv, Option.filter_eq_none_iff] at h
  simpa using h v rfl

end Changes

/-- `update_platform_settings`: `INSERT … ON CONFLICT (id) DO UPDATE`. The insert writes every
knob, the update only the changes. `row` is the row that the statement meets. The insert carries
the knobs of a read made before, and only when that read found no row either. -/
def updatePlatformSettings (settings : Settings) (row : Option PlatformSettings)
    (changes : Changes) (now : Time) : PlatformSettings where
  knobs := match row with
    | some row => changes.applyTo row.knobs
    | none => changes.applyTo settings.shippedDefaults
  updatedAt := some now

/-- Both arms apply the changes to the settings in effect. -/
theorem knobs_updatePlatformSettings (settings : Settings) (row : Option PlatformSettings)
    (changes : Changes) (now : Time) :
    (updatePlatformSettings settings row changes now).knobs =
      changes.applyTo (getPlatformSettings settings row).knobs := by
  cases row <;> rfl

/-- The shipped defaults are within the bounds of the schema. -/
theorem inBounds_shippedDefaults (settings : Settings) (k : Knob) :
    k.inBounds (settings.shippedDefaults k) := by
  cases k with
  | emailVerificationTtlHours => exact settings.ttl
  | passwordMinLength =>
    show 8 ≤ 8 ∧ 8 ≤ 128
    omega
  | passwordResetCooldownSeconds =>
    show 60 ≤ 3600
    omega
  | passwordResetMaxPerDay =>
    show 1 ≤ 5 ∧ 5 ≤ 100
    omega
  | _ => trivial

end RedTeaming.Licenses
