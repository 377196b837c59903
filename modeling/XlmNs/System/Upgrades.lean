import XlmNs.Auctions.Contract
import XlmNs.Bridge.Contract
import XlmNs.Common.Upgrade
import XlmNs.Nft.Contract
import XlmNs.Registrar.Contract
import XlmNs.Registry.Contract
import XlmNs.Resolver.Contract
import XlmNs.Soroban.Machine

/-!
# `System.Upgrades` — do upgrades only go forward?

The six contracts with a stored version next to each other, and their `upgrade` entrypoints. A history variable keeps
the `migrate` calls of each. `upgrades_forward_iff`: over a run, no version goes back and every migration between the
first and the last version is made once, exactly when each accepted upgrade aims at a version not below the one it
finds.

An upgrade replaces the code; the runs here are those whose replacements have this `upgrade` again.
-/

namespace XlmNs.Upgrades

open Soroban

/-- The contracts whose `upgrade` stores a version. -/
inductive Contract
  | registry
  | registrar
  | resolver
  | auction
  | nft
  | bridge
deriving DecidableEq, Repr

/-- The storage of each. -/
structure State where
  registry  : Registry.State
  registrar : Registrar.State
  resolver  : Resolver.State
  auction   : Auctions.State
  nft       : Nft.State
  bridge    : Bridge.State

/-- A call of a contract's `upgrade`. -/
structure Upgrade where
  contract      : Contract
  migrationData : Bytes
deriving DecidableEq, Repr

/-- How an upgrade fails, in the contract it is of. -/
inductive Failure
  | registry (f : Fault Registry.RegistryError)
  | registrar (f : Fault Registrar.RegistrarError)
  | resolver (f : Fault Resolver.ResolverError)
  | auction (f : Fault Auctions.AuctionError)
  | nft (f : Fault Nft.NftError)
  | bridge (f : Fault Bridge.BridgeError)

/-- **One upgrade**, of the contract it names. -/
def step (s : State) (t : Tx Upgrade) : Except Failure State :=
  match t.call.contract with
  | .registry =>
      embed (fun u => { s with registry := u }) Failure.registry
        (Registry.upgrade t.env s.registry t.call.migrationData)
  | .registrar =>
      embed (fun u => { s with registrar := u }) Failure.registrar
        (Registrar.upgrade t.env s.registrar t.call.migrationData)
  | .resolver =>
      embed (fun u => { s with resolver := u }) Failure.resolver
        (Resolver.upgrade t.env s.resolver t.call.migrationData)
  | .auction =>
      embed (fun u => { s with auction := u }) Failure.auction
        (Auctions.upgrade t.env s.auction t.call.migrationData)
  | .nft =>
      embed (fun u => { s with nft := u }) Failure.nft (Nft.upgrade t.env s.nft t.call.migrationData)
  | .bridge =>
      embed (fun u => { s with bridge := u }) Failure.bridge
        (Bridge.upgrade t.env s.bridge t.call.migrationData)

/-! ## What an upgrade reads and writes -/

/-- The admin of a contract. -/
def State.admin (s : State) : Contract → Option Address
  | .registry  => s.registry.admin
  | .registrar => s.registrar.admin
  | .resolver  => s.resolver.admin
  | .auction   => s.auction.admin
  | .nft       => s.nft.admin
  | .bridge    => s.bridge.admin

/-- The version a contract has stored. -/
def State.stored (s : State) : Contract → Option UInt32
  | .registry  => s.registry.contractVersion
  | .registrar => s.registrar.contractVersion
  | .resolver  => s.resolver.contractVersion
  | .auction   => s.auction.contractVersion
  | .nft       => s.nft.contractVersion
  | .bridge    => s.bridge.contractVersion

/-- `get_version` of a contract. -/
def State.version (s : State) (c : Contract) : UInt32 := getVersion (s.stored c)

/-- What the body of `upgrade` does on the contract called: the version it stores, and its `migrate` calls. -/
def attempt (s : State) (t : Tx Upgrade) : Outcome Unit (UInt32 × List (UInt32 × UInt32)) :=
  upgradeTo t.env (s.admin t.call.contract) () (s.stored t.call.contract) t.call.migrationData

variable {s s' : State} {t : Tx Upgrade}

/-- **A committed upgrade is the shared body** on the contract called, and leaves the others alone. -/
theorem step_attempt (h : step s t = .ok s') :
    (∃ calls, attempt s t = .ok (decodeTargetVersion t.call.migrationData, calls)) ∧
      ∀ c, s'.stored c
        = if c = t.call.contract then some (decodeTargetVersion t.call.migrationData) else s.stored c := by
  obtain ⟨env, contract, data⟩ := t
  cases contract with
  | _ =>
      simp only [step, embed_eq_ok, Registry.upgrade, Registrar.upgrade, Resolver.upgrade, Auctions.upgrade,
        Nft.upgrade, Bridge.upgrade, upgradeStoring_eq_ok] at h
      obtain ⟨_, ⟨hadmin, rfl⟩, rfl⟩ := h
      refine ⟨⟨_, upgradeTo_eq_ok.mpr ⟨hadmin, rfl, rfl⟩⟩, ?_⟩
      intro c
      cases c <;> rfl

/-- What a committed upgrade makes of the versions. -/
theorem step_version (h : step s t = .ok s') (c : Contract) :
    s'.version c = if c = t.call.contract then decodeTargetVersion t.call.migrationData else s.version c := by
  unfold State.version
  rw [(step_attempt h).2 c]
  split <;> rfl

/-! ## Migrations as a history -/

/-- The `migrate` calls made in each contract so far, in order. -/
abbrev Migrated := Contract → List (UInt32 × UInt32)

/-- The `migrate` calls of one transaction. -/
def migrateCalls (s : State) (t : Tx Upgrade) : List (UInt32 × UInt32) :=
  match attempt s t with
  | .ok (_, calls) => calls
  | .error _       => []

/-- Note the calls of an upgrade that commits. -/
def noteMigrations (s : State) (t : Tx Upgrade) (_ : State) (made : Migrated) : Migrated :=
  fun c => if c = t.call.contract then made c ++ migrateCalls s t else made c

/-- The `migrate` calls made while `ts` runs from `s`. -/
def migrated (s : State) (ts : List (Tx Upgrade)) : Migrated :=
  (run (withHistory step noteMigrations) (s, fun _ => []) ts).2

theorem migrateCalls_of_ok (h : step s t = .ok s') :
    migrateCalls s t = migrations (s.version t.call.contract) (decodeTargetVersion t.call.migrationData) := by
  obtain ⟨⟨calls, hcalls⟩, _⟩ := step_attempt h
  obtain ⟨_, _, hmigrations⟩ := upgradeTo_eq_ok.mp hcalls
  unfold migrateCalls
  rw [hcalls]
  exact hmigrations.symm

/-! ## The property and the condition -/

/-- No contract's version is lower after the transaction than before. -/
def NeverBack (s : State) (t : Tx Upgrade) : Prop := ∀ c, s.version c ≤ (exec step s t).version c

/-- **Upgrades only go forward**: versions never go back, and every migration between the initial and the final
    version of a contract is made exactly once. -/
def GoesForward (s : State) (ts : List (Tx Upgrade)) : Prop :=
  Along step NeverBack s ts ∧
    ∀ c v, s.version c ≤ v → v < (run step s ts).version c → (migrated s ts c).count (v, v + 1) = 1

/-- An accepted upgrade aims at a version not below the one it finds. -/
def AimsForward (s : State) (t : Tx Upgrade) : Prop :=
  (∃ s', step s t = .ok s') → s.version t.call.contract ≤ decodeTargetVersion t.call.migrationData

/-- **One step, exactly.** -/
theorem neverBack_iff (s : State) (t : Tx Upgrade) : NeverBack s t ↔ AimsForward s t := by
  unfold NeverBack AimsForward
  rcases exec_cases step s t with hok | ⟨⟨e, herr⟩, hsame⟩
  · have hversion := step_version hok
    constructor
    · intro hback _
      have hcalled := hback t.call.contract
      rwa [hversion, if_pos rfl] at hcalled
    · intro haims c
      rw [hversion c]
      split
      · rename_i hc
        rw [hc]
        exact haims ⟨_, hok⟩
      · exact UInt32.le_refl _
  · rw [hsame]
    refine iff_of_true (fun c => UInt32.le_refl _) ?_
    rintro ⟨_, hok⟩
    cases herr.symm.trans hok

/-! ## Whole runs -/

/-- While upgrades aim forward, the calls made are the migrations from where they began to where they got. -/
theorem migrations_so_far {ts : List (Tx Upgrade)} {s : State} {made : Migrated} {first : Contract → UInt32}
    (h : Along step AimsForward s ts)
    (hmade : ∀ c, first c ≤ s.version c ∧ made c = migrations (first c) (s.version c)) (c : Contract) :
    (run (withHistory step noteMigrations) (s, made) ts).2 c = migrations (first c) ((run step s ts).version c) := by
  -- on the run; what is known of the calls made so far carries over one upgrade
  induction ts generalizing s made with
  | nil => exact (hmade c).2
  | cons t ts ih =>
      obtain ⟨haims, hrest⟩ := h
      have hback := (neverBack_iff s t).mpr haims
      have hnext : exec (withHistory step noteMigrations) (s, made) t
          = (exec step s t, (exec (withHistory step noteMigrations) (s, made) t).2) :=
        Prod.ext (exec_withHistory (s, made) t) rfl
      rw [run_cons, run_cons, hnext]
      refine ih hrest ?_
      intro c
      refine ⟨UInt32.le_trans (hmade c).1 (hback c), ?_⟩
      cases hok : step s t with
      | error e =>
          have herr : withHistory step noteMigrations (s, made) t = .error e := by
            unfold withHistory
            rw [hok]
          rw [exec_error herr, exec_error hok]
          exact (hmade c).2
      | ok s' =>
          have hnote : noteMigrations s t s' made c = migrations (first c) (s'.version c) := by
            unfold noteMigrations
            rw [step_version hok c]
            split
            · rename_i hc
              subst hc
              rw [(hmade _).2, migrateCalls_of_ok hok]
              exact migrations_append (hmade _).1 (haims ⟨s', hok⟩)
            · exact (hmade c).2
          have hboth : withHistory step noteMigrations (s, made) t = .ok (s', noteMigrations s t s' made) :=
            withHistory_eq_ok.mpr ⟨hok, rfl⟩
          rw [exec_ok hboth, exec_ok hok]
          exact hnote

/-- **A run of upgrades only goes forward iff each accepted upgrade aims at a version not below the one it finds**,
    which a missing target, read as version 2, is only up to that version. -/
theorem upgrades_forward_iff (s : State) (ts : List (Tx Upgrade)) :
    GoesForward s ts ↔ Along step AimsForward s ts := by
  constructor
  · rintro ⟨hback, _⟩
    exact hback.imp fun s t => (neverBack_iff s t).mp
  · intro haims
    refine ⟨haims.imp fun s t => (neverBack_iff s t).mpr, ?_⟩
    intro c v hfirst hlast
    have hcalls : migrated s ts c = migrations (s.version c) ((run step s ts).version c) :=
      migrations_so_far haims (fun c => ⟨UInt32.le_refl _, (migrations_self _).symm⟩) c
    rw [hcalls]
    exact count_migrations hfirst hlast

/-! ## An upgrade that names no target -/

namespace NoTarget

open Cast

/-- All six contracts just after `initialize`. -/
def initialized : State where
  registry  := { Registry.State.empty with admin := some admin, contractVersion := some contractVersion }
  registrar := { Registrar.State.empty with admin := some admin, contractVersion := some contractVersion }
  resolver  := { Resolver.State.empty with admin := some admin, contractVersion := some contractVersion }
  auction   := { Auctions.State.empty with admin := some admin, contractVersion := some contractVersion }
  nft       := { Nft.State.empty with admin := some admin, contractVersion := some contractVersion }
  bridge    := { Bridge.State.empty with admin := some admin, contractVersion := some contractVersion }

/-- The admin upgrades `c` to version 5, and once more without saying to which. -/
def twice (c : Contract) : List (Tx Upgrade) :=
  [⟨⟨100, [admin], none⟩, c, [0, 0, 0, 5]⟩, ⟨⟨200, [admin], none⟩, c, []⟩]

/-- **The code takes the version back**, in each contract: from 5 to 2. -/
theorem second_upgrade_goes_back : ¬ ∃ c, GoesForward initialized (twice c) := by
  rintro ⟨c, hforward⟩
  have hback := (along_split [_] [] hforward.1) c
  have hbefore : (run step initialized ((twice c).take 1)).version c = 5 := by cases c <;> decide
  have hafter : (run step initialized (twice c)).version c = 2 := by cases c <;> decide
  change (run step initialized ((twice c).take 1)).version c ≤ (run step initialized (twice c)).version c at hback
  rw [hbefore, hafter] at hback
  exact absurd hback (by decide)

end NoTarget

end XlmNs.Upgrades
