import Mathlib.Data.List.Basic

/-!
# `Soroban.Env` — the host as a contract sees it

What a contract invocation reads from the host: the ledger timestamp, which addresses authorised the
invocation (`require_auth`), and how calls into other contracts end.

* `Env` is one invocation. `signers` are the addresses whose signature covers it and the calls it makes;
  `invoker` is the contract that called it, if any. `require_auth(a)` passes for a signer and for the
  direct invoker, and traps otherwise.
* `Outcome ε α` is how an entrypoint ends: a value, a contract error `Err(e)`, or a trap (panic, failed
  `require_auth`, failed nested call). Every failure discards the storage writes of the invocation.
* A call into another contract is a partial function on the state of the outside world; `invoke` turns its
  failure into a trap of the caller, as `env.invoke_contract` does.
-/

namespace Soroban

/-- A host `String`: a byte sequence. -/
abbrev Bytes := List UInt8

/-- The bytes of an ASCII literal. -/
def ascii (s : String) : Bytes := s.toList.map (fun c => c.toNat.toUInt8)

/-- An `Address`, identified by its strkey (`G…` account or `C…` contract). -/
structure Address where
  strkey : Bytes
deriving DecidableEq, Repr

/-- `address.to_string()`. -/
def Address.toString (a : Address) : Bytes := a.strkey

/-- One invocation, as the invoked contract sees it. -/
structure Env where
  /-- `env.ledger().timestamp()` -/
  timestamp : UInt64
  /-- the addresses that signed the invocation -/
  signers   : List Address
  /-- the calling contract, `none` for a top-level invocation -/
  invoker   : Option Address
deriving DecidableEq, Repr

/-- `a.require_auth()` would pass. -/
def Env.Authorises (env : Env) (a : Address) : Prop := a ∈ env.signers ∨ env.invoker = some a

instance (env : Env) (a : Address) : Decidable (env.Authorises a) :=
  inferInstanceAs (Decidable (_ ∨ _))

/-- The environment of a call made by the contract `self` while it runs in `env`. -/
def Env.callFrom (env : Env) (self : Address) : Env := { env with invoker := some self }

/-- A transaction: an entrypoint with its arguments, invoked in an environment. -/
structure Tx (κ : Type) where
  env  : Env
  call : κ

/-- Transactions in the order ledgers close: their timestamps never go back. -/
def LedgerOrder {κ : Type} (ts : List (Tx κ)) : Prop :=
  ts.Pairwise (fun t u => t.env.timestamp ≤ u.env.timestamp)

instance {κ : Type} (ts : List (Tx κ)) : Decidable (LedgerOrder ts) :=
  inferInstanceAs (Decidable (ts.Pairwise _))

/-- How an invocation can fail. -/
inductive Fault (ε : Type)
  | error (e : ε)
  | trap
deriving DecidableEq, Repr

/-- How an invocation ends. -/
abbrev Outcome (ε α : Type) := Except (Fault ε) α

variable {ε ε' α β : Type}

/-- `return Err(e)` unless `c` holds. -/
def require (c : Prop) [Decidable c] (e : ε) : Outcome ε Unit :=
  if c then .ok () else .error (.error e)

/-- `o.ok_or(e)?`. -/
def okOr (o : Option α) (e : ε) : Outcome ε α :=
  match o with
  | some a => .ok a
  | none   => .error (.error e)

/-- `r.map_err(|_| e)?`. -/
def mapErr (r : Except ε' α) (e : ε) : Outcome ε α :=
  match r with
  | .ok a    => .ok a
  | .error _ => .error (.error e)

/-- `a.require_auth()`. -/
def requireAuth (env : Env) (a : Address) : Outcome ε Unit :=
  if env.Authorises a then .ok () else .error .trap

/-- The result of a nested call: a failing callee traps the caller. -/
def invoke (r : Option α) : Outcome ε α :=
  match r with
  | some a => .ok a
  | none   => .error .trap

/-! ## Success of each construct, for reading an entrypoint that returned `Ok` backwards -/

/-- Two steps commit if both do. -/
theorem bind_eq_ok {r : Outcome ε α} {f : α → Outcome ε β} {b : β} :
    (r >>= f) = .ok b ↔ ∃ a, r = .ok a ∧ f a = .ok b := by
  cases r with
  | ok a =>
      constructor
      · intro h; exact ⟨a, rfl, h⟩
      · rintro ⟨a', ha, h⟩
        injection ha with ha
        subst ha
        exact h
  | error e =>
      constructor
      · intro h; cases h
      · rintro ⟨_, ha, _⟩; cases ha

@[simp] theorem pure_eq_ok {a b : α} : (pure a : Outcome ε α) = .ok b ↔ a = b := by
  constructor
  · intro h; injection h
  · rintro rfl; rfl

/-- A check passes if its condition holds. -/
@[simp] theorem require_eq_ok {c : Prop} [Decidable c] {e : ε} {u : Unit} :
    require c e = .ok u ↔ c := by
  unfold require
  split <;> simp_all

@[simp] theorem okOr_eq_ok {o : Option α} {e : ε} {a : α} : okOr o e = .ok a ↔ o = some a := by
  cases o <;> simp [okOr]

@[simp] theorem mapErr_eq_ok {r : Except ε' α} {e : ε} {a : α} : mapErr r e = .ok a ↔ r = .ok a := by
  cases r <;> simp [mapErr]

/-- A signature is asked for, and given. -/
@[simp] theorem requireAuth_eq_ok {env : Env} {a : Address} {u : Unit} :
    (requireAuth env a : Outcome ε Unit) = .ok u ↔ env.Authorises a := by
  unfold requireAuth
  split <;> simp_all

/-- A call into another contract has to come back. -/
@[simp] theorem invoke_eq_ok {r : Option α} {a : α} :
    (invoke r : Outcome ε α) = .ok a ↔ r = some a := by
  cases r <;> simp [invoke]

theorem require_ok {c : Prop} [Decidable c] {e : ε} (h : c) : require c e = .ok () := require_eq_ok.mpr h

theorem requireAuth_ok {env : Env} {a : Address} (h : env.Authorises a) :
    (requireAuth env a : Outcome ε Unit) = .ok () :=
  requireAuth_eq_ok.mpr h

/-- A callee's result as its caller sees it. -/
theorem toOption_eq_some {r : Except ε' α} {a : α} : r.toOption = some a ↔ r = .ok a := by
  cases r with
  | ok b =>
      constructor
      · intro h
        exact congrArg Except.ok (Option.some.inj h)
      · intro h
        exact congrArg some (Except.ok.inj h)
  | error e =>
      constructor
      · intro h; cases h
      · intro h; cases h

/-- Whether an invocation returned `Ok`, as a test. -/
theorem exists_eq_ok_iff {r : Except ε' α} : (∃ a, r = .ok a) ↔ r.toOption.isSome = true := by
  rw [Option.isSome_iff_exists]
  exact exists_congr (fun _ => toOption_eq_some.symm)

/-! ## Refusal of each construct, for reading an entrypoint that returned `Err` backwards -/

/-- Two steps fail where one of them does. -/
theorem bind_eq_error {r : Outcome ε α} {f : α → Outcome ε β} {x : Fault ε} :
    (r >>= f) = .error x ↔ r = .error x ∨ ∃ a, r = .ok a ∧ f a = .error x := by
  cases r with
  | ok a =>
      constructor
      · intro h
        exact Or.inr ⟨a, rfl, h⟩
      · rintro (h | ⟨_, ha, h⟩)
        · cases h
        · injection ha with ha
          subst ha
          exact h
  | error y =>
      constructor
      · intro h
        injection h with h
        exact Or.inl (congrArg Except.error h)
      · rintro (h | ⟨_, ha, _⟩)
        · injection h with h
          exact congrArg Except.error h
        · cases ha

theorem require_eq_error {c : Prop} [Decidable c] {e e' : ε} :
    require c e = .error (.error e') ↔ ¬ c ∧ e = e' := by
  unfold require
  split <;> simp_all

theorem okOr_eq_error {o : Option α} {e e' : ε} : okOr o e = .error (.error e') ↔ o = none ∧ e = e' := by
  cases o <;> simp [okOr]

theorem mapErr_eq_error {r : Except ε' α} {e e' : ε} :
    mapErr r e = .error (.error e') ↔ (∃ x, r = .error x) ∧ e = e' := by
  cases r <;> simp [mapErr]

theorem pure_ne_error {a : α} {x : Fault ε} : (pure a : Outcome ε α) ≠ .error x := by
  intro h
  cases h

theorem requireAuth_ne_error {env : Env} {a : Address} {e : ε} :
    (requireAuth env a : Outcome ε Unit) ≠ .error (.error e) := by
  unfold requireAuth
  split <;> simp

theorem invoke_ne_error {r : Option α} {e : ε} : (invoke r : Outcome ε α) ≠ .error (.error e) := by
  cases r <;> simp [invoke]

/-- A computation does not fail with `x` if none of its steps does. -/
theorem bind_ne_error {r : Outcome ε α} {f : α → Outcome ε β} {x : Fault ε} (hr : r ≠ .error x)
    (hf : ∀ a, f a ≠ .error x) : (r >>= f) ≠ .error x := by
  intro h
  rcases bind_eq_error.mp h with h | ⟨a, _, h⟩
  · exact hr h
  · exact hf a h

theorem require_ne_error {c : Prop} [Decidable c] {e e' : ε} (h : e ≠ e') : require c e ≠ .error (.error e') :=
  fun hfail => h (require_eq_error.mp hfail).2

theorem okOr_ne_error {o : Option α} {e e' : ε} (h : e ≠ e') : okOr o e ≠ .error (.error e') :=
  fun hfail => h (okOr_eq_error.mp hfail).2

theorem require_ne_trap {c : Prop} [Decidable c] {e : ε} : require c e ≠ .error .trap := by
  unfold require
  split <;> simp

theorem okOr_ne_trap {o : Option α} {e : ε} : okOr o e ≠ .error .trap := by
  cases o <;> simp [okOr]

theorem mapErr_ne_trap {r : Except ε' α} {e : ε} : mapErr r e ≠ .error .trap := by
  cases r <;> simp [mapErr]

/-- A computation that is not refused passes its first step, unless that traps. -/
theorem bind_not_refused {r : Outcome ε α} {f : α → Outcome ε β} (htrap : r ≠ .error .trap)
    (h : ∀ e, (r >>= f) ≠ .error (.error e)) : ∃ a, r = .ok a ∧ ∀ e, f a ≠ .error (.error e) := by
  cases r with
  | ok a => exact ⟨a, rfl, h⟩
  | error x =>
      cases x with
      | error e => exact absurd rfl (h e)
      | trap => exact absurd rfl htrap

/-! ## Composition -/

/-- A step that returned `a` passes it on. -/
theorem ok_bind_outcome {a : α} {f : α → Outcome ε β} : ((.ok a : Outcome ε α) >>= f) = f a := rfl

/-- Mapping the value of a computation is mapping that of its last step. -/
theorem map_bind_outcome {γ : Type} {r : Outcome ε α} {f : α → Outcome ε β} {g : β → γ} :
    (r >>= f).map g = r >>= fun a => (f a).map g := by
  cases r <;> rfl

/-- A result that is renamed before the next step. -/
theorem bind_map_outcome {γ : Type} {r : Outcome ε α} {g : α → β} {f : β → Outcome ε γ} :
    (r.map g >>= f) = r >>= fun a => f (g a) := by
  cases r <;> rfl

/-- Two continuations that agree on what a computation returns. -/
theorem bind_congr_outcome {r : Outcome ε α} {f g : α → Outcome ε β} (h : ∀ a, r = .ok a → f a = g a) :
    (r >>= f) = (r >>= g) := by
  cases r with
  | ok a => exact h a rfl
  | error e => rfl

/-- A renamed result. -/
theorem map_eq_ok {r : Outcome ε α} {g : α → β} {b : β} : r.map g = .ok b ↔ ∃ a, r = .ok a ∧ g a = b := by
  cases r with
  | ok a =>
      constructor
      · intro h
        exact ⟨a, rfl, Except.ok.inj h⟩
      · rintro ⟨a', ha, rfl⟩
        obtain rfl := Except.ok.inj ha
        rfl
  | error x =>
      constructor
      · intro h; cases h
      · rintro ⟨_, ha, _⟩; cases ha

/-- A mapped computation fails as the computation does. -/
theorem map_eq_error {r : Outcome ε α} {g : α → β} {x : Fault ε} : r.map g = .error x ↔ r = .error x := by
  cases r with
  | ok a => exact iff_of_false (fun h => by cases h) (fun h => by cases h)
  | error y => exact ⟨fun h => congrArg Except.error (Except.error.inj h), fun h => congrArg _ h⟩

theorem map_pure_outcome {a : α} {g : α → β} : (pure a : Outcome ε α).map g = pure (g a) := rfl

theorem invoke_map {r : Option α} {g : α → β} : (invoke (r.map g) : Outcome ε β) = (invoke r).map g := by
  cases r <;> rfl

end Soroban
