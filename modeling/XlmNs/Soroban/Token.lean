import Mathlib.Algebra.BigOperators.Group.Finset.Piecewise
import Mathlib.Algebra.GroupWithZero.Nat
import Mathlib.Algebra.Order.BigOperators.Group.Finset
import XlmNs.Soroban.Env

/-!
# `Soroban.Token` — exact tokens and pooled funds

`Exact transfer` is a token family whose `transfer` moves exactly the given amount or fails: a balance for every
asset and holder, and the laws that say what a successful transfer does to it. `transferAll` is a list of payments
out of one account.

`tally` adds up an amount over a list of keys, and says what becomes of the sum when one key changes.

`Covered owed funds` says one pool of funds covers the obligations towards every finite set of keys at once. Its
rules follow an obligation being taken on and being discharged.
-/

namespace Soroban

variable {ω : Type}

/-! ## Tokens -/

/-- `token::Client::new(&env, &asset).transfer(&from, &to, &amount)`, as a partial function on the state of
    the outside world. Amounts are `u64`s widened to `i128`. -/
abbrev TransferFn (ω : Type) := Env → Address → Address → Address → UInt64 → ω → Option ω

/-- **Tokens that move exactly what they are told to, or trap.** -/
structure Exact (transfer : TransferFn ω) where
  /-- what a holder has of an asset -/
  balance : Address → Address → ω → Nat
  debit   : ∀ {env asset src dst amount w w'}, transfer env asset src dst amount w = some w' → src ≠ dst →
    balance asset src w = balance asset src w' + amount.toNat
  credit  : ∀ {env asset src dst amount w w'}, transfer env asset src dst amount w = some w' → src ≠ dst →
    balance asset dst w' = balance asset dst w + amount.toNat
  same    : ∀ {env asset src amount w w'}, transfer env asset src src amount w = some w' →
    balance asset src w' = balance asset src w
  frame   : ∀ {env asset src dst amount w w' a h}, transfer env asset src dst amount w = some w' →
    a ≠ asset ∨ h ≠ src ∧ h ≠ dst → balance a h w' = balance a h w

/-- A plain token ledger: `src` must authorise the transfer and have the amount. -/
def ledgerTransfer : TransferFn (Address → Address → Nat) := fun env asset src dst amount w =>
  if env.Authorises src ∧ amount.toNat ≤ w asset src then
    let paid := fun a h => if a = asset ∧ h = src then w a h - amount.toNat else w a h
    some (fun a h => if a = asset ∧ h = dst then paid a h + amount.toNat else paid a h)
  else none

/-- The plain ledger is exact. -/
def ledgerExact : Exact ledgerTransfer where
  balance asset holder w := w asset holder
  debit h hne := by
    unfold ledgerTransfer at h
    split at h
    · rename_i hok
      obtain rfl := Option.some.inj h
      simp [hne, hok.2]
    · cases h
  credit h hne := by
    unfold ledgerTransfer at h
    split at h
    · obtain rfl := Option.some.inj h
      simp [hne.symm]
    · cases h
  same h := by
    unfold ledgerTransfer at h
    split at h
    · rename_i hok
      obtain rfl := Option.some.inj h
      simp [hok.2]
    · cases h
  frame h hne := by
    unfold ledgerTransfer at h
    split at h
    · obtain rfl := Option.some.inj h
      rcases hne with hne | ⟨h1, h2⟩
      · simp [hne]
      · simp [h1, h2]
    · cases h

/-- A recipient and an amount. -/
abbrev Payment := Address × UInt64

/-- The payments of a list, one after the other, out of the account `src`. -/
def transferAll (transfer : TransferFn ω) (env : Env) (asset src : Address) : List Payment → ω → Option ω
  | [], w      => some w
  | p :: ps, w => (transfer env asset src p.1 p.2 w).bind (transferAll transfer env asset src ps)

/-- What a list of payments adds up to. -/
def total (ps : List Payment) : Nat := (ps.map (fun p => p.2.toNat)).sum

/-- What a list of payments pays to one holder. -/
def received (holder : Address) (ps : List Payment) : Nat :=
  (ps.map (fun p => if p.1 = holder then p.2.toNat else 0)).sum

@[simp] theorem total_nil : total [] = 0 := rfl

@[simp] theorem total_cons (p : Payment) (ps : List Payment) :
    total (p :: ps) = p.2.toNat + total ps := by
  simp [total]

theorem total_append (ps qs : List Payment) : total (ps ++ qs) = total ps + total qs := by
  simp [total]

@[simp] theorem received_nil (holder : Address) : received holder [] = 0 := rfl

@[simp] theorem received_cons (holder : Address) (p : Payment) (ps : List Payment) :
    received holder (p :: ps) = (if p.1 = holder then p.2.toNat else 0) + received holder ps := by
  simp [received]

theorem received_append (holder : Address) (ps qs : List Payment) :
    received holder (ps ++ qs) = received holder ps + received holder qs := by
  simp [received]

variable {transfer : TransferFn ω} {env : Env} {asset src : Address} {ps : List Payment} {w w' : ω}

theorem transferAll_cons {p : Payment} :
    transferAll transfer env asset src (p :: ps) w = some w' ↔
      ∃ w₁, transfer env asset src p.1 p.2 w = some w₁ ∧
        transferAll transfer env asset src ps w₁ = some w' :=
  Option.bind_eq_some_iff

theorem transferAll_append (ps qs : List Payment) (w : ω) :
    transferAll transfer env asset src (ps ++ qs) w
      = (transferAll transfer env asset src ps w).bind (transferAll transfer env asset src qs) := by
  induction ps generalizing w with
  | nil => rfl
  | cons p ps ih =>
      simp only [List.cons_append, transferAll, Option.bind_assoc]
      exact Option.bind_congr (fun w₁ _ => ih w₁)

/-- One payment costs the payer at most its amount (nothing, if the payer pays itself). -/
theorem Exact.payer_le (tk : Exact transfer) {dst : Address} {amount : UInt64}
    (h : transfer env asset src dst amount w = some w') :
    tk.balance asset src w ≤ tk.balance asset src w' + amount.toNat := by
  by_cases hself : src = dst
  · subst hself
    have hsame := tk.same h
    omega
  · exact (tk.debit h hself).le

/-- **The payer is out at most the total.** -/
theorem Exact.transferAll_payer (tk : Exact transfer)
    (h : transferAll transfer env asset src ps w = some w') :
    tk.balance asset src w ≤ tk.balance asset src w' + total ps := by
  induction ps generalizing w with
  | nil =>
      obtain rfl : w = w' := Option.some.inj h
      exact Nat.le_refl _
  | cons p ps ih =>
      obtain ⟨w₁, hp, hps⟩ := transferAll_cons.mp h
      have hone := tk.payer_le hp
      have hrest := ih hps
      rw [total_cons]
      omega

/-- **The payer is out the total, less what the list pays back to it.** -/
theorem Exact.transferAll_payer_eq (tk : Exact transfer)
    (h : transferAll transfer env asset src ps w = some w') :
    tk.balance asset src w + received src ps = tk.balance asset src w' + total ps := by
  induction ps generalizing w with
  | nil =>
      obtain rfl : w = w' := Option.some.inj h
      rfl
  | cons p ps ih =>
      obtain ⟨w₁, hp, hps⟩ := transferAll_cons.mp h
      have hrest := ih hps
      rw [received_cons, total_cons]
      by_cases hself : p.1 = src
      · rw [if_pos hself]
        rw [hself] at hp
        have hone := tk.same hp
        omega
      · rw [if_neg hself]
        have hone := tk.debit hp (Ne.symm hself)
        omega

/-- **Everybody else receives exactly what the list pays them.** -/
theorem Exact.transferAll_holder (tk : Exact transfer) {holder : Address} (hne : holder ≠ src)
    (h : transferAll transfer env asset src ps w = some w') :
    tk.balance asset holder w' = tk.balance asset holder w + received holder ps := by
  induction ps generalizing w with
  | nil =>
      obtain rfl : w = w' := Option.some.inj h
      rfl
  | cons p ps ih =>
      obtain ⟨w₁, hp, hps⟩ := transferAll_cons.mp h
      have hrest := ih hps
      have hone : tk.balance asset holder w₁
          = tk.balance asset holder w + if p.1 = holder then p.2.toNat else 0 := by
        split
        · rename_i heq
          subst heq
          exact tk.credit hp hne.symm
        · rename_i hother
          exact tk.frame hp (Or.inr ⟨hne, fun h => hother h.symm⟩)
      simp only [received, List.map_cons, List.sum_cons] at hrest ⊢
      omega

/-- Other assets are not moved. -/
theorem Exact.transferAll_frame (tk : Exact transfer) {a holder : Address} (hne : a ≠ asset)
    (h : transferAll transfer env asset src ps w = some w') :
    tk.balance a holder w' = tk.balance a holder w := by
  induction ps generalizing w with
  | nil =>
      obtain rfl : w = w' := Option.some.inj h
      rfl
  | cons p ps ih =>
      obtain ⟨w₁, hp, hps⟩ := transferAll_cons.mp h
      exact (ih hps).trans (tk.frame hp (Or.inl hne))

/-! ## Tallies -/

section Tallies

variable {κ : Type} {f f' : κ → Nat} {ks : List κ} {k : κ}

/-- What the keys of a list add up to. -/
def tally (f : κ → Nat) (ks : List κ) : Nat := (ks.map f).sum

@[simp] theorem tally_nil (f : κ → Nat) : tally f [] = 0 := rfl

@[simp] theorem tally_cons (f : κ → Nat) (k : κ) (ks : List κ) : tally f (k :: ks) = f k + tally f ks := by
  simp [tally]

theorem tally_append (f : κ → Nat) (ks js : List κ) : tally f (ks ++ js) = tally f ks + tally f js := by
  simp [tally]

theorem tally_congr (h : ∀ j ∈ ks, f' j = f j) : tally f' ks = tally f ks := by
  unfold tally
  rw [List.map_congr_left h]

/-- **One key changes**: the tally changes by as much. -/
theorem tally_change (hnodup : ks.Nodup) (hk : k ∈ ks) (hother : ∀ j, j ≠ k → f' j = f j) :
    tally f' ks + f k = tally f ks + f' k := by
  obtain ⟨pre, post, rfl⟩ := List.append_of_mem hk
  have hnew := (List.nodup_middle.mp hnodup)
  rw [List.nodup_cons, List.mem_append, not_or] at hnew
  have hpre : tally f' pre = tally f pre := tally_congr fun j hj => hother j fun heq => hnew.1.1 (heq ▸ hj)
  have hpost : tally f' post = tally f post := tally_congr fun j hj => hother j fun heq => hnew.1.2 (heq ▸ hj)
  rw [tally_append, tally_append, tally_cons, tally_cons, hpre, hpost]
  omega

end Tallies

/-! ## Pooled funds -/

variable {κ : Type} [DecidableEq κ] {owed owed' : κ → Nat} {funds funds' : Nat}

/-- **One pool covers every obligation at once.** -/
def Covered (owed : κ → Nat) (funds : Nat) : Prop := ∀ ks : Finset κ, ∑ k ∈ ks, owed k ≤ funds

omit [DecidableEq κ] in
theorem Covered.nothing (h : ∀ k, owed k = 0) (funds : Nat) : Covered owed funds := by
  intro ks
  rw [Finset.sum_eq_zero (fun k _ => h k)]
  exact Nat.zero_le funds

omit [DecidableEq κ] in
theorem Covered.congr (h : Covered owed funds) (howed : ∀ k, owed' k = owed k) (hfunds : funds ≤ funds') :
    Covered owed' funds' := by
  intro ks
  rw [Finset.sum_congr rfl (fun k _ => howed k)]
  exact (h ks).trans hfunds

/-- An obligation grows by no more than the funds do. -/
theorem Covered.take_on (h : Covered owed funds) {k₀ : κ} {amount : Nat}
    (hother : ∀ k, k ≠ k₀ → owed' k = owed k) (hgrow : owed' k₀ ≤ owed k₀ + amount) :
    Covered owed' (funds + amount) := by
  intro ks
  have hpoint : ∀ k ∈ ks, owed' k ≤ owed k + if k = k₀ then amount else 0 := by
    intro k _
    by_cases hk : k = k₀
    · subst hk
      rw [if_pos rfl]
      exact hgrow
    · simp [hk, hother k hk]
  calc ∑ k ∈ ks, owed' k
      ≤ ∑ k ∈ ks, (owed k + if k = k₀ then amount else 0) := Finset.sum_le_sum hpoint
    _ = ∑ k ∈ ks, owed k + ∑ k ∈ ks, (if k = k₀ then amount else 0) := Finset.sum_add_distrib
    _ ≤ funds + amount := by
        refine Nat.add_le_add (h ks) ?_
        rw [Finset.sum_ite_eq']
        split
        · exact Nat.le_refl amount
        · exact Nat.zero_le amount

/-- An obligation is discharged for no more than it amounted to. -/
theorem Covered.discharge (h : Covered owed funds) {k₀ : κ} (hother : ∀ k, k ≠ k₀ → owed' k = owed k)
    (hgone : owed' k₀ = 0) (hcost : funds ≤ funds' + owed k₀) : Covered owed' funds' := by
  intro ks
  have hrest : ∑ k ∈ ks, owed' k ≤ ∑ k ∈ ks.erase k₀, owed k := by
    rw [← Finset.sum_congr rfl (fun k hk => hother k (Finset.ne_of_mem_erase hk))]
    by_cases hmem : k₀ ∈ ks
    · rw [← Finset.add_sum_erase ks owed' hmem, hgone, Nat.zero_add]
    · rw [Finset.erase_eq_of_notMem hmem]
  have hall := h (insert k₀ (ks.erase k₀))
  rw [Finset.sum_insert (Finset.notMem_erase k₀ ks)] at hall
  omega

end Soroban
