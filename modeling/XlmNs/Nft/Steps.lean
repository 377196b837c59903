import XlmNs.Nft.Contract

/-!
# `Nft.Steps` — what a committed NFT invocation did

`Effect` says of every committed invocation what it did to the tokens and to the two indexes, and on whose word;
`step_effect` derives it once, and the invariants of `Nft.Correctness` are case analyses over it. `Change` is the
coarser view that tells the admin's invocations from everybody's. `Call.tenures` is what a call makes of the
tokens' owners and expiries.
-/

namespace XlmNs.Nft

open Soroban

variable {ω : Type} {out : Outside ω} {self : Address} {env : Env} {s s' : State} {w w' : ω}
variable {tokenId : Bytes}

/-- The admin signed. -/
theorem requireAdmin_eq_ok {e : NftError} {u : Unit} :
    requireAdmin env s e = .ok u ↔ ∃ admin, s.admin = some admin ∧ env.Authorises admin := by
  simp only [requireAdmin, bind_eq_ok, okOr_eq_ok, requireAuth_eq_ok]

/-- Only the cached dates of the token are written. -/
theorem cacheNameData_ok {registry : Address} (h : cacheNameData out env s w registry tokenId = .ok s') :
    ∃ data, s' = { s with nameData := s.nameData.set tokenId data } := by
  simp only [cacheNameData, bind_eq_ok, pure_eq_ok] at h
  obtain ⟨_, _, rfl⟩ := h
  exact ⟨_, rfl⟩

theorem reindexOwnerToken_token (s : State) (p n : Address) (tokenId : Bytes) :
    (reindexOwnerToken s p n tokenId).token = s.token := by
  unfold reindexOwnerToken
  split <;> rfl

theorem reindexOwnerToken_tokenIds (s : State) (p n : Address) (tokenId : Bytes) :
    (reindexOwnerToken s p n tokenId).tokenIds = s.tokenIds := by
  unfold reindexOwnerToken
  split <;> rfl

/-- The owner index after a token moved; a move to the same owner leaves it alone. -/
def reindexed (idx : Index Address Bytes) (previousOwner newOwner : Address) (tokenId : Bytes) :
    Index Address Bytes :=
  if previousOwner = newOwner then idx
  else (idx.filterOut previousOwner tokenId).push newOwner tokenId

/-- The token is moved from one list to another. -/
theorem reindexOwnerToken_ownerTokens (s : State) (p n : Address) (tokenId : Bytes) :
    (reindexOwnerToken s p n tokenId).ownerTokens = reindexed s.ownerTokens p n tokenId := by
  unfold reindexOwnerToken reindexed
  split <;> rfl

/-- The invocation is signed by the admin. -/
def ByAdmin (env : Env) (s : State) : Prop := ∃ admin, s.admin = some admin ∧ env.Authorises admin

/-- The calls that edit a token in place, and what they make of its record. -/
inductive Edit (env : Env) (s : State) (record : TokenRecord) : Call → Bytes → TokenRecord → Prop
  | approve {tokenId : Bytes} {caller approved : Address} (howner : record.owner = caller) :
      Edit env s record (.approve tokenId caller approved) tokenId { record with approved := some approved }
  | approveClear {tokenId : Bytes} {caller : Address} (howner : record.owner = caller) :
      Edit env s record (.approveClear tokenId caller) tokenId { record with approved := none }
  | syncExpiry {tokenId : Bytes} {newExpiry : UInt64} (hadmin : ByAdmin env s) :
      Edit env s record (.syncExpiry tokenId newExpiry) tokenId { record with expiresAt := newExpiry }

/-- The calls that move a token to a new owner, and what they make of its record. -/
inductive Move (env : Env) (s : State) (record : TokenRecord) : Call → Bytes → TokenRecord → Prop
  | transfer {tokenId : Bytes} {caller newOwner : Address}
      (hcaller : record.owner = caller ∨ record.approved = some caller) :
      Move env s record (.transfer tokenId caller newOwner) tokenId
        { record with owner := newOwner, approved := none }
  | transferFrom {spender owner recipient : Address} {tokenId : Bytes} (howner : record.owner = owner)
      (hspender : record.approved = some spender) :
      Move env s record (.transferFrom spender owner recipient tokenId) tokenId
        { record with owner := recipient, approved := none }
  | syncOwner {tokenId : Bytes} {newOwner : Address} (hadmin : ByAdmin env s) :
      Move env s record (.syncOwner tokenId newOwner) tokenId { record with owner := newOwner }

/-- The calls that write no token. -/
def Call.isFrame : Call → Bool
  | .initializeContract .. | .upgrade .. | .setRegistry .. | .refreshNameData .. => true
  | _ => false

/-- **What a committed invocation did to the tokens and their indexes.** -/
inductive Effect (env : Env) (s s' : State) : Call → Prop
  /-- administration and cached dates -/
  | frame {c : Call} (hcall : c.isFrame = true) (htoken : s'.token = s.token)
      (hids : s'.tokenIds = s.tokenIds) (howners : s'.ownerTokens = s.ownerTokens) : Effect env s s' c
  /-- the admin writes a new token -/
  | mint {tokenId : Bytes} {owner : Address} {metadataUri : Option Bytes} {expiresAt : UInt64}
      (hadmin : ByAdmin env s) (hnone : s.token tokenId = none)
      (htoken : s'.token = s.token.set tokenId (freshToken owner metadataUri expiresAt))
      (hids : s'.tokenIds = s.tokenIds ++ [tokenId])
      (howners : s'.ownerTokens = s.ownerTokens.push owner tokenId) :
      Effect env s s' (.mint tokenId owner metadataUri expiresAt)
  /-- a token is edited in place -/
  | edit {c : Call} {tokenId : Bytes} {record record' : TokenRecord}
      (hrecord : s.token tokenId = some record) (hedit : Edit env s record c tokenId record')
      (htoken : s'.token = s.token.set tokenId record') (hids : s'.tokenIds = s.tokenIds)
      (howners : s'.ownerTokens = s.ownerTokens) : Effect env s s' c
  /-- a token moves -/
  | move {c : Call} {tokenId : Bytes} {record record' : TokenRecord}
      (hrecord : s.token tokenId = some record) (hmove : Move env s record c tokenId record')
      (htoken : s'.token = s.token.set tokenId record') (hids : s'.tokenIds = s.tokenIds)
      (howners : s'.ownerTokens = reindexed s.ownerTokens record.owner record'.owner tokenId) :
      Effect env s s' c
  /-- the admin burns a token -/
  | burn {tokenId : Bytes} {record : TokenRecord} (hadmin : ByAdmin env s)
      (hrecord : s.token tokenId = some record) (htoken : s'.token = s.token.remove tokenId)
      (hids : s'.tokenIds = s.tokenIds.erase tokenId)
      (howners : s'.ownerTokens = s.ownerTokens.filterOut record.owner tokenId) :
      Effect env s s' (.burn tokenId)

/-- A token rewritten and moved in the index. -/
theorem Effect.of_reindex {c : Call} {record record' : TokenRecord} (hrecord : s.token tokenId = some record)
    (hmove : Move env s record c tokenId record') :
    Effect env s (reindexOwnerToken (putToken s tokenId record') record.owner record'.owner tokenId) c :=
  .move hrecord hmove (reindexOwnerToken_token _ _ _ _) (reindexOwnerToken_tokenIds _ _ _ _)
    (reindexOwnerToken_ownerTokens _ _ _ _)

/-- **Every committed invocation is an `Effect`.** -/
theorem step_effect {t : Tx Call} (h : step out self (s, w) t = .ok (s', w')) :
    Effect t.env s s' t.call := by
  obtain ⟨env, c⟩ := t
  cases c with
  | initializeContract admin =>
      simp only [step, initializeContract, bind_eq_ok, pure_eq_ok, Prod.mk.injEq] at h
      obtain ⟨_, ⟨_, _, rfl⟩, rfl, _⟩ := h
      exact .frame rfl rfl rfl rfl
  | upgrade data =>
      simp only [step, upgrade, upgradeStoring_eq_ok, bind_eq_ok, pure_eq_ok, Prod.mk.injEq] at h
      obtain ⟨_, ⟨_, rfl⟩, rfl, _⟩ := h
      exact .frame rfl rfl rfl rfl
  | setRegistry admin registry =>
      simp only [step, setRegistry, bind_eq_ok, pure_eq_ok, Prod.mk.injEq] at h
      obtain ⟨_, ⟨_, _, _, _, _, _, rfl⟩, rfl, _⟩ := h
      exact .frame rfl rfl rfl rfl
  | mint tokenId owner uri expiresAt =>
      simp only [step, mint, bind_eq_ok, requireAdmin_eq_ok, require_eq_ok, pure_eq_ok, Prod.mk.injEq,
        exists_const] at h
      obtain ⟨_, ⟨hadmin, hnone, hmint⟩, rfl, _⟩ := h
      split at hmint
      · obtain ⟨_, rfl⟩ := cacheNameData_ok hmint
        exact .mint hadmin hnone rfl rfl rfl
      · obtain rfl := pure_eq_ok.mp hmint
        exact .mint hadmin hnone rfl rfl rfl
  | refreshNameData tokenId =>
      simp only [step, refreshNameData, bind_eq_ok, pure_eq_ok, Prod.mk.injEq] at h
      obtain ⟨_, ⟨_, _, _, _, hcache⟩, rfl, _⟩ := h
      obtain ⟨_, rfl⟩ := cacheNameData_ok hcache
      exact .frame rfl rfl rfl rfl
  | approve tokenId caller approved =>
      simp only [step, approve, getToken, bind_eq_ok, okOr_eq_ok, require_eq_ok, pure_eq_ok,
        Prod.mk.injEq, exists_const] at h
      obtain ⟨_, ⟨record, hrecord, howner, rfl⟩, rfl, _⟩ := h
      exact .edit hrecord (.approve howner) rfl rfl rfl
  | approveClear tokenId caller =>
      simp only [step, approveClear, getToken, bind_eq_ok, okOr_eq_ok, require_eq_ok, pure_eq_ok,
        Prod.mk.injEq, exists_const] at h
      obtain ⟨_, ⟨record, hrecord, howner, rfl⟩, rfl, _⟩ := h
      exact .edit hrecord (.approveClear howner) rfl rfl rfl
  | transfer tokenId caller newOwner =>
      simp only [step, transfer, getToken, bind_eq_ok, okOr_eq_ok, require_eq_ok, pure_eq_ok,
        Prod.mk.injEq, exists_const] at h
      obtain ⟨record, hrecord, hcaller, _, _, rfl, _⟩ := h
      exact .of_reindex hrecord (.transfer hcaller)
  | transferFrom spender owner recipient tokenId =>
      simp only [step, transferFrom, getToken, bind_eq_ok, okOr_eq_ok, require_eq_ok, pure_eq_ok,
        Prod.mk.injEq, exists_const] at h
      obtain ⟨record, hrecord, ⟨howner, hspender⟩, _, _, rfl, _⟩ := h
      exact .of_reindex hrecord (.transferFrom howner hspender)
  | burn tokenId =>
      simp only [step, burn, getToken, bind_eq_ok, requireAdmin_eq_ok, okOr_eq_ok, pure_eq_ok,
        Prod.mk.injEq, exists_const] at h
      obtain ⟨_, ⟨hadmin, record, hrecord, rfl⟩, rfl, _⟩ := h
      exact .burn hadmin hrecord rfl rfl rfl
  | syncExpiry tokenId newExpiry =>
      simp only [step, syncExpiry, getToken, bind_eq_ok, requireAdmin_eq_ok, okOr_eq_ok, pure_eq_ok,
        Prod.mk.injEq, exists_const] at h
      obtain ⟨_, ⟨hadmin, record, hrecord, rfl⟩, rfl, _⟩ := h
      exact .edit hrecord (.syncExpiry hadmin) rfl rfl rfl
  | syncOwner tokenId newOwner =>
      simp only [step, syncOwner, getToken, bind_eq_ok, requireAdmin_eq_ok, okOr_eq_ok, pure_eq_ok,
        Prod.mk.injEq, exists_const] at h
      obtain ⟨_, ⟨hadmin, record, hrecord, rfl⟩, rfl, _⟩ := h
      exact .of_reindex hrecord (.syncOwner hadmin)

/-! ## On whose word -/

/-- **What a committed invocation did to the tokens, and on whose word.** -/
inductive Change (env : Env) (s s' : State) : Call → Prop
  /-- administration and cached dates: no token changes -/
  | frame {c : Call} (htoken : s'.token = s.token) : Change env s s' c
  /-- the admin writes a new token -/
  | mint {tokenId : Bytes} {owner : Address} {metadataUri : Option Bytes} {expiresAt : UInt64}
      (hadmin : ByAdmin env s) (hnone : s.token tokenId = none)
      (htoken : s'.token = s.token.set tokenId (freshToken owner metadataUri expiresAt)) :
      Change env s s' (.mint tokenId owner metadataUri expiresAt)
  /-- `approve`, `approve_clear`: on the word of a caller who names the owner -/
  | approval {c : Call} {tokenId : Bytes} {caller : Address} {approved : Option Address}
      {record : TokenRecord} (hrecord : s.token tokenId = some record) (howner : record.owner = caller)
      (hcall : c = .approveClear tokenId caller ∨ ∃ a, c = .approve tokenId caller a)
      (htoken : s'.token = s.token.set tokenId { record with approved := approved }) :
      Change env s s' c
  /-- `transfer`, `transfer_from`: on the word of a caller who names the owner or the approved address -/
  | move {c : Call} {tokenId : Bytes} {caller newOwner : Address} {record : TokenRecord}
      (hrecord : s.token tokenId = some record)
      (hcaller : record.owner = caller ∨ record.approved = some caller)
      (hcall : c = .transfer tokenId caller newOwner ∨
        c = .transferFrom caller record.owner newOwner tokenId)
      (htoken : s'.token = s.token.set tokenId { record with owner := newOwner, approved := none }) :
      Change env s s' c
  /-- `burn`, `sync_expiry`, `sync_owner`: signed by the admin -/
  | admin {c : Call} (hadmin : ByAdmin env s) : Change env s s' c

/-- **Every committed invocation is a `Change`.** -/
theorem step_change {t : Tx Call} (h : step out self (s, w) t = .ok (s', w')) :
    Change t.env s s' t.call := by
  have heffect := step_effect h
  generalize t.env = env at heffect ⊢
  generalize t.call = c at heffect ⊢
  cases heffect with
  | frame _ htoken _ _ => exact .frame htoken
  | mint hadmin hnone htoken _ _ => exact .mint hadmin hnone htoken
  | burn hadmin _ _ _ _ => exact .admin hadmin
  | edit hrecord hedit htoken _ _ =>
      cases hedit with
      | approve howner => exact .approval hrecord howner (Or.inr ⟨_, rfl⟩) htoken
      | approveClear howner => exact .approval hrecord howner (Or.inl rfl) htoken
      | syncExpiry hadmin => exact .admin hadmin
  | move hrecord hmove htoken _ _ =>
      cases hmove with
      | transfer hcaller => exact .move hrecord hcaller (Or.inl rfl) htoken
      | transferFrom howner hspender =>
          exact .move hrecord (Or.inr hspender) (Or.inr (by rw [howner])) htoken
      | syncOwner hadmin => exact .admin hadmin

/-! ## Tenures -/

/-- The owner and the expiry of a token. -/
def tenure (s : State) : Bytes → Option (Address × UInt64) :=
  s.token.view (fun record => (record.owner, record.expiresAt))

theorem tenure_eq {record : TokenRecord} (hrecord : s.token tokenId = some record) :
    tenure s tokenId = some (record.owner, record.expiresAt) :=
  Store.view_eq _ hrecord

theorem tenure_eq_none : tenure s tokenId = none ↔ s.token tokenId = none := Option.map_eq_none_iff

/-- What a call makes of the tenures. -/
def Call.tenures (m : Bytes → Option (Address × UInt64)) : Call → Bytes → Option (Address × UInt64)
  | .mint tokenId owner _ expiresAt => Function.update m tokenId (some (owner, expiresAt))
  | .transfer tokenId _ newOwner =>
      Function.update m tokenId ((m tokenId).map (fun held => (newOwner, held.2)))
  | .transferFrom _ _ recipient tokenId =>
      Function.update m tokenId ((m tokenId).map (fun held => (recipient, held.2)))
  | .burn tokenId => Function.update m tokenId none
  | .syncExpiry tokenId newExpiry =>
      Function.update m tokenId ((m tokenId).map (fun held => (held.1, newExpiry)))
  | .syncOwner tokenId newOwner =>
      Function.update m tokenId ((m tokenId).map (fun held => (newOwner, held.2)))
  | _ => m

/-- A call outside the life of a token leaves the tenures. -/
theorem tenures_frame {c : Call} (h : c.isFrame = true) (m : Bytes → Option (Address × UInt64)) :
    c.tenures m = m := by
  cases c with
  | initializeContract | upgrade | setRegistry | refreshNameData => rfl
  | _ => cases h

/-- **Every committed call does to the tenures what `Call.tenures` says.** -/
theorem Effect.tenure {c : Call} (h : Effect env s s' c) :
    Nft.tenure s' = c.tenures (Nft.tenure s) := by
  cases h with
  | frame hcall htoken _ _ => rw [tenures_frame hcall, Nft.tenure, Nft.tenure, htoken]
  | mint _ _ htoken _ _ => exact Store.view_of_set _ htoken rfl
  | burn _ _ htoken _ _ =>
      rw [Nft.tenure, htoken]
      exact Store.view_remove _ _ _
  | edit hrecord hedit htoken _ _ =>
      cases hedit with
      | approve _ | approveClear _ =>
          rw [Nft.tenure, htoken]
          exact Store.view_edit _ hrecord rfl
      | syncExpiry _ =>
          apply Store.view_of_set _ htoken
          rw [tenure_eq hrecord]
          rfl
  | move hrecord hmove htoken _ _ =>
      cases hmove with
      | transfer _ | transferFrom _ _ | syncOwner _ =>
          apply Store.view_of_set _ htoken
          rw [tenure_eq hrecord]
          rfl

/-! ## What most calls leave alone -/

/-- The calls that write tokens only. -/
def Call.isTokenCall : Call → Bool
  | .initializeContract .. | .setRegistry .. | .mint .. | .refreshNameData .. => false
  | _ => true

/-- Cached dates, admin and registry are as they were. -/
def KeepsSettings (s s' : State) : Prop := s'.nameData = s.nameData ∧ s'.admin = s.admin ∧ s'.registry = s.registry

theorem reindexOwnerToken_settings (s : State) (p n : Address) (tokenId : Bytes) :
    KeepsSettings s (reindexOwnerToken s p n tokenId) := by
  unfold reindexOwnerToken
  split <;> exact ⟨rfl, rfl, rfl⟩

/-- A call about a token leaves the settings. -/
theorem step_keepsSettings {t : Tx Call} (h : step out self (s, w) t = .ok (s', w'))
    (htoken : t.call.isTokenCall = true) : KeepsSettings s s' := by
  obtain ⟨env, c⟩ := t
  cases c with
  | transfer tokenId caller newOwner =>
      simp only [step, transfer, bind_eq_ok, pure_eq_ok, Prod.mk.injEq] at h
      obtain ⟨_, _, _, _, _, _, rfl, _⟩ := h
      exact reindexOwnerToken_settings _ _ _ _
  | transferFrom spender owner recipient tokenId =>
      simp only [step, transferFrom, bind_eq_ok, pure_eq_ok, Prod.mk.injEq] at h
      obtain ⟨_, _, _, _, _, _, rfl, _⟩ := h
      exact reindexOwnerToken_settings _ _ _ _
  | syncOwner tokenId newOwner =>
      simp only [step, syncOwner, bind_eq_ok, pure_eq_ok, Prod.mk.injEq] at h
      obtain ⟨_, ⟨_, _, _, _, rfl⟩, rfl, _⟩ := h
      exact reindexOwnerToken_settings _ _ _ _
  | upgrade data =>
      simp only [step, upgrade, upgradeStoring_eq_ok, bind_eq_ok, pure_eq_ok, Prod.mk.injEq] at h
      obtain ⟨_, ⟨_, rfl⟩, rfl, _⟩ := h
      exact ⟨rfl, rfl, rfl⟩
  | approve | approveClear | burn | syncExpiry =>
      simp only [step, approve, approveClear, burn, syncExpiry, bind_eq_ok, pure_eq_ok, Prod.mk.injEq] at h
      obtain ⟨_, ⟨_, _, _, _, rfl⟩, rfl, _⟩ := h
      exact ⟨rfl, rfl, rfl⟩
  | initializeContract | setRegistry | mint | refreshNameData => cases htoken

/-! ## Cached dates -/

/-- What the registry of the contract answers about a name. -/
def answer (out : Outside ω) (now : UInt64) (link : Option Address) (w : ω) (tokenId : Bytes) : Option RegistryEntry :=
  link.bind fun registry => out.registryResolve registry tokenId now w

/-- What is cached of an entry. -/
def nameRecord (entry : RegistryEntry) : NameRecord := ⟨entry.registeredAt, entry.expiresAt, entry.targetAddress⟩

/-- The dates of a name, read from the registry. -/
def readDates (out : Outside ω) (now : UInt64) (link : Option Address) (w : ω) (m : Store Bytes NameRecord)
    (tokenId : Bytes) : Store Bytes NameRecord :=
  match answer out now link w tokenId with
  | some entry => m.set tokenId (nameRecord entry)
  | none       => m

/-- What a call makes of the cached dates. -/
def Call.nameData (out : Outside ω) (now : UInt64) (link : Option Address) (w : ω) (m : Store Bytes NameRecord) :
    Call → Store Bytes NameRecord
  | .mint tokenId _ _ _      => readDates out now link w m tokenId
  | .refreshNameData tokenId => readDates out now link w m tokenId
  | _                        => m

/-- The registry answered, and its answer is cached. -/
theorem cacheNameData_eq_ok {registry : Address} :
    cacheNameData out env s w registry tokenId = .ok s' ↔
      ∃ entry, answer out env.timestamp (some registry) w tokenId = some entry ∧
        { s with nameData := s.nameData.set tokenId (nameRecord entry) } = s' := by
  simp only [cacheNameData, bind_eq_ok, invoke_eq_ok, pure_eq_ok]
  exact Iff.rfl

theorem readDates_answered {link : Option Address} {now : UInt64} {entry : RegistryEntry}
    (h : answer out now link w tokenId = some entry) (m : Store Bytes NameRecord) :
    readDates out now link w m tokenId = m.set tokenId (nameRecord entry) := by
  unfold readDates
  rw [h]

theorem readDates_ne {tokenId j : Bytes} (h : j ≠ tokenId) (out : Outside ω) (now : UInt64) (link : Option Address)
    (w : ω) (m : Store Bytes NameRecord) : readDates out now link w m tokenId j = m j := by
  unfold readDates
  cases answer out now link w tokenId with
  | none => rfl
  | some entry => exact Store.set_ne _ _ h

/-- **Every committed call does to the cached dates what `Call.nameData` says.** -/
theorem step_nameData {t : Tx Call} (h : step out self (s, w) t = .ok (s', w')) :
    s'.nameData = t.call.nameData out t.env.timestamp s.registry w s.nameData := by
  obtain ⟨env, c⟩ := t
  cases c with
  | mint tokenId owner uri expiresAt =>
      simp only [step, mint, bind_eq_ok, pure_eq_ok, Prod.mk.injEq] at h
      obtain ⟨_, ⟨_, _, _, _, hmint⟩, rfl, _⟩ := h
      show _ = readDates out env.timestamp s.registry w s.nameData tokenId
      split at hmint
      · rename_i registry hregistry
        obtain ⟨entry, hentry, rfl⟩ := cacheNameData_eq_ok.mp hmint
        have hlink : s.registry = some registry := hregistry
        rw [hlink, readDates_answered hentry]
        rfl
      · rename_i hregistry
        have hlink : s.registry = none := hregistry
        obtain rfl := pure_eq_ok.mp hmint
        rw [hlink]
        rfl
  | refreshNameData tokenId =>
      simp only [step, refreshNameData, bind_eq_ok, okOr_eq_ok, pure_eq_ok, Prod.mk.injEq] at h
      obtain ⟨_, ⟨registry, hregistry, _, _, hcache⟩, rfl, _⟩ := h
      show _ = readDates out env.timestamp s.registry w s.nameData tokenId
      obtain ⟨entry, hentry, rfl⟩ := cacheNameData_eq_ok.mp hcache
      rw [hregistry, readDates_answered hentry]
  | initializeContract =>
      simp only [step, initializeContract, bind_eq_ok, pure_eq_ok, Prod.mk.injEq] at h
      obtain ⟨_, ⟨_, _, rfl⟩, rfl, _⟩ := h
      rfl
  | setRegistry =>
      simp only [step, setRegistry, bind_eq_ok, pure_eq_ok, Prod.mk.injEq] at h
      obtain ⟨_, ⟨_, _, _, _, _, _, rfl⟩, rfl, _⟩ := h
      rfl
  | _ => exact (step_keepsSettings h rfl).1

/-! ## The admin's calls -/

/-- The admin and the registry of the contract are set by the calls that say so, the admin once. -/
theorem step_config {t : Tx Call} (h : step out self (s, w) t = .ok (s', w')) :
    (∃ admin, t.call = .initializeContract admin ∧ s.admin = none ∧ s'.registry = s.registry) ∨
      (∃ admin registry, t.call = .setRegistry admin registry ∧ s'.admin = s.admin ∧ s'.registry = some registry) ∨
      (s'.admin = s.admin ∧ s'.registry = s.registry) := by
  obtain ⟨env, c⟩ := t
  cases c with
  | initializeContract admin =>
      simp only [step, initializeContract, bind_eq_ok, require_eq_ok, pure_eq_ok, Prod.mk.injEq] at h
      obtain ⟨_, ⟨_, hnone, rfl⟩, rfl, _⟩ := h
      exact Or.inl ⟨admin, rfl, hnone, rfl⟩
  | setRegistry admin registry =>
      simp only [step, setRegistry, bind_eq_ok, pure_eq_ok, Prod.mk.injEq] at h
      obtain ⟨_, ⟨_, _, _, _, _, _, rfl⟩, rfl, _⟩ := h
      exact Or.inr (Or.inl ⟨admin, registry, rfl, rfl, rfl⟩)
  | mint tokenId owner uri expiresAt =>
      simp only [step, mint, bind_eq_ok, pure_eq_ok, Prod.mk.injEq] at h
      obtain ⟨_, ⟨_, _, _, _, hmint⟩, rfl, _⟩ := h
      refine Or.inr (Or.inr ?_)
      split at hmint
      · obtain ⟨_, rfl⟩ := cacheNameData_ok hmint
        exact ⟨rfl, rfl⟩
      · obtain rfl := pure_eq_ok.mp hmint
        exact ⟨rfl, rfl⟩
  | refreshNameData tokenId =>
      simp only [step, refreshNameData, bind_eq_ok, pure_eq_ok, Prod.mk.injEq] at h
      obtain ⟨_, ⟨_, _, _, _, hcache⟩, rfl, _⟩ := h
      obtain ⟨_, rfl⟩ := cacheNameData_ok hcache
      exact Or.inr (Or.inr ⟨rfl, rfl⟩)
  | _ => exact Or.inr (Or.inr (step_keepsSettings h rfl).2)

/-- The admin stays. -/
theorem step_admin {t : Tx Call} {admin : Address} (h : step out self (s, w) t = .ok (s', w'))
    (hadmin : s.admin = some admin) : s'.admin = some admin := by
  rcases step_config h with ⟨_, _, hnone, _⟩ | ⟨_, _, _, hsame, _⟩ | ⟨hsame, _⟩
  · rw [hadmin] at hnone
    cases hnone
  · exact hsame.trans hadmin
  · exact hsame.trans hadmin

/-- A registry that is configured stays configured, though it may be replaced. -/
theorem step_linked {t : Tx Call} (h : step out self (s, w) t = .ok (s', w')) (hnone : s'.registry = none) :
    s.registry = none := by
  rcases step_config h with ⟨_, _, _, hsame⟩ | ⟨_, _, _, _, hset⟩ | ⟨_, hsame⟩
  · exact hsame.symm.trans hnone
  · cases hset.symm.trans hnone
  · exact hsame.symm.trans hnone

/-- The token an admin call burns or syncs. -/
def Call.target : Call → Option Bytes
  | .burn tokenId         => some tokenId
  | .syncExpiry tokenId _ => some tokenId
  | .syncOwner tokenId _  => some tokenId
  | _                     => none

/-- Burning and syncing need the admin and the token. -/
theorem target_accepted_iff {c : Call} (hc : c.target = some tokenId) :
    (∃ sw, step out self (s, w) ⟨env, c⟩ = .ok sw) ↔ ByAdmin env s ∧ s.token tokenId ≠ none := by
  rw [Option.ne_none_iff_exists']
  cases c with
  | burn | syncExpiry | syncOwner =>
      obtain rfl := Option.some.inj hc
      simp only [step, burn, syncExpiry, syncOwner, getToken, bind_eq_ok, requireAdmin_eq_ok, okOr_eq_ok,
        pure_eq_ok, exists_const]
      constructor
      · rintro ⟨_, _, ⟨hadmin, record, hrecord, _⟩, _⟩
        exact ⟨hadmin, record, hrecord⟩
      · rintro ⟨hadmin, record, hrecord⟩
        exact ⟨_, _, ⟨hadmin, record, hrecord, rfl⟩, rfl⟩
  | _ => cases hc

/-- They keep to the contract's own storage. -/
theorem target_world {c : Call} (hc : c.target = some tokenId)
    (h : step out self (s, w) ⟨env, c⟩ = .ok (s', w')) : w' = w := by
  cases c with
  | burn | syncExpiry | syncOwner =>
      simp only [step, bind_eq_ok, pure_eq_ok, Prod.mk.injEq] at h
      obtain ⟨_, _, _, rfl⟩ := h
      rfl
  | _ => cases hc

/-- Caching goes through where the registry answers. -/
theorem cacheNameData_accepted_iff {registry : Address} :
    (∃ s', cacheNameData out env s w registry tokenId = .ok s') ↔
      ∃ entry, out.registryResolve registry tokenId env.timestamp w = some entry := by
  simp only [cacheNameData, bind_eq_ok, invoke_eq_ok, pure_eq_ok]
  constructor
  · rintro ⟨_, entry, hentry, _⟩
    exact ⟨entry, hentry⟩
  · rintro ⟨entry, hentry⟩
    exact ⟨_, entry, hentry, rfl⟩

/-- Minting needs the admin, that the token is not there yet, and the dates of its name from the registry, if one is
    configured. -/
theorem mint_accepted_iff {owner : Address} {metadataUri : Option Bytes} {expiresAt : UInt64} :
    (∃ sw, step out self (s, w) ⟨env, .mint tokenId owner metadataUri expiresAt⟩ = .ok sw) ↔
      ByAdmin env s ∧ s.token tokenId = none ∧
        ∀ registry, s.registry = some registry →
          ∃ entry, out.registryResolve registry tokenId env.timestamp w = some entry := by
  simp only [step, mint, bind_eq_ok, requireAdmin_eq_ok, require_eq_ok, pure_eq_ok, exists_const]
  constructor
  · rintro ⟨_, _, ⟨hadmin, hnone, hmint⟩, _⟩
    refine ⟨hadmin, hnone, ?_⟩
    intro registry hregistry
    split at hmint
    · rename_i r hr
      obtain rfl := Option.some.inj (hregistry.symm.trans hr)
      exact cacheNameData_accepted_iff.mp ⟨_, hmint⟩
    · rename_i hr
      cases hregistry.symm.trans hr
  · rintro ⟨hadmin, hnone, hdates⟩
    simp only [addOwnerToken, putToken]
    cases hregistry : s.registry with
    | none => exact ⟨_, _, ⟨hadmin, hnone, rfl⟩, rfl⟩
    | some registry =>
        obtain ⟨s', hcache⟩ := cacheNameData_accepted_iff.mpr (hdates registry hregistry)
        exact ⟨_, _, ⟨hadmin, hnone, hcache⟩, rfl⟩

/-- Refreshing needs an answer of the registry. -/
theorem refresh_answered (h : step out self (s, w) ⟨env, .refreshNameData tokenId⟩ = .ok (s', w')) :
    ∃ entry, answer out env.timestamp s.registry w tokenId = some entry := by
  simp only [step, refreshNameData, bind_eq_ok, okOr_eq_ok, pure_eq_ok, Prod.mk.injEq] at h
  obtain ⟨_, ⟨registry, hregistry, _, _, hcache⟩, _⟩ := h
  obtain ⟨entry, hentry, _⟩ := cacheNameData_eq_ok.mp hcache
  rw [hregistry]
  exact ⟨entry, hentry⟩

/-- And the token. -/
theorem refresh_token (h : step out self (s, w) ⟨env, .refreshNameData tokenId⟩ = .ok (s', w')) :
    s.token tokenId ≠ none := by
  simp only [step, refreshNameData, bind_eq_ok, require_eq_ok, pure_eq_ok, Prod.mk.injEq] at h
  obtain ⟨_, ⟨_, _, _, htoken, _⟩, _⟩ := h
  exact htoken

/-- Minting needs one if there is a registry. -/
theorem mint_answered {owner : Address} {metadataUri : Option Bytes} {expiresAt : UInt64}
    (h : step out self (s, w) ⟨env, .mint tokenId owner metadataUri expiresAt⟩ = .ok (s', w')) :
    s.registry = none ∨ ∃ entry, answer out env.timestamp s.registry w tokenId = some entry := by
  cases hregistry : s.registry with
  | none => exact Or.inl rfl
  | some registry => exact Or.inr ((mint_accepted_iff.mp ⟨_, h⟩).2.2 registry hregistry)

/-! ## The outside world -/

/-- **What the registry's `update_owner` keeps, an NFT invocation keeps.** -/
theorem step_world {I : ω → Prop}
    (hupdate : ∀ env registry tokenId newOwner w w',
      out.updateOwner env registry tokenId newOwner w = some w' → I w → I w')
    {t : Tx Call} (h : step out self (s, w) t = .ok (s', w')) (hw : I w) : I w' := by
  have hpassOn : ∀ env s tokenId newOwner w w', passOn out self env s w tokenId newOwner = .ok w' →
      I w → I w' := by
    intro env s tokenId newOwner w w' h hw
    unfold passOn at h
    split at h
    · exact hupdate _ _ _ _ _ _ (invoke_eq_ok.mp h) hw
    · obtain rfl := pure_eq_ok.mp h
      exact hw
  obtain ⟨env, c⟩ := t
  cases c with
  | transfer tokenId caller newOwner =>
      simp only [step, transfer, bind_eq_ok, pure_eq_ok, Prod.mk.injEq] at h
      obtain ⟨_, _, _, _, _, hpass, _, rfl⟩ := h
      exact hpassOn _ _ _ _ _ _ hpass hw
  | transferFrom spender owner recipient tokenId =>
      simp only [step, transferFrom, bind_eq_ok, pure_eq_ok, Prod.mk.injEq] at h
      obtain ⟨_, _, _, _, _, hpass, _, rfl⟩ := h
      exact hpassOn _ _ _ _ _ _ hpass hw
  | _ =>
      simp only [step, bind_eq_ok, pure_eq_ok, Prod.mk.injEq] at h
      obtain ⟨_, _, _, rfl⟩ := h
      exact hw

end XlmNs.Nft
