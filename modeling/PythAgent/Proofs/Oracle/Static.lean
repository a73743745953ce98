import PythAgent.Proofs.Oracle.Fuel

/-!
# `PythAgent.Proofs.Oracle.Static`: the fetches on a ledger that does not change

A ledger is static when it answers each key the same way at every call (`Remote.Static`).
The fetches then return what the ledger holds, whatever count of calls they start from
(`CountFree`). The property holds of one read, and `bind` and `foldlM` keep it, so it holds
of every fetch of the oracle.

* `CountFree.ok_of_ok`: a fetch that succeeded once succeeds from any count, with the same
  result. The price re-read of `fetch_price_accounts` relies on it (`Sync`).
* `poll_data_static`: two successful polls, with any fuel, from any two states with the same
  root mapping key leave the same graph. A poll rebuilds the graph from the ledger alone, so
  nothing of the graph before it survives.
-/

set_option autoImplicit false

namespace PythAgent.Solana

/-- A ledger that answers each key the same way at every call. -/
def Remote.Static (remote : Remote) : Prop :=
  ∀ n key, remote.getAccountData n key = remote.getAccountData 0 key

/-- The outcome of a run of `RpcM` code: its value or its error, without the call count. -/
def outcome {α : Type} : EStateM.Result Error Nat α → Except Error α
  | .ok a _ => .ok a
  | .error e _ => .error e

theorem outcome_eq_error {α : Type} {r : EStateM.Result Error Nat α} {e : Error} :
    outcome r = .error e ↔ ∃ n, r = .error e n := by
  cases r <;> simp [outcome]

/-- `RpcM` code whose outcome does not depend on the call count it starts from. -/
def CountFree {α : Type} (m : RpcM α) : Prop :=
  ∀ n₁ n₂, outcome (m n₁) = outcome (m n₂)

attribute [ext] Data

namespace CountFree
variable {α β : Type}

theorem pure (a : α) : CountFree (pure a : RpcM α) := fun _ _ => rfl

theorem throw (e : Error) : CountFree (throw e : RpcM α) := fun _ _ => rfl

theorem load (o : Option α) : CountFree (load o : RpcM α) := by
  cases o <;> exact fun _ _ => rfl

theorem bind {x : RpcM α} {f : α → RpcM β} (hx : CountFree x) (hf : ∀ a, CountFree (f a)) :
    CountFree (x >>= f) := fun n₁ n₂ => by
  have h := hx n₁ n₂
  rw [bind_apply, bind_apply]
  cases h₁ : x n₁ <;> cases h₂ : x n₂ <;> rw [h₁, h₂] at h <;> cases h
  · exact hf _ _ _
  · rfl

theorem foldlM {f : β → α → RpcM β} (hf : ∀ b a, CountFree (f b a)) :
    ∀ (l : List α) (b : β), CountFree (l.foldlM f b)
  | [], b => CountFree.pure b
  | a :: l, b => by
    rw [List.foldlM_cons]
    exact (hf b a).bind fun b' => foldlM hf l b'

/-- Two successful runs return the same value. -/
theorem eq_of_ok {x : RpcM α} (hx : CountFree x) {n₁ n₂ m₁ m₂ : Nat} {a₁ a₂ : α}
    (h₁ : x n₁ = .ok a₁ m₁) (h₂ : x n₂ = .ok a₂ m₂) : a₁ = a₂ := by
  have h := hx n₁ n₂
  rw [h₁, h₂] at h
  cases h
  rfl

/-- A run that succeeded once succeeds from any count, with the same value. -/
theorem ok_of_ok {x : RpcM α} (hx : CountFree x) {m m' : Nat} {a : α} (h : x m = .ok a m')
    (n : Nat) : ∃ n', x n = .ok a n' := by
  have hmn := hx m n
  rw [h] at hmn
  cases hn : x n with
  | ok b n' =>
    rw [hn] at hmn
    cases hmn
    exact ⟨n', rfl⟩
  | error e n' =>
    rw [hn] at hmn
    cases hmn

end CountFree

section Generic
variable {α : Type} {fetch : Pubkey → RpcM α} (hfetch : ∀ key, CountFree (fetch key))
include hfetch

theorem walkChain_countFree (next : α → Pubkey) (fuel : Nat) :
    ∀ key accounts, CountFree (walkChain fetch next fuel key accounts) := by
  induction fuel with
  | zero =>
    intro key accounts
    rw [walkChain]
    split_ifs
    exacts [.pure _, .throw _]
  | succ fuel ih =>
    intro key accounts
    rw [walkChain]
    split_ifs
    exacts [.pure _, (hfetch key).bind fun _ => ih _ _]

theorem fetchEach_countFree (keys : List Pubkey) (accounts : AccountMap α) :
    CountFree (fetchEach fetch keys accounts) :=
  CountFree.foldlM (fun _ key => (hfetch key).bind fun _ => .pure _) keys accounts

end Generic

section Static
variable {remote : Remote} (hstatic : remote.Static)
include hstatic

theorem getAccountData_countFree (key : Pubkey) : CountFree (getAccountData remote key) :=
  fun n₁ n₂ => by
    unfold getAccountData
    rw [hstatic n₁, hstatic n₂]
    cases remote.getAccountData 0 key <;> rfl

theorem fetchPriceAccount_countFree (key : Pubkey) : CountFree (fetchPriceAccount remote key) :=
  (getAccountData_countFree hstatic key).bind fun _ => .load _

theorem fetchMappingAccounts_countFree (fuel : Nat) (key : Pubkey) :
    CountFree (fetchMappingAccounts remote fuel key) :=
  walkChain_countFree (fun key => (getAccountData_countFree hstatic key).bind fun _ => .load _)
    _ fuel key ∅

theorem fetchProductAccount_countFree (fuel : Nat) (key : Pubkey) :
    CountFree (fetchProductAccount remote fuel key) :=
  (getAccountData_countFree hstatic key).bind fun _ => (CountFree.load _).bind fun _ =>
    (walkChain_countFree (fetchPriceAccount_countFree hstatic) _ fuel _ _).bind fun _ => .pure _

theorem fetchProductAccountsFromMappingAccount_countFree (fuel : Nat)
    (mappingAccount : PythSdk.MappingAccount) :
    CountFree (fetchProductAccountsFromMappingAccount remote fuel mappingAccount) :=
  fetchEach_countFree (fetchProductAccount_countFree hstatic fuel) _ ∅

theorem fetchProductAccounts_countFree (fuel : Nat) (mappingAccounts : List PythSdk.MappingAccount) :
    CountFree (fetchProductAccounts remote fuel mappingAccounts) := by
  unfold fetchProductAccounts
  exact CountFree.foldlM (fun _ m =>
    (fetchProductAccountsFromMappingAccount_countFree hstatic fuel m).bind fun _ => .pure _) _ ∅

theorem fetchPriceAccounts_countFree (productAccounts : List ProductAccount) :
    CountFree (fetchPriceAccounts remote productAccounts) :=
  CountFree.foldlM (fun _ _ => fetchEach_countFree (fetchPriceAccount_countFree hstatic) _ _)
    productAccounts ∅

end Static

/-- On a static ledger the graph a successful poll leaves depends on the ledger and the root
mapping key alone: two successful polls, with any fuel, from any two states with the same
root key leave the same `mapping_accounts`, `product_accounts` and `price_accounts`, so
nothing of the graph before a poll survives it. -/
theorem poll_data_static (remote : Remote) (hstatic : remote.Static) (fuel₁ fuel₂ : Nat)
    (s₁ s₂ s₁' s₂' : Oracle) (hkey : s₁.config.mappingAccountKey = s₂.config.mappingAccountKey)
    (h₁ : poll remote fuel₁ s₁ = .ok () s₁') (h₂ : poll remote fuel₂ s₂ = .ok () s₂') :
    s₁'.data = s₂'.data := by
  obtain ⟨_, _, _, hm₁, hp₁, hq₁⟩ := poll_ok_data (poll_ok_of_le h₁ (le_max_left fuel₁ fuel₂))
  obtain ⟨_, _, _, hm₂, hp₂, hq₂⟩ := poll_ok_data (poll_ok_of_le h₂ (le_max_right fuel₁ fuel₂))
  rw [hkey] at hm₁
  have hm := (fetchMappingAccounts_countFree hstatic _ _).eq_of_ok hm₁ hm₂
  rw [hm] at hp₁
  have hp := (fetchProductAccounts_countFree hstatic _ _).eq_of_ok hp₁ hp₂
  rw [hp] at hq₁
  exact Data.ext hm hp ((fetchPriceAccounts_countFree hstatic _).eq_of_ok hq₁ hq₂)

/-- A state whose graph holds a mapping account that no ledger read gave. -/
def staleOracle : Oracle :=
  ⟨⟨.ofLastByte 1⟩,
    ⟨(∅ : AccountMap _).insert (.ofLastByte 7) (.ofUsed default [.ofLastByte 8]), ∅, ∅⟩, 5, []⟩

set_option maxRecDepth 20000 in
/-- `poll_data_static` on the one-product ledger, from `Oracle::new` with fuel `1` and from a
state with a stale mapping account with fuel `2`. -/
theorem poll_data_static_stale :
    ∃ s₁' s₂', poll oneProductRemote 1 (Oracle.new ⟨.ofLastByte 1⟩) = .ok () s₁' ∧
      poll oneProductRemote 2 staleOracle = .ok () s₂' ∧ s₁'.data = s₂'.data :=
  have ⟨s₁', h₁, _⟩ := poll_oneProductRemote_ok
  have ⟨s₂', h₂⟩ : ∃ s₂', poll oneProductRemote 2 staleOracle = .ok () s₂' := ⟨_, rfl⟩
  ⟨s₁', s₂', h₁, h₂, poll_data_static oneProductRemote (fun _ _ => rfl) 1 2
    (Oracle.new ⟨.ofLastByte 1⟩) staleOracle s₁' s₂' rfl h₁ h₂⟩

end PythAgent.Solana
