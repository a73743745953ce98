import PythAgent.Proofs.Oracle.Handlers

/-!
# `PythAgent.Proofs.Oracle.Poll`: the graph a successful poll builds

`poll_ok` splits a poll that returns `Ok` into its three fetches. This module says what
each fetch returns, by induction over its `for` loop, and so what keys the rebuilt maps have.
`walkChain_eq_ok` and `fetchProductAccount_eq_ok` say once what a walk and a product fetch
that return have done; the loop lemmas cite them and never unfold the fetches.

* `poll_productAccounts_keys`: the product keys are every slot of the `products` table of
  every stored mapping account. `fetch_product_accounts_from_mapping_account` iterates over
  the whole table, and its unused slots hold `Pubkey::default()`; nothing skips them.
* `poll_priceAccounts_keys`: the price keys are the keys the stored products list.
* `poll_reads_unused_slot`: a successful poll over a mapping account with an unused slot has
  read `Pubkey::default()`, decoded it as a product account, and stored it as a product.
* `poll_refClosed_iff`: a successful poll leaves a referentially closed graph exactly when
  no stored mapping account has an unused slot.
* `run_reaches_unclosed_graph`: a poll that fails on a product read keeps the mapping
  accounts it assigned (`poll_error`), and so leaves a graph that is not closed either.
-/

set_option autoImplicit false

namespace PythAgent.Solana

open PythSdk (MappingAccount PriceAccount AccountData loadProductAccount)

theorem getAccountData_eq_ok {remote : Remote} {key : Pubkey} {n n' : Nat} {data : AccountData} :
    getAccountData remote key n = .ok data n' ↔
      remote.getAccountData n key = some data ∧ n' = n + 1 := by
  unfold getAccountData
  cases remote.getAccountData n key <;> simp [eq_comm]

theorem AccountMap.mem_extend {V : Type} {m other : AccountMap V} {k : Pubkey} :
    k ∈ m.extend other ↔ k ∈ m ∨ k ∈ other := by
  suffices ∀ (l : List (Sigma fun _ : Pubkey => V)) (m : AccountMap V),
      k ∈ l.foldl (fun acc e => acc.insert e.1 e.2) m ↔ k ∈ m ∨ k ∈ l.keys from this _ m
  intro l
  induction l with
  | nil => simp
  | cons e l ih =>
    intro m
    simp only [List.foldl_cons, ih, AList.mem_insert, List.keys_cons, List.mem_cons]
    exact or_assoc.trans or_left_comm

theorem AccountMap.exists_lookup_of_mem_values {V : Type} {m : AccountMap V} {v : V}
    (h : v ∈ m.values) : ∃ k, m.lookup k = some v := by
  obtain ⟨⟨k, w⟩, he, rfl⟩ := List.mem_map.mp h
  exact ⟨k, AList.mem_lookup_iff.mpr he⟩

theorem AccountMap.mem_values_of_lookup {V : Type} {m : AccountMap V} {k : Pubkey} {v : V}
    (h : m.lookup k = some v) : v ∈ m.values :=
  List.mem_map.mpr ⟨⟨k, v⟩, AList.mem_lookup_iff.mp h, rfl⟩

section FetchEach
variable {α : Type} {fetch : Pubkey → RpcM α}

/-- The keys of a `for` loop of fetches that returns: the keys it started with and the keys
it fetched. -/
theorem fetchEach_keys (k : Pubkey) :
    ∀ {keys : List Pubkey} {accounts r : AccountMap α} {n n' : Nat},
      fetchEach fetch keys accounts n = .ok r n' → (k ∈ r ↔ k ∈ accounts ∨ k ∈ keys)
  | [], _, _, _, _, h => by
    cases h
    simp
  | key :: keys, accounts, _, _, _, h => by
    rw [fetchEach, List.foldlM_cons, bind_eq_ok] at h
    obtain ⟨_, _, h₁, h⟩ := h
    obtain ⟨_, _, -, h₁⟩ := bind_eq_ok.mp h₁
    cases h₁
    rw [fetchEach_keys k h, AList.mem_insert, List.mem_cons]
    exact or_assoc.trans or_left_comm

/-- A `for` loop of fetches that returns has fetched each of its keys without error. -/
theorem fetchEach_reads {keys : List Pubkey} {accounts r : AccountMap α} {n n' : Nat}
    (h : fetchEach fetch keys accounts n = .ok r n') {key : Pubkey} (hkey : key ∈ keys) :
    ∃ m a m', fetch key m = .ok a m' := by
  obtain ⟨_, m, _, _, hstep⟩ := foldlM_ok_step h key hkey
  obtain ⟨a, m', hfetch, -⟩ := bind_eq_ok.mp hstep
  exact ⟨m, a, m', hfetch⟩

end FetchEach

section Walk
variable {α : Type} {fetch : Pubkey → RpcM α} {next : α → Pubkey} {key : Pubkey}
  {accounts : AccountMap α}

theorem walkChain_default (fuel : Nat) :
    walkChain fetch next fuel default accounts = pure accounts := by
  cases fuel <;> rw [walkChain, if_pos rfl]

theorem walkChain_zero_of_ne (hkey : key ≠ default) :
    walkChain fetch next 0 key accounts = throw .outOfFuel := by
  rw [walkChain, if_neg hkey]

theorem walkChain_succ_of_ne (hkey : key ≠ default) (fuel : Nat) :
    walkChain fetch next (fuel + 1) key accounts =
      fetch key >>= fun a => walkChain fetch next fuel (next a) (accounts.insert key a) := by
  rw [walkChain, if_neg hkey]

end Walk

section Fetch
variable {remote : Remote} {fuel n n' : Nat}

/-- One step of a walk that returns: it stops at `Pubkey::default()`, or it fetched the key
and walked on from the next one with fuel to spare. -/
theorem walkChain_eq_ok {α : Type} {fetch : Pubkey → RpcM α} {next : α → Pubkey} {key : Pubkey}
    {accounts r : AccountMap α} (h : walkChain fetch next fuel key accounts n = .ok r n') :
    (key = default ∧ r = accounts ∧ n' = n) ∨
      ∃ fuel' a n₁, fuel = fuel' + 1 ∧ key ≠ default ∧ fetch key n = .ok a n₁ ∧
        walkChain fetch next fuel' (next a) (accounts.insert key a) n₁ = .ok r n' := by
  rw [walkChain.eq_def] at h
  dsimp only at h
  split_ifs at h with hkey
  · cases h
    exact .inl ⟨hkey, rfl, rfl⟩
  · cases fuel with
    | zero => cases h
    | succ fuel =>
      obtain ⟨a, n₁, hfetch, h⟩ := bind_eq_ok.mp h
      exact .inr ⟨fuel, a, n₁, rfl, hkey, hfetch, h⟩

/-- A walk that returns has fetched each key it added without error. -/
theorem walkChain_mem {α : Type} {fetch : Pubkey → RpcM α} {next : α → Pubkey} (fuel : Nat) :
    ∀ {key : Pubkey} {accounts r : AccountMap α} {n n' : Nat},
      walkChain fetch next fuel key accounts n = .ok r n' →
        ∀ k ∈ r, k ∈ accounts ∨ ∃ m a m', fetch k m = .ok a m' := by
  induction fuel with
  | zero =>
    intro key accounts r n n' h k hk
    rcases walkChain_eq_ok h with ⟨-, rfl, -⟩ | ⟨_, _, _, hfuel, -⟩
    · exact .inl hk
    · cases hfuel
  | succ fuel ih =>
    intro key accounts r n n' h k hk
    rcases walkChain_eq_ok h with ⟨-, rfl, -⟩ | ⟨_, a, n₁, ⟨⟩, -, hfetch, h⟩
    · exact .inl hk
    rcases ih h k hk with hk | hk
    · rcases (AList.mem_insert _).mp hk with rfl | hk
      · exact .inr ⟨n, a, n₁, hfetch⟩
      · exact .inl hk
    · exact .inr hk

/-- A product fetch that returns has read the key, decoded a product account there, and
walked its price chain from `px_acc`; its price keys are the keys of that walk. -/
theorem fetchProductAccount_eq_ok {key : Pubkey} {account : ProductAccount}
    (h : fetchProductAccount remote fuel key n = .ok account n') :
    ∃ data prices, remote.getAccountData n key = some data ∧
      loadProductAccount data = some account.accountData ∧
      walkChain (fetchPriceAccount remote) (·.next) fuel account.accountData.pxAcc ∅ (n + 1) =
        .ok prices n' ∧ account.priceAccounts = prices.keys := by
  unfold fetchProductAccount at h
  obtain ⟨data, _, hread, h⟩ := bind_eq_ok.mp h
  obtain ⟨_, _, hload, h⟩ := bind_eq_ok.mp h
  obtain ⟨prices, _, hwalk, h⟩ := bind_eq_ok.mp h
  cases h
  obtain ⟨hdata, rfl⟩ := getAccountData_eq_ok.mp hread
  obtain ⟨hproduct, rfl⟩ := load_eq_ok.mp hload
  exact ⟨data, prices, hdata, hproduct, hwalk, rfl⟩

/-- `fetch_product_accounts` returns one product per slot of the mapping accounts' tables. -/
theorem fetchProductAccounts_keys {mappingAccounts : List MappingAccount}
    {r : AccountMap ProductAccount} (h : fetchProductAccounts remote fuel mappingAccounts n = .ok r n')
    (k : Pubkey) : k ∈ r ↔ ∃ m ∈ mappingAccounts, k ∈ m.products := by
  suffices k ∈ r ↔ k ∈ (∅ : AccountMap ProductAccount) ∨ ∃ m ∈ mappingAccounts, k ∈ m.products by
    simpa using this
  unfold fetchProductAccounts at h
  generalize (∅ : AccountMap ProductAccount) = accounts at h ⊢
  induction mappingAccounts generalizing accounts n with
  | nil =>
    cases h
    simp
  | cons m ms ih =>
    rw [List.foldlM_cons, bind_eq_ok] at h
    obtain ⟨_, _, h₁, h⟩ := h
    obtain ⟨_, _, hfound, h₁⟩ := bind_eq_ok.mp h₁
    cases h₁
    rw [ih _ h, AccountMap.mem_extend, fetchEach_keys k hfound]
    simp only [List.mem_cons, exists_eq_or_imp, AList.not_mem_empty, false_or]
    exact or_assoc

/-- `fetch_product_accounts` that returns has read every slot of the mapping accounts'
tables as a product account. -/
theorem fetchProductAccounts_reads {mappingAccounts : List MappingAccount}
    {r : AccountMap ProductAccount} (h : fetchProductAccounts remote fuel mappingAccounts n = .ok r n')
    {m : MappingAccount} (hm : m ∈ mappingAccounts) {k : Pubkey} (hk : k ∈ m.products) :
    ∃ n₀ data account, remote.getAccountData n₀ k = some data ∧
      loadProductAccount data = some account := by
  obtain ⟨_, _, _, _, hstep⟩ := foldlM_ok_step h m hm
  obtain ⟨_, _, hfound, -⟩ := bind_eq_ok.mp hstep
  obtain ⟨n₀, _, _, hfetch⟩ := fetchEach_reads hfound hk
  obtain ⟨data, _, hread, hload, -⟩ := fetchProductAccount_eq_ok hfetch
  exact ⟨n₀, data, _, hread, hload⟩

/-- `fetch_price_accounts` returns one price per key that the products list. -/
theorem fetchPriceAccounts_keys {productAccounts : List ProductAccount}
    {r : AccountMap PriceAccount} (h : fetchPriceAccounts remote productAccounts n = .ok r n')
    (k : Pubkey) : k ∈ r ↔ ∃ p ∈ productAccounts, k ∈ p.priceAccounts := by
  suffices k ∈ r ↔ k ∈ (∅ : AccountMap PriceAccount) ∨ ∃ p ∈ productAccounts, k ∈ p.priceAccounts by
    simpa using this
  unfold fetchPriceAccounts at h
  generalize (∅ : AccountMap PriceAccount) = accounts at h ⊢
  induction productAccounts generalizing accounts n with
  | nil =>
    cases h
    simp
  | cons p ps ih =>
    rw [List.foldlM_cons, bind_eq_ok] at h
    obtain ⟨_, _, h₁, h⟩ := h
    rw [ih _ h, fetchEach_keys k h₁]
    simp only [List.mem_cons, exists_eq_or_imp]
    exact or_assoc

end Fetch

section Poll
variable {remote : Remote} {fuel : Nat} {s s' : Oracle}

/-- A poll that returns `Ok` stored what its three fetches returned. -/
theorem poll_ok_data (h : poll remote fuel s = .ok () s') :
    ∃ n₁ n₂ n₃,
      fetchMappingAccounts remote fuel s.config.mappingAccountKey s.rpcCalls =
        .ok s'.data.mappingAccounts n₁ ∧
      fetchProductAccounts remote fuel s'.data.mappingAccounts.values n₁ =
        .ok s'.data.productAccounts n₂ ∧
      fetchPriceAccounts remote s'.data.productAccounts.values n₂ = .ok s'.data.priceAccounts n₃ := by
  obtain ⟨_, _, _, n₁, n₂, n₃, h₁, h₂, h₃, hsend⟩ := poll_ok h
  rw [sendAllDataToGlobalStore_ok remote _ s' hsend]
  exact ⟨n₁, n₂, n₃, h₁, h₂, h₃⟩

/-- After a successful poll the product keys are the slots of the stored mapping accounts'
tables, unused slots included. -/
theorem poll_productAccounts_keys (h : poll remote fuel s = .ok () s') (k : Pubkey) :
    k ∈ s'.data.productAccounts ↔ ∃ m ∈ s'.data.mappingAccounts.values, k ∈ m.products := by
  obtain ⟨_, _, _, -, h₂, -⟩ := poll_ok_data h
  exact fetchProductAccounts_keys h₂ k

/-- After a successful poll the price keys are the keys the stored products list. -/
theorem poll_priceAccounts_keys (h : poll remote fuel s = .ok () s') (k : Pubkey) :
    k ∈ s'.data.priceAccounts ↔ ∃ p ∈ s'.data.productAccounts.values, k ∈ p.priceAccounts := by
  obtain ⟨_, _, _, -, -, h₃⟩ := poll_ok_data h
  exact fetchPriceAccounts_keys h₃ k

/-- A successful poll has read every slot of every stored mapping account's table as a
product account. -/
theorem poll_reads_products (h : poll remote fuel s = .ok () s') {m : MappingAccount}
    (hm : m ∈ s'.data.mappingAccounts.values) {k : Pubkey} (hk : k ∈ m.products) :
    ∃ n data account, remote.getAccountData n k = some data ∧
      loadProductAccount data = some account := by
  obtain ⟨_, _, _, -, h₂, -⟩ := poll_ok_data h
  exact fetchProductAccounts_reads h₂ hm hk

end Poll

/-- A successful poll over a mapping account whose `products` table has an unused slot
(`Pubkey::default()`) has read the default key, decoded it as a product account, and stored
it under the default key in `product_accounts`. -/
theorem poll_reads_unused_slot (remote : Remote) (fuel : Nat) (s s' : Oracle)
    (h : poll remote fuel s = .ok () s') (m : MappingAccount)
    (hm : m ∈ s'.data.mappingAccounts.values) (hslot : default ∈ m.products) :
    default ∈ s'.data.productAccounts ∧
      ∃ n data account, remote.getAccountData n default = some data ∧
        loadProductAccount data = some account :=
  ⟨(poll_productAccounts_keys h default).mpr ⟨m, hm, hslot⟩, poll_reads_products h hm hslot⟩

/-- `poll_reads_unused_slot` on the one-product ledger, whose mapping account has 639 unused
slots. -/
theorem poll_reads_unused_slot_of_table :
    ∃ s', poll oneProductRemote 1 (Oracle.new ⟨.ofLastByte 1⟩) = .ok () s' ∧
      default ∈ s'.data.productAccounts ∧
      ∃ n data account, oneProductRemote.getAccountData n default = some data ∧
        loadProductAccount data = some account :=
  have ⟨s', h, hm, _⟩ := poll_oneProductRemote_ok
  ⟨s', h, poll_reads_unused_slot oneProductRemote 1 (Oracle.new ⟨.ofLastByte 1⟩) s' h _
    (AccountMap.mem_values_of_lookup hm) (MappingAccount.default_mem_ofUsed (by decide))⟩

/-- The graph is referentially closed: the price keys are the keys that the products list,
and the product keys are the keys other than `Pubkey::default()` that the mapping accounts
list. -/
def Data.RefClosed (d : Data) : Prop :=
  (∀ k, k ∈ d.priceAccounts ↔ ∃ p ∈ d.productAccounts.values, k ∈ p.priceAccounts) ∧
  (∀ k, k ∈ d.productAccounts ↔ k ≠ default ∧ ∃ m ∈ d.mappingAccounts.values, k ∈ m.products)

/-- A successful poll leaves a referentially closed graph exactly when no stored mapping
account has an unused slot. -/
theorem poll_refClosed_iff (remote : Remote) (fuel : Nat) (s s' : Oracle)
    (h : poll remote fuel s = .ok () s') :
    s'.data.RefClosed ↔ ∀ m ∈ s'.data.mappingAccounts.values, default ∉ m.products := by
  simp only [Data.RefClosed, poll_priceAccounts_keys h, poll_productAccounts_keys h,
    forall_const, true_and]
  constructor
  · intro hclosed m hm hslot
    exact ((hclosed default).mp ⟨m, hm, hslot⟩).1 rfl
  · intro hslots k
    refine ⟨fun ⟨m, hm, hk⟩ => ⟨fun hkd => hslots m hm (hkd ▸ hk), m, hm, hk⟩, And.right⟩

/-- `poll_refClosed_iff` on the one-product ledger: its mapping account has unused slots, so
the graph of its poll is not referentially closed. -/
theorem poll_not_refClosed_one_product :
    ∃ s', poll oneProductRemote 1 (Oracle.new ⟨.ofLastByte 1⟩) = .ok () s' ∧
      ¬ s'.data.RefClosed :=
  have ⟨s', h, hm, _⟩ := poll_oneProductRemote_ok
  ⟨s', h, fun hclosed =>
    (poll_refClosed_iff oneProductRemote 1 (Oracle.new ⟨.ofLastByte 1⟩) s' h).mp hclosed _
      (AccountMap.mem_values_of_lookup hm) (MappingAccount.default_mem_ofUsed (by decide))⟩

/-- A run of one poll tick from `Oracle::new` ends in a graph that is not referentially
closed: the product read fails after `mapping_accounts` was assigned, so the mapping account
lists a product that `product_accounts` does not hold. -/
theorem run_reaches_unclosed_graph :
    ∃ s, run unreadableProductRemote [.pollTick 1] (Oracle.new ⟨.ofLastByte 1⟩) = some s ∧
      ¬ s.data.RefClosed := by
  refine ⟨_, rfl, fun h => ?_⟩
  have hm : (finalState (poll unreadableProductRemote 1
      (Oracle.new ⟨.ofLastByte 1⟩))).data.mappingAccounts.lookup (.ofLastByte 1) =
        some (.ofUsed default [.ofLastByte 2]) := rfl
  have hp := (h.2 (.ofLastByte 2)).2 ⟨by decide, _, AccountMap.mem_values_of_lookup hm,
    MappingAccount.mem_ofUsed (by decide) (List.mem_singleton_self _)⟩
  exact absurd (AList.mem_keys.mpr hp) (by decide)

end PythAgent.Solana
