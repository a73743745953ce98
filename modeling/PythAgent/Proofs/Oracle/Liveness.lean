import PythAgent.Proofs.Oracle.Chain

/-!
# `PythAgent.Proofs.Oracle.Liveness`: which poll ticks the oracle task gets past

`Oracle::run` (`oracle.rs:140-146`) handles one event at a time. A poll that never returns
therefore stops the task. The reads, the `load_*` calls and the sends of a poll each return
at once, so on a static ledger a poll can only stall in one of its `while` walks:
`fetch_mapping_accounts` (`oracle.rs:181-188`) or the price loop of `fetch_product_account`
(`oracle.rs:259-264`).

* `fetchProductAccount_followsChain`: `fetch_product_account` returns the product at its key
  with the price chain from `px_acc`. It makes one call for the product and one per price.
* `poll_outOfFuel_chain`: a poll runs out of fuel only in a walk that passes as many keys as
  it has fuel without meeting the sentinel. That walk is the root mapping chain, or the price
  chain of a product that a mapping account of that chain lists.
* `poll_stalls_on_endless_chain`: a poll that never returns is stuck on a chain that never
  ends (`Chain.Endless`): the root mapping chain, or the price chain of a listed product. The
  root chain that reaches the sentinel lists finitely many products, so one of them must have
  price chains of every length (`exists_forall_of_eventually_exists`).
* `run_stalls_of_cyclic_root`: when the root mapping chain comes back to one of its keys, no
  poll tick ever returns. Every run with a poll tick stalls at the first one, and the task
  handles no event after it.
-/

set_option autoImplicit false

namespace PythAgent.Solana

open PythSdk (MappingAccount PriceAccount loadMappingAccount loadProductAccount
  loadPriceAccount)

section Product
variable {remote : Remote} (hstatic : remote.Static)
include hstatic

/-- On a static ledger `fetch_product_account` returns `Ok` exactly for a key that holds a
product account whose price chain reaches the sentinel within the fuel. It returns that
product, with the chain's nodes as its price keys, after one call for the product and one
per price. -/
theorem fetchProductAccount_followsChain (fuel : Nat) (key : Pubkey) (n : Nat) :
    (∀ account n', fetchProductAccount remote fuel key n = .ok account n' →
      ∃ nodes, remote.account loadProductAccount key = some account.accountData ∧
        Chain (remote.account loadPriceAccount) (·.next) account.accountData.pxAcc nodes default ∧
        nodes.length ≤ fuel ∧ n' = n + 1 + nodes.length ∧ account.priceAccounts.Perm nodes) ∧
    ∀ product nodes, remote.account loadProductAccount key = some product →
      Chain (remote.account loadPriceAccount) (·.next) product.pxAcc nodes default →
      nodes.length ≤ fuel →
      ∃ account, fetchProductAccount remote fuel key n = .ok account (n + 1 + nodes.length) ∧
        account.accountData = product := by
  refine ⟨fun _ _ h => fetchProductAccount_eq_ok_chain hstatic h, ?_⟩
  intro product nodes hproduct hc hlen
  obtain ⟨data, hdata, hload⟩ := Option.bind_eq_some.mp hproduct
  obtain ⟨prices, hwalk, -⟩ :=
    walkChain_follow (staticRead_fetchLoaded loadPriceAccount hstatic) hc fuel ∅ (n + 1) hlen
  rw [walkChain_default] at hwalk
  have hwalk' : walkChain (fetchPriceAccount remote) (·.next) fuel product.pxAcc ∅ (n + 1) =
      .ok prices (n + 1 + nodes.length) := hwalk
  refine ⟨⟨product, prices.keys⟩, ?_, rfl⟩
  simp only [fetchProductAccount, bind_apply, getAccountData, hstatic n, hdata, hload, load_some,
    hwalk', pure_apply]

end Product

/-- `fetchProductAccount_followsChain` on the one-product ledger, at its product key. -/
theorem fetchProductAccount_followsChain_one_product :
    oneProductRemote.Static ∧
      (∀ account n', fetchProductAccount oneProductRemote 1 (.ofLastByte 2) 0 = .ok account n' →
        ∃ nodes, oneProductRemote.account loadProductAccount (.ofLastByte 2) =
            some account.accountData ∧
          Chain (oneProductRemote.account loadPriceAccount) (·.next) account.accountData.pxAcc
            nodes default ∧
          nodes.length ≤ 1 ∧ n' = 0 + 1 + nodes.length ∧ account.priceAccounts.Perm nodes) ∧
      ∀ product nodes, oneProductRemote.account loadProductAccount (.ofLastByte 2) = some product →
        Chain (oneProductRemote.account loadPriceAccount) (·.next) product.pxAcc nodes default →
        nodes.length ≤ 1 →
        ∃ account, fetchProductAccount oneProductRemote 1 (.ofLastByte 2) 0 =
            .ok account (0 + 1 + nodes.length) ∧ account.accountData = product :=
  ⟨fun _ _ => rfl, fetchProductAccount_followsChain (fun _ _ => rfl) 1 (.ofLastByte 2) 0⟩

section OutOfFuel
variable {remote : Remote}

theorem fetchPriceAccounts_ne_outOfFuel (productAccounts : List ProductAccount) (n n' : Nat) :
    fetchPriceAccounts remote productAccounts n ≠ .error .outOfFuel n' := fun h => by
  obtain ⟨_, -, _, _, _, h⟩ := foldlM_error_step h
  obtain ⟨key, -, _, _, _, h⟩ := foldlM_error_step h
  rcases bind_eq_error.mp h with h | ⟨_, _, -, h⟩
  · exact fetchLoaded_ne_outOfFuel loadPriceAccount remote key _ _ h
  · cases h

theorem forM_send_ne_outOfFuel {β : Type} (f : β → Update) (message : String) :
    ∀ (l : List β) (s s' : Oracle),
      (l.forM fun b => send remote (f b) message) s ≠ .error .outOfFuel s'
  | [], _, _ => nofun
  | b :: l, s, s' => by
    simp only [List.forM, bind_apply, send_apply]
    split_ifs
    · exact forM_send_ne_outOfFuel f message l _ s'
    · nofun

theorem sendAllDataToGlobalStore_ne_outOfFuel (s s' : Oracle) :
    sendAllDataToGlobalStore remote s ≠ .error .outOfFuel s' := by
  simp only [sendAllDataToGlobalStore, bind_apply, get_apply]
  split
  · exact forM_send_ne_outOfFuel _ _ _ _ _
  · rename_i h
    intro heq
    cases heq
    exact forM_send_ne_outOfFuel _ _ _ _ _ h

/-- A product fetch runs out of fuel exactly when it has read a product account and the walk
of its price chain runs out of fuel. -/
theorem fetchProductAccount_eq_outOfFuel {fuel : Nat} {key : Pubkey} {n n' : Nat} :
    fetchProductAccount remote fuel key n = .error .outOfFuel n' ↔
      ∃ data product, remote.getAccountData n key = some data ∧
        loadProductAccount data = some product ∧
        walkChain (fetchPriceAccount remote) (·.next) fuel product.pxAcc ∅ (n + 1) =
          .error .outOfFuel n' := by
  refine ⟨fun h => ?_, fun ⟨data, product, hdata, hproduct, hwalk⟩ => ?_⟩
  · unfold fetchProductAccount at h
    rcases bind_eq_error.mp h with h | ⟨data, _, hread, h⟩
    · unfold getAccountData at h
      split at h <;> cases h
    rcases bind_eq_error.mp h with h | ⟨product, _, hload, h⟩
    · cases hl : loadProductAccount data <;> rw [hl] at h <;> cases h
    rcases bind_eq_error.mp h with h | ⟨_, _, -, h⟩
    · obtain ⟨hdata, rfl⟩ := getAccountData_eq_ok.mp hread
      obtain ⟨hproduct, rfl⟩ := load_eq_ok.mp hload
      exact ⟨data, product, hdata, hproduct, h⟩
    · cases h
  · simp only [fetchProductAccount, bind_apply, getAccountData, hdata, hproduct, load_some, hwalk]

/-- `fetch_product_accounts` runs out of fuel only in a product fetch of a listed slot. -/
theorem fetchProductAccounts_outOfFuel {fuel : Nat} {mappingAccounts : List MappingAccount}
    {n n' : Nat} (h : fetchProductAccounts remote fuel mappingAccounts n = .error .outOfFuel n') :
    ∃ m ∈ mappingAccounts, ∃ key ∈ m.products, ∃ n₁ n₂,
      fetchProductAccount remote fuel key n₁ = .error .outOfFuel n₂ := by
  obtain ⟨m, hm, _, _, _, h⟩ := foldlM_error_step h
  rcases bind_eq_error.mp h with h | ⟨_, _, -, h⟩
  · obtain ⟨key, hkey, _, _, _, h⟩ := foldlM_error_step h
    rcases bind_eq_error.mp h with h | ⟨_, _, -, h⟩
    · exact ⟨m, hm, key, hkey, _, _, h⟩
    · cases h
  · cases h

/-- `fetch_product_accounts` fails as the product fetch of the first slot of its first
mapping account fails. -/
theorem fetchProductAccounts_error_of_head {fuel : Nat} {m : MappingAccount}
    {mappingAccounts : List MappingAccount} {key : Pubkey} {keys : List Pubkey} {e : Error}
    {n n' : Nat} (hproducts : m.products = key :: keys)
    (h : fetchProductAccount remote fuel key n = .error e n') :
    fetchProductAccounts remote fuel (m :: mappingAccounts) n = .error e n' := by
  simp only [fetchProductAccounts, fetchProductAccountsFromMappingAccount, fetchEach, hproducts,
    List.foldlM_cons, bind_apply, h]

/-- A poll whose root walk returns runs out of fuel when `fetch_product_accounts` does. -/
theorem poll_outOfFuel_of_fetchProductAccounts {fuel : Nat} {s : Oracle}
    {m : AccountMap MappingAccount} {n₁ n : Nat}
    (hm : fetchMappingAccounts remote fuel s.config.mappingAccountKey s.rpcCalls = .ok m n₁)
    (hp : fetchProductAccounts remote fuel m.values n₁ = .error .outOfFuel n) :
    poll remote fuel s =
      .error .outOfFuel { s with rpcCalls := n, data := { s.data with mappingAccounts := m } } := by
  simp only [poll_eq, hm, hp]

end OutOfFuel

/-- On a static ledger a poll runs out of fuel only in a walk that follows `next` past as many
keys as it has fuel, to a key that is not the sentinel. That walk is the one of the root
mapping chain, or, once that chain has reached the sentinel, the price walk of a product that
one of its mapping accounts lists. -/
theorem poll_outOfFuel_chain (remote : Remote) (hstatic : remote.Static) (fuel : Nat)
    (s s' : Oracle) (h : poll remote fuel s = .error .outOfFuel s') :
    (∃ nodes last, Chain (remote.account loadMappingAccount) (·.next) s.config.mappingAccountKey
        nodes last ∧ nodes.length = fuel ∧ last ≠ default) ∨
    ∃ mkeys mkey m pkey product nodes last,
      Chain (remote.account loadMappingAccount) (·.next) s.config.mappingAccountKey mkeys default ∧
      mkey ∈ mkeys ∧ remote.account loadMappingAccount mkey = some m ∧ pkey ∈ m.products ∧
      remote.account loadProductAccount pkey = some product ∧
      Chain (remote.account loadPriceAccount) (·.next) product.pxAcc nodes last ∧
      nodes.length = fuel ∧ last ≠ default := by
  have hm := staticRead_fetchLoaded loadMappingAccount hstatic
  have hp := staticRead_fetchLoaded loadPriceAccount hstatic
  rcases poll_error h with ⟨_, hwalk, -⟩ | ⟨mapping, _, hwalk, ⟨_, hproducts, -⟩ | ⟨_, _, -, ⟨_, hq, -⟩ |
    ⟨_, _, -, hsend⟩⟩⟩
  · exact .inl ((walkChain_outOfFuel_iff hm fuel).mp (congrArg outcome hwalk))
  · obtain ⟨mkeys, hc, -, -, hlookup⟩ := walkChain_eq_ok_chain hm hwalk
    obtain ⟨m, hmv, pkey, hpkey, c, _, hfetch⟩ := fetchProductAccounts_outOfFuel hproducts
    obtain ⟨mkey, hmkey⟩ := AccountMap.exists_lookup_of_mem_values hmv
    rw [hlookup] at hmkey
    split_ifs at hmkey with hmem
    · obtain ⟨data, product, hdata, hproduct, hprice⟩ := fetchProductAccount_eq_outOfFuel.mp hfetch
      obtain ⟨nodes, last, hpc, hlen, hlast⟩ :=
        (walkChain_outOfFuel_iff hp fuel).mp (congrArg outcome hprice)
      exact .inr ⟨mkeys, mkey, m, pkey, product, nodes, last, hc, hmem, hmkey, hpkey,
        Remote.account_eq_some hstatic hdata hproduct, hpc, hlen, hlast⟩
    · cases hmkey
  · exact absurd hq (fetchPriceAccounts_ne_outOfFuel _ _ _)
  · exact absurd hsend (sendAllDataToGlobalStore_ne_outOfFuel _ _)

section Endless
variable {α : Type} {read : Pubkey → Option α} {next : α → Pubkey}

/-- Following `next` from `key` passes any number of keys: the walk from `key` meets neither
the sentinel nor a key that cannot be read. -/
def Chain.Endless (read : Pubkey → Option α) (next : α → Pubkey) (key : Pubkey) : Prop :=
  ∀ n, ∃ nodes last, Chain read next key nodes last ∧ nodes.length = n

/-- A chain gives a chain of each shorter length from the same key. -/
theorem Chain.shorten {key last : Pubkey} {nodes : List Pubkey}
    (h : Chain read next key nodes last) {m : Nat} (hm : m ≤ nodes.length) :
    ∃ nodes' last', Chain read next key nodes' last' ∧ nodes'.length = m := by
  rw [← List.take_append_drop m nodes] at h
  obtain ⟨mid, h₁, -⟩ := h.split _
  exact ⟨_, mid, h₁, List.length_take_of_le hm⟩

end Endless

/-- Of finitely many properties of the numbers, each closed downwards: if from some number on
one of them holds at each number, then one of them holds at every number. -/
theorem exists_forall_of_eventually_exists {β : Type} (P : β → Nat → Prop)
    (hdown : ∀ x m n, m ≤ n → P x n → P x m) :
    ∀ (l : List β) (N : Nat), (∀ n, N ≤ n → ∃ x ∈ l, P x n) → ∃ x ∈ l, ∀ n, P x n
  | [], N, h => absurd (h N le_rfl) (by simp)
  | x :: l, N, h => by
    by_cases hx : ∀ n, P x n
    · exact ⟨x, List.mem_cons_self _ _, hx⟩
    push_neg at hx
    obtain ⟨n₀, hn₀⟩ := hx
    obtain ⟨y, hy, hP⟩ := exists_forall_of_eventually_exists P hdown l (max N n₀) fun n hn => by
      obtain ⟨y, hy, hP⟩ := h n (le_of_max_le_left hn)
      rcases List.mem_cons.mp hy with rfl | hy
      · exact absurd (hdown y n₀ n (le_of_max_le_right hn) hP) hn₀
      · exact ⟨y, hy, hP⟩
    exact ⟨y, List.mem_cons_of_mem _ hy, hP⟩

/-- The keys in the product tables of the mapping accounts at `mkeys`, table by table. -/
def listedProducts (remote : Remote) (mkeys : List Pubkey) : List Pubkey :=
  mkeys.flatMap fun mkey => (remote.account loadMappingAccount mkey).toList.flatMap (·.products)

/-- The ledger holds a product account at `pkey`, and following `next` from its `px_acc`
passes `n` keys. -/
def PriceChainPasses (remote : Remote) (pkey : Pubkey) (n : Nat) : Prop :=
  ∃ product, remote.account loadProductAccount pkey = some product ∧
    ∃ nodes last, Chain (remote.account loadPriceAccount) (·.next) product.pxAcc nodes last ∧
      nodes.length = n

theorem PriceChainPasses.mono {remote : Remote} {pkey : Pubkey} {m n : Nat} (hle : m ≤ n)
    (h : PriceChainPasses remote pkey n) : PriceChainPasses remote pkey m :=
  have ⟨product, hproduct, _, _, hc, hlen⟩ := h
  ⟨product, hproduct, hc.shorten (hlen ▸ hle)⟩

/-- On a static ledger whose root chain reaches the sentinel through `mkeys`, a poll with more
fuel than that chain has nodes runs out of fuel only in the price walk of a listed product. -/
theorem poll_outOfFuel_listed {remote : Remote} (hstatic : remote.Static) {fuel : Nat}
    {s s' : Oracle} {mkeys : List Pubkey}
    (hc : Chain (remote.account loadMappingAccount) (·.next) s.config.mappingAccountKey mkeys
      default) (hfuel : mkeys.length < fuel) (h : poll remote fuel s = .error .outOfFuel s') :
    ∃ pkey ∈ listedProducts remote mkeys, PriceChainPasses remote pkey fuel := by
  rcases poll_outOfFuel_chain remote hstatic fuel s s' h with ⟨_, _, hc', hlen, -⟩ |
    ⟨_, mkey, m, pkey, product, nodes, last, hc', hmkey, hm, hpkey, hproduct, hpc, hlen, -⟩
  · have := (hc.prefix_of_sentinel hc').length_le
    omega
  · refine ⟨pkey, List.mem_flatMap.mpr ⟨mkey, (hc.prefix_of_sentinel hc').subset hmkey, ?_⟩,
      product, hproduct, nodes, last, hpc, hlen⟩
    simp [hm, hpkey]

/-- On a static ledger a poll that does not return, whatever its fuel, is stuck in one of its
two `while` walks on a chain that never ends: the root mapping chain, or, when that chain
reaches the sentinel, the price chain of a product that one of its mapping accounts lists. -/
theorem poll_stalls_on_endless_chain (remote : Remote) (hstatic : remote.Static) (s : Oracle)
    (hstalls : ∀ fuel, ∃ s', poll remote fuel s = .error .outOfFuel s') :
    Chain.Endless (remote.account loadMappingAccount) (·.next) s.config.mappingAccountKey ∨
    ∃ mkeys mkey m pkey product,
      Chain (remote.account loadMappingAccount) (·.next) s.config.mappingAccountKey mkeys default ∧
      mkey ∈ mkeys ∧ remote.account loadMappingAccount mkey = some m ∧ pkey ∈ m.products ∧
      remote.account loadProductAccount pkey = some product ∧
      Chain.Endless (remote.account loadPriceAccount) (·.next) product.pxAcc := by
  by_cases hroot : ∃ mkeys, Chain (remote.account loadMappingAccount) (·.next)
      s.config.mappingAccountKey mkeys default
  · obtain ⟨mkeys, hc⟩ := hroot
    obtain ⟨pkey, hpkey, hall⟩ := exists_forall_of_eventually_exists (PriceChainPasses remote)
      (fun _ _ _ hle h => h.mono hle) (listedProducts remote mkeys) (mkeys.length + 1)
      fun fuel hfuel => have ⟨_, h⟩ := hstalls fuel; poll_outOfFuel_listed hstatic hc hfuel h
    obtain ⟨mkey, hmkey, hlisted⟩ := List.mem_flatMap.mp hpkey
    obtain ⟨m, hm, hpm⟩ := List.mem_flatMap.mp hlisted
    obtain ⟨product, hproduct, -⟩ := hall 0
    refine .inr ⟨mkeys, mkey, m, pkey, product, hc, hmkey, Option.mem_toList.mp hm, hpm, hproduct,
      fun n => ?_⟩
    obtain ⟨product', hproduct', hn⟩ := hall n
    rwa [Option.some.inj (hproduct'.symm.trans hproduct)] at hn
  · refine .inl fun n => ?_
    obtain ⟨_, h⟩ := hstalls n
    rcases poll_outOfFuel_chain remote hstatic n s _ h with ⟨nodes, last, hc, hlen, -⟩ |
      ⟨mkeys, _, _, _, _, _, _, hc, -⟩
    · exact ⟨nodes, last, hc, hlen⟩
    · exact absurd ⟨mkeys, hc⟩ hroot

/-- A ledger whose mapping account lists product `2` in its first slot, and whose product's
price chain goes from key `3` to key `4` and back to key `3`. -/
def cyclicPriceRemote : Remote where
  getAccountData _ key :=
    if key = .ofLastByte 1 then some (.mapping (.ofUsed default [.ofLastByte 2]))
    else if key = .ofLastByte 2 then some (.product ⟨.ofLastByte 3⟩)
    else if key = .ofLastByte 3 then some (.price ⟨.ofLastByte 4⟩)
    else if key = .ofLastByte 4 then some (.price ⟨.ofLastByte 3⟩)
    else none
  storeAlive _ := true

/-- `poll_stalls_on_endless_chain` on the ledger with a cyclic price chain. With no fuel the
root walk stops at key `1`. With fuel the root walk passes key `1` and returns, and the price
walk of product `2`, in the first slot, runs out of fuel whatever it is. -/
theorem poll_stalls_on_endless_chain_cyclic_price :
    (∀ fuel, ∃ s',
      poll cyclicPriceRemote fuel (Oracle.new ⟨.ofLastByte 1⟩) = .error .outOfFuel s') ∧
    (Chain.Endless (cyclicPriceRemote.account loadMappingAccount) (·.next) (.ofLastByte 1) ∨
      ∃ mkeys mkey m pkey product,
        Chain (cyclicPriceRemote.account loadMappingAccount) (·.next) (.ofLastByte 1) mkeys
          default ∧
        mkey ∈ mkeys ∧ cyclicPriceRemote.account loadMappingAccount mkey = some m ∧
        pkey ∈ m.products ∧ cyclicPriceRemote.account loadProductAccount pkey = some product ∧
        Chain.Endless (cyclicPriceRemote.account loadPriceAccount) (·.next) product.pxAcc) := by
  have hstalls : ∀ fuel, ∃ s',
      poll cyclicPriceRemote fuel (Oracle.new ⟨.ofLastByte 1⟩) = .error .outOfFuel s' := by
    rintro (_ | fuel)
    · exact ⟨_, rfl⟩
    have hcycle : Chain (cyclicPriceRemote.account loadPriceAccount) (·.next) (.ofLastByte 3)
        [.ofLastByte 3, .ofLastByte 4] (.ofLastByte 3) :=
      .cons (by decide) rfl (.cons (by decide) rfl (.nil _))
    obtain ⟨_, hl, hlen⟩ := hcycle.cycle (List.mem_cons_self _ _) (fuel + 2)
    obtain ⟨_, hwalk⟩ := outcome_eq_error.mp (walkChain_outOfFuel
      (staticRead_fetchLoaded loadPriceAccount fun _ _ => rfl) hl (fuel + 1) ∅ 2 (by omega))
    have hone : fetchMappingAccounts cyclicPriceRemote 1 (.ofLastByte 1) 0 =
        .ok ((∅ : AccountMap _).insert (.ofLastByte 1) (.ofUsed default [.ofLastByte 2])) 1 := rfl
    have hroot : fetchMappingAccounts cyclicPriceRemote (fuel + 1) (.ofLastByte 1) 0 = _ :=
      ((walkChain_fuelMono _ _ _ _).le (Nat.le_add_left 1 fuel)
        fun _ h => absurd (h.symm.trans hone) nofun).trans hone
    exact ⟨_, poll_outOfFuel_of_fetchProductAccounts hroot
      (fetchProductAccounts_error_of_head rfl (fetchProductAccount_eq_outOfFuel.mpr
        ⟨_, _, rfl, rfl, hwalk⟩))⟩
  exact ⟨hstalls, poll_stalls_on_endless_chain cyclicPriceRemote (fun _ _ => rfl) _ hstalls⟩

/-- An account update keeps the configuration. -/
theorem handleAccountUpdate_config (remote : Remote) (accountKey : Pubkey) (account : Account)
    (s : Oracle) : (finalState (handleAccountUpdate remote accountKey account s)).config = s.config := by
  rcases handleAccountUpdate_final remote accountKey account s with ⟨-, hs⟩ | ⟨_, -, -, hs⟩ <;>
    rw [hs]

/-- A poll tick whose root walk runs out of fuel gives the loop of `Oracle::run` no next
state. -/
theorem runStep_pollTick_of_outOfFuel {remote : Remote} {fuel : Nat} {s : Oracle}
    (h : outcome (fetchMappingAccounts remote fuel s.config.mappingAccountKey s.rpcCalls) =
      .error .outOfFuel) :
    runStep remote s (.pollTick fuel) = none := by
  simp only [runStep, handleNext]
  rw [poll_eq]
  cases hm : fetchMappingAccounts remote fuel s.config.mappingAccountKey s.rpcCalls <;>
    rw [hm] at h <;> cases h
  rfl

/-- On a static ledger whose root mapping chain comes back to one of its keys, no poll tick
returns, whatever its fuel. Account updates keep the root key, so every run whose events
include a poll tick stalls at the first one: the task handles no event after it. -/
theorem run_stalls_of_cyclic_root (remote : Remote) (hstatic : remote.Static) (s : Oracle)
    (nodes : List Pubkey) (last : Pubkey)
    (hc : Chain (remote.account loadMappingAccount) (·.next) s.config.mappingAccountKey nodes last)
    (hmem : last ∈ nodes) (events : List Event) (htick : ∃ fuel, Event.pollTick fuel ∈ events) :
    run remote events s = none := by
  induction events generalizing s with
  | nil => obtain ⟨_, ⟨⟩⟩ := htick
  | cons e events ih =>
    cases e with
    | accountUpdate accountKey account =>
      rw [run, List.foldlM_cons, runStep_accountUpdate]
      obtain ⟨fuel, hfuel⟩ := htick
      refine ih _ ?_ ⟨fuel, (List.mem_cons.mp hfuel).resolve_left nofun⟩
      rw [handleAccountUpdate_config]
      exact hc
    | pollTick fuel =>
      rw [run, List.foldlM_cons, runStep_pollTick_of_outOfFuel
        ((walkChain_followsChain loadMappingAccount _ hstatic _).diverges nodes last hc hmem fuel _)]
      rfl

/-- A ledger whose two mapping accounts name each other as `next`. -/
def cyclicMappingRemote : Remote where
  getAccountData _ key :=
    if key = .ofLastByte 1 then some (.mapping (.ofUsed (.ofLastByte 2) []))
    else if key = .ofLastByte 2 then some (.mapping (.ofUsed (.ofLastByte 1) []))
    else none
  storeAlive _ := true

/-- `run_stalls_of_cyclic_root` on the ledger with two mapping accounts in a cycle: the run
never gets past its poll tick to the second account update. -/
theorem run_stalls_of_cyclic_root_pair :
    cyclicMappingRemote.Static ∧
      Chain (cyclicMappingRemote.account loadMappingAccount) (·.next)
        (Oracle.new ⟨.ofLastByte 1⟩).config.mappingAccountKey [.ofLastByte 1, .ofLastByte 2]
        (.ofLastByte 1) ∧
      run cyclicMappingRemote [.accountUpdate (.ofLastByte 3) ⟨.other⟩, .pollTick 100,
        .accountUpdate (.ofLastByte 3) ⟨.other⟩] (Oracle.new ⟨.ofLastByte 1⟩) = none :=
  have hc : Chain (cyclicMappingRemote.account loadMappingAccount) (·.next) (.ofLastByte 1)
      [.ofLastByte 1, .ofLastByte 2] (.ofLastByte 1) :=
    .cons (by decide) rfl (.cons (by decide) rfl (.nil _))
  ⟨fun _ _ => rfl, hc, run_stalls_of_cyclic_root cyclicMappingRemote (fun _ _ => rfl) _ _ _ hc
    (List.mem_cons_self _ _) _ ⟨100, List.mem_cons_of_mem _ (List.mem_cons_self _ _)⟩⟩

end PythAgent.Solana
