import PythAgent.Proofs.Oracle.Chain

/-!
# `PythAgent.Proofs.Oracle.Sync`: the graph is the ledger's, and the store follows the graph

Each entry a poll stores is what a fetch returned for its key (`fetchEach_lookup`,
`fetchProductAccounts_lookup`, `fetchPriceAccounts_lookup`). On a static ledger a fetch
returns the account the ledger holds at the key, and the walks follow the ledger's chains. So
`poll_stores_ledger`: a successful poll stores the ledger's graph, each map entry at its own
key.

The global store applies the oracle's messages in the order they were sent, each one
overwriting the entry at its key (`downstream`). The oracle is in sync with it when every
product and price of the graph is what the store holds at its key (`Oracle.InSync`).

* `poll_inSync`: a successful poll puts the store in sync, whatever it held before, since it
  sends every entry of the two rebuilt maps.
* `handleAccountUpdate_inSync`: a successful account update keeps the store in sync, since it
  sends the entry it replaces.
* `poll_error_static`: a failed poll breaks the sync only if it fails after it assigned
  `product_accounts`, in the re-read of `fetch_price_accounts` or in a send. On a ledger that
  answers each key the same way at every call (`Remote.Static`) the re-read succeeds, since
  the walk of `fetch_product_account` has read the same keys as price accounts; with a live
  store no send fails. Such a poll fails before its second assignment.
* `run_reaches_unsynced_graph`: on a ledger where the re-read fails, a run of one poll tick
  leaves products in the graph that the store never received, though every send succeeds.
* `run_new_inSync`: so, on a static ledger with a live store, every run from `Oracle::new`
  keeps the store in sync after each event.
-/

set_option autoImplicit false

namespace PythAgent.Solana

open PythSdk (PriceAccount loadMappingAccount loadProductAccount loadPriceAccount)

/-- The global store's handling of one message: it overwrites the entry at the key. -/
def deliver (store : AccountMap ProductAccount × AccountMap PriceAccount) :
    Update → AccountMap ProductAccount × AccountMap PriceAccount
  | .productAccountUpdate k v => (store.1.insert k v, store.2)
  | .priceAccountUpdate k v => (store.1, store.2.insert k v)

/-- The global store after the messages `sent`, applied in order. -/
def downstream (sent : List Update) : AccountMap ProductAccount × AccountMap PriceAccount :=
  sent.foldl deliver (∅, ∅)

/-- Every product and price of the graph is what the global store holds at its key. -/
def Oracle.InSync (s : Oracle) : Prop :=
  (∀ k v, s.data.productAccounts.lookup k = some v → (downstream s.sent).1.lookup k = some v) ∧
  (∀ k v, s.data.priceAccounts.lookup k = some v → (downstream s.sent).2.lookup k = some v)

section Store

/-- `HashMap::extend`: a key of `other` takes its value from `other`. -/
theorem AccountMap.lookup_extend {V : Type} (m other : AccountMap V) (k : Pubkey) :
    (m.extend other).lookup k = (other.lookup k).or (m.lookup k) := by
  suffices ∀ l : List (Sigma fun _ : Pubkey => V), l.NodupKeys → ∀ m : AccountMap V,
      (l.foldl (fun acc e => acc.insert e.1 e.2) m).lookup k = (l.dlookup k).or (m.lookup k) from
    this _ other.nodupKeys m
  intro l
  induction l with
  | nil => simp
  | cons e l ih =>
    obtain ⟨a, b⟩ := e
    intro hl m
    rw [List.nodupKeys_cons] at hl
    rw [List.foldl_cons, ih hl.2]
    by_cases hk : k = a
    · subst hk
      rw [List.dlookup_eq_none.mpr hl.1, AList.lookup_insert, List.dlookup_cons_eq]
      rfl
    · rw [AList.lookup_insert_ne hk, List.dlookup_cons_ne _ _ hk]

theorem downstream_append (l l' : List Update) :
    downstream (l ++ l') = l'.foldl deliver (downstream l) :=
  List.foldl_append _ _ _ _

theorem foldl_deliver_products (p : AccountMap ProductAccount)
    (store : AccountMap ProductAccount × AccountMap PriceAccount) :
    (p.entries.map fun e => Update.productAccountUpdate e.1 e.2).foldl deliver store =
      (store.1.extend p, store.2) := by
  rw [List.foldl_map]
  unfold AccountMap.extend
  generalize p.entries = l
  induction l generalizing store with
  | nil => rfl
  | cons _ _ ih => exact ih _

theorem foldl_deliver_prices (q : AccountMap PriceAccount)
    (store : AccountMap ProductAccount × AccountMap PriceAccount) :
    (q.entries.map fun e => Update.priceAccountUpdate e.1 e.2).foldl deliver store =
      (store.1, store.2.extend q) := by
  rw [List.foldl_map]
  unfold AccountMap.extend
  generalize q.entries = l
  induction l generalizing store with
  | nil => rfl
  | cons _ _ ih => exact ih _

end Store

section InSync
variable {s s' : Oracle}

/-- `Oracle::new` is in sync: its graph is empty. -/
theorem Oracle.new_inSync (config : Config) : (Oracle.new config).InSync := by
  constructor <;> intro _ _ h <;> cases h

/-- The sync reads only `product_accounts`, `price_accounts` and the messages sent. -/
theorem Oracle.InSync.congr (hs : s.InSync)
    (h : s'.data.productAccounts = s.data.productAccounts ∧
      s'.data.priceAccounts = s.data.priceAccounts ∧ s'.sent = s.sent) : s'.InSync := by
  obtain ⟨h₁, h₂, h₃⟩ := h
  unfold Oracle.InSync
  rw [h₁, h₂, h₃]
  exact hs

/-- Sending every entry of both maps puts the store in sync, whatever it held before. -/
theorem Oracle.inSync_sendAll (s : Oracle) :
    ({ s with sent := s.sent ++
        s.data.productAccounts.entries.map (fun e => .productAccountUpdate e.1 e.2) ++
        s.data.priceAccounts.entries.map (fun e => .priceAccountUpdate e.1 e.2) } : Oracle).InSync := by
  unfold Oracle.InSync
  dsimp only
  rw [downstream_append, downstream_append, foldl_deliver_products, foldl_deliver_prices]
  exact ⟨fun k v hk => by rw [AccountMap.lookup_extend, hk]; rfl,
    fun k v hk => by rw [AccountMap.lookup_extend, hk]; rfl⟩

/-- Replacing one price and sending it keeps the store in sync. -/
theorem Oracle.InSync.insertPrice (hs : s.InSync) (k : Pubkey) (v : PriceAccount) :
    ({ s with
        data := { s.data with priceAccounts := s.data.priceAccounts.insert k v }
        sent := s.sent ++ [.priceAccountUpdate k v] } : Oracle).InSync := by
  have hd : downstream (s.sent ++ [.priceAccountUpdate k v]) =
      ((downstream s.sent).1, (downstream s.sent).2.insert k v) := downstream_append _ _
  unfold Oracle.InSync
  dsimp only
  rw [hd]
  refine ⟨hs.1, fun k' w hk' => ?_⟩
  by_cases hk : k' = k
  · subst hk
    rwa [AList.lookup_insert] at hk' ⊢
  · rw [AList.lookup_insert_ne hk] at hk' ⊢
    exact hs.2 k' w hk'

end InSync

section Static
variable {remote : Remote} {fuel n n' : Nat}

/-- A product fetch that returns has read each of the product's price keys as a price
account. -/
theorem fetchProductAccount_prices {key : Pubkey} {account : ProductAccount}
    (h : fetchProductAccount remote fuel key n = .ok account n') {k : Pubkey}
    (hk : k ∈ account.priceAccounts) : ∃ m a m', fetchPriceAccount remote k m = .ok a m' := by
  obtain ⟨_, _, -, -, hwalk, hkeys⟩ := fetchProductAccount_eq_ok h
  rw [hkeys] at hk
  exact (walkChain_mem _ hwalk k (AList.mem_keys.mp hk)).resolve_left (AList.not_mem_empty k)

/-- Each entry a `for` loop of fetches adds is what the fetch of its key returned. -/
theorem fetchEach_lookup {α : Type} {fetch : Pubkey → RpcM α} {keys : List Pubkey}
    {accounts r : AccountMap α} (h : fetchEach fetch keys accounts n = .ok r n') {k : Pubkey}
    {v : α} (hv : r.lookup k = some v) :
    accounts.lookup k = some v ∨ ∃ m m', fetch k m = .ok v m' := by
  induction keys generalizing accounts n with
  | nil =>
    cases h
    exact .inl hv
  | cons key keys ih =>
    rw [fetchEach, List.foldlM_cons, bind_eq_ok] at h
    obtain ⟨_, _, h₁, h⟩ := h
    obtain ⟨_, _, hfetch, h₁⟩ := bind_eq_ok.mp h₁
    cases h₁
    refine (ih h).elim (fun hv => ?_) .inr
    by_cases hk : k = key
    · subst hk
      rw [AList.lookup_insert, Option.some_inj] at hv
      exact .inr ⟨_, _, hv ▸ hfetch⟩
    · rw [AList.lookup_insert_ne hk] at hv
      exact .inl hv

/-- Each product `fetch_product_accounts` returns is what `fetch_product_account` returned
for its key. -/
theorem fetchProductAccounts_lookup {mappingAccounts : List PythSdk.MappingAccount}
    {r : AccountMap ProductAccount} (h : fetchProductAccounts remote fuel mappingAccounts n = .ok r n')
    {k : Pubkey} {v : ProductAccount} (hv : r.lookup k = some v) :
    ∃ m m', fetchProductAccount remote fuel k m = .ok v m' := by
  suffices (∅ : AccountMap ProductAccount).lookup k = some v ∨
      ∃ m m', fetchProductAccount remote fuel k m = .ok v m' from
    this.resolve_left nofun
  unfold fetchProductAccounts at h
  generalize (∅ : AccountMap ProductAccount) = accounts at h ⊢
  induction mappingAccounts generalizing accounts n with
  | nil =>
    cases h
    exact .inl hv
  | cons _ _ ih =>
    rw [List.foldlM_cons, bind_eq_ok] at h
    obtain ⟨_, _, h₁, h⟩ := h
    obtain ⟨found, _, hfound, h₁⟩ := bind_eq_ok.mp h₁
    cases h₁
    refine (ih _ h).elim (fun hv => ?_) .inr
    rcases Option.or_eq_some.mp ((AccountMap.lookup_extend _ _ k).symm.trans hv) with hk | ⟨-, hv⟩
    · exact .inr ((fetchEach_lookup hfound hk).resolve_left nofun)
    · exact .inl hv

/-- Each price `fetch_price_accounts` returns is what `fetch_price_account` returned for its
key. -/
theorem fetchPriceAccounts_lookup {productAccounts : List ProductAccount}
    {r : AccountMap PriceAccount} (h : fetchPriceAccounts remote productAccounts n = .ok r n')
    {k : Pubkey} {v : PriceAccount} (hv : r.lookup k = some v) :
    ∃ m m', fetchPriceAccount remote k m = .ok v m' := by
  suffices (∅ : AccountMap PriceAccount).lookup k = some v ∨
      ∃ m m', fetchPriceAccount remote k m = .ok v m' from
    this.resolve_left nofun
  unfold fetchPriceAccounts at h
  generalize (∅ : AccountMap PriceAccount) = accounts at h ⊢
  induction productAccounts generalizing accounts n with
  | nil =>
    cases h
    exact .inl hv
  | cons _ _ ih =>
    rw [List.foldlM_cons, bind_eq_ok] at h
    obtain ⟨_, _, hfound, h⟩ := h
    exact (ih _ h).elim (fetchEach_lookup hfound) .inr

/-- A `for` loop of fetches whose every fetch succeeds returns. -/
theorem fetchEach_ok_of_reads {α : Type} {fetch : Pubkey → RpcM α} {keys : List Pubkey}
    (hfetch : ∀ key ∈ keys, ∀ m, ∃ a m', fetch key m = .ok a m') (accounts : AccountMap α)
    (n : Nat) : ∃ r n', fetchEach fetch keys accounts n = .ok r n' := by
  induction keys generalizing accounts n with
  | nil => exact ⟨accounts, n, rfl⟩
  | cons key keys ih =>
    obtain ⟨a, m', ha⟩ := hfetch key (List.mem_cons_self _ _) n
    obtain ⟨r, n', hr⟩ :=
      ih (fun k hk => hfetch k (List.mem_cons_of_mem _ hk)) (accounts.insert key a) m'
    refine ⟨r, n', ?_⟩
    rw [fetchEach, List.foldlM_cons, bind_eq_ok]
    exact ⟨_, m', bind_eq_ok.mpr ⟨a, m', ha, rfl⟩, hr⟩

/-- `fetch_price_accounts` returns when every price read succeeds. -/
theorem fetchPriceAccounts_ok_of_reads {productAccounts : List ProductAccount}
    (hread : ∀ p ∈ productAccounts, ∀ k ∈ p.priceAccounts, ∀ m, ∃ a m',
      fetchPriceAccount remote k m = .ok a m') (n : Nat) :
    ∃ r n', fetchPriceAccounts remote productAccounts n = .ok r n' := by
  unfold fetchPriceAccounts
  generalize (∅ : AccountMap PriceAccount) = accounts
  induction productAccounts generalizing accounts n with
  | nil => exact ⟨accounts, n, rfl⟩
  | cons p ps ih =>
    obtain ⟨found, m, hp⟩ := fetchEach_ok_of_reads (hread p (List.mem_cons_self _ _)) accounts n
    obtain ⟨r, n', hr⟩ := ih (fun q hq => hread q (List.mem_cons_of_mem _ hq)) m found
    exact ⟨r, n', by rw [List.foldlM_cons, bind_eq_ok]; exact ⟨found, m, hp, hr⟩⟩

/-- On a static ledger the price re-read of `poll` succeeds once the products were read. -/
theorem fetchPriceAccounts_static (hstatic : remote.Static)
    {mappingAccounts : List PythSdk.MappingAccount} {r : AccountMap ProductAccount}
    (h : fetchProductAccounts remote fuel mappingAccounts n = .ok r n') (m : Nat) :
    ∃ q m', fetchPriceAccounts remote r.values m = .ok q m' :=
  fetchPriceAccounts_ok_of_reads (fun _ hp _ hk m₀ => by
    obtain ⟨_, hkey⟩ := AccountMap.exists_lookup_of_mem_values hp
    obtain ⟨_, _, hfetch⟩ := fetchProductAccounts_lookup h hkey
    obtain ⟨_, a, _, hprice⟩ := fetchProductAccount_prices hfetch hk
    exact ⟨a, (fetchPriceAccount_countFree hstatic _).ok_of_ok hprice m₀⟩) m

end Static

/-- On a static ledger a successful poll stores the ledger's graph. The mapping accounts are
those of the root chain, which reaches the sentinel, each at its own key. Each product is the
product account the ledger holds at its key, and its price keys are the nodes of its price
chain, which reaches the sentinel. Each price is the price account the ledger holds at its
key. -/
theorem poll_stores_ledger (remote : Remote) (hstatic : remote.Static) (fuel : Nat)
    (s s' : Oracle) (h : poll remote fuel s = .ok () s') :
    (∃ mkeys, Chain (remote.account loadMappingAccount) (·.next) s.config.mappingAccountKey
        mkeys default ∧
      ∀ k, s'.data.mappingAccounts.lookup k =
        if k ∈ mkeys then remote.account loadMappingAccount k else none) ∧
    (∀ k p, s'.data.productAccounts.lookup k = some p →
      remote.account loadProductAccount k = some p.accountData ∧
      ∃ nodes, Chain (remote.account loadPriceAccount) (·.next) p.accountData.pxAcc nodes default ∧
        p.priceAccounts.Perm nodes) ∧
    ∀ k v, s'.data.priceAccounts.lookup k = some v → remote.account loadPriceAccount k = some v := by
  obtain ⟨_, _, _, h₁, h₂, h₃⟩ := poll_ok_data h
  obtain ⟨mkeys, hc, -, -, hlookup⟩ :=
    walkChain_eq_ok_chain (staticRead_fetchLoaded loadMappingAccount hstatic) h₁
  refine ⟨⟨mkeys, hc, fun k => by rw [hlookup]; rfl⟩, fun k p hp => ?_, fun k v hv => ?_⟩
  · obtain ⟨_, _, hfetch⟩ := fetchProductAccounts_lookup h₂ hp
    obtain ⟨nodes, hproduct, hprices, -, -, hperm⟩ := fetchProductAccount_eq_ok_chain hstatic hfetch
    exact ⟨hproduct, nodes, hprices, hperm⟩
  · obtain ⟨_, _, hfetch⟩ := fetchPriceAccounts_lookup h₃ hv
    exact (staticRead_fetchLoaded loadPriceAccount hstatic).eq_some hfetch

/-- `poll_stores_ledger` on the one-product ledger, with one unit of fuel. -/
theorem poll_stores_ledger_one_product :
    ∃ s', poll oneProductRemote 1 (Oracle.new ⟨.ofLastByte 1⟩) = .ok () s' ∧
      (∃ mkeys, Chain (oneProductRemote.account loadMappingAccount) (·.next) (.ofLastByte 1)
          mkeys default ∧
        ∀ k, s'.data.mappingAccounts.lookup k =
          if k ∈ mkeys then oneProductRemote.account loadMappingAccount k else none) ∧
      (∀ k p, s'.data.productAccounts.lookup k = some p →
        oneProductRemote.account loadProductAccount k = some p.accountData ∧
        ∃ nodes, Chain (oneProductRemote.account loadPriceAccount) (·.next) p.accountData.pxAcc
          nodes default ∧ p.priceAccounts.Perm nodes) ∧
      ∀ k v, s'.data.priceAccounts.lookup k = some v →
        oneProductRemote.account loadPriceAccount k = some v :=
  have ⟨s', h, _⟩ := poll_oneProductRemote_ok
  ⟨s', h, poll_stores_ledger oneProductRemote (fun _ _ => rfl) 1 (Oracle.new ⟨.ofLastByte 1⟩) s' h⟩

section Alive
variable {remote : Remote} (halive : ∀ n, remote.storeAlive n = true)
include halive

/-- With a live store every send of a loop is accepted. -/
theorem forM_send_alive {β : Type} (f : β → Update) (message : String) :
    ∀ (l : List β) (s : Oracle),
      (l.forM fun b => send remote (f b) message) s = .ok () { s with sent := s.sent ++ l.map f }
  | [], s => by simp [List.forM]
  | b :: l, s => by
    simp only [List.forM, bind_apply, send_apply, halive, if_true]
    rw [forM_send_alive f message l]
    simp

/-- With a live store `send_all_data_to_global_store` returns `Ok`. -/
theorem sendAllDataToGlobalStore_alive (s : Oracle) :
    sendAllDataToGlobalStore remote s = .ok ()
      { s with sent := s.sent ++
        s.data.productAccounts.entries.map (fun e => .productAccountUpdate e.1 e.2) ++
        s.data.priceAccounts.entries.map (fun e => .priceAccountUpdate e.1 e.2) } := by
  simp only [sendAllDataToGlobalStore, notifyProductAccountUpdate, notifyPriceAccountUpdate,
    bind_apply, get_apply, forM_send_alive halive]

/-- With a live store an account update fails only when its data is not a price account,
and then it leaves the state as it was. -/
theorem handleAccountUpdate_error_alive {accountKey : Pubkey} {account : Account} {e : Error}
    {s s' : Oracle} (h : handleAccountUpdate remote accountKey account s = .error e s') : s' = s := by
  rw [handleAccountUpdate_eq] at h
  split_ifs at h
  · split at h
    · rw [send_apply, if_pos (halive _)] at h
      cases h
    · cases h
      rfl

/-- On a static ledger with a live store, a failed poll leaves `product_accounts`,
`price_accounts` and the messages sent as they were: it has failed in the mapping walk or in a
product fetch, before its second assignment. -/
theorem poll_error_static (hstatic : remote.Static) {fuel : Nat} {e : Error} {s s' : Oracle}
    (h : poll remote fuel s = .error e s') :
    s'.data.productAccounts = s.data.productAccounts ∧
      s'.data.priceAccounts = s.data.priceAccounts ∧ s'.sent = s.sent := by
  rcases poll_error h with ⟨_, -, rfl⟩ | ⟨_, _, -, ⟨_, -, rfl⟩ | ⟨_, n₂, hp, ⟨_, hq, -⟩ | ⟨_, _, -, h⟩⟩⟩
  · exact ⟨rfl, rfl, rfl⟩
  · exact ⟨rfl, rfl, rfl⟩
  · obtain ⟨_, _, hq'⟩ := fetchPriceAccounts_static hstatic hp n₂
    rw [hq'] at hq
    cases hq
  · rw [sendAllDataToGlobalStore_alive halive] at h
    cases h

end Alive

/-- The one-product ledger, with a failed read at call `642`: the price re-read of
`fetch_price_accounts`. The calls before it read the mapping account, the product in its
first slot, the product's price, and the default key once for each of the 639 unused
slots. -/
def priceRereadFailsRemote : Remote where
  getAccountData n key :=
    if n = PythSdk.mapTableSize + 2 then none else oneProductRemote.getAccountData n key
  storeAlive _ := true

set_option maxRecDepth 20000 in
/-- A run of one poll tick from `Oracle::new`, every send accepted, ends with a product in
the graph that the global store never received: `product_accounts` was assigned before the
price re-read failed, and `?` returned before `send_all_data_to_global_store`. -/
theorem run_reaches_unsynced_graph :
    (∀ n, priceRereadFailsRemote.storeAlive n = true) ∧
    ∃ s, run priceRereadFailsRemote [.pollTick 1] (Oracle.new ⟨.ofLastByte 1⟩) = some s ∧
      ¬ s.InSync := by
  refine ⟨fun _ => rfl, _, rfl, fun h => ?_⟩
  have := h.1 (.ofLastByte 2) ⟨⟨.ofLastByte 3⟩, [.ofLastByte 3]⟩ (by decide)
  exact absurd this (by decide)

section Run
variable {remote : Remote}

/-- A successful poll puts the store in sync. -/
theorem poll_inSync {fuel : Nat} {s s' : Oracle} (h : poll remote fuel s = .ok () s') :
    s'.InSync := by
  obtain ⟨_, _, _, _, _, _, -, -, -, hsend⟩ := poll_ok h
  rw [sendAllDataToGlobalStore_ok remote _ s' hsend]
  exact Oracle.inSync_sendAll _

/-- A successful account update keeps the store in sync. -/
theorem handleAccountUpdate_inSync {accountKey : Pubkey} {account : Account} {s s' : Oracle}
    (h : handleAccountUpdate remote accountKey account s = .ok () s') (hs : s.InSync) :
    s'.InSync := by
  rw [handleAccountUpdate_eq] at h
  split_ifs at h
  · split at h
    · rename_i v _
      rw [send_apply] at h
      split_ifs at h
      cases h
      exact hs.insertPrice accountKey v
    · cases h
  · cases h
    exact hs

variable (hstatic : remote.Static) (halive : ∀ n, remote.storeAlive n = true)
include hstatic halive

/-- On a static ledger with a live store each event keeps the store in sync. -/
theorem runStep_inSync {s s' : Oracle} {event : Event} (h : runStep remote s event = some s')
    (hs : s.InSync) : s'.InSync := by
  unfold runStep at h
  split at h
  · rename_i hok
    cases h
    cases event with
    | accountUpdate _ _ => exact handleAccountUpdate_inSync hok hs
    | pollTick _ => exact poll_inSync hok
  · cases h
  · rename_i herr
    cases h
    cases event with
    | accountUpdate _ _ => exact handleAccountUpdate_error_alive halive herr ▸ hs
    | pollTick _ => exact hs.congr (poll_error_static halive hstatic herr)

/-- On a static ledger with a live store every run keeps the store in sync. -/
theorem run_inSync : ∀ {events : List Event} {s s' : Oracle},
    run remote events s = some s' → s.InSync → s'.InSync
  | [], _, _, h, hs => by
    cases h
    exact hs
  | _ :: _, _, _, h, hs => by
    rw [run, List.foldlM_cons] at h
    obtain ⟨_, h₁, h⟩ := Option.bind_eq_some.mp h
    exact run_inSync h (runStep_inSync hstatic halive h₁ hs)

end Run

/-- On a ledger that answers each key the same way at every call, with a live global store,
every run of the oracle task from `Oracle::new`, over any interleaving of poll ticks and
account updates, ends with the global store holding every product and price of the graph. -/
theorem run_new_inSync (remote : Remote) (hstatic : remote.Static)
    (halive : ∀ n, remote.storeAlive n = true) (config : Config) (events : List Event)
    (s' : Oracle) (h : run remote events (Oracle.new config) = some s') : s'.InSync :=
  run_inSync hstatic halive h (Oracle.new_inSync config)

/-- `run_new_inSync` on the one-product ledger, for a poll and then an update of its price. -/
theorem run_new_inSync_one_product :
    ∃ s', run oneProductRemote [.pollTick 1, .accountUpdate (.ofLastByte 3) ⟨.price ⟨default⟩⟩]
        (Oracle.new ⟨.ofLastByte 1⟩) = some s' ∧ s'.InSync := by
  obtain ⟨s₁, hpoll, -⟩ := poll_oneProductRemote_ok
  obtain ⟨s', h⟩ : ∃ s', run oneProductRemote [.pollTick 1, .accountUpdate (.ofLastByte 3)
      ⟨.price ⟨default⟩⟩] (Oracle.new ⟨.ofLastByte 1⟩) = some s' :=
    ⟨_, by rw [run_cons_pollTick hpoll, run, List.foldlM_cons, runStep_accountUpdate]; rfl⟩
  exact ⟨s', h, run_new_inSync oneProductRemote (fun _ _ => rfl) (fun _ => rfl) ⟨.ofLastByte 1⟩
    _ s' h⟩

end PythAgent.Solana
