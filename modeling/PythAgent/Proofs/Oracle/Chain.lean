import PythAgent.Proofs.Oracle.Static

/-!
# `PythAgent.Proofs.Oracle.Chain`: the `next`-chain walks on a static ledger

`fetch_mapping_accounts` (`oracle.rs:175-191`) and the price loop of `fetch_product_account`
(`oracle.rs:257-264`) walk a chain of accounts. Each starts at a key, reads the account
there, and goes on at its `next`. It stops at `Pubkey::default()`. Both are `walkChain`,
and each step's fetch reads one key and decodes it with one loader.

`Chain read next key nodes last` states the chain without the walk. Following `next` from
`key` through the accounts that `read` gives passes `nodes`, none of them the sentinel, and
stands at `last`. A fetch that reads a static ledger is a `StaticRead`: each key costs one
call and gives the same answer every time. The walk then follows the chain:

* `walkChain_follow`: along a chain no longer than its fuel, the walk makes one call per
  node. It then stands at the chain's last key, with the nodes inserted.
* `walkChain_outOfFuel`: along a chain longer than its fuel, it runs out of fuel.
* `walkChain_ok_chain`, `walkChain_returns_chain`: a walk that returns `Ok` has followed a
  chain to the sentinel. A walk that returns at all has followed a chain to the sentinel or
  to a key whose read fails.
* `walkChain_congr_chain`: on a chain to the sentinel, the walk's `i`-th call reads the
  `i`-th node, and nothing else.
* `walkChain_eq_ok_chain`, `walkChain_outOfFuel_iff`: the spec lemmas that later modules
  cite. A walk that returns `Ok` returns the nodes' accounts, after one call per node. A walk
  runs out of fuel exactly when its chain passes as many nodes as it has fuel.

From these, `walkChain_followsChain` gives `FollowsChain`: everything one walk does, stated
over its chain. A chain that comes back to a key can be followed round again (`Chain.cycle`).
So a walk on such a chain runs out of every fuel, and a chain to the sentinel has distinct
nodes (`Chain.nodup`).
-/

set_option autoImplicit false

namespace PythAgent.Solana

open PythSdk (MappingAccount PriceAccount AccountData loadMappingAccount loadProductAccount
  loadPriceAccount)

/-- Following `next` from `key` through the accounts that `read` gives passes `nodes`, none of
them `Pubkey::default()`, and stands at `last`. -/
inductive Chain {α : Type} (read : Pubkey → Option α) (next : α → Pubkey) :
    Pubkey → List Pubkey → Pubkey → Prop
  | nil (key : Pubkey) : Chain read next key [] key
  | cons {key : Pubkey} {account : α} {nodes : List Pubkey} {last : Pubkey} :
      key ≠ default → read key = some account → Chain read next (next account) nodes last →
      Chain read next key (key :: nodes) last

/-- The account of one layout that the ledger holds at `key`, as the first call reads it. On
a static ledger every call reads the same. -/
def Remote.account {α : Type} (remote : Remote) (loadAccount : AccountData → Option α)
    (key : Pubkey) : Option α :=
  (remote.getAccountData 0 key).bind loadAccount

/-- On a static ledger what any call reads at `key` is the ledger's account there. -/
theorem Remote.account_eq_some {α : Type} {remote : Remote} (hstatic : remote.Static)
    {loadAccount : AccountData → Option α} {key : Pubkey} {n : Nat} {data : AccountData} {a : α}
    (hdata : remote.getAccountData n key = some data) (hload : loadAccount data = some a) :
    remote.account loadAccount key = some a := by
  rw [Remote.account, ← hstatic n, hdata]
  exact hload

namespace Chain
variable {α : Type} {read : Pubkey → Option α} {next : α → Pubkey}

theorem append {key mid last : Pubkey} {l₁ l₂ : List Pubkey} (h₁ : Chain read next key l₁ mid)
    (h₂ : Chain read next mid l₂ last) : Chain read next key (l₁ ++ l₂) last := by
  induction h₁ with
  | nil => exact h₂
  | cons hkey hread _ ih => exact .cons hkey hread (ih h₂)

/-- A chain cut after its first nodes: the part before the cut and the part after. -/
theorem split {key last : Pubkey} (l₁ : List Pubkey) {l₂ : List Pubkey}
    (h : Chain read next key (l₁ ++ l₂) last) :
    ∃ mid, Chain read next key l₁ mid ∧ Chain read next mid l₂ last := by
  induction l₁ generalizing key with
  | nil => exact ⟨key, .nil key, h⟩
  | cons x l₁ ih =>
    cases h with
    | cons hkey hread h =>
      obtain ⟨mid, h₁, h₂⟩ := ih h
      exact ⟨mid, .cons hkey hread h₁, h₂⟩

theorem head_eq {key x last : Pubkey} {nodes : List Pubkey}
    (h : Chain read next key (x :: nodes) last) : key = x := by
  cases h
  rfl

/-- A chain that comes back to its start can be followed round as often as wanted. -/
theorem pump {key : Pubkey} {loop : List Pubkey} (h : Chain read next key loop key)
    (hloop : loop ≠ []) (m : Nat) : ∃ l, Chain read next key l key ∧ m ≤ l.length := by
  induction m with
  | zero => exact ⟨[], .nil key, le_rfl⟩
  | succ m ih =>
    obtain ⟨l, hl, hm⟩ := ih
    have := List.length_pos.mpr hloop
    exact ⟨loop ++ l, h.append hl, by rw [List.length_append]; omega⟩

/-- A chain whose last key is one of its nodes has come back to that key, so there are chains
from the same start to the same key as long as wanted. -/
theorem cycle {key last : Pubkey} {nodes : List Pubkey} (h : Chain read next key nodes last)
    (hmem : last ∈ nodes) (m : Nat) : ∃ l, Chain read next key l last ∧ m ≤ l.length := by
  obtain ⟨pre, post, rfl⟩ := List.append_of_mem hmem
  obtain ⟨mid, hpre, hloop⟩ := h.split pre
  obtain rfl := hloop.head_eq
  obtain ⟨l, hl, hm⟩ := hloop.pump (List.cons_ne_nil _ _) m
  exact ⟨pre ++ l, hpre.append hl, by rw [List.length_append]; omega⟩

/-- Each node of a chain holds an account. -/
theorem isSome_read {key last k : Pubkey} {nodes : List Pubkey}
    (h : Chain read next key nodes last) (hk : k ∈ nodes) : (read k).isSome := by
  induction h with
  | nil => cases hk
  | cons _ hread _ ih =>
    rcases List.mem_cons.mp hk with rfl | hk
    · rw [hread]
      rfl
    · exact ih hk

/-- Chains from one key are prefixes of the chain from it to the sentinel: `read` is a
function, so the next key is fixed at each step. -/
theorem prefix_of_sentinel {key last : Pubkey} {nodes nodes' : List Pubkey}
    (h : Chain read next key nodes default) (h' : Chain read next key nodes' last) :
    nodes' <+: nodes := by
  generalize hd : (default : Pubkey) = d at h
  induction h generalizing nodes' with
  | nil key =>
    cases h' with
    | nil => exact List.prefix_refl _
    | cons hkey _ _ => exact absurd hd.symm hkey
  | cons _ hread _ ih =>
    cases h' with
    | nil => exact List.nil_prefix
    | cons _ hread' h' =>
      obtain rfl := Option.some.inj (hread'.symm.trans hread)
      exact (List.prefix_cons_inj _).mpr (ih h' hd)

/-- The nodes of a chain to the sentinel are distinct: a node met twice would start a cycle,
and the cycle would give chains from the start longer than the chain to the sentinel. -/
theorem nodup {key : Pubkey} {nodes : List Pubkey} (h : Chain read next key nodes default) :
    nodes.Nodup := by
  induction nodes generalizing key with
  | nil => exact List.nodup_nil
  | cons x nodes ih =>
    cases h with
    | cons hkey hread hc =>
      refine List.nodup_cons.mpr ⟨fun hmem => ?_, ih hc⟩
      obtain ⟨pre, post, rfl⟩ := List.append_of_mem hmem
      have h := Chain.cons hkey hread hc
      obtain ⟨mid, hloop, hrest⟩ := h.split (x :: pre)
      obtain rfl := hrest.head_eq
      obtain ⟨l, hl, hm⟩ := hloop.cycle (List.mem_cons_self _ _) (pre.length + post.length + 3)
      have := (h.prefix_of_sentinel hl).length_le
      simp only [List.length_cons, List.length_append] at this
      omega

end Chain

/-- `fetch` reads a key in one call. It returns the account `read` gives there, or an error
other than `outOfFuel` where `read` gives none. -/
structure StaticRead {α : Type} (fetch : Pubkey → RpcM α) (read : Pubkey → Option α) : Prop where
  ok : ∀ {key : Pubkey} {account : α} (n : Nat), read key = some account →
    fetch key n = .ok account (n + 1)
  error : ∀ {key : Pubkey} (n : Nat), read key = none →
    ∃ e, e ≠ .outOfFuel ∧ fetch key n = .error e (n + 1)

theorem StaticRead.eq_some {α : Type} {fetch : Pubkey → RpcM α} {read : Pubkey → Option α}
    (hf : StaticRead fetch read) {key : Pubkey} {account : α} {n n' : Nat}
    (h : fetch key n = .ok account n') : read key = some account := by
  cases hr : read key with
  | none =>
    obtain ⟨_, -, he⟩ := hf.error n hr
    rw [he] at h
    cases h
  | some a =>
    rw [hf.ok n hr] at h
    cases h
    rfl

section Fetch
variable {α : Type} (loadAccount : AccountData → Option α)

/-- The read of `fetch_mapping_accounts` and of `fetch_price_account`: one call, then one
loader. -/
theorem fetchLoaded_apply (remote : Remote) (key : Pubkey) (n : Nat) :
    (do load (loadAccount (← getAccountData remote key)) : RpcM α) n =
      match remote.getAccountData n key with
      | some data => (load (loadAccount data) : RpcM α) (n + 1)
      | none => .error .clientError (n + 1) := by
  rw [bind_apply]
  unfold getAccountData
  cases remote.getAccountData n key <;> rfl

/-- On a static ledger the read is a `StaticRead` of the account the ledger holds. -/
theorem staticRead_fetchLoaded {remote : Remote} (hstatic : remote.Static) :
    StaticRead (fun key => do load (loadAccount (← getAccountData remote key)))
      (remote.account loadAccount) where
  ok n h := by
    obtain ⟨data, hdata, hload⟩ := Option.bind_eq_some.mp h
    rw [fetchLoaded_apply, hstatic n, hdata]
    exact (load_eq_ok.mpr ⟨hload, rfl⟩)
  error {key} n h := by
    rw [fetchLoaded_apply, hstatic n]
    cases hdata : remote.getAccountData 0 key with
    | none => exact ⟨.clientError, nofun, rfl⟩
    | some data =>
      rw [Remote.account, hdata, Option.some_bind] at h
      exact ⟨.pythError, nofun, by simp only [h, load_none]⟩

/-- The read looks at one answer of the ledger: the one to its call, at its key. -/
theorem fetchLoaded_congr {remote remote' : Remote} {key : Pubkey} {n : Nat}
    (h : remote'.getAccountData n key = remote.getAccountData n key) :
    (do load (loadAccount (← getAccountData remote' key)) : RpcM α) n =
      (do load (loadAccount (← getAccountData remote key)) : RpcM α) n := by
  rw [fetchLoaded_apply, fetchLoaded_apply, h]

/-- The read fails only with its own errors, never with `outOfFuel`. -/
theorem fetchLoaded_ne_outOfFuel (remote : Remote) (key : Pubkey) (n n' : Nat) :
    (do load (loadAccount (← getAccountData remote key)) : RpcM α) n ≠ .error .outOfFuel n' := by
  rw [fetchLoaded_apply]
  cases remote.getAccountData n key with
  | none => nofun
  | some data =>
    dsimp only
    cases loadAccount data <;> nofun

end Fetch

section Walk
variable {α : Type} {fetch : Pubkey → RpcM α} {next : α → Pubkey} {key : Pubkey}
  {accounts : AccountMap α} {read : Pubkey → Option α} (hf : StaticRead fetch read)
include hf

/-- Along a chain no longer than its fuel, the walk makes one call per node and goes on from
the chain's last key, with the nodes inserted. -/
theorem walkChain_follow {last : Pubkey} {nodes : List Pubkey}
    (h : Chain read next key nodes last) :
    ∀ fuel accounts n, nodes.length ≤ fuel → ∃ accounts' : AccountMap α,
      walkChain fetch next fuel key accounts n =
        walkChain fetch next (fuel - nodes.length) last accounts' (n + nodes.length) ∧
      ∀ k, accounts'.lookup k = if k ∈ nodes then read k else accounts.lookup k := by
  induction h with
  | nil => exact fun _ accounts _ _ => ⟨accounts, rfl, by simp⟩
  | @cons key account nodes _ hkey hread _ ih =>
    rintro (_ | fuel) accounts n hlen
    · simp at hlen
    · obtain ⟨accounts', hwalk, hlookup⟩ := ih fuel (accounts.insert key account) (n + 1)
        (by simpa using hlen)
      refine ⟨accounts', ?_, fun k => ?_⟩
      · rw [walkChain_succ_of_ne hkey, bind_apply, hf.ok n hread]
        dsimp only
        rw [hwalk, List.length_cons, Nat.add_sub_add_right, Nat.add_comm nodes.length,
          ← Nat.add_assoc]
      · rw [hlookup]
        by_cases hk : k = key
        · subst hk
          simp [hread]
        · simp [hk, AList.lookup_insert_ne hk]

/-- Along a chain longer than its fuel, the walk runs out of fuel. -/
theorem walkChain_outOfFuel {last : Pubkey} {nodes : List Pubkey}
    (h : Chain read next key nodes last) :
    ∀ fuel accounts n, fuel < nodes.length →
      outcome (walkChain fetch next fuel key accounts n) = .error .outOfFuel := by
  induction h with
  | nil => exact fun _ _ _ hlen => absurd hlen (Nat.not_lt_zero _)
  | cons hkey hread _ ih =>
    rintro (_ | fuel) accounts n hlen
    · rw [walkChain_zero_of_ne hkey]
      rfl
    · rw [walkChain_succ_of_ne hkey, bind_apply, hf.ok n hread]
      exact ih fuel _ _ (by simpa using hlen)

/-- A walk that returns `Ok` has followed a chain to the sentinel. -/
theorem walkChain_ok_chain (fuel : Nat) :
    ∀ {key : Pubkey} {accounts r : AccountMap α} {n n' : Nat},
      walkChain fetch next fuel key accounts n = .ok r n' →
        ∃ nodes, Chain read next key nodes default := by
  induction fuel with
  | zero =>
    intro key accounts r n n' h
    rcases walkChain_eq_ok h with ⟨rfl, -⟩ | ⟨_, _, _, ⟨⟩, -⟩
    exact ⟨[], .nil _⟩
  | succ fuel ih =>
    intro key accounts r n n' h
    rcases walkChain_eq_ok h with ⟨rfl, -⟩ | ⟨_, _, _, ⟨⟩, hkey, hfetch, h⟩
    · exact ⟨[], .nil _⟩
    · obtain ⟨nodes, hc⟩ := ih h
      exact ⟨_, .cons hkey (hf.eq_some hfetch) hc⟩

/-- A walk that returns at all has followed a chain to the sentinel or to a key whose read
fails. -/
theorem walkChain_returns_chain (fuel : Nat) :
    ∀ {key : Pubkey} {accounts : AccountMap α} {n : Nat},
      outcome (walkChain fetch next fuel key accounts n) ≠ .error .outOfFuel →
        ∃ nodes last, Chain read next key nodes last ∧ (last = default ∨ read last = none) := by
  induction fuel with
  | zero =>
    intro key accounts n h
    by_cases hkey : key = default
    · exact ⟨[], key, .nil key, .inl hkey⟩
    · rw [walkChain_zero_of_ne hkey] at h
      exact absurd rfl h
  | succ fuel ih =>
    intro key accounts n h
    by_cases hkey : key = default
    · exact ⟨[], key, .nil key, .inl hkey⟩
    cases hr : read key with
    | none => exact ⟨[], key, .nil key, .inr hr⟩
    | some a =>
      rw [walkChain_succ_of_ne hkey, bind_apply, hf.ok n hr] at h
      obtain ⟨nodes, last, hc, hlast⟩ := ih h
      exact ⟨_, last, .cons hkey hr hc, hlast⟩

/-- On a chain to the sentinel the walk's `i`-th call reads the `i`-th node and nothing else:
a fetch that answers those calls alike gives the same walk. -/
theorem walkChain_congr_chain {fetch' : Pubkey → RpcM α} {nodes : List Pubkey}
    (h : Chain read next key nodes default) :
    ∀ fuel accounts n, (∀ i (hi : i < nodes.length), fetch' nodes[i] (n + i) = fetch nodes[i] (n + i)) →
      walkChain fetch' next fuel key accounts n = walkChain fetch next fuel key accounts n := by
  generalize hd : (default : Pubkey) = d at h
  induction h with
  | nil => exact fun fuel _ _ _ => by rw [← hd, walkChain_default, walkChain_default]
  | @cons key _ nodes _ hkey hread _ ih =>
    rintro (_ | fuel) accounts n hagree
    · rw [walkChain_zero_of_ne hkey, walkChain_zero_of_ne hkey]
    · have h0 : fetch' key n = fetch key n := hagree 0 (Nat.succ_pos _)
      rw [walkChain_succ_of_ne hkey, walkChain_succ_of_ne hkey, bind_apply, bind_apply, h0,
        hf.ok n hread]
      refine ih hd fuel _ (n + 1) fun i hi => ?_
      rw [Nat.add_right_comm]
      exact hagree (i + 1) (Nat.succ_lt_succ hi)

/-- A walk that returns `Ok` has followed a chain to the sentinel within its fuel, with one
call per node, and returns the nodes' accounts. -/
theorem walkChain_eq_ok_chain {fuel n n' : Nat} {r : AccountMap α}
    (h : walkChain fetch next fuel key accounts n = .ok r n') :
    ∃ nodes, Chain read next key nodes default ∧ nodes.length ≤ fuel ∧ n' = n + nodes.length ∧
      ∀ k, r.lookup k = if k ∈ nodes then read k else accounts.lookup k := by
  obtain ⟨nodes, hc⟩ := walkChain_ok_chain hf fuel h
  have hlen : nodes.length ≤ fuel := by
    refine Nat.le_of_not_lt fun hlt => ?_
    have hout := walkChain_outOfFuel hf hc fuel accounts n hlt
    rw [h] at hout
    cases hout
  obtain ⟨accounts', hwalk, hlookup⟩ := walkChain_follow hf hc fuel accounts n hlen
  rw [walkChain_default, pure_apply, h] at hwalk
  cases hwalk
  exact ⟨nodes, hc, hlen, rfl, hlookup⟩

/-- A walk runs out of fuel exactly when following `next` passes as many nodes as it has fuel
and then stands at a key that is not the sentinel. -/
theorem walkChain_outOfFuel_iff (fuel : Nat) :
    ∀ {key : Pubkey} {accounts : AccountMap α} {n : Nat},
      outcome (walkChain fetch next fuel key accounts n) = .error .outOfFuel ↔
        ∃ nodes last, Chain read next key nodes last ∧ nodes.length = fuel ∧ last ≠ default := by
  intro key accounts n
  refine ⟨fun h => ?_, fun ⟨nodes, last, hc, hlen, hlast⟩ => ?_⟩
  · induction fuel generalizing key accounts n with
    | zero =>
      by_cases hkey : key = default
      · rw [hkey, walkChain_default] at h
        cases h
      · exact ⟨[], key, .nil key, rfl, hkey⟩
    | succ fuel ih =>
      by_cases hkey : key = default
      · rw [hkey, walkChain_default] at h
        cases h
      cases hr : read key with
      | none =>
        obtain ⟨e, he, hfetch⟩ := hf.error n hr
        rw [walkChain_succ_of_ne hkey, bind_apply, hfetch] at h
        exact absurd (Except.error.inj h) he
      | some a =>
        rw [walkChain_succ_of_ne hkey, bind_apply, hf.ok n hr] at h
        obtain ⟨nodes, last, hc, hlen, hlast⟩ := ih h
        exact ⟨_, last, .cons hkey hr hc, by rw [List.length_cons, hlen], hlast⟩
  · obtain ⟨accounts', hwalk, -⟩ := walkChain_follow hf hc fuel accounts n hlen.le
    rw [hwalk, hlen, Nat.sub_self, walkChain_zero_of_ne hlast]
    rfl

end Walk

/-- A map that holds the reads at the nodes of a chain to the sentinel, and nothing else, has
the nodes as its keys. -/
theorem keys_perm_of_chain {α : Type} {read : Pubkey → Option α} {next : α → Pubkey}
    {key : Pubkey} {nodes : List Pubkey} {r : AccountMap α} (hc : Chain read next key nodes default)
    (h : ∀ k, r.lookup k = if k ∈ nodes then read k else (∅ : AccountMap α).lookup k) :
    r.keys.Perm nodes := by
  refine (List.perm_ext_iff_of_nodup r.keys_nodup hc.nodup).mpr fun k => ?_
  show k ∈ r ↔ _
  rw [← AList.lookup_isSome, h]
  split_ifs with hk
  · exact iff_of_true (hc.isSome_read hk) hk
  · simp [hk]

/-- A product fetch that returns `Ok` on a static ledger has read the product account the
ledger holds at its key and walked its price chain to the sentinel, one call per price. -/
theorem fetchProductAccount_eq_ok_chain {remote : Remote} (hstatic : remote.Static) {fuel : Nat}
    {key : Pubkey} {n n' : Nat} {account : ProductAccount}
    (h : fetchProductAccount remote fuel key n = .ok account n') :
    ∃ nodes, remote.account loadProductAccount key = some account.accountData ∧
      Chain (remote.account loadPriceAccount) (·.next) account.accountData.pxAcc nodes default ∧
      nodes.length ≤ fuel ∧ n' = n + 1 + nodes.length ∧ account.priceAccounts.Perm nodes := by
  obtain ⟨data, prices, hdata, hproduct, hwalk, hkeys⟩ := fetchProductAccount_eq_ok h
  obtain ⟨nodes, hc, hlen, rfl, hlookup⟩ :=
    walkChain_eq_ok_chain (staticRead_fetchLoaded loadPriceAccount hstatic) hwalk
  exact ⟨nodes, Remote.account_eq_some hstatic hdata hproduct, hc, hlen, rfl,
    hkeys ▸ keys_perm_of_chain hc hlookup⟩

/-- Everything the `next`-chain walk `walk` from `start` does on the ledger `remote`, stated
over its chain, where `read` gives the account of the walk's layout at each key. -/
structure FollowsChain {α : Type} (walk : Remote → Nat → RpcM (AccountMap α)) (remote : Remote)
    (read : Pubkey → Option α) (next : α → Pubkey) (start : Pubkey) : Prop where
  /-- The walk returns `Ok` exactly when following `next` from `start` reaches the sentinel. -/
  ok_iff : ∀ calls, (∃ fuel accounts calls', walk remote fuel calls = .ok accounts calls') ↔
    ∃ nodes, Chain read next start nodes default
  /-- The walk returns at all exactly when following `next` reaches the sentinel or a key
  whose read fails. -/
  returns_iff : ∀ calls, (∃ fuel, outcome (walk remote fuel calls) ≠ .error .outOfFuel) ↔
    ∃ nodes last, Chain read next start nodes last ∧ (last = default ∨ read last = none)
  /-- On a chain to the sentinel the nodes are distinct. With fuel for them the walk makes
  one call per node, the `i`-th call at the `i`-th node and at no other key: a ledger that
  answers those calls alike gives the same walk. It returns the nodes as its keys. -/
  reads_chain : ∀ nodes, Chain read next start nodes default → nodes.Nodup ∧
    ∀ fuel calls, nodes.length ≤ fuel → ∃ accounts : AccountMap α,
      walk remote fuel calls = .ok accounts (calls + nodes.length) ∧ accounts.keys.Perm nodes ∧
      ∀ remote' : Remote, (∀ i (hi : i < nodes.length),
          remote'.getAccountData (calls + i) nodes[i] = remote.getAccountData (calls + i) nodes[i]) →
        walk remote' fuel calls = walk remote fuel calls
  /-- On a chain that comes back to one of its nodes the walk runs out of every fuel. -/
  diverges : ∀ nodes last, Chain read next start nodes last → last ∈ nodes →
    ∀ fuel calls, outcome (walk remote fuel calls) = .error .outOfFuel

/-- A walk whose step reads one key with one loader follows its chain on a static ledger. -/
theorem walkChain_followsChain {α : Type} (loadAccount : AccountData → Option α)
    (next : α → Pubkey) {remote : Remote} (hstatic : remote.Static) (start : Pubkey) :
    FollowsChain (fun r fuel =>
        walkChain (fun key => do load (loadAccount (← getAccountData r key))) next fuel start ∅)
      remote (remote.account loadAccount) next start := by
  have hf := staticRead_fetchLoaded loadAccount hstatic
  refine ⟨fun calls => ⟨fun ⟨fuel, _, _, h⟩ => walkChain_ok_chain hf fuel h, ?_⟩,
    fun calls => ⟨fun ⟨fuel, h⟩ => walkChain_returns_chain hf fuel h, ?_⟩,
    fun nodes hc => ⟨hc.nodup, fun fuel calls hlen => ?_⟩,
    fun nodes last hc hmem fuel calls => ?_⟩
  · rintro ⟨nodes, hc⟩
    obtain ⟨accounts, hwalk, -⟩ := walkChain_follow hf hc nodes.length ∅ calls le_rfl
    rw [Nat.sub_self, walkChain_default] at hwalk
    exact ⟨_, _, _, hwalk⟩
  · rintro ⟨nodes, last, hc, hlast⟩
    refine ⟨nodes.length + 1, ?_⟩
    obtain ⟨accounts, hwalk, -⟩ := walkChain_follow hf hc _ ∅ calls (Nat.le_add_right _ 1)
    rw [hwalk, Nat.add_sub_cancel_left]
    by_cases hkey : last = default
    · rw [hkey, walkChain_default]
      nofun
    · obtain ⟨e, he, hfetch⟩ := hf.error (calls + nodes.length) (hlast.resolve_left hkey)
      rw [walkChain_succ_of_ne hkey, bind_apply, hfetch]
      exact fun h => he (Except.error.inj h)
  · obtain ⟨accounts, hwalk, hmem⟩ := walkChain_follow hf hc fuel ∅ calls hlen
    rw [walkChain_default] at hwalk
    refine ⟨accounts, hwalk, keys_perm_of_chain hc hmem, fun remote' hagree => ?_⟩
    exact walkChain_congr_chain hf hc fuel ∅ calls fun i hi =>
      fetchLoaded_congr loadAccount (hagree i hi)
  · obtain ⟨l, hl, hlen⟩ := hc.cycle hmem (fuel + 1)
    exact walkChain_outOfFuel hf hl fuel ∅ calls hlen

/-- On every static ledger, from every root key and every `px_acc`, the walk of
`fetch_mapping_accounts` and the price walk of `fetch_product_account` follow their `next`
chains. Each returns `Ok` exactly when its chain reaches the sentinel. Each returns at all
exactly when its chain reaches the sentinel or a key whose read fails. On a chain to the
sentinel each reads every node once, in order, and returns the nodes as keys. On a chain
that comes back to a key neither ever returns. -/
theorem chainWalks_followChain (remote : Remote) (hstatic : remote.Static)
    (mappingAccountKey pxAcc : Pubkey) :
    FollowsChain (fun r fuel => fetchMappingAccounts r fuel mappingAccountKey) remote
        (remote.account loadMappingAccount) (·.next) mappingAccountKey ∧
      FollowsChain (fun r fuel => walkChain (fetchPriceAccount r) (·.next) fuel pxAcc ∅) remote
        (remote.account loadPriceAccount) (·.next) pxAcc :=
  ⟨walkChain_followsChain loadMappingAccount _ hstatic mappingAccountKey,
    walkChain_followsChain loadPriceAccount _ hstatic pxAcc⟩

/-- `chainWalks_followChain` on the one-product ledger, from its mapping key `1` and from
its product's `px_acc`, the price key `3`. -/
theorem chainWalks_followChain_one_product :
    oneProductRemote.Static ∧
      FollowsChain (fun r fuel => fetchMappingAccounts r fuel (.ofLastByte 1)) oneProductRemote
        (oneProductRemote.account loadMappingAccount) (·.next) (.ofLastByte 1) ∧
      FollowsChain (fun r fuel => walkChain (fetchPriceAccount r) (·.next) fuel (.ofLastByte 3) ∅)
        oneProductRemote (oneProductRemote.account loadPriceAccount) (·.next) (.ofLastByte 3) :=
  ⟨fun _ _ => rfl,
    chainWalks_followChain oneProductRemote (fun _ _ => rfl) (.ofLastByte 1) (.ofLastByte 3)⟩

/-- A ledger whose mapping chain goes from key `1` on to key `2`, whose data is not a mapping
account. -/
def brokenChainRemote : Remote where
  getAccountData _ key :=
    if key = .ofLastByte 1 then some (.mapping (.ofUsed (.ofLastByte 2) []))
    else if key = .ofLastByte 2 then some .other
    else none
  storeAlive _ := true

/-- On a static ledger the walk of `fetch_mapping_accounts` returns, with the error of its
second read, although following `next` from the root key never reaches the sentinel. -/
theorem fetchMappingAccounts_returns_off_chain :
    brokenChainRemote.Static ∧
      outcome (fetchMappingAccounts brokenChainRemote 2 (.ofLastByte 1) 0) = .error .pythError ∧
      ¬ ∃ nodes, Chain (brokenChainRemote.account loadMappingAccount) (·.next) (.ofLastByte 1)
        nodes default := by
  refine ⟨fun _ _ => rfl, rfl, ?_⟩
  rintro ⟨nodes, h⟩
  generalize hd : (default : Pubkey) = d at h
  cases h with
  | nil => exact absurd hd (by decide)
  | cons _ hread h =>
    obtain rfl : _ = MappingAccount.ofUsed (.ofLastByte 2) [] :=
      Option.some.inj (hread.symm.trans rfl)
    cases h with
    | nil => exact absurd hd (by decide)
    | cons _ hread _ => cases hread

end PythAgent.Solana
