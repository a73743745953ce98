import PythAgent.Solana.Account

/-!
# `PythAgent.Solana.Oracle`: the model of `agent/solana/oracle.rs`

The oracle task owns `Data`, three maps from account keys to decoded accounts. It handles
one event at a time (`Oracle::handle_next`): a poll tick rebuilds the maps from the RPC
node (`poll`), and an account update from the subscriber replaces one known price account
(`handle_account_update`). Both forward what they store to the global store over
`global_store_tx`.

The async world is `Remote`. The RPC node answers the `n`-th `get_account_data` call of the
task with `getAccountData n`, so one key may read differently from call to call, and any
call may fail. The global store's receiver is alive for the `n`-th message sent when
`storeAlive n` holds. `global_store_tx` is a bounded `mpsc` channel, and
`global_store_tx.send(update).await` waits while it is full. The global store drains it in
a task outside this repository, and the model takes that it does: `send` hands the message
over at once. So no result here about the oracle task getting on covers a store that stops
reading its channel.

Rust's `&mut self` with `?` keeps every assignment made before an error. `EStateM` keeps its
state on an error in the same way, so `poll` is written as the source is: three
assignments, each after its own fetch. The fetch functions take `&self`; they run in `RpcM`,
whose state is only the count of RPC calls, and `Oracle.rpc` lifts them.

The two `while` walks of the source run until they meet `Pubkey::default()` and loop for
ever on a cycle. `walkChain` models both with fuel. Running out of fuel is the error
`outOfFuel`: the walk has not returned. `runStep` drops such an event, since the task would
still be inside it.

`HashMap` is `AList`. Rust leaves the iteration order of a `HashMap` unspecified; the model
iterates in the order of the entries.
-/

set_option autoImplicit false

namespace PythAgent.Solana

open PythSdk (MappingAccount PriceAccount AccountData loadMappingAccount loadProductAccount
  loadPriceAccount)

/-- A `HashMap<Pubkey, V>`. -/
abbrev AccountMap (V : Type) := AList (fun _ : Pubkey => V)

/-- `HashMap::values`. -/
def AccountMap.values {V : Type} (m : AccountMap V) : List V := m.entries.map (·.2)

/-- `HashMap::extend`: each entry of `other`, in order, overwrites the entry at its key. -/
def AccountMap.extend {V : Type} (m other : AccountMap V) : AccountMap V :=
  other.entries.foldl (fun acc e => acc.insert e.1 e.2) m

/-- `oracle::ProductAccount`: a product account and the keys of its price chain. -/
structure ProductAccount where
  accountData : PythSdk.ProductAccount
  priceAccounts : List Pubkey
deriving DecidableEq

/-- `oracle::Data`. -/
structure Data where
  mappingAccounts : AccountMap MappingAccount
  productAccounts : AccountMap ProductAccount
  priceAccounts : AccountMap PriceAccount

/-- `Data::default()`: three empty maps. -/
instance : Inhabited Data := ⟨⟨∅, ∅, ∅⟩⟩

/-- `oracle::Config`, the field the handlers read. -/
structure Config where
  mappingAccountKey : Pubkey

/-- `global::Update`, a message to the global store. -/
inductive Update where
  | productAccountUpdate (accountKey : Pubkey) (account : ProductAccount)
  | priceAccountUpdate (accountKey : Pubkey) (account : PriceAccount)
deriving DecidableEq

/-- The errors of the handlers. -/
inductive Error where
  /-- `get_account_data` failed. -/
  | clientError
  /-- A `load_*` function rejected the account data. -/
  | pythError
  /-- `global_store_tx.send` failed, with the text of its `anyhow!`. -/
  | notify (message : String)
  /-- A `while` walk has not met `Pubkey::default()` within its fuel. -/
  | outOfFuel
deriving DecidableEq

/-- The answers of the outside world, indexed by the number of earlier calls. -/
structure Remote where
  getAccountData : Nat → Pubkey → Option AccountData
  storeAlive : Nat → Bool

/-- The oracle task: the fields of `Oracle` that the handlers use, with the count of RPC
calls made and every message handed to `global_store_tx.send`, oldest first. -/
structure Oracle where
  config : Config
  data : Data
  rpcCalls : Nat
  sent : List Update

/-- `Oracle::new`: empty data, nothing called or sent yet. -/
def Oracle.new (config : Config) : Oracle := ⟨config, default, 0, []⟩

/-- Code that reads through `rpc_client` and nothing else. -/
abbrev RpcM := EStateM Error Nat

/-- Code that may change the oracle. -/
abbrev OracleM := EStateM Error Oracle

/-- Run `RpcM` code inside a handler. -/
def Oracle.rpc {α : Type} (m : RpcM α) : OracleM α := fun s =>
  match m s.rpcCalls with
  | .ok a calls => .ok a { s with rpcCalls := calls }
  | .error e calls => .error e { s with rpcCalls := calls }

/-- `self.rpc_client.get_account_data(key).await?`. -/
def getAccountData (remote : Remote) (key : Pubkey) : RpcM AccountData := fun calls =>
  match remote.getAccountData calls key with
  | some data => .ok data (calls + 1)
  | none => .error .clientError (calls + 1)

/-- `*load_*(...)?`. -/
def load {σ α : Type} : Option α → EStateM Error σ α
  | some account => pure account
  | none => throw .pythError

/-- `Oracle::fetch_price_account`. -/
def fetchPriceAccount (remote : Remote) (priceAccountKey : Pubkey) : RpcM PriceAccount := do
  load (loadPriceAccount (← getAccountData remote priceAccountKey))

/-- The mapping-account read of `fetch_mapping_accounts`. -/
def fetchMappingAccount (remote : Remote) (accountKey : Pubkey) : RpcM MappingAccount := do
  load (loadMappingAccount (← getAccountData remote accountKey))

/-- The `while account_key != Pubkey::default()` walks of `fetch_mapping_accounts` and
`fetch_product_account`: fetch the account at `key`, insert it, go on at its `next`. -/
def walkChain {α : Type} (fetch : Pubkey → RpcM α) (next : α → Pubkey) :
    Nat → Pubkey → AccountMap α → RpcM (AccountMap α)
  | fuel, key, accounts =>
    if key = default then pure accounts
    else match fuel with
      | 0 => throw .outOfFuel
      | fuel + 1 => do
        let account ← fetch key
        walkChain fetch next fuel (next account) (accounts.insert key account)

/-- The `for account_key in keys` loops of `fetch_product_accounts_from_mapping_account` and
`fetch_price_accounts`: fetch the account at each key and insert it. -/
def fetchEach {α : Type} (fetch : Pubkey → RpcM α) (keys : List Pubkey) (accounts : AccountMap α) :
    RpcM (AccountMap α) :=
  keys.foldlM (fun accounts key => do pure (accounts.insert key (← fetch key))) accounts

/-- `Oracle::fetch_mapping_accounts`. -/
def fetchMappingAccounts (remote : Remote) (fuel : Nat) (mappingAccountKey : Pubkey) :
    RpcM (AccountMap MappingAccount) :=
  walkChain (fetchMappingAccount remote) (·.next) fuel mappingAccountKey ∅

/-- `Oracle::fetch_product_account`. -/
def fetchProductAccount (remote : Remote) (fuel : Nat) (productAccountKey : Pubkey) :
    RpcM ProductAccount := do
  let productAccount ← load (loadProductAccount (← getAccountData remote productAccountKey))
  let priceAccounts ← walkChain (fetchPriceAccount remote) (·.next) fuel productAccount.pxAcc ∅
  pure { accountData := productAccount, priceAccounts := priceAccounts.keys }

/-- `Oracle::fetch_product_accounts_from_mapping_account`. It visits every slot of
`products`. -/
def fetchProductAccountsFromMappingAccount (remote : Remote) (fuel : Nat)
    (mappingAccount : MappingAccount) : RpcM (AccountMap ProductAccount) :=
  fetchEach (fetchProductAccount remote fuel) mappingAccount.products ∅

/-- `Oracle::fetch_product_accounts`. -/
def fetchProductAccounts (remote : Remote) (fuel : Nat) (mappingAccounts : List MappingAccount) :
    RpcM (AccountMap ProductAccount) :=
  mappingAccounts.foldlM (fun productAccounts mappingAccount => do
    pure (productAccounts.extend
      (← fetchProductAccountsFromMappingAccount remote fuel mappingAccount))) ∅

/-- `Oracle::fetch_price_accounts`. -/
def fetchPriceAccounts (remote : Remote) (productAccounts : List ProductAccount) :
    RpcM (AccountMap PriceAccount) :=
  productAccounts.foldlM (fun priceAccounts productAccount =>
    fetchEach (fetchPriceAccount remote) productAccount.priceAccounts priceAccounts) ∅

/-- `self.global_store_tx.send(update).await.map_err(|_| anyhow!(message))`. The message is
handed over whatever the answer. The wait of `send` on a full channel is not modelled: the
global store is taken to drain its channel. -/
def send (remote : Remote) (update : Update) (message : String) : OracleM Unit := fun s =>
  let s' := { s with sent := s.sent ++ [update] }
  if remote.storeAlive s.sent.length then .ok () s' else .error (.notify message) s'

/-- `Oracle::notify_product_account_update`. -/
def notifyProductAccountUpdate (remote : Remote) (accountKey : Pubkey)
    (account : ProductAccount) : OracleM Unit :=
  send remote (.productAccountUpdate accountKey account) "failed to notify product account update"

/-- `Oracle::notify_price_account_update`. -/
def notifyPriceAccountUpdate (remote : Remote) (accountKey : Pubkey) (account : PriceAccount) :
    OracleM Unit :=
  send remote (.priceAccountUpdate accountKey account) "failed to notify price account update"

/-- `Oracle::send_all_data_to_global_store`. -/
def sendAllDataToGlobalStore (remote : Remote) : OracleM Unit := do
  let data := (← get).data
  data.productAccounts.entries.forM fun e => notifyProductAccountUpdate remote e.1 e.2
  data.priceAccounts.entries.forM fun e => notifyPriceAccountUpdate remote e.1 e.2

/-- `Oracle::poll`. -/
def poll (remote : Remote) (fuel : Nat) : OracleM Unit := do
  let mappingAccounts ← Oracle.rpc
    (fetchMappingAccounts remote fuel (← get).config.mappingAccountKey)
  modify fun s => { s with data := { s.data with mappingAccounts } }
  let productAccounts ← Oracle.rpc
    (fetchProductAccounts remote fuel (← get).data.mappingAccounts.values)
  modify fun s => { s with data := { s.data with productAccounts } }
  let priceAccounts ← Oracle.rpc
    (fetchPriceAccounts remote (← get).data.productAccounts.values)
  modify fun s => { s with data := { s.data with priceAccounts } }
  sendAllDataToGlobalStore remote

/-- `Oracle::handle_price_account_update`. -/
def handlePriceAccountUpdate (remote : Remote) (accountKey : Pubkey) (account : Account) :
    OracleM Unit := do
  let priceAccount ← load (loadPriceAccount account.data)
  modify fun s =>
    { s with data := { s.data with
        priceAccounts := s.data.priceAccounts.insert accountKey priceAccount } }
  notifyPriceAccountUpdate remote accountKey priceAccount

/-- `Oracle::handle_account_update`: only keys already in `price_accounts` are taken. -/
def handleAccountUpdate (remote : Remote) (accountKey : Pubkey) (account : Account) :
    OracleM Unit := do
  if accountKey ∉ (← get).data.priceAccounts.keys then return
  handlePriceAccountUpdate remote accountKey account

/-- What `Oracle::handle_next` waits for. `pollTick` carries the fuel of its walks. -/
inductive Event where
  | accountUpdate (accountKey : Pubkey) (account : Account)
  | pollTick (fuel : Nat)

/-- `Oracle::handle_next`. -/
def handleNext (remote : Remote) : Event → OracleM Unit
  | .accountUpdate accountKey account => handleAccountUpdate remote accountKey account
  | .pollTick fuel => poll remote fuel

/-- One turn of the loop of `Oracle::run`: an error is logged and the loop goes on. An event
whose walk is out of fuel has not returned, and gives no next state. -/
def runStep (remote : Remote) (s : Oracle) (event : Event) : Option Oracle :=
  match handleNext remote event s with
  | .ok () s' => some s'
  | .error .outOfFuel _ => none
  | .error _ s' => some s'

/-- `Oracle::run` over a list of events. -/
def run (remote : Remote) (events : List Event) (s : Oracle) : Option Oracle :=
  events.foldlM (runStep remote) s

end PythAgent.Solana
