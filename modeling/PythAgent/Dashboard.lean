import PythAgent.Solana.Account

/-!
# `PythAgent.Dashboard`: the model of `build_dashboard_data` in `agent/dashboard.rs`

`build_dashboard_data` merges three snapshots into one view per symbol: the local store's
price infos, the global store's account data, and the global store's metadata. It is a
pure function apart from its `warn!` lines, which the model returns as a list of
`Warning`s beside the report.

The product keys come from the metadata. They sit in a `HashSet`, whose iteration order
Rust leaves open, so the model takes that order as the list `order`. For each product
with metadata, the loop takes its price keys sorted and without duplicates, and for each
one it removes the key's entry from the three sources (the `remove` calls) and records what
it found. A price key that two products list is therefore seen only by the first of them.

The report is a `BTreeMap` from the symbol name to the view. A name already in the report
gets one ` (duplicate)` suffix, and the view is inserted under the new name whether or not
that name is taken too.

The value types of the snapshots are defined in the store modules, which are not in this
repository. The dashboard only moves their values, so they are parameters (`ValueTypes`).
The maps are `Finmap`s: a `HashMap` or a `BTreeMap` is its set of entries.
-/

set_option autoImplicit false

namespace PythAgent.Dashboard

/-- The value types of the snapshots. -/
structure ValueTypes where
  /-- `local::PriceInfo`. -/
  PriceInfo : Type
  /-- The global store's price data. -/
  PriceEntry : Type
  /-- The global store's product data. -/
  ProductEntry : Type
  /-- `global::PriceAccountMetadata`. -/
  PriceAccountMetadata : Type

/-- `global::ProductAccountMetadata`, the fields the dashboard reads. -/
structure ProductAccountMetadata where
  attrDict : Finmap (fun _ : String => String)
  priceAccounts : List Pubkey

variable (V : ValueTypes)

/-- `global::AllAccountsData`. -/
structure AllAccountsData where
  productAccounts : Finmap (fun _ : Pubkey => V.ProductEntry)
  priceAccounts : Finmap (fun _ : Pubkey => V.PriceEntry)

/-- `global::AllAccountsMetadata`. -/
structure AllAccountsMetadata where
  productAccountsMetadata : Finmap (fun _ : Pubkey => ProductAccountMetadata)
  priceAccountsMetadata : Finmap (fun _ : Pubkey => V.PriceAccountMetadata)

/-- `DashboardPriceView`. -/
structure DashboardPriceView where
  localData : Option V.PriceInfo
  globalData : Option V.PriceEntry
  globalMetadata : Option V.PriceAccountMetadata

/-- `DashboardSymbolView`. -/
structure DashboardSymbolView where
  product : Pubkey
  prices : Finmap (fun _ : Pubkey => DashboardPriceView V)

/-- The result of `build_dashboard_data`, keyed by symbol name. -/
abbrev Report := Finmap (fun _ : String => DashboardSymbolView V)

/-- The `warn!` lines of `build_dashboard_data`. -/
inductive Warning where
  | duplicateSymbolName (symbolName symbolRenamedTo : String)
      (conflictingSymbolData : DashboardSymbolView V)
  | failedToLookUpProductMetadata (productId : String)
  | orphanedIds (remainingProductIds remainingPriceIds : Finset Pubkey)

variable {V}

/-- The message of each warning. -/
def Warning.message : Warning V → String
  | .duplicateSymbolName .. => "Dashboard: duplicate symbol name detected, renaming"
  | .failedToLookUpProductMetadata _ => "Dashboard: Failed to look up product metadata"
  | .orphanedIds .. => "Dashboard: Orphaned product/price IDs detected"

variable (V) in
/-- The locals of `build_dashboard_data` that its loops change. -/
structure BuildState where
  localData : Finmap (fun _ : Identifier => V.PriceInfo)
  globalData : AllAccountsData V
  globalMetadata : AllAccountsMetadata V
  allPriceKeysDedup : Finset Pubkey
  remainingProductKeys : Finset Pubkey
  ret : Report V
  warnings : List (Warning V)

/-- The symbol name of a product: its `symbol` attribute, or `unnamed product <key>`. -/
def symbolName (productKey : Pubkey) (productMetadata : ProductAccountMetadata) : String :=
  (productMetadata.attrDict.lookup "symbol").getD ("unnamed product " ++ toString productKey)

/-- `collect::<BTreeSet<_>>()` of a product's price keys, in the set's iteration order. -/
def sortedDedup (keys : List Pubkey) : List Pubkey :=
  keys.dedup.insertionSort (· ≤ ·)

/-- The body of `for price_key in this_product_price_keys_dedup`: remove the key's entries
from the three sources, keep them as the key's view, and mark the key done. -/
def takePrice (st : BuildState V) (priceKey : Pubkey) : BuildState V × DashboardPriceView V :=
  let priceIdentifier := Identifier.new priceKey.toBytes
  ({ st with
      globalData := { st.globalData with
        priceAccounts := st.globalData.priceAccounts.erase priceKey }
      globalMetadata := { st.globalMetadata with
        priceAccountsMetadata := st.globalMetadata.priceAccountsMetadata.erase priceKey }
      localData := st.localData.erase priceIdentifier
      allPriceKeysDedup := st.allPriceKeysDedup.erase priceKey },
    { localData := st.localData.lookup priceIdentifier
      globalData := st.globalData.priceAccounts.lookup priceKey
      globalMetadata := st.globalMetadata.priceAccountsMetadata.lookup priceKey })

/-- The loop over a product's price keys, building its `prices` map. -/
def collectPrices (st : BuildState V) (priceKeys : List Pubkey) :
    BuildState V × Finmap (fun _ : Pubkey => DashboardPriceView V) :=
  priceKeys.foldl (fun acc priceKey =>
    let taken := takePrice acc.1 priceKey
    (taken.1, acc.2.insert priceKey taken.2)) (st, ∅)

/-- The insertion into `ret`: a name already present gets the ` (duplicate)` suffix, with a
warning, and the view is inserted under the name so chosen. -/
def insertSymbolView (st : BuildState V) (symbolName : String)
    (symbolView : DashboardSymbolView V) : BuildState V :=
  if symbolName ∈ st.ret then
    let newSymbolName := symbolName ++ " (duplicate)"
    { st with
        ret := st.ret.insert newSymbolName symbolView
        warnings := st.warnings ++ [.duplicateSymbolName symbolName newSymbolName symbolView] }
  else { st with ret := st.ret.insert symbolName symbolView }

/-- The body of `for product_key in all_product_keys_dedup`. -/
def processProduct (st : BuildState V) (productKey : Pubkey) : BuildState V :=
  let st := { st with globalData := { st.globalData with
    productAccounts := st.globalData.productAccounts.erase productKey } }
  match st.globalMetadata.productAccountsMetadata.lookup productKey with
  | some productMetadata =>
    let st := { st with globalMetadata := { st.globalMetadata with
      productAccountsMetadata := st.globalMetadata.productAccountsMetadata.erase productKey } }
    let collected := collectPrices st (sortedDedup productMetadata.priceAccounts)
    let st := { collected.1 with
      remainingProductKeys := collected.1.remainingProductKeys.erase productKey }
    insertSymbolView st (symbolName productKey productMetadata)
      { product := productKey, prices := collected.2 }
  | none => { st with warnings := st.warnings ++ [.failedToLookUpProductMetadata (toString productKey)] }

/-- The state before the product loop. -/
def BuildState.init (localData : Finmap (fun _ : Identifier => V.PriceInfo))
    (globalData : AllAccountsData V) (globalMetadata : AllAccountsMetadata V) : BuildState V where
  localData := localData
  globalData := globalData
  globalMetadata := globalMetadata
  allPriceKeysDedup := globalData.priceAccounts.keys ∪ globalMetadata.priceAccountsMetadata.keys ∪
    localData.keys.image (fun identifier => Pubkey.newFromArray identifier.toBytes)
  remainingProductKeys := globalMetadata.productAccountsMetadata.keys
  ret := ∅
  warnings := []

/-- `build_dashboard_data`. `order` is the order in which the `HashSet` of product keys
yields them. -/
def buildDashboardData (localData : Finmap (fun _ : Identifier => V.PriceInfo))
    (globalData : AllAccountsData V) (globalMetadata : AllAccountsMetadata V)
    (order : List Pubkey) : Report V × List (Warning V) :=
  let st := order.foldl processProduct (BuildState.init localData globalData globalMetadata)
  if st.allPriceKeysDedup = ∅ ∧ st.remainingProductKeys = ∅ then (st.ret, st.warnings)
  else (st.ret, st.warnings ++ [.orphanedIds st.remainingProductKeys st.allPriceKeysDedup])

/-- `order` is an iteration order of the product-key set: every key once. -/
def IsIterationOrder (globalMetadata : AllAccountsMetadata V) (order : List Pubkey) : Prop :=
  (order : Multiset Pubkey) = globalMetadata.productAccountsMetadata.keys.val

instance (globalMetadata : AllAccountsMetadata V) (order : List Pubkey) :
    Decidable (IsIterationOrder globalMetadata order) :=
  inferInstanceAs (Decidable (_ = _))

end PythAgent.Dashboard
