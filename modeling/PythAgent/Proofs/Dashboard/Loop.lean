import PythAgent.Dashboard

/-!
# `PythAgent.Proofs.Dashboard.Loop`: the two loops of `build_dashboard_data`

The lemmas here say once what each loop body does to the locals of `build_dashboard_data`,
so that the invariants of `Report` never unfold the model.

* `takePrice` reads the view of one price key (`BuildState.priceView`) and removes the key
  from the three sources. It keeps the product-side locals, the report and the warnings.
* `collectPrices_eq`: over keys without duplicates, the price loop records for each key the
  view it had before the loop. The removals only touch the keys of the loop
  (`priceView_consumePrices`).
* `processProduct_none` and `processProduct_some`: the two branches of the product loop.
* `lookup_insertSymbolView`: the report after one insertion. The view lands under the
  symbol name when the name is free, and under the name with ` (duplicate)` otherwise.
-/

set_option autoImplicit false

namespace PythAgent.Dashboard

variable {V : ValueTypes}

/-- The view that the price loop records for `k` in the state `st`. -/
def BuildState.priceView (st : BuildState V) (k : Pubkey) : DashboardPriceView V :=
  ⟨st.localData.lookup (Identifier.new k.toBytes), st.globalData.priceAccounts.lookup k,
    st.globalMetadata.priceAccountsMetadata.lookup k⟩

/-- The view of a key once the loop has removed it from all three sources. -/
def DashboardPriceView.empty : DashboardPriceView V := ⟨none, none, none⟩

theorem Identifier.new_injective {a b : Pubkey}
    (h : Identifier.new a.toBytes = Identifier.new b.toBytes) : a = b := by
  rw [← Identifier.new_toBytes a, h, Identifier.new_toBytes]

section TakePrice
variable (st : BuildState V) (k : Pubkey)

@[simp] theorem takePrice_snd : (takePrice st k).2 = st.priceView k := rfl

@[simp] theorem takePrice_ret : (takePrice st k).1.ret = st.ret := rfl

@[simp] theorem takePrice_warnings : (takePrice st k).1.warnings = st.warnings := rfl

@[simp] theorem takePrice_remainingProductKeys :
    (takePrice st k).1.remainingProductKeys = st.remainingProductKeys := rfl

@[simp] theorem takePrice_productAccountsMetadata :
    (takePrice st k).1.globalMetadata.productAccountsMetadata =
      st.globalMetadata.productAccountsMetadata := rfl

@[simp] theorem takePrice_allPriceKeysDedup :
    (takePrice st k).1.allPriceKeysDedup = st.allPriceKeysDedup.erase k := rfl

/-- Taking `k` empties its view and leaves every other view alone. -/
theorem priceView_takePrice (k' : Pubkey) :
    (takePrice st k).1.priceView k' =
      if k' = k then DashboardPriceView.empty else st.priceView k' := by
  by_cases h : k' = k
  · subst h
    simp [takePrice, BuildState.priceView, DashboardPriceView.empty]
  · have hid : Identifier.new k'.toBytes ≠ Identifier.new k.toBytes :=
      fun e => h (Identifier.new_injective e)
    simp [takePrice, BuildState.priceView, h, Finmap.lookup_erase_ne hid]

end TakePrice

/-- The removals of the price loop alone. -/
def consumePrices (st : BuildState V) (ks : List Pubkey) : BuildState V :=
  ks.foldl (fun st k => (takePrice st k).1) st

section ConsumePrices
variable (ks : List Pubkey)

@[simp] theorem consumePrices_nil (st : BuildState V) : consumePrices st [] = st := rfl

@[simp] theorem consumePrices_cons (st : BuildState V) (k : Pubkey) :
    consumePrices st (k :: ks) = consumePrices (takePrice st k).1 ks := rfl

@[simp] theorem consumePrices_ret (st : BuildState V) : (consumePrices st ks).ret = st.ret := by
  induction ks generalizing st <;> simp [*]

@[simp] theorem consumePrices_warnings (st : BuildState V) :
    (consumePrices st ks).warnings = st.warnings := by
  induction ks generalizing st <;> simp [*]

@[simp] theorem consumePrices_remainingProductKeys (st : BuildState V) :
    (consumePrices st ks).remainingProductKeys = st.remainingProductKeys := by
  induction ks generalizing st <;> simp [*]

@[simp] theorem consumePrices_productAccountsMetadata (st : BuildState V) :
    (consumePrices st ks).globalMetadata.productAccountsMetadata =
      st.globalMetadata.productAccountsMetadata := by
  induction ks generalizing st <;> simp [*]

theorem consumePrices_allPriceKeysDedup (st : BuildState V) (k : Pubkey) :
    k ∈ (consumePrices st ks).allPriceKeysDedup ↔ k ∈ st.allPriceKeysDedup ∧ k ∉ ks := by
  induction ks generalizing st with
  | nil => simp
  | cons k' ks ih =>
    rw [consumePrices_cons, ih, takePrice_allPriceKeysDedup, Finset.mem_erase, List.mem_cons]
    tauto

/-- After the price loop, the keys of the loop have empty views and the others keep theirs. -/
theorem priceView_consumePrices (st : BuildState V) (k : Pubkey) :
    (consumePrices st ks).priceView k =
      if k ∈ ks then DashboardPriceView.empty else st.priceView k := by
  induction ks generalizing st with
  | nil => simp
  | cons k' ks ih =>
    rw [consumePrices_cons, ih, priceView_takePrice]
    by_cases h₁ : k = k' <;> by_cases h₂ : k ∈ ks <;> simp [h₁, h₂]

end ConsumePrices

/-- The price loop with an accumulator: each key is recorded with the view `f` gives it,
when `f` agrees with the views of the start state on the keys, and no key comes twice. -/
theorem foldl_takePrice (f : Pubkey → DashboardPriceView V) (ks : List Pubkey)
    (hks : ks.Nodup) (st : BuildState V) (hf : ∀ k ∈ ks, st.priceView k = f k)
    (prices : Finmap (fun _ : Pubkey => DashboardPriceView V)) :
    ks.foldl (fun acc k => ((takePrice acc.1 k).1, acc.2.insert k (takePrice acc.1 k).2))
        (st, prices) =
      (consumePrices st ks, ks.foldl (fun acc k => acc.insert k (f k)) prices) := by
  induction ks generalizing st prices with
  | nil => rfl
  | cons k ks ih =>
    rw [List.nodup_cons] at hks
    simp only [List.foldl_cons, takePrice_snd, hf k (List.mem_cons_self k ks)]
    refine ih hks.2 _ (fun k' hk' => ?_) _
    rw [priceView_takePrice, if_neg (fun (e : k' = k) => hks.1 (e ▸ hk')),
      hf k' (List.mem_cons_of_mem k hk')]

/-- `collectPrices` over keys without duplicates. -/
theorem collectPrices_eq (st : BuildState V) (ks : List Pubkey) (hks : ks.Nodup) :
    collectPrices st ks =
      (consumePrices st ks, ks.foldl (fun acc k => acc.insert k (st.priceView k)) ∅) :=
  foldl_takePrice st.priceView ks hks st (fun _ _ => rfl) ∅

theorem mem_sortedDedup {ks : List Pubkey} {k : Pubkey} : k ∈ sortedDedup ks ↔ k ∈ ks :=
  (List.perm_insertionSort _ _).mem_iff.trans List.mem_dedup

theorem nodup_sortedDedup (ks : List Pubkey) : (sortedDedup ks).Nodup :=
  (List.perm_insertionSort _ _).nodup_iff.mpr (List.nodup_dedup ks)

/-- A map built by inserting, for each key of a list, a value that depends on the key. -/
theorem lookup_foldl_insert {β : Type} (f : Pubkey → β) (ks : List Pubkey)
    (acc : Finmap (fun _ : Pubkey => β)) (k : Pubkey) :
    (ks.foldl (fun acc k => acc.insert k (f k)) acc).lookup k =
      if k ∈ ks then some (f k) else acc.lookup k := by
  induction ks generalizing acc with
  | nil => simp
  | cons k' ks ih =>
    rw [List.foldl_cons, ih]
    by_cases h₁ : k = k'
    · subst h₁
      by_cases h₂ : k ∈ ks <;> simp [h₂]
    · simp [h₁, Finmap.lookup_insert_of_ne _ h₁]

/-- The `prices` map the loop builds for a product with metadata `m` from the state `st`. -/
def pricesOf (st : BuildState V) (m : ProductAccountMetadata) :
    Finmap (fun _ : Pubkey => DashboardPriceView V) :=
  (sortedDedup m.priceAccounts).foldl (fun acc k => acc.insert k (st.priceView k)) ∅

theorem lookup_pricesOf (st : BuildState V) (m : ProductAccountMetadata) (k : Pubkey) :
    (pricesOf st m).lookup k = if k ∈ m.priceAccounts then some (st.priceView k) else none := by
  simp [pricesOf, lookup_foldl_insert, mem_sortedDedup]

/-- The locals after the price loop of a product `p` with metadata `m`, before the
insertion into the report. -/
def afterPrices (st : BuildState V) (p : Pubkey) (m : ProductAccountMetadata) : BuildState V :=
  let st₁ : BuildState V := { st with
    globalData := { st.globalData with productAccounts := st.globalData.productAccounts.erase p }
    globalMetadata := { st.globalMetadata with
      productAccountsMetadata := st.globalMetadata.productAccountsMetadata.erase p } }
  let consumed := consumePrices st₁ (sortedDedup m.priceAccounts)
  { consumed with remainingProductKeys := consumed.remainingProductKeys.erase p }

section AfterPrices
variable (st : BuildState V) (p : Pubkey) (m : ProductAccountMetadata)

@[simp] theorem afterPrices_ret : (afterPrices st p m).ret = st.ret := by simp [afterPrices]

@[simp] theorem afterPrices_warnings : (afterPrices st p m).warnings = st.warnings := by
  simp [afterPrices]

@[simp] theorem afterPrices_productAccountsMetadata :
    (afterPrices st p m).globalMetadata.productAccountsMetadata =
      st.globalMetadata.productAccountsMetadata.erase p := by
  simp [afterPrices]

@[simp] theorem afterPrices_remainingProductKeys :
    (afterPrices st p m).remainingProductKeys = st.remainingProductKeys.erase p := by
  simp [afterPrices]

theorem afterPrices_allPriceKeysDedup (k : Pubkey) :
    k ∈ (afterPrices st p m).allPriceKeysDedup ↔ k ∈ st.allPriceKeysDedup ∧ k ∉ m.priceAccounts := by
  show k ∈ (consumePrices _ (sortedDedup m.priceAccounts)).allPriceKeysDedup ↔ _
  rw [consumePrices_allPriceKeysDedup, mem_sortedDedup]

theorem priceView_afterPrices (k : Pubkey) :
    (afterPrices st p m).priceView k =
      if k ∈ m.priceAccounts then DashboardPriceView.empty else st.priceView k := by
  show (consumePrices _ (sortedDedup m.priceAccounts)).priceView k = _
  simp only [priceView_consumePrices, mem_sortedDedup]
  rfl

end AfterPrices

/-- The name a view is inserted under: the symbol name, or the symbol name with
` (duplicate)` when the report holds it already. -/
def insertedName (st : BuildState V) (symbolName : String) : String :=
  if symbolName ∈ st.ret then symbolName ++ " (duplicate)" else symbolName

section InsertSymbolView
variable (st : BuildState V) (n : String) (v : DashboardSymbolView V)

@[simp] theorem insertSymbolView_ret :
    (insertSymbolView st n v).ret = st.ret.insert (insertedName st n) v := by
  unfold insertSymbolView insertedName
  split <;> rfl

/-- A name already in the report adds the rename warning. -/
theorem insertSymbolView_warnings :
    (insertSymbolView st n v).warnings = st.warnings ++
      if n ∈ st.ret then [.duplicateSymbolName n (n ++ " (duplicate)") v] else [] := by
  unfold insertSymbolView
  split <;> simp [*]

@[simp] theorem insertSymbolView_productAccountsMetadata :
    (insertSymbolView st n v).globalMetadata.productAccountsMetadata =
      st.globalMetadata.productAccountsMetadata := by
  unfold insertSymbolView
  split <;> rfl

@[simp] theorem insertSymbolView_remainingProductKeys :
    (insertSymbolView st n v).remainingProductKeys = st.remainingProductKeys := by
  unfold insertSymbolView
  split <;> rfl

@[simp] theorem insertSymbolView_allPriceKeysDedup :
    (insertSymbolView st n v).allPriceKeysDedup = st.allPriceKeysDedup := by
  unfold insertSymbolView
  split <;> rfl

@[simp] theorem priceView_insertSymbolView (k : Pubkey) :
    (insertSymbolView st n v).priceView k = st.priceView k := by
  unfold insertSymbolView
  split <;> rfl

end InsertSymbolView

/-- The product loop on a key without metadata: a warning, and nothing else that the report
or the price views see. -/
theorem processProduct_none (st : BuildState V) (p : Pubkey)
    (h : st.globalMetadata.productAccountsMetadata.lookup p = none) :
    processProduct st p = { st with
      globalData := { st.globalData with productAccounts := st.globalData.productAccounts.erase p }
      warnings := st.warnings ++ [.failedToLookUpProductMetadata (toString p)] } := by
  simp [processProduct, h]

/-- The product loop on a key with metadata `m`: the price loop, then the insertion of the
product's view under its symbol name. -/
theorem processProduct_some (st : BuildState V) (p : Pubkey) (m : ProductAccountMetadata)
    (h : st.globalMetadata.productAccountsMetadata.lookup p = some m) :
    processProduct st p =
      insertSymbolView (afterPrices st p m) (symbolName p m) ⟨p, pricesOf st m⟩ := by
  simp only [processProduct, h]
  rw [collectPrices_eq _ _ (nodup_sortedDedup _)]
  rfl

end PythAgent.Dashboard
