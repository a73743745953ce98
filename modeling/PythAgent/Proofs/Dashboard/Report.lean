import PythAgent.Proofs.Dashboard.Loop

/-!
# `PythAgent.Proofs.Dashboard.Report`: what the report holds

The product loop of `build_dashboard_data` consumes the price sources as it goes, so the
view a product gets depends on the products before it. Two invariants of the loop, each with
its step lemma and its fold lemma, describe the report against the snapshots it started from.

* `Faithful`: the metadata is only ever removed from, a price key whose listing products
  are all still to come has its starting view, an empty view stays empty, and every view in
  the report belongs to a product of the metadata and holds the starting views of its price
  keys. The last part needs that no price key with a non-empty view is listed by two products
  (`BuildState.ViewsUnshared`). A key with no entry in the snapshots gives the same empty
  view to every product that lists it, whichever comes first.
* `ReportExact`: when moreover the symbol names of the products are pairwise distinct
  (`DistinctSymbolNames`), the report holds exactly one view per product done so far, under
  its symbol name.

`buildDashboardData_prices` reads `Faithful` off the final report: each view lists the
price keys of its product, with the entries of the three snapshots.
`buildDashboardData_order_independent` reads `ReportExact` off it: the report then depends on
the set of product keys only, not on the order the `HashSet` yields them in, when no price key
with a confirmed, metadata or local entry is listed by two products (`NoSharedPriceEntries`).
-/

set_option autoImplicit false

namespace PythAgent.Dashboard

variable {V : ValueTypes}

/-- No price key is listed by two different products of the metadata. -/
def NoSharedPriceKeys (globalMetadata : AllAccountsMetadata V) : Prop :=
  ∀ p₁ p₂ m₁ m₂ k, globalMetadata.productAccountsMetadata.lookup p₁ = some m₁ →
    globalMetadata.productAccountsMetadata.lookup p₂ = some m₂ →
    k ∈ m₁.priceAccounts → k ∈ m₂.priceAccounts → p₁ = p₂

/-- The symbol names of the products of the metadata are pairwise distinct. -/
def DistinctSymbolNames (globalMetadata : AllAccountsMetadata V) : Prop :=
  ∀ p₁ p₂ m₁ m₂, globalMetadata.productAccountsMetadata.lookup p₁ = some m₁ →
    globalMetadata.productAccountsMetadata.lookup p₂ = some m₂ →
    symbolName p₁ m₁ = symbolName p₂ m₂ → p₁ = p₂

/-- No price key that has an entry in the snapshots, a confirmed price, price metadata or a
local price, is listed by two different products of the metadata. -/
def NoSharedPriceEntries (localData : Finmap (fun _ : Identifier => V.PriceInfo))
    (globalData : AllAccountsData V) (globalMetadata : AllAccountsMetadata V) : Prop :=
  ∀ p₁ p₂ m₁ m₂ k, globalMetadata.productAccountsMetadata.lookup p₁ = some m₁ →
    globalMetadata.productAccountsMetadata.lookup p₂ = some m₂ →
    k ∈ m₁.priceAccounts → k ∈ m₂.priceAccounts →
    (k ∈ globalData.priceAccounts ∨ k ∈ globalMetadata.priceAccountsMetadata ∨
      Identifier.new k.toBytes ∈ localData) → p₁ = p₂

/-- The report of `build_dashboard_data` is the report of its product loop. -/
theorem buildDashboardData_fst (localData : Finmap (fun _ : Identifier => V.PriceInfo))
    (globalData : AllAccountsData V) (globalMetadata : AllAccountsMetadata V)
    (order : List Pubkey) :
    (buildDashboardData localData globalData globalMetadata order).1 =
      (order.foldl processProduct (BuildState.init localData globalData globalMetadata)).ret := by
  unfold buildDashboardData
  dsimp only
  split <;> rfl

/-- Value types for worked inputs: local and confirmed prices are numbers. -/
def natValues : ValueTypes := ⟨Nat, Nat, Unit, Unit⟩

/-- Product metadata with the symbol `name` and the price keys `prices`. -/
def namedProduct (name : String) (prices : List Pubkey) : ProductAccountMetadata :=
  ⟨Finmap.singleton "symbol" name, prices⟩

theorem lookup_insert_empty_eq_some {β : Type} {a p : Pubkey} {x z : β}
    (h : ((∅ : Finmap (fun _ : Pubkey => β)).insert a x).lookup p = some z) : p = a ∧ z = x := by
  by_cases ha : p = a
  · subst ha
    simp at h
    exact ⟨rfl, h.symm⟩
  · simp [Finmap.lookup_insert_of_ne _ ha] at h

theorem lookup_insert_insert_eq_some {β : Type} {a b p : Pubkey} {x y z : β}
    (h : (((∅ : Finmap (fun _ : Pubkey => β)).insert a x).insert b y).lookup p = some z) :
    (p = b ∧ z = y) ∨ (p = a ∧ z = x) := by
  by_cases hb : p = b
  · subst hb
    simp at h
    exact .inl ⟨rfl, h.symm⟩
  · rw [Finmap.lookup_insert_of_ne _ hb] at h
    exact .inr (lookup_insert_empty_eq_some h)

/-- Three products named `ETH/USD`. -/
def threeEthMetadata : AllAccountsMetadata natValues :=
  ⟨(((∅ : Finmap _).insert (.ofLastByte 1) (namedProduct "ETH/USD" [])).insert
    (.ofLastByte 2) (namedProduct "ETH/USD" [])).insert (.ofLastByte 3) (namedProduct "ETH/USD" []),
    ∅⟩

/-- Three products named `ETH/USD`: the second is renamed `ETH/USD (duplicate)`, and the
third is renamed to the same name and overwrites it. The report has two entries, and no
entry belongs to product `2`. -/
theorem buildDashboardData_three_same_symbol :
    IsIterationOrder threeEthMetadata [.ofLastByte 1, .ofLastByte 2, .ofLastByte 3] ∧
    ∃ report warnings, buildDashboardData ∅ ⟨∅, ∅⟩ threeEthMetadata
        [.ofLastByte 1, .ofLastByte 2, .ofLastByte 3] = (report, warnings) ∧
      report.keys = {"ETH/USD", "ETH/USD (duplicate)"} ∧
      (report.lookup "ETH/USD").map (·.product) = some (.ofLastByte 1) ∧
      (report.lookup "ETH/USD (duplicate)").map (·.product) = some (.ofLastByte 3) :=
  ⟨by decide, _, _, rfl, by decide, by decide, by decide⟩

/-- A confirmed product without metadata is in no view and in no warning: the product keys
are taken from the metadata alone. -/
theorem buildDashboardData_drops_confirmed_product :
    IsIterationOrder (V := natValues) ⟨∅, ∅⟩ [] ∧
    buildDashboardData (V := natValues) ∅ ⟨(∅ : Finmap _).insert (.ofLastByte 1) (), ∅⟩ ⟨∅, ∅⟩ [] =
      (∅, []) :=
  ⟨by decide, rfl⟩

theorem pricesOf_congr {st st' : BuildState V} {m : ProductAccountMetadata}
    (h : ∀ k ∈ m.priceAccounts, st.priceView k = st'.priceView k) :
    pricesOf st m = pricesOf st' m :=
  Finmap.ext_lookup fun k => by
    by_cases hk : k ∈ m.priceAccounts <;> simp [lookup_pricesOf, hk, h]

theorem lookup_erase_eq_some {β : Type} {s : Finmap (fun _ : Pubkey => β)} {p q : Pubkey}
    {b : β} : (s.erase p).lookup q = some b ↔ q ≠ p ∧ s.lookup q = some b := by
  by_cases hq : q = p
  · subst hq
    simp
  · simp [hq, Finmap.lookup_erase_ne hq]

/-- The product loop keeps removing the metadata of the key it visits. -/
theorem lookup_processProduct_productAccountsMetadata (st : BuildState V) (p q : Pubkey) :
    (processProduct st p).globalMetadata.productAccountsMetadata.lookup q =
      if q = p then none else st.globalMetadata.productAccountsMetadata.lookup q := by
  cases h : st.globalMetadata.productAccountsMetadata.lookup p with
  | none =>
    rw [processProduct_none st p h]
    by_cases hq : q = p
    · subst hq
      simp [h]
    · simp [hq]
  | some m =>
    rw [processProduct_some st p m h]
    by_cases hq : q = p
    · subst hq
      simp
    · simp [hq, Finmap.lookup_erase_ne hq]

/-- No price key whose view in `st` is not empty is listed by two products of the metadata
of `st`. -/
def BuildState.ViewsUnshared (st : BuildState V) : Prop :=
  ∀ p₁ p₂ m₁ m₂ k, st.globalMetadata.productAccountsMetadata.lookup p₁ = some m₁ →
    st.globalMetadata.productAccountsMetadata.lookup p₂ = some m₂ →
    k ∈ m₁.priceAccounts → k ∈ m₂.priceAccounts → st.priceView k ≠ DashboardPriceView.empty →
    p₁ = p₂

theorem NoSharedPriceKeys.viewsUnshared {globalMetadata : AllAccountsMetadata V}
    (h : NoSharedPriceKeys globalMetadata) (localData : Finmap (fun _ : Identifier => V.PriceInfo))
    (globalData : AllAccountsData V) :
    (BuildState.init localData globalData globalMetadata).ViewsUnshared :=
  fun p₁ p₂ m₁ m₂ k h₁ h₂ hk₁ hk₂ _ => h p₁ p₂ m₁ m₂ k h₁ h₂ hk₁ hk₂

/-- A key with no entry in the snapshots starts with the empty view. -/
theorem NoSharedPriceEntries.viewsUnshared {localData : Finmap (fun _ : Identifier => V.PriceInfo)}
    {globalData : AllAccountsData V} {globalMetadata : AllAccountsMetadata V}
    (h : NoSharedPriceEntries localData globalData globalMetadata) :
    (BuildState.init localData globalData globalMetadata).ViewsUnshared := by
  intro p₁ p₂ m₁ m₂ k h₁ h₂ hk₁ hk₂ hview
  refine h p₁ p₂ m₁ m₂ k h₁ h₂ hk₁ hk₂ (by_contra fun hnone => hview ?_)
  simp only [not_or, ← Finmap.lookup_eq_none] at hnone
  simp [BuildState.priceView, BuildState.init, DashboardPriceView.empty, hnone]

section Invariants
variable (st₀ : BuildState V)

/-- The invariant of the product loop that `buildDashboardData_prices` reads. -/
structure Faithful (st : BuildState V) : Prop where
  /-- The loop only removes metadata. -/
  meta_sub : ∀ p m, st.globalMetadata.productAccountsMetadata.lookup p = some m →
    st₀.globalMetadata.productAccountsMetadata.lookup p = some m
  /-- A key whose listing products are all still to come keeps its starting view. -/
  view_eq : ∀ k, (∀ p m, st₀.globalMetadata.productAccountsMetadata.lookup p = some m →
      k ∈ m.priceAccounts → st.globalMetadata.productAccountsMetadata.lookup p = some m) →
    st.priceView k = st₀.priceView k
  /-- A key whose starting view is empty keeps it. -/
  view_empty : ∀ k, st₀.priceView k = DashboardPriceView.empty →
    st.priceView k = DashboardPriceView.empty
  /-- Each view of the report is a product's, with the starting views of its prices. -/
  report : ∀ n v, st.ret.lookup n = some v →
    ∃ m, st₀.globalMetadata.productAccountsMetadata.lookup v.product = some m ∧
      v.prices = pricesOf st₀ m

theorem faithful_init (h : st₀.ret = ∅) : Faithful st₀ st₀ where
  meta_sub _ _ := id
  view_eq _ _ := rfl
  view_empty _ := id
  report n v hv := by simp [h] at hv

/-- The invariant of the product loop that `buildDashboardData_order_independent` reads:
the report holds, under its symbol name, the view of each product done so far, and
nothing else. -/
def ReportExact (st : BuildState V) : Prop :=
  ∀ n v, st.ret.lookup n = some v ↔
    ∃ m, st₀.globalMetadata.productAccountsMetadata.lookup v.product = some m ∧
      st.globalMetadata.productAccountsMetadata.lookup v.product = none ∧
      symbolName v.product m = n ∧ v.prices = pricesOf st₀ m

variable {st₀}

/-- The price views a product `p` with metadata `m` records are the starting ones, when `p`
is still to come and no other product lists its keys with a non-empty view. -/
theorem pricesOf_eq_start {st : BuildState V} (hst : Faithful st₀ st)
    {p : Pubkey} {m : ProductAccountMetadata}
    (hshared : ∀ q m' k, st₀.globalMetadata.productAccountsMetadata.lookup q = some m' →
      k ∈ m'.priceAccounts → k ∈ m.priceAccounts → st₀.priceView k ≠ DashboardPriceView.empty →
      q = p)
    (h : st.globalMetadata.productAccountsMetadata.lookup p = some m) :
    pricesOf st m = pricesOf st₀ m :=
  pricesOf_congr fun k hk => by
    by_cases hempty : st₀.priceView k = DashboardPriceView.empty
    · rw [hst.view_empty k hempty, hempty]
    refine hst.view_eq k fun q m' hq hk' => ?_
    obtain rfl := hshared q m' k hq hk' hk hempty
    rw [hst.meta_sub _ _ h] at hq
    cases hq
    exact h

/-- `processProduct` keeps `Faithful`. -/
theorem faithful_step (hshared : st₀.ViewsUnshared) {st : BuildState V}
    (hst : Faithful st₀ st) (p : Pubkey) : Faithful st₀ (processProduct st p) := by
  cases h : st.globalMetadata.productAccountsMetadata.lookup p with
  | none =>
    rw [processProduct_none st p h]
    exact ⟨hst.meta_sub, hst.view_eq, hst.view_empty, hst.report⟩
  | some m =>
    have hm := hst.meta_sub p m h
    rw [processProduct_some st p m h]
    refine ⟨fun q m' hq => ?_, fun k hk => ?_, fun k hk => ?_, fun n v hv => ?_⟩
    · rw [insertSymbolView_productAccountsMetadata, afterPrices_productAccountsMetadata,
        lookup_erase_eq_some] at hq
      exact hst.meta_sub q m' hq.2
    · have hk' : ∀ q m', st₀.globalMetadata.productAccountsMetadata.lookup q = some m' →
          k ∈ m'.priceAccounts → q ≠ p ∧ st.globalMetadata.productAccountsMetadata.lookup q = some m' :=
        fun q m' hq hkq => by simpa [lookup_erase_eq_some] using hk q m' hq hkq
      rw [priceView_insertSymbolView, priceView_afterPrices, if_neg fun hkm => (hk' p m hm hkm).1 rfl]
      exact hst.view_eq k fun q m' hq hkq => (hk' q m' hq hkq).2
    · rw [priceView_insertSymbolView, priceView_afterPrices]
      split_ifs
      · rfl
      · exact hst.view_empty k hk
    · rw [insertSymbolView_ret] at hv
      by_cases hn : n = insertedName (afterPrices st p m) (symbolName p m)
      · rw [hn, Finmap.lookup_insert] at hv
        cases hv
        exact ⟨m, hm, pricesOf_eq_start hst
          (fun q m' k hq hk' hk hview => hshared q p m' m k hq hm hk' hk hview) h⟩
      · rw [Finmap.lookup_insert_of_ne _ hn, afterPrices_ret] at hv
        exact hst.report n v hv

theorem faithful_foldl (hshared : st₀.ViewsUnshared) (order : List Pubkey)
    {st : BuildState V} (hst : Faithful st₀ st) : Faithful st₀ (order.foldl processProduct st) := by
  induction order generalizing st with
  | nil => exact hst
  | cons p order ih => exact ih (faithful_step hshared hst p)

theorem reportExact_init (h : st₀.ret = ∅) : ReportExact st₀ st₀ := fun n v => by
  simp only [h, Finmap.lookup_empty, reduceCtorEq, false_iff]
  rintro ⟨m, hm, hnone, -⟩
  rw [hm] at hnone
  cases hnone

/-- With distinct symbol names, the name of a product still to come is free in the report. -/
theorem symbolName_not_mem (hnames : DistinctSymbolNames st₀.globalMetadata)
    {st : BuildState V} (hex : ReportExact st₀ st) {p : Pubkey} {m : ProductAccountMetadata}
    (hm : st₀.globalMetadata.productAccountsMetadata.lookup p = some m)
    (h : st.globalMetadata.productAccountsMetadata.lookup p = some m) :
    symbolName p m ∉ st.ret := by
  intro hmem
  obtain ⟨v, hv⟩ := Option.isSome_iff_exists.mp (Finmap.lookup_isSome.mpr hmem)
  obtain ⟨m', hm', hnone, hname, -⟩ := (hex _ v).mp hv
  rw [hnames _ _ _ _ hm' hm hname, h] at hnone
  cases hnone

/-- `processProduct` keeps `ReportExact`, for distinct symbol names and unshared views. -/
theorem reportExact_step (hnames : DistinctSymbolNames st₀.globalMetadata)
    (hshared : st₀.ViewsUnshared) {st : BuildState V}
    (hst : Faithful st₀ st) (hex : ReportExact st₀ st) (p : Pubkey) :
    ReportExact st₀ (processProduct st p) := by
  cases h : st.globalMetadata.productAccountsMetadata.lookup p with
  | none =>
    rw [processProduct_none st p h]
    exact hex
  | some m =>
    have hm := hst.meta_sub p m h
    have hfree : insertedName (afterPrices st p m) (symbolName p m) = symbolName p m := by
      simp [insertedName, symbolName_not_mem hnames hex hm h]
    rw [processProduct_some st p m h,
      pricesOf_eq_start hst
          (fun q m' k hq hk' hk hview => hshared q p m' m k hq hm hk' hk hview) h]
    intro n v
    simp only [insertSymbolView_ret, hfree, insertSymbolView_productAccountsMetadata,
      afterPrices_productAccountsMetadata, afterPrices_ret]
    by_cases hn : n = symbolName p m
    · subst hn
      rw [Finmap.lookup_insert]
      constructor
      · rintro ⟨⟩
        exact ⟨m, hm, by simp, rfl, rfl⟩
      · rintro ⟨m', hm', -, hname, hprices⟩
        obtain rfl := hnames _ _ _ _ hm' hm hname
        rw [hm] at hm'
        cases hm'
        cases v
        cases hprices
        rfl
    · rw [Finmap.lookup_insert_of_ne _ hn, hex]
      refine exists_congr fun m' => and_congr_right fun hm' => ?_
      by_cases hvp : v.product = p
      · rw [hvp, hm] at hm'
        cases hm'
        rw [hvp]
        exact ⟨fun ⟨_, hname, _⟩ => absurd hname.symm hn, fun ⟨_, hname, _⟩ => absurd hname.symm hn⟩
      · rw [Finmap.lookup_erase_ne hvp]

theorem reportExact_foldl (hnames : DistinctSymbolNames st₀.globalMetadata)
    (hshared : st₀.ViewsUnshared) (order : List Pubkey) {st : BuildState V}
    (hst : Faithful st₀ st) (hex : ReportExact st₀ st) :
    ReportExact st₀ (order.foldl processProduct st) := by
  induction order generalizing st with
  | nil => exact hex
  | cons p order ih =>
    exact ih (faithful_step hshared hst p) (reportExact_step hnames hshared hst hex p)

end Invariants

/-- After the loop over `order`, the metadata of exactly the keys of `order` is gone. -/
theorem lookup_foldl_processProduct_productAccountsMetadata (order : List Pubkey)
    (st : BuildState V) (q : Pubkey) :
    (order.foldl processProduct st).globalMetadata.productAccountsMetadata.lookup q =
      if q ∈ order then none else st.globalMetadata.productAccountsMetadata.lookup q := by
  induction order generalizing st with
  | nil => simp
  | cons p order ih =>
    rw [List.foldl_cons, ih, lookup_processProduct_productAccountsMetadata]
    by_cases h₁ : q ∈ order <;> by_cases h₂ : q = p <;> simp [h₁, h₂]

/-- Every view of the report, when no price key is listed by two products: the view belongs
to a product of the metadata, its price keys are the distinct keys that the product lists,
and the view of each is the confirmed entry, the metadata entry and the local entry of the
key as the snapshots hold them. -/
theorem buildDashboardData_prices (localData : Finmap (fun _ : Identifier => V.PriceInfo))
    (globalData : AllAccountsData V) (globalMetadata : AllAccountsMetadata V)
    (order : List Pubkey) (hshared : NoSharedPriceKeys globalMetadata) (n : String)
    (v : DashboardSymbolView V)
    (hv : (buildDashboardData localData globalData globalMetadata order).1.lookup n = some v) :
    ∃ m, globalMetadata.productAccountsMetadata.lookup v.product = some m ∧
      (∀ k, k ∈ v.prices ↔ k ∈ m.priceAccounts) ∧
      ∀ k pv, v.prices.lookup k = some pv →
        pv.globalData = globalData.priceAccounts.lookup k ∧
        pv.globalMetadata = globalMetadata.priceAccountsMetadata.lookup k ∧
        pv.localData = localData.lookup (Identifier.new k.toBytes) := by
  rw [buildDashboardData_fst] at hv
  obtain ⟨m, hm, hprices⟩ :=
    (faithful_foldl (hshared.viewsUnshared localData globalData) order (faithful_init _ rfl)).report
      n v hv
  refine ⟨m, hm, fun k => ?_, fun k pv hpv => ?_⟩
  · rw [← Finmap.lookup_isSome, hprices, lookup_pricesOf]
    split <;> simp [*]
  · rw [hprices, lookup_pricesOf] at hpv
    split at hpv
    · cases hpv
      exact ⟨rfl, rfl, rfl⟩
    · cases hpv

/-- The product `BTC/USD` with the price keys `1` and `2`. -/
def btcMetadata : AllAccountsMetadata natValues :=
  ⟨(∅ : Finmap _).insert (.ofLastByte 9) (namedProduct "BTC/USD" [.ofLastByte 1, .ofLastByte 2]),
    ∅⟩

/-- A local update for price `2`. -/
def btcLocal : Finmap (fun _ : Identifier => natValues.PriceInfo) :=
  (∅ : Finmap _).insert (Identifier.new (Pubkey.ofLastByte 2).toBytes) (1690000100 : Nat)

/-- A confirmed price for price `1`. -/
def btcData : AllAccountsData natValues :=
  ⟨∅, (∅ : Finmap _).insert (.ofLastByte 1) (6450000 : Nat)⟩

/-- `buildDashboardData_prices` on one product whose prices are confirmed and local. -/
theorem buildDashboardData_prices_btc :
    NoSharedPriceKeys btcMetadata ∧
    ∃ v, (buildDashboardData btcLocal btcData btcMetadata [.ofLastByte 9]).1.lookup "BTC/USD" =
        some v ∧
      ∃ m, btcMetadata.productAccountsMetadata.lookup v.product = some m ∧
        (∀ k, k ∈ v.prices ↔ k ∈ m.priceAccounts) ∧
        ∀ k pv, v.prices.lookup k = some pv →
          pv.globalData = btcData.priceAccounts.lookup k ∧
          pv.globalMetadata = btcMetadata.priceAccountsMetadata.lookup k ∧
          pv.localData = btcLocal.lookup (Identifier.new k.toBytes) := by
  have hshared : NoSharedPriceKeys btcMetadata := fun _ _ _ _ _ h₁ h₂ _ _ =>
    (lookup_insert_empty_eq_some h₁).1.trans (lookup_insert_empty_eq_some h₂).1.symm
  obtain ⟨v, hv⟩ : ∃ v,
      (buildDashboardData btcLocal btcData btcMetadata [.ofLastByte 9]).1.lookup "BTC/USD" =
        some v := ⟨_, rfl⟩
  exact ⟨hshared, v, hv, buildDashboardData_prices _ _ _ _ hshared _ v hv⟩

/-- With distinct symbol names and no shared price key with an entry, the report holds one
view per key of `order` that has metadata, under the product's symbol name, with the starting
views of its prices, and nothing else. -/
theorem lookup_buildDashboardData (localData : Finmap (fun _ : Identifier => V.PriceInfo))
    (globalData : AllAccountsData V) (globalMetadata : AllAccountsMetadata V)
    (order : List Pubkey) (hnames : DistinctSymbolNames globalMetadata)
    (hshared : NoSharedPriceEntries localData globalData globalMetadata) (n : String)
    (v : DashboardSymbolView V) :
    (buildDashboardData localData globalData globalMetadata order).1.lookup n = some v ↔
      ∃ m, globalMetadata.productAccountsMetadata.lookup v.product = some m ∧
        v.product ∈ order ∧ symbolName v.product m = n ∧
        v.prices = pricesOf (BuildState.init localData globalData globalMetadata) m := by
  rw [buildDashboardData_fst, reportExact_foldl hnames hshared.viewsUnshared order
    (faithful_init _ rfl) (reportExact_init rfl) n v]
  refine exists_congr fun m => and_congr_right fun hm => and_congr_left fun _ => ?_
  rw [lookup_foldl_processProduct_productAccountsMetadata]
  by_cases h : v.product ∈ order
  · simp [h]
  · simp only [h, if_false, iff_false]
    exact fun hnone => Option.some_ne_none m (hm.symm.trans hnone)

/-- Two products, `A` and `B`, that both list the price key `1`. -/
def sharedPriceMetadata : AllAccountsMetadata natValues :=
  ⟨((∅ : Finmap _).insert (.ofLastByte 8) (namedProduct "A" [.ofLastByte 1])).insert
    (.ofLastByte 9) (namedProduct "B" [.ofLastByte 1]), ∅⟩

theorem sharedPriceMetadata_distinctSymbolNames : DistinctSymbolNames sharedPriceMetadata :=
  fun p₁ p₂ m₁ m₂ h₁ h₂ hn => by
    rcases lookup_insert_insert_eq_some h₁ with ⟨rfl, rfl⟩ | ⟨rfl, rfl⟩ <;>
      rcases lookup_insert_insert_eq_some h₂ with ⟨rfl, rfl⟩ | ⟨rfl, rfl⟩ <;>
      first | rfl | exact absurd hn (by decide)

/-- The confirmed entry that the view of `A` shows for price `1`. -/
def confirmedPriceOfA (report : Report natValues) : Option (Option Nat) :=
  ((report.lookup "A").bind (·.prices.lookup (.ofLastByte 1))).map (·.globalData)

/-- Two products with distinct names that share a price key: the product that comes first
takes the key's entries, so the two orders give different reports. -/
theorem buildDashboardData_order_dependent :
    DistinctSymbolNames sharedPriceMetadata ∧
    IsIterationOrder sharedPriceMetadata [.ofLastByte 8, .ofLastByte 9] ∧
    IsIterationOrder sharedPriceMetadata [.ofLastByte 9, .ofLastByte 8] ∧
    (buildDashboardData ∅ btcData sharedPriceMetadata [.ofLastByte 8, .ofLastByte 9]).1 ≠
      (buildDashboardData ∅ btcData sharedPriceMetadata [.ofLastByte 9, .ofLastByte 8]).1 :=
  ⟨sharedPriceMetadata_distinctSymbolNames, by decide, by decide,
    fun h => absurd (congrArg confirmedPriceOfA h) (by decide)⟩

/-- With distinct symbol names, and no price key with a confirmed, metadata or local entry
listed by two products, `build_dashboard_data` returns the same report for any two iteration
orders of the product keys. -/
theorem buildDashboardData_order_independent
    (localData : Finmap (fun _ : Identifier => V.PriceInfo)) (globalData : AllAccountsData V)
    (globalMetadata : AllAccountsMetadata V) (hnames : DistinctSymbolNames globalMetadata)
    (hshared : NoSharedPriceEntries localData globalData globalMetadata)
    (order₁ order₂ : List Pubkey)
    (h₁ : IsIterationOrder globalMetadata order₁) (h₂ : IsIterationOrder globalMetadata order₂) :
    (buildDashboardData localData globalData globalMetadata order₁).1 =
      (buildDashboardData localData globalData globalMetadata order₂).1 := by
  have hmem : ∀ k, k ∈ order₁ ↔ k ∈ order₂ := fun k => by
    rw [← Multiset.mem_coe, h₁, ← h₂, Multiset.mem_coe]
  refine Finmap.ext_lookup fun n => Option.ext fun v => ?_
  rw [Option.mem_def, Option.mem_def, lookup_buildDashboardData _ _ _ _ hnames hshared,
    lookup_buildDashboardData _ _ _ _ hnames hshared, hmem]

/-- `buildDashboardData_order_independent` on the two products that share the price key `1`,
with empty snapshots: the shared key has no entry, so both orders give the same report. -/
theorem buildDashboardData_order_independent_unpriced_shared_key :
    DistinctSymbolNames sharedPriceMetadata ∧
    NoSharedPriceEntries (V := natValues) ∅ ⟨∅, ∅⟩ sharedPriceMetadata ∧
    IsIterationOrder sharedPriceMetadata [.ofLastByte 8, .ofLastByte 9] ∧
    IsIterationOrder sharedPriceMetadata [.ofLastByte 9, .ofLastByte 8] ∧
    (buildDashboardData ∅ ⟨∅, ∅⟩ sharedPriceMetadata [.ofLastByte 8, .ofLastByte 9]).1 =
      (buildDashboardData ∅ ⟨∅, ∅⟩ sharedPriceMetadata [.ofLastByte 9, .ofLastByte 8]).1 := by
  have hshared : NoSharedPriceEntries (V := natValues) ∅ ⟨∅, ∅⟩ sharedPriceMetadata :=
    fun _ _ _ _ _ _ _ _ _ hentry => by simp [sharedPriceMetadata, Finmap.not_mem_empty] at hentry
  have h₁ : IsIterationOrder sharedPriceMetadata [.ofLastByte 8, .ofLastByte 9] := by decide
  have h₂ : IsIterationOrder sharedPriceMetadata [.ofLastByte 9, .ofLastByte 8] := by decide
  exact ⟨sharedPriceMetadata_distinctSymbolNames, hshared, h₁, h₂,
    buildDashboardData_order_independent _ _ _ sharedPriceMetadata_distinctSymbolNames hshared _ _
      h₁ h₂⟩

end PythAgent.Dashboard
