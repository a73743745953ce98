import PythAgent.Proofs.Dashboard.Report

/-!
# `PythAgent.Proofs.Dashboard.IterationOrder`: the product loop over the product-key set

The product keys the loop visits are the keys of the metadata (`IsIterationOrder`), each
once, and the loop removes only the metadata of the key it visits. So every key still has
its metadata when the loop reaches it. `LoopAccount` says what the loop has then done after
each visit: the report holds one entry per visited product at most, under the product's
symbol name or that name with ` (duplicate)`; every warning is a renamed duplicate; and the
visited product and its listed price keys are gone from `remaining_product_keys` and
`all_price_keys_dedup`.

* `buildDashboardData_entries`: every entry of the report is a product's, under one of its
  names, and no product has two entries. This is the part of a bijection between entries
  and products that holds; a renamed product can overwrite another's entry.
* `buildDashboardData_warnings`: the warnings are renamed duplicates, then the orphan
  warning exactly when some price key of the snapshots is listed by no product. Its set of
  product keys is always empty, and its set of price keys is exactly those unlisted keys.
  The warning for a product without metadata never comes.
-/

set_option autoImplicit false

namespace PythAgent.Dashboard

variable {V : ValueTypes}

/-- The warning of a renamed duplicate. -/
def Warning.IsDuplicate : Warning V → Prop
  | .duplicateSymbolName .. => True
  | _ => False

theorem IsIterationOrder.nodup {globalMetadata : AllAccountsMetadata V} {order : List Pubkey}
    (h : IsIterationOrder globalMetadata order) : order.Nodup :=
  Multiset.coe_nodup.mp (h ▸ globalMetadata.productAccountsMetadata.keys.nodup)

theorem IsIterationOrder.mem_iff {globalMetadata : AllAccountsMetadata V} {order : List Pubkey}
    (h : IsIterationOrder globalMetadata order) (p : Pubkey) :
    p ∈ order ↔ (globalMetadata.productAccountsMetadata.lookup p).isSome := by
  rw [Finmap.lookup_isSome, ← Finmap.mem_keys, ← Finset.mem_val, ← h, Multiset.mem_coe]

/-- A name the loop may insert the view of product `p` under: its symbol name, or that name
with ` (duplicate)`. -/
def IsReportName (n : String) (p : Pubkey) (m : ProductAccountMetadata) : Prop :=
  n = symbolName p m ∨ n = symbolName p m ++ " (duplicate)"

theorem insertedName_isReportName (st : BuildState V) (p : Pubkey) (m : ProductAccountMetadata) :
    IsReportName (insertedName st (symbolName p m)) p m := by
  unfold insertedName
  split
  · exact .inr rfl
  · exact .inl rfl

theorem lookup_insert_eq_some {α β : Type} [DecidableEq α] {s : Finmap (fun _ : α => β)}
    {a x : α} {b c : β} :
    (s.insert a b).lookup x = some c ↔ (x = a ∧ c = b) ∨ (x ≠ a ∧ s.lookup x = some c) := by
  by_cases hx : x = a
  · subst hx
    simp [eq_comm]
  · simp [hx, Finmap.lookup_insert_of_ne _ hx]

section Account
variable (st₀ : BuildState V)

/-- What the product loop has done to the report, the warnings and the two key sets once it
has visited the keys `done`, each once and each with its metadata. -/
structure LoopAccount (done : List Pubkey) (st : BuildState V) : Prop where
  /-- The metadata of exactly the visited keys is gone. -/
  metadata : ∀ q, st.globalMetadata.productAccountsMetadata.lookup q =
    if q ∈ done then none else st₀.globalMetadata.productAccountsMetadata.lookup q
  /-- Every warning so far is a renamed duplicate. -/
  duplicates : ∀ w ∈ st.warnings, w.IsDuplicate
  /-- The visited keys are gone from the remaining product keys. -/
  remaining : ∀ q, q ∈ st.remainingProductKeys ↔ q ∈ st₀.remainingProductKeys ∧ q ∉ done
  /-- The price keys that a visited product lists are gone from the price keys. -/
  prices : ∀ k, k ∈ st.allPriceKeysDedup ↔ k ∈ st₀.allPriceKeysDedup ∧
    ∀ p ∈ done, ∀ m, st₀.globalMetadata.productAccountsMetadata.lookup p = some m →
      k ∉ m.priceAccounts
  /-- Each view of the report is a visited product's, under one of its names. -/
  names : ∀ n v, st.ret.lookup n = some v → v.product ∈ done ∧
    ∃ m, st₀.globalMetadata.productAccountsMetadata.lookup v.product = some m ∧
      IsReportName n v.product m
  /-- No product has two views in the report. -/
  injective : ∀ n₁ n₂ v₁ v₂, st.ret.lookup n₁ = some v₁ → st.ret.lookup n₂ = some v₂ →
    v₁.product = v₂.product → n₁ = n₂

theorem loopAccount_init (hret : st₀.ret = ∅) (hwarnings : st₀.warnings = []) :
    LoopAccount st₀ [] st₀ where
  metadata _ := rfl
  duplicates _ hw := by simp [hwarnings] at hw
  remaining _ := by simp
  prices _ := by simp
  names _ _ hv := by simp [hret] at hv
  injective _ _ _ _ hv := by simp [hret] at hv

variable {st₀}

/-- A visit of a key with metadata keeps `LoopAccount`. -/
theorem loopAccount_step {done : List Pubkey} {st : BuildState V} (hst : LoopAccount st₀ done st)
    {p : Pubkey} (hp : p ∉ done) {m : ProductAccountMetadata}
    (hm : st₀.globalMetadata.productAccountsMetadata.lookup p = some m) :
    LoopAccount st₀ (done ++ [p]) (processProduct st p) := by
  have hcur : st.globalMetadata.productAccountsMetadata.lookup p = some m := by
    rw [hst.metadata, if_neg hp, hm]
  refine ⟨fun q => ?_, fun w hw => ?_, fun q => ?_, fun k => ?_, fun n v hv => ?_,
    fun n₁ n₂ v₁ v₂ h₁ h₂ hprod => ?_⟩
  · rw [lookup_processProduct_productAccountsMetadata, hst.metadata]
    by_cases hq : q = p <;> simp [hq]
  all_goals rw [processProduct_some st p m hcur] at *
  · rw [insertSymbolView_warnings, afterPrices_warnings, List.mem_append] at hw
    rcases hw with hw | hw
    · exact hst.duplicates w hw
    · split at hw
      · rw [List.mem_singleton.mp hw]
        trivial
      · cases hw
  · rw [insertSymbolView_remainingProductKeys, afterPrices_remainingProductKeys, Finset.mem_erase,
      hst.remaining, List.mem_append, List.mem_singleton]
    tauto
  · rw [insertSymbolView_allPriceKeysDedup, afterPrices_allPriceKeysDedup, hst.prices]
    simp only [List.mem_append, List.mem_singleton, forall_eq_or_imp, or_imp, forall_and,
      forall_eq, hm, Option.some.injEq, forall_eq', and_assoc]
  · rw [insertSymbolView_ret, afterPrices_ret, lookup_insert_eq_some] at hv
    rcases hv with ⟨rfl, rfl⟩ | ⟨-, hv⟩
    · exact ⟨List.mem_append_right _ (List.mem_singleton_self p), m, hm,
        insertedName_isReportName _ p m⟩
    · obtain ⟨hdone, hname⟩ := hst.names n v hv
      exact ⟨List.mem_append_left _ hdone, hname⟩
  · rw [insertSymbolView_ret, afterPrices_ret, lookup_insert_eq_some] at h₁ h₂
    rcases h₁ with ⟨rfl, rfl⟩ | ⟨-, h₁⟩ <;> rcases h₂ with ⟨rfl, rfl⟩ | ⟨-, h₂⟩
    · rfl
    · exact absurd (hst.names _ _ h₂).1 (by rw [← hprod]; exact hp)
    · exact absurd (hst.names _ _ h₁).1 (by rw [hprod]; exact hp)
    · exact hst.injective n₁ n₂ v₁ v₂ h₁ h₂ hprod

/-- The loop over keys visited once each, all with metadata, keeps `LoopAccount`. -/
theorem loopAccount_foldl (ps : List Pubkey) {done : List Pubkey} {st : BuildState V}
    (hnodup : (done ++ ps).Nodup)
    (hmeta : ∀ p ∈ ps, (st₀.globalMetadata.productAccountsMetadata.lookup p).isSome)
    (hst : LoopAccount st₀ done st) : LoopAccount st₀ (done ++ ps) (ps.foldl processProduct st) := by
  induction ps generalizing done st with
  | nil => simpa using hst
  | cons p ps ih =>
    obtain ⟨m, hm⟩ := Option.isSome_iff_exists.mp (hmeta p (List.mem_cons_self p ps))
    have hp : p ∉ done := fun h => (List.nodup_append.mp hnodup).2.2 h (List.mem_cons_self p ps)
    rw [List.foldl_cons, ← List.singleton_append, ← List.append_assoc]
    exact ih (by simpa using hnodup) (fun q hq => hmeta q (List.mem_cons_of_mem p hq))
      (loopAccount_step hst hp hm)

/-- The product loop of `build_dashboard_data` over an iteration order. -/
theorem loopAccount_buildDashboardData (localData : Finmap (fun _ : Identifier => V.PriceInfo))
    (globalData : AllAccountsData V) (globalMetadata : AllAccountsMetadata V)
    {order : List Pubkey} (horder : IsIterationOrder globalMetadata order) :
    LoopAccount (BuildState.init localData globalData globalMetadata) order
      (order.foldl processProduct (BuildState.init localData globalData globalMetadata)) := by
  simpa using loopAccount_foldl order (by simpa using horder.nodup)
    (fun p hp => (horder.mem_iff p).mp hp)
    (loopAccount_init (BuildState.init localData globalData globalMetadata) rfl rfl)

end Account

/-- For an iteration order of the product keys, the warnings of `build_dashboard_data` are
renamed duplicates, then one orphan warning exactly when some price key of the snapshots (a
confirmed price, a price with metadata, or a local identifier read as a key) is listed by no
product. That warning names no product key, and names exactly the unlisted price keys. The
warning for a product without metadata never comes. -/
theorem buildDashboardData_warnings (localData : Finmap (fun _ : Identifier => V.PriceInfo))
    (globalData : AllAccountsData V) (globalMetadata : AllAccountsMetadata V)
    (order : List Pubkey) (horder : IsIterationOrder globalMetadata order) :
    ∃ dups unlisted, (buildDashboardData localData globalData globalMetadata order).2 =
        dups ++ (if unlisted = ∅ then [] else [.orphanedIds ∅ unlisted]) ∧
      (∀ w ∈ dups, w.IsDuplicate) ∧
      ∀ k, k ∈ unlisted ↔
        (k ∈ globalData.priceAccounts ∨ k ∈ globalMetadata.priceAccountsMetadata ∨
          Identifier.new k.toBytes ∈ localData) ∧
        ∀ p m, globalMetadata.productAccountsMetadata.lookup p = some m → k ∉ m.priceAccounts := by
  have hacc := loopAccount_buildDashboardData localData globalData globalMetadata horder
  unfold buildDashboardData
  dsimp only
  generalize order.foldl processProduct (BuildState.init localData globalData globalMetadata) = st
    at hacc ⊢
  have hremaining : st.remainingProductKeys = ∅ := Finset.eq_empty_of_forall_not_mem fun q hq => by
    obtain ⟨hq, hnot⟩ := (hacc.remaining q).mp hq
    exact hnot ((horder.mem_iff q).mpr (Finmap.lookup_isSome.mpr (Finmap.mem_keys.mp hq)))
  refine ⟨st.warnings, st.allPriceKeysDedup, ?_, hacc.duplicates, fun k => ?_⟩
  · simp only [hremaining, and_true]
    split <;> simp [*]
  · rw [hacc.prices]
    refine and_congr ?_ ⟨fun h p m hm => h p ((horder.mem_iff p).mpr (by simp [hm])) m hm,
      fun h p _ m hm => h p m hm⟩
    simp only [BuildState.init, Finset.mem_union, Finmap.mem_keys, Finset.mem_image, or_assoc]
    refine or_congr_right (or_congr_right ⟨?_, fun h => ⟨_, h, rfl⟩⟩)
    rintro ⟨id, hid, rfl⟩
    simpa using hid

/-- A confirmed price `5` that no product lists. -/
def orphanData : AllAccountsData natValues :=
  ⟨∅, ((∅ : Finmap _).insert (.ofLastByte 1) (6450000 : Nat)).insert (.ofLastByte 5) (0 : Nat)⟩

/-- `buildDashboardData_warnings` on the `BTC/USD` product and an unlisted confirmed price. -/
theorem buildDashboardData_warnings_orphan :
    IsIterationOrder btcMetadata [.ofLastByte 9] ∧
    ∃ dups unlisted, (buildDashboardData btcLocal orphanData btcMetadata [.ofLastByte 9]).2 =
        dups ++ (if unlisted = ∅ then [] else [.orphanedIds ∅ unlisted]) ∧
      (∀ w ∈ dups, w.IsDuplicate) ∧
      ∀ k, k ∈ unlisted ↔
        (k ∈ orphanData.priceAccounts ∨ k ∈ btcMetadata.priceAccountsMetadata ∨
          Identifier.new k.toBytes ∈ btcLocal) ∧
        ∀ p m, btcMetadata.productAccountsMetadata.lookup p = some m → k ∉ m.priceAccounts :=
  ⟨by decide, buildDashboardData_warnings _ _ _ _ (by decide)⟩

/-- For an iteration order of the product keys, each entry of the report of
`build_dashboard_data` holds the view of a product of the metadata, under that product's
symbol name or under the name with ` (duplicate)`, and no product has two entries. A product
can still have none: a later product renamed to the same name overwrites its entry. -/
theorem buildDashboardData_entries (localData : Finmap (fun _ : Identifier => V.PriceInfo))
    (globalData : AllAccountsData V) (globalMetadata : AllAccountsMetadata V)
    (order : List Pubkey) (horder : IsIterationOrder globalMetadata order) :
    (∀ n v, (buildDashboardData localData globalData globalMetadata order).1.lookup n = some v →
      ∃ m, globalMetadata.productAccountsMetadata.lookup v.product = some m ∧
        IsReportName n v.product m) ∧
    ∀ n₁ n₂ v₁ v₂,
      (buildDashboardData localData globalData globalMetadata order).1.lookup n₁ = some v₁ →
      (buildDashboardData localData globalData globalMetadata order).1.lookup n₂ = some v₂ →
      v₁.product = v₂.product → n₁ = n₂ := by
  have hacc := loopAccount_buildDashboardData localData globalData globalMetadata horder
  rw [buildDashboardData_fst]
  exact ⟨fun n v hv => (hacc.names n v hv).2, hacc.injective⟩

/-- `buildDashboardData_entries` on the three products named `ETH/USD`. -/
theorem buildDashboardData_entries_three_same_symbol :
    IsIterationOrder threeEthMetadata [.ofLastByte 1, .ofLastByte 2, .ofLastByte 3] ∧
    (∀ n v, (buildDashboardData ∅ ⟨∅, ∅⟩ threeEthMetadata
        [.ofLastByte 1, .ofLastByte 2, .ofLastByte 3]).1.lookup n = some v →
      ∃ m, threeEthMetadata.productAccountsMetadata.lookup v.product = some m ∧
        IsReportName n v.product m) ∧
    ∀ n₁ n₂ v₁ v₂,
      (buildDashboardData ∅ ⟨∅, ∅⟩ threeEthMetadata
        [.ofLastByte 1, .ofLastByte 2, .ofLastByte 3]).1.lookup n₁ = some v₁ →
      (buildDashboardData ∅ ⟨∅, ∅⟩ threeEthMetadata
        [.ofLastByte 1, .ofLastByte 2, .ofLastByte 3]).1.lookup n₂ = some v₂ →
      v₁.product = v₂.product → n₁ = n₂ :=
  ⟨by decide, buildDashboardData_entries _ _ _ _ (by decide)⟩

end PythAgent.Dashboard
