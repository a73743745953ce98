import PythAgent.Solana.Oracle

/-!
# `PythAgent.Proofs.Oracle.Handlers`: what one event does

The equations of the two handlers of the oracle task, read off the `EStateM` code.

* `handleAccountUpdate_eq`: an update for a key outside `price_accounts` returns at once;
  for a known key, a rejected account is a `pythError` with the state untouched, and an
  accepted one is inserted and then sent.
* `handleAccountUpdate_final`: what an account update leaves, error or not: the state as it
  was, or the entry replaced and its message sent.
* `handleAccountUpdate_frame`: the frame of an account update. It changes `price_accounts`
  at most at its key, never changes the key set, and replaces the entry and sends one
  `PriceAccountUpdate` exactly when the key is known and the data decodes.
* `run_accountUpdates_sameKeys`: a run of account updates alone keeps the keys of the graph.
* `poll_eq`: `poll` is three fetches, each followed by its assignment, then
  `send_all_data_to_global_store`. An error in a fetch keeps the assignments before it.
  `poll_ok` and `poll_error` read it back for a poll that returns `Ok` and for one that fails.
* `poll_error_keeps_mapping_accounts`: so a poll whose product read fails leaves a new
  `mapping_accounts` behind.
* `poll_sent`: a poll that returns `Ok` has sent one `ProductAccountUpdate` per entry of the
  new `product_accounts`, then one `PriceAccountUpdate` per entry of the new
  `price_accounts`, and nothing else.

The worked inputs of the proofs use small ledgers. Their mapping accounts have the 640 slots
of the real table, so a poll of the one-product ledger makes 643 reads. It is run once
(`poll_oneProductRemote_ok`), and the examples of later modules start from its result.

The `EStateM` lemmas at the top run the monad one step at a time; the fetch functions are
never unfolded here (`Oracle.rpc` only moves the call count).
-/

set_option autoImplicit false

namespace PythAgent.Solana

open PythSdk (PriceAccount loadPriceAccount)

section EStateM
variable {ε σ α β : Type}

@[simp] theorem bind_apply (x : EStateM ε σ α) (f : α → EStateM ε σ β) (s : σ) :
    (x >>= f) s = match x s with
      | .ok a s' => f a s'
      | .error e s' => .error e s' := rfl

@[simp] theorem get_apply (s : σ) : (get : EStateM ε σ σ) s = .ok s s := rfl

@[simp] theorem pure_apply (a : α) (s : σ) : (pure a : EStateM ε σ α) s = .ok a s := rfl

@[simp] theorem modify_apply (f : σ → σ) (s : σ) :
    (modify f : EStateM ε σ PUnit) s = .ok ⟨⟩ (f s) := rfl

@[simp] theorem throw_apply (e : ε) (s : σ) : (throw e : EStateM ε σ α) s = .error e s := rfl

/-- A `do` step returned `Ok` exactly when its first action did and so did the rest. -/
theorem bind_eq_ok {x : EStateM ε σ α} {f : α → EStateM ε σ β} {s s' : σ} {b : β} :
    (x >>= f) s = .ok b s' ↔ ∃ a s₁, x s = .ok a s₁ ∧ f a s₁ = .ok b s' := by
  rw [bind_apply]
  cases x s <;> simp [and_assoc]

/-- A `do` step failed exactly when its first action did, or that returned `Ok` and the rest
failed. -/
theorem bind_eq_error {x : EStateM ε σ α} {f : α → EStateM ε σ β} {s s' : σ} {e : ε} :
    (x >>= f) s = .error e s' ↔ x s = .error e s' ∨ ∃ a s₁, x s = .ok a s₁ ∧ f a s₁ = .error e s' := by
  rw [bind_apply]
  cases x s <;> simp [and_assoc]

/-- A fold that failed failed in one of its steps, with the same error. -/
theorem foldlM_error_step {f : β → α → EStateM ε σ β} :
    ∀ {l : List α} {b : β} {s s' : σ} {e : ε}, l.foldlM f b s = .error e s' →
      ∃ a ∈ l, ∃ b₁ s₁ s₂, f b₁ a s₁ = .error e s₂
  | [], _, _, _, _, h => by cases h
  | x :: l, b, s, _, _, h => by
    rw [List.foldlM_cons, bind_eq_error] at h
    rcases h with h | ⟨b₁, s₁, -, h⟩
    · exact ⟨x, List.mem_cons_self _ _, b, s, _, h⟩
    · obtain ⟨a, ha, hstep⟩ := foldlM_error_step h
      exact ⟨a, List.mem_cons_of_mem _ ha, hstep⟩

/-- Every step of a fold that returned `Ok` returned `Ok`. -/
theorem foldlM_ok_step {f : β → α → EStateM ε σ β} :
    ∀ {l : List α} {b r : β} {s s' : σ}, l.foldlM f b s = .ok r s' →
      ∀ a ∈ l, ∃ b₁ s₁ b₂ s₂, f b₁ a s₁ = .ok b₂ s₂
  | [], _, _, _, _, _, a, ha => absurd ha (List.not_mem_nil a)
  | x :: l, b, _, s, _, h, a, ha => by
    rw [List.foldlM_cons, bind_eq_ok] at h
    obtain ⟨b₁, s₁, h₁, h₂⟩ := h
    rcases List.mem_cons.mp ha with rfl | ha
    · exact ⟨b, s, b₁, s₁, h₁⟩
    · exact foldlM_ok_step h₂ a ha

/-- The state a run ends in, with or without an error. -/
def finalState : EStateM.Result ε σ α → σ
  | .ok _ s => s
  | .error _ s => s

@[simp] theorem finalState_ok (a : α) (s : σ) : finalState (.ok a s : EStateM.Result ε σ α) = s :=
  rfl

@[simp] theorem finalState_error (e : ε) (s : σ) :
    finalState (.error e s : EStateM.Result ε σ α) = s := rfl

end EStateM

@[simp] theorem load_some {σ α : Type} (a : α) (s : σ) :
    (load (some a) : EStateM Error σ α) s = .ok a s := rfl

@[simp] theorem load_none {σ α : Type} (s : σ) :
    (load none : EStateM Error σ α) s = .error .pythError s := rfl

theorem load_eq_ok {σ α : Type} {o : Option α} {a : α} {s s' : σ} :
    (load o : EStateM Error σ α) s = .ok a s' ↔ o = some a ∧ s' = s := by
  cases o <;> simp [eq_comm]

theorem rpc_apply {α : Type} (m : RpcM α) (s : Oracle) :
    Oracle.rpc m s = match m s.rpcCalls with
      | .ok a calls => .ok a { s with rpcCalls := calls }
      | .error e calls => .error e { s with rpcCalls := calls } := rfl

/-- A send hands its message over, then answers from `storeAlive`. -/
theorem send_apply (remote : Remote) (update : Update) (message : String) (s : Oracle) :
    send remote update message s =
      if remote.storeAlive s.sent.length then .ok () { s with sent := s.sent ++ [update] }
      else .error (.notify message) { s with sent := s.sent ++ [update] } := rfl

@[simp] theorem finalState_send (remote : Remote) (update : Update) (message : String)
    (s : Oracle) : finalState (send remote update message s) = { s with sent := s.sent ++ [update] } := by
  rw [send_apply]
  split <;> rfl

/-- A loop of sends that returns `Ok` has handed over one message per element, in order. -/
theorem forM_send_ok {β : Type} (remote : Remote) (f : β → Update) (message : String) :
    ∀ (l : List β) (s s' : Oracle), (l.forM fun b => send remote (f b) message) s = .ok () s' →
      s' = { s with sent := s.sent ++ l.map f }
  | [], s, s', h => by
    simp only [List.forM, pure_apply, EStateM.Result.ok.injEq] at h
    simp [← h.2]
  | b :: l, s, s', h => by
    simp only [List.forM, bind_apply, send_apply] at h
    by_cases ha : remote.storeAlive s.sent.length
    · simp only [ha, if_true] at h
      rw [forM_send_ok remote f message l _ s' h]
      simp
    · simp [ha] at h

/-- `send_all_data_to_global_store` returning `Ok`: the products, then the prices, were
sent, one message per entry. -/
theorem sendAllDataToGlobalStore_ok (remote : Remote) (s s' : Oracle)
    (h : sendAllDataToGlobalStore remote s = .ok () s') :
    s' = { s with sent := s.sent ++
      s.data.productAccounts.entries.map (fun e => .productAccountUpdate e.1 e.2) ++
      s.data.priceAccounts.entries.map (fun e => .priceAccountUpdate e.1 e.2) } := by
  simp only [sendAllDataToGlobalStore, bind_apply, get_apply] at h
  split at h
  · rename_i s₁ h₁
    rw [forM_send_ok remote _ _ _ _ _ h, forM_send_ok remote _ _ _ _ _ h₁]
  · cases h

/-- `handle_account_update`, case by case. -/
theorem handleAccountUpdate_eq (remote : Remote) (accountKey : Pubkey) (account : Account)
    (s : Oracle) :
    handleAccountUpdate remote accountKey account s =
      if accountKey ∈ s.data.priceAccounts then
        match loadPriceAccount account.data with
        | some v => send remote (.priceAccountUpdate accountKey v)
            "failed to notify price account update"
            { s with data := { s.data with
              priceAccounts := s.data.priceAccounts.insert accountKey v } }
        | none => .error .pythError s
      else .ok () s := by
  unfold handleAccountUpdate handlePriceAccountUpdate notifyPriceAccountUpdate
  by_cases hk : accountKey ∈ s.data.priceAccounts
  · have hk' : accountKey ∈ s.data.priceAccounts.keys := hk
    cases loadPriceAccount account.data <;> simp [hk, hk']
  · have hk' : accountKey ∉ s.data.priceAccounts.keys := hk
    simp [hk, hk']

/-- What `handle_account_update` leaves, with or without an error: the state as it was, or,
when the key is known and the data decodes, the entry replaced and its message sent. -/
theorem handleAccountUpdate_final (remote : Remote) (accountKey : Pubkey) (account : Account)
    (s : Oracle) :
    (¬ (accountKey ∈ s.data.priceAccounts ∧ ∃ v, loadPriceAccount account.data = some v) ∧
      finalState (handleAccountUpdate remote accountKey account s) = s) ∨
    ∃ v, accountKey ∈ s.data.priceAccounts ∧ loadPriceAccount account.data = some v ∧
      finalState (handleAccountUpdate remote accountKey account s) =
        { s with
          data := { s.data with priceAccounts := s.data.priceAccounts.insert accountKey v }
          sent := s.sent ++ [.priceAccountUpdate accountKey v] } := by
  rw [handleAccountUpdate_eq]
  by_cases hk : accountKey ∈ s.data.priceAccounts
  · rw [if_pos hk]
    cases hv : loadPriceAccount account.data with
    | none => exact .inl ⟨by simp, rfl⟩
    | some v => exact .inr ⟨v, hk, rfl, finalState_send _ _ _ _⟩
  · exact .inl ⟨fun h => hk h.1, by simp [hk]⟩

/-- Two graphs with the same mapping accounts, the same products and the same price keys. -/
def Data.SameKeys (d d' : Data) : Prop :=
  d'.mappingAccounts = d.mappingAccounts ∧ d'.productAccounts = d.productAccounts ∧
    ∀ k, k ∈ d'.priceAccounts ↔ k ∈ d.priceAccounts

theorem Data.SameKeys.refl (d : Data) : d.SameKeys d := ⟨rfl, rfl, fun _ => Iff.rfl⟩

theorem Data.SameKeys.trans {d₁ d₂ d₃ : Data} (h₁ : d₁.SameKeys d₂) (h₂ : d₂.SameKeys d₃) :
    d₁.SameKeys d₃ :=
  ⟨h₂.1.trans h₁.1, h₂.2.1.trans h₁.2.1, fun k => (h₂.2.2 k).trans (h₁.2.2 k)⟩

/-- An account update keeps the keys of the graph: it replaces a price that is already there
or nothing. -/
theorem handleAccountUpdate_sameKeys (remote : Remote) (accountKey : Pubkey) (account : Account)
    (s : Oracle) : s.data.SameKeys (finalState (handleAccountUpdate remote accountKey account s)).data := by
  rcases handleAccountUpdate_final remote accountKey account s with ⟨-, hs⟩ | ⟨v, hk, -, hs⟩
  · rw [hs]
    exact .refl _
  · rw [hs]
    refine ⟨rfl, rfl, fun k => ?_⟩
    rw [AList.mem_insert]
    exact ⟨fun h => h.elim (· ▸ hk) id, Or.inr⟩

/-- The frame of `handle_account_update`. It keeps `mapping_accounts`, `product_accounts`
and the key set of `price_accounts`, and changes `price_accounts` at most at its key. It
replaces the entry at the key by the decoded account and sends the one message
`PriceAccountUpdate` for them exactly when the key is known and the data decodes;
otherwise it changes neither the graph nor the messages sent. -/
theorem handleAccountUpdate_frame (remote : Remote) (accountKey : Pubkey) (account : Account)
    (s : Oracle) :
    let s' := finalState (handleAccountUpdate remote accountKey account s)
    s'.data.mappingAccounts = s.data.mappingAccounts ∧
    s'.data.productAccounts = s.data.productAccounts ∧
    (∀ k, k ∈ s'.data.priceAccounts ↔ k ∈ s.data.priceAccounts) ∧
    (∀ k, k ≠ accountKey → s'.data.priceAccounts.lookup k = s.data.priceAccounts.lookup k) ∧
    ((∃ v, loadPriceAccount account.data = some v ∧
        s'.data.priceAccounts.lookup accountKey = some v ∧
        s'.sent = s.sent ++ [.priceAccountUpdate accountKey v]) ↔
      accountKey ∈ s.data.priceAccounts ∧ ∃ v, loadPriceAccount account.data = some v) ∧
    (¬ (accountKey ∈ s.data.priceAccounts ∧ ∃ v, loadPriceAccount account.data = some v) →
      s'.data = s.data ∧ s'.sent = s.sent) := by
  obtain ⟨hmapping, hproducts, hprices⟩ := handleAccountUpdate_sameKeys remote accountKey account s
  refine ⟨hmapping, hproducts, hprices, ?_⟩
  rcases handleAccountUpdate_final remote accountKey account s with ⟨hnot, hs⟩ | ⟨v, hk, hv, hs⟩ <;>
    rw [hs]
  · exact ⟨fun _ _ => rfl, ⟨fun ⟨_, _, _, hsent⟩ => absurd hsent (by simp), fun h => absurd h hnot⟩,
      fun _ => ⟨rfl, rfl⟩⟩
  · exact ⟨fun _ hne => AList.lookup_insert_ne hne, by simp [hk, hv],
      fun h => absurd ⟨hk, v, hv⟩ h⟩

/-- An account update returns at once: it has no walk to run out of fuel in. -/
theorem handleAccountUpdate_ne_outOfFuel (remote : Remote) (accountKey : Pubkey)
    (account : Account) (s s' : Oracle) :
    handleAccountUpdate remote accountKey account s ≠ .error .outOfFuel s' := by
  rw [handleAccountUpdate_eq]
  split_ifs
  · split
    · rw [send_apply]
      split_ifs <;> simp
    · simp
  · simp

/-- The loop of `Oracle::run` goes on after an account update, from the state it leaves. -/
theorem runStep_accountUpdate (remote : Remote) (s : Oracle) (accountKey : Pubkey)
    (account : Account) :
    runStep remote s (.accountUpdate accountKey account) =
      some (finalState (handleAccountUpdate remote accountKey account s)) := by
  simp only [runStep, handleNext]
  split
  · rename_i h
    rw [h]
    rfl
  · rename_i h
    exact absurd h (handleAccountUpdate_ne_outOfFuel _ _ _ _ _)
  · rename_i h
    rw [h]
    rfl

/-- `poll`: each fetch runs after the assignment of the one before, and an error keeps
what was assigned so far. -/
theorem poll_eq (remote : Remote) (fuel : Nat) (s : Oracle) :
    poll remote fuel s =
      match fetchMappingAccounts remote fuel s.config.mappingAccountKey s.rpcCalls with
      | .error e n => .error e { s with rpcCalls := n }
      | .ok m n => match fetchProductAccounts remote fuel m.values n with
        | .error e n => .error e
            { s with rpcCalls := n, data := { s.data with mappingAccounts := m } }
        | .ok p n => match fetchPriceAccounts remote p.values n with
          | .error e n => .error e
              { s with rpcCalls := n, data := { s.data with mappingAccounts := m, productAccounts := p } }
          | .ok q n => sendAllDataToGlobalStore remote
              { s with rpcCalls := n, data := ⟨m, p, q⟩ } := by
  simp only [poll, bind_apply, get_apply, rpc_apply, modify_apply]
  cases fetchMappingAccounts remote fuel s.config.mappingAccountKey s.rpcCalls with
  | error e n => rfl
  | ok m n =>
    dsimp only
    cases fetchProductAccounts remote fuel m.values n with
    | error e n => rfl
    | ok p n =>
      dsimp only
      cases fetchPriceAccounts remote p.values n <;> rfl

/-- A poll that returns `Ok` ran its three fetches to `Ok`, stored what they returned,
and then sent all data from the state so built. -/
theorem poll_ok {remote : Remote} {fuel : Nat} {s s' : Oracle}
    (h : poll remote fuel s = .ok () s') :
    ∃ m p q n₁ n₂ n₃,
      fetchMappingAccounts remote fuel s.config.mappingAccountKey s.rpcCalls = .ok m n₁ ∧
      fetchProductAccounts remote fuel m.values n₁ = .ok p n₂ ∧
      fetchPriceAccounts remote p.values n₂ = .ok q n₃ ∧
      sendAllDataToGlobalStore remote { s with rpcCalls := n₃, data := ⟨m, p, q⟩ } = .ok () s' := by
  rw [poll_eq] at h
  split at h
  · cases h
  · rename_i m n₁ h₁
    split at h
    · cases h
    · rename_i p n₂ h₂
      split at h
      · cases h
      · rename_i q n₃ h₃
        exact ⟨m, p, q, n₁, n₂, n₃, h₁, h₂, h₃, h⟩

/-- A poll that fails failed in its mapping walk, in `fetch_product_accounts` after the walk
returned, in `fetch_price_accounts` after both returned, or in a send after all three returned;
a fetch's error keeps the assignments before it. -/
theorem poll_error {remote : Remote} {fuel : Nat} {s s' : Oracle} {e : Error}
    (h : poll remote fuel s = .error e s') :
    (∃ n, fetchMappingAccounts remote fuel s.config.mappingAccountKey s.rpcCalls = .error e n ∧
      s' = { s with rpcCalls := n }) ∨
    ∃ m n₁, fetchMappingAccounts remote fuel s.config.mappingAccountKey s.rpcCalls = .ok m n₁ ∧
      ((∃ n, fetchProductAccounts remote fuel m.values n₁ = .error e n ∧
        s' = { s with rpcCalls := n, data := { s.data with mappingAccounts := m } }) ∨
      ∃ p n₂, fetchProductAccounts remote fuel m.values n₁ = .ok p n₂ ∧
        ((∃ n, fetchPriceAccounts remote p.values n₂ = .error e n ∧
          s' = { s with
            rpcCalls := n
            data := { s.data with mappingAccounts := m, productAccounts := p } }) ∨
        ∃ q n₃, fetchPriceAccounts remote p.values n₂ = .ok q n₃ ∧
          sendAllDataToGlobalStore remote { s with rpcCalls := n₃, data := ⟨m, p, q⟩ } =
            .error e s')) := by
  rw [poll_eq] at h
  split at h
  · rename_i n h₁
    cases h
    exact .inl ⟨n, h₁, rfl⟩
  · rename_i m n₁ h₁
    refine .inr ⟨m, n₁, h₁, ?_⟩
    split at h
    · rename_i n h₂
      cases h
      exact .inl ⟨n, h₂, rfl⟩
    · rename_i p n₂ h₂
      refine .inr ⟨p, n₂, h₂, ?_⟩
      split at h
      · rename_i n h₃
        cases h
        exact .inl ⟨n, h₃, rfl⟩
      · rename_i q n₃ h₃
        exact .inr ⟨q, n₃, h₃, h⟩

/-- A ledger whose root mapping account lists product `2` in its first slot, and where no
other key can be read. -/
def unreadableProductRemote : Remote where
  getAccountData _ key :=
    if key = .ofLastByte 1 then some (.mapping (.ofUsed default [.ofLastByte 2])) else none
  storeAlive _ := true

/-- A poll from the start state fails on the product read, and the mapping account it read
before stays in `mapping_accounts`, where there was none. -/
theorem poll_error_keeps_mapping_accounts :
    ∃ s', poll unreadableProductRemote 1 (Oracle.new ⟨.ofLastByte 1⟩) = .error .clientError s' ∧
      s'.sent = [] ∧
      s'.data.mappingAccounts.lookup (.ofLastByte 1) = some (.ofUsed default [.ofLastByte 2]) ∧
      (Oracle.new ⟨.ofLastByte 1⟩).data.mappingAccounts.lookup (.ofLastByte 1) = none :=
  ⟨_, rfl, rfl, rfl, rfl⟩

/-- A poll that returns `Ok` has sent exactly one `ProductAccountUpdate` per entry of the
rebuilt `product_accounts`, then one `PriceAccountUpdate` per entry of the rebuilt
`price_accounts`. -/
theorem poll_sent (remote : Remote) (fuel : Nat) (s s' : Oracle)
    (h : poll remote fuel s = .ok () s') :
    s'.sent = s.sent ++
      s'.data.productAccounts.entries.map (fun e => .productAccountUpdate e.1 e.2) ++
      s'.data.priceAccounts.entries.map (fun e => .priceAccountUpdate e.1 e.2) := by
  obtain ⟨_, _, _, _, _, _, -, -, -, hsend⟩ := poll_ok h
  rw [sendAllDataToGlobalStore_ok remote _ s' hsend]

/-- A ledger with one mapping account, one product and one price account. The mapping
account lists the product in the first of its 640 slots. The default key holds data that
decodes as a product account without prices, so the 639 unused slots read as products and a
poll can return `Ok` (`poll_reads_unused_slot`). -/
def oneProductRemote : Remote where
  getAccountData _ key :=
    if key = .ofLastByte 1 then some (.mapping (.ofUsed default [.ofLastByte 2]))
    else if key = .ofLastByte 2 then some (.product ⟨.ofLastByte 3⟩)
    else if key = .ofLastByte 3 then some (.price ⟨default⟩)
    else if key = default then some (.product ⟨default⟩)
    else none
  storeAlive _ := true

set_option maxRecDepth 20000 in
/-- The poll of the one-product ledger from `Oracle::new` returns `Ok`. It reads the mapping
account, the product and its price, the default key once per unused slot, and the price
again. It stores the mapping account at key `1` and the price at key `3`. -/
theorem poll_oneProductRemote_ok :
    ∃ s', poll oneProductRemote 1 (Oracle.new ⟨.ofLastByte 1⟩) = .ok () s' ∧
      s'.data.mappingAccounts.lookup (.ofLastByte 1) = some (.ofUsed default [.ofLastByte 2]) ∧
      .ofLastByte 3 ∈ s'.data.priceAccounts :=
  ⟨_, rfl, rfl, by decide⟩

/-- `poll_sent` on the one-product ledger. -/
theorem poll_sent_one_product :
    ∃ s', poll oneProductRemote 1 (Oracle.new ⟨.ofLastByte 1⟩) = .ok () s' ∧
      s'.sent = (Oracle.new ⟨.ofLastByte 1⟩).sent ++
        s'.data.productAccounts.entries.map (fun e => .productAccountUpdate e.1 e.2) ++
        s'.data.priceAccounts.entries.map (fun e => .priceAccountUpdate e.1 e.2) :=
  have ⟨s', h, _⟩ := poll_oneProductRemote_ok
  ⟨s', h, poll_sent _ _ _ _ h⟩

/-- The loop of `Oracle::run` goes on after a poll that returns `Ok`, from the state it
leaves. -/
theorem run_cons_pollTick {remote : Remote} {fuel : Nat} {s s' : Oracle}
    (h : poll remote fuel s = .ok () s') (events : List Event) :
    run remote (.pollTick fuel :: events) s = run remote events s' := by
  simp only [run, List.foldlM_cons, runStep, handleNext, h]
  rfl

/-- A run of account updates alone, from any state, keeps `mapping_accounts`,
`product_accounts` and the key set of `price_accounts`: only a poll adds or removes keys. -/
theorem run_accountUpdates_sameKeys (remote : Remote) :
    ∀ (events : List Event), (∀ e ∈ events, ∃ k a, e = .accountUpdate k a) →
      ∀ (s s' : Oracle), run remote events s = some s' → s.data.SameKeys s'.data
  | [], _, s, _, h => by
    cases h
    exact .refl s.data
  | e :: events, hevents, s, s', h => by
    obtain ⟨k, a, rfl⟩ := hevents e (List.mem_cons_self _ _)
    rw [run, List.foldlM_cons, runStep_accountUpdate] at h
    exact (handleAccountUpdate_sameKeys remote k a s).trans
      (run_accountUpdates_sameKeys remote events (fun e he => hevents e (List.mem_cons_of_mem _ he))
        _ s' h)

/-- `run_accountUpdates_sameKeys` after a poll of the one-product ledger, on an update of its
price key `3`, which the poll stored, and an update of the unknown key `9`. -/
theorem run_accountUpdates_sameKeys_after_poll :
    ∃ s s', poll oneProductRemote 1 (Oracle.new ⟨.ofLastByte 1⟩) = .ok () s ∧
      .ofLastByte 3 ∈ s.data.priceAccounts ∧
      run oneProductRemote [.accountUpdate (.ofLastByte 3) ⟨.price ⟨.ofLastByte 7⟩⟩,
        .accountUpdate (.ofLastByte 9) ⟨.other⟩] s = some s' ∧
      s.data.SameKeys s'.data := by
  obtain ⟨s, hpoll, -, hknown⟩ := poll_oneProductRemote_ok
  obtain ⟨s', hrun⟩ : ∃ s', run oneProductRemote [.accountUpdate (.ofLastByte 3)
      ⟨.price ⟨.ofLastByte 7⟩⟩, .accountUpdate (.ofLastByte 9) ⟨.other⟩] s = some s' :=
    ⟨_, by simp only [run, List.foldlM_cons, runStep_accountUpdate]; rfl⟩
  exact ⟨s, s', hpoll, hknown, hrun, run_accountUpdates_sameKeys oneProductRemote _
    (fun e he => by
      simp only [List.mem_cons, List.mem_singleton, List.not_mem_nil, or_false] at he
      rcases he with rfl | rfl <;> exact ⟨_, _, rfl⟩) _ _ hrun⟩

end PythAgent.Solana
