import PythAgent.Solana.Pipeline
import PythAgent.Proofs.Oracle.Handlers

/-!
# `PythAgent.Proofs.Oracle.Updates`: between polls, the last update of a known price key wins

The subscriber forwards every change of an account that the oracle program owns. The oracle
keeps only changes of price keys it already knows, and only those whose data decodes as a
price account (`handle_account_update`, `oracle.rs:281-307`). Over a whole run of updates
with no poll tick among them:

* `run_accountUpdates_lastWriterWins`: each known price key holds the price account of its
  last update whose data decodes, or what it held before if there is none, and no other key
  gains an entry. The global store is sent one `PriceAccountUpdate` per such update, in the
  order of the updates, whether the store takes it or not.
-/

set_option autoImplicit false

namespace PythAgent.Solana

open PythSdk (PriceAccount loadPriceAccount)

/-- The event in which the oracle handles an update. -/
def Event.ofUpdate (update : AccountUpdate) : Event := .accountUpdate update.1 update.2

/-- An update is handled by `runStep` at once: the oracle never stalls in one. -/
theorem run_ofUpdate_isSome (remote : Remote) :
    ∀ (updates : List AccountUpdate) (s : Oracle),
      (run remote (updates.map Event.ofUpdate) s).isSome
  | [], _ => rfl
  | update :: updates, s => by
    rw [List.map_cons, run, List.foldlM_cons, Event.ofUpdate, runStep_accountUpdate]
    exact run_ofUpdate_isSome remote updates _

/-- The price account that an update carries for `k`, if it is an update of `k` whose data
decodes. -/
def priceFor (k : Pubkey) (update : AccountUpdate) : Option PriceAccount :=
  if update.1 = k then loadPriceAccount update.2.data else none

/-- The price account of the last update of `k` whose data decodes. -/
def lastPrice (k : Pubkey) (updates : List AccountUpdate) : Option PriceAccount :=
  updates.reverse.findSome? (priceFor k)

/-- The messages that `handle_price_account_update` sends for `updates` when the known price
keys are those of `known`: one for each update of a known key whose data decodes. -/
def priceAccountUpdates (known : AccountMap PriceAccount) (updates : List AccountUpdate) :
    List Update :=
  updates.filterMap fun update =>
    if update.1 ∈ known then (loadPriceAccount update.2.data).map (.priceAccountUpdate update.1)
    else none

theorem lastPrice_cons (k : Pubkey) (update : AccountUpdate) (updates : List AccountUpdate) :
    lastPrice k (update :: updates) = (lastPrice k updates).or (priceFor k update) := by
  rw [lastPrice, lastPrice, List.reverse_cons, List.findSome?_append, List.findSome?_cons]
  cases priceFor k update <;> rfl

theorem priceAccountUpdates_congr {known known' : AccountMap PriceAccount}
    (h : ∀ k, k ∈ known' ↔ k ∈ known) (updates : List AccountUpdate) :
    priceAccountUpdates known' updates = priceAccountUpdates known updates := by
  unfold priceAccountUpdates
  simp only [h]

/-- A run of account updates acts on `price_accounts` as one last-writer-wins register per
known key, and sends the global store exactly the updates it takes, in order. -/
theorem run_accountUpdates_lastWriterWins (remote : Remote) :
    ∀ (updates : List AccountUpdate) (s s' : Oracle),
      run remote (updates.map Event.ofUpdate) s = some s' →
      (∀ k, s'.data.priceAccounts.lookup k =
        if k ∈ s.data.priceAccounts then (lastPrice k updates).or (s.data.priceAccounts.lookup k)
        else none) ∧
      s'.sent = s.sent ++ priceAccountUpdates s.data.priceAccounts updates
  | [], s, s', h => by
    cases h
    refine ⟨fun k => ?_, (List.append_nil _).symm⟩
    split_ifs with hk
    · rfl
    · exact AList.lookup_eq_none.mpr hk
  | update :: updates, s, s', h => by
    rw [List.map_cons, run, List.foldlM_cons, Event.ofUpdate, runStep_accountUpdate] at h
    obtain ⟨hlookup, hsent⟩ := run_accountUpdates_lastWriterWins remote updates _ s' h
    obtain ⟨-, -, hkeys⟩ := handleAccountUpdate_sameKeys remote update.1 update.2 s
    rw [priceAccountUpdates_congr hkeys] at hsent
    rcases handleAccountUpdate_final remote update.1 update.2 s with ⟨hnot, hs⟩ | ⟨v, hk, hv, hs⟩
    · have hload : update.1 ∈ s.data.priceAccounts → loadPriceAccount update.2.data = none :=
        fun hk => Option.eq_none_iff_forall_not_mem.mpr fun v hv => hnot ⟨hk, v, hv⟩
      rw [hs] at hlookup hsent
      refine ⟨fun k => ?_, ?_⟩
      · rw [hlookup, lastPrice_cons, priceFor]
        split_ifs with hk hkey
        · subst hkey
          rw [hload hk, Option.or_none]
        · rw [Option.or_none]
        · rfl
      · unfold priceAccountUpdates at hsent ⊢
        rw [hsent, List.filterMap_cons]
        split_ifs with hk
        · rw [hload hk]
          rfl
        · rfl
    · rw [hs] at hlookup hsent
      refine ⟨fun k => ?_, ?_⟩
      · rw [hlookup, lastPrice_cons, priceFor]
        by_cases hkey : k = update.1
        · subst hkey
          simp [hk, hv, Option.or_assoc]
        · simp [hkey, Ne.symm hkey, AList.lookup_insert_ne hkey]
      · unfold priceAccountUpdates at hsent ⊢
        rw [hsent, List.filterMap_cons, if_pos hk, hv]
        simp

/-- Updates after a poll of the one-product ledger: its price key `3` gets a price account and
then data that does not decode, and the unknown key `9` gets a price account. -/
def priceKeyUpdates : List AccountUpdate :=
  [(.ofLastByte 3, ⟨.price ⟨.ofLastByte 7⟩⟩), (.ofLastByte 3, ⟨.other⟩),
    (.ofLastByte 9, ⟨.price ⟨.ofLastByte 8⟩⟩)]

/-- `run_accountUpdates_lastWriterWins` for `priceKeyUpdates` after a poll of the one-product
ledger. -/
theorem run_accountUpdates_lastWriterWins_after_poll :
    ∃ s s', run oneProductRemote [.pollTick 1] (Oracle.new ⟨.ofLastByte 1⟩) = some s ∧
      run oneProductRemote (priceKeyUpdates.map Event.ofUpdate) s = some s' ∧
      (∀ k, s'.data.priceAccounts.lookup k =
        if k ∈ s.data.priceAccounts then
          (lastPrice k priceKeyUpdates).or (s.data.priceAccounts.lookup k)
        else none) ∧
      s'.sent = s.sent ++ priceAccountUpdates s.data.priceAccounts priceKeyUpdates :=
  have ⟨s, hpoll, _⟩ := poll_oneProductRemote_ok
  have ⟨s', hrun⟩ :=
    Option.isSome_iff_exists.mp (run_ofUpdate_isSome oneProductRemote priceKeyUpdates s)
  ⟨s, s', run_cons_pollTick hpoll [], hrun,
    run_accountUpdates_lastWriterWins oneProductRemote priceKeyUpdates s s' hrun⟩

end PythAgent.Solana
