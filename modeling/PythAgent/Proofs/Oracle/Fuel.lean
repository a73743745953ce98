import PythAgent.Proofs.Oracle.Poll

/-!
# `PythAgent.Proofs.Oracle.Fuel`: more fuel, the same result

The model gives each poll tick fuel for its two `while` walks, and running out of fuel stands
for a walk that has not returned yet. `FuelMono` says of code that takes fuel that, unless it
ran out, one more unit of fuel gives the same result. It holds of `walkChain` by induction on
the fuel, and `bind`, `foldlM` and `Oracle.rpc` keep it, so it holds of `poll` on every
ledger, static or not.

* `FuelMono.le`: one unit at a time gives any amount more.
* `poll_ok_of_le`: a poll that returns `Ok` returns the same with any more fuel. Two ticks
  with different fuel that both return can so be compared at the larger one
  (`poll_data_static`).
-/

set_option autoImplicit false

namespace PythAgent.Solana

/-- Code that takes fuel returns, with one more unit of fuel, what it returned, unless it
had run out. -/
def FuelMono {σ α : Type} (m : Nat → EStateM Error σ α) : Prop :=
  ∀ fuel s, (∀ s', m fuel s ≠ .error .outOfFuel s') → m (fuel + 1) s = m fuel s

namespace FuelMono
variable {σ α β : Type}

theorem const (x : EStateM Error σ α) : FuelMono fun _ => x := fun _ _ _ => rfl

theorem bind {x : Nat → EStateM Error σ α} {f : Nat → α → EStateM Error σ β} (hx : FuelMono x)
    (hf : ∀ a, FuelMono fun fuel => f fuel a) : FuelMono fun fuel => x fuel >>= f fuel := by
  intro fuel s h
  simp only [bind_apply] at h ⊢
  cases hxs : x fuel s with
  | ok a s₁ =>
    rw [hxs] at h
    rw [hx fuel s (by rw [hxs]; nofun), hxs]
    exact hf a fuel s₁ h
  | error e s₁ =>
    rw [hxs] at h
    rw [hx fuel s fun s' he => h s' (by rw [hxs] at he; cases he; rfl), hxs]

theorem foldlM {f : Nat → β → α → EStateM Error σ β} (hf : ∀ b a, FuelMono fun fuel => f fuel b a) :
    ∀ (l : List α) (b : β), FuelMono fun fuel => l.foldlM (f fuel) b
  | [], b => const (pure b)
  | a :: l, b => by
    simp only [List.foldlM_cons]
    exact (hf b a).bind fun b' => foldlM hf l b'

/-- More fuel, by any amount. -/
theorem le {m : Nat → EStateM Error σ α} (hm : FuelMono m) {fuel fuel' : Nat} {s : σ}
    (hle : fuel ≤ fuel') (h : ∀ s', m fuel s ≠ .error .outOfFuel s') : m fuel' s = m fuel s := by
  obtain ⟨d, rfl⟩ := Nat.exists_eq_add_of_le hle
  induction d with
  | zero => rfl
  | succ d ih =>
    have hd := ih (Nat.le_add_right _ _)
    rw [← Nat.add_assoc, hm _ s (hd ▸ h), hd]

end FuelMono

theorem rpc_fuelMono {α : Type} {m : Nat → RpcM α} (hm : FuelMono m) :
    FuelMono fun fuel => Oracle.rpc (m fuel) := by
  intro fuel s h
  simp only [rpc_apply] at h ⊢
  rw [hm fuel s.rpcCalls fun n hn => h { s with rpcCalls := n } (by rw [hn])]

theorem walkChain_fuelMono {α : Type} (fetch : Pubkey → RpcM α) (next : α → Pubkey)
    (key : Pubkey) (accounts : AccountMap α) :
    FuelMono fun fuel => walkChain fetch next fuel key accounts := by
  intro fuel
  induction fuel generalizing key accounts with
  | zero =>
    intro s h
    dsimp only at h ⊢
    by_cases hkey : key = default
    · rw [hkey, walkChain_default, walkChain_default]
    · rw [walkChain_zero_of_ne hkey] at h
      exact absurd rfl (h s)
  | succ fuel ih =>
    intro s h
    dsimp only at h ⊢
    by_cases hkey : key = default
    · rw [hkey, walkChain_default, walkChain_default]
    rw [walkChain_succ_of_ne hkey, bind_apply] at h ⊢
    rw [walkChain_succ_of_ne hkey, bind_apply]
    cases hfetch : fetch key s with
    | ok a s₁ =>
      rw [hfetch] at h
      exact ih (next a) _ s₁ h
    | error e s₁ => rfl

section Fetches
variable (remote : Remote)

theorem fetchProductAccount_fuelMono (key : Pubkey) :
    FuelMono fun fuel => fetchProductAccount remote fuel key := by
  unfold fetchProductAccount
  exact (FuelMono.const _).bind fun _ => (FuelMono.const _).bind fun _ =>
    (walkChain_fuelMono _ _ _ _).bind fun _ => .const _

theorem fetchProductAccountsFromMappingAccount_fuelMono (mappingAccount : PythSdk.MappingAccount) :
    FuelMono fun fuel => fetchProductAccountsFromMappingAccount remote fuel mappingAccount := by
  unfold fetchProductAccountsFromMappingAccount fetchEach
  exact FuelMono.foldlM (fun (accounts : AccountMap ProductAccount) key =>
    (fetchProductAccount_fuelMono remote key).bind
      fun account => .const (pure (accounts.insert key account))) _ _

theorem fetchProductAccounts_fuelMono (mappingAccounts : List PythSdk.MappingAccount) :
    FuelMono fun fuel => fetchProductAccounts remote fuel mappingAccounts := by
  unfold fetchProductAccounts
  exact FuelMono.foldlM (fun (productAccounts : AccountMap ProductAccount) m =>
    (fetchProductAccountsFromMappingAccount_fuelMono remote m).bind
      fun found => .const (pure (productAccounts.extend found))) _ _

/-- A poll that has returned returns the same with more fuel, on every ledger. -/
theorem poll_fuelMono : FuelMono (poll remote) := by
  unfold poll
  exact (FuelMono.const _).bind fun _ => (rpc_fuelMono (walkChain_fuelMono _ _ _ _)).bind
    fun _ => (FuelMono.const _).bind fun _ => (FuelMono.const _).bind fun _ =>
      (rpc_fuelMono (fetchProductAccounts_fuelMono remote _)).bind fun _ => .const _

end Fetches

/-- A poll that returns `Ok` returns the same with any more fuel. -/
theorem poll_ok_of_le {remote : Remote} {fuel fuel' : Nat} {s s' : Oracle}
    (h : poll remote fuel s = .ok () s') (hle : fuel ≤ fuel') : poll remote fuel' s = .ok () s' :=
  ((poll_fuelMono remote).le hle fun _ he => by rw [h] at he; cases he).trans h

end PythAgent.Solana
