import Mathlib.Data.Finmap
import Mathlib.Data.List.Sort

/-!
# `PythAgent.Solana.Account`: keys and account layouts

The oracle reads Solana accounts through two libraries that are not in this repository:
`solana_sdk` (the 32-byte `Pubkey`, the `Account` record) and `pyth_sdk_solana::state` (the
mapping, product and price account layouts and their `load_*` functions). This module
models what `oracle.rs` and `dashboard.rs` use of them.

`Pubkey` and `Identifier` are both a `[u8; 32]`. `Pubkey::new_from_array` and
`Identifier::new` rewrap the array, so the dashboard's conversion between the two is a
byte reinterpretation (`Identifier.new_toBytes`).

The `load_*` functions check the account header (magic number, version, account type) and
then reinterpret the bytes. The account type is different for each layout, so a byte string
is accepted by at most one loader. `AccountData` keeps, of each byte string, the account it
decodes to, and `other` stands for every byte string that no loader accepts. Of each layout
the model keeps the fields that the oracle reads: `next` and `products` of a mapping account,
`px_acc` of a product account, and `next` of a price account. `products` is a table of
`MAP_TABLE_SIZE` slots whatever the number of products, and `MappingAccount` carries its
length, so no table of another size can be built.
-/

set_option autoImplicit false

namespace PythAgent

/-- A `[u8; 32]` array. -/
abbrev Bytes32 := { bytes : List UInt8 // bytes.length = 32 }

/-- `solana_sdk::pubkey::Pubkey`. -/
structure Pubkey where
  toBytes : Bytes32
deriving DecidableEq

/-- `Pubkey::new_from_array`. -/
def Pubkey.newFromArray (bytes : Bytes32) : Pubkey := ⟨bytes⟩

/-- `Pubkey::default()`, the all-zero key. The chains of the oracle end at it. -/
instance : Inhabited Pubkey := ⟨⟨⟨List.replicate 32 0, by simp⟩⟩⟩

/-- The derived `Ord` of `Pubkey`: lexicographic on the bytes. `BTreeSet` and `BTreeMap`
iterate in this order. -/
instance : LE Pubkey := ⟨fun a b => a.toBytes.1 ≤ b.toBytes.1⟩

instance : DecidableRel (α := Pubkey) (· ≤ ·) := fun a b =>
  inferInstanceAs (Decidable (a.toBytes.1 ≤ b.toBytes.1))

/-- The base58 digits of `n`, most significant first, at most `fuel` of them. -/
def base58Digits : Nat → Nat → List Nat
  | 0, _ => []
  | fuel + 1, n => if n = 0 then [] else base58Digits fuel (n / 58) ++ [n % 58]

/-- The alphabet of `bs58`. -/
def base58Alphabet : List Char :=
  "123456789ABCDEFGHJKLMNPQRSTUVWXYZabcdefghijkmnopqrstuvwxyz".toList

/-- `Display` of `Pubkey`: `bs58` of the bytes. Each leading zero byte is a `1`, and the rest
is the big-endian value of the bytes in base 58. Since `58 ^ 44 > 2 ^ 256`, 44 digits hold
every key. -/
def Pubkey.toString (key : Pubkey) : String :=
  let zeros := (key.toBytes.1.takeWhile (· == 0)).length
  let value := key.toBytes.1.foldl (fun acc b => acc * 256 + b.toNat) 0
  String.mk (List.replicate zeros '1' ++ (base58Digits 44 value).map (base58Alphabet.getD · '1'))

instance : ToString Pubkey := ⟨Pubkey.toString⟩

example : toString (default : Pubkey) = "11111111111111111111111111111111" := by decide

/-- The key whose last byte is `b` and whose other bytes are zero. The worked inputs of the
proofs use these keys. -/
def Pubkey.ofLastByte (b : UInt8) : Pubkey := ⟨⟨List.replicate 31 0 ++ [b], by simp⟩⟩

/-- `pyth_sdk::PriceIdentifier`, the key of the local store. -/
structure Identifier where
  toBytes : Bytes32
deriving DecidableEq

/-- `Identifier::new`. -/
def Identifier.new (bytes : Bytes32) : Identifier := ⟨bytes⟩

/-- A price key and the identifier with its bytes name each other. -/
@[simp] theorem Identifier.new_toBytes (key : Pubkey) :
    Pubkey.newFromArray (Identifier.new key.toBytes).toBytes = key := rfl

@[simp] theorem Pubkey.newFromArray_toBytes (id : Identifier) :
    Identifier.new (Pubkey.newFromArray id.toBytes).toBytes = id := rfl

namespace PythSdk

/-- `MAP_TABLE_SIZE`: the number of slots in the product table of a mapping account. -/
def mapTableSize : Nat := 640

/-- `pyth_sdk_solana::state::MappingAccount`: a node of the mapping chain. `products` is
the fixed table `[Pubkey; MAP_TABLE_SIZE]` of product keys; its unused slots hold
`Pubkey::default()`. -/
structure MappingAccount where
  next : Pubkey
  products : List Pubkey
  products_length : products.length = mapTableSize
deriving DecidableEq

/-- The mapping account whose table holds `used` in its first slots and `Pubkey::default()`
in the others, as a mapping account with `used.length` products is laid out. Keys beyond
the `MAP_TABLE_SIZE` slots do not fit. -/
def MappingAccount.ofUsed (next : Pubkey) (used : List Pubkey) : MappingAccount :=
  ⟨next, (used ++ List.replicate mapTableSize default).take mapTableSize, by
    rw [List.length_take, List.length_append, List.length_replicate]
    omega⟩

theorem MappingAccount.ofUsed_products {next : Pubkey} {used : List Pubkey}
    (h : used.length ≤ mapTableSize) :
    (MappingAccount.ofUsed next used).products =
      used ++ List.replicate (mapTableSize - used.length) default := by
  show (used ++ _).take mapTableSize = _
  rw [List.take_append_eq_append_take, List.take_of_length_le h, List.take_replicate,
    Nat.min_eq_left (Nat.sub_le _ _)]

theorem MappingAccount.mem_ofUsed {next k : Pubkey} {used : List Pubkey}
    (h : used.length ≤ mapTableSize) (hk : k ∈ used) :
    k ∈ (MappingAccount.ofUsed next used).products := by
  rw [ofUsed_products h]
  exact List.mem_append_left _ hk

/-- A table with fewer used slots than `MAP_TABLE_SIZE` has an unused slot. -/
theorem MappingAccount.default_mem_ofUsed {next : Pubkey} {used : List Pubkey}
    (h : used.length < mapTableSize) : default ∈ (MappingAccount.ofUsed next used).products := by
  rw [ofUsed_products h.le]
  exact List.mem_append_right _ (List.mem_replicate.mpr ⟨by omega, rfl⟩)

/-- `pyth_sdk_solana::state::ProductAccount`: `px_acc` starts the price chain. -/
structure ProductAccount where
  pxAcc : Pubkey
deriving DecidableEq

/-- `pyth_sdk_solana::state::PriceAccount`: `next` continues the price chain. -/
structure PriceAccount where
  next : Pubkey
deriving DecidableEq

/-- The data of an account, seen through the layouts of `pyth_sdk_solana::state`. -/
inductive AccountData where
  | mapping (account : MappingAccount)
  | product (account : ProductAccount)
  | price (account : PriceAccount)
  | other
deriving DecidableEq

/-- `load_mapping_account`. -/
def loadMappingAccount : AccountData → Option MappingAccount
  | .mapping account => some account
  | _ => none

/-- `load_product_account`. -/
def loadProductAccount : AccountData → Option ProductAccount
  | .product account => some account
  | _ => none

/-- `load_price_account`. -/
def loadPriceAccount : AccountData → Option PriceAccount
  | .price account => some account
  | _ => none

@[simp] theorem loadPriceAccount_eq_some {data : AccountData} {account : PriceAccount} :
    loadPriceAccount data = some account ↔ data = .price account := by
  cases data <;> simp [loadPriceAccount]

end PythSdk

/-- `solana_sdk::account::Account`; the oracle reads its `data`. -/
structure Account where
  data : PythSdk.AccountData
deriving DecidableEq

end PythAgent
