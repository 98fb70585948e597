import FeiProtocol.Shutdown.SnapshotSpelling

/-!
# `deployMerkleRedeemer`

The script reads a file of exchange rates and a file of Merkle roots, checks them, and deploys
the redeemer with their values. The constructor goes through the list of cTokens and the two
lists of values by position; the keys of the files are not looked at, because the callbacks
that should check them return nothing.

* `constructorArguments_eq_ok_iff`: the checks only count the entries.
* `construct_eq_ok_iff`: what the constructor makes of three lists.
* `meets_iff`: the files whose cTokens get the rates and roots that are recorded for them; those in
  the order of the list, as those of the repository, are among them.

`Object.entries` lists the entries of an object in one order, whatever that is; the ABI encoder
is a parameter. Between the checks and the deployment the script stops at a missing provider
url, which its user has to fill in.
-/

namespace FeiProtocol

open Evm

namespace DeployMerkleRedeemer

open CreateMerkleTrees

/-- The list of `data/prod/cTokens.ts`. -/
def checkSummedcTokens : List String :=
  ["0xd8553552f8868C1Ef160eEdf031cF0BCf9686945", "0xbB025D470162CC5eA24daF7d4566064EE7f5F111",
    "0x7e9cE3CAa9910cc048590801e64174957Ed41d43", "0x647A36d421183a0a9Fa62717a64B664a24E469C7",
    "0xFA1057d02A0C1a4885851e3F4fD496Ee7D38F56e", "0x8E4E0257A4759559B4B1AC087fe8d80c63f20D19",
    "0x6f95d4d251053483f41c8718C30F4F3C404A8cf2", "0x3E5C122Ffa75A9Fe16ec0c69F7E9149203EA1A5d",
    "0x51fF03410a0dA915082Af444274C381bD1b4cDB1", "0xB7FE5f277058b3f9eABf6e0655991f10924BFA54",
    "0x9de558FCE4F289b305E38ABe2169b75C626c114e", "0xda396c927e3e6BEf77A98f372CE431b49EdEc43D",
    "0xF148cDEc066b94410d403aC5fe1bb17EC75c5851", "0x0C402F06C11c6e6A6616C98868A855448d4CfE65",
    "0x26267e41CeCa7C8E0f143554Af707336f27Fa051", "0xEbE0d1cb6A0b8569929e062d67bfbC07608f0A47",
    "0xe097783483D1b7527152eF8B150B99B9B2700c8d", "0x8922C1147E141C055fdDfc0ED5a119f3378c8ef8",
    "0x7DBC3aF9251756561Ce755fcC11c754184Af71F7", "0x3a2804ec0Ff521374aF654D8D0daA1d1aE1ee900",
    "0xA54c548d11792b3d26aD74F5f899e12CDfD64Fd6", "0xA6C25548dF506d84Afd237225B5B34F2Feb1aa07",
    "0xfbD8Aaf46Ab3C2732FA930e5B343cd67cEA5054C", "0x001E407f497e024B9fb1CB93ef841F43D645CA4F",
    "0x5CaDc2a04921213DE60B237688776e0F1A7155E6", "0x88d3557eB6280CC084cA36e425d6BC52d0A04429",
    "0xe92a3db67e4b6AC86114149F522644b34264f858"]

/-- The same, as they are encoded. -/
def cTokens : List Address :=
  [0xd8553552f8868C1Ef160eEdf031cF0BCf9686945, 0xbB025D470162CC5eA24daF7d4566064EE7f5F111,
    0x7e9cE3CAa9910cc048590801e64174957Ed41d43, 0x647A36d421183a0a9Fa62717a64B664a24E469C7,
    0xFA1057d02A0C1a4885851e3F4fD496Ee7D38F56e, 0x8E4E0257A4759559B4B1AC087fe8d80c63f20D19,
    0x6f95d4d251053483f41c8718C30F4F3C404A8cf2, 0x3E5C122Ffa75A9Fe16ec0c69F7E9149203EA1A5d,
    0x51fF03410a0dA915082Af444274C381bD1b4cDB1, 0xB7FE5f277058b3f9eABf6e0655991f10924BFA54,
    0x9de558FCE4F289b305E38ABe2169b75C626c114e, 0xda396c927e3e6BEf77A98f372CE431b49EdEc43D,
    0xF148cDEc066b94410d403aC5fe1bb17EC75c5851, 0x0C402F06C11c6e6A6616C98868A855448d4CfE65,
    0x26267e41CeCa7C8E0f143554Af707336f27Fa051, 0xEbE0d1cb6A0b8569929e062d67bfbC07608f0A47,
    0xe097783483D1b7527152eF8B150B99B9B2700c8d, 0x8922C1147E141C055fdDfc0ED5a119f3378c8ef8,
    0x7DBC3aF9251756561Ce755fcC11c754184Af71F7, 0x3a2804ec0Ff521374aF654D8D0daA1d1aE1ee900,
    0xA54c548d11792b3d26aD74F5f899e12CDfD64Fd6, 0xA6C25548dF506d84Afd237225B5B34F2Feb1aa07,
    0xfbD8Aaf46Ab3C2732FA930e5B343cd67cEA5054C, 0x001E407f497e024B9fb1CB93ef841F43D645CA4F,
    0x5CaDc2a04921213DE60B237688776e0F1A7155E6, 0x88d3557eB6280CC084cA36e425d6BC52d0A04429,
    0xe92a3db67e4b6AC86114149F522644b34264f858]

example : checkSummedcTokens.map addressOf = cTokens.map some := by decide +kernel

example : CreateMerkleTrees.cTokens.map addressOf = cTokens.map some := by decide +kernel

/-- What is asked of the values of a file: `typeof`, a template string, and their encodings,
which may fail. -/
structure Values (V : Type) : Type where
  isString : V → Bool
  toText : V → String
  uint256 : V → Option UInt256
  bytes32 : V → Option Bytes32

variable {V : Type} (values : Values V)

/-! ## The script -/

/-- A callback whose body is a block without `return`: `undefined`, whatever it computed. -/
def undefined (_ : Bool) : Option Bool := none

/-- `entries.some(callback)` -/
def someEntry (file : JsObject V String) (callback : String × V → Option Bool) : Bool :=
  file.entries.any fun entry => callback entry = some true

def checkKey (entry : String × V) : Option Bool :=
  undefined (!(entry.1.startsWith "0x" && entry.1.length = 42))

def checkValue (entry : String × V) : Option Bool :=
  undefined (!values.isString entry.2)

/-- The text of `file.length`, which is a property like any other. -/
def lengthText (file : JsObject V String) : String :=
  (file.get "length").elim "undefined" values.toText

def check (rates roots : JsObject V String) : Except String Unit := do
  ensure (rates.entries.length = 27)
    ("Rates should be an object with 27 entries. Actual: " ++ lengthText values rates)
  ensure (someEntry rates checkKey = false) "Not all keys for rates file are valid addresses"
  ensure (someEntry roots (checkValue values) = false)
    ("Not all values for rates file are strings. Values should be strings representing the " ++
      "base-10 number of Fei you would get for 1e18 of the ctoken")
  ensure (roots.entries.length = 27)
    ("Roots should be an object with 27 entries. Actual: " ++ lengthText values roots)
  ensure (someEntry rates checkKey = false) "Not all keys for roots file are valid addresses"
  ensure (someEntry roots (checkValue values) = false)
    ("Not all values for roots file are strings. Values should be strings representing the " ++
      "merkle root (in hex) for the ctoken")

/-- `Object.values(file)` -/
def valuesOf (file : JsObject V String) : List V := file.entries.map Prod.snd

/-- `ratesArray` and `rootsArray`, once the files are checked. -/
def constructorArguments (rates roots : JsObject V String) :
    Except String (List V × List V) := do
  check values rates roots
  return (valuesOf rates, valuesOf roots)

/-- The deployment with `cTokens` and the two arrays, if they can be encoded and the constructor
accepts them. -/
def deploy (ledger : Ledger) (fei : Address) (args : List V × List V) : Option RedeemerState := do
  let rates ← args.1.mapM values.uint256
  let roots ← args.2.mapM values.bytes32
  (RariMerkleRedeemer.construct ledger fei cTokens (rates.map BitVec.toNat) roots).toOption

/-! ## What the checks check -/

variable {values} {rates roots file : JsObject V String} {args : List V × List V}

theorem someEntry_undefined (computed : String × V → Bool) :
    someEntry file (fun entry => undefined (computed entry)) = false := by
  simp [someEntry, undefined]

/-- The checks only count the entries. -/
theorem constructorArguments_eq_ok_iff : constructorArguments values rates roots = .ok args ↔
    rates.entries.length = 27 ∧ roots.entries.length = 27 ∧
      (valuesOf rates, valuesOf roots) = args := by
  have keys : someEntry rates checkKey = false := someEntry_undefined _
  have strings : someEntry roots (checkValue values) = false := someEntry_undefined _
  simp only [constructorArguments, check, bind_eq_ok_iff, pure_eq_ok_iff, ensure_eq_ok_iff,
    keys, strings]
  constructor
  · intro given
    rcases given with ⟨_, ⟨_, ratesLength, _, _, _, _, _, rootsLength, _⟩, same⟩
    exact ⟨ratesLength, rootsLength, same⟩
  · intro given
    rcases given with ⟨ratesLength, rootsLength, same⟩
    exact ⟨(), ⟨(), ratesLength, (), trivial, (), trivial, (), rootsLength, (), trivial, trivial⟩,
      same⟩

/-! ## What the constructor does -/

section Construct

open RariMerkleRedeemer MultiMerkleRedeemer

variable {ledger : Ledger} {token : Address} {_cTokens : List Address} {s s' : RedeemerState}

theorem configureExchangeRates_eq_ok_iff {_exchangeRates : List Nat} :
    _configureExchangeRates s _cTokens _exchangeRates = .ok s' ↔
      _cTokens.length = 27 ∧ _cTokens.length = _exchangeRates.length ∧
        (∀ e ∈ _cTokens.zip _exchangeRates, 10 ^ 10 < e.2) ∧
        { s with cTokenExchangeRates :=
            assigned s.cTokenExchangeRates (_cTokens.zip _exchangeRates) } = s' := by
  simp only [_configureExchangeRates, bind_eq_ok_iff, require_eq_ok_iff, exists_const]
  rw [foldlM_assign_iff RedeemerState.cTokenExchangeRates
    (fun s m => { s with cTokenExchangeRates := m }) (fun e => 10 ^ 10 < e.2)
    (fun _ _ => rfl) (fun _ _ _ => rfl) (fun _ => rfl) fun s e s' => by
      simp only [bind_eq_ok_iff, require_eq_ok_iff, pure_eq_ok_iff, exists_const, gt_iff_lt]]

theorem configureMerkleRoots_eq_ok_iff {_roots : List Bytes32} :
    _configureMerkleRoots s _cTokens _roots = .ok s' ↔
      _cTokens.length = 27 ∧ _cTokens.length = _roots.length ∧
        (∀ e ∈ _cTokens.zip _roots, e.2 ≠ 0) ∧
        { s with merkleRoots := assigned s.merkleRoots (_cTokens.zip _roots) } = s' := by
  simp only [_configureMerkleRoots, bind_eq_ok_iff, require_eq_ok_iff, exists_const]
  rw [foldlM_assign_iff RedeemerState.merkleRoots
    (fun s m => { s with merkleRoots := m }) (fun e => e.2 ≠ 0)
    (fun _ _ => rfl) (fun _ _ _ => rfl) (fun _ => rfl) fun s e s' => by
      simp only [bind_eq_ok_iff, require_eq_ok_iff, pure_eq_ok_iff, exists_const]]

theorem forall_mem_zip_iff {α β : Type} {as : List α} {bs : List β} {P : β → Prop}
    (lengths : as.length = bs.length) : (∀ e ∈ as.zip bs, P e.2) ↔ ∀ b ∈ bs, P b := by
  have seconds : (as.zip bs).map Prod.snd = bs := List.map_snd_zip (Nat.le_of_eq lengths.symm)
  rw [← List.forall_mem_map (P := P), seconds]

theorem construct_eq_ok_iff {rates : List Nat} {roots : List Bytes32} :
    construct ledger token _cTokens rates roots = .ok s ↔
      (_cTokens.length = 27 ∧ _cTokens.length = rates.length ∧ _cTokens.length = roots.length) ∧
      (∀ n ∈ rates, 10 ^ 10 < n) ∧ (∀ r ∈ roots, r ≠ 0) ∧ token ≠ 0 ∧
      { blank ledger with
        baseToken := token
        cTokenExchangeRates := assigned (fun _ => 0) (_cTokens.zip rates)
        merkleRoots := assigned (fun _ => 0) (_cTokens.zip roots) } = s := by
  simp only [construct, _configureBaseToken, bind_eq_ok_iff, require_eq_ok_iff, pure_eq_ok_iff,
    configureExchangeRates_eq_ok_iff, configureMerkleRoots_eq_ok_iff, exists_const]
  constructor
  · intro given
    rcases given with ⟨_, ⟨count, rates, high, same⟩, _, ⟨_, roots, nonzero, same'⟩, base, same''⟩
    subst same
    subst same'
    exact ⟨⟨count, rates, roots⟩, (forall_mem_zip_iff rates).mp high,
      (forall_mem_zip_iff roots).mp nonzero, base, same''⟩
  · intro given
    rcases given with ⟨⟨count, rates, roots⟩, high, nonzero, base, same⟩
    exact ⟨_, ⟨count, rates, (forall_mem_zip_iff rates).mpr high, rfl⟩, _,
      ⟨count, roots, (forall_mem_zip_iff roots).mpr nonzero, rfl⟩, base, same⟩

end Construct

/-! ## Files and cTokens -/

theorem length_cTokens : cTokens.length = 27 := rfl

theorem nodup_cTokens : cTokens.Nodup := by decide +kernel

/-- The file has this value for the cToken. -/
def Recorded (file : JsObject V String) (cToken : Address) (v : V) : Prop :=
  ∃ key, addressOf key = some cToken ∧ (key, v) ∈ file.entries

/-- No listed cToken is missing. -/
def Complete (file : JsObject V String) : Prop :=
  ∀ c ∈ cTokens, ∃ v, Recorded file c v

/-- The redeemer maps each cToken to the rate and the root that the files have for it. -/
structure Aligned (values : Values V) (rates roots : JsObject V String) (s : RedeemerState) :
    Prop where
  rate : ∀ c ∈ cTokens, ∀ v, Recorded rates c v →
    (values.uint256 v).map BitVec.toNat = some (s.cTokenExchangeRates c)
  root : ∀ c ∈ cTokens, ∀ v, Recorded roots c v → values.bytes32 v = some (s.merkleRoots c)

/-- Files that pass the checks miss no cToken, and what is deployed with them is aligned. -/
def Meets (values : Values V) (rates roots : JsObject V String) : Prop :=
  ∀ args, constructorArguments values rates roots = .ok args →
    Complete rates ∧ Complete roots ∧
      ∀ ledger fei s, deploy values ledger fei args = some s → Aligned values rates roots s

/-- The values can be encoded, and the constructor accepts them. -/
structure Deployable (values : Values V) (rates roots : JsObject V String) : Prop where
  rates : ∀ v ∈ valuesOf rates, ∃ n, values.uint256 v = some n ∧ 10 ^ 10 < n.toNat
  roots : ∀ v ∈ valuesOf roots, ∃ r, values.bytes32 v = some r ∧ r ≠ 0

/-- The value that a file has for the cToken at position `i` is encoded like the value at position
`i` of the file. -/
def InPlace {W : Type} (encode : V → Option W) (file : JsObject V String) : Prop :=
  ∀ (i : Nat) (c : Address) (v w : V), cTokens[i]? = some c → Recorded file c v →
    (valuesOf file)[i]? = some w → encode v = encode w

/-- The keys of the file are in the order of the list. -/
def Ordered (file : JsObject V String) : Prop :=
  file.entries.map (fun e => addressOf e.1) = cTokens.map some

theorem inPlace_of_ordered {W : Type} (encode : V → Option W) (ordered : Ordered file) :
    Complete file ∧ InPlace encode file := by
  have at_ : ∀ (i : Nat) (c : Address), cTokens[i]? = some c →
      ∃ e, file.entries[i]? = some e ∧ addressOf e.1 = some c := by
    intro i c found
    have entries := congrArg (fun l => l[i]?) ordered
    simp only [List.getElem?_map, found, Option.map_some, Option.map_eq_some_iff] at entries
    exact entries
  refine ⟨fun c mem => ?_, fun i c v w found recorded value => ?_⟩
  · obtain ⟨i, found⟩ := List.mem_iff_getElem?.mp mem
    obtain ⟨e, here, key⟩ := at_ i c found
    exact ⟨e.2, e.1, key, List.mem_of_getElem? here⟩
  · obtain ⟨key, writes, mem⟩ := recorded
    obtain ⟨j, there⟩ := List.mem_iff_getElem?.mp mem
    -- The entry with this key is at the position of its cToken.
    have entries := congrArg (fun l => l[j]?) ordered
    simp only [List.getElem?_map, there, Option.map_some, writes] at entries
    obtain ⟨c', found', same⟩ := Option.map_eq_some_iff.mp entries.symm
    cases same
    have inside : j < cTokens.length := (List.getElem?_eq_some_iff.mp found').1
    have position : j = i :=
      (List.getElem?_inj inside nodup_cTokens).mp (found'.trans found.symm)
    subst position
    rw [valuesOf, List.getElem?_map, there] at value
    cases value
    rfl

/-! ## The deployment -/

section Encoding

variable {W : Type} {encode : V → Option W} {vs : List V} {ws : List W}

/-- An encoding that succeeds, entry by entry. -/
theorem encoded_at (encodes : vs.mapM encode = some ws) {i : Nat} {v : V}
    (found : vs[i]? = some v) : ∃ w, encode v = some w ∧ ws[i]? = some w := by
  have entries := congrArg (fun l => l[i]?) (map_of_mapM_eq_some encodes)
  simp only [List.getElem?_map, found, Option.map_some] at entries
  obtain ⟨w, here, same⟩ := Option.map_eq_some_iff.mp entries.symm
  exact ⟨w, same.symm, here⟩

theorem length_of_encodes (encodes : vs.mapM encode = some ws) : ws.length = vs.length := by
  have lengths := congrArg List.length (map_of_mapM_eq_some encodes)
  rw [List.length_map, List.length_map] at lengths
  exact lengths.symm

theorem forall_encoded_iff {P : W → Prop} (encodes : vs.mapM encode = some ws) :
    (∀ v ∈ vs, ∃ w, encode v = some w ∧ P w) ↔ ∀ w ∈ ws, P w := by
  have mem : ∀ x, x ∈ vs.map encode ↔ x ∈ ws.map some := by
    rw [map_of_mapM_eq_some encodes]
    exact fun x => Iff.rfl
  constructor
  · intro each w inside
    obtain ⟨v, here, encoded⟩ := List.mem_map.mp ((mem (some w)).mpr (List.mem_map_of_mem inside))
    obtain ⟨w', encoded', holds⟩ := each v here
    cases encoded.symm.trans encoded'
    exact holds
  · intro all v inside
    obtain ⟨w, here, encoded⟩ := List.mem_map.mp ((mem (encode v)).mp (List.mem_map_of_mem inside))
    exact ⟨w, encoded.symm, all w here⟩

theorem exists_encodes (each : ∀ v ∈ vs, ∃ w, encode v = some w) :
    ∃ ws, vs.mapM encode = some ws := by
  induction vs with
  | nil => exact ⟨[], rfl⟩
  | cons v rest ih =>
      obtain ⟨⟨w, here⟩, later⟩ := List.forall_mem_cons.mp each
      obtain ⟨ws, rest⟩ := ih later
      exact ⟨w :: ws, by rw [List.mapM_cons, here, rest]; rfl⟩

/-- What the constructor stores at a cToken: the value at its position. -/
theorem assigned_at {default : Address → W} (length : cTokens.length = ws.length)
    {i : Nat} {c : Address} {w : W} (found : cTokens[i]? = some c) (here : ws[i]? = some w) :
    assigned default (cTokens.zip ws) c = w := by
  have keys : (cTokens.zip ws).map Prod.fst = cTokens := List.map_fst_zip (Nat.le_of_eq length)
  refine assigned_of_mem default ?_ (List.mem_of_getElem? (i := i) ?_)
  · rw [keys]
    exact nodup_cTokens
  · exact List.getElem?_zip_eq_some.mpr ⟨found, here⟩

end Encoding

variable {ledger : Ledger} {fei : Address} {s : RedeemerState}

theorem deploy_eq_some_iff : deploy values ledger fei args = some s ↔
    ∃ rates roots, args.1.mapM values.uint256 = some rates ∧
      args.2.mapM values.bytes32 = some roots ∧
      RariMerkleRedeemer.construct ledger fei cTokens (rates.map BitVec.toNat) roots = .ok s := by
  simp only [deploy, Option.bind_eq_bind, Option.bind_eq_some_iff, toOption_eq_some_iff]
  constructor
  · intro given
    rcases given with ⟨rates, encodes, roots, encodes', constructed⟩
    exact ⟨rates, roots, encodes, encodes', constructed⟩
  · intro given
    rcases given with ⟨rates, roots, encodes, encodes', constructed⟩
    exact ⟨rates, encodes, roots, encodes', constructed⟩

/-- What is deployed: at each position the constructor pairs a cToken with a value. -/
structure Deployed (values : Values V) (rates roots : JsObject V String) (s : RedeemerState) :
    Prop where
  deployable : Deployable values rates roots
  rate : ∀ (i : Nat) (c : Address) (w : V), cTokens[i]? = some c →
    (valuesOf rates)[i]? = some w →
    (values.uint256 w).map BitVec.toNat = some (s.cTokenExchangeRates c)
  root : ∀ (i : Nat) (c : Address) (w : V), cTokens[i]? = some c →
    (valuesOf roots)[i]? = some w → values.bytes32 w = some (s.merkleRoots c)

theorem deployed_of_deploy
    (deploys : deploy values ledger fei (valuesOf rates, valuesOf roots) = some s) :
    Deployed values rates roots s := by
  obtain ⟨rateWords, rootWords, rateEncodes, rootEncodes, constructed⟩ :=
    deploy_eq_some_iff.mp deploys
  obtain ⟨⟨_, rateLength, rootLength⟩, high, nonzero, _, same⟩ :=
    construct_eq_ok_iff.mp constructed
  rw [List.forall_mem_map] at high
  subst same
  refine ⟨⟨(forall_encoded_iff rateEncodes).mpr high, (forall_encoded_iff rootEncodes).mpr nonzero⟩,
    fun i c w found here => ?_, fun i c w found here => ?_⟩
  · obtain ⟨n, encoded, there⟩ := encoded_at rateEncodes here
    have stored : (rateWords.map BitVec.toNat)[i]? = some n.toNat := by
      rw [List.getElem?_map, there, Option.map_some]
    rw [encoded, Option.map_some]
    exact congrArg some (assigned_at rateLength found stored).symm
  · obtain ⟨r, encoded, there⟩ := encoded_at rootEncodes here
    rw [encoded]
    exact congrArg some (assigned_at rootLength found there).symm

/-- A ledger on which nobody holds anything. -/
def noHoldings : Ledger where
  erc20 _ := ⟨fun _ => 0, fun _ _ => 0, 0, false⟩
  transfers := []

theorem exists_deploy (ledger : Ledger) (ratesLength : rates.entries.length = 27)
    (rootsLength : roots.entries.length = 27) (deployable : Deployable values rates roots)
    (base : fei ≠ 0) :
    ∃ s, deploy values ledger fei (valuesOf rates, valuesOf roots) = some s := by
  obtain ⟨rateWords, rateEncodes⟩ := exists_encodes fun v mem =>
    (deployable.rates v mem).imp fun n both => both.1
  obtain ⟨rootWords, rootEncodes⟩ := exists_encodes fun v mem =>
    (deployable.roots v mem).imp fun r both => both.1
  have rateLength := length_of_encodes rateEncodes
  have rootLength := length_of_encodes rootEncodes
  rw [valuesOf, List.length_map] at rateLength rootLength
  have high := (forall_encoded_iff rateEncodes).mp deployable.rates
  have nonzero := (forall_encoded_iff rootEncodes).mp deployable.roots
  have ratesFit : cTokens.length = (rateWords.map BitVec.toNat).length := by
    rw [length_cTokens, List.length_map, rateLength, ratesLength]
  have rootsFit : cTokens.length = rootWords.length := by
    rw [length_cTokens, rootLength, rootsLength]
  have built : ∃ s, RariMerkleRedeemer.construct ledger fei cTokens (rateWords.map BitVec.toNat)
      rootWords = .ok s :=
    ⟨_, construct_eq_ok_iff.mpr ⟨⟨length_cTokens, ratesFit, rootsFit⟩,
      List.forall_mem_map.mpr high, nonzero, base, rfl⟩⟩
  obtain ⟨s, constructed⟩ := built
  exact ⟨s, deploy_eq_some_iff.mpr ⟨rateWords, rootWords, rateEncodes, rootEncodes, constructed⟩⟩

/-! ## Which files are right -/

theorem exists_value (length : file.entries.length = 27) {i : Nat} {c : Address}
    (found : cTokens[i]? = some c) : ∃ w, (valuesOf file)[i]? = some w := by
  have bound := (List.getElem?_eq_some_iff.mp found).1
  rw [length_cTokens, ← length, ← List.length_map Prod.snd] at bound
  exact ⟨_, List.getElem?_eq_getElem bound⟩

theorem aligned_of_deployed (ratesLength : rates.entries.length = 27)
    (rootsLength : roots.entries.length = 27) (ratesInPlace : InPlace values.uint256 rates)
    (rootsInPlace : InPlace values.bytes32 roots) (deployed : Deployed values rates roots s) :
    Aligned values rates roots s := by
  constructor
  · intro c mem v recorded
    obtain ⟨i, found⟩ := List.mem_iff_getElem?.mp mem
    obtain ⟨w, here⟩ := exists_value ratesLength found
    rw [ratesInPlace i c v w found recorded here]
    exact deployed.rate i c w found here
  · intro c mem v recorded
    obtain ⟨i, found⟩ := List.mem_iff_getElem?.mp mem
    obtain ⟨w, here⟩ := exists_value rootsLength found
    rw [rootsInPlace i c v w found recorded here]
    exact deployed.root i c w found here

theorem inPlace_of_aligned (deployed : Deployed values rates roots s)
    (aligned : Aligned values rates roots s) :
    InPlace values.uint256 rates ∧ InPlace values.bytes32 roots := by
  constructor
  · intro i c v w found recorded here
    have mem := List.mem_of_getElem? found
    have same := (aligned.rate c mem v recorded).trans (deployed.rate i c w found here).symm
    exact Option.map_injective (fun _ _ => BitVec.eq_of_toNat_eq) same
  · intro i c v w found recorded here
    have mem := List.mem_of_getElem? found
    exact (aligned.root c mem v recorded).trans (deployed.root i c w found here).symm

theorem meets_of_ordered (ratesOrdered : Ordered rates) (rootsOrdered : Ordered roots) :
    Meets values rates roots := by
  obtain ⟨ratesComplete, ratesInPlace⟩ := inPlace_of_ordered values.uint256 ratesOrdered
  obtain ⟨rootsComplete, rootsInPlace⟩ := inPlace_of_ordered values.bytes32 rootsOrdered
  intro args passes
  obtain ⟨ratesLength, rootsLength, same⟩ := constructorArguments_eq_ok_iff.mp passes
  subst same
  refine ⟨ratesComplete, rootsComplete, fun ledger fei s deploys => ?_⟩
  exact aligned_of_deployed ratesLength rootsLength ratesInPlace rootsInPlace
    (deployed_of_deploy deploys)

/-- **Alignment.** The files that pass the checks are right exactly if no cToken is missing and, as
far as the constructor accepts their values, the value of each cToken is encoded like the one at
its position. Files whose keys are in the order of the list are right. -/
theorem meets_iff : (Meets values rates roots ↔
    (rates.entries.length = 27 → roots.entries.length = 27 → Complete rates ∧ Complete roots ∧
      (Deployable values rates roots →
        InPlace values.uint256 rates ∧ InPlace values.bytes32 roots))) ∧
    (Ordered rates → Ordered roots → Meets values rates roots) := by
  refine ⟨⟨?_, ?_⟩, meets_of_ordered⟩
  · intro meets ratesLength rootsLength
    obtain ⟨ratesComplete, rootsComplete, aligned⟩ :=
      meets _ (constructorArguments_eq_ok_iff.mpr ⟨ratesLength, rootsLength, rfl⟩)
    refine ⟨ratesComplete, rootsComplete, fun deployable => ?_⟩
    have base : (1 : Address) ≠ 0 := by decide
    obtain ⟨s, deploys⟩ := exists_deploy noHoldings ratesLength rootsLength deployable base
    exact inPlace_of_aligned (deployed_of_deploy deploys) (aligned _ _ s deploys)
  · intro condition args passes
    obtain ⟨ratesLength, rootsLength, same⟩ := constructorArguments_eq_ok_iff.mp passes
    subst same
    obtain ⟨ratesComplete, rootsComplete, inPlace⟩ := condition ratesLength rootsLength
    refine ⟨ratesComplete, rootsComplete, fun ledger fei s deploys => ?_⟩
    have deployed := deployed_of_deploy deploys
    obtain ⟨ratesInPlace, rootsInPlace⟩ := inPlace deployed.deployable
    exact aligned_of_deployed ratesLength rootsLength ratesInPlace rootsInPlace deployed

/-! ## Two files -/

namespace Sample

def digit (c : Char) : Option Nat :=
  if '0' ≤ c ∧ c ≤ '9' then some (c.toNat - '0'.toNat) else none

def number (base : Nat) (digits : List Nat) : Nat :=
  digits.foldl (fun n d => base * n + d) 0

/-- Decimal rates and roots of sixty-four hexadecimal digits, as in the files of the repository. -/
def texts : Values String where
  isString _ := true
  toText text := text
  uint256 text := do
    let digits ← text.toList.mapM digit
    if digits ≠ [] ∧ number 10 digits < 2 ^ 256 then some (BitVec.ofNat 256 (number 10 digits))
    else none
  bytes32 text :=
    match text.toList with
    | '0' :: 'x' :: digits =>
        if digits.length = 64 then
          (digits.mapM hexDigit).map fun ds => BitVec.ofNat 256 (number 16 ds)
        else none
    | _ => none

/-- The rate 1 for the first cToken and 2 for the others, written after the second one. -/
def swappedRates : JsObject String String where
  entries := match checkSummedcTokens with
    | first :: second :: others =>
        (second, "2000000000000000000") :: (first, "1000000000000000000") ::
          others.map fun key => (key, "2000000000000000000")
    | _ => []
  keys_nodup := by decide +kernel

/-- The zero address in the place of the first cToken. -/
def otherRates : JsObject String String where
  entries := ("0x0000000000000000000000000000000000000000" :: checkSummedcTokens.tail).map
    fun key => (key, "2000000000000000000")
  keys_nodup := by decide +kernel

def equalRoots : JsObject String String where
  entries := checkSummedcTokens.map
    fun key => (key, "0xa0f39c7ea219a2cb6f4e5600b68b033dd728c46f6f97f600913d39840d980a75")
  keys_nodup := by decide +kernel

theorem deployable : Deployable texts swappedRates equalRoots := by
  constructor
  · have rates : ∀ v ∈ valuesOf swappedRates,
        v = "1000000000000000000" ∨ v = "2000000000000000000" := by
      simp [valuesOf, swappedRates, checkSummedcTokens]
    intro v mem
    rcases rates v mem with rfl | rfl
    · exact ⟨1000000000000000000, by decide +kernel⟩
    · exact ⟨2000000000000000000, by decide +kernel⟩
  · have roots : ∀ v ∈ valuesOf equalRoots,
        v = "0xa0f39c7ea219a2cb6f4e5600b68b033dd728c46f6f97f600913d39840d980a75" := by
      simp [valuesOf, equalRoots, checkSummedcTokens]
    intro v mem
    rw [roots v mem]
    exact ⟨0xa0f39c7ea219a2cb6f4e5600b68b033dd728c46f6f97f600913d39840d980a75, by decide +kernel⟩

/-- The first cToken gets the rate of the second, and a file without the first is deployed. -/
theorem swapped_and_missing :
    ¬ Meets texts swappedRates equalRoots ∧ ¬ Meets texts otherRates equalRoots := by
  constructor
  · intro meets
    obtain ⟨_, _, aligned⟩ := meets _ (constructorArguments_eq_ok_iff.mpr ⟨rfl, rfl, rfl⟩)
    have base : (1 : Address) ≠ 0 := by decide
    obtain ⟨s, deploys⟩ := exists_deploy noHoldings rfl rfl deployable base
    have stored := (deployed_of_deploy deploys).rate 0 _ _ rfl rfl
    have recorded : Recorded swappedRates 0xd8553552f8868C1Ef160eEdf031cF0BCf9686945
        "1000000000000000000" :=
      ⟨"0xd8553552f8868C1Ef160eEdf031cF0BCf9686945", by decide +kernel, .tail _ (.head _)⟩
    have wrong := ((aligned _ _ s deploys).rate _ (.head _) _ recorded).trans stored.symm
    exact absurd wrong (by decide +kernel)
  · intro meets
    obtain ⟨complete, _⟩ := meets _ (constructorArguments_eq_ok_iff.mpr ⟨rfl, rfl, rfl⟩)
    obtain ⟨v, key, written, mem⟩ := complete _ (.head _)
    have keys : ∀ e ∈ otherRates.entries,
        addressOf e.1 ≠ some 0xd8553552f8868C1Ef160eEdf031cF0BCf9686945 := by decide +kernel
    exact keys _ mem written

end Sample

end DeployMerkleRedeemer

end FeiProtocol
