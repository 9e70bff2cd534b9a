import Vtt.Dex.Pool

/-!
# The genesis block

The check of a genesis configuration, and the state and the block it gives rise to. Building the
genesis aborts if the configuration is not valid, if a validator cannot pay its stake, or if the
first pool cannot be set up.
-/

namespace Vtt

open Lib

/-- An initial balance. -/
structure GenesisAllocation where
  address : Address
  balance : Amount
deriving DecidableEq

/-- An initial validator. -/
structure GenesisValidator where
  address : Address
  selfStake : Amount
  commissionBps : UInt16
deriving DecidableEq

/-- A genesis configuration. -/
structure GenesisConfig where
  chain : ChainConfig
  timestamp : Timestamp
  allocations : List GenesisAllocation
  validators : List GenesisValidator
deriving DecidableEq

namespace Genesis

/-- The first address that occurs a second time. -/
def firstRepeated : List Address → List Address → Option Address
  | _, [] => none
  | seen, a :: rest => if seen.contains a then some a else firstRepeated (a :: seen) rest

/-- The allocations in turn: each address once, each balance positive. -/
def checkAllocations : List Address → List GenesisAllocation → Except String Unit
  | _, [] => .ok ()
  | seen, a :: rest =>
    if seen.contains a.address then
      .error ("duplicate allocation address in genesis: " ++ a.address.display)
    else if a.balance.raw = 0 then
      .error ("allocation for " ++ a.address.display ++ " has zero balance")
    else checkAllocations (a.address :: seen) rest

/-- The bounds on the consensus parameters. -/
def checkParams (params : ConsensusParams) : Except String Unit :=
  if params.activeValidators = 0 then .error "active_validators must be > 0"
  else if params.blockTimeMs = 0 then .error "block_time_ms must be > 0"
  else if 10000 < params.slashDoubleSignBps then
    .error "slash_double_sign_bps must be <= 10000 basis points"
  else if 10000 < params.slashDowntimeBps then
    .error "slash_downtime_bps must be <= 10000 basis points"
  else if 100 < params.downtimeThresholdPct then .error "downtime_threshold_pct must be <= 100"
  else .ok ()

/-- A validator must have the minimum stake. -/
def stakeError (minStake : Amount) (v : GenesisValidator) : Option String :=
  if v.selfStake < minStake then
    some ("Validator " ++ v.address.display ++ " stake " ++ v.selfStake.display ++
      " below minimum " ++ minStake.display)
  else none

/-- The first failure of a genesis configuration, if any. -/
def validateGenesis (config : GenesisConfig) : Except String Unit :=
  let params := config.chain.consensus
  let allocated := U128.sum (config.allocations.map (·.balance.raw))
  let staked := U128.sum (config.validators.map (·.selfStake.raw))
  if config.validators.isEmpty then
    .error "Genesis must have at least 1 validator"
  else if params.epochLength = 0 then
    .error "epoch_length cannot be 0"
  else if allocated = 0 ∧ staked = 0 then
    .error "Genesis has no tokens allocated"
  else
    match config.validators.findSome? (stakeError params.minSelfStake) with
    | some message => .error message
    | none =>
      match firstRepeated [] (config.validators.map (·.address)) with
      | some a => .error ("duplicate validator address in genesis: " ++ a.display)
      | none => do
        checkAllocations [] config.allocations
        checkParams params

/-! ## The initial state -/

/-- An asset that exists from the start. -/
def genesisAsset (id : H256) (name symbol className : String) (chainId : ChainId)
    (issuer : Address) (totalSupply : Amount) (decimals : UInt8) : AssetRecord where
  id
  name
  symbol
  assetClass := .custom className
  originChain := chainId
  issuer
  totalSupply
  decimals
  status := .active
  compliancePolicy := none
  valuationOracle := none
  documents := []
  metadataUri := ""
  jurisdiction := ""
  legalEntity := ""
  transferMode := .peerToPeer
  registrar := none
  redemptionPool := .zero
  requiresKyc := false
  createdAt := 0

variable {ε : Type}

/-- Register an asset and give all of it to its issuer. -/
def mintAsset (asset : AssetRecord) : DbM ε Unit := do
  (Db.registerAsset asset).expect
  let ownership ← Db.getOwnership asset.id asset.issuer
  let credited ← Confined.unwrap (ownership.credit asset.totalSupply)
  Db.putOwnership credited

variable [Crypto]

/-- The stablecoin, the first pool and the revenue token, all from the treasury. -/
def setupDexGenesis (treasury : Address) (chainId : ChainId) : DbM ε Unit := do
  let usdId := blake3Hash (ascii "asset:vUSDT")
  mintAsset (genesisAsset usdId "VTT USD" "vUSDT" "Stablecoin" chainId treasury
    ⟨100000000 * 10 ^ 6⟩ 6)
  let pool ← (Dex.createPool treasury .zero usdId (.fromVtt 100000) ⟨10800000000⟩ 0).expect
  (Dex.savePool pool).expect
  mintAsset (genesisAsset (blake3Hash (ascii "asset:VTT-REV")) "VTT Revenue Share" "VTT-REV"
    "RevenueShare" chainId treasury ⟨10000⟩ 0)

/-- Move the stake of a validator out of its balance. -/
def setupValidator (v : GenesisValidator) : DbM ε Unit := do
  let account ← Db.getAccount v.address
  let balance ← Confined.unwrap (account.balance.checkedSub v.selfStake)
  let staking : StakingState :=
    { totalStake := v.selfStake, selfStake := v.selfStake, commissionBps := v.commissionBps
      active := true, delegations := [], unbonding := [] }
  Db.putAccount v.address { account with balance, staking := some staking }

/-- The initial state of a configuration. -/
def setupState (config : GenesisConfig) : DbM ε Unit := do
  Confined.forEach config.allocations fun a =>
    Db.putAccount a.address (.withBalance a.balance)
  Confined.forEach config.validators setupValidator
  Db.setTreasuryAddress config.chain.consensus.treasuryAddress
  Db.setEpochLength config.chain.consensus.epochLength
  let first :=
    (config.validators.head?.map (·.address)).or (config.allocations.head?.map (·.address))
  setupDexGenesis (first.getD .zero) config.chain.chainId

/-- The genesis header over a state root. -/
def genesisHeader (config : GenesisConfig) (stateRoot : H256) : BlockHeader where
  version := 1
  chainId := config.chain.chainId
  number := 0
  parentHash := .zero
  transactionsRoot := merkleRoot []
  stateRoot
  receiptsRoot := merkleRoot []
  validator := (config.validators.head?.map (·.address)).getD .zero
  epoch := 0
  slot := 0
  timestamp := config.timestamp
  gasLimit := 10000000
  gasUsed := 0
  crossChainRoot := none
  signature := .zero

/-- The genesis block and the initial state of a configuration. -/
def buildGenesis (config : GenesisConfig) : Option (Block × StateDB) :=
  match validateGenesis config with
  | .error _ => none
  | .ok () =>
    match (setupState (ε := Unit) config).run .new with
    | some (.ok (), state) =>
      let (stateRoot, state) := state.computeStateRoot
      some (⟨genesisHeader config stateRoot, []⟩, state)
    | _ => none

/-- A genesis block is over the root of the initial state. -/
theorem exists_setupState {config : GenesisConfig} {genesis : Block} {state : StateDB}
    (h : buildGenesis config = some (genesis, state)) :
    ∃ initial, (setupState config : DbM Unit Unit).run .new = some (.ok (), initial) ∧
      genesis = ⟨genesisHeader config initial.computeStateRoot.1, []⟩ ∧
        state = initial.computeStateRoot.2 := by
  unfold buildGenesis at h
  split at h
  · cases h
  split at h
  · rename_i initial hrun
    cases h
    exact ⟨initial, hrun, rfl, rfl⟩
  · cases h

end Genesis

end Vtt
