import Vtt.Consensus.Economics
import Vtt.Executor.Basic

/-!
# Governance

The periods are fixed when the node starts, from its environment; the parser for chain
configurations is outside the code base. Both are fields of `Environment`.
-/

namespace Vtt

open Lib Confined

/-- The configuration of an application chain as a proposal gives it. -/
structure AppChainConfig where
  description : String
  validatorCount : UInt32
  compliance : String
  trustedIssuers : List String
deriving DecidableEq

/-- What the node takes from outside. -/
class Environment where
  votingPeriodBlocks : UInt64
  executionDelayBlocks : UInt64
  /-- The configuration in a JSON text, or the message of the parser. -/
  parseChainConfig : String → Except String AppChainConfig

/-! ## Registered chains -/

/-- What an identity can be certified to be. -/
inductive ClaimType where
  | kyc
  | amlCleared
  | accreditedInvestor
  | qualifiedPurchaser
  | jurisdiction
  | custom (number : UInt32)
deriving DecidableEq

namespace ClaimType

instance : Borsh ClaimType :=
  .ofVariants [.of fun () => kyc, .of fun () => amlCleared, .of fun () => accreditedInvestor,
    .of fun () => qualifiedPurchaser, .of fun () => jurisdiction, .of custom] (by decide)
    (fun
      | kyc => ⟨0, ()⟩ | amlCleared => ⟨1, ()⟩ | accreditedInvestor => ⟨2, ()⟩
      | qualifiedPurchaser => ⟨3, ()⟩ | jurisdiction => ⟨4, ()⟩ | custom number => ⟨5, number⟩)
    (fun c => by cases c <;> rfl)

end ClaimType

/-- The compliance rules of a chain. -/
structure ChainComplianceConfig where
  requiresIdentity : Bool
  minimumClaims : List ClaimType
  trustedClaimIssuers : List H256
  allowAnonymous : Bool
  jurisdictionWhitelist : List String
  jurisdictionBlacklist : List String
  maxHoldersPerAsset : UInt32
deriving DecidableEq

namespace ChainComplianceConfig

instance : Borsh ChainComplianceConfig :=
  .ofIso (fun c => (c.requiresIdentity, c.minimumClaims, c.trustedClaimIssuers, c.allowAnonymous,
      c.jurisdictionWhitelist, c.jurisdictionBlacklist, c.maxHoldersPerAsset))
    (fun (requiresIdentity, minimumClaims, trustedClaimIssuers, allowAnonymous,
      jurisdictionWhitelist, jurisdictionBlacklist, maxHoldersPerAsset) =>
      ⟨requiresIdentity, minimumClaims, trustedClaimIssuers, allowAnonymous, jurisdictionWhitelist,
        jurisdictionBlacklist, maxHoldersPerAsset⟩)
    (fun _ => rfl)

def permissionless : ChainComplianceConfig := ⟨false, [], [], true, [], [], 0⟩

def permissioned (trustedIssuers : List H256) : ChainComplianceConfig :=
  ⟨true, [.kyc, .amlCleared], trustedIssuers, false, [], [], 0⟩

end ChainComplianceConfig

instance : Borsh ConsensusParams :=
  .ofIso (fun p => (p.epochLength, p.blockTimeMs, p.activeValidators, p.minSelfStake,
      p.unbondingPeriodSecs, p.slashDoubleSignBps, p.slashDowntimeBps, p.downtimeThresholdPct,
      p.treasuryAddress))
    (fun (epochLength, blockTimeMs, activeValidators, minSelfStake, unbondingPeriodSecs,
      slashDoubleSignBps, slashDowntimeBps, downtimeThresholdPct, treasuryAddress) =>
      ⟨epochLength, blockTimeMs, activeValidators, minSelfStake, unbondingPeriodSecs,
        slashDoubleSignBps, slashDowntimeBps, downtimeThresholdPct, treasuryAddress⟩)
    (fun _ => rfl)

instance : Borsh GasConfig :=
  .ofIso (fun g => (g.minGasPrice, g.baseTransferCost, g.costPerByte))
    (fun (minGasPrice, baseTransferCost, costPerByte) => ⟨minGasPrice,
    baseTransferCost, costPerByte⟩)
    (fun _ => rfl)

/-- A registered application chain. -/
structure RegisteredChain where
  chainId : ChainId
  name : String
  description : String
  validatorCount : UInt32
  consensus : ConsensusParams
  gas : GasConfig
  compliance : ChainComplianceConfig
  genesisHash : H256
  active : Bool
  registeredAt : Epoch
  proposer : Address
deriving DecidableEq

instance : Borsh RegisteredChain :=
  .ofIso (fun c => (c.chainId, c.name, c.description, c.validatorCount, c.consensus,
      c.gas, c.compliance, c.genesisHash, c.active, c.registeredAt, c.proposer))
    (fun (chainId, name, description, validatorCount, consensus, gas, compliance, genesisHash,
      active, registeredAt, proposer) =>
      ⟨chainId, name, description, validatorCount, consensus, gas, compliance, genesisHash, active,
        registeredAt, proposer⟩)
    (fun _ => rfl)

namespace Executor

/-- The issuers that are given as 32-byte hexadecimal texts; the others are passed over. -/
def parseIssuers : List String → Option (List H256)
  | [] => some []
  | s :: rest => do
    let bytes := ascii (String.ofList (Text.trimStartMatches "0x".toList (Text.trim s.toList)))
    let parsed ← if bytes.length ≠ 64 then pure none else Text.hexBytes bytes
    let issuers ← parseIssuers rest
    pure ((parsed.map H256.fromSlice).toList ++ issuers)

/-- The compliance rules that a configuration names. -/
def parseCompliance (config : AppChainConfig) : DbM String ChainComplianceConfig :=
  let mode := Text.asciiLowercase config.compliance
  if mode = "" ∨ mode = "permissionless" then
    pure .permissionless
  else if mode = "permissioned" then do
    let issuers ← unwrap (parseIssuers config.trustedIssuers)
    pure (.permissioned issuers)
  else
    fail ("unknown compliance mode '" ++ mode ++ "'")

/-- Register an application chain; returns its number. -/
def registerAppChain [Environment] (name configJson : String) (proposer : Address)
    (currentBlock : UInt64) : DbM String ChainId := do
  let config ←
    ofExcept ((Environment.parseChainConfig configJson).mapError ("invalid config_json: " ++ ·))
  require (config.validatorCount ≠ 0) "validator_count must be > 0"
  let compliance ← parseCompliance config
  let chainId ← Db.nextRegisteredChainId
  let record : RegisteredChain :=
    { chainId := ⟨chainId⟩, name, description := config.description
      validatorCount := config.validatorCount, consensus := .default, gas := .default, compliance
      genesisHash := .zero, active := true, registeredAt := currentBlock, proposer }
  Db.putRegisteredChain chainId (Borsh.serialize record)
  pure ⟨chainId⟩

/-! ## Parameter changes -/

/-- An address in hexadecimal text; the outer `none` is an abort. -/
def parseAddress (s : String) : Option (Option Address) :=
  let trimmed := Text.trim s.toList
  let digits := if "0x".toList.isPrefixOf trimmed then trimmed.drop 2 else trimmed
  let bytes := ascii (String.ofList digits)
  if bytes.length ≠ 40 then some none
  else (Text.hexBytes bytes).map fun parsed => parsed.map Address.fromSlice

/-- A number of a number of bits in a text with white space around it. -/
def parseNumber (bits : Nat) (value : String) : Option Nat :=
  Text.parseUnsigned bits (Text.trim value.toList)

/-- The errors about the value of a parameter name the parameter. -/
def parameterError (key message : String) : ExecutionError :=
  .custom ("ParameterChange '" ++ key ++ "': " ++ message)

/-- A value that must be a number of a number of bits. -/
def requireNumber (bits : Nat) (key value message : String) : ExecM Nat :=
  okOr (parseNumber bits value) (parameterError key message)

/-- A value that must be a list of country codes. -/
def requireCountryCodes (key value : String) : ExecM Unit :=
  forEach (value.toList.splitOn ',') fun part =>
    let code := String.ofList (Text.trim part)
    require (code.isEmpty || (code.utf8ByteSize == 2 && code.toList.all Char.isAlpha))
      (parameterError key ("'" ++ code ++ "' is not a valid ISO 3166-1 alpha-2 code"))

/-- The error for a parameter that governance does not control. -/
def unknownParameter (key : String) : ExecutionError :=
  .custom ("ParameterChange: unknown parameter '" ++ key ++ "'. Allowed: bridge_relayer, " ++
    "treasury_address, min_gas_price, base_transfer_cost, cost_per_byte, slash_double_sign_bps, " ++
    "slash_downtime_bps, downtime_threshold_pct, unbonding_period_secs, max_holders_per_asset, " ++
    "jurisdiction_whitelist, jurisdiction_blacklist")

/-- A parameter change is checked when it is proposed. -/
def validateParameterChange (key value : String) : ExecM Unit :=
  match key with
  | "bridge_relayer" | "treasury_address" => do
    let parsed ← unwrap (parseAddress value)
    require parsed.isSome (parameterError key "value must be a 20-byte hex address")
  | "min_gas_price" => do
    let _ ← requireNumber 128 key value "value must be a u128 (raw Amount)"
    pure ()
  | "base_transfer_cost" | "cost_per_byte" | "unbonding_period_secs" => do
    let _ ← requireNumber 64 key value "value must be a u64"
    pure ()
  | "slash_double_sign_bps" | "slash_downtime_bps" => do
    let v ← requireNumber 16 key value "value must be a u16 (basis points 0..=10000)"
    require (v ≤ 10000)
      (parameterError key ("basis points must be <= 10000 (got " ++ toString v ++ ")"))
  | "downtime_threshold_pct" => do
    let v ← requireNumber 8 key value "value must be a u8 percentage 0..=100"
    require (v ≤ 100) (parameterError key ("percentage must be <= 100 (got " ++ toString v ++ ")"))
  | "max_holders_per_asset" => do
    let _ ← requireNumber 32 key value "value must be a u32 (0 = unlimited)"
    pure ()
  | "jurisdiction_whitelist" | "jurisdiction_blacklist" => requireCountryCodes key value
  | other => fail (unknownParameter other)

variable {ε : Type}

/-- Set a parameter, if its value can be read. -/
def setIfSome {α : Type} (value : Option α) (set : α → DbM ε Unit) : DbM ε Unit :=
  match value with
  | some v => set v
  | none => pure ()

/-- Set a parameter to an address, if its value is one. -/
def setIfAddress (value : String) (set : Address → DbM ε Unit) : DbM ε Unit := do
  let parsed ← unwrap (parseAddress value)
  setIfSome parsed set

/-- A number within a bound. -/
def parseBounded (bits bound : Nat) (value : String) : Option Nat :=
  (parseNumber bits value).filter (· ≤ bound)

/-- Carry out a parameter change; a value that cannot be read is passed over. -/
def applyParameterChange (key value : String) : DbM ε Unit :=
  match key with
  | "bridge_relayer" => setIfAddress value Db.setBridgeRelayer
  | "treasury_address" => setIfAddress value Db.setTreasuryAddress
  | "min_gas_price" =>
    setIfSome (parseNumber 128 value) fun v => Db.setMinGasPrice ⟨BitVec.ofNat 128 v⟩
  | "base_transfer_cost" =>
    setIfSome (parseNumber 64 value) fun v => Db.setBaseTransferCost (.ofNat v)
  | "cost_per_byte" => setIfSome (parseNumber 64 value) fun v => Db.setCostPerByte (.ofNat v)
  | "slash_double_sign_bps" =>
    setIfSome (parseBounded 16 10000 value) fun v => Db.setSlashDoubleSignBps (.ofNat v)
  | "slash_downtime_bps" =>
    setIfSome (parseBounded 16 10000 value) fun v => Db.setSlashDowntimeBps (.ofNat v)
  | "downtime_threshold_pct" =>
    setIfSome (parseBounded 8 100 value) fun v => Db.setDowntimeThresholdPct (.ofNat v)
  | "unbonding_period_secs" =>
    setIfSome (parseNumber 64 value) fun v => Db.setUnbondingPeriodSecs (.ofNat v)
  | "max_holders_per_asset" =>
    setIfSome (parseNumber 32 value) fun v => Db.setMaxHoldersPerAsset (.ofNat v)
  | "jurisdiction_whitelist" => Db.setJurisdictionWhitelist value
  | "jurisdiction_blacklist" => Db.setJurisdictionBlacklist value
  | _ => pure ()

end Executor

end Vtt
