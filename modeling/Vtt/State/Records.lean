import Vtt.Primitives.Transaction

/-!
# The records of the world state

Accounts, assets, ownership and oracle feeds, with the operations that the records have of their
own. An operation that aborts on overflow returns an option.
-/

namespace Vtt

open Lib

/-! ## Accounts -/

/-- Stake that is being withdrawn. -/
structure UnbondingEntry where
  amount : Amount
  completionTime : Timestamp
  validator : Address
deriving DecidableEq

instance : Borsh UnbondingEntry :=
  .ofIso (fun e => (e.amount, e.completionTime, e.validator))
    (fun (amount, completionTime, validator) => ⟨amount, completionTime, validator⟩) (fun _ => rfl)

/-- Stake that an account has put on a validator. -/
structure Delegation where
  delegator : Address
  amount : Amount
deriving DecidableEq

instance : Borsh Delegation :=
  .ofIso (fun d => (d.delegator, d.amount)) (fun (delegator, amount) => ⟨delegator, amount⟩)
    (fun _ => rfl)

/-- The staking side of an account. -/
structure StakingState where
  totalStake : Amount
  selfStake : Amount
  commissionBps : UInt16
  active : Bool
  delegations : List Delegation
  unbonding : List UnbondingEntry
deriving DecidableEq

namespace StakingState

def default : StakingState where
  totalStake := .zero
  selfStake := .zero
  commissionBps := 0
  active := false
  delegations := []
  unbonding := []

instance : Borsh StakingState :=
  .ofIso
    (fun s => (s.totalStake, s.selfStake, s.commissionBps, s.active, s.delegations, s.unbonding))
    (fun (totalStake, selfStake, commissionBps, active, delegations, unbonding) =>
      ⟨totalStake, selfStake, commissionBps, active, delegations, unbonding⟩)
    (fun _ => rfl)

end StakingState

/-- An account. -/
structure AccountState where
  nonce : UInt64
  balance : Amount
  codeHash : Option H256
  storageRoot : H256
  staking : Option StakingState
deriving DecidableEq

namespace AccountState

def default : AccountState where
  nonce := 0
  balance := .zero
  codeHash := none
  storageRoot := .zero
  staking := none

/-- A new account with a balance. -/
def withBalance (balance : Amount) : AccountState := { default with balance }

def isEmpty (a : AccountState) : Bool :=
  a.nonce == 0 && a.balance.isZero && a.codeHash.isNone

instance : Borsh AccountState :=
  .ofIso (fun a => (a.nonce, a.balance, a.codeHash, a.storageRoot, a.staking))
    (fun (nonce, balance, codeHash, storageRoot, staking) =>
      ⟨nonce, balance, codeHash, storageRoot, staking⟩)
    (fun _ => rfl)

end AccountState

/-! ## Assets -/

/-- The class of a real-world asset. -/
inductive AssetClass where
  | equity
  | debt
  | realEstate
  | commodity
  | fund
  | intellectualProperty
  | carbonCredit
  | invoice
  | custom (name : String)
deriving DecidableEq

namespace AssetClass

instance : Borsh AssetClass :=
  .ofVariants [.of fun () => equity, .of fun () => debt, .of fun () => realEstate,
    .of fun () => commodity, .of fun () => fund, .of fun () => intellectualProperty,
    .of fun () => carbonCredit, .of fun () => invoice, .of custom] (by decide)
    (fun
      | equity => ⟨0, ()⟩ | debt => ⟨1, ()⟩ | realEstate => ⟨2, ()⟩ | commodity => ⟨3, ()⟩
      | fund => ⟨4, ()⟩ | intellectualProperty => ⟨5, ()⟩ | carbonCredit => ⟨6, ()⟩
      | invoice => ⟨7, ()⟩ | custom name => ⟨8, name⟩)
    (fun c => by cases c <;> rfl)

end AssetClass

/-- Where an asset is in its life. -/
inductive AssetStatus where
  | draft
  | active
  | frozen
  | matured
  | redemptionPending
  | redeemed
deriving DecidableEq

namespace AssetStatus

instance : Borsh AssetStatus :=
  .ofVariants [.of fun () => draft, .of fun () => active, .of fun () => frozen,
    .of fun () => matured, .of fun () => redemptionPending, .of fun () => redeemed] (by decide)
    (fun
      | draft => ⟨0, ()⟩ | active => ⟨1, ()⟩ | frozen => ⟨2, ()⟩ | matured => ⟨3, ()⟩
      | redemptionPending => ⟨4, ()⟩ | redeemed => ⟨5, ()⟩)
    (fun s => by cases s <;> rfl)

def str : AssetStatus → String
  | draft => "Draft"
  | active => "Active"
  | frozen => "Frozen"
  | matured => "Matured"
  | redemptionPending => "RedemptionPending"
  | redeemed => "Redeemed"

end AssetStatus

/-- Who may originate transfers of an asset. -/
inductive TransferMode where
  | peerToPeer
  | registrarMediated
deriving DecidableEq

instance : Borsh TransferMode :=
  .ofVariants [.of fun () => .peerToPeer, .of fun () => .registrarMediated] (by decide)
    (fun | .peerToPeer => ⟨0, ()⟩ | .registrarMediated => ⟨1, ()⟩)
    (fun m => by cases m <;> rfl)

/-- The kind of a legal document. -/
inductive DocumentType where
  | prospectus
  | termSheet
  | legalOpinion
  | valuation
  | auditReport
  | regulatoryApproval
  | deedOfTransfer
  | encumbrance
  | custom (name : String)
deriving DecidableEq

namespace DocumentType

instance : Borsh DocumentType :=
  .ofVariants [.of fun () => prospectus, .of fun () => termSheet, .of fun () => legalOpinion,
    .of fun () => valuation, .of fun () => auditReport, .of fun () => regulatoryApproval,
    .of fun () => deedOfTransfer, .of fun () => encumbrance, .of custom] (by decide)
    (fun
      | prospectus => ⟨0, ()⟩ | termSheet => ⟨1, ()⟩ | legalOpinion => ⟨2, ()⟩
      | valuation => ⟨3, ()⟩ | auditReport => ⟨4, ()⟩ | regulatoryApproval => ⟨5, ()⟩
      | deedOfTransfer => ⟨6, ()⟩ | encumbrance => ⟨7, ()⟩ | custom name => ⟨8, name⟩)
    (fun d => by cases d <;> rfl)

end DocumentType

/-- A legal document of an asset. -/
structure DocumentRecord where
  docType : DocumentType
  hash : H256
  uri : String
  addedAt : UInt64
  addedBy : Address
deriving DecidableEq

instance : Borsh DocumentRecord :=
  .ofIso (fun d => (d.docType, d.hash, d.uri, d.addedAt, d.addedBy))
    (fun (docType, hash, uri, addedAt, addedBy) => ⟨docType, hash, uri, addedAt, addedBy⟩)
    (fun _ => rfl)

/-- An asset. Its documents are the entries of a sorted map. -/
structure AssetRecord where
  id : H256
  name : String
  symbol : String
  assetClass : AssetClass
  originChain : ChainId
  issuer : Address
  totalSupply : Amount
  decimals : UInt8
  status : AssetStatus
  compliancePolicy : Option Address
  valuationOracle : Option H256
  documents : List (DocumentType × DocumentRecord)
  metadataUri : String
  jurisdiction : String
  legalEntity : String
  transferMode : TransferMode
  registrar : Option Address
  redemptionPool : Amount
  requiresKyc : Bool
  createdAt : UInt64
deriving DecidableEq

namespace AssetRecord

instance : Borsh AssetRecord :=
  .ofIso
    (fun a => (a.id, a.name, a.symbol, a.assetClass, a.originChain, a.issuer, a.totalSupply,
      a.decimals, a.status, a.compliancePolicy, a.valuationOracle, a.documents, a.metadataUri,
      a.jurisdiction, a.legalEntity, a.transferMode, a.registrar, a.redemptionPool, a.requiresKyc,
      a.createdAt))
    (fun (id, name, symbol, assetClass, originChain, issuer, totalSupply, decimals, status,
      compliancePolicy, valuationOracle, documents, metadataUri, jurisdiction, legalEntity,
      transferMode, registrar, redemptionPool, requiresKyc, createdAt) =>
      ⟨id, name, symbol, assetClass, originChain, issuer, totalSupply, decimals, status,
        compliancePolicy, valuationOracle, documents, metadataUri, jurisdiction, legalEntity,
        transferMode, registrar, redemptionPool, requiresKyc, createdAt⟩)
    (fun _ => rfl)

def isTradeable (a : AssetRecord) : Bool := a.status == .active

def freeze (a : AssetRecord) : AssetRecord := { a with status := .frozen }

/-- Back to active, if the asset is frozen. -/
def unfreeze (a : AssetRecord) : AssetRecord :=
  if a.status = .frozen then { a with status := .active } else a

def isRedemptionPending (a : AssetRecord) : Bool := a.status == .redemptionPending

end AssetRecord

/-- What an account holds of an asset. -/
structure OwnershipRecord where
  assetId : H256
  owner : Address
  available : Amount
  locked : Amount
deriving DecidableEq

namespace OwnershipRecord

/-- A record with nothing in it. -/
def new (assetId : H256) (owner : Address) : OwnershipRecord := ⟨assetId, owner, .zero, .zero⟩

instance : Borsh OwnershipRecord :=
  .ofIso (fun r => (r.assetId, r.owner, r.available, r.locked))
    (fun (assetId, owner, available, locked) => ⟨assetId, owner, available, locked⟩) (fun _ => rfl)

/-- Available and locked together; aborts on overflow. -/
def total (r : OwnershipRecord) : Option Amount := r.available.checkedAdd r.locked

/-- More available; aborts on overflow. -/
def credit (r : OwnershipRecord) (amount : Amount) : Option OwnershipRecord :=
  (r.available.checkedAdd amount).map fun available => { r with available }

/-- Less available, unless there is not enough. -/
def debit (r : OwnershipRecord) (amount : Amount) : Option OwnershipRecord :=
  (r.available.checkedSub amount).map fun available => { r with available }

end OwnershipRecord

/-! ## Oracle feeds -/

/-- What a feed reports. -/
inductive OracleFeedType where
  | assetValuation (assetId : H256)
  | marketPrice (pair : String)
  | interestRate (name : String)
  | custom (name : String)
deriving DecidableEq

namespace OracleFeedType

instance : Borsh OracleFeedType :=
  .ofVariants [.of assetValuation, .of marketPrice, .of interestRate, .of custom] (by decide)
    (fun
      | assetValuation assetId => ⟨0, assetId⟩ | marketPrice pair => ⟨1, pair⟩
      | interestRate name => ⟨2, name⟩ | custom name => ⟨3, name⟩)
    (fun t => by cases t <;> rfl)

end OracleFeedType

/-- A value reported by one source. -/
structure OracleSubmission where
  source : Address
  value : Amount
  timestamp : Timestamp
deriving DecidableEq

instance : Borsh OracleSubmission :=
  .ofIso (fun s => (s.source, s.value, s.timestamp))
    (fun (source, value, timestamp) => ⟨source, value, timestamp⟩) (fun _ => rfl)

/-- An oracle feed. -/
structure OracleFeed where
  feedId : H256
  name : String
  feedType : OracleFeedType
  authorizedSources : List Address
  quorum : UInt8
  maxStalenessMs : UInt64
  latestValue : Option Amount
  decimals : UInt8
  updatedAt : Timestamp
  pendingSubmissions : List OracleSubmission
  createdAt : UInt64
deriving DecidableEq

namespace OracleFeed

instance : Borsh OracleFeed :=
  .ofIso
    (fun f => (f.feedId, f.name, f.feedType, f.authorizedSources, f.quorum, f.maxStalenessMs,
      f.latestValue, f.decimals, f.updatedAt, f.pendingSubmissions, f.createdAt))
    (fun (feedId, name, feedType, authorizedSources, quorum, maxStalenessMs, latestValue, decimals,
      updatedAt, pendingSubmissions, createdAt) =>
      ⟨feedId, name, feedType, authorizedSources, quorum, maxStalenessMs, latestValue, decimals,
        updatedAt, pendingSubmissions, createdAt⟩)
    (fun _ => rfl)

/-- A new feed; a quorum of zero is taken as one. -/
def newWithDecimals (feedId : H256) (name : String) (feedType : OracleFeedType)
    (authorizedSources : List Address) (quorum : UInt8) (maxStalenessMs : UInt64)
    (decimals : UInt8) : OracleFeed where
  feedId
  name
  feedType
  authorizedSources
  quorum := if quorum ≤ 1 then 1 else quorum
  maxStalenessMs
  latestValue := none
  decimals
  updatedAt := 0
  pendingSubmissions := []
  createdAt := 0

/-- Publish the median of the pending values under the latest of their times, and drop them. -/
def aggregate (f : OracleFeed) : OracleFeed :=
  let values := (f.pendingSubmissions.map (·.value)).insertionSort (· ≤ ·)
  match values[values.length / 2]? with
  | none => f
  | some median =>
    { f with
      latestValue := some median
      updatedAt :=
        f.pendingSubmissions.foldl (fun t s => if t ≤ s.timestamp then s.timestamp else t) 0
      pendingSubmissions := [] }

/-- A value from a source, replacing its pending one; says whether the quorum was reached. -/
def submit (f : OracleFeed) (source : Address) (value : Amount) (timestamp : Timestamp) :
    Bool × OracleFeed :=
  if !f.authorizedSources.contains source then
    (false, f)
  else
    let kept := f.pendingSubmissions.filter fun s => s.source != source
    let f := { f with pendingSubmissions := kept ++ [⟨source, value, timestamp⟩] }
    if f.quorum.toNat ≤ f.pendingSubmissions.length then (true, f.aggregate) else (false, f)

def isAuthorized (f : OracleFeed) (source : Address) : Bool :=
  f.authorizedSources.contains source

end OracleFeed

end Vtt
