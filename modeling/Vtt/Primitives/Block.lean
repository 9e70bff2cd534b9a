import Vtt.Primitives.Transaction

/-!
# Blocks

A block header is hashed and signed with its signature field set to zero, so the hash of a block
does not depend on its signature.
-/

namespace Vtt

open Lib

/-- A block header. -/
structure BlockHeader where
  version : UInt32
  chainId : ChainId
  number : BlockNumber
  parentHash : H256
  transactionsRoot : H256
  stateRoot : H256
  receiptsRoot : H256
  validator : Address
  epoch : Epoch
  slot : UInt32
  timestamp : Timestamp
  gasLimit : UInt64
  gasUsed : UInt64
  crossChainRoot : Option H256
  signature : Signature
deriving DecidableEq

namespace BlockHeader

instance : Borsh BlockHeader :=
  .ofIso (fun h => (h.version, h.chainId, h.number, h.parentHash, h.transactionsRoot, h.stateRoot,
      h.receiptsRoot, h.validator, h.epoch, h.slot, h.timestamp, h.gasLimit, h.gasUsed,
      h.crossChainRoot, h.signature))
    (fun (version, chainId, number, parentHash, transactionsRoot, stateRoot, receiptsRoot,
      validator, epoch, slot, timestamp, gasLimit, gasUsed, crossChainRoot, signature) =>
      ⟨version, chainId, number, parentHash, transactionsRoot, stateRoot, receiptsRoot, validator,
        epoch, slot, timestamp, gasLimit, gasUsed, crossChainRoot, signature⟩)
    (fun _ => rfl)

/-- The header with another signature. -/
def withSignature (h : BlockHeader) (signature : Signature) : BlockHeader :=
  { h with signature }

/-- The bytes that are hashed and signed. -/
def signableBytes (h : BlockHeader) : Bytes :=
  Borsh.serialize (h.withSignature .zero)

/-- A header has no sequence that could be too long for its length field. -/
theorem fits (h : BlockHeader) : Borsh.Fits h := by
  cases hroot : h.crossChainRoot with
  | none | some => simp [Borsh.Fits, hroot]

end BlockHeader

/-- A block: its header and its transactions. -/
structure Block where
  header : BlockHeader
  transactions : List SignedTransaction
deriving DecidableEq

instance : Borsh Block :=
  .ofIso (fun b => (b.header, b.transactions)) (fun (header, transactions) =>
    ⟨header, transactions⟩) (fun _ => rfl)

/-- The block with another signature in its header. -/
def Block.withSignature (b : Block) (signature : Signature) : Block :=
  { b with header := b.header.withSignature signature }

end Vtt
