import Vtt.Primitives.Block

/-!
# Hashing and signatures

BLAKE3 and Ed25519 are outside the code base. They are the fields of `Crypto`: arbitrary functions,
of which a result assumes only what it names.
-/

namespace Vtt

open Lib

/-- The cryptographic functions the code calls. -/
class Crypto where
  /-- BLAKE3. -/
  blake3Hash : Bytes → H256
  /-- Ed25519 verification of a signature over a message under a public key. -/
  verify : Bytes → Signature → PublicKey → Bool
  /-- The public key of a 32-byte secret seed. -/
  publicKeyOfSeed : BitVec 256 → PublicKey
  /-- The signature of a message under a 32-byte secret seed. -/
  signWithSeed : BitVec 256 → Bytes → Signature

export Crypto (blake3Hash verify)

variable [Crypto]

/-- A signing key. -/
structure Keypair where
  seed : BitVec 256
deriving DecidableEq

def Keypair.publicKey (k : Keypair) : PublicKey := Crypto.publicKeyOfSeed k.seed

def Keypair.sign (k : Keypair) (message : Bytes) : Signature := Crypto.signWithSeed k.seed message

/-- The address of a public key: the last 20 bytes of its hash. -/
def addressFromPublicKey (key : PublicKey) : Address :=
  .fromSlice ((blake3Hash key.asBytes).asBytes.drop 12)

def Keypair.address (k : Keypair) : Address := addressFromPublicKey k.publicKey

/-- One level of the Merkle tree: neighbours are hashed together, an odd last one moves up. -/
def merkleLevel : List H256 → List H256
  | a :: b :: rest => blake3Hash (a.asBytes ++ b.asBytes) :: merkleLevel rest
  | [a] => [a]
  | [] => []

/-- The levels of the Merkle tree up to the root. Each level is shorter than the one below, so the
length of the bottom level is enough rounds. -/
def merkleClimb : Nat → List H256 → H256
  | _, [] => .zero
  | _, [h] => h
  | 0, h :: _ => h
  | rounds + 1, hashes => merkleClimb rounds (merkleLevel hashes)

/-- The Merkle root of a list of hashes; the zero hash for the empty list. -/
def merkleRoot (hashes : List H256) : H256 := merkleClimb hashes.length hashes

/-- The hash of a block header, which is the hash of the block. -/
def BlockHeader.hash (h : BlockHeader) : H256 := blake3Hash h.signableBytes

/-- The signature of a header verifies under a key of the validator that the header names. -/
def BlockHeader.Authentic (h : BlockHeader) : Prop :=
  ∃ key, addressFromPublicKey key = h.validator ∧ verify h.signableBytes h.signature key = true

/-- For every message there is a signature that verifies under no key. -/
def Crypto.Refutable : Prop := ∀ message, ∃ signature, ∀ key, verify message signature key = false

/-- A header has a signature that its validator did not make. -/
theorem Crypto.Refutable.exists_not_authentic (h : Crypto.Refutable) (header : BlockHeader) :
    ∃ signature, ¬ (header.withSignature signature).Authentic := by
  obtain ⟨signature, hnone⟩ := h header.signableBytes
  refine ⟨signature, ?_⟩
  rintro ⟨key, -, hverify⟩
  exact Bool.false_ne_true ((hnone key).symm.trans hverify)

/-- The hash of a transaction. -/
def SignedTransaction.hash (tx : SignedTransaction) : H256 := blake3Hash tx.payloadBytes

/-- The sender of a transaction. -/
def SignedTransaction.sender (tx : SignedTransaction) : Address :=
  addressFromPublicKey tx.publicKey

end Vtt
