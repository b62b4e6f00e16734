import JJDai.Lib.Hex

/-! The primitives of `jjdai.crypto`, with SHA-256 and Ed25519 as parameters. -/

namespace JJDai

open PyText

/-- A hash with 32-byte digests and a signature scheme over byte strings. -/
structure Crypto where
  H : Bytes → Bytes
  length_H : ∀ data, (H data).length = 32
  publicKey : Bytes → Bytes
  sign : Bytes → Bytes → Bytes
  verify : Bytes → Bytes → Bytes → Bool

/-- Base-256 digits of a number, 32 of them. -/
private def bytes32 (n : Nat) : Bytes := (List.range 32).map (fun i => UInt8.ofNat (n / 256 ^ i))

/-- A small instance to evaluate the model on: a polynomial digest, and tags
bound to the key and the message. -/
def Crypto.sample : Crypto where
  H data := bytes32 (data.foldl (fun n b => (n * 257 + b.toNat + 1) % 2 ^ 256) 0)
  length_H data := by simp [bytes32]
  publicKey seed := seed
  sign seed msg := seed ++ bytes32 (msg.foldl (fun n b => (n * 257 + b.toNat + 1) % 2 ^ 256) 7)
  verify pub msg sig := decide
    (sig = pub ++ bytes32 (msg.foldl (fun n b => (n * 257 + b.toNat + 1) % 2 ^ 256) 7))

structure SigningKey where
  seed : Bytes
  length_seed : seed.length = 32

def SigningKey.sample (n : UInt8) : SigningKey where
  seed := List.replicate 32 n
  length_seed := List.length_replicate

variable (crypto : Crypto)

def H_hex (data : Bytes) : Str := toHex (crypto.H data)

def SigningKey.publicKey (sk : SigningKey) : Bytes := crypto.publicKey sk.seed

def SigningKey.sign (sk : SigningKey) (msg : Bytes) : Bytes := crypto.sign sk.seed msg

def canonicalNodeId (pub : Bytes) : Str := Str.ofString "node:" ++ H_hex crypto pub

end JJDai
