import JJDai.Lib.AsciiText
import JJDai.Lib.CounterStream
import JJDai.Primitive.Builtins

/-! `core.identity.SaltVault`: the salts in one encrypted file, which every `put` rewrites in place. -/

namespace JJDai.Identity

open PyText Durable

/-- `hashlib.scrypt` of a password and a salt with the vault's parameters, and HMAC-SHA256 of a key and a
message. -/
structure VaultCrypto where
  scrypt : Bytes → Bytes → Bytes
  hmac : Bytes → Bytes → Bytes
  hmac_length : ∀ key message, (hmac key message).length = 32

structure Draw where
  bytes : Bytes
  length_eq : bytes.length = 16

def magic : Bytes := ascii "JJSV"

def counterBytes (i : Nat) : Bytes :=
  [UInt8.ofNat (i / 2 ^ 24), UInt8.ofNat (i / 2 ^ 16), UInt8.ofNat (i / 2 ^ 8), UInt8.ofNat i]

def toBytes4 (i : Nat) : Py Bytes := if i < 2 ^ 32 then return counterBytes i else raise .overflowError

structure SaltVault where
  passphrase : Str
  salts : Json := .obj []

def vaultKey (index : Int) (field : Str) : Str := intText index ++ ch ':' :: field

def setItem : Json → Str → Json → Py Json
  | .obj fields, key, value => return .obj (Dict.set fields key value)
  | _, _, _ => raise .typeError

variable (crypto : VaultCrypto)

/-- The keystream of `_save` and of `_load`, for a text of some length. -/
def keystream (key salt : Bytes) (length : Nat) : Py Bytes := do
  let blocks ← (List.range ((length + 31) / 32)).mapM (fun i => do
    let counter ← toBytes4 i
    return crypto.hmac key (salt ++ counter))
  return blocks.flatten.take length

namespace SaltVault

def saved (vault : SaltVault) (random : Draw) : Py Bytes := do
  let blob ← encode vault.salts.dumpsAscii
  let key := crypto.scrypt (← encode vault.passphrase) random.bytes
  let stream ← keystream crypto key random.bytes blob.length
  let ct := CounterStream.xor blob stream
  let tag := crypto.hmac key ct
  return magic ++ (random.bytes ++ (tag ++ ct))

def load (passphrase : Str) (file : Bytes) : Py SaltVault := do
  if file.take 4 ≠ magic then raise .identityError "bad salt-vault magic"
  let salt := (file.drop 4).take 16
  let tag := (file.drop 20).take 32
  let ct := file.drop 52
  let key := crypto.scrypt (← encode passphrase) salt
  if tag ≠ crypto.hmac key ct then
    raise .identityError "salt-vault auth failed (wrong passphrase/tamper)"
  let stream ← keystream crypto key salt ct.length
  match decodeUtf8 (CounterStream.xor ct stream) with
  | none => raise .unicodeDecodeError
  | some text =>
    match Json.loads text with
    | none => raise .valueError
    | some salts => return { passphrase, salts }

/-- `SaltVault(path, passphrase)` over the file at the path, if there is one. -/
def reopen (passphrase : Str) : Option Bytes → Py SaltVault
  | none => return { passphrase }
  | some file => load crypto passphrase file

def get (vault : SaltVault) (index : Int) (field : Str) : Py Json := dotGet vault.salts (vaultKey index field)

end SaltVault

/-- One call of `put`, with the salt that `_save` draws in it. -/
structure Put where
  index : Int
  field : Str
  saltHex : Str
  random : Draw

/-- A vault in memory, and the file at its path. -/
structure Vaulted where
  vault : SaltVault
  file : Option Bytes := none

namespace Vaulted

open SaltVault

/-- `put`: what the call leaves, and whether it returned. The map in memory is changed first. -/
def put (state : Vaulted) (call : Put) : Vaulted × Py Unit :=
  match setItem state.vault.salts (vaultKey call.index call.field) (.str call.saltHex) with
  | .error e => (state, .error e)
  | .ok salts =>
    let vault := { state.vault with salts }
    match vault.saved crypto call.random with
    | .error e => ({ state with vault }, .error e)
    | .ok bytes => (⟨vault, some bytes⟩, .ok ())

/-- `SaltVault(path, passphrase)` again, in the same process or in a later one. -/
def reopened (state : Vaulted) : Vaulted :=
  match reopen crypto state.vault.passphrase state.file with
  | .error _ => state
  | .ok vault => { state with vault }

end Vaulted

inductive Act where
  | put (call : Put)
  | reopen

namespace Vaulted

def next (state : Vaulted) : Act → Vaulted
  | .put call => (state.put crypto call).1
  | .reopen => state.reopened crypto

def run (state : Vaulted) (acts : List Act) : Vaulted := acts.foldl (next crypto) state

end Vaulted

/-- Where the process stops in a `put`: before the file is opened for writing, or with some bytes of it written. -/
inductive Stop where
  | before
  | written (n : Nat)

/-- The file that is left; one that is opened for writing is empty first. -/
def Vaulted.stopped (state : Vaulted) (call : Put) (stop : Stop) : Option Bytes :=
  match stop, state.put crypto call with
  | .before, _ => state.file
  | .written _, (after, .error _) => after.file
  | .written n, (after, .ok ()) => after.file.map (·.take n)

end JJDai.Identity
