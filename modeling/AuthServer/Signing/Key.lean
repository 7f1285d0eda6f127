import AuthServer.Domain.Error
import AuthServer.Interleave.Program
import AuthServer.Text.Fields

/-!
# Signing keys and their stores

`output.SigningKey` and `output.KeyStore` of `internal/ports/output/key_store.go`, and what the
three implementations of the port share: key generation and the encodings of a private key.

A key store is a record of programs, one for each method of the port, over a state of its own. A key
that the server generated holds its private half; a key of a transit store holds a reference to a
version that the store signs with.

What is not under the repository's control is a parameter, `Primitives`: the random values, the PEM
and PKCS#8 encodings, and the encryption of a key at rest. An encoding is undone by its decoding;
nothing else is asked of any of them. -/

namespace AuthServer

open Interleave

/-- Identifies a call among those being served. -/
abbrev CallID := ℕ

namespace Signing

/-- The Go type of a parsed private key. -/
inductive KeyKind
  | ecdsa
  | rsa
  | other
  deriving DecidableEq, Repr

structure PrivateKey where
  kind : KeyKind
  material : String
  deriving DecidableEq, Repr

/-- `crypto.Signer`: a key in memory, or a version of a key that stays in the transit store. -/
inductive Signer
  | software (key : PrivateKey)
  | transit (keyName : String) (version : Int)
  deriving DecidableEq, Repr

structure SigningKey where
  privateKey : Signer
  publicKey : String
  algorithm : String
  keyID : String
  deriving DecidableEq, Repr

/-- `jose.JSONWebKey`, public only. -/
structure JSONWebKey where
  key : String
  keyID : String
  algorithm : String
  use : String
  deriving DecidableEq, Repr

def portKeyToJWK (sk : SigningKey) : JSONWebKey where
  key := sk.publicKey
  keyID := sk.keyID
  algorithm := sk.algorithm
  use := "sig"

/-- What the key stores call and do not define. -/
structure Primitives where
  /-- `crypto.GenerateRandomString(16)`: the values it will return, in order. -/
  randomString : ℕ → String
  /-- The alphabet is that of base64url. -/
  randomString_word : ∀ n, Text.Word (randomString n)
  /-- The same function where the Postgres store makes an identifier for a row. -/
  rowID : ℕ → String
  /-- The private keys that will be generated, in order. -/
  keyMaterial : ℕ → String
  /-- The public half of a private key. -/
  publicKey : PrivateKey → String
  /-- `x509.MarshalPKCS8PrivateKey` and `pem.EncodeToMemory`. -/
  encodePEM : PrivateKey → String
  /-- `pem.Decode` and `x509.ParsePKCS8PrivateKey`. -/
  decodePEM : String → Except Err PrivateKey
  decode_encode : ∀ k, decodePEM (encodePEM k) = .ok k
  /-- `DataEncryptor.Encrypt`, under an owner context. -/
  encrypt : String → String → Except Err String
  /-- `DataEncryptor.Decrypt`. -/
  decrypt : String → String → Except Err String
  decrypt_encrypt : ∀ {text owner cipher}, encrypt text owner = .ok cipher →
    decrypt cipher owner = .ok text
  /-- The public keys that the transit engine will generate, in order. -/
  transitPublicKey : ℕ → String
  /-- `parseTransitPublicKey`. -/
  parseTransitPublicKey : String → Except Err String

/-- The kind of key `crypto.GenerateKeyPair` makes for an algorithm. -/
def kindOf (algorithm : String) : Option KeyKind :=
  if algorithm = "ES256" then some .ecdsa
  else if algorithm = "RS256" then some .rsa
  else none

/-- `crypto.GenerateKeyPair`, at the `n`-th private key, as the `SigningKey` that `generateAndSave`
makes of it. -/
def generateKeyPair (prims : Primitives) (algorithm kid : String) (n : ℕ) : Except Err SigningKey :=
  match kindOf algorithm with
  | none => .error (.fault ("generate key pair: unsupported algorithm: " ++ algorithm))
  | some kind =>
    let key : PrivateKey := ⟨kind, prims.keyMaterial n⟩
    .ok ⟨.software key, prims.publicKey key, algorithm, kid⟩

/-- The signing key that a store makes of a private key it has read. -/
def ofPrivateKey (prims : Primitives) (algorithm kid : String) (key : PrivateKey) :
    Except Err SigningKey :=
  match key.kind with
  | .other => .error (.fault "unsupported key type")
  | _ => .ok ⟨.software key, prims.publicKey key, algorithm, kid⟩

/-- `output.KeyStore`, over the state of the store. -/
structure KeyStore (σ : Type) where
  loadCurrent : CallID → Prog σ Err (Option SigningKey)
  loadPrevious : CallID → Prog σ Err (Option SigningKey)
  save : CallID → SigningKey → Prog σ Err Unit
  listActive : CallID → Prog σ Err (List SigningKey)

/-- `ListActive` as the key-file store and the transit store have it: the current key, then the
previous one. -/
def listBoth {σ : Type} (loadCurrent loadPrevious : Prog σ Err (Option SigningKey)) :
    Prog σ Err (List SigningKey) := do
  let current ← loadCurrent
  let previous ← loadPrevious
  pure (current.toList ++ previous.toList)

/-! ### Generated keys -/

/-- A key as `generateAndSave` makes them. -/
structure Generated (prims : Primitives) (sk : SigningKey) : Prop where
  software : ∃ key : PrivateKey, key.kind ≠ .other ∧ sk.privateKey = .software key ∧
    sk.publicKey = prims.publicKey key
  algorithm : Text.Word sk.algorithm
  keyID : Text.Word sk.keyID

theorem generated_of_generateKeyPair {prims : Primitives} {algorithm kid : String} {n : ℕ}
    {sk : SigningKey} (hkid : Text.Word kid) (h : generateKeyPair prims algorithm kid n = .ok sk) :
    Generated prims sk := by
  unfold generateKeyPair at h
  cases hkind : kindOf algorithm with
  | none => simp [hkind] at h
  | some kind =>
    rw [hkind] at h
    obtain rfl := Except.ok.inj h
    have hcase : (algorithm = "ES256" ∧ kind = .ecdsa) ∨ (algorithm = "RS256" ∧ kind = .rsa) := by
      unfold kindOf at hkind
      split at hkind
      · exact .inl ⟨‹_›, (Option.some.inj hkind).symm⟩
      · split at hkind
        · exact .inr ⟨‹_›, (Option.some.inj hkind).symm⟩
        · cases hkind
    have hes : Text.Word "ES256" := by simp [Text.Word, Text.isSpace]
    have hrs : Text.Word "RS256" := by simp [Text.Word, Text.isSpace]
    rcases hcase with ⟨rfl, rfl⟩ | ⟨rfl, rfl⟩
    · exact ⟨⟨_, KeyKind.noConfusion, rfl, rfl⟩, hes, hkid⟩
    · exact ⟨⟨_, KeyKind.noConfusion, rfl, rfl⟩, hrs, hkid⟩

theorem Generated.ofPrivateKey {prims : Primitives} {sk : SigningKey} (h : Generated prims sk)
    {key : PrivateKey} (hkey : sk.privateKey = .software key) :
    Signing.ofPrivateKey prims sk.algorithm sk.keyID key = .ok sk := by
  obtain ⟨key', hkind, hpriv, hpub⟩ := h.software
  obtain rfl : key = key' := Signer.software.inj (hkey.symm.trans hpriv)
  obtain ⟨priv, pub, alg, kid⟩ := sk
  simp only at hpriv hpub
  subst hpriv hpub
  cases hk : key.kind with
  | other => exact absurd hk hkind
  | ecdsa => simp [Signing.ofPrivateKey, hk]
  | rsa => simp [Signing.ofPrivateKey, hk]

namespace Sample

/-- Primitives of a small deployment: an encoding tells the kind in one letter, and encryption puts
the owner in front of the text. -/
def primitives : Primitives where
  randomString n := String.ofList ('k' :: List.replicate n '1')
  randomString_word n := by
    have hk : Text.isSpace 'k' = false := by decide
    have hone : Text.isSpace '1' = false := by decide
    refine ⟨fun h => ?_, fun c hc => ?_⟩
    · have := congrArg String.toList h
      simp at this
    · rw [String.toList_ofList] at hc
      rcases List.mem_cons.mp hc with rfl | hc
      · exact hk
      · rw [(List.mem_replicate.mp hc).2]
        exact hone
  rowID n := String.ofList ('r' :: List.replicate n '1')
  keyMaterial n := String.ofList ('m' :: List.replicate n '1')
  publicKey key := "pub-" ++ key.material
  encodePEM key :=
    String.ofList
      ((match key.kind with | .ecdsa => 'E' | .rsa => 'R' | .other => 'O') :: key.material.toList)
  decodePEM text :=
    match text.toList with
    | 'E' :: material => .ok ⟨.ecdsa, String.ofList material⟩
    | 'R' :: material => .ok ⟨.rsa, String.ofList material⟩
    | 'O' :: material => .ok ⟨.other, String.ofList material⟩
    | _ => .error (.fault "decode PEM: no PEM block found")
  decode_encode key := by
    obtain ⟨kind, material⟩ := key
    cases kind <;> simp
  encrypt text owner := .ok (owner ++ text)
  decrypt cipher owner := .ok (String.ofList (cipher.toList.drop owner.toList.length))
  decrypt_encrypt := by
    intro text owner cipher h
    obtain rfl := Except.ok.inj h
    simp [String.toList_append]
  transitPublicKey n := String.ofList ('t' :: List.replicate n '1')
  parseTransitPublicKey pem := .ok pem

end Sample

end Signing

end AuthServer
