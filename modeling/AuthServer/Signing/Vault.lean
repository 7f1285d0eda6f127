import AuthServer.Signing.JWKS

/-!
# The transit store

`Store` of `internal/adapters/hcvault/store.go`. The transit engine makes the keys and signs with
them; the server knows a key by its name and the number of its version. `Save` asks the engine for a
new version and keeps nothing of the key it is given.
-/

namespace AuthServer

open Interleave

variable (prims : Primitives) (cfg : Config)

namespace Signing

/-- What the engine answers about a key: its latest version, and the public keys of the versions it
shows. -/
structure TransitKey where
  latestVersion : Int
  keys : Int → Option String

/-- The transit engine: the key, if it was made, and how many versions it has made. -/
structure Transit where
  key : Option TransitKey
  made : ℕ

namespace Vault

structure Config where
  keyName : String
  algorithm : String

/-- `vaultKeyType`, empty for an algorithm that is not supported. -/
def vaultKeyType (algorithm : String) : String :=
  if algorithm = "ES256" then "ecdsa-p256"
  else if algorithm = "RS256" then "rsa-2048"
  else ""

/-- `readKeyVersions`; no key is an answer of its own, as the callers tell it by its status code. -/
def readKeyVersions (fault : String) : Prog Transit Err (Option TransitKey) :=
  Prog.query (.fault fault) fun v => .ok v.key

def buildSigningKey (key : TransitKey) (version : Int) : Except Err SigningKey :=
  match key.keys version with
  | none => .error (.fault ("version " ++ toString version ++ " not found in transit key"))
  | some pem => do
    let pub ← (prims.parseTransitPublicKey pem).mapError
      (Err.wrap ("parse public key v" ++ toString version))
    .ok ⟨.transit cfg.keyName version, pub, cfg.algorithm, cfg.keyName ++ "-v" ++ toString version⟩

def current : Option TransitKey → Except Err (Option SigningKey)
  | none => .ok none
  | some key => do
    let sk ← (buildSigningKey prims cfg key key.latestVersion).mapError
      (Err.wrap ("build signing key v" ++ toString key.latestVersion))
    .ok (some sk)

/-- The version before it, if the engine still shows it. -/
def previous : Option TransitKey → Except Err (Option SigningKey)
  | none => .ok none
  | some key =>
    if key.latestVersion - 1 < 1 then .ok none
    else if (key.keys (key.latestVersion - 1)).isNone then .ok none
    else do
      let sk ← (buildSigningKey prims cfg key (key.latestVersion - 1)).mapError
        (Err.wrap ("build signing key v" ++ toString (key.latestVersion - 1)))
      .ok (some sk)

def loadCurrent : Prog Transit Err (Option SigningKey) := do
  let key ← readKeyVersions "read transit key"
  Prog.ofExcept (current prims cfg key)

def loadPrevious : Prog Transit Err (Option SigningKey) := do
  let key ← readKeyVersions "read transit key"
  Prog.ofExcept (previous prims cfg key)

/-- `Client.CreateKey`: a key that is there is left as it is. -/
def createKey : Prog Transit Err Unit :=
  Prog.exec (.fault "create transit key") fun v =>
    match v.key with
    | some _ => (.ok (), v)
    | none =>
      (.ok (), ⟨some ⟨1, fun n => if n = 1 then some (prims.transitPublicKey v.made)
        else none⟩, v.made + 1⟩)

/-- `Client.RotateKey`: a version more. -/
def rotateKey : Prog Transit Err Unit :=
  Prog.exec (.fault "rotate transit key") fun v =>
    match v.key with
    | none => (.error (.fault "rotate transit key"), v)
    | some key =>
      (.ok (), ⟨some ⟨key.latestVersion + 1, fun n =>
        if n = key.latestVersion + 1 then some (prims.transitPublicKey v.made)
          else key.keys n⟩, v.made + 1⟩)

/-- `Store.Save`. The key is not used. -/
def save (_key : SigningKey) : Prog Transit Err Unit := do
  let key ← readKeyVersions "check transit key"
  match key with
  | none =>
    if vaultKeyType cfg.algorithm = "" then
      Prog.fail (.fault ("unsupported algorithm for Vault Transit: " ++ cfg.algorithm))
    else createKey prims
  | some _ => rotateKey prims

def store : KeyStore Transit where
  loadCurrent _ := loadCurrent prims cfg
  loadPrevious _ := loadPrevious prims cfg
  save _ := save prims cfg
  listActive _ := listBoth (loadCurrent prims cfg) (loadPrevious prims cfg)

def view (v : Transit) : View where
  current := (current prims cfg v.key).toOption
  previous := (previous prims cfg v.key).toOption

theorem run_loadCurrent (v : Transit) :
    (loadCurrent prims cfg).run [] v = (current prims cfg v.key, v) := Prog.run_ofExcept _ [] v

theorem run_loadPrevious (v : Transit) :
    (loadPrevious prims cfg).run [] v = (previous prims cfg v.key, v) := Prog.run_ofExcept _ [] v

/-- **Reading the transit key changes nothing.** Of a saved key nothing can be said. -/
theorem keeps :
    Keeps prims (store prims cfg) (fun _ => True) (fun _ => False) (view prims cfg) where
  loadCurrent _ v _ := ⟨_, v, run_loadCurrent prims cfg v, rfl, trivial, rfl, id⟩
  loadPrevious _ v _ := ⟨_, v, run_loadPrevious prims cfg v, rfl, trivial, rfl⟩
  listActive _ v _ := by
    have hrun : (listBoth (loadCurrent prims cfg) (loadPrevious prims cfg)).run [] v =
        ((current prims cfg v.key).bind fun c =>
          (previous prims cfg v.key).map fun p => c.toList ++ p.toList, v) := by
      refine (Prog.run_bind (loadCurrent prims cfg) _ v).trans ?_
      rw [run_loadCurrent]
      cases current prims cfg v.key with
      | error e => rfl
      | ok c =>
        refine (Prog.run_bind (loadPrevious prims cfg) _ v).trans ?_
        rw [run_loadPrevious]
        cases previous prims cfg v.key <;> rfl
    refine ⟨_, v, hrun, ?_, trivial, rfl⟩
    cases hcurrent : current prims cfg v.key <;> cases hprevious : previous prims cfg v.key <;>
      simp [View.list, view, hcurrent, hprevious, Except.toOption, Except.bind, Except.map]
  save _ _ _ _ _ hfit := hfit.elim
  saveFails ctx v sk e v' _ _ hrun := by
    rcases Prog.cases_of_run_bind hrun with ⟨e', hread, -⟩ | ⟨key, v₁, hread, hrun⟩
    · cases (Prod.mk.inj hread).1
    obtain ⟨hkey, rfl⟩ := Prod.mk.inj hread
    obtain rfl : v.key = key := Except.ok.inj hkey
    cases hv : v.key with
    | none =>
      simp only [hv] at hrun
      split at hrun
      · obtain rfl := (Prod.mk.inj hrun).2
        exact ⟨trivial, rfl⟩
      · simp [createKey, Prog.exec, Prog.run, hv, Prog.ofExcept] at hrun
    | some key => simp [hv, rotateKey, Prog.exec, Prog.run, Prog.ofExcept] at hrun

end Vault

end Signing

end AuthServer
