import AuthServer.Signing.Publication

/-!
# Rotations from the command line

`authserver admin key rotate` runs in a process of its own: it opens the key directory of the
server, rotates the key, and ends. The server reads the signing key from the directory on each use,
while the set it publishes may be one it has built earlier and keeps in memory, which a command-line
process cannot reach.
-/

namespace AuthServer

open Interleave

namespace Signing

namespace CommandLine

/-- What happens next: a call in the server, or a rotation by a command-line process, with the
random values that process draws. -/
inductive Turn
  | server (op : Op) (notRotate : op ≠ .rotateKey) (ctx : CallID)
  | rotate (ctx : CallID) (drawn : ℕ)

/-- The service of either process. -/
def service (prims : Primitives) (algorithm : String) : JWKSService KeyDir where
  prims := prims
  keyStore := Keyfile.store prims
  algorithm := algorithm

theorem keeps_service (prims : Primitives) (algorithm : String) :
    Keeps (service prims algorithm).prims (service prims algorithm).keyStore
      (fun _ => True) (fun _ => True)
      (Keyfile.view prims) := Keyfile.keeps prims

variable {prims : Primitives}

/-- The server, with the directory the processes share, after one turn. Whether the call succeeds
does not matter. -/
def afterTurn (svc : JWKSService KeyDir) (h : Host KeyDir) : Turn → Host KeyDir
  | .server op _ ctx => ((svc.call op ctx).run [] h).2
  | .rotate ctx drawn =>
    { h with store := ((svc.call .rotateKey ctx).run [] (Host.start h.store drawn)).2.store }

/-- … after several. -/
def afterTurns (svc : JWKSService KeyDir) (h : Host KeyDir) (turns : List Turn) : Host KeyDir :=
  turns.foldl (afterTurn svc) h

def Turn.rotations : Turn → ℕ
  | .server _ _ _ => 0
  | .rotate _ _ => 1

/-- How many rotations there are among several turns. -/
def rotationsIn (turns : List Turn) : ℕ := (turns.map Turn.rotations).sum

/-- The key is published: as far back as it is, it is in the directory and in the set in memory. -/
def Published (prims : Primitives) (sk : SigningKey) (n : ℕ) (h : Host KeyDir) : Prop :=
  Within sk (Keyfile.view prims h.store) n ∧
    (n ≤ 1 → ∀ set, h.cache = some set → portKeyToJWK sk ∈ set)

variable {sk : SigningKey} {n : ℕ}

theorem mem_of_refresh {v : View} (hwithin : Within sk v n) (hn : n ≤ 1)
    {cache : Option (List JSONWebKey)} (hcache : ∀ set, cache = some set → portKeyToJWK sk ∈ set)
    {set : List JSONWebKey} (hset : v.refresh cache = some set) : portKeyToJWK sk ∈ set := by
  unfold View.refresh at hset
  split at hset
  · rename_i keys hlist
    obtain rfl := Option.some.inj hset
    exact List.mem_map_of_mem (hwithin.mem_list hn hlist)
  · exact hcache set hset

variable {h : Host KeyDir}

theorem moves_of_run (prims : Primitives) (algorithm : String) (op : Op) (ctx : CallID)
    (h : Host KeyDir) :
    Moves (Keyfile.view prims) op h (((service prims algorithm).call op ctx).run [] h).2 :=
  (moves_of_call (keeps_service prims algorithm) trivial (fun _ => trivial) rfl).2.1

/-- A rotation takes the key one place further back in the directory, and nothing else does. -/
theorem within_afterTurn (hwithin : Within sk (Keyfile.view prims h.store) n) (algorithm : String)
    (turn : Turn) :
      Within sk (Keyfile.view prims (afterTurn (service prims algorithm) h turn).store)
      (n + turn.rotations) := by
  cases turn with
  | server op hop ctx =>
    have hlater := hwithin.moves (moves_of_run prims algorithm op ctx h)
    rwa [Op.rotations, if_neg hop] at hlater
  | rotate ctx drawn =>
    have hmoves := moves_of_run prims algorithm .rotateKey ctx (Host.start h.store drawn)
    exact Within.moves (n := n) (h := Host.start h.store drawn) hwithin hmoves

/-- **One turn.** A call of the server may rebuild the set, a rotation from outside does not. -/
theorem Published.afterTurn (hpublished : Published prims sk n h) (algorithm : String)
    (turn : Turn) :
    Published prims sk (n + turn.rotations) (afterTurn (service prims algorithm) h turn) := by
  have hwithin := within_afterTurn hpublished.1 algorithm turn
  refine ⟨hwithin, fun hn set hset => ?_⟩
  cases turn with
  | server op hop ctx =>
    cases moves_of_run prims algorithm op ctx h with
    | kept _ hcache => exact hpublished.2 hn set (hcache.symm.trans hset)
    | reloaded _ hcache =>
      exact mem_of_refresh hwithin hn (hpublished.2 hn) (hcache.symm.trans hset)
    | saved _ _ _ hcache =>
      exact mem_of_refresh hwithin hn (hpublished.2 hn) (hcache.symm.trans hset)
  | rotate ctx drawn => exact hpublished.2 (Nat.le_of_succ_le hn) set hset

theorem rotationsIn_cons (turn : Turn) (turns : List Turn) :
    rotationsIn (turn :: turns) = turn.rotations + rotationsIn turns := by
  rw [rotationsIn, List.map_cons, List.sum_cons, rotationsIn]

theorem within_afterTurns (hwithin : Within sk (Keyfile.view prims h.store) n) (algorithm : String)
    (turns : List Turn) :
    Within sk (Keyfile.view prims (afterTurns (service prims algorithm) h turns).store)
      (n + rotationsIn turns) := by
  induction turns generalizing n h with
  | nil => exact hwithin
  | cons turn rest ih =>
    have hrest := ih (within_afterTurn hwithin algorithm turn)
    rwa [rotationsIn_cons, ← Nat.add_assoc]

/-- **Several turns.** -/
theorem Published.afterTurns (hpublished : Published prims sk n h) (algorithm : String)
    (turns : List Turn) :
    Published prims sk (n + rotationsIn turns) (afterTurns (service prims algorithm) h turns) := by
  induction turns generalizing n h with
  | nil => exact hpublished
  | cons turn rest ih =>
    have hrest := ih (hpublished.afterTurn algorithm turn)
    rwa [rotationsIn_cons, ← Nat.add_assoc]

end CommandLine

open CommandLine

/-- **A rotation from the command line leaves the server consistent.** On any key directory, after
any turns: a key that the server's `GetSigningKey` returns is in the set that a later `BuildJWKS` of
the server returns, when at most one rotation comes between the two and the set in memory, if there
is one, is that of the directory at some moment between them. -/
theorem rotated_key_published (prims : Primitives) (algorithm : String) (dir : KeyDir) (drawn : ℕ)
    (before mid rest : List Turn) (ctx ctx' : CallID) (h h' : Host KeyDir) (sk : SigningKey)
    (set : List JSONWebKey)
    (hget : ((service prims algorithm).getSigningKey ctx).run []
      (afterTurns (service prims algorithm) (Host.start dir drawn) before) = (.ok sk, h))
    (hfresh : Fresh (Keyfile.view prims) (afterTurns (service prims algorithm) h mid))
    (hbetween : rotationsIn mid + rotationsIn rest ≤ 1)
    (hbuild : ((service prims algorithm).buildJWKS ctx').run []
      (afterTurns (service prims algorithm) h (mid ++ rest)) = (.ok set, h')) :
    ∃ jwk ∈ set, jwk.keyID = sk.keyID ∧ jwk.key = sk.publicKey := by
  obtain ⟨-, -, hcurrent⟩ := moves_of_getSigningKey (keeps_service prims algorithm)
    trivial (fun _ => trivial) hget .getSigningKey
  have hwithin := within_afterTurns (n := 0) (hcurrent sk rfl) algorithm mid
  rw [Nat.zero_add] at hwithin
  have hpublished : Published prims sk (rotationsIn mid)
      (afterTurns (service prims algorithm) h mid) := by
    refine ⟨hwithin, fun hn set hset => ?_⟩
    obtain ⟨keys, hlist, rfl⟩ := hfresh set hset
    exact List.mem_map_of_mem (hwithin.mem_list hn hlist)
  have hlater := hpublished.afterTurns algorithm rest
  rw [afterTurns, List.foldl_append] at hbuild
  obtain ⟨-, hmoves, hset⟩ := moves_of_buildJWKS (keeps_service prims algorithm) trivial
    (fun _ => trivial) hbuild
  refine ⟨portKeyToJWK sk, ?_, rfl, rfl⟩
  rcases hset set rfl with hcached | ⟨keys, hlist, rfl⟩
  · exact hlater.2 hbetween set hcached
  · exact List.mem_map_of_mem ((hlater.1.moves hmoves).mem_list hbetween hlist)

/-! ### A set of its own making -/

namespace Sample

def keyService : JWKSService KeyDir := service primitives "ES256"

end Sample

/-- A key directory that the command line has filled: the server's first key is published after a
rotation. -/
theorem rotated_key_published_once :
    ∃ sk set, sk.keyID = "k" ∧
      (∃ h, (Sample.keyService.getSigningKey 0).run []
        (afterTurns Sample.keyService (Host.start Sample.emptyDir 9) [.rotate 1 0]) = (.ok sk, h) ∧
        ∃ h', (Sample.keyService.buildJWKS 0).run []
          (afterTurns Sample.keyService h [.rotate 1 1]) =
          (.ok set, h')) ∧
      ∃ jwk ∈ set, jwk.keyID = sk.keyID ∧ jwk.key = sk.publicKey :=
  ⟨_, _, by decide +kernel, ⟨_, rfl, _, rfl⟩,
    rotated_key_published Sample.primitives "ES256" Sample.emptyDir 9 [.rotate 1 0] [] [.rotate 1 1]
      0 0 _ _ _ _ rfl (fun _ h => by cases h) (by decide) rfl⟩

/-- **Keys that are not published.** With two rotations between the calls, the key is in neither of
the two places of the directory. And a server that made the first key itself has its set in memory:
after a rotation it signs with the new key and publishes the old one. -/
theorem rotated_key_lost :
    (∃ sk h set h', (Sample.keyService.getSigningKey 0).run []
        (afterTurns Sample.keyService (Host.start Sample.emptyDir 9) [.rotate 1 0]) = (.ok sk, h) ∧
      (Sample.keyService.buildJWKS 0).run []
        (afterTurns Sample.keyService h [.rotate 1 1, .rotate 1 2]) =
        (.ok set, h') ∧
      sk.keyID = "k" ∧ set.map JSONWebKey.keyID = ["k11", "k1"]) ∧
    ∃ sk h set h', (Sample.keyService.getSigningKey 0).run []
        (afterTurns Sample.keyService (Host.start Sample.emptyDir 0)
          [.server .getSigningKey (by decide) 0, .rotate 1 1]) = (.ok sk, h) ∧
      (Sample.keyService.buildJWKS 0).run [] h = (.ok set, h') ∧
      sk.keyID = "k1" ∧ set.map JSONWebKey.keyID = ["k"] :=
  ⟨⟨_, _, _, _, rfl, rfl, by decide +kernel, by decide +kernel⟩,
    ⟨_, _, _, _, rfl, rfl, by decide +kernel, by decide +kernel⟩⟩

end Signing

end AuthServer
