import AuthServer.Signing.JWKS
import AuthServer.Signing.KeyTable

/-!
# The Postgres key store

`HAKeyStore` of `internal/adapters/postgres/hakeystore.go`. A private key is stored encrypted under
its own key identifier. `Save` reads the clock once, before its first attempt, and retries the
transaction with a new row identifier up to three times when a row of the same identifiers is there.
-/

namespace AuthServer

open Interleave

namespace Signing

/-- The database, as one instance sees it: the table, its own clock in nanoseconds, and how many row
identifiers it has made. -/
structure KeyDatabase where
  table : KeyTable
  clock : Int
  drawn : ℕ

namespace HAKeyStore

/-- The owner context a private key is encrypted under. -/
def ownerContext (kid : String) : String := "signing-key:" ++ kid

def decryptAndParse (prims : Primitives) (row : KeyRow) : Except Err SigningKey := do
  let pem ← (prims.decrypt row.encPrivate (ownerContext row.kid)).mapError (Err.wrap "decrypt")
  let key ← prims.decodePEM pem
  ofPrivateKey prims row.algorithm row.kid key

def loadRow (prims : Primitives) (which : String) (pick : KeyTable → Option KeyRow) :
    Prog KeyDatabase Err (Option SigningKey) := do
  let row ← Prog.query (.fault ("query " ++ which ++ " key")) fun d => .ok (pick d.table)
  match row with
  | none => pure none
  | some row => do
    let sk ← Prog.ofExcept
      ((decryptAndParse prims row).mapError (Err.wrap ("decrypt " ++ which ++ " key")))
    pure (some sk)

def loadCurrent (prims : Primitives) : Prog KeyDatabase Err (Option SigningKey) :=
  loadRow prims "current" KeyTable.current

def loadPrevious (prims : Primitives) (planner : Planner) :
    Prog KeyDatabase Err (Option SigningKey) :=
  loadRow prims "previous" fun t => (planner.sort newerFirst t.others).head?

def listActive (prims : Primitives) (planner : Planner) :
    Prog KeyDatabase Err (List SigningKey) := do
  let rows ← Prog.query (.fault "query active keys") fun d =>
    .ok ((planner.sort currentFirst d.table.rows).take 2)
  Prog.ofExcept (rows.mapM fun row =>
    (decryptAndParse prims row).mapError (Err.wrap ("decrypt key " ++ row.kid)))

def sealPrivate (prims : Primitives) (key : SigningKey) : Except Err String :=
  match key.privateKey with
  | .transit _ _ => .error (.fault "marshal private key")
  | .software priv => (prims.encrypt (prims.encodePEM priv) (ownerContext key.keyID)).mapError
      (Err.wrap "encrypt private key")

/-- The row that is inserted for a key. The column keeps whole microseconds. -/
def rowOf (key : SigningKey) (encPrivate : String) (now : Int) (id : String) : KeyRow where
  id := id
  kid := key.keyID
  algorithm := key.algorithm
  encPrivate := encPrivate
  isCurrent := true
  createdAt := now / 1000

/-- `doSaveTx`, with whether it committed; otherwise there was a unique violation. -/
def doSaveTx (planner : Planner) (row : KeyRow) : Prog KeyDatabase Err Bool :=
  Prog.exec (.fault "save signing key") fun d =>
    match d.table.save planner row with
    | some table => (.ok true, { d with table := table })
    | none => (.ok false, d)

/-- `crypto.GenerateRandomString`, for a row. -/
def newRowID (prims : Primitives) : Prog KeyDatabase Err String :=
  Prog.step fun d => (prims.rowID d.drawn, { d with drawn := d.drawn + 1 })

/-- The retry loop of `Save`. -/
def attempts (prims : Primitives) (planner : Planner) (row : String → KeyRow) :
    ℕ → String → Prog KeyDatabase Err Unit
  | 0, _ => Prog.fail (.sentinel .rotationConflict)
  | n + 1, id => do
    let committed ← doSaveTx planner (row id)
    if committed then pure () else do
      let id ← newRowID prims
      attempts prims planner row n id

def save (prims : Primitives) (planner : Planner) (key : SigningKey) :
    Prog KeyDatabase Err Unit := do
  let encPrivate ← Prog.ofExcept (sealPrivate prims key)
  let id ← newRowID prims
  let now ← Prog.step fun d => (d.clock, d)
  attempts prims planner (rowOf key encPrivate now) 3 id

/-- `postgres.HAKeyStore`. Each call may be answered in its own arrangement of rows with equal
stamps. -/
def store (prims : Primitives) (planner : CallID → Planner) : KeyStore KeyDatabase where
  loadCurrent _ := loadCurrent prims
  loadPrevious ctx := loadPrevious prims (planner ctx)
  save ctx := save prims (planner ctx)
  listActive ctx := listActive prims (planner ctx)

/-! ### What is read of a row -/

theorem decryptAndParse_demote (prims : Primitives) (row : KeyRow) :
    decryptAndParse prims row.demote = decryptAndParse prims row := rfl

variable {prims : Primitives} {key : SigningKey}

theorem decryptAndParse_rowOf (hgen : Generated prims key) {encPrivate : String}
    (hseal : sealPrivate prims key = .ok encPrivate) (now : Int) (id : String) :
    decryptAndParse prims (rowOf key encPrivate now id) = .ok key := by
  obtain ⟨priv, -, hkey, -⟩ := hgen.software
  simp only [sealPrivate, hkey] at hseal
  cases henc : prims.encrypt (prims.encodePEM priv) (ownerContext key.keyID) with
  | error e => simp [henc, Except.mapError] at hseal
  | ok cipher =>
    obtain rfl : cipher = encPrivate := by simpa [henc, Except.mapError] using hseal
    have hdec := prims.decrypt_encrypt henc
    have hparse := hgen.ofPrivateKey hkey
    simp only [decryptAndParse, rowOf, hdec, Except.mapError]
    exact (congrArg (· >>= _) (prims.decode_encode priv)).trans hparse

def readRow (prims : Primitives) : Option KeyRow → Option (Option SigningKey)
  | none => some none
  | some row => (decryptAndParse prims row).toOption.map some

def view (prims : Primitives) (d : KeyDatabase) : View where
  current := readRow prims d.table.current
  previous := readRow prims d.table.others.head?

theorem run_loadRow (prims : Primitives) (which : String) (pick : KeyTable → Option KeyRow)
    (d : KeyDatabase) :
    ∃ r, (loadRow prims which pick).run [] d =
      (r, d) ∧ r.toOption = readRow prims (pick d.table) := by
  unfold loadRow
  cases hrow : pick d.table with
  | none =>
    exact ⟨.ok none, by rw [Prog.run_bind]; simp [Prog.query, Prog.exec, Prog.run, Prog.ofExcept,
      hrow, pure], rfl⟩
  | some row =>
    cases hparse : decryptAndParse prims row with
    | error e =>
      refine ⟨.error (e.wrap ("decrypt " ++ which ++ " key")),
        ?_, by simp [readRow, hparse, Except.toOption]⟩
      rw [Prog.run_bind]
      simp [Prog.query, Prog.exec, Prog.run, Prog.ofExcept, hrow, hparse, Except.mapError, bind,
        Prog.bind]
    | ok sk =>
      refine ⟨.ok (some sk), ?_, by simp [readRow, hparse, Except.toOption]⟩
      rw [Prog.run_bind]
      simp [Prog.query, Prog.exec, Prog.run, Prog.ofExcept, hrow, hparse, Except.mapError, bind,
        Prog.bind, pure]

theorem toOption_mapM_rows (prims : Primitives) (wrap : KeyRow → Err → Err) (o o' : Option KeyRow) :
    ((o.toList ++ o'.toList).mapM fun row =>
      (decryptAndParse prims row).mapError (wrap row)).toOption =
      (View.mk (readRow prims o) (readRow prims o')).list := by
  have hone : ∀ row, ((decryptAndParse prims row).mapError (wrap row)).toOption =
      (decryptAndParse prims row).toOption := fun row => by
    cases decryptAndParse prims row <;> rfl
  cases o with
  | none =>
    cases o' with
    | none => rfl
    | some row' =>
      have hrow' := hone row'
      cases hparse' : decryptAndParse prims row' <;> rw [hparse'] at hrow' <;>
        simp [View.list, readRow, hparse', Except.mapError, Except.toOption, bind,
          Except.bind, pure, Except.pure]
  | some row =>
    cases o' with
    | none =>
      cases hparse : decryptAndParse prims row <;>
        simp [View.list, readRow, hparse, Except.mapError, Except.toOption, bind, Except.bind, pure,
          Except.pure]
    | some row' =>
      cases hparse : decryptAndParse prims row <;> cases hparse' : decryptAndParse prims row' <;>
        simp [View.list, readRow, hparse, hparse', Except.mapError, Except.toOption,
          bind, Except.bind, pure, Except.pure]

variable {d : KeyDatabase}

theorem run_listActive (prims : Primitives) (planner : Planner) (h : d.table.Settled) :
    ∃ r, (listActive prims planner).run [] d = (r, d) ∧ r.toOption = (view prims d).list := by
  have hothers : d.table.others = d.table.others.head?.toList := by
    unfold KeyTable.Settled at h
    match hothers : d.table.others with
    | [] => rfl
    | [_] => rfl
    | _ :: _ :: _ => simp [hothers] at h
  have hrows : (planner.sort currentFirst d.table.rows).take 2 =
      d.table.current.toList ++ d.table.others.head?.toList := by
    rw [KeyTable.sort_currentFirst planner h, ← hothers, List.take_of_length_le]
    have hcurrent : d.table.current.toList.length ≤ 1 := by cases d.table.current <;> simp
    have := h
    unfold KeyTable.Settled at this
    simp only [List.length_append]
    omega
  refine ⟨_, ?_, toOption_mapM_rows prims (fun row => Err.wrap ("decrypt key " ++ row.kid)) _ _⟩
  rw [← hrows]
  exact Prog.run_ofExcept _ [] d

/-! ### Saving -/

variable {planner : Planner} {id : String} {d' : KeyDatabase}

theorem attempts_spec {row : String → KeyRow} {n : ℕ} {r : Except Err Unit}
    (h : (attempts prims planner row n id).run [] d = (r, d')) :
    (r = .ok () → ∃ id', d.table.save planner (row id') = some d'.table) ∧ ∀ e, r = .error e →
      d'.table = d.table := by
  induction n generalizing id d with
  | zero =>
    obtain ⟨rfl, rfl⟩ := Prod.mk.inj h
    exact ⟨(by cases ·), fun _ _ => rfl⟩
  | succ n ih =>
    unfold attempts at h
    rw [Prog.run_bind] at h
    simp only [doSaveTx, Prog.exec, Prog.run, List.headD_nil, Prog.outcome_false] at h
    cases hsave : d.table.save planner (row id) with
    | some table =>
      simp only [hsave, Prog.ofExcept, Prog.run, if_true] at h
      obtain ⟨rfl, rfl⟩ := Prod.mk.inj h
      exact ⟨fun _ => ⟨id, hsave⟩, fun _ h => by cases h⟩
    | none =>
      simp only [hsave, Prog.ofExcept, Prog.run] at h
      exact ih (d := { d with drawn := d.drawn + 1 }) h

/-- **What `Save` does.** One that fails leaves the table as it is. -/
theorem save_spec {r : Except Err Unit} (h : (save prims planner key).run [] d = (r, d')) :
    (r = .ok () → ∃ encPrivate id, sealPrivate prims key = .ok encPrivate ∧
      d.table.save planner (rowOf key encPrivate d.clock id) = some d'.table) ∧
      ∀ e, r = .error e → d'.table = d.table := by
  unfold save at h
  cases hseal : sealPrivate prims key with
  | error e =>
    rw [hseal] at h
    obtain ⟨rfl, rfl⟩ := Prod.mk.inj h
    exact ⟨(by cases ·), fun _ _ => rfl⟩
  | ok encPrivate =>
    rw [hseal] at h
    refine (attempts_spec (d := { d with drawn := d.drawn + 1 }) h).imp_left fun hok hr => ?_
    obtain ⟨id, hsave⟩ := hok hr
    exact ⟨encPrivate, id, rfl, hsave⟩

theorem saved_of_save {encPrivate : String} {now : Int} (hgen : Generated prims key)
    (hseal : sealPrivate prims key = .ok encPrivate) (hsettled : d.table.Settled)
    (hnewest : d.table.CurrentNewest)
    (hsave : d.table.save planner (rowOf key encPrivate now id) = some d'.table) :
    (view prims d).Saved key (view prims d') where
  current := by
    simp [view, KeyTable.current_save hsave, readRow,
      decryptAndParse_rowOf hgen hseal, Except.toOption]
  previous := by
    intro k hk
    cases hcurrent : d.table.current with
    | none => simp [view, hcurrent, readRow] at hk
    | some row =>
      simp only [view, hcurrent, readRow] at hk
      simp only [view, KeyTable.others_save_of_current hsave hcurrent hnewest,
        List.head?_cons, readRow, decryptAndParse_demote]
      exact hk
  kept := by
    intro hnone
    cases hcurrent : d.table.current with
    | none => simp [view, KeyTable.others_save_of_none hsave hcurrent hsettled]
    | some row => simp [view, hcurrent, readRow] at hnone

/-- **The Postgres store keeps the last two keys**, while stamps follow the order of the commits. -/
theorem keeps (prims : Primitives) (planner : CallID → Planner) :
    Keeps prims (store prims planner) (fun d => d.table.Settled) (fun d => d.table.CurrentNewest)
      (view prims) where
  loadCurrent ctx d hsettled := by
    obtain ⟨r, hrun, hread⟩ := run_loadRow prims "current" KeyTable.current d
    exact ⟨r, d, hrun, hread, hsettled, rfl, id⟩
  loadPrevious ctx d hsettled := by
    obtain ⟨r, hrun, hread⟩ := run_loadRow prims "previous"
      (fun t => ((planner ctx).sort newerFirst t.others).head?) d
    refine ⟨r, d, hrun, hread.trans ?_, hsettled, rfl⟩
    rw [KeyTable.sort_others (planner ctx) hsettled]
    rfl
  listActive ctx d hsettled := by
    obtain ⟨r, hrun, hread⟩ := run_listActive prims (planner ctx) hsettled
    exact ⟨r, d, hrun, hread, hsettled, rfl⟩
  save ctx d key d' hsettled hnewest hgen h := by
    obtain ⟨encPrivate, id, hseal, hsave⟩ := (save_spec h).1 rfl
    exact ⟨KeyTable.settled_save hsave, saved_of_save hgen hseal hsettled hnewest hsave⟩
  saveFails ctx d key e d' hsettled _ h := by
    have htable := (save_spec h).2 e rfl
    exact ⟨by rw [htable]; exact hsettled, by simp only [view, htable]⟩

end HAKeyStore

end Signing

end AuthServer
