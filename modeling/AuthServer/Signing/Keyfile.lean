import AuthServer.Signing.JWKS

/-!
# The key-file store

`internal/adapters/keyfile/store.go`: a key is three files, and the current and the previous key lie
side by side in one directory. Every program below makes one file operation at a time: a stat, the
read of a file, the write of a whole file, or a rename.

Beside the files the directory has a history variable that no operation reads: which calls are in
the middle of reading the files of a key or of saving one.
-/

namespace AuthServer

open Interleave

variable (prims : Primitives)

namespace Signing

/-- The two keys of a directory. -/
inductive Slot
  | current
  | previous
  deriving DecidableEq, Repr

/-- The three files of a key. -/
inductive Ext
  | pem
  | kid
  | alg
  deriving DecidableEq, Repr

/-- The contents of the files that exist. -/
abbrev Files := Slot → Ext → Option String

/-- What a call is in the middle of. -/
inductive Phase
  | loading
  | saving
  deriving DecidableEq, Repr

structure KeyDir where
  files : Files
  /-- What each call is in the middle of; a history variable. -/
  busy : CallID → Option Phase

namespace Keyfile

/-- The file is written, or removed. -/
def setFile (files : Files) (slot : Slot) (ext : Ext) (content : Option String) : Files :=
  fun s e => if s = slot ∧ e = ext then content else files s e

variable (ctx : CallID)

/-- One file operation of a call, after which the call is where `after` says. -/
def fileOp {β : Type} (after : β → Option Phase) (onFault : Option β)
    (f : Files → β × Files) : Prog KeyDir Err β :=
  .call (fun d =>
    ((f d.files).1, ⟨(f d.files).2, Function.update d.busy ctx (after (f d.files).1)⟩))
    onFault .ret

/-- `exists`, of the file with the private key. -/
def «exists» (slot : Slot) (after : Bool → Option Phase) : Prog KeyDir Err Bool :=
  fileOp ctx after (some false) fun files => ((files slot .pem).isSome, files)

/-- Where a call is after an operation that may fail. -/
def unlessError {β : Type} (phase : Option Phase) : Except Err β → Option Phase
  | .ok _ => phase
  | .error _ => none

def readFile (slot : Slot) (ext : Ext) (after : Option Phase) : Prog KeyDir Err String := do
  let r ← fileOp ctx (unlessError after) (some (.error (.fault "read file"))) fun files =>
    (match files slot ext with
      | some content => Except.ok content
      | none => .error (.fault "file does not exist"), files)
  Prog.ofExcept r

def readString (slot : Slot) (ext : Ext) (after : Option Phase) : Prog KeyDir Err String := do
  let data ← readFile ctx slot ext after
  pure (Text.trimSpace data)

/-- The key of three files. -/
def parseKey (pem kid alg : String) : Except Err SigningKey := do
  let key ← prims.decodePEM pem
  ofPrivateKey prims alg kid key

def loadKey (slot : Slot) : Prog KeyDir Err (Option SigningKey) := do
  let found ← «exists» ctx slot fun found => if found then some .loading else none
  if found then do
    let pem ← (readFile ctx slot .pem (some .loading)).mapError (Err.wrap "read pem")
    let kid ← (readString ctx slot .kid (some .loading)).mapError (Err.wrap "read kid")
    let alg ← (readString ctx slot .alg none).mapError (Err.wrap "read alg")
    let sk ← Prog.ofExcept (parseKey prims pem kid alg)
    pure (some sk)
  else pure none

/-- The files once a file of the current key, if there is one, is that of the previous key. -/
def moveFile (files : Files) (ext : Ext) : Files :=
  match files .current ext with
  | some content => setFile (setFile files .previous ext (some content)) .current ext none
  | none => files

/-- `os.Rename` of a file of the current key to the previous one; that there is no such file is no
error. -/
def rotateFile (ext : Ext) : Prog KeyDir Err Unit := do
  let r ← fileOp ctx (unlessError (some .saving)) (some (.error (.fault "rotate"))) fun files =>
    (Except.ok (), moveFile files ext)
  Prog.ofExcept r

def writeFile (slot : Slot) (ext : Ext) (content : String) (after : Option Phase) :
    Prog KeyDir Err Unit := do
  let r ← fileOp ctx (unlessError after) (some (.error (.fault "write file"))) fun files =>
    (Except.ok (), setFile files slot ext (some content))
  Prog.ofExcept r

/-- `Store.writeKey`, of the current key. -/
def writeKey (key : SigningKey) : Prog KeyDir Err Unit :=
  match key.privateKey with
  | .transit _ _ => Prog.fail (.fault "marshal private key")
  | .software priv => do
    (writeFile ctx .current .pem (prims.encodePEM priv) (some .saving)).mapError
      (Err.wrap "write pem")
    (writeFile ctx .current .kid key.keyID (some .saving)).mapError (Err.wrap "write kid")
    (writeFile ctx .current .alg key.algorithm none).mapError (Err.wrap "write alg")

/-- `Store.Save`: the current key, if there is one, becomes the previous one, file by file. -/
def save (key : SigningKey) : Prog KeyDir Err Unit := do
  let found ← «exists» ctx .current fun _ => some .saving
  if found then do
    rotateFile ctx .pem
    rotateFile ctx .kid
    rotateFile ctx .alg
    (writeKey prims ctx key).mapError (Err.wrap "write current key")
  else (writeKey prims ctx key).mapError (Err.wrap "write current key")

def store : KeyStore KeyDir where
  loadCurrent ctx := loadKey prims ctx .current
  loadPrevious ctx := loadKey prims ctx .previous
  save := save prims
  listActive ctx := listBoth (loadKey prims ctx .current) (loadKey prims ctx .previous)

/-! ### One call after another -/

def readKey (files : Files) (slot : Slot) : Option (Option SigningKey) :=
  match files slot .pem with
  | none => some none
  | some pem => do
    let kid ← files slot .kid
    let alg ← files slot .alg
    let sk ← (parseKey prims pem (Text.trimSpace kid) (Text.trimSpace alg)).toOption
    pure (some sk)

def view (d : KeyDir) : View where
  current := readKey prims d.files .current
  previous := readKey prims d.files .previous

/-- Alone, the program has this result and makes these files of the given ones. -/
def Runs {α : Type} (p : Prog KeyDir Err α) (files : Files) (r : Except Err α)
    (files' : Files) : Prop :=
  ∀ busy, ∃ busy', p.run [] ⟨files, busy⟩ = (r, ⟨files', busy'⟩)

variable {key : SigningKey} {priv : PrivateKey}

section Runs

variable {α β : Type} {files files' files'' : Files} {slot : Slot} {ext : Ext}

theorem runs_pure (a : α) : Runs (pure a) files (.ok a) files := fun busy => ⟨busy, rfl⟩

theorem runs_ofExcept (r : Except Err α) : Runs (Prog.ofExcept r) files r files := by
  intro busy
  cases r <;> exact ⟨busy, rfl⟩

theorem runs_fileOp (after : β → Option Phase) (o : Option β) (f : Files → β × Files) :
    Runs (fileOp ctx after o f) files (.ok (f files).1) (f files).2 := fun _ => ⟨_, rfl⟩

variable {p : Prog KeyDir Err α} {g : α → Prog KeyDir Err β}

theorem Runs.bind {a : α} {r : Except Err β}
    (hp : Runs p files (.ok a) files') (hg : Runs (g a) files' r files'') :
      Runs (p >>= g) files r files'' := by
  intro busy
  obtain ⟨busy', hp⟩ := hp busy
  obtain ⟨busy'', hg⟩ := hg busy'
  exact ⟨busy'', by rw [Prog.run_bind, hp]; exact hg⟩

theorem Runs.bind_error {e : Err}
    (hp : Runs p files (.error e) files') : Runs (p >>= g) files (.error e) files' := by
  intro busy
  obtain ⟨busy', hp⟩ := hp busy
  exact ⟨busy', by rw [Prog.run_bind, hp]⟩

theorem Runs.mapError {r : Except Err α} (hp : Runs p files r files')
    (f : Err → Err) : Runs (p.mapError f) files (r.mapError f) files' := by
  intro busy
  obtain ⟨busy', hp⟩ := hp busy
  exact ⟨busy', by rw [Prog.run_mapError, hp]⟩

theorem runs_exists (after : Bool → Option Phase) :
    Runs («exists» ctx slot after) files (.ok (files slot .pem).isSome) files :=
  runs_fileOp _ _ _ _

variable {content : String} (after : Option Phase)

theorem runs_readFile_some
    (h : files slot ext = some content) : Runs (readFile ctx slot ext after) files
      (.ok content) files := by
  refine (runs_fileOp _ _ _ _).bind ?_
  rw [h]
  exact runs_pure content

theorem runs_readFile_none (h : files slot ext = none) :
    Runs (readFile ctx slot ext after) files (.error (.fault "file does not exist")) files := by
  refine (runs_fileOp _ _ _ _).bind ?_
  rw [h]
  exact runs_ofExcept (.error _)

theorem runs_readString_some (h : files slot ext = some content) :
    Runs (readString ctx slot ext after) files (.ok (Text.trimSpace content)) files :=
  (runs_readFile_some ctx after h).bind (runs_pure _)

theorem runs_readString_none (h : files slot ext = none) :
    Runs (readString ctx slot ext after) files (.error (.fault "file does not exist")) files :=
  (runs_readFile_none ctx after h).bind_error

/-- **Reading a key.** -/
theorem runs_loadKey (slot : Slot) (files : Files) :
    ∃ r, Runs (loadKey prims ctx slot) files r files ∧ r.toOption = readKey prims files slot := by
  unfold loadKey
  cases hpem : files slot .pem with
  | none =>
    refine ⟨.ok none, (runs_exists ctx _).bind ?_, by simp [readKey, hpem, Except.toOption]⟩
    rw [hpem]
    exact runs_pure none
  | some pem =>
    have hfound : ∀ {r} {p q : Prog KeyDir Err (Option SigningKey)}, Runs p files r files →
        Runs («exists» ctx slot (fun found => if found then some .loading else none) >>=
          fun found => if found then p else q) files r files := by
      intro r p q hp
      refine (runs_exists ctx _).bind ?_
      rw [hpem]
      exact hp
    have hread := (runs_readFile_some ctx (some .loading) hpem).mapError (Err.wrap "read pem")
    cases hkid : files slot .kid with
    | none =>
      have hkidRead :=
        (runs_readString_none ctx (some .loading) hkid).mapError (Err.wrap "read kid")
      refine ⟨_, hfound (hread.bind hkidRead.bind_error), ?_⟩
      simp [readKey, hpem, hkid, Except.toOption]
    | some kid =>
      have hkidRead :=
        (runs_readString_some ctx (some .loading) hkid).mapError (Err.wrap "read kid")
      cases halg : files slot .alg with
      | none =>
        have halgRead := (runs_readString_none ctx none halg).mapError (Err.wrap "read alg")
        refine ⟨_, hfound (hread.bind (hkidRead.bind halgRead.bind_error)), ?_⟩
        simp [readKey, hpem, hkid, halg, Except.toOption]
      | some alg =>
        have halgRead := (runs_readString_some ctx none halg).mapError (Err.wrap "read alg")
        cases hparse : parseKey prims pem (Text.trimSpace kid) (Text.trimSpace alg) with
        | error e =>
          refine ⟨.error e, hfound (hread.bind (hkidRead.bind (halgRead.bind ?_))), ?_⟩
          · rw [hparse]
            exact (runs_ofExcept (.error e)).bind_error
          · simp [readKey, hpem, hkid, halg, hparse, Except.toOption]
        | ok sk =>
          refine ⟨.ok (some sk), hfound (hread.bind (hkidRead.bind (halgRead.bind ?_))), ?_⟩
          · rw [hparse]
            exact (runs_ofExcept (.ok sk)).bind (runs_pure _)
          · simp [readKey, hpem, hkid, halg, hparse, Except.toOption]

/-- **Listing the keys.** -/
theorem runs_listActive (files : Files) :
    ∃ r, Runs (listBoth (loadKey prims ctx .current) (loadKey prims ctx .previous)) files r files ∧
      r.toOption = (View.mk (readKey prims files .current)
        (readKey prims files .previous)).list := by
  obtain ⟨r, hcurrent, hr⟩ := runs_loadKey prims ctx .current files
  obtain ⟨r', hprevious, hr'⟩ := runs_loadKey prims ctx .previous files
  cases r with
  | error e => exact ⟨.error e, hcurrent.bind_error, by rw [View.list, ← hr]; rfl⟩
  | ok current =>
    cases r' with
    | error e =>
      exact ⟨.error e, hcurrent.bind hprevious.bind_error, by rw [View.list, ← hr, ← hr']; rfl⟩
    | ok previous =>
      exact ⟨_, hcurrent.bind (hprevious.bind (runs_pure _)), by rw [View.list, ← hr, ← hr']; rfl⟩

/-! ### Saving -/

/-- What is left of the files of the previous key once the current key, if any, was moved there. -/
def rotated (files : Files) (ext : Ext) : Option String :=
  if (files .current .pem).isSome then (files .current ext).or (files .previous ext)
  else files .previous ext

def savedFiles (files : Files) (pem kid alg : String) : Files
  | .current, .pem => some pem
  | .current, .kid => some kid
  | .current, .alg => some alg
  | .previous, ext => rotated files ext

theorem runs_writeFile (content : String) (after : Option Phase) :
    Runs (writeFile ctx slot ext content after) files (.ok ())
      (setFile files slot ext (some content)) :=
  (runs_fileOp _ _ _ _).bind (runs_pure ())

theorem runs_rotateFile : Runs (rotateFile ctx ext) files (.ok ()) (moveFile files ext) :=
  (runs_fileOp _ _ _ _).bind (runs_pure ())

theorem runs_writeKey (hkey : key.privateKey = .software priv) (files : Files) :
    Runs (writeKey prims ctx key) files (.ok ())
      (setFile (setFile (setFile files .current .pem (some (prims.encodePEM priv)))
        .current .kid (some key.keyID)) .current .alg (some key.algorithm)) := by
  unfold writeKey
  rw [hkey]
  exact ((runs_writeFile ctx _ _).mapError _).bind
    (((runs_writeFile ctx _ _).mapError _).bind ((runs_writeFile ctx _ _).mapError _))

theorem savedFiles_eq (hpem : (files .current .pem).isSome = true) (pem kid alg : String) :
    savedFiles files pem kid alg =
      setFile (setFile (setFile (moveFile (moveFile (moveFile files .pem) .kid) .alg)
        .current .pem (some pem)) .current .kid (some kid)) .current .alg (some alg) := by
  obtain ⟨content, hpem⟩ := Option.isSome_iff_exists.mp hpem
  funext slot ext
  cases hkid : files .current .kid <;> cases halg : files .current .alg <;>
    cases slot <;> cases ext <;> simp [savedFiles, setFile, rotated, moveFile, hpem, hkid, halg]

/-- **Saving a key.** -/
theorem runs_save (hkey : key.privateKey = .software priv) (files : Files) :
    Runs (save prims ctx key) files (.ok ())
      (savedFiles files (prims.encodePEM priv) key.keyID key.algorithm) := by
  have hwrite := fun files => (runs_writeKey prims ctx hkey files).mapError
    (Err.wrap "write current key")
  unfold save
  cases hpem : files .current .pem with
  | none =>
    refine (runs_exists ctx _).bind ?_
    rw [hpem]
    have hfiles : savedFiles files (prims.encodePEM priv) key.keyID key.algorithm =
        setFile (setFile (setFile files .current .pem (some (prims.encodePEM priv)))
          .current .kid (some key.keyID)) .current .alg (some key.algorithm) := by
      funext slot ext
      cases slot <;> cases ext <;> simp [savedFiles, setFile, rotated, hpem]
    rw [hfiles]
    exact hwrite files
  | some pem =>
    refine (runs_exists ctx _).bind ?_
    rw [savedFiles_eq (by rw [hpem]; rfl), hpem]
    exact (runs_rotateFile ctx).bind
      ((runs_rotateFile ctx).bind ((runs_rotateFile ctx).bind (hwrite _)))

end Runs

variable {prims : Primitives} {files : Files} {slot : Slot}

theorem readKey_of_generated (hgen : Generated prims key) (hkey : key.privateKey = .software priv)
    (hpem : files slot .pem = some (prims.encodePEM priv))
    (hkid : files slot .kid = some key.keyID) (halg : files slot .alg = some key.algorithm) :
      readKey prims files slot = some (some key) := by
  have hparse : parseKey prims (prims.encodePEM priv) key.keyID key.algorithm = .ok key := by
    simp only [parseKey, prims.decode_encode]
    exact hgen.ofPrivateKey hkey
  simp [readKey, hpem, hkid, halg, Text.trimSpace_of_word hgen.keyID,
    Text.trimSpace_of_word hgen.algorithm, hparse, Except.toOption]

theorem readKey_congr {files files' : Files} {slot slot' : Slot}
    (h : ∀ ext, files slot ext = files' slot' ext) :
    readKey prims files slot = readKey prims files' slot' := by
  simp only [readKey, h]

theorem isSome_of_readKey {k : SigningKey}
    (h : readKey prims files slot = some (some k)) (ext : Ext) :
      (files slot ext).isSome = true := by
  unfold readKey at h
  cases hpem : files slot .pem with
  | none => simp [hpem] at h
  | some pem =>
    simp only [hpem] at h
    obtain ⟨kid, hkid, h⟩ := Option.bind_eq_some_iff.mp h
    obtain ⟨alg, halg, -⟩ := Option.bind_eq_some_iff.mp h
    cases ext with
    | pem => rw [hpem]; rfl
    | kid => rw [hkid]; rfl
    | alg => rw [halg]; rfl

/-- **The key-file store keeps the last two keys.** -/
theorem keeps (prims : Primitives) : Keeps prims (store prims) (fun _ => True) (fun _ => True)
    (view prims) := by
  have hrun : ∀ {α : Type} {p : Prog KeyDir Err α} {o : Option α} (d : KeyDir),
      (∃ r, Runs p d.files r d.files ∧ r.toOption = o) →
      ∃ r d', p.run [] d = (r, d') ∧ r.toOption = o ∧ True ∧ view prims d' = view prims d := by
    rintro α p o d ⟨r, hruns, hread⟩
    obtain ⟨busy, hrun⟩ := hruns d.busy
    exact ⟨r, _, hrun, hread, trivial, rfl⟩
  refine ⟨fun ctx d _ => ?_,
    fun ctx d _ => hrun d (runs_loadKey prims ctx .previous d.files),
    fun ctx d _ => hrun d (runs_listActive prims ctx d.files),
      fun ctx d key d' _ _ hgen hsave => ?_,
    fun ctx d key e d' _ hgen hfail => ?_⟩
  · obtain ⟨r, d', hload, hread, hinv, hview⟩ := hrun d (runs_loadKey prims ctx .current d.files)
    exact ⟨r, d', hload, hread, hinv, hview, id⟩
  · obtain ⟨priv, -, hkey, -⟩ := hgen.software
    obtain ⟨busy, hsaved⟩ := runs_save prims ctx hkey d.files d.busy
    obtain rfl := (Prod.mk.inj (hsave.symm.trans hsaved)).2
    have hcurrent :
      readKey prims (savedFiles d.files (prims.encodePEM priv) key.keyID key.algorithm)
        .current = some (some key) := readKey_of_generated hgen hkey rfl rfl rfl
    refine ⟨trivial, hcurrent, ?_, ?_⟩
    · intro k hk
      -- a current key that can be read has all three files, so all three are moved
      refine (readKey_congr fun ext => ?_).trans hk
      have hpem := isSome_of_readKey hk .pem
      obtain ⟨content, hcontent⟩ := Option.isSome_iff_exists.mp (isSome_of_readKey hk ext)
      simp [savedFiles, rotated, hpem, hcontent]
    · intro hnone
      refine readKey_congr fun ext => ?_
      have hpem : d.files .current .pem = none := by
        by_contra hsome
        obtain ⟨pem, hpem⟩ := Option.ne_none_iff_exists'.mp hsome
        simp [view, readKey, hpem, Option.bind_eq_some_iff] at hnone
      simp [savedFiles, rotated, hpem]
  · obtain ⟨priv, -, hkey, -⟩ := hgen.software
    obtain ⟨busy, hsaved⟩ := runs_save prims ctx hkey d.files d.busy
    cases (Prod.mk.inj (hfail.symm.trans hsaved)).1

end Keyfile

end Signing

end AuthServer
