import SymbolServer.Memdb.SyncState

/-!
# The stash as a state: files, `sync.state`, the snapshot and the handle cache

A `MemDbStash` is the part of the world the stash reads and writes:

* the memdb files of the symbol directory, by name, each holding the complete decompressed
  content of an entry or an incomplete one (`Blob`);
* the file `sync.state` (`StateFile`), written only through `save_state`'s rename, so it is
  absent, cannot be opened, does not parse, or is a complete state;
* the snapshot `local_state` and the handle cache `memdbs`, the two `RwLock`s.

The effects of `sync` are the atomic `Step`s: one per file operation and one per lock-scoped
section, each applied by `Step.apply`. A run of `sync` that stops early — on an error from any
fallible step, or on a crash — has applied a prefix of its steps: a failed download leaves the
file `create` made, and a failed `save_state` leaves `sync.state` as it was. That is why a
prefix of the step list describes every stopping point (`Crash.lean`, `Revision.lean`).

`MemDb::from_path` is in `memdb/read.rs`, outside the sources; `MemDb.fromPath` follows the
spec's contract for it (§6).
-/

set_option linter.unusedSectionVars false

namespace SymbolServer.Memdb

variable {I : Type} [SdkInfo I]

/-- The content of a memdb file: the complete decompressed content of an entry, or an
incomplete one — `File::create` truncated it and `copy_with_progress` has not finished.
Source: `memdb/stash.rs` 236–239
Kind: D
Fidelity: exact at the granularity of whole copies -/
inductive Blob (I : Type)
  | full (sdk : RemoteSdk I)
  | incomplete (sdk : RemoteSdk I)
  deriving DecidableEq

/-- The file `sync.state`: absent, one `File::open` fails on with another error than
`NotFound`, one `serde_json` cannot parse, or a state `save_state` wrote.
Source: `memdb/stash.rs` 167–198
Kind: D
Fidelity: exact, with the JSON round trip of `serde` taken as the identity -/
inductive StateFile (I : Type)
  /-- `File::open` fails with `NotFound`. -/
  | absent
  /-- `File::open` fails with another error. -/
  | unopenable
  /-- The file opens, and `serde_json::from_reader` fails on it. -/
  | unparsable
  /-- The file holds the state `s`. -/
  | saved (s : SdkSyncState I)
  deriving DecidableEq

/-- An opened memdb (`MemDb<'static>` behind an `Arc`), recorded as the entry whose complete
content it held when it was opened.
Source: `memdb/stash.rs` 3–5, 20, 37
Kind: D
Fidelity: abstract; a handle is an immutable copy of its entry, while the source's `MemDb` maps
the file (module comment, lines 3–5), which `update_sdk`'s `File::create` later truncates in
place; what a mapped handle reads after that is outside the model -/
structure MemDb (I : Type) where
  sdk : RemoteSdk I
  deriving DecidableEq

/-- Modelled from the spec: `MemDb::from_path` (`memdb/read.rs`, not among the sources), which
"fails if the file is absent, truncated, or has an invalid header" (§6); a complete file
opens as a handle on its entry.
Source: `memdb/stash.rs` 419; spec §6
Kind: D
Fidelity: spec -/
def MemDb.fromPath : Option (Blob I) → Except ErrorKind (MemDb I)
  | some (.full sdk) => .ok ⟨sdk⟩
  | some (.incomplete _) => .error .badMemDb
  | none => .error .io

/-- The stash and the files it owns.
Source: `memdb/stash.rs` 32–39
Kind: D
Fidelity: exact; `path` is implicit (file names are relative to it) and the S3 client is the
listing each operation is given -/
structure MemDbStash (I : Type) where
  /-- The memdb files of the symbol directory, by file name. -/
  files : String → Option (Blob I)
  /-- The file `sync.state`. -/
  syncState : StateFile I
  /-- `local_state`: the shared snapshot. -/
  localState : Option (SdkSyncState I)
  /-- `memdbs`: the handle cache. -/
  memdbs : I → Option (MemDb I)
  /-- `ignore_patterns`. -/
  ignorePatterns : IgnorePatterns

namespace MemDbStash

/-- `MemDbStash::new`: no snapshot and no handle yet, over the files found on disk.
Source: `memdb/stash.rs` 157–165
Kind: D
Fidelity: exact -/
def new (files : String → Option (Blob I)) (syncState : StateFile I)
    (ignorePatterns : IgnorePatterns) : MemDbStash I :=
  ⟨files, syncState, none, fun _ => none, ignorePatterns⟩

/-- What `read_local_state` makes of `sync.state`: the default state when it is absent, "Error
loading sync state" when it cannot be opened, "Parsing error on loading sync state" when it
does not parse, the saved state otherwise.
Source: `memdb/stash.rs` 184–194
Kind: D
Fidelity: exact -/
def parseStateFile : StateFile I → Except ErrorKind (SdkSyncState I)
  | .absent => .ok .empty
  | .unopenable => .error .loadSyncState
  | .unparsable => .error .parse
  | .saved s => .ok s

/-- `read_local_state`: read `sync.state` and install it as the snapshot.
Source: `memdb/stash.rs` 183–198
Kind: D
Fidelity: exact -/
def readLocalState (w : MemDbStash I) : Except ErrorKind (SdkSyncState I) × MemDbStash I :=
  match parseStateFile w.syncState with
  | .ok s => (.ok s, { w with localState := some s })
  | .error e => (.error e, w)

/-- `get_local_state`: the snapshot if there is one, otherwise `read_local_state`.
Source: `memdb/stash.rs` 200–206
Kind: D
Fidelity: exact (sequential) -/
def getLocalState (w : MemDbStash I) : Except ErrorKind (SdkSyncState I) × MemDbStash I :=
  match w.localState with
  | some s => (.ok s, w)
  | none => readLocalState w

end MemDbStash

/-- The atomic effects of `sync` on the stash, one per file operation or lock-scoped section.
Source: `memdb/stash.rs` 171–261, 331–398
Kind: D
Fidelity: exact, except that a completed `copy_with_progress` is taken to leave the complete
file: the source's `XzDecoder` writes its last output when it is dropped, at the end of
`update_sdk`, and discards the errors of that write -/
inductive Step (I : Type)
  /-- `*self.local_state.write().unwrap() = Some(Arc::new(s))`. -/
  | install (s : SdkSyncState I)
  /-- `update_sdk` up to `File::create` of the memdb file: truncated, the copy begins. -/
  | create (sdk : RemoteSdk I)
  /-- `copy_with_progress` completes: the file holds the entry's content. -/
  | copy (sdk : RemoteSdk I)
  /-- `self.memdbs.write().unwrap().remove(info)`. -/
  | evict (info : I)
  /-- `save_state`: the temporary file renamed over `sync.state`. -/
  | save (s : SdkSyncState I)
  /-- `remove_sdk`'s `fs::remove_file`, a `NotFound` tolerated. -/
  | removeFile (sdk : RemoteSdk I)
  /-- A panic: the `unwrap` of `None` at line 346. -/
  | panic
  deriving DecidableEq

/-- What one step does to the stash.
Source: `memdb/stash.rs` 171–261, 350, 382
Kind: D
Fidelity: exact -/
def Step.apply : Step I → MemDbStash I → MemDbStash I
  | .install s, w => { w with localState := some s }
  | .create sdk, w =>
    { w with files := Function.update w.files (memdbFilename sdk.info) (some (.incomplete sdk)) }
  | .copy sdk, w =>
    { w with files := Function.update w.files (memdbFilename sdk.info) (some (.full sdk)) }
  | .evict info, w => { w with memdbs := Function.update w.memdbs info none }
  | .save s, w => { w with syncState := .saved s }
  | .removeFile sdk, w => { w with files := Function.update w.files (memdbFilename sdk.info) none }
  | .panic, w => w

/-- The state a step writes to `sync.state`, if it is a `save`.
Source: none: infrastructure
Kind: D -/
def Step.savedState : Step I → Option (SdkSyncState I)
  | .save s => some s
  | _ => none

/-- The entry a step starts to download, if it is a `create`.
Source: none: infrastructure
Kind: D -/
def Step.createdSdk : Step I → Option (RemoteSdk I)
  | .create sdk => some sdk
  | _ => none

/-- The memdb file a step writes or removes, if any.
Source: none: infrastructure
Kind: D -/
def Step.fileName : Step I → Option String
  | .create sdk | .copy sdk | .removeFile sdk => some (memdbFilename sdk.info)
  | _ => none

/-- A sequence of steps, applied in order.
Source: none: infrastructure
Kind: D -/
def runSteps (steps : List (Step I)) (w : MemDbStash I) : MemDbStash I :=
  steps.foldl (fun w st => st.apply w) w

/-- No steps leave the stash as it is.
Source: none: infrastructure
Kind: L -/
@[simp] theorem runSteps_nil (w : MemDbStash I) : runSteps [] w = w := rfl

/-- Steps run the first one, then the rest.
Source: none: infrastructure
Kind: L -/
@[simp] theorem runSteps_cons (st : Step I) (steps : List (Step I)) (w : MemDbStash I) :
    runSteps (st :: steps) w = runSteps steps (st.apply w) := rfl

/-- Two lists of steps run one after the other.
Source: none: infrastructure
Kind: L -/
theorem runSteps_append (s t : List (Step I)) (w : MemDbStash I) :
    runSteps (s ++ t) w = runSteps t (runSteps s w) := List.foldl_append _ _ _ _

/-- A step that neither writes the file `n` nor evicts `x` leaves both alone.
Source: `memdb/stash.rs` 171–261, 350, 382
Kind: L -/
theorem Step.apply_frame {st : Step I} {n : String} {x : I} (hn : st.fileName ≠ some n)
    (hx : st ≠ .evict x) (w : MemDbStash I) :
    (st.apply w).files n = w.files n ∧ (st.apply w).memdbs x = w.memdbs x := by
  cases st with
  | create e | copy e | removeFile e =>
    exact ⟨Function.update_noteq (fun h => hn (by rw [Step.fileName, h])) _ _, rfl⟩
  | evict y => exact ⟨rfl, Function.update_noteq (fun h => hx (by rw [h])) _ _⟩
  | install _ | save _ | panic => exact ⟨rfl, rfl⟩

/-- Steps that neither write the file `n` nor evict `x` leave both alone.
Source: none: infrastructure
Kind: L -/
theorem runSteps_frame {n : String} {x : I} :
    ∀ (steps : List (Step I)) (w : MemDbStash I),
      (∀ st ∈ steps, st.fileName ≠ some n ∧ st ≠ .evict x) →
        (runSteps steps w).files n = w.files n ∧ (runSteps steps w).memdbs x = w.memdbs x
  | [], _, _ => ⟨rfl, rfl⟩
  | st :: rest, w, h => by
    obtain ⟨hn, hx⟩ := h st (List.mem_cons_self _ _)
    have hrest := runSteps_frame rest (st.apply w) fun st' hst' => h st' (List.mem_cons_of_mem _ hst')
    have hst := st.apply_frame hn hx w
    exact ⟨hrest.1.trans hst.1, hrest.2.trans hst.2⟩

/-- No step changes the ignore patterns.
Source: `memdb/stash.rs` 38, 171–261
Kind: L -/
@[simp] theorem apply_ignorePatterns (st : Step I) (w : MemDbStash I) :
    (st.apply w).ignorePatterns = w.ignorePatterns := by
  cases st <;> rfl

/-- No run of steps changes the ignore patterns.
Source: `memdb/stash.rs` 38, 171–261
Kind: L -/
@[simp] theorem runSteps_ignorePatterns (steps : List (Step I)) (w : MemDbStash I) :
    (runSteps steps w).ignorePatterns = w.ignorePatterns := by
  induction steps generalizing w with
  | nil => rfl
  | cons st rest ih => simp [ih]

end SymbolServer.Memdb
