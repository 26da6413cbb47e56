import SymbolServer.Memdb.Revision

/-!
# `get_memdb`, as code and as a thread

`get_memdb` touches the stash through four lock-scoped sections and one file operation: a read
of `memdbs`, a read of `local_state` (with, when there is no snapshot yet, a read of
`sync.state` and a write of `local_state`), `MemDb::from_path`, a write of `memdbs` and a
second read of it.

* `getMemdb` — the function as the source writes it, run alone.
* `GetMemdbCall`, `GetMemdbCall.step` — the same call as a thread whose steps are those
  sections, for the interleavings of `Interleaving.lean`; `getMemdb_eq_runAlone` states that a
  call run with no other thread in between computes `getMemdb`.
* `Op`, `runOps` — sequential runs of `get_memdb` calls and `sync` runs, each `sync` stopping
  anywhere.
* **`get_memdb_serves_dropped_identity`** — from `MemDbStash::new`, `get_memdb(1)`, then a
  `sync` against an empty listing, then `get_memdb(1)` returns the cached handle though `1` is
  no longer in the snapshot; and after a further `sync` that brings `1` back with a new entry,
  `get_memdb(1)` still returns the handle of the old file.
-/

set_option linter.unusedSectionVars false

namespace SymbolServer.Memdb

open SdkSyncState

variable {I : Type} [SdkInfo I]

/-! ## The function -/

/-- `get_memdb`: the cached handle if there is one; otherwise, if the snapshot (read from
`sync.state` when there is none) records the identity, open its file, cache the handle and
return it as read back from the cache; otherwise `UnknownSdk`.
Source: `memdb/stash.rs` 400–427
Kind: D
Fidelity: exact (sequential) -/
def getMemdb (info : I) (w : MemDbStash I) : Except ErrorKind (MemDb I) × MemDbStash I :=
  match w.memdbs info with
  | some m => (.ok m, w)
  | none =>
    match w.getLocalState with
    | (.error e, w') => (.error e, w')
    | (.ok localState, w') =>
      if (localState.getSdk info).isSome then
        match MemDb.fromPath (w'.files (memdbFilename info)) with
        | .error e => (.error e, w')
        | .ok memdb =>
          let w'' := { w' with memdbs := Function.update w'.memdbs info (some memdb) }
          match w''.memdbs info with
          | some m => (.ok m, w'')
          | none => (.error .unknownSdk, w'')
      else (.error .unknownSdk, w')

/-! ## The thread -/

/-- Results compare by their error or their value.
Source: none: infrastructure
Kind: D -/
instance decEqExcept {ε α : Type} [DecidableEq ε] [DecidableEq α] : DecidableEq (Except ε α)
  | .error x, .error y => decidable_of_iff (x = y) ⟨congrArg _, Except.error.inj⟩
  | .ok x, .ok y => decidable_of_iff (x = y) ⟨congrArg _, Except.ok.inj⟩
  | .error _, .ok _ => isFalse Except.noConfusion
  | .ok _, .error _ => isFalse Except.noConfusion

/-- Where a `get_memdb` call stands: the section or file operation it performs next, or its
result.
Source: `memdb/stash.rs` 183–206, 400–427
Kind: D -/
inductive GetMemdbPc (I : Type)
  /-- `self.memdbs.read().unwrap().get(info)`. -/
  | start
  /-- `get_local_state`: `self.local_state.read()`. -/
  | snapshot
  /-- `read_local_state`: open and parse `sync.state`. -/
  | readFile
  /-- `read_local_state`: `*self.local_state.write().unwrap() = Some(..)`. -/
  | installState (s : SdkSyncState I)
  /-- `get_local_state`: `self.local_state.read().unwrap().as_ref().unwrap()`. -/
  | rereadSnapshot
  /-- `MemDb::from_path(..)`. -/
  | openFile
  /-- `self.memdbs.write().unwrap().insert(..)`. -/
  | insert (memdb : MemDb I)
  /-- `self.memdbs.read().unwrap().get(info)` after the insertion. -/
  | reread
  /-- The call has returned. -/
  | done (r : Except ErrorKind (MemDb I))
  deriving DecidableEq

/-- A `get_memdb` call in flight.
Source: `memdb/stash.rs` 405
Kind: D -/
structure GetMemdbCall (I : Type) where
  info : I
  pc : GetMemdbPc I
  deriving DecidableEq

/-- Past the snapshot read: open the file if the snapshot records the identity.
Source: `memdb/stash.rs` 418–419, 426
Kind: D -/
def GetMemdbCall.afterSnapshot (c : GetMemdbCall I) (s : SdkSyncState I) : GetMemdbPc I :=
  if (s.getSdk c.info).isSome then .openFile else .done (.error .unknownSdk)

/-- One step of a `get_memdb` call: one lock-scoped section or one file operation.
Source: `memdb/stash.rs` 183–206, 400–427
Kind: D
Fidelity: exact at the granularity of lock sections -/
def GetMemdbCall.step (c : GetMemdbCall I) (w : MemDbStash I) : GetMemdbCall I × MemDbStash I :=
  match c.pc with
  | .start =>
    match w.memdbs c.info with
    | some m => (⟨c.info, .done (.ok m)⟩, w)
    | none => (⟨c.info, .snapshot⟩, w)
  | .snapshot =>
    match w.localState with
    | some s => (⟨c.info, c.afterSnapshot s⟩, w)
    | none => (⟨c.info, .readFile⟩, w)
  | .readFile =>
    match MemDbStash.parseStateFile w.syncState with
    | .ok s => (⟨c.info, .installState s⟩, w)
    | .error e => (⟨c.info, .done (.error e)⟩, w)
  | .installState s => (⟨c.info, .rereadSnapshot⟩, { w with localState := some s })
  | .rereadSnapshot =>
    match w.localState with
    | some s => (⟨c.info, c.afterSnapshot s⟩, w)
    | none => (⟨c.info, .done (.error .panic)⟩, w)
  | .openFile =>
    match MemDb.fromPath (w.files (memdbFilename c.info)) with
    | .ok m => (⟨c.info, .insert m⟩, w)
    | .error e => (⟨c.info, .done (.error e)⟩, w)
  | .insert m =>
    (⟨c.info, .reread⟩, { w with memdbs := Function.update w.memdbs c.info (some m) })
  | .reread =>
    match w.memdbs c.info with
    | some m => (⟨c.info, .done (.ok m)⟩, w)
    | none => (⟨c.info, .done (.error .unknownSdk)⟩, w)
  | .done r => (⟨c.info, .done r⟩, w)

/-- A step keeps the identity the call was made for.
Source: `memdb/stash.rs` 405
Kind: L -/
@[simp] theorem GetMemdbCall.step_info (c : GetMemdbCall I) (w : MemDbStash I) :
    (c.step w).1.info = c.info := by
  unfold GetMemdbCall.step
  split <;> (try split) <;> rfl

/-- A call run with no other thread in between, for `n` steps.
Source: none: infrastructure
Kind: D -/
def GetMemdbCall.runAlone : ℕ → GetMemdbCall I → MemDbStash I → GetMemdbCall I × MemDbStash I
  | 0, c, w => (c, w)
  | n + 1, c, w => GetMemdbCall.runAlone n (c.step w).1 (c.step w).2

/-- **The thread computes the function.** A `get_memdb` call run alone returns within eight
steps what `getMemdb` returns, and leaves the same stash: the lock sections the interleavings
schedule are those of `get_memdb`, with nothing added or lost.
Source: `memdb/stash.rs` 400–427
Kind: L -/
theorem getMemdb_eq_runAlone (info : I) (w : MemDbStash I) :
    GetMemdbCall.runAlone 8 ⟨info, .start⟩ w = (⟨info, .done (getMemdb info w).1⟩, (getMemdb info w).2) := by
  simp only [getMemdb, MemDbStash.getLocalState, MemDbStash.readLocalState]
  rcases hm : w.memdbs info with _ | m
  · rcases hl : w.localState with _ | s
    · rcases hp : MemDbStash.parseStateFile w.syncState with e | s
      · simp [GetMemdbCall.runAlone, GetMemdbCall.step, hm, hl, hp]
      · by_cases hs : (s.getSdk info).isSome
        · rcases hf : MemDb.fromPath (w.files (memdbFilename info)) with e | d
          all_goals simp [GetMemdbCall.runAlone, GetMemdbCall.step, GetMemdbCall.afterSnapshot,
            hm, hl, hp, hs, hf]
        · simp [GetMemdbCall.runAlone, GetMemdbCall.step, GetMemdbCall.afterSnapshot, hm, hl, hp, hs]
    · by_cases hs : (s.getSdk info).isSome
      · rcases hf : MemDb.fromPath (w.files (memdbFilename info)) with e | d
        all_goals simp [GetMemdbCall.runAlone, GetMemdbCall.step, GetMemdbCall.afterSnapshot,
          hm, hl, hs, hf]
      · simp [GetMemdbCall.runAlone, GetMemdbCall.step, GetMemdbCall.afterSnapshot, hm, hl, hs]
  · simp [GetMemdbCall.runAlone, GetMemdbCall.step, hm]

/-! ## Sequential runs -/

/-- An operation on the stash: a `get_memdb` call, or a run of `sync` that stops after some
number of steps.
Source: `memdb/stash.rs` 331–427
Kind: D -/
inductive Op (I : Type)
  | get (info : I)
  | sync (run : SyncRun I)

/-- What an operation does to the stash.
Source: `memdb/stash.rs` 331–427
Kind: D -/
def Op.apply : Op I → MemDbStash I → MemDbStash I
  | .get info, w => (getMemdb info w).2
  | .sync run, w => runSteps (run.steps w) w

/-- Operations one after another.
Source: none: infrastructure
Kind: D -/
def runOps (ops : List (Op I)) (w : MemDbStash I) : MemDbStash I :=
  ops.foldl (fun w op => op.apply w) w

/-- The sample stash as `MemDbStash::new` opens it: no snapshot, no handle.
Source: none: test data
Kind: D -/
def sampleNew : MemDbStash ℕ :=
  MemDbStash.new sampleStash.files sampleStash.syncState sampleStash.ignorePatterns

/-- **A dropped identity stays served, and a re-added one stale.** From `MemDbStash::new` over
a `sync.state` recording `1` (complete file, no handle): `get_memdb(1)` opens and caches `1`;
a `sync` against an empty listing drops `1` from the snapshot but not from the cache, so
`get_memdb(1)` still returns `Ok`; a further `sync` against a listing where `1` has a new entry
downloads it through the "missing" branch, which evicts nothing, so `get_memdb(1)` returns the
handle of the old file while the snapshot records the new entry.
Source: `memdb/stash.rs` 343–384, 400–427
Kind: P -/
theorem get_memdb_serves_dropped_identity :
    let w1 : MemDbStash ℕ := runOps [.get 1] sampleNew
    let w2 := runOps [.sync ⟨.ok [], 100⟩] w1
    let w3 := runOps [.sync ⟨.ok [sampleSdk 1 "b"], 100⟩] w2
    (getMemdb 1 sampleNew).1.toOption = some ⟨sampleSdk 1 "a"⟩ ∧
      w2.localState.map (·.getSdk 1) = some none ∧
      (getMemdb 1 w2).1.toOption = some ⟨sampleSdk 1 "a"⟩ ∧
      w3.localState.map (·.getSdk 1) = some (some (sampleSdk 1 "b")) ∧
      w3.files (memdbFilename 1) = some (.full (sampleSdk 1 "b")) ∧
      (getMemdb 1 w3).1.toOption = some ⟨sampleSdk 1 "a"⟩ := by
  decide

end SymbolServer.Memdb
