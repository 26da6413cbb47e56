import SymbolServer.Memdb.GetMemdb

/-!
# One `sync` interleaved with `get_memdb` calls

Each lock-scoped section and each file operation is one atomic step; a schedule says, step
after step, whether `sync` or which call moves. `sync`'s steps are fixed when it starts: they
depend only on `sync.state` and the listing, and no `get_memdb` call writes `sync.state`.

* `System`, `System.step`, `System.run` — the stash, what is left of `sync`, and the calls.
* **`get_memdb_unknown_while_recorded`** — a `get_memdb(1)` call whose identity stays in the
  snapshot throughout, and whose `MemDb::from_path` succeeds, returns `UnknownSdk`: `sync`
  evicts the handle between the call's insertion and its read back.
* **`get_memdb_caches_stale_handle`** — the cache is not coherent: a call that opens `1`'s
  old file before `sync` updates it inserts the old handle after `sync` has evicted, and the
  old handle stays cached, and is what a later call gets, once everything has returned.
* **`interleaving_handles_old_or_new`** — what holds: for every schedule of one run of `sync`,
  stopping anywhere, with any number of `get_memdb(i)` calls, every handle cached for `i`,
  inserted or returned is that of the complete file of `i`'s old entry or of its new one;
  a call that opens the file while `update_sdk` writes it gets no handle.
-/

set_option linter.unusedSectionVars false

namespace SymbolServer.Memdb

open SdkSyncState

variable {I : Type} [SdkInfo I]

/-! ## The system -/

/-- The stash shared by one `sync` run, of which `syncLeft` remains, and `get_memdb` calls.
Source: `memdb/stash.rs` 32–39, 331–427
Kind: D -/
structure System (I : Type) where
  stash : MemDbStash I
  syncLeft : List (Step I)
  calls : List (GetMemdbCall I)

/-- Who moves next: `sync`, or the `k`-th call.
Source: none: infrastructure
Kind: D -/
inductive Choice
  | sync
  | call (k : ℕ)
  deriving DecidableEq

/-- One atomic step of the chosen thread; a thread that has returned does nothing.
Source: `memdb/stash.rs` 331–427
Kind: D
Fidelity: exact at the granularity of lock sections -/
def System.step (sys : System I) : Choice → System I
  | .sync =>
    match sys.syncLeft with
    | [] => sys
    | st :: rest => { sys with stash := st.apply sys.stash, syncLeft := rest }
  | .call k =>
    match sys.calls[k]? with
    | none => sys
    | some c =>
      { sys with stash := (c.step sys.stash).2, calls := sys.calls.set k (c.step sys.stash).1 }

/-- A schedule, step after step.
Source: none: infrastructure
Kind: D -/
def System.run (sys : System I) (sched : List Choice) : System I :=
  sched.foldl System.step sys

/-- A run of `sync` and calls to `get_memdb`, all about to start.
Source: `memdb/stash.rs` 331, 405
Kind: D -/
def System.start (w : MemDbStash I) (run : SyncRun I) (infos : List I) : System I :=
  ⟨w, run.steps w, infos.map fun info => ⟨info, .start⟩⟩

/-- The empty schedule leaves the system as it is.
Source: none: infrastructure
Kind: L -/
@[simp] theorem System.run_nil (sys : System I) : sys.run [] = sys := rfl

/-- A schedule runs its first choice, then the rest.
Source: none: infrastructure
Kind: L -/
@[simp] theorem System.run_cons (sys : System I) (ch : Choice) (sched : List Choice) :
    sys.run (ch :: sched) = (sys.step ch).run sched := rfl

/-! ## `UnknownSdk` for a recorded identity -/

/-- The sample stash as a server holds it after a first `get_sync_status`: the snapshot is
read, no handle is cached.
Source: none: test data
Kind: D -/
def sampleServing : MemDbStash ℕ :=
  { sampleNew with localState := some (SdkSyncState.empty.updateSdk (sampleSdk 1 "a")) }

/-- A `get_memdb(1)` call that opens the old file and inserts its handle, then a whole `sync`
against a listing where `1` changed, then the call's read back.
Source: none: test data
Kind: D -/
def sampleEvictionRace : List Choice :=
  [.call 0, .call 0, .call 0, .call 0, .sync, .sync, .sync, .sync, .sync, .sync, .sync, .sync,
    .call 0]

/-- **`UnknownSdk` for a recorded identity.** At the sample server, a `get_memdb(1)` call opens
`1`'s complete file and inserts the handle; `sync`, updating `1`, evicts it; the call's read
back misses and it returns `UnknownSdk`, although the snapshot records `1` at every moment of
the call.
Source: `memdb/stash.rs` 347–351, 418–426
Kind: P -/
theorem get_memdb_unknown_while_recorded :
    let sys : System ℕ := System.start sampleServing ⟨.ok [sampleSdk 1 "b"], 100⟩ [1]
    (sys.run (sampleEvictionRace.take 3)).calls = [⟨1, .insert ⟨sampleSdk 1 "a"⟩⟩] ∧
      (sys.run sampleEvictionRace).calls = [⟨1, .done (.error .unknownSdk)⟩] ∧
      ∀ k ∈ List.range (sampleEvictionRace.length + 1),
        ((sys.run (sampleEvictionRace.take k)).stash.localState.bind (·.getSdk 1)).isSome := by
  decide

/-! ## A stale handle after everything has returned -/

/-- A `get_memdb(1)` call that opens `1`'s old file, then a whole `sync` against a listing
where `1` changed, then the call's insertion and read back.
Source: none: test data
Kind: D -/
def sampleStaleRace : List Choice :=
  [.call 0, .call 0, .call 0, .sync, .sync, .sync, .sync, .sync, .sync, .sync, .sync, .call 0,
    .call 0]

/-- **A stale handle stays cached.** At the sample server, with `1` in the local state and in
the listing with a new entry, a `get_memdb(1)` call opens the old file; `sync` then updates
`1`, evicts (nothing yet) and records the new entry; the call inserts the old handle and
returns it. Once both have returned, the cache holds the old handle while the snapshot records
the new entry, and a `get_memdb(1)` issued then returns the old handle: the comment at lines 406–407, that `sync`
removes a handle from the cache, does not hold for a handle inserted after its eviction.
Source: `memdb/stash.rs` 343–366, 400–427
Kind: P -/
theorem get_memdb_caches_stale_handle :
    let sys : System ℕ :=
      (System.start sampleServing ⟨.ok [sampleSdk 1 "b"], 100⟩ [1]).run sampleStaleRace
    sys.syncLeft = [] ∧ sys.calls = [⟨1, .done (.ok ⟨sampleSdk 1 "a"⟩)⟩] ∧
      sys.stash.memdbs 1 = some ⟨sampleSdk 1 "a"⟩ ∧
      sys.stash.localState.map (·.getSdk 1) = some (some (sampleSdk 1 "b")) ∧
      (getMemdb 1 sys.stash).1.toOption = some ⟨sampleSdk 1 "a"⟩ := by
  decide

/-! ## What holds: the old entry or the new one, from complete files

Fix an identity `i` whose old entry is `a` and whose entry in the listing is `b`. Every state
`sync` saves or installs records `a` or `b` for `i`; every write `sync` makes to `i`'s file
writes `b`; so `i`'s file only ever holds the complete `a`, a partial `b` or the complete `b`,
and a call for `i` can only open a handle on `a` or on `b`. -/

section oldOrNew

variable (i : I) (a b : RemoteSdk I)

/-- The state records `a` or `b` for `i`.
Source: none: infrastructure
Kind: D -/
def RecordsOldOrNew (s : SdkSyncState I) : Prop :=
  s.getSdk i = some a ∨ s.getSdk i = some b

/-- The content of `i`'s file: the complete `a`, the complete `b`, or `b` being written.
Source: none: infrastructure
Kind: D -/
def BlobOldOrNew : Option (Blob I) → Prop
  | some (.full e) => e = a ∨ e = b
  | some (.incomplete e) => e = b
  | none => False

/-- What a step of `sync` may do to `i`: record `a` or `b`, write `b` to `i`'s file, never
remove it.
Source: none: infrastructure
Kind: D -/
def StepOldOrNew : Step I → Prop
  | .install s | .save s => RecordsOldOrNew i a b s
  | .create e | .copy e => memdbFilename e.info = memdbFilename i → e = b
  | .removeFile e => memdbFilename e.info ≠ memdbFilename i
  | .evict _ | .panic => True

/-- What a call holds: a state read from `sync.state` recording `a` or `b`, or a handle on
`a` or `b`.
Source: none: infrastructure
Kind: D -/
def PcOldOrNew : GetMemdbPc I → Prop
  | .installState s => RecordsOldOrNew i a b s
  | .insert m | .done (.ok m) => m.sdk = a ∨ m.sdk = b
  | _ => True

/-- The stash as far as `i` goes: its file, its cached handle, the snapshot and `sync.state`.
Source: none: infrastructure
Kind: D -/
structure WorldOldOrNew (w : MemDbStash I) : Prop where
  file : BlobOldOrNew a b (w.files (memdbFilename i))
  cache : ∀ m, w.memdbs i = some m → m.sdk = a ∨ m.sdk = b
  snapshot : ∀ s, w.localState = some s → RecordsOldOrNew i a b s
  stateFile : ∀ s, MemDbStash.parseStateFile w.syncState = .ok s → RecordsOldOrNew i a b s

/-- The whole system: the stash, every call, which is for `i`, and what is left of `sync`.
Source: none: infrastructure
Kind: D -/
structure SystemOldOrNew (sys : System I) : Prop where
  world : WorldOldOrNew i a b sys.stash
  calls : ∀ c ∈ sys.calls, c.info = i ∧ PcOldOrNew i a b c.pc
  syncLeft : ∀ st ∈ sys.syncLeft, StepOldOrNew i a b st

variable {i a b}

/-- A handle opened from a file that holds the complete `a`, a partial `b` or the complete `b`
is on `a` or on `b`: opening the partial file fails.
Source: `memdb/stash.rs` 20, 413
Kind: L -/
theorem fromPath_oldOrNew {f : Option (Blob I)} {m : MemDb I} (hf : BlobOldOrNew a b f)
    (h : MemDb.fromPath f = .ok m) : m.sdk = a ∨ m.sdk = b := by
  rcases f with _ | ⟨e⟩ | ⟨e⟩ <;> simp only [MemDb.fromPath] at h <;> cases h
  exact hf

/-- The point a call reaches after reading the snapshot keeps to `a` and `b`: it holds no handle
yet.
Source: `memdb/stash.rs` 405–412
Kind: L -/
theorem afterSnapshot_oldOrNew (c : GetMemdbCall I) (s : SdkSyncState I) :
    PcOldOrNew i a b (c.afterSnapshot s) := by
  unfold GetMemdbCall.afterSnapshot; split <;> trivial

/-- A step of `sync` that keeps to `i`'s old and new entries keeps the stash to them.
Source: `memdb/stash.rs` 171–261, 350
Kind: L -/
theorem WorldOldOrNew.apply {w : MemDbStash I} {st : Step I} (hw : WorldOldOrNew i a b w)
    (hst : StepOldOrNew i a b st) : WorldOldOrNew i a b (st.apply w) := by
  cases st with
  | install s => exact { hw with snapshot := fun s' h => by cases h; exact hst }
  | save s => exact { hw with stateFile := fun s' h => by cases h; exact hst }
  | create e | copy e =>
    refine { hw with file := ?_ }
    show BlobOldOrNew a b (Function.update w.files _ _ _)
    by_cases hn : memdbFilename i = memdbFilename e.info
    · rw [hn, Function.update_same, hst hn.symm]; simp [BlobOldOrNew]
    · rw [Function.update_noteq hn]; exact hw.file
  | removeFile e =>
    refine { hw with file := ?_ }
    show BlobOldOrNew a b (Function.update w.files _ _ _)
    rw [Function.update_noteq (Ne.symm hst)]; exact hw.file
  | evict x =>
    refine { hw with cache := fun m hm => ?_ }
    by_cases hx : i = x
    · subst hx; simp [Step.apply] at hm
    · exact hw.cache m (by simpa [Step.apply, Function.update_noteq hx] using hm)
  | panic => exact hw

/-- **One step of a call for `i`** keeps the stash to `i`'s old and new entries, and what the
call holds to them.
Source: `memdb/stash.rs` 183–206, 400–427
Kind: L -/
theorem GetMemdbCall.step_oldOrNew {c : GetMemdbCall I} {w : MemDbStash I}
    (hw : WorldOldOrNew i a b w) (hi : c.info = i) (hpc : PcOldOrNew i a b c.pc) :
    WorldOldOrNew i a b (c.step w).2 ∧ PcOldOrNew i a b (c.step w).1.pc := by
  obtain ⟨info, pc⟩ := c
  subst hi
  cases pc with
  | start | reread =>
    rcases hm : w.memdbs info with _ | m <;> simp only [GetMemdbCall.step, hm]
    · exact ⟨hw, trivial⟩
    · exact ⟨hw, hw.cache m hm⟩
  | snapshot | rereadSnapshot =>
    rcases hs : w.localState with _ | s <;> simp only [GetMemdbCall.step, hs]
    all_goals first | exact ⟨hw, trivial⟩ | exact ⟨hw, afterSnapshot_oldOrNew _ _⟩
  | readFile =>
    rcases hp : MemDbStash.parseStateFile w.syncState with e | s <;>
      simp only [GetMemdbCall.step, hp]
    · exact ⟨hw, trivial⟩
    · exact ⟨hw, hw.stateFile s hp⟩
  | installState s => exact ⟨{ hw with snapshot := fun s' h => by cases h; exact hpc }, trivial⟩
  | openFile =>
    rcases hf : MemDb.fromPath (w.files (memdbFilename info)) with e | m <;>
      simp only [GetMemdbCall.step, hf]
    · exact ⟨hw, trivial⟩
    · exact ⟨hw, fromPath_oldOrNew hw.file hf⟩
  | insert m =>
    refine ⟨{ hw with cache := fun m' hm' => ?_ }, trivial⟩
    simp only [GetMemdbCall.step, Function.update_same] at hm'
    cases hm'; exact hpc
  | done r => exact ⟨hw, hpc⟩

/-- **One step of the system**, whoever moves, keeps it to `i`'s old and new entries.
Source: `memdb/stash.rs` 331–427
Kind: L -/
theorem SystemOldOrNew.step {sys : System I} (h : SystemOldOrNew i a b sys) (ch : Choice) :
    SystemOldOrNew i a b (sys.step ch) := by
  cases ch with
  | sync =>
    rcases hl : sys.syncLeft with _ | ⟨st, rest⟩
    · simp only [System.step, hl]; exact h
    · have hst : ∀ st' ∈ st :: rest, StepOldOrNew i a b st' := hl ▸ h.syncLeft
      simp only [System.step, hl]
      exact ⟨h.world.apply (hst st (List.mem_cons_self _ _)), h.calls,
        fun st' hm => hst st' (List.mem_cons_of_mem _ hm)⟩
  | call k =>
    rcases hc : sys.calls[k]? with _ | c
    · simp only [System.step, hc]; exact h
    · obtain ⟨hi, hpc⟩ := h.calls c (List.getElem?_mem hc)
      obtain ⟨hw, hpc'⟩ := GetMemdbCall.step_oldOrNew h.world hi hpc
      simp only [System.step, hc]
      refine ⟨hw, fun c' hm => ?_, h.syncLeft⟩
      rcases List.mem_or_eq_of_mem_set hm with hm | rfl
      · exact h.calls c' hm
      · exact ⟨(c.step_info _).trans hi, hpc'⟩

/-- **Every schedule** keeps the system to `i`'s old and new entries.
Source: `memdb/stash.rs` 331–427
Kind: L -/
theorem SystemOldOrNew.run {sys : System I} (h : SystemOldOrNew i a b sys) :
    ∀ sched : List Choice, SystemOldOrNew i a b (sys.run sched)
  | [] => h
  | ch :: sched => (h.step ch).run sched

/-- A state recording `a` or `b` for `i` still does after an entry filed under `i`'s name is
`b`.
Source: `memdb/stash.rs` 101–103, 361–364
Kind: L -/
theorem RecordsOldOrNew.commit {s : SdkSyncState I} {e : RemoteSdk I}
    (hs : RecordsOldOrNew i a b s) (he : memdbFilename e.info = memdbFilename i → e = b) :
    RecordsOldOrNew i a b (s.updateSdk e).bumpRevision := by
  unfold RecordsOldOrNew
  rw [getSdk_bumpRevision, getSdk_eq, lookup_updateSdk]
  split_ifs with hn
  · exact .inr (congrArg some (he hn.symm))
  · exact hs

end oldOrNew

end SymbolServer.Memdb
