import SymbolServer.Memdb.Health

/-!
# The revisions `sync` writes to `sync.state`, within a run and across runs

`sync` bumps the revision of its working copy once per download, saving it each time (line
364), and once more before the last save (line 394). A run that stops early — an error from a
download, a copy or a save, or a crash — has applied a prefix of its steps
(`Stash.lean`), so what it wrote is a prefix of what a complete run writes.

* `written_take_prefix_full` — the states a run stopped after any number of steps writes are
  a prefix of the per-download states followed by the final state.
* `revisions_stopped_run` — their revisions are `r₀ + 1, …, r₀ + m`, and `sync.state` is left at
  `r₀ + m`, whatever the listing and wherever the run stops.
* `revisions_writtenStates` — so over any sequence of runs, each stopping anywhere, the
  revisions written are `r₀ + 1, r₀ + 2, …` in `u64`.
* **`sync_revision_protocol`** — the protocol: the per-download states in order, the final
  revision `r₀ + c + 1`, and revisions that strictly increase over any sequence of runs as long
  as no value passes `u64::MAX`.
* **`sync_revision_wraps_at_max`**, **`sync_second_run_wraps_at_max`** — at the boundary the
  bump overflows: from `u64::MAX` a run writes `0, 1, …`, and a second run after one that saved
  `u64::MAX` saves `0` instead of raising the revision by one.
-/

set_option linter.unusedSectionVars false

namespace SymbolServer.Memdb

open SdkSyncState

variable {I : Type} [SdkInfo I]

/-- Below `2^64` a `u64` sum is the sum of naturals.
Source: none: infrastructure
Kind: L -/
theorem UInt64.toNat_add_ofNat {r : UInt64} {k : ℕ} (h : r.toNat + k < 2 ^ 64) :
    (r + UInt64.ofNat k).toNat = r.toNat + k := by
  have hk : k < 2 ^ 64 := by omega
  simp only [UInt64.toNat, UInt64.add_def, UInt64.ofNat, BitVec.toNat_add, BitVec.toNat_ofNat,
    Nat.mod_eq_of_lt hk]
  exact Nat.mod_eq_of_lt h

/-- `u64::MAX` plus `j + 1` wraps to `j`.
Source: none: infrastructure
Kind: L -/
theorem UInt64.max_add_ofNat_succ (j : ℕ) :
    (18446744073709551615 : UInt64) + UInt64.ofNat (j + 1) = UInt64.ofNat j := by
  apply UInt64.eq_of_toBitVec_eq
  apply BitVec.eq_of_toNat_eq
  simp only [UInt64.add_def, UInt64.ofNat, BitVec.toNat_add, BitVec.toNat_ofNat]
  show (18446744073709551615 + (j + 1) % 2 ^ 64) % 2 ^ 64 = j % 2 ^ 64
  omega

/-- `u64`s compare as the naturals they stand for.
Source: none: infrastructure
Kind: L -/
theorem UInt64.lt_iff_toNat_lt {a b : UInt64} : a < b ↔ a.toNat < b.toNat := by
  simp [UInt64.lt_def, BitVec.lt_def, UInt64.toNat]

/-! ## Stopping points and what they leave in `sync.state` -/

/-- The revision `read_local_state` finds in `sync.state`: `revision.unwrap_or(0)` of the
saved state, `0` for an absent file; an unreadable file also counts as `0`, and no run writes
over it.
Source: `memdb/stash.rs` 183–198, 337
Kind: D -/
def storedRevision (w : MemDbStash I) : UInt64 :=
  match MemDbStash.parseStateFile w.syncState with
  | .ok s => s.revision.getD 0
  | .error _ => 0

/-- `sync.state` after some steps is the last state they saved, or the old file if none.
Source: `memdb/stash.rs` 171–181
Kind: L -/
theorem syncState_runSteps :
    ∀ (steps : List (Step I)) (w : MemDbStash I), (runSteps steps w).syncState =
      (steps.filterMap Step.savedState).foldl (fun _ s => .saved s) w.syncState
  | [], _ => rfl
  | st :: rest, w => by
    rw [runSteps_cons, syncState_runSteps rest]
    cases st <;> rfl

/-- A prefix of `(range k).map f` is `(range m).map f` for its own length `m`.
Source: none: infrastructure
Kind: L -/
theorem eq_map_range_of_prefix {α : Type} {f : ℕ → α} {l : List α} {k : ℕ}
    (h : l <+: (List.range k).map f) : l = (List.range l.length).map f := by
  have hk : l.length ≤ k := by simpa using h.length_le
  rw [List.prefix_iff_eq_take.mp h, ← List.map_take, List.take_range, Nat.min_eq_left hk]
  simp

/-- A run that saves states with revisions `r₀ + 1, …, r₀ + m` leaves `sync.state` at `r₀ + m`.
Source: `memdb/stash.rs` 171–198
Kind: L -/
theorem storedRevision_runSteps {steps : List (Step I)} {w : MemDbStash I}
    (hrev : (steps.filterMap Step.savedState).map SdkSyncState.revision =
      (List.range (steps.filterMap Step.savedState).length).map
        fun j => some (storedRevision w + UInt64.ofNat (j + 1))) :
    storedRevision (runSteps steps w) =
      storedRevision w + UInt64.ofNat (steps.filterMap Step.savedState).length := by
  have hsync := syncState_runSteps steps w
  generalize steps.filterMap Step.savedState = l at hrev hsync ⊢
  rw [storedRevision, hsync]
  rcases l.eq_nil_or_concat with rfl | ⟨l, s, rfl⟩
  · exact (UInt64.add_ofNat_zero _).symm
  · simp only [List.concat_eq_append, List.length_append, List.length_singleton,
      List.range_succ, List.map_append, List.map_cons, List.map_nil] at hrev
    have hs := (List.append_inj' hrev (by simp)).2
    simp only [List.cons.injEq, and_true] at hs
    simp [List.foldl_append, MemDbStash.parseStateFile, hs]

/-! ## One run -/

section run

variable {w : MemDbStash I} {L : SdkSyncState I}

/-- The final state's revision is one past the last download's.
Source: `memdb/stash.rs` 361–366, 392–394
Kind: L -/
theorem revision_syncFinal {p : IgnorePatterns} {R : SdkSyncState I} (hR : R.WellKeyed) :
    (syncFinal p L R).revision = some (L.revision.getD 0 + UInt64.ofNat ((downloads p L R).length + 1)) := by
  rw [syncFinal, bumpRevision_revision, deleteLoop_revision,
    downloadAll_snd _ _ (remoteIds_downloads hR).isSome, ← UInt64.add_ofNat_add]
  split_ifs with h
  · rw [h, List.length_nil, UInt64.add_ofNat_zero]; rfl
  · rfl

/-- **What a complete run writes**: after each download, the state `L` overwritten with the
first downloads' entries at revision `r₀ + j`, then the final state.
Source: `memdb/stash.rs` 331–398
Kind: L -/
theorem written_full (hL : MemDbStash.parseStateFile w.syncState = .ok L)
    (listing : List (RemoteSdk I)) :
    (syncSteps w (.ok listing)).filterMap Step.savedState =
      (List.range (downloads w.ignorePatterns L (remoteStateOf listing)).length).map (fun j =>
        ⟨insertListed L.sdks (((downloads w.ignorePatterns L (remoteStateOf listing)).take (j + 1)).filterMap
          (remoteStateOf listing).getSdk), some (L.revision.getD 0 + UInt64.ofNat (j + 1))⟩) ++
        [syncFinal w.ignorePatterns L (remoteStateOf listing)] := by
  rw [syncSteps_eq hL, List.filterMap_append, List.filterMap_cons_none rfl,
    downloadAll_saves _ _ (remoteIds_downloads (wellKeyed_remoteStateOf listing)).isSome]
  rfl

/-- A run stopped after any number of steps has written a prefix of what a complete run writes.
Source: `memdb/stash.rs` 331–398
Kind: L -/
theorem written_take_prefix_full (upstream : Except ErrorKind (List (RemoteSdk I))) (n : ℕ) :
    ((syncSteps w upstream).take n).filterMap Step.savedState <+:
      (syncSteps w upstream).filterMap Step.savedState :=
  (List.take_prefix n _).filterMap _

/-- The revisions a complete run writes are `r₀ + 1, …, r₀ + m`.
Source: `memdb/stash.rs` 331–398
Kind: L -/
theorem revisions_full (upstream : Except ErrorKind (List (RemoteSdk I))) :
    ((syncSteps w upstream).filterMap Step.savedState).map SdkSyncState.revision =
      (List.range ((syncSteps w upstream).filterMap Step.savedState).length).map
        fun j => some (storedRevision w + UInt64.ofNat (j + 1)) := by
  unfold storedRevision
  rcases hL : MemDbStash.parseStateFile w.syncState with e | L
  · simp [syncSteps, hL]
  rcases upstream with e | listing
  · simp [syncSteps_fetch_error hL, Step.savedState]
  rw [written_full hL, List.map_append, List.length_append, List.length_map, List.length_range,
    List.length_singleton, List.range_succ, List.map_append, List.map_map, List.map_singleton,
    revision_syncFinal (wellKeyed_remoteStateOf listing)]
  rfl

/-- **Revisions of a stopped run**: a run stopped anywhere writes the revisions
`r₀ + 1, …, r₀ + m`, and leaves `sync.state` at `r₀ + m`.
Source: `memdb/stash.rs` 331–398
Kind: L -/
theorem revisions_stopped_run (upstream : Except ErrorKind (List (RemoteSdk I))) (n : ℕ) :
    (((syncSteps w upstream).take n).filterMap Step.savedState).map SdkSyncState.revision =
        (List.range (((syncSteps w upstream).take n).filterMap Step.savedState).length).map
          (fun j => some (storedRevision w + UInt64.ofNat (j + 1))) ∧
      storedRevision (runSteps ((syncSteps w upstream).take n) w) =
        storedRevision w + UInt64.ofNat (((syncSteps w upstream).take n).filterMap Step.savedState).length := by
  have h := eq_map_range_of_prefix ((revisions_full upstream).symm ▸
    (written_take_prefix_full (w := w) upstream n).map SdkSyncState.revision)
  rw [List.length_map] at h
  exact ⟨h, storedRevision_runSteps h⟩

end run

/-! ## Runs one after another -/

/-- A run of `sync`: what `fetch_remote_state` returns to it, and the number of steps it takes
before it stops on an error or a crash; a number past its last step is a run that ends.
Source: `memdb/stash.rs` 331–398
Kind: D -/
structure SyncRun (I : Type) where
  upstream : Except ErrorKind (List (RemoteSdk I))
  stop : ℕ

/-- The steps a run takes from the stash `w`.
Source: `memdb/stash.rs` 331–398
Kind: D -/
def SyncRun.steps (run : SyncRun I) (w : MemDbStash I) : List (Step I) :=
  (syncSteps w run.upstream).take run.stop

/-- The states a sequence of runs writes to `sync.state`, each run starting from the stash the
one before it left.
Source: `memdb/stash.rs` 171–181, 331–398
Kind: D -/
def writtenStates : List (SyncRun I) → MemDbStash I → List (SdkSyncState I)
  | [], _ => []
  | run :: runs, w =>
    (run.steps w).filterMap Step.savedState ++ writtenStates runs (runSteps (run.steps w) w)

/-- **Revisions across runs**: whatever the listings and wherever each run stops, the revisions
written are `r₀ + 1, r₀ + 2, …` in `u64`, counted from the revision `sync.state` held first.
Source: `memdb/stash.rs` 331–398
Kind: L -/
theorem revisions_writtenStates :
    ∀ (runs : List (SyncRun I)) (w : MemDbStash I),
      (writtenStates runs w).map SdkSyncState.revision =
        (List.range (writtenStates runs w).length).map
          fun j => some (storedRevision w + UInt64.ofNat (j + 1))
  | [], _ => rfl
  | run :: runs, w => by
    have h1 : ((run.steps w).filterMap Step.savedState).map SdkSyncState.revision =
        (List.range ((run.steps w).filterMap Step.savedState).length).map
          (fun j => some (storedRevision w + UInt64.ofNat (j + 1))) :=
      (revisions_stopped_run run.upstream run.stop).1
    have h2 : storedRevision (runSteps (run.steps w) w) =
        storedRevision w + UInt64.ofNat ((run.steps w).filterMap Step.savedState).length :=
      (revisions_stopped_run run.upstream run.stop).2
    rw [writtenStates, List.map_append, List.length_append, List.range_add, List.map_append,
      List.map_map, h1, revisions_writtenStates runs, h2]
    simp only [Function.comp_def, UInt64.add_ofNat_add, Nat.add_assoc]

/-- `r₀, r₀ + 1, …, r₀ + N` strictly increase in `u64` when `r₀ + N` does not pass `u64::MAX`.
Source: none: infrastructure
Kind: L -/
theorem sorted_add_ofNat {r : UInt64} {N : ℕ} (h : r.toNat + N < 2 ^ 64) :
    (r :: (List.range N).map fun j => r + UInt64.ofNat (j + 1)).Sorted (· < ·) := by
  have hr : r :: (List.range N).map (fun j => r + UInt64.ofNat (j + 1)) =
      (List.range (N + 1)).map fun j => r + UInt64.ofNat j := by
    rw [List.range_succ_eq_map, List.map_cons, List.map_map, UInt64.add_ofNat_zero]; rfl
  rw [hr, List.Sorted, List.pairwise_map]
  refine (List.pairwise_lt_range (N + 1)).imp_of_mem fun ha hb hab => ?_
  rw [List.mem_range] at ha hb
  rw [UInt64.lt_iff_toNat_lt, UInt64.toNat_add_ofNat (by omega), UInt64.toNat_add_ofNat (by omega)]
  omega

/-- The downloads are taken greatest identity first, each once.
Source: `memdb/stash.rs` 340–344
Kind: L -/
theorem downloads_sorted {p : IgnorePatterns} {L R : SdkSyncState I} (hR : R.WellKeyed) :
    (downloads p L R).Sorted (· > ·) :=
  (((List.sorted_insertionSort (fun a b => b ≤ a) _).filter _).and
    ((remoteIds_downloads hR).nodup.of_map _)).imp fun h => lt_of_le_of_ne h.1 (Ne.symm h.2)

/-! ## The revision protocol -/

/-- **The revision protocol of `sync`.** From a readable `sync.state` holding `L` at revision
`r₀`, against any listing: the downloads are taken greatest identity first, and there are `c`
of them, the missing and the differing remote entries; a run stopped after any number of steps
has written a prefix of, and a complete run writes exactly, the states `L` overwritten with the
entries of the first `j` downloads at revision `r₀ + j`, then the final state at `r₀ + c + 1`.
Over any sequence of runs from there, each stopping anywhere, the revisions written are
`r₀ + 1, r₀ + 2, …` in `u64`, and they strictly increase as long as the last of them does not
pass `u64::MAX`.
Source: `memdb/stash.rs` 183–213, 331–398
Kind: P -/
theorem sync_revision_protocol {w : MemDbStash I} {L : SdkSyncState I}
    (hL : MemDbStash.parseStateFile w.syncState = .ok L) (listing : List (RemoteSdk I))
    (runs : List (SyncRun I)) :
    let p := w.ignorePatterns
    let R := remoteStateOf listing
    let ds := downloads p L R
    let r0 := L.revision.getD 0
    let saves : List (SdkSyncState I) := (List.range ds.length).map fun j =>
      ⟨insertListed L.sdks ((ds.take (j + 1)).filterMap R.getSdk), some (r0 + .ofNat (j + 1))⟩
    let revs := (writtenStates runs w).map SdkSyncState.revision
    ds.Sorted (· > ·) ∧
      ds.length = R.sdkValues.countP (isMissing p L) + R.sdkValues.countP (isDifferent p L) ∧
      (∀ n, ((syncSteps w (.ok listing)).take n).filterMap Step.savedState <+:
        saves ++ [syncFinal p L R]) ∧
      (syncSteps w (.ok listing)).filterMap Step.savedState = saves ++ [syncFinal p L R] ∧
      (syncFinal p L R).revision = some (r0 + .ofNat (ds.length + 1)) ∧
      revs = (List.range revs.length).map (fun j => some (r0 + .ofNat (j + 1))) ∧
      (r0.toNat + revs.length < 2 ^ 64 → (r0 :: revs.map (·.getD 0)).Sorted (· < ·)) := by
  intro p R ds r0 saves revs
  have hR := wellKeyed_remoteStateOf listing
  have hr0 : storedRevision w = r0 := by rw [storedRevision, hL]
  have hrevs : revs = (List.range revs.length).map (fun j => some (r0 + .ofNat (j + 1))) := by
    rw [List.length_map, ← hr0]; exact revisions_writtenStates runs w
  refine ⟨downloads_sorted hR, length_downloads hR,
    fun n => written_full hL listing ▸ written_take_prefix_full _ n, written_full hL listing,
    revision_syncFinal hR, hrevs, fun hN => ?_⟩
  rw [hrevs, List.map_map]
  exact sorted_add_ofNat hN

/-- The protocol at the sample stash, whose `sync.state` records `1` at no revision, against a
listing of `1` changed and `2` new: a run stopped after its first download and then a run that
ends write the revisions `1, 2, 3` — nothing near `u64::MAX`, so they increase.
Source: `memdb/stash.rs` 183–213, 331–398
Kind: N+ -/
theorem sync_revision_protocol_sample :
    let listing := [sampleSdk 1 "b", sampleSdk 2 "a"]
    let runs : List (SyncRun ℕ) := [⟨.ok listing, 4⟩, ⟨.ok listing, 100⟩]
    (writtenStates runs sampleStash).map SdkSyncState.revision = [some 1, some 2, some 3] ∧
      ((0 : UInt64) :: ((writtenStates runs sampleStash).map SdkSyncState.revision).map
        (·.getD 0)).Sorted (· < ·) :=
  have h := sync_revision_protocol (w := sampleStash) rfl [sampleSdk 1 "b", sampleSdk 2 "a"]
    [⟨.ok [sampleSdk 1 "b", sampleSdk 2 "a"], 4⟩, ⟨.ok [sampleSdk 1 "b", sampleSdk 2 "a"], 100⟩]
  ⟨by decide, h.2.2.2.2.2.2 (by decide)⟩

/-! ## The revision at `u64::MAX` -/

/-- **At `u64::MAX` the first bump wraps.** From a `sync.state` holding the revision
`u64::MAX`, a run against any listing writes the revisions `0, 1, 2, …`: the first
`revision.unwrap_or(0) + 1` overflows (it wraps in a release build; a debug build panics
there), so the first revision written is below the one read.
Source: `memdb/stash.rs` 361–366, 392–395
Kind: P -/
theorem sync_revision_wraps_at_max {w : MemDbStash I} {L : SdkSyncState I}
    (hL : MemDbStash.parseStateFile w.syncState = .ok L)
    (hmax : L.revision = some 18446744073709551615) (listing : List (RemoteSdk I)) :
    let revs := ((syncSteps w (.ok listing)).filterMap Step.savedState).map SdkSyncState.revision
    revs = (List.range revs.length).map (fun j => some (UInt64.ofNat j)) ∧
      revs.head? = some (some 0) ∧ ¬ ∀ r ∈ revs, L.revision.getD 0 < r.getD 0 := by
  intro revs
  have hr0 : storedRevision w = 18446744073709551615 := by
    simp only [storedRevision, hL, hmax, Option.getD_some]
  have hrevs : revs = (List.range revs.length).map fun j => some (UInt64.ofNat j) := by
    have h := revisions_full (w := w) (.ok listing)
    simp only [hr0, UInt64.max_add_ofNat_succ] at h
    rw [List.length_map]; exact h
  -- a complete run writes at least the final state
  have hlen : revs.length = (downloads w.ignorePatterns L (remoteStateOf listing)).length + 1 := by
    simp [revs, written_full hL]
  have hhead : revs.head? = some (some 0) := by
    rw [hrevs, hlen, List.range_succ_eq_map]; rfl
  refine ⟨hrevs, hhead, fun h => ?_⟩
  have h0 := h (some 0) (List.mem_of_mem_head? hhead)
  rw [hmax] at h0
  exact absurd h0 (by decide)

/-- The sample `sync.state`, recording `1`, at revision `u64::MAX`.
Source: none: test data
Kind: D -/
def sampleMaxStash : MemDbStash ℕ :=
  { sampleStash with
    syncState := .saved ⟨(SdkSyncState.empty.updateSdk (sampleSdk 1 "a")).sdks,
      some 18446744073709551615⟩ }

/-- From the sample `sync.state` at `u64::MAX`, the first revision a run writes is `0`.
Source: `memdb/stash.rs` 361–366, 392–395
Kind: N+ -/
theorem sync_revision_wraps_at_max_sample :
    (((syncSteps sampleMaxStash (.ok [sampleSdk 1 "b"])).filterMap Step.savedState).map
      SdkSyncState.revision).head? = some (some 0) :=
  (sync_revision_wraps_at_max (w := sampleMaxStash) rfl rfl [sampleSdk 1 "b"]).2.1

/-- There a run that downloads `1` writes `0`, then `1`.
Source: `memdb/stash.rs` 361–366, 392–395
Kind: N+ -/
example : ((syncSteps sampleMaxStash (.ok [sampleSdk 1 "b"])).filterMap Step.savedState).map
    SdkSyncState.revision = [some 0, some 1] := by
  decide

/-- **A second run at `u64::MAX` lowers the revision.** From a readable, well-keyed
`sync.state` and distinct file names, when a run against a listing saves the revision
`u64::MAX`, a second run against the same listing downloads nothing, evicts nothing and saves
the same map, but saves the revision `0`: its final `revision.unwrap_or(0) + 1` overflows (it
wraps in a release build; a debug build panics there). So the second run lowers the revision
instead of raising it by one.
Source: `memdb/stash.rs` 331–398
Kind: P -/
theorem sync_second_run_wraps_at_max {w : MemDbStash I} {L : SdkSyncState I}
    (hL : MemDbStash.parseStateFile w.syncState = .ok L) (hkeys : L.WellKeyed)
    (hinj : Function.Injective (memdbFilename : I → String)) (listing : List (RemoteSdk I))
    (hmax : (syncFinal w.ignorePatterns L (remoteStateOf listing)).revision =
      some 18446744073709551615) :
    let final := syncFinal w.ignorePatterns L (remoteStateOf listing)
    let w1 := runSteps (syncSteps w (.ok listing)) w
    let steps2 := syncSteps w1 (.ok listing)
    steps2.filterMap Step.createdSdk = [] ∧ (∀ y, Step.evict y ∉ steps2) ∧
      ∃ f2, (runSteps steps2 w1).syncState = .saved f2 ∧ f2.sdks = final.sdks ∧
        f2.revision = some 0 ∧ f2.revision.getD 0 < final.revision.getD 0 := by
  intro final w1 steps2
  obtain ⟨hcreated, hevict, -, ⟨f2, hf2, hsdks, hrev⟩, -⟩ :=
    sync_second_run_idempotent hL hkeys hinj listing
  -- the first run saved `u64::MAX`; one more bump wraps
  have h0 : f2.revision = some 0 := by rw [hrev, hmax]; rfl
  exact ⟨hcreated, hevict, f2, hf2, hsdks, h0, by rw [h0, hmax]; decide⟩

/-- The sample `sync.state`, recording `1`, at revision `u64::MAX - 1`.
Source: none: test data
Kind: D -/
def sampleNearMaxStash : MemDbStash ℕ :=
  { sampleStash with
    syncState := .saved ⟨(SdkSyncState.empty.updateSdk (sampleSdk 1 "a")).sdks,
      some 18446744073709551614⟩ }

/-- From the sample `sync.state` at `u64::MAX - 1`, against a listing holding `1`'s recorded
entry, the first run saves `u64::MAX` and the second saves `0`.
Source: `memdb/stash.rs` 331–398
Kind: N+ -/
theorem sync_second_run_wraps_at_max_sample :
    let w1 := runSteps (syncSteps sampleNearMaxStash (.ok [sampleSdk 1 "a"])) sampleNearMaxStash
    storedRevision w1 = 18446744073709551615 ∧
      ∃ f2, (runSteps (syncSteps w1 (.ok [sampleSdk 1 "a"])) w1).syncState = .saved f2 ∧
        f2.revision = some 0 :=
  ⟨by decide,
    let ⟨_, _, f2, hf2, _, h0, _⟩ := sync_second_run_wraps_at_max (w := sampleNearMaxStash) rfl
      (by decide) memdbFilename_nat_injective [sampleSdk 1 "a"] (by decide)
    ⟨f2, hf2, h0⟩⟩

end SymbolServer.Memdb
