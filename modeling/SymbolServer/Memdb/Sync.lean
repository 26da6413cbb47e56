import SymbolServer.Memdb.Stash
import Mathlib.Data.List.Sort

/-!
# `MemDbStash::sync`: the reconciliation pass as a list of steps

`sync` reads `sync.state` into a working copy, fetches the remote state, and walks the remote
identities greatest first. The working copy and the decisions depend only on what was read
at the start, so the whole run is a list of `Step`s computed from the two states
(`syncPlan`), preceded by the `install` of `read_local_state` (`syncSteps`).

* `syncSdk` — the loop body for a remote identity that is not ignored: download it when the
  working copy does not hold its remote entry (evicting the handle when an older entry was
  held), then record it, bump the revision and save (`commitSdk`).
* `syncLoop` — the loop, which stops at the `unwrap` when the remote state lacks an identity
  it listed (`Step.panic`).
* `toDelete` / `deleteLoop` — the set of local identities the remote no longer lists, and
  the loop over it. As written, that loop calls `remove_sdk` and then `get_sdk` on the same
  key, so it never removes a file or evicts a handle (`deleteLoop_fst`).
* `syncSdk_of_getSdk_eq` / `syncSdk_of_getSdk_ne` and `syncLoop_cons_*` — the inversion
  lemmas every later proof goes through.
-/

set_option linter.unusedSectionVars false

namespace SymbolServer.Memdb

open SdkSyncState

variable {I : Type} [SdkInfo I]

/-- `sort_by(|a, b| b.cmp(a))`: greatest first. Rust's sort is a stable merge sort and this is
an insertion sort; under a linear order both give the one sorted permutation.
Source: `memdb/stash.rs` 341
Kind: D
Fidelity: exact -/
def sortDesc (l : List I) : List I :=
  l.insertionSort (fun a b => b ≤ a)

/-- The vector `sdks` of `sync`: the remote identities, greatest first.
Source: `memdb/stash.rs` 339–341
Kind: D
Fidelity: exact -/
def remoteSdks (remote : SdkSyncState I) : List I :=
  sortDesc (remote.sdkValues.map RemoteSdk.info)

/-- `if changed_something { ... }`: record the remote entry in the working copy, bump the
revision, and `save_local_state` it — the rename over `sync.state`, then the snapshot.
Source: `memdb/stash.rs` 361–366, 208–213
Kind: D
Fidelity: exact -/
def commitSdk (sdk : RemoteSdk I) (localState : SdkSyncState I) :
    List (Step I) × SdkSyncState I :=
  let s := (localState.updateSdk sdk).bumpRevision
  ([.save s, .install s], s)

/-- The body of `sync`'s loop for a remote identity `info` that is not ignored, whose remote
entry is `sdk`: a missing identity is downloaded; a differing one is downloaded and its
handle evicted; either is then committed. An equal one is left alone.
Source: `memdb/stash.rs` 345–366, 223–247
Kind: D
Fidelity: exact -/
def syncSdk (info : I) (sdk : RemoteSdk I) (localState : SdkSyncState I) :
    List (Step I) × SdkSyncState I :=
  match localState.getSdk info with
  | some localSdk =>
    if localSdk ≠ sdk then
      let c := commitSdk sdk localState
      ([.create sdk, .copy sdk, .evict info] ++ c.1, c.2)
    else ([], localState)
  | none =>
    let c := commitSdk sdk localState
    ([.create sdk, .copy sdk] ++ c.1, c.2)

/-- `sync`'s loop over the remote identities, threading the working copy; `none` when it
panics at the `unwrap` of `remote_state.get_sdk(sdk_info)`.
Source: `memdb/stash.rs` 343–376
Kind: D
Fidelity: exact -/
def syncLoop (patterns : IgnorePatterns) (remote : SdkSyncState I) :
    List I → SdkSyncState I → List (Step I) × Option (SdkSyncState I)
  | [], s => ([], some s)
  | info :: rest, s =>
    if sdkIsIgnored patterns info then syncLoop patterns remote rest s
    else
      match remote.getSdk info with
      | none => ([.panic], none)
      | some sdk =>
        let r := syncSdk info sdk s
        let out := syncLoop patterns remote rest r.2
        (r.1 ++ out.1, out.2)

/-- `to_delete` once the loop is over: the `HashSet` of the local identities, less every
remote identity, ignored or not (the loop's `to_delete.remove(sdk_info)`).
Source: `memdb/stash.rs` 337–338, 375
Kind: D
Fidelity: exact -/
def toDelete (localState : SdkSyncState I) (sdks : List I) : List I :=
  sdks.foldl List.erase (localState.sdkValues.map RemoteSdk.info).dedup

/-- `sync`'s loop over `to_delete`: `remove_sdk` on the working copy, and then — only when
`get_sdk` still finds the identity — the file removal and the eviction.
Source: `memdb/stash.rs` 378–384
Kind: D
Fidelity: exact -/
def deleteLoop : List I → SdkSyncState I → List (Step I) × SdkSyncState I
  | [], s => ([], s)
  | info :: rest, s =>
    let s' := s.removeSdk info
    let here : List (Step I) :=
      match s'.getSdk info with
      | some sdk => [.removeFile sdk, .evict sdk.info]
      | none => []
    let out := deleteLoop rest s'
    (here ++ out.1, out.2)

/-- The steps of `sync` after `read_local_state` and `fetch_remote_state` returned the local
state and the remote state: the loop, the deletions, and the last bump and save.
Source: `memdb/stash.rs` 336–398
Kind: D
Fidelity: exact -/
def syncPlan (patterns : IgnorePatterns) (localState remote : SdkSyncState I) : List (Step I) :=
  let loop := syncLoop patterns remote (remoteSdks remote) localState
  match loop.2 with
  | none => loop.1
  | some s =>
    let del := deleteLoop (toDelete localState (remoteSdks remote)) s
    let final := del.2.bumpRevision
    loop.1 ++ del.1 ++ [.save final, .install final]

/-- `sync` on the stash `w` against the bucket listing `upstream`: the `install` of
`read_local_state`, then `syncPlan`; nothing when `sync.state` cannot be read, and only the
`install` when the listing fails.
Source: `memdb/stash.rs` 331–398
Kind: D
Fidelity: exact -/
def syncSteps (w : MemDbStash I) (upstream : Except ErrorKind (List (RemoteSdk I))) :
    List (Step I) :=
  match MemDbStash.parseStateFile w.syncState with
  | .error _ => []
  | .ok localState =>
    .install localState ::
      match fetchRemoteState upstream with
      | .error _ => []
      | .ok remote => syncPlan w.ignorePatterns localState remote

/-- What `sync` returns when none of its steps fails: the error of `read_local_state` or of
`fetch_remote_state`, a panic, or `Ok`.
Source: `memdb/stash.rs` 331–398
Kind: D
Fidelity: exact -/
def syncOutcome (w : MemDbStash I) (upstream : Except ErrorKind (List (RemoteSdk I))) :
    Except ErrorKind Unit :=
  match MemDbStash.parseStateFile w.syncState, fetchRemoteState upstream with
  | .error e, _ => .error e
  | .ok _, .error e => .error e
  | .ok _, .ok _ => if Step.panic ∈ syncSteps w upstream then .error .panic else .ok ()

/-! ## Inversion lemmas for the loop body and the loops -/

/-- A commit saves the working copy, then installs it.
Source: `memdb/stash.rs` 361–366, 208–213
Kind: L -/
theorem commitSdk_fst (sdk : RemoteSdk I) (s : SdkSyncState I) :
    (commitSdk sdk s).1 = [.save (commitSdk sdk s).2, .install (commitSdk sdk s).2] := rfl

/-- A commit records the remote entry and bumps the revision.
Source: `memdb/stash.rs` 363–364
Kind: L -/
@[simp] theorem commitSdk_snd (sdk : RemoteSdk I) (s : SdkSyncState I) :
    (commitSdk sdk s).2 = (s.updateSdk sdk).bumpRevision := rfl

/-- The loop body leaves a working copy that already holds the remote entry alone.
Source: `memdb/stash.rs` 347–356
Kind: L -/
theorem syncSdk_of_getSdk_eq {info : I} {sdk : RemoteSdk I} {s : SdkSyncState I}
    (h : s.getSdk info = some sdk) : syncSdk info sdk s = ([], s) := by
  simp only [syncSdk, h, ne_eq, not_true_eq_false, if_false]

/-- The download steps of the loop body: the file's creation and copy, and the eviction when
an older entry was held.
Source: `memdb/stash.rs` 349–350, 358
Kind: D -/
def fetchSteps (s : SdkSyncState I) (info : I) (sdk : RemoteSdk I) : List (Step I) :=
  [.create sdk, .copy sdk] ++ if s.getSdk info = none then [] else [.evict info]

/-- Otherwise the loop body downloads and commits.
Source: `memdb/stash.rs` 347–366
Kind: L -/
theorem syncSdk_of_getSdk_ne {info : I} {sdk : RemoteSdk I} {s : SdkSyncState I}
    (h : s.getSdk info ≠ some sdk) :
    syncSdk info sdk s = (fetchSteps s info sdk ++ (commitSdk sdk s).1, (commitSdk sdk s).2) := by
  unfold syncSdk fetchSteps
  rcases hs : s.getSdk info with _ | l
  · simp
  · have hl : l ≠ sdk := fun e => h (hs.trans (congrArg some e))
    simp [hl]

/-- The loop over no identities takes no step and keeps the working copy.
Source: `memdb/stash.rs` 343
Kind: L -/
theorem syncLoop_nil (p : IgnorePatterns) (R s : SdkSyncState I) :
    syncLoop p R [] s = ([], some s) := rfl

/-- The loop skips an ignored identity.
Source: `memdb/stash.rs` 344, 367–373
Kind: L -/
theorem syncLoop_cons_ignored {p : IgnorePatterns} {R s : SdkSyncState I} {x : I} (rest : List I)
    (hx : sdkIsIgnored p x = true) : syncLoop p R (x :: rest) s = syncLoop p R rest s := by
  simp [syncLoop, hx]

/-- The loop runs the body on an identity that is not ignored, then goes on from the working
copy the body leaves.
Source: `memdb/stash.rs` 343–376
Kind: L -/
theorem syncLoop_cons {p : IgnorePatterns} {R s : SdkSyncState I} {x : I} (rest : List I)
    {sdk : RemoteSdk I} (hx : sdkIsIgnored p x = false) (hR : R.getSdk x = some sdk) :
    syncLoop p R (x :: rest) s =
      ((syncSdk x sdk s).1 ++ (syncLoop p R rest (syncSdk x sdk s).2).1,
        (syncLoop p R rest (syncSdk x sdk s).2).2) := by
  simp [syncLoop, hx, hR]

/-- The loop over `to_delete` removes each identity's key from the working copy.
Source: `memdb/stash.rs` 378–379
Kind: L -/
theorem lookup_deleteLoop (ds : List I) :
    ∀ (s : SdkSyncState I) (k : String),
      (deleteLoop ds s).2.sdks.lookup k =
        if ∃ d ∈ ds, memdbFilename d = k then none else s.sdks.lookup k := by
  induction ds with
  | nil => simp [deleteLoop]
  | cons d rest ih =>
    intro s k
    simp only [deleteLoop, ih, lookup_removeSdk, List.mem_cons, exists_eq_or_imp]
    by_cases h : k = memdbFilename d
    · subst h; simp
    · simp [h, Ne.symm h]

/-- The loop over `to_delete` leaves the revision as it was.
Source: `memdb/stash.rs` 378–384
Kind: L -/
@[simp] theorem deleteLoop_revision (ds : List I) :
    ∀ s : SdkSyncState I, (deleteLoop ds s).2.revision = s.revision := by
  induction ds with
  | nil => exact fun _ => rfl
  | cons d rest ih => exact fun s => (ih _).trans rfl

/-- **The deletion loop has no effect on the stash.** It asks `get_sdk` for an identity right
after `remove_sdk` dropped its key, so the file removal and the eviction never run.
Source: `memdb/stash.rs` 378–384
Kind: L -/
theorem deleteLoop_fst (ds : List I) : ∀ s : SdkSyncState I, (deleteLoop ds s).1 = [] := by
  induction ds with
  | nil => exact fun _ => rfl
  | cons d rest ih =>
    intro s
    simp [deleteLoop, ih]

/-- What `to_delete` holds after the loop: the local identities that are not remote ones.
Source: `memdb/stash.rs` 337–338, 375
Kind: L -/
theorem mem_toDelete {L : SdkSyncState I} {xs : List I} {d : I} :
    d ∈ toDelete L xs ↔ d ∈ L.sdkValues.map RemoteSdk.info ∧ d ∉ xs := by
  unfold toDelete
  suffices ∀ (acc : List I), acc.Nodup →
      (d ∈ xs.foldl List.erase acc ↔ d ∈ acc ∧ d ∉ xs) by
    rw [this _ (List.nodup_dedup _), List.mem_dedup]
  induction xs with
  | nil => simp
  | cons x rest ih =>
    intro acc hacc
    rw [List.foldl_cons, ih _ (hacc.erase x), hacc.mem_erase_iff]
    simp only [List.mem_cons, not_or]
    tauto

end SymbolServer.Memdb
