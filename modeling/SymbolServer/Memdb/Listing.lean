import SymbolServer.Memdb.GetMemdb

/-!
# `list_sdks`, `sdk_count` and `get_revision`

The stash's read-only queries: `list_sdks` and `sdk_count` answer from the snapshot, loading it
from `sync.state` when there is none; `get_revision` reads `sync.state` itself, and, through
`read_local_state`, installs what it read as the snapshot.

* `MemDbStash.listSdks`, `MemDbStash.sdkCount`, `MemDbStash.getRevision` — the three queries.
* `isSome_getSdk_syncFinal` — which identities the state a complete run saves holds: those of the
  listing that are not ignored, and the ignored ones already held.
* **`list_sdks_after_sync`** — after a run that ends, `list_sdks` lists these identities in
  increasing order, each once, and `sdk_count` counts them.
-/

set_option linter.unusedSectionVars false

namespace SymbolServer.Memdb

open SdkSyncState

variable {I : Type} [SdkInfo I]

namespace MemDbStash

/-- `MemDbStash::list_sdks`: the identities of the snapshot's entries, sorted.
Source: `memdb/stash.rs` 273–281
Kind: D
Fidelity: exact; `rv.sort()` sorts by `SdkInfo`'s order, and a sorted permutation under a
linear order is unique, so insertion sort computes the same list -/
def listSdks (w : MemDbStash I) : Except ErrorKind (List I) × MemDbStash I :=
  match w.getLocalState with
  | (.ok s, w') => (.ok ((s.sdkValues.map RemoteSdk.info).insertionSort (· ≤ ·)), w')
  | (.error e, w') => (.error e, w')

/-- `MemDbStash::sdk_count`: the number of the snapshot's entries.
Source: `memdb/stash.rs` 268–271
Kind: D
Fidelity: exact; `usize` as `ℕ` -/
def sdkCount (w : MemDbStash I) : Except ErrorKind ℕ × MemDbStash I :=
  match w.getLocalState with
  | (.ok s, w') => (.ok s.sdkCount, w')
  | (.error e, w') => (.error e, w')

/-- `MemDbStash::get_revision`: `read_local_state`, which installs the state it read as the
snapshot, then its revision, `0` when it has none.
Source: `memdb/stash.rs` 263–266
Kind: D
Fidelity: exact -/
def getRevision (w : MemDbStash I) : Except ErrorKind UInt64 × MemDbStash I :=
  match w.readLocalState with
  | (.ok s, w') => (.ok (s.revision.getD 0), w')
  | (.error e, w') => (.error e, w')

/-- With a snapshot in place, `get_local_state` returns it and changes nothing.
Source: `memdb/stash.rs` 200–203
Kind: L -/
theorem getLocalState_of_localState {w : MemDbStash I} {s : SdkSyncState I}
    (h : w.localState = some s) : w.getLocalState = (.ok s, w) := by
  simp [getLocalState, h]

/-- `get_revision` reports the revision `sync.state` holds, and installs that state as the
snapshot.
Source: `memdb/stash.rs` 183–198, 263–266
Kind: L -/
theorem getRevision_of_parseStateFile {w : MemDbStash I} {s : SdkSyncState I}
    (h : parseStateFile w.syncState = .ok s) :
    w.getRevision = (.ok (storedRevision w), { w with localState := some s }) := by
  simp [getRevision, readLocalState, storedRevision, h]

end MemDbStash

/-! ## Which identities a complete run keeps -/

/-- A listed identity is held by the listing's remote state.
Source: `memdb/stash.rs` 216–219
Kind: L -/
theorem isSome_lookup_insertListed :
    ∀ (listing : List (RemoteSdk I)) (m : AList (fun _ : String => RemoteSdk I)) {k : String},
      ((m.lookup k).isSome ∨ ∃ r ∈ listing, memdbFilename r.info = k) →
        ((insertListed m listing).lookup k).isSome
  | [], _, _, h => h.resolve_right fun ⟨_, hr, _⟩ => by cases hr
  | sdk :: rest, m, k, h => by
    refine isSome_lookup_insertListed rest _ ?_
    by_cases hk : k = memdbFilename sdk.info
    · subst hk; simp
    rw [AList.lookup_insert_ne hk]
    rcases h with h | ⟨r, hr, rfl⟩
    · exact .inl h
    · rcases List.mem_cons.mp hr with rfl | hr
      · exact absurd rfl hk
      · exact .inr ⟨r, hr, rfl⟩

/-- The identities of a listing's remote state are those of the listing, when file names are
distinct.
Source: `memdb/stash.rs` 215–221, 339–341
Kind: L -/
theorem mem_remoteSdks_remoteStateOf (hinj : Function.Injective (memdbFilename : I → String))
    {listing : List (RemoteSdk I)} {x : I} :
    x ∈ remoteSdks (remoteStateOf listing) ↔ ∃ r ∈ listing, r.info = x := by
  have hR := wellKeyed_remoteStateOf listing
  rw [mem_remoteSdks hR]
  constructor
  · rintro ⟨e, he, rfl⟩
    exact ⟨e, mem_listing_of_mem_remoteStateOf (mem_sdkValues.mpr ⟨_, he⟩), rfl⟩
  · rintro ⟨r, hr, rfl⟩
    obtain ⟨e, he⟩ := Option.isSome_iff_exists.mp
      (isSome_lookup_insertListed listing ∅ (.inr ⟨r, hr, rfl⟩))
    exact ⟨e, he, hinj (hR.key_eq he)⟩

/-- In a well-keyed state over distinct file names, the identities of the entries are those
`get_sdk` finds.
Source: `memdb/stash.rs` 96–111
Kind: L -/
theorem mem_infos_iff {s : SdkSyncState I} (hs : s.WellKeyed)
    (hinj : Function.Injective (memdbFilename : I → String)) {x : I} :
    x ∈ s.sdkValues.map RemoteSdk.info ↔ (s.getSdk x).isSome := by
  constructor
  · intro h
    obtain ⟨e, he, rfl⟩ := List.mem_map.mp h
    rw [hs.getSdk_info he]; rfl
  · intro h
    obtain ⟨e, he⟩ := Option.isSome_iff_exists.mp h
    exact List.mem_map.mpr ⟨e, mem_sdkValues.mpr ⟨_, he⟩, hinj (hs.key_eq he)⟩

/-- **The identities a complete run keeps**: those of the remote state, except ignored ones that
the local state does not hold.
Source: `memdb/stash.rs` 343–395
Kind: L -/
theorem isSome_getSdk_syncFinal {p : IgnorePatterns} {L R : SdkSyncState I} (hL : L.WellKeyed)
    (hR : R.WellKeyed) (hinj : Function.Injective (memdbFilename : I → String)) (x : I) :
    ((syncFinal p L R).getSdk x).isSome ↔
      x ∈ remoteSdks R ∧ (sdkIsIgnored p x = false ∨ (L.getSdk x).isSome) := by
  rw [getSdk_eq, lookup_syncFinal hL hR hinj, reconciled, mem_remoteSdks hR]
  rcases hr : R.sdks.lookup (memdbFilename x) with _ | r
  · simp [getSdk_eq, hr]
  · obtain rfl : r.info = x := hinj (hR.key_eq hr)
    by_cases hi : sdkIsIgnored p r.info <;> simp [getSdk_eq, hr, hi]

/-- **`list_sdks` after a complete `sync`.** From a readable, well-keyed `sync.state` and
distinct file names, after a run against any listing that takes all its steps, `list_sdks`
returns, in increasing order and each once, the identities of the listing that are not ignored
and the ignored ones the old state held; `sdk_count` returns how many they are.
Source: `memdb/stash.rs` 263–281, 331–398
Kind: P -/
theorem list_sdks_after_sync {w : MemDbStash I} {L : SdkSyncState I}
    (hL : MemDbStash.parseStateFile w.syncState = .ok L) (hkeys : L.WellKeyed)
    (hinj : Function.Injective (memdbFilename : I → String)) (listing : List (RemoteSdk I)) :
    let w' := runSteps (syncSteps w (.ok listing)) w
    ∃ l, w'.listSdks.1 = .ok l ∧ w'.sdkCount.1 = .ok l.length ∧ l.Sorted (· < ·) ∧
      ∀ x, x ∈ l ↔ (∃ r ∈ listing, r.info = x) ∧
        (sdkIsIgnored w.ignorePatterns x = false ∨ (L.getSdk x).isSome) := by
  intro w'
  have hR := wellKeyed_remoteStateOf listing
  set F := syncFinal w.ignorePatterns L (remoteStateOf listing)
  have hF : F.WellKeyed := wellKeyed_syncFinal hkeys hR
  -- the run ends by installing the state it saved last
  have hsnap : w'.localState = some F := by
    simp only [w', syncSteps_eq hL, List.cons_append]
    rw [← List.cons_append]
    exact (runSteps_save_install _ F w).2
  have hperm := List.perm_insertionSort (· ≤ ·) (F.sdkValues.map RemoteSdk.info)
  refine ⟨(F.sdkValues.map RemoteSdk.info).insertionSort (· ≤ ·), ?_, ?_, ?_, fun x => ?_⟩
  · simp only [MemDbStash.listSdks, MemDbStash.getLocalState_of_localState hsnap]
  · simp only [MemDbStash.sdkCount, MemDbStash.getLocalState_of_localState hsnap, hperm.length_eq]
    simp [sdkCount, sdkValues]
  · exact (List.sorted_insertionSort _ _).lt_of_le (hperm.nodup_iff.mpr hF.nodup_infos)
  · rw [hperm.mem_iff, mem_infos_iff hF hinj, isSome_getSdk_syncFinal hkeys hR hinj,
      mem_remoteSdks_remoteStateOf hinj]

/-- After the sample stash syncs against a listing where `1` changed and `2` is new,
`list_sdks` returns `[1, 2]`.
Source: `memdb/stash.rs` 263–281, 331–398
Kind: N+ -/
theorem list_sdks_after_sync_sample :
    (runSteps (syncSteps sampleStash (.ok [sampleSdk 1 "b", sampleSdk 2 "c"]))
      sampleStash).listSdks.1 = .ok [1, 2] ∧
    ∃ l, (runSteps (syncSteps sampleStash (.ok [sampleSdk 1 "b", sampleSdk 2 "c"]))
      sampleStash).listSdks.1 = .ok l ∧ l.Sorted (· < ·) :=
  ⟨by decide,
    let ⟨l, hl, _, hs, _⟩ := list_sdks_after_sync (w := sampleStash) rfl (by decide)
      memdbFilename_nat_injective [sampleSdk 1 "b", sampleSdk 2 "c"]
    ⟨l, hl, hs⟩⟩

end SymbolServer.Memdb
