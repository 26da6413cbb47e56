import SymbolServer.Memdb.Sync

/-!
# The downloads of a `sync` run

Over a well-keyed remote state the loop of `sync` never panics, and each remote identity's
key is visited once, so the decision the loop takes for an identity against the working copy
is the one it would take against the local state read at the start. The loop is then the
run of `downloadAll` over the identities that need it (`syncLoop_eq_downloadAll`):

* `needsSync p L R x` — `x` is not ignored and `L` does not hold its remote entry;
  `downloads p L R` lists these identities, greatest first.
* `downloadAll` — for each of them, the download (`fetchSteps`) and the commit.
* `syncPlan_eq` — a run's steps: the downloads, then one last save and install of
  `syncFinal`, the deletion loop contributing nothing (`deleteLoop_fst`).
* `downloadAll_saves` / `_creates` / `_evict` / `_fileName` — what those steps save,
  download, evict and write.
-/

set_option linter.unusedSectionVars false

namespace SymbolServer.Memdb

open SdkSyncState

variable {I : Type} [SdkInfo I]

/-! ## Revision arithmetic in `u64` -/

/-- Adding `0` leaves a `u64` as it is.
Source: none: infrastructure
Kind: L -/
theorem UInt64.add_ofNat_zero (r : UInt64) : r + UInt64.ofNat 0 = r := by
  apply UInt64.eq_of_toBitVec_eq
  simp [UInt64.add_def, UInt64.ofNat]

/-- Two additions of naturals to a `u64` add up, in wrapping arithmetic.
Source: none: infrastructure
Kind: L -/
theorem UInt64.add_ofNat_add (r : UInt64) (a b : ℕ) :
    r + UInt64.ofNat a + UInt64.ofNat b = r + UInt64.ofNat (a + b) := by
  apply UInt64.eq_of_toBitVec_eq
  simp only [UInt64.add_def, UInt64.ofNat]
  rw [BitVec.add_assoc]
  congr 1
  apply BitVec.eq_of_toNat_eq
  simp [BitVec.toNat_add]

/-- One bump and then `j` more are `j + 1` bumps.
Source: `memdb/stash.rs` 364, 394
Kind: L -/
theorem UInt64.add_one_add_ofNat (r : UInt64) (j : ℕ) :
    r + 1 + UInt64.ofNat j = r + UInt64.ofNat (j + 1) := by
  rw [show (1 : UInt64) = UInt64.ofNat 1 from rfl, UInt64.add_ofNat_add, Nat.add_comm]

/-! ## Identities of the remote state -/

/-- `xs` lists identities of the remote state `R` — each is the info of the entry `get_sdk`
finds for it — under distinct file names.
Source: none: infrastructure
Kind: D -/
structure RemoteIds (R : SdkSyncState I) (xs : List I) : Prop where
  found : ∀ x ∈ xs, ∃ e, R.getSdk x = some e ∧ e.info = x
  nodup : (xs.map memdbFilename).Nodup

/-- The identities after the first still list identities of the remote state.
Source: none: infrastructure
Kind: L -/
theorem RemoteIds.tail {R : SdkSyncState I} {x : I} {xs : List I} (h : RemoteIds R (x :: xs)) :
    RemoteIds R xs :=
  ⟨fun y hy => h.found y (List.mem_cons_of_mem _ hy), (List.nodup_cons.mp h.nodup).2⟩

/-- `get_sdk` finds every identity listed: the `unwrap` at line 346 never fails on them.
Source: `memdb/stash.rs` 346
Kind: L -/
theorem RemoteIds.isSome {R : SdkSyncState I} {xs : List I} (h : RemoteIds R xs) :
    ∀ x ∈ xs, (R.getSdk x).isSome := fun x hx => by
  obtain ⟨e, he, -⟩ := h.found x hx; simp [he]

/-- The identities of a well-keyed state are found by `get_sdk`.
Source: none: infrastructure
Kind: L -/
theorem mem_remoteSdks {R : SdkSyncState I} (hR : R.WellKeyed) {x : I} :
    x ∈ remoteSdks R ↔ ∃ e, R.getSdk x = some e ∧ e.info = x := by
  rw [remoteSdks, sortDesc, (List.perm_insertionSort _ _).mem_iff, List.mem_map]
  constructor
  · rintro ⟨e, he, rfl⟩
    exact ⟨e, hR.getSdk_info he, rfl⟩
  · rintro ⟨e, he, rfl⟩
    exact ⟨e, mem_sdkValues.mpr ⟨_, he⟩, rfl⟩

/-- The `sdks` vector of `sync` over a well-keyed remote state lists its identities under
distinct file names.
Source: `memdb/stash.rs` 339–341
Kind: L -/
theorem remoteIds_remoteSdks {R : SdkSyncState I} (hR : R.WellKeyed) :
    RemoteIds R (remoteSdks R) := by
  refine ⟨fun x hx => (mem_remoteSdks hR).mp hx, ?_⟩
  rw [remoteSdks, sortDesc, ((List.perm_insertionSort _ _).map _).nodup_iff, hR.filenames_eq_keys]
  exact R.sdks.keys_nodup

/-! ## The downloads and the loop -/

/-- A remote identity `sync` downloads: not ignored, and the local state does not hold its
remote entry (it is missing, or holds a different one).
Source: `memdb/stash.rs` 344–360
Kind: D -/
def needsSync (p : IgnorePatterns) (L R : SdkSyncState I) (x : I) : Bool :=
  !sdkIsIgnored p x && L.getSdk x != R.getSdk x

/-- The identities a run of `sync` downloads, greatest first.
Source: `memdb/stash.rs` 339–360
Kind: D -/
def downloads (p : IgnorePatterns) (L R : SdkSyncState I) : List I :=
  (remoteSdks R).filter (needsSync p L R)

/-- The loop of `sync` restricted to the identities it downloads: each one is fetched and
committed.
Source: `memdb/stash.rs` 343–376
Kind: D -/
def downloadAll (R : SdkSyncState I) : List I → SdkSyncState I → List (Step I) × SdkSyncState I
  | [], s => ([], s)
  | x :: rest, s =>
    match R.getSdk x with
    | none => ([], s)
    | some e =>
      let out := downloadAll R rest (commitSdk e s).2
      (fetchSteps s x e ++ (commitSdk e s).1 ++ out.1, out.2)

/-- The downloads of `x` and then `rest`: fetch and commit `x`, then go on from the working copy
the commit leaves.
Source: `memdb/stash.rs` 343–366
Kind: L -/
theorem downloadAll_cons {R : SdkSyncState I} {x : I} {e : RemoteSdk I} (rest : List I)
    (s : SdkSyncState I) (he : R.getSdk x = some e) :
    downloadAll R (x :: rest) s =
      (fetchSteps s x e ++ (commitSdk e s).1 ++ (downloadAll R rest (commitSdk e s).2).1,
        (downloadAll R rest (commitSdk e s).2).2) := by
  simp [downloadAll, he]

/-- Committing an identity leaves the working copy's entries for other file names alone.
Source: `memdb/stash.rs` 363
Kind: L -/
theorem getSdk_commitSdk_of_ne {e : RemoteSdk I} {s : SdkSyncState I} {y : I}
    (h : memdbFilename y ≠ memdbFilename e.info) : (commitSdk e s).2.getSdk y = s.getSdk y := by
  simp [h]

/-- **The loop is the run of its downloads.** Over identities of the remote state with
distinct file names the loop does not panic, and it downloads and commits exactly the
identities `needsSync` selects against the state it starts from.
Source: `memdb/stash.rs` 343–376
Kind: L -/
theorem syncLoop_eq_downloadAll {p : IgnorePatterns} {R : SdkSyncState I} :
    ∀ {xs : List I} (L : SdkSyncState I), RemoteIds R xs →
      syncLoop p R xs L =
        ((downloadAll R (xs.filter (needsSync p L R)) L).1,
          some (downloadAll R (xs.filter (needsSync p L R)) L).2)
  | [], _, _ => rfl
  | x :: rest, L, hx => by
    obtain ⟨e, he, hex⟩ := hx.found x (List.mem_cons_self _ _)
    by_cases hi : sdkIsIgnored p x
    · -- an ignored identity is skipped
      rw [syncLoop_cons_ignored rest hi, syncLoop_eq_downloadAll L hx.tail,
        List.filter_cons_of_neg (by simp [needsSync, hi])]
    · rw [Bool.not_eq_true] at hi
      rw [syncLoop_cons rest hi he]
      by_cases hL : L.getSdk x = some e
      · -- the local state already holds the remote entry
        rw [syncSdk_of_getSdk_eq hL, syncLoop_eq_downloadAll L hx.tail,
          List.filter_cons_of_neg (by simp [needsSync, hL, he])]
        rfl
      · -- a download: the rest of the loop sees the committed copy, unchanged at its keys
        have hrest : rest.filter (needsSync p (commitSdk e L).2 R) = rest.filter (needsSync p L R) := by
          refine List.filter_congr fun y hy => ?_
          have hne : memdbFilename y ≠ memdbFilename e.info := by
            rw [hex]
            intro hyx
            exact (List.nodup_cons.mp hx.nodup).1 (hyx ▸ List.mem_map_of_mem _ hy)
          simp only [needsSync, getSdk_commitSdk_of_ne hne]
        rw [syncSdk_of_getSdk_ne hL, syncLoop_eq_downloadAll _ hx.tail, hrest,
          List.filter_cons_of_pos (by simp [needsSync, hi, hL, he]), downloadAll_cons _ _ he]

/-! ## What the downloads save, download, evict and write -/

section downloadAll

variable {R : SdkSyncState I}

/-- The steps of one download.
Source: `memdb/stash.rs` 343–366
Kind: L -/
theorem mem_fetchSteps_commitSdk {s : SdkSyncState I} {x : I} {e : RemoteSdk I} {st : Step I}
    (h : st ∈ fetchSteps s x e ++ (commitSdk e s).1) :
    st = .create e ∨ st = .copy e ∨ st = .evict x ∨ st = .save (commitSdk e s).2 ∨
      st = .install (commitSdk e s).2 := by
  simp only [fetchSteps, commitSdk_fst, List.mem_append, List.mem_cons, List.mem_ite_nil_left,
    List.not_mem_nil, or_false] at h
  rcases h with ((rfl | rfl) | ⟨-, rfl⟩) | rfl | rfl <;> simp

/-- **What a download step can be**: the `create` or the `copy` of the remote entry of a
downloaded identity, its eviction, or a save or a snapshot.
Source: `memdb/stash.rs` 343–366
Kind: L -/
theorem mem_downloadAll :
    ∀ (ds : List I) (s : SdkSyncState I) {st : Step I}, st ∈ (downloadAll R ds s).1 →
      ∃ x ∈ ds, ∃ e, R.getSdk x = some e ∧
        (st = .create e ∨ st = .copy e ∨ st = .evict x ∨ ∃ s', st = .save s' ∨ st = .install s')
  | [], _, _, h => by cases h
  | x :: rest, s, st, h => by
    rcases he : R.getSdk x with _ | e
    · simp [downloadAll, he] at h
    rw [downloadAll_cons rest s he, List.mem_append] at h
    rcases h with h | h
    · refine ⟨x, List.mem_cons_self _ _, e, he, ?_⟩
      rcases mem_fetchSteps_commitSdk h with rfl | rfl | rfl | rfl | rfl <;> simp
    · obtain ⟨y, hy, e', he', h'⟩ := mem_downloadAll rest _ h
      exact ⟨y, List.mem_cons_of_mem _ hy, e', he', h'⟩

/-- The working copy after the downloads: the entries inserted in order, and the revision
bumped once for each.
Source: `memdb/stash.rs` 363–364
Kind: L -/
theorem downloadAll_snd :
    ∀ (ds : List I) (s : SdkSyncState I), (∀ x ∈ ds, (R.getSdk x).isSome) →
      (downloadAll R ds s).2 =
        ⟨insertListed s.sdks (ds.filterMap R.getSdk),
          if ds = [] then s.revision else some (s.revision.getD 0 + UInt64.ofNat ds.length)⟩
  | [], s, _ => rfl
  | x :: rest, s, hf => by
    obtain ⟨e, he⟩ := Option.isSome_iff_exists.mp (hf x (List.mem_cons_self _ _))
    rw [downloadAll_cons rest s he,
      downloadAll_snd rest _ fun y hy => hf y (List.mem_cons_of_mem _ hy)]
    simp only [List.filterMap_cons_some he]
    by_cases hr : rest = []
    · subst hr; simp [insertListed, UInt64.add_ofNat_zero, commitSdk, updateSdk_sdks]
    · simp [hr, insertListed, commitSdk, updateSdk_sdks, UInt64.add_one_add_ofNat]

/-- **The states the downloads save**: after the `j`-th download, the start state overwritten
with the entries of the first `j` downloads, at revision `r₀ + j`.
Source: `memdb/stash.rs` 361–366
Kind: L -/
theorem downloadAll_saves :
    ∀ (ds : List I) (s : SdkSyncState I), (∀ x ∈ ds, (R.getSdk x).isSome) →
      (downloadAll R ds s).1.filterMap Step.savedState =
        (List.range ds.length).map fun j =>
          ⟨insertListed s.sdks ((ds.take (j + 1)).filterMap R.getSdk),
            some (s.revision.getD 0 + UInt64.ofNat (j + 1))⟩
  | [], _, _ => rfl
  | x :: rest, s, hf => by
    obtain ⟨e, he⟩ := Option.isSome_iff_exists.mp (hf x (List.mem_cons_self _ _))
    rw [downloadAll_cons rest s he]
    dsimp only
    rw [List.filterMap_append, downloadAll_saves rest _ fun y hy => hf y (List.mem_cons_of_mem _ hy),
      List.length_cons, List.range_succ_eq_map]
    simp [fetchSteps, commitSdk, Step.savedState, List.filterMap_cons_some he, insertListed,
      UInt64.add_one_add_ofNat, updateSdk_sdks, bumpRevision, updateSdk]
    split <;> simp [Step.savedState]

/-- The entries the downloads fetch, in order.
Source: `memdb/stash.rs` 349, 358
Kind: L -/
theorem downloadAll_creates :
    ∀ (ds : List I) (s : SdkSyncState I), (∀ x ∈ ds, (R.getSdk x).isSome) →
      (downloadAll R ds s).1.filterMap Step.createdSdk = ds.filterMap R.getSdk
  | [], _, _ => rfl
  | x :: rest, s, hf => by
    obtain ⟨e, he⟩ := Option.isSome_iff_exists.mp (hf x (List.mem_cons_self _ _))
    rw [downloadAll_cons rest s he]
    dsimp only
    rw [List.filterMap_append, downloadAll_creates rest _ fun y hy => hf y (List.mem_cons_of_mem _ hy)]
    simp [fetchSteps, commitSdk, Step.createdSdk, List.filterMap_cons_some he]

/-- The downloads evict only downloaded identities.
Source: `memdb/stash.rs` 350
Kind: L -/
theorem downloadAll_evict (ds : List I) (s : SdkSyncState I) (y : I)
    (h : Step.evict y ∈ (downloadAll R ds s).1) : y ∈ ds := by
  obtain ⟨x, hx, e, -, h⟩ := mem_downloadAll ds s h
  rcases h with h | h | h | ⟨s', h | h⟩ <;> cases h
  exact hx

/-- The downloads write only the files of downloaded identities.
Source: `memdb/stash.rs` 237
Kind: L -/
theorem downloadAll_fileName (ds : List I) (s : SdkSyncState I)
    (hf : ∀ x ∈ ds, ∃ e, R.getSdk x = some e ∧ e.info = x) :
    ∀ st ∈ (downloadAll R ds s).1, ∀ n, st.fileName = some n → ∃ x ∈ ds, memdbFilename x = n := by
  intro st hst n hn
  obtain ⟨x, hx, e, he, h⟩ := mem_downloadAll ds s hst
  obtain ⟨e', he', hex⟩ := hf x hx
  rw [he] at he'; cases he'
  rcases h with rfl | rfl | rfl | ⟨s', rfl | rfl⟩ <;> simp only [Step.fileName] at hn <;> cases hn
  all_goals exact ⟨x, hx, by rw [hex]⟩

/-- **The downloads keep the key invariant**: from a well-keyed working copy, every state they
save or install, and the copy they leave, are well keyed.
Source: `memdb/stash.rs` 361–366
Kind: L -/
theorem wellKeyed_downloadAll :
    ∀ (ds : List I) {s : SdkSyncState I}, s.WellKeyed →
      (downloadAll R ds s).2.WellKeyed ∧
        ∀ st ∈ (downloadAll R ds s).1, ∀ s', (st = .save s' ∨ st = .install s') → s'.WellKeyed
  | [], _, hs => ⟨hs, fun _ h => by cases h⟩
  | x :: rest, s, hs => by
    rcases he : R.getSdk x with _ | e
    · simp only [downloadAll, he]
      exact ⟨hs, fun _ h => by cases h⟩
    have hc : (commitSdk e s).2.WellKeyed := hs.updateSdk e
    obtain ⟨hfin, hrest⟩ := wellKeyed_downloadAll rest hc
    rw [downloadAll_cons rest s he]
    refine ⟨hfin, fun st hst s' hs' => ?_⟩
    rcases List.mem_append.mp hst with hst | hst
    · rcases mem_fetchSteps_commitSdk hst with rfl | rfl | rfl | rfl | rfl <;>
        rcases hs' with h | h <;> cases h <;> exact hc
    · exact hrest st hst s' hs'

/-- The downloads never panic.
Source: `memdb/stash.rs` 346
Kind: L -/
theorem panic_not_mem_downloadAll (ds : List I) (s : SdkSyncState I) :
    Step.panic ∉ (downloadAll R ds s).1 := fun h => by
  obtain ⟨x, -, e, -, h⟩ := mem_downloadAll ds s h
  rcases h with h | h | h | ⟨s', h | h⟩ <;> cases h

end downloadAll

/-! ## A run's steps -/

/-- The working copy `sync` saves last: the downloads committed, the `to_delete` keys removed,
the revision bumped once more.
Source: `memdb/stash.rs` 378–395
Kind: D -/
def syncFinal (p : IgnorePatterns) (L R : SdkSyncState I) : SdkSyncState I :=
  (deleteLoop (toDelete L (remoteSdks R)) (downloadAll R (downloads p L R) L).2).2.bumpRevision

/-- **The steps of `sync`** against a well-keyed remote state: the downloads, then the last
save and install of `syncFinal`.
Source: `memdb/stash.rs` 336–398
Kind: L -/
theorem syncPlan_eq {p : IgnorePatterns} {L R : SdkSyncState I} (hR : R.WellKeyed) :
    syncPlan p L R =
      (downloadAll R (downloads p L R) L).1 ++ [.save (syncFinal p L R), .install (syncFinal p L R)] := by
  simp [syncPlan, syncLoop_eq_downloadAll L (remoteIds_remoteSdks hR), deleteLoop_fst, syncFinal,
    downloads]

/-- The downloads are identities of the remote state with distinct file names.
Source: none: infrastructure
Kind: L -/
theorem remoteIds_downloads {p : IgnorePatterns} {L R : SdkSyncState I} (hR : R.WellKeyed) :
    RemoteIds R (downloads p L R) :=
  ⟨fun x hx => (remoteIds_remoteSdks hR).found x (List.mem_of_mem_filter hx),
    ((List.filter_sublist _).map _).nodup (remoteIds_remoteSdks hR).nodup⟩

/-- Steps of a successful run from a readable `sync.state`: the `install` of the local state,
then the plan against the fetched remote state.
Source: `memdb/stash.rs` 331–334
Kind: L -/
theorem syncSteps_ok {w : MemDbStash I} {L : SdkSyncState I} {listing : List (RemoteSdk I)}
    (hL : MemDbStash.parseStateFile w.syncState = .ok L) :
    syncSteps w (.ok listing) = .install L :: syncPlan w.ignorePatterns L (remoteStateOf listing) := by
  simp [syncSteps, hL]

/-- Steps of a run from a readable `sync.state` whose listing fails: the `install` of the local
state alone.
Source: `memdb/stash.rs` 333–334
Kind: L -/
theorem syncSteps_fetch_error {w : MemDbStash I} {L : SdkSyncState I}
    (hL : MemDbStash.parseStateFile w.syncState = .ok L) (err : ErrorKind) :
    syncSteps w (.error err) = [.install L] := by
  simp [syncSteps, hL, fetchRemoteState, Except.map]

end SymbolServer.Memdb
