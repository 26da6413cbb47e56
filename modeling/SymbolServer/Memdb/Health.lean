import SymbolServer.Memdb.Reconcile

/-!
# The health check against the reconciliation

`get_sync_status` and `sync` walk the same remote state with loops of their own; they classify
each remote entry the same way.

* **`sync_status_agrees_with_downloads`** — the counts `get_sync_status` reports are those of
  the entries that are not ignored, missing, and different; the identities a successful `sync`
  downloads are exactly the missing and differing ones, each once, so `lag()` is the number of
  downloads; and `sync` writes no file and evicts no handle of an identity that is ignored or
  whose local entry equals its remote entry.
* `status_after_sync` — after a successful `sync`, the same listing gives a status with no lag,
  healthy exactly when the count of remote identities that are not ignored is not zero
  modulo `2³²`.
* **`sync_then_empty_bucket_unhealthy`** — so at an empty bucket a completed `sync` is followed
  by an unhealthy status: `0 / 0` is `NaN` in `f32`, and `NaN < 0.10` is false.
-/

set_option linter.unusedSectionVars false

namespace SymbolServer.Memdb

open SdkSyncState

variable {I : Type} [SdkInfo I]

/-- Two counts cast to `u32` add up to their sum cast, in wrapping arithmetic.
Source: `memdb/stash.rs` 127, 319–321
Kind: L -/
theorem UInt32.ofNat_add_ofNat (a b : ℕ) : UInt32.ofNat a + UInt32.ofNat b = UInt32.ofNat (a + b) := by
  apply UInt32.eq_of_toBitVec_eq
  apply BitVec.eq_of_toNat_eq
  simp [UInt32.add_def, UInt32.ofNat, BitVec.toNat_add, Nat.add_mod]

/-- On a remote entry, `sync`'s download test is the health check's "missing or different".
Source: `memdb/stash.rs` 295–304, 344–360
Kind: L -/
theorem needsSync_info {p : IgnorePatterns} {L R : SdkSyncState I} (hR : R.WellKeyed)
    {e : RemoteSdk I} (he : e ∈ R.sdkValues) :
    needsSync p L R e.info = (isMissing p L e || isDifferent p L e) := by
  rw [needsSync, isMissing, isDifferent, hR.getSdk_info he]
  cases hi : sdkIsIgnored p e.info
  · rcases L.getSdk e.info with _ | l
    · rfl
    · by_cases hl : l = e <;> simp [hl, bne]
  · rfl

/-- Missing and different never hold together.
Source: `memdb/stash.rs` 298–304
Kind: L -/
theorem countP_isMissing_or_isDifferent (p : IgnorePatterns) (L : SdkSyncState I) :
    ∀ l : List (RemoteSdk I), l.countP (fun e => isMissing p L e || isDifferent p L e) =
      l.countP (isMissing p L) + l.countP (isDifferent p L)
  | [] => rfl
  | e :: rest => by
    have ih := countP_isMissing_or_isDifferent p L rest
    simp only [List.countP_cons, ih]
    rcases hl : L.getSdk e.info with _ | l <;> cases hi : sdkIsIgnored p e.info <;>
      simp [isMissing, isDifferent, hl, hi] <;> omega

/-- Fetching the downloads' entries and reading back their infos gives the downloads.
Source: none: infrastructure
Kind: L -/
theorem map_info_filterMap_getSdk {R : SdkSyncState I} :
    ∀ {ds : List I}, (∀ x ∈ ds, ∃ e, R.getSdk x = some e ∧ e.info = x) →
      (ds.filterMap R.getSdk).map RemoteSdk.info = ds
  | [], _ => rfl
  | x :: rest, hf => by
    obtain ⟨e, he, hex⟩ := hf x (List.mem_cons_self _ _)
    rw [List.filterMap_cons_some he, List.map_cons, hex,
      map_info_filterMap_getSdk fun y hy => hf y (List.mem_cons_of_mem _ hy)]

/-- The number of downloads is the number of missing and differing remote entries.
Source: `memdb/stash.rs` 294–306, 343–360
Kind: L -/
theorem length_downloads {p : IgnorePatterns} {L R : SdkSyncState I} (hR : R.WellKeyed) :
    (downloads p L R).length = R.sdkValues.countP (isMissing p L) + R.sdkValues.countP (isDifferent p L) := by
  rw [downloads, ← List.countP_eq_length_filter, remoteSdks, sortDesc,
    (List.perm_insertionSort _ _).countP_eq, List.countP_map,
    ← countP_isMissing_or_isDifferent]
  exact List.countP_congr fun e he => by simp [needsSync_info hR he]

/-- The downloads are the remote identities that are missing or different.
Source: `memdb/stash.rs` 295–304, 343–360
Kind: L -/
theorem mem_downloads_iff {p : IgnorePatterns} {L R : SdkSyncState I} (hR : R.WellKeyed) (x : I) :
    x ∈ downloads p L R ↔ ∃ e ∈ R.sdkValues, e.info = x ∧ (isMissing p L e || isDifferent p L e) := by
  constructor
  · intro hx
    obtain ⟨e, he, rfl⟩ := (remoteIds_downloads hR).found x hx
    have hev : e ∈ R.sdkValues := mem_sdkValues.mpr ⟨_, he⟩
    exact ⟨e, hev, rfl, (needsSync_info hR hev).symm.trans (List.mem_filter.mp hx).2⟩
  · rintro ⟨e, he, rfl, hme⟩
    exact List.mem_filter.mpr ⟨(mem_remoteSdks hR).mpr ⟨e, hR.getSdk_info he, rfl⟩,
      (needsSync_info hR he).trans hme⟩

/-- **The health check and `sync` classify alike.** From a readable `sync.state` and any
listing, `get_sync_status` reports as remote total, missing and different the counts of the
remote entries that are not ignored, absent locally, and differing locally, with the local
revision; the entries a successful `sync` downloads are, in order, those of `downloads`, each
once, and these are exactly the missing and differing identities, so `lag()` is their number;
and `sync` writes no file and evicts no handle of an identity that is ignored or whose local
entry equals its remote entry.
Source: `memdb/stash.rs` 125–128, 283–376
Kind: P -/
theorem sync_status_agrees_with_downloads {w : MemDbStash I} {L : SdkSyncState I}
    (hL : MemDbStash.parseStateFile w.syncState = .ok L) (listing : List (RemoteSdk I)) :
    let p := w.ignorePatterns
    let R := remoteStateOf listing
    let steps := syncSteps w (.ok listing)
    ∃ st, (getSyncStatus (.ok listing) w).1 = .ok st ∧
      st.remoteTotal = .ofNat (R.sdkValues.countP fun e => !sdkIsIgnored p e.info) ∧
      st.missing = .ofNat (R.sdkValues.countP (isMissing p L)) ∧
      st.different = .ofNat (R.sdkValues.countP (isDifferent p L)) ∧
      st.revision = L.revision.getD 0 ∧
      (steps.filterMap Step.createdSdk).map RemoteSdk.info = downloads p L R ∧
      (downloads p L R).Nodup ∧
      (∀ x, x ∈ downloads p L R ↔
        ∃ e ∈ R.sdkValues, e.info = x ∧ (isMissing p L e || isDifferent p L e)) ∧
      st.lag = .ofNat (downloads p L R).length ∧
      ∀ e ∈ R.sdkValues, (sdkIsIgnored p e.info ∨ L.getSdk e.info = some e) →
        (∀ s ∈ steps, s.fileName ≠ some (memdbFilename e.info)) ∧ Step.evict e.info ∉ steps := by
  dsimp only
  have hR := wellKeyed_remoteStateOf listing
  have hids := remoteIds_downloads (p := w.ignorePatterns) (L := L) hR
  -- an identity that is ignored or already current is not downloaded
  have hnot : ∀ e ∈ (remoteStateOf listing).sdkValues,
      (sdkIsIgnored w.ignorePatterns e.info ∨ L.getSdk e.info = some e) →
        e.info ∉ downloads w.ignorePatterns L (remoteStateOf listing) := fun e he h hd => by
    have hn := (List.mem_filter.mp hd).2
    rw [needsSync, hR.getSdk_info he] at hn
    rcases h with h | h <;> simp [h] at hn
  refine ⟨_, getSyncStatus_ok hL listing, rfl, rfl, rfl, rfl, ?_, ?_, ?_, ?_, ?_⟩
  · simp only [syncSteps_eq hL, List.cons_append, List.filterMap_cons, List.filterMap_append,
      Step.createdSdk, List.filterMap_nil, List.append_nil]
    rw [downloadAll_creates _ _ hids.isSome, map_info_filterMap_getSdk hids.found]
  · exact hids.nodup.of_map _
  · exact mem_downloads_iff hR
  · show UInt32.ofNat _ + UInt32.ofNat _ = _
    rw [UInt32.ofNat_add_ofNat, length_downloads hR]
  · intro e he h
    have hd := hnot e he h
    -- a download's file or eviction would name a downloaded identity
    have hsame : ∀ x ∈ downloads w.ignorePatterns L (remoteStateOf listing),
        memdbFilename x = memdbFilename e.info → x = e.info :=
      fun x hx hxe => List.inj_on_of_nodup_map (remoteIds_remoteSdks hR).nodup
        (List.mem_of_mem_filter hx) ((mem_remoteSdks hR).mpr ⟨e, hR.getSdk_info he, rfl⟩) hxe
    refine ⟨fun s hs hfile => ?_, fun hev => ?_⟩
    · rcases (mem_syncSteps hL).mp hs with rfl | hs | rfl | rfl
      · cases hfile
      · obtain ⟨x, hx, hxn⟩ := downloadAll_fileName _ _ hids.found s hs _ hfile
        exact hd (hsame x hx hxn ▸ hx)
      · cases hfile
      · cases hfile
    · obtain h | h | h | h := (mem_syncSteps hL).mp hev
      · cases h
      · exact hd (downloadAll_evict _ _ _ h)
      · cases h
      · cases h

/-- The agreement at the sample stash, whose `sync.state` records `1`, and a listing of `1`
changed and `2` new: the status's lag is the number of downloads.
Source: `memdb/stash.rs` 125–128, 283–376
Kind: N+ -/
theorem sync_status_agrees_with_downloads_sample :
    let listing := [sampleSdk 1 "b", sampleSdk 2 "a"]
    ∃ st, (getSyncStatus (.ok listing) sampleStash).1 = .ok st ∧
      st.lag = .ofNat (downloads sampleStash.ignorePatterns
        (SdkSyncState.empty.updateSdk (sampleSdk 1 "a")) (remoteStateOf listing)).length :=
  have ⟨st, hst, _, _, _, _, _, _, _, hlag, _⟩ :=
    sync_status_agrees_with_downloads (w := sampleStash) rfl [sampleSdk 1 "b", sampleSdk 2 "a"]
  ⟨st, hst, hlag⟩

/-- **Health after a completed `sync`.** From a readable, well-keyed `sync.state`, after a
successful `sync` the same listing gives a status with no lag, whose total counts the remote
identities that are not ignored, and which is healthy exactly when that total is not zero in
`u32`.
Source: `memdb/stash.rs` 125–139, 283–398
Kind: P -/
theorem status_after_sync {w : MemDbStash I} {L : SdkSyncState I}
    (hL : MemDbStash.parseStateFile w.syncState = .ok L) (hkeys : L.WellKeyed)
    (hinj : Function.Injective (memdbFilename : I → String)) (listing : List (RemoteSdk I)) :
    ∃ st, (getSyncStatus (.ok listing) (runSteps (syncSteps w (.ok listing)) w)).1 = .ok st ∧
      st.lag = 0 ∧
      st.remoteTotal = .ofNat ((remoteStateOf listing).sdkValues.countP fun e =>
        !sdkIsIgnored w.ignorePatterns e.info) ∧
      (st.isHealthy = true ↔ st.remoteTotal ≠ 0) :=
  ⟨_, getSyncStatus_after_sync hL hkeys hinj listing, rfl, rfl, by
    simp [SyncStatus.isHealthy, SyncStatus.lag, f32RatioBelowTenth_zero_left]⟩

/-- Health after a completed `sync` at the sample stash and a listing of `1` changed and `2`
new: healthy.
Source: `memdb/stash.rs` 125–139, 283–398
Kind: N+ -/
theorem status_after_sync_sample :
    ∃ st, (getSyncStatus (.ok [sampleSdk 1 "b", sampleSdk 2 "a"])
        (runSteps (syncSteps sampleStash (.ok [sampleSdk 1 "b", sampleSdk 2 "a"])) sampleStash)).1 =
          .ok st ∧ st.isHealthy = true :=
  have ⟨st, hst, _, htotal, hhealthy⟩ := status_after_sync (w := sampleStash) rfl (by decide)
    memdbFilename_nat_injective [sampleSdk 1 "b", sampleSdk 2 "a"]
  ⟨st, hst, hhealthy.mpr (by rw [htotal]; decide)⟩

/-- **A synced empty bucket is unhealthy.** From any readable `sync.state`, a `sync` against a
bucket with no memdb succeeds, and `get_sync_status` against the same bucket then reports a
status that is not healthy: its lag and its total are both zero, and `0.0 / 0.0` is `NaN`.
Source: `memdb/stash.rs` 130–139, 283–398
Kind: P -/
theorem sync_then_empty_bucket_unhealthy {w : MemDbStash I} {L : SdkSyncState I}
    (hL : MemDbStash.parseStateFile w.syncState = .ok L) :
    syncOutcome w (.ok []) = .ok () ∧
      ∃ st, (getSyncStatus (.ok []) (runSteps (syncSteps w (.ok [])) w)).1 = .ok st ∧
        st.isHealthy = false :=
  have h0 : (remoteStateOf ([] : List (RemoteSdk I))).sdkValues = [] := rfl
  ⟨syncOutcome_ok hL, _, getSyncStatus_ok (parseStateFile_after_sync hL []) [], by
    simp only [h0, List.countP_nil]
    show f32RatioBelowTenth (UInt32.ofNat 0 + UInt32.ofNat 0) (UInt32.ofNat 0) = false
    decide⟩

/-- The sample stash synced against an empty bucket is unhealthy.
Source: `memdb/stash.rs` 130–139, 283–398
Kind: N+ -/
theorem sync_then_empty_bucket_unhealthy_sample :
    syncOutcome sampleStash (.ok []) = .ok () ∧
      ∃ st, (getSyncStatus (.ok []) (runSteps (syncSteps sampleStash (.ok [])) sampleStash)).1 =
        .ok st ∧ st.isHealthy = false :=
  sync_then_empty_bucket_unhealthy (w := sampleStash) rfl

end SymbolServer.Memdb
