import SymbolServer.Memdb.Downloads
import SymbolServer.Memdb.Status

/-!
# The result of a reconciliation, and its idempotence

* `reconciled` — the map the spec's set-diff law (§8) asks for: each remote entry that is not
  ignored, and for an ignored remote identity the local entry, if any.
* `lookup_syncFinal` — key by key, the state `sync` saves last is `reconciled`, for a
  well-keyed local state and an injective `memdb_filename`.
* **`sync_persists_reconciled`** — a run that returns `Ok` writes that state to `sync.state`
  and installs it as the snapshot.
* **`sync_deletion_keeps_file_and_handle`** — at the local state `{1}` and an empty listing the
  run drops `1` from the state but leaves its file and its cached handle (`deleteLoop_fst`).
* `sync_second_run_idempotent` — against the same listing a second run downloads nothing,
  evicts nothing, deletes nothing, saves the same map, and bumps the revision once in `u64`
  (which wraps at `u64::MAX`: `Revision.lean`).
* **`sync_leaves_unlisted_identity`** — wherever a run stops, an identity the listing does not
  name keeps its file and its cached handle.
-/

set_option linter.unusedSectionVars false

namespace SymbolServer.Memdb

open SdkSyncState

variable {I : Type} [SdkInfo I]

/-- The reconciled map of the spec's set-diff law: under a remote key, the remote entry unless
its identity is ignored, and then the local entry; nothing under any other key.
Source: spec §4.3 steps 3–4, §8 "Set-diff correctness"
Kind: D
Fidelity: spec -/
def reconciled (p : IgnorePatterns) (L R : SdkSyncState I) (k : String) : Option (RemoteSdk I) :=
  match R.sdks.lookup k with
  | none => none
  | some r => if sdkIsIgnored p r.info then L.sdks.lookup k else some r

/-- Inserting entries that the remote state holds under their own names: a key takes the
remote entry when one of them is filed under it.
Source: `memdb/stash.rs` 101–103
Kind: L -/
theorem lookup_insertListed {R : SdkSyncState I} :
    ∀ (es : List (RemoteSdk I)), (∀ e ∈ es, R.sdks.lookup (memdbFilename e.info) = some e) →
      ∀ (m : AList (fun _ : String => RemoteSdk I)) (k : String),
        (insertListed m es).lookup k =
          if ∃ e ∈ es, memdbFilename e.info = k then R.sdks.lookup k else m.lookup k
  | [], _, m, k => by simp [insertListed]
  | e :: rest, hes, m, k => by
    have ih := lookup_insertListed rest (fun e' he' => hes e' (List.mem_cons_of_mem _ he'))
      (m.insert (memdbFilename e.info) e) k
    rw [insertListed, List.foldl_cons, ← insertListed, ih]
    by_cases hk : memdbFilename e.info = k
    · subst hk
      simp [hes e (List.mem_cons_self _ _)]
    · simp [hk, AList.lookup_insert_ne (Ne.symm hk)]

/-- The entries the downloads fetch are filed under the downloaded identities' names.
Source: none: infrastructure
Kind: L -/
theorem exists_mem_filterMap_getSdk {R : SdkSyncState I} {ds : List I}
    (hf : ∀ x ∈ ds, ∃ e, R.getSdk x = some e ∧ e.info = x) (k : String) :
    (∃ e ∈ ds.filterMap R.getSdk, memdbFilename e.info = k) ↔ ∃ x ∈ ds, memdbFilename x = k := by
  simp only [List.mem_filterMap]
  constructor
  · rintro ⟨e, ⟨x, hx, hxe⟩, rfl⟩
    obtain ⟨e', he', rfl⟩ := hf x hx
    rw [hxe] at he'
    cases he'
    exact ⟨_, hx, rfl⟩
  · rintro ⟨x, hx, rfl⟩
    obtain ⟨e, he, rfl⟩ := hf x hx
    exact ⟨e, ⟨_, hx, he⟩, rfl⟩

/-- The final state by keys: a key of a `to_delete` identity is gone; a downloaded identity's
key holds its remote entry; any other key holds the local entry.
Source: `memdb/stash.rs` 343–395
Kind: L -/
theorem lookup_syncFinal_eq {p : IgnorePatterns} {L R : SdkSyncState I} (hR : R.WellKeyed)
    (k : String) :
    (syncFinal p L R).sdks.lookup k =
      if ∃ d ∈ toDelete L (remoteSdks R), memdbFilename d = k then none
      else if ∃ x ∈ downloads p L R, memdbFilename x = k then R.sdks.lookup k
      else L.sdks.lookup k := by
  have hids := remoteIds_downloads (p := p) (L := L) hR
  -- the fetched entries are filed under their own names
  have hes : ∀ e ∈ (downloads p L R).filterMap R.getSdk,
      R.sdks.lookup (memdbFilename e.info) = some e := fun e he => by
    obtain ⟨x, -, hxe⟩ := List.mem_filterMap.mp he
    exact hR.getSdk_info (mem_sdkValues.mpr ⟨_, hxe⟩)
  rw [syncFinal, bumpRevision_sdks, lookup_deleteLoop, downloadAll_snd _ _ hids.isSome,
    lookup_insertListed _ hes _ k]
  simp only [exists_mem_filterMap_getSdk hids.found]

section keyed

variable {p : IgnorePatterns} {L R : SdkSyncState I}
  (hL : L.WellKeyed) (hR : R.WellKeyed) (hinj : Function.Injective (memdbFilename : I → String))

include hL hR hinj in
/-- **The state `sync` saves last is the reconciled map**, key by key.
Source: `memdb/stash.rs` 343–395
Kind: L -/
theorem lookup_syncFinal (k : String) : (syncFinal p L R).sdks.lookup k = reconciled p L R k := by
  rw [lookup_syncFinal_eq hR, reconciled]
  rcases hRk : R.sdks.lookup k with _ | r
  · -- no remote entry: no download is filed there, and a local entry is deleted
    have hnd : ¬ ∃ x ∈ downloads p L R, memdbFilename x = k := by
      rintro ⟨x, hx, rfl⟩
      obtain ⟨e, he, -⟩ := (remoteIds_downloads hR).found x hx
      rw [getSdk_eq, hRk] at he
      cases he
    rw [if_neg hnd]
    split_ifs with hdel
    · rfl
    · rcases hLk : L.sdks.lookup k with _ | e
      · rfl
      · refine absurd ⟨e.info, mem_toDelete.mpr ⟨?_, fun hrem => ?_⟩, hL.key_eq hLk⟩ hdel
        · exact List.mem_map_of_mem _ (mem_sdkValues.mpr ⟨k, hLk⟩)
        · obtain ⟨e', he', -⟩ := (mem_remoteSdks hR).mp hrem
          rw [getSdk_eq, hL.key_eq hLk, hRk] at he'
          cases he'
  · -- a remote entry, filed under its identity `r.info`
    dsimp only
    have hrk : memdbFilename r.info = k := hR.key_eq hRk
    have hrmem : r.info ∈ remoteSdks R := (mem_remoteSdks hR).mpr ⟨r, by rw [getSdk_eq, hrk, hRk], rfl⟩
    have hndel : ¬ ∃ d ∈ toDelete L (remoteSdks R), memdbFilename d = k := by
      rintro ⟨d, hd, hdk⟩
      exact (mem_toDelete.mp hd).2 (hinj (hdk.trans hrk.symm) ▸ hrmem)
    have honly : ∀ x ∈ downloads p L R, memdbFilename x = k → x = r.info :=
      fun x _ hx => hinj (hx.trans hrk.symm)
    rw [if_neg hndel]
    by_cases hi : sdkIsIgnored p r.info
    · -- ignored: never downloaded, so the local entry stays
      have hnd : ¬ ∃ x ∈ downloads p L R, memdbFilename x = k := by
        rintro ⟨x, hx, hxk⟩
        have := (List.mem_filter.mp hx).2
        rw [honly x hx hxk] at this
        simp [needsSync, hi] at this
      simp [hnd, hi]
    · rw [if_neg hi]
      split_ifs with hd
      · rfl
      · -- not downloaded: the local state already held the remote entry
        have hns : needsSync p L R r.info = false :=
          Bool.eq_false_iff.mpr fun hn => hd ⟨r.info, List.mem_filter.mpr ⟨hrmem, hn⟩, hrk⟩
        simp only [needsSync, hi, Bool.not_false, Bool.true_and, bne_eq_false_iff_eq,
          getSdk_eq] at hns
        rw [hrk, hRk] at hns
        exact hns

include hL hR hinj in
/-- After `sync` every remote identity that is not ignored holds its remote entry.
Source: `memdb/stash.rs` 343–395
Kind: L -/
theorem getSdk_syncFinal_of_not_ignored {x : I} (hx : x ∈ remoteSdks R)
    (hi : sdkIsIgnored p x = false) : (syncFinal p L R).getSdk x = R.getSdk x := by
  obtain ⟨e, he, rfl⟩ := (mem_remoteSdks hR).mp hx
  rw [getSdk_eq, lookup_syncFinal hL hR hinj, reconciled, ← getSdk_eq, he]
  simp [hi]

include hL hR hinj in
/-- After `sync` every local identity is a remote one.
Source: `memdb/stash.rs` 378–384
Kind: L -/
theorem toDelete_syncFinal : toDelete (syncFinal p L R) (remoteSdks R) = [] := by
  refine List.eq_nil_iff_forall_not_mem.mpr fun d hd => ?_
  obtain ⟨hdL, hnot⟩ := mem_toDelete.mp hd
  obtain ⟨e, he, rfl⟩ := List.mem_map.mp hdL
  obtain ⟨k, hk⟩ := mem_sdkValues.mp he
  rw [lookup_syncFinal hL hR hinj, reconciled] at hk
  rcases hRk : R.sdks.lookup k with _ | r
  · rw [hRk] at hk; cases hk
  · rw [hRk] at hk
    dsimp only at hk
    have hrk : memdbFilename r.info = k := hR.key_eq hRk
    have hrmem : r.info ∈ remoteSdks R :=
      (mem_remoteSdks hR).mpr ⟨r, by rw [getSdk_eq, hrk, hRk], rfl⟩
    split_ifs at hk
    · exact hnot (hinj ((hL.key_eq hk).trans hrk.symm) ▸ hrmem)
    · cases hk; exact hnot hrmem

include hL hR hinj in
/-- After `sync` nothing remains to download.
Source: `memdb/stash.rs` 343–360
Kind: L -/
theorem downloads_syncFinal : downloads p (syncFinal p L R) R = [] := by
  refine List.filter_eq_nil_iff.mpr fun x hx => ?_
  cases hi : sdkIsIgnored p x
  · simp [needsSync, hi, getSdk_syncFinal_of_not_ignored hL hR hinj hx hi]
  · simp [needsSync, hi]

include hL hR hinj in
/-- After `sync` no remote entry is missing or different.
Source: `memdb/stash.rs` 294–306, 343–395
Kind: L -/
theorem isMissing_isDifferent_syncFinal {e : RemoteSdk I} (he : e ∈ R.sdkValues) :
    isMissing p (syncFinal p L R) e = false ∧ isDifferent p (syncFinal p L R) e = false := by
  cases hi : sdkIsIgnored p e.info
  · have hx : e.info ∈ remoteSdks R := (mem_remoteSdks hR).mpr ⟨e, hR.getSdk_info he, rfl⟩
    simp [isMissing, isDifferent, hi, getSdk_syncFinal_of_not_ignored hL hR hinj hx hi,
      hR.getSdk_info he]
  · simp [isMissing, isDifferent, hi]

include hL hR in
/-- The state `sync` saves last is well keyed.
Source: `memdb/stash.rs` 363, 379
Kind: L -/
theorem wellKeyed_syncFinal : (syncFinal p L R).WellKeyed := by
  refine wellKeyed_iff.mpr fun k e h => ?_
  rw [lookup_syncFinal_eq hR] at h
  split_ifs at h
  · exact hR.key_eq h
  · exact hL.key_eq h

end keyed

/-- After the steps of a run that ends in the last save and install of `f`, `sync.state` holds
`f` and so does the snapshot.
Source: `memdb/stash.rs` 393–395, 208–213
Kind: L -/
theorem runSteps_save_install (pre : List (Step I)) (f : SdkSyncState I) (w : MemDbStash I) :
    (runSteps (pre ++ [.save f, .install f]) w).syncState = .saved f ∧
      (runSteps (pre ++ [.save f, .install f]) w).localState = some f := by
  rw [runSteps_append]
  exact ⟨rfl, rfl⟩

/-- The steps of a run that reads `L` and fetches `listing`.
Source: `memdb/stash.rs` 331–398
Kind: L -/
theorem syncSteps_eq {w : MemDbStash I} {L : SdkSyncState I} {listing : List (RemoteSdk I)}
    (hL : MemDbStash.parseStateFile w.syncState = .ok L) :
    syncSteps w (.ok listing) =
      (.install L :: (downloadAll (remoteStateOf listing)
          (downloads w.ignorePatterns L (remoteStateOf listing)) L).1) ++
        [.save (syncFinal w.ignorePatterns L (remoteStateOf listing)),
          .install (syncFinal w.ignorePatterns L (remoteStateOf listing))] := by
  rw [syncSteps_ok hL, syncPlan_eq (wellKeyed_remoteStateOf listing)]
  rfl

/-- The steps of a run that reads `sync.state`: the snapshot's install, a step of the
downloads, or the final save or install.
Source: `memdb/stash.rs` 331–398
Kind: L -/
theorem mem_syncSteps {w : MemDbStash I} {L : SdkSyncState I} {listing : List (RemoteSdk I)}
    (hL : MemDbStash.parseStateFile w.syncState = .ok L) {st : Step I} :
    st ∈ syncSteps w (.ok listing) ↔
      st = .install L ∨
        st ∈ (downloadAll (remoteStateOf listing)
          (downloads w.ignorePatterns L (remoteStateOf listing)) L).1 ∨
        st = .save (syncFinal w.ignorePatterns L (remoteStateOf listing)) ∨
        st = .install (syncFinal w.ignorePatterns L (remoteStateOf listing)) := by
  simp only [syncSteps_eq hL, List.cons_append, List.mem_cons, List.mem_append,
    List.mem_singleton, List.not_mem_nil, or_false]

/-- A run that reads `sync.state` and fetches the listing returns `Ok` when no step fails.
Source: `memdb/stash.rs` 331–398
Kind: L -/
theorem syncOutcome_ok {w : MemDbStash I} {L : SdkSyncState I} {listing : List (RemoteSdk I)}
    (hL : MemDbStash.parseStateFile w.syncState = .ok L) : syncOutcome w (.ok listing) = .ok () := by
  have hp := panic_not_mem_downloadAll (R := remoteStateOf listing)
    (downloads w.ignorePatterns L (remoteStateOf listing)) L
  simp only [syncOutcome, hL, fetchRemoteState_ok, syncSteps_eq hL]
  simp [hp]

/-- **A successful `sync` persists the reconciled map.** For a readable, well-keyed
`sync.state` and an injective `memdb_filename`, a run against any listing returns `Ok`, and
the state it writes last to `sync.state` — and installs as the snapshot — maps each key to
the reconciled entry: the remote entry of a remote identity that is not ignored, the old
local entry of an ignored remote identity, nothing for an identity absent remotely.
Source: `memdb/stash.rs` 331–398; spec §8 "Set-diff correctness"
Kind: P -/
theorem sync_persists_reconciled {w : MemDbStash I} {L : SdkSyncState I}
    (hL : MemDbStash.parseStateFile w.syncState = .ok L) (hkeys : L.WellKeyed)
    (hinj : Function.Injective (memdbFilename : I → String)) (listing : List (RemoteSdk I)) :
    syncOutcome w (.ok listing) = .ok () ∧
      ∃ final, (runSteps (syncSteps w (.ok listing)) w).syncState = .saved final ∧
        (runSteps (syncSteps w (.ok listing)) w).localState = some final ∧
        ∀ k, final.sdks.lookup k = reconciled w.ignorePatterns L (remoteStateOf listing) k := by
  refine ⟨syncOutcome_ok hL, syncFinal w.ignorePatterns L (remoteStateOf listing), ?_⟩
  rw [syncSteps_eq hL]
  exact ⟨(runSteps_save_install _ _ w).1, (runSteps_save_install _ _ w).2,
    lookup_syncFinal hkeys (wellKeyed_remoteStateOf listing) hinj⟩

/-- The sample identities' entries: identity `n` with etag `etag`.
Source: none: test data
Kind: D -/
def sampleSdk (n : ℕ) (etag : String) : RemoteSdk ℕ :=
  ⟨memdbFilename n, n, 0, etag⟩

/-- A sample stash after a first `get_memdb(1)`: `sync.state` records identity `1`, whose file
holds its content and whose handle is cached.
Source: none: test data
Kind: D -/
def sampleStash : MemDbStash ℕ :=
  ⟨fun f => if f = memdbFilename 1 then some (.full (sampleSdk 1 "a")) else none,
    .saved (SdkSyncState.empty.updateSdk (sampleSdk 1 "a")), none,
    fun i => if i = 1 then some ⟨sampleSdk 1 "a"⟩ else none, ⟨fun _ => false⟩⟩

/-- The set-diff law at the sample stash and a listing of `1` changed and `2` new.
Source: `memdb/stash.rs` 331–398; spec §8 "Set-diff correctness"
Kind: N+ -/
theorem sync_persists_reconciled_sample :
    MemDbStash.parseStateFile sampleStash.syncState =
        .ok (SdkSyncState.empty.updateSdk (sampleSdk 1 "a")) ∧
      (SdkSyncState.empty.updateSdk (sampleSdk 1 "a")).WellKeyed ∧
      (syncOutcome sampleStash (.ok [sampleSdk 1 "b", sampleSdk 2 "a"]) = .ok () ∧
        ∃ final, (runSteps (syncSteps sampleStash (.ok [sampleSdk 1 "b", sampleSdk 2 "a"]))
            sampleStash).syncState = .saved final ∧
          (runSteps (syncSteps sampleStash (.ok [sampleSdk 1 "b", sampleSdk 2 "a"]))
            sampleStash).localState = some final ∧
          ∀ k, final.sdks.lookup k = reconciled sampleStash.ignorePatterns
            (SdkSyncState.empty.updateSdk (sampleSdk 1 "a"))
            (remoteStateOf [sampleSdk 1 "b", sampleSdk 2 "a"]) k) :=
  ⟨rfl, by decide,
    sync_persists_reconciled (w := sampleStash) rfl (by decide) memdbFilename_nat_injective _⟩

/-- **The deletion loop removes neither file nor handle.** At the sample stash, a run against
an empty listing drops identity `1` from `sync.state` and returns `Ok`, yet `1`'s memdb file
is still on disk and its handle is still cached.
Source: `memdb/stash.rs` 378–384
Kind: P -/
theorem sync_deletion_keeps_file_and_handle :
    syncOutcome sampleStash (.ok []) = .ok () ∧
      (runSteps (syncSteps sampleStash (.ok [])) sampleStash).syncState =
        .saved ((SdkSyncState.empty.updateSdk (sampleSdk 1 "a")).removeSdk 1).bumpRevision ∧
      ((SdkSyncState.empty.updateSdk (sampleSdk 1 "a")).removeSdk 1).getSdk 1 = none ∧
      (runSteps (syncSteps sampleStash (.ok [])) sampleStash).files (memdbFilename 1) =
        some (.full (sampleSdk 1 "a")) ∧
      (runSteps (syncSteps sampleStash (.ok [])) sampleStash).memdbs 1 = some ⟨sampleSdk 1 "a"⟩ :=
  ⟨syncOutcome_ok rfl, by decide⟩

/-- After a successful `sync`, `sync.state` reads back as the final state.
Source: `memdb/stash.rs` 183–198, 392–397
Kind: L -/
theorem parseStateFile_after_sync {w : MemDbStash I} {L : SdkSyncState I}
    (hL : MemDbStash.parseStateFile w.syncState = .ok L) (listing : List (RemoteSdk I)) :
    MemDbStash.parseStateFile (runSteps (syncSteps w (.ok listing)) w).syncState =
      .ok (syncFinal w.ignorePatterns L (remoteStateOf listing)) := by
  rw [syncSteps_eq hL, (runSteps_save_install _ _ w).1]; rfl

/-- After a successful `sync`, `get_sync_status` against the same listing finds nothing
missing and nothing different.
Source: `memdb/stash.rs` 283–324, 331–398
Kind: L -/
theorem getSyncStatus_after_sync {w : MemDbStash I} {L : SdkSyncState I}
    (hL : MemDbStash.parseStateFile w.syncState = .ok L) (hkeys : L.WellKeyed)
    (hinj : Function.Injective (memdbFilename : I → String)) (listing : List (RemoteSdk I)) :
    (getSyncStatus (.ok listing) (runSteps (syncSteps w (.ok listing)) w)).1 =
      .ok ⟨.ofNat ((remoteStateOf listing).sdkValues.countP fun e =>
              !sdkIsIgnored w.ignorePatterns e.info), 0, 0,
            (syncFinal w.ignorePatterns L (remoteStateOf listing)).revision.getD 0, false⟩ := by
  have hR := wellKeyed_remoteStateOf listing
  have hmissing : (remoteStateOf listing).sdkValues.countP
      (isMissing w.ignorePatterns (syncFinal w.ignorePatterns L (remoteStateOf listing))) = 0 :=
    List.countP_eq_zero.mpr fun e he => by
      simp [(isMissing_isDifferent_syncFinal hkeys hR hinj he).1]
  have hdifferent : (remoteStateOf listing).sdkValues.countP
      (isDifferent w.ignorePatterns (syncFinal w.ignorePatterns L (remoteStateOf listing))) = 0 :=
    List.countP_eq_zero.mpr fun e he => by
      simp [(isMissing_isDifferent_syncFinal hkeys hR hinj he).2]
  rw [getSyncStatus_ok (parseStateFile_after_sync hL listing), runSteps_ignorePatterns,
    hmissing, hdifferent]
  rfl

/-- **A second `sync` against the same listing changes nothing but the revision.** It
downloads nothing, evicts nothing, finds nothing to delete, saves the map the first run saved
with the revision raised by one in `u64`, which wraps from `u64::MAX` to `0`
(`sync_second_run_wraps_at_max`); and `get_sync_status` against that listing then reports
nothing missing or different.
Source: `memdb/stash.rs` 284–398; spec §8 "Idempotence"
Kind: L -/
theorem sync_second_run_idempotent {w : MemDbStash I} {L : SdkSyncState I}
    (hL : MemDbStash.parseStateFile w.syncState = .ok L) (hkeys : L.WellKeyed)
    (hinj : Function.Injective (memdbFilename : I → String)) (listing : List (RemoteSdk I)) :
    let final := syncFinal w.ignorePatterns L (remoteStateOf listing)
    let w1 := runSteps (syncSteps w (.ok listing)) w
    let steps2 := syncSteps w1 (.ok listing)
    steps2.filterMap Step.createdSdk = [] ∧ (∀ y, Step.evict y ∉ steps2) ∧
      toDelete final (remoteSdks (remoteStateOf listing)) = [] ∧
      (∃ f2, (runSteps steps2 w1).syncState = .saved f2 ∧ f2.sdks = final.sdks ∧
        f2.revision = some (final.revision.getD 0 + 1)) ∧
      ∃ st, (getSyncStatus (.ok listing) w1).1 = .ok st ∧ st.missing = 0 ∧ st.different = 0 := by
  intro final w1 steps2
  have hR := wellKeyed_remoteStateOf listing
  have hw1 : MemDbStash.parseStateFile w1.syncState = .ok final := parseStateFile_after_sync hL listing
  have hp : w1.ignorePatterns = w.ignorePatterns := runSteps_ignorePatterns _ _
  have hfinal2 : syncFinal w1.ignorePatterns final (remoteStateOf listing) = final.bumpRevision := by
    rw [hp, syncFinal, downloads_syncFinal hkeys hR hinj, toDelete_syncFinal hkeys hR hinj]; rfl
  have hsteps : steps2 = [.install final, .save final.bumpRevision, .install final.bumpRevision] := by
    show syncSteps w1 (.ok listing) = _
    rw [syncSteps_eq hw1, hp, downloads_syncFinal hkeys hR hinj, ← hp, hfinal2]; rfl
  exact ⟨by rw [hsteps]; rfl, by rw [hsteps]; simp, toDelete_syncFinal hkeys hR hinj,
    ⟨final.bumpRevision, by rw [hsteps]; rfl, rfl, rfl⟩, _,
    getSyncStatus_after_sync hL hkeys hinj listing, rfl, rfl⟩

/-! ## What `sync` leaves alone -/

/-- **`sync` never touches an unlisted identity.** Whatever `sync.state` holds and wherever a
run stops, an identity whose file name no entry of the listing has keeps its memdb file and
its cached handle: the deletion loop removes and evicts nothing, and the downloads write and
evict only listed identities.
Source: `memdb/stash.rs` 331–398
Kind: P -/
theorem sync_leaves_unlisted_identity (w : MemDbStash I) (listing : List (RemoteSdk I)) (x : I)
    (hx : ∀ e ∈ listing, memdbFilename e.info ≠ memdbFilename x) (n : ℕ) :
    (runSteps ((syncSteps w (.ok listing)).take n) w).files (memdbFilename x) =
        w.files (memdbFilename x) ∧
      (runSteps ((syncSteps w (.ok listing)).take n) w).memdbs x = w.memdbs x := by
  refine runSteps_frame _ w fun st hst => ?_
  replace hst := List.mem_of_mem_take hst
  rcases hL : MemDbStash.parseStateFile w.syncState with err | L
  · simp [syncSteps, hL] at hst
  have hR := wellKeyed_remoteStateOf listing
  rcases (mem_syncSteps hL).mp hst with rfl | hst | rfl | rfl
  · exact ⟨nofun, nofun⟩
  · obtain ⟨y, hy, e, he, h⟩ := mem_downloadAll _ L hst
    -- a download names a listed identity
    obtain ⟨e', he', hey⟩ := (remoteIds_downloads hR).found y hy
    rw [he] at he'; cases he'
    have hne := hx e (mem_listing_of_mem_remoteStateOf (mem_sdkValues.mpr ⟨_, he⟩))
    rcases h with rfl | rfl | rfl | ⟨s', rfl | rfl⟩
    exacts [⟨fun h => hne (Option.some.inj h), nofun⟩, ⟨fun h => hne (Option.some.inj h), nofun⟩,
      ⟨nofun, fun h => hne (by cases h; rw [hey])⟩, ⟨nofun, nofun⟩, ⟨nofun, nofun⟩]
  · exact ⟨nofun, nofun⟩
  · exact ⟨nofun, nofun⟩

/-- At the sample stash against an empty listing, `1`'s file and handle stay.
Source: `memdb/stash.rs` 331–398
Kind: N+ -/
theorem sync_leaves_unlisted_identity_sample :
    (runSteps ((syncSteps sampleStash (.ok [])).take 100) sampleStash).memdbs 1 =
      some ⟨sampleSdk 1 "a"⟩ :=
  (sync_leaves_unlisted_identity sampleStash [] 1 (fun _ h => by cases h) 100).2

/-! ## The key invariant -/

/-- `read_local_state` fails only on a `sync.state` it cannot open ("Error loading sync state")
or cannot parse ("Parsing error on loading sync state").
Source: `memdb/stash.rs` 184–194
Kind: L -/
theorem MemDbStash.parseStateFile_error {f : StateFile I} {e : ErrorKind}
    (h : MemDbStash.parseStateFile f = .error e) : e = .loadSyncState ∨ e = .parse := by
  cases f <;> simp [MemDbStash.parseStateFile] at h <;> simp [h]

/-- No run reaches the panic: the remote state is well keyed, so `get_sdk` finds every identity
it lists.
Source: `memdb/stash.rs` 339–346
Kind: L -/
theorem panic_not_mem_syncSteps (w : MemDbStash I)
    (upstream : Except ErrorKind (List (RemoteSdk I))) : Step.panic ∉ syncSteps w upstream := by
  intro h
  rcases hL : MemDbStash.parseStateFile w.syncState with err | L
  · simp [syncSteps, hL] at h
  rcases upstream with err | listing
  · rw [syncSteps_fetch_error hL, List.mem_singleton] at h
    cases h
  rcases (mem_syncSteps hL).mp h with h | h | h | h
  · cases h
  · exact panic_not_mem_downloadAll _ L h
  · cases h
  · cases h

/-- From a well-keyed `sync.state`, every state a run saves or installs is well keyed.
Source: `memdb/stash.rs` 331–398
Kind: L -/
theorem wellKeyed_of_mem_syncSteps {w : MemDbStash I} {L : SdkSyncState I}
    (hL : MemDbStash.parseStateFile w.syncState = .ok L) (hkeys : L.WellKeyed)
    (upstream : Except ErrorKind (List (RemoteSdk I))) :
    ∀ st ∈ syncSteps w upstream, ∀ s, (st = .save s ∨ st = .install s) → s.WellKeyed := by
  intro st hst s hs
  rcases upstream with err | listing
  · rw [syncSteps_fetch_error hL, List.mem_singleton] at hst
    subst hst
    rcases hs with h | h <;> cases h
    exact hkeys
  have hfinal := wellKeyed_syncFinal (p := w.ignorePatterns) hkeys (wellKeyed_remoteStateOf listing)
  rcases (mem_syncSteps hL).mp hst with rfl | hst | rfl | rfl
  · rcases hs with h | h <;> cases h
    exact hkeys
  · exact (wellKeyed_downloadAll _ hkeys).2 st hst s hs
  all_goals rcases hs with h | h <;> cases h
  all_goals exact hfinal

/-- **The key invariant.** `fetch_remote_state` builds a well-keyed state from every listing —
of any length, with duplicates, in any order — in which `get_sdk` finds each entry under its
own identity; `update_sdk` and `remove_sdk` keep the invariant; so from a well-keyed
`sync.state`, every state a run saves to `sync.state` or installs as the snapshot is well keyed,
wherever the run stops. No run reaches the panic of the `unwrap` at line 346, and a run
against a listing never returns a panic.
Source: `memdb/stash.rs` 96–116, 215–221, 331–398
Kind: P -/
theorem sync_keeps_key_invariant :
    (∀ (upstream : Except ErrorKind (List (RemoteSdk I))) (R : SdkSyncState I),
        fetchRemoteState upstream = .ok R →
          R.WellKeyed ∧ ∀ e ∈ R.sdkValues, R.getSdk e.info = some e) ∧
      (∀ (s : SdkSyncState I) (e : RemoteSdk I) (x : I),
        s.WellKeyed → (s.updateSdk e).WellKeyed ∧ (s.removeSdk x).WellKeyed) ∧
      (∀ (w : MemDbStash I) (L : SdkSyncState I) (upstream : Except ErrorKind (List (RemoteSdk I))),
        MemDbStash.parseStateFile w.syncState = .ok L → L.WellKeyed →
          ∀ st ∈ syncSteps w upstream, ∀ s, (st = .save s ∨ st = .install s) → s.WellKeyed) ∧
      (∀ (w : MemDbStash I) (upstream : Except ErrorKind (List (RemoteSdk I))),
        Step.panic ∉ syncSteps w upstream) ∧
      ∀ (w : MemDbStash I) (listing : List (RemoteSdk I)),
        syncOutcome w (.ok listing) ≠ .error .panic := by
  refine ⟨fun upstream R h => ?_, fun s e x hs => ⟨hs.updateSdk e, hs.removeSdk x⟩,
    fun w L upstream hL hkeys => wellKeyed_of_mem_syncSteps hL hkeys upstream,
    panic_not_mem_syncSteps, fun w listing => ?_⟩
  · rcases upstream with err | listing
    · cases h
    · cases h
      exact ⟨wellKeyed_remoteStateOf listing, fun e he => (wellKeyed_remoteStateOf listing).getSdk_info he⟩
  · rcases hL : MemDbStash.parseStateFile w.syncState with err | L
    · rcases MemDbStash.parseStateFile_error hL with rfl | rfl <;> simp [syncOutcome, hL]
    · rw [syncOutcome_ok hL]
      exact nofun

/-- At a listing that names `1` twice, the remote state keeps the later entry and finds it;
from the sample stash, every state a run saves or installs is well keyed.
Source: `memdb/stash.rs` 96–116, 215–221, 331–398
Kind: N+ -/
theorem sync_keeps_key_invariant_sample :
    (remoteStateOf [sampleSdk 1 "b", sampleSdk 1 "c"]).getSdk 1 = some (sampleSdk 1 "c") ∧
      ∀ st ∈ syncSteps sampleStash (.ok [sampleSdk 1 "b", sampleSdk 2 "a"]), ∀ s,
        (st = .save s ∨ st = .install s) → s.WellKeyed :=
  ⟨(sync_keeps_key_invariant.1 (.ok [sampleSdk 1 "b", sampleSdk 1 "c"]) _ rfl).2 (sampleSdk 1 "c")
      (by decide),
    sync_keeps_key_invariant.2.2.1 sampleStash _ _ rfl (by decide)⟩

end SymbolServer.Memdb
