import SymbolServer.Memdb.Recovery

/-!
# What a stopped run of `sync` leaves to the next one

`sync` commits each download on its own: after the `k`-th download it saves the local state with
the first `k` remote entries written in. A run stopped anywhere has therefore saved the state of
some `k` committed downloads, and the next run against the same listing compares the listing
with that state. It downloads exactly the downloads the stopped run had not committed, in the
same order, and it ends by saving what one run that nothing stopped saves.

* `lookup_committed` — the state saved after `k` downloads holds, for each remote identity, its
  remote entry if it is among the first `k` downloads and its local entry otherwise.
* `downloads_committed` — against that state, the downloads are those after the first `k`.
* **`sync_resumes_where_stopped`** — after a run stopped anywhere, the next run against the same
  listing creates the files of the downloads after the ones the stopped run saved, and no other.
* **`sync_status_tracks_stopped_run`** — `get_sync_status` then reports as lag the downloads the
  stopped run did not commit, and as revision the old one plus its saves.
* **`sync_converges_after_stopped_runs`** — after `get_memdb` calls and runs against one listing,
  each stopped anywhere, the next run that ends saves what one run that nothing stopped would
  have saved: the reconciled map of the first state and the listing.
-/

set_option linter.unusedSectionVars false

namespace SymbolServer.Memdb

open SdkSyncState

variable {I : Type} [SdkInfo I]

/-! ## The state saved after the first downloads -/

/-- In a list without repeats, the elements not among the first `m` are those after them.
Source: none: infrastructure
Kind: L -/
theorem filter_not_mem_take {α : Type} [DecidableEq α] {l : List α} (hl : l.Nodup) (m : ℕ) :
    l.filter (fun y => decide (y ∉ l.take m)) = l.drop m := by
  calc l.filter (fun y => decide (y ∉ l.take m))
      = (l.take m ++ l.drop m).filter (fun y => decide (y ∉ l.take m)) := by
        rw [List.take_append_drop]
    _ = l.drop m := by
        rw [List.filter_append, List.filter_eq_nil_iff.mpr (fun y hy => by simpa using hy),
          List.filter_eq_self.mpr fun y hy => by
            simpa using fun h => List.disjoint_take_drop hl le_rfl h hy]
        rfl

section committed

variable {p : IgnorePatterns} {L R : SdkSyncState I} (hR : R.WellKeyed)

include hR

/-- **What the first `m` commits leave.** The state a run saves after its first `m` downloads
holds, under the file name of each remote identity, the remote entry when the identity is among
those downloads, and the local entry otherwise.
Source: `memdb/stash.rs` 343–366
Kind: L -/
theorem lookup_committed (m : ℕ) {y : I} (hy : y ∈ remoteSdks R) :
    (insertListed L.sdks (((downloads p L R).take m).filterMap R.getSdk)).lookup (memdbFilename y) =
      if y ∈ (downloads p L R).take m then R.getSdk y else L.getSdk y := by
  have hids := remoteIds_downloads (p := p) (L := L) hR
  have hes : ∀ e ∈ ((downloads p L R).take m).filterMap R.getSdk,
      R.sdks.lookup (memdbFilename e.info) = some e := fun e he => by
    obtain ⟨x, -, hxe⟩ := List.mem_filterMap.mp he
    exact hR.getSdk_info (mem_sdkValues.mpr ⟨_, hxe⟩)
  have hf := exists_mem_filterMap_getSdk fun x (hx : x ∈ (downloads p L R).take m) =>
    hids.found x (List.mem_of_mem_take hx)
  rw [lookup_insertListed _ hes]
  by_cases hm : y ∈ (downloads p L R).take m
  · rw [if_pos ((hf _).mpr ⟨y, hm, rfl⟩), if_pos hm, getSdk_eq]
  · -- file names of remote identities are distinct, so no committed download shares `y`'s
    refine (if_neg fun h => hm ?_).trans (if_neg hm).symm
    obtain ⟨x, hx, hxy⟩ := (hf _).mp h
    exact List.inj_on_of_nodup_map (remoteIds_remoteSdks hR).nodup
      (List.mem_of_mem_filter (List.mem_of_mem_take hx)) hy hxy ▸ hx

/-- **Against the state saved after `m` downloads, the downloads are those after the first
`m`**, in the same order.
Source: `memdb/stash.rs` 339–366
Kind: L -/
theorem downloads_committed (m : ℕ) (rev : Option UInt64) :
    downloads p ⟨insertListed L.sdks (((downloads p L R).take m).filterMap R.getSdk), rev⟩ R =
      (downloads p L R).drop m := by
  have hnd : (downloads p L R).Nodup := (remoteIds_downloads hR).nodup.of_map _
  calc downloads p ⟨insertListed L.sdks (((downloads p L R).take m).filterMap R.getSdk), rev⟩ R
      = (remoteSdks R).filter (fun y =>
          decide (y ∉ (downloads p L R).take m) && needsSync p L R y) :=
        List.filter_congr fun y hy => by
          have hget : SdkSyncState.getSdk ⟨insertListed L.sdks
              (((downloads p L R).take m).filterMap R.getSdk), rev⟩ y =
                if y ∈ (downloads p L R).take m then R.getSdk y else L.getSdk y :=
            lookup_committed hR m hy
          by_cases hm : y ∈ (downloads p L R).take m <;> simp [needsSync, hget, hm]
    _ = (downloads p L R).filter (fun y => decide (y ∉ (downloads p L R).take m)) := by
        rw [downloads, List.filter_filter]
    _ = (downloads p L R).drop m := filter_not_mem_take hnd m

end committed

/-! ## A run stopped anywhere, and the next one -/

section resume

variable {w : MemDbStash I} {L : SdkSyncState I} (hL : MemDbStash.parseStateFile w.syncState = .ok L)
  (hkeys : L.WellKeyed) (hinj : Function.Injective (memdbFilename : I → String))
  (listing : List (RemoteSdk I))

include hL hkeys hinj

/-- Wherever a run stops, `sync.state` holds a state against which the downloads are those of
the whole run after the first `k`, where `k` counts the states the stopped run saved: none
saved leaves the old state, the `k`-th save commits the `k`-th download, and the last save is
the final state, against which nothing is left.
Source: `memdb/stash.rs` 331–398
Kind: L -/
theorem downloads_after_take (n : ℕ) :
    ∃ s, MemDbStash.parseStateFile
        (runSteps ((syncSteps w (.ok listing)).take n) w).syncState = .ok s ∧
      downloads w.ignorePatterns s (remoteStateOf listing) =
        (downloads w.ignorePatterns L (remoteStateOf listing)).drop
          (((syncSteps w (.ok listing)).take n).filterMap Step.savedState).length := by
  have hR := wellKeyed_remoteStateOf listing
  have hpre := List.prefix_iff_eq_take.mp (written_take_prefix_full (w := w) (.ok listing) n)
  rw [syncState_runSteps]
  generalize ((syncSteps w (.ok listing)).take n).filterMap Step.savedState = saved at hpre ⊢
  rw [written_full hL] at hpre
  rcases saved.eq_nil_or_concat with rfl | ⟨init, t, rfl⟩
  · exact ⟨L, hL, rfl⟩
  -- the last state saved sits at position `init.length` of a complete run's saves
  have ht := congrArg (fun l => l[init.length]?) hpre
  simp only [List.concat_eq_append, List.getElem?_concat_length, List.length_append,
    List.length_singleton, List.getElem?_take, Nat.lt_succ_self, if_true] at ht
  refine ⟨t, by rw [List.concat_eq_append, List.foldl_append]; rfl, ?_⟩
  rw [List.concat_eq_append, List.length_append, List.length_singleton]
  rcases Nat.lt_or_ge init.length (downloads w.ignorePatterns L (remoteStateOf listing)).length
    with hlt | hge
  · -- the save of the `init.length + 1`-th download
    rw [List.getElem?_append_left (by simpa using hlt), List.getElem?_map,
      List.getElem?_range hlt] at ht
    cases ht
    exact downloads_committed hR _ _
  · -- the final save
    rw [List.getElem?_append_right (by simpa using hge)] at ht
    obtain ⟨-, rfl⟩ := List.getElem?_eq_some_iff.mp ht.symm
    rw [List.getElem_singleton, downloads_syncFinal hkeys hR hinj, List.drop_eq_nil_of_le (by omega)]

/-- **`sync` resumes where it stopped.** From a readable, well-keyed `sync.state` and distinct
file names, after a run against a listing stopped anywhere, the next run against the same
listing creates the files of the downloads of a whole run after the first `k`, in the same
order, where `k` counts the states the stopped run saved: a committed download is not fetched
again, and every other one is.
Source: `memdb/stash.rs` 331–398
Kind: P -/
theorem sync_resumes_where_stopped (n : ℕ) :
    (syncSteps (runSteps ((syncSteps w (.ok listing)).take n) w) (.ok listing)).filterMap
        Step.createdSdk =
      ((downloads w.ignorePatterns L (remoteStateOf listing)).drop
          (((syncSteps w (.ok listing)).take n).filterMap Step.savedState).length).filterMap
        (remoteStateOf listing).getSdk := by
  obtain ⟨s, hs, hds⟩ := downloads_after_take hL hkeys hinj listing n
  have hR := wellKeyed_remoteStateOf listing
  rw [syncSteps_eq hs, runSteps_ignorePatterns, List.filterMap_append, List.filterMap_cons_none rfl,
    downloadAll_creates _ _ (remoteIds_downloads hR).isSome, hds]
  exact List.append_nil _

/-- **The status a stopped run leaves accounts for its progress.** From a readable, well-keyed
`sync.state` and distinct file names, after a run against a listing stopped anywhere,
`get_sync_status` against the same listing reports a lag of the downloads of a whole run less
the `k` states the stopped run saved, and the revision `sync.state` had plus `k`.
Source: `memdb/stash.rs` 126–128, 283–324, 331–398
Kind: P -/
theorem sync_status_tracks_stopped_run (n : ℕ) :
    ∃ st, (getSyncStatus (.ok listing)
        (runSteps ((syncSteps w (.ok listing)).take n) w)).1 = .ok st ∧
      st.lag = .ofNat ((downloads w.ignorePatterns L (remoteStateOf listing)).length -
        (((syncSteps w (.ok listing)).take n).filterMap Step.savedState).length) ∧
      st.revision = storedRevision w +
        .ofNat (((syncSteps w (.ok listing)).take n).filterMap Step.savedState).length := by
  obtain ⟨s, hs, hds⟩ := downloads_after_take hL hkeys hinj listing n
  refine ⟨_, getSyncStatus_ok hs listing, ?_, ?_⟩
  · -- the lag counts the downloads left against the state the stopped run saved last
    show UInt32.ofNat _ + UInt32.ofNat _ = _
    rw [UInt32.ofNat_add_ofNat, runSteps_ignorePatterns,
      ← length_downloads (wellKeyed_remoteStateOf listing), hds, List.length_drop]
  · show s.revision.getD 0 = _
    rw [← (revisions_stopped_run (.ok listing) n).2, storedRevision, hs]

end resume

/-- The sample run against a listing where `1` changed and `2` is new, stopped after it
committed `2`: the next run downloads only `1`.
Source: `memdb/stash.rs` 331–398
Kind: N+ -/
theorem sync_resumes_where_stopped_sample :
    (syncSteps (runSteps ((syncSteps sampleStash (.ok [sampleSdk 1 "b", sampleSdk 2 "c"])).take 5)
        sampleStash) (.ok [sampleSdk 1 "b", sampleSdk 2 "c"])).filterMap Step.createdSdk =
      [sampleSdk 1 "b"] := by
  rw [sync_resumes_where_stopped (w := sampleStash) rfl (by decide) memdbFilename_nat_injective]
  decide

/-- The sample run stopped after it committed `2`: the status reports one download left and
the revision one past the sample's.
Source: `memdb/stash.rs` 126–128, 283–324, 331–398
Kind: N+ -/
theorem sync_status_tracks_stopped_run_sample :
    (getSyncStatus (.ok [sampleSdk 1 "b", sampleSdk 2 "c"])
        (runSteps ((syncSteps sampleStash (.ok [sampleSdk 1 "b", sampleSdk 2 "c"])).take 5)
          sampleStash)).1 = .ok ⟨2, 0, 1, 1, false⟩ ∧
    ∃ st, (getSyncStatus (.ok [sampleSdk 1 "b", sampleSdk 2 "c"])
        (runSteps ((syncSteps sampleStash (.ok [sampleSdk 1 "b", sampleSdk 2 "c"])).take 5)
          sampleStash)).1 = .ok st ∧ st.lag = 1 :=
  ⟨by decide,
    let ⟨st, hst, hlag, _⟩ := sync_status_tracks_stopped_run (w := sampleStash) rfl (by decide)
      memdbFilename_nat_injective [sampleSdk 1 "b", sampleSdk 2 "c"] 5
    ⟨st, hst, hlag.trans (by decide)⟩⟩

/-! ## Stopped runs do not change what the run that ends saves -/

/-- `s` holds what `L` holds under the file name of each ignored identity of `R`.
Source: `memdb/stash.rs` 344–347, 378–394
Kind: D -/
def SameOnIgnored (p : IgnorePatterns) (R L s : SdkSyncState I) : Prop :=
  ∀ k r, R.sdks.lookup k = some r → sdkIsIgnored p r.info = true →
    s.sdks.lookup k = L.sdks.lookup k

/-- Keeping the ignored entries of `L`, then of that state, keeps those of `L`.
Source: none: infrastructure
Kind: L -/
theorem SameOnIgnored.trans {p : IgnorePatterns} {R L s t : SdkSyncState I}
    (h₁ : SameOnIgnored p R L s) (h₂ : SameOnIgnored p R s t) : SameOnIgnored p R L t :=
  fun k r hr hi => (h₂ k r hr hi).trans (h₁ k r hr hi)

/-- The reconciled map reads the local state only under the names of ignored identities.
Source: spec §4.3 steps 3–4
Kind: L -/
theorem reconciled_congr {p : IgnorePatterns} {R L s : SdkSyncState I}
    (h : SameOnIgnored p R L s) (k : String) : reconciled p s R k = reconciled p L R k := by
  rw [reconciled, reconciled]
  rcases hr : R.sdks.lookup k with _ | r
  · rfl
  · dsimp only
    split_ifs with hi
    exacts [h k r hr hi, rfl]

/-- Every state a run saves holds, under the name of each ignored listed identity, what the
state it started from holds: the downloads skip ignored identities, and the final state keeps
their local entries.
Source: `memdb/stash.rs` 343–395
Kind: L -/
theorem sameOnIgnored_of_save_mem {w : MemDbStash I} {L : SdkSyncState I}
    (hL : MemDbStash.parseStateFile w.syncState = .ok L) (hkeys : L.WellKeyed)
    (hinj : Function.Injective (memdbFilename : I → String)) {listing : List (RemoteSdk I)}
    {t : SdkSyncState I} (ht : Step.save t ∈ syncSteps w (.ok listing)) :
    SameOnIgnored w.ignorePatterns (remoteStateOf listing) L t := by
  have hR := wellKeyed_remoteStateOf listing
  have hids := remoteIds_downloads (p := w.ignorePatterns) (L := L) hR
  intro k r hr hi
  rcases (mem_syncSteps hL).mp ht with h | h | h | h
  · cases h
  · -- a download's save: the ignored identity is not among the committed downloads
    have hmem : t ∈ (downloadAll (remoteStateOf listing)
        (downloads w.ignorePatterns L (remoteStateOf listing)) L).1.filterMap Step.savedState :=
      List.mem_filterMap.mpr ⟨_, h, rfl⟩
    rw [downloadAll_saves _ _ hids.isSome] at hmem
    obtain ⟨j, -, rfl⟩ := List.mem_map.mp hmem
    have hk := hR.key_eq hr
    have hrmem : r.info ∈ remoteSdks (remoteStateOf listing) :=
      (mem_remoteSdks hR).mpr ⟨r, by rw [getSdk_eq, hk, hr], rfl⟩
    have hnot : r.info ∉ (downloads w.ignorePatterns L (remoteStateOf listing)).take (j + 1) :=
      fun hx => by simpa [needsSync, hi] using (List.mem_filter.mp (List.mem_of_mem_take hx)).2
    show (insertListed L.sdks _).lookup k = _
    rw [← hk, lookup_committed hR _ hrmem, if_neg hnot, getSdk_eq]
  · cases h
    rw [lookup_syncFinal hkeys hR hinj, reconciled, hr]
    simp [hi]
  · cases h

/-- `sync.state` is readable and well keyed and holds what `L` holds under the name of each
ignored identity of `R`; the ignore patterns are `p`.
Source: none: infrastructure
Kind: D -/
structure Converging (p : IgnorePatterns) (R L : SdkSyncState I) (w : MemDbStash I) : Prop where
  patterns : w.ignorePatterns = p
  state : ∃ s, MemDbStash.parseStateFile w.syncState = .ok s ∧ s.WellKeyed ∧ SameOnIgnored p R L s

/-- A stopped run against the listing keeps the stash converging.
Source: `memdb/stash.rs` 171–181, 331–398
Kind: L -/
theorem Converging.take {p : IgnorePatterns} {L : SdkSyncState I} {listing : List (RemoteSdk I)}
    {w : MemDbStash I} (hinj : Function.Injective (memdbFilename : I → String))
    (h : Converging p (remoteStateOf listing) L w) (n : ℕ) :
    Converging p (remoteStateOf listing) L (runSteps ((syncSteps w (.ok listing)).take n) w) := by
  obtain ⟨rfl, s, hs, hk, hsame⟩ := h
  refine ⟨runSteps_ignorePatterns _ w, ?_⟩
  obtain ⟨t, ht, rfl | hsave⟩ := exists_parseStateFile_runSteps hs ((syncSteps w (.ok listing)).take n)
  · exact ⟨t, ht, hk, hsame⟩
  have hsave' := List.mem_of_mem_take hsave
  exact ⟨t, ht, wellKeyed_of_mem_syncSteps hs hk _ _ hsave' t (.inl rfl),
    hsame.trans (sameOnIgnored_of_save_mem hs hk hinj hsave')⟩

/-- **Stopped runs do not change what `sync` converges to.** From a readable, well-keyed
`sync.state` `L` and distinct file names, after any sequence of `get_memdb` calls and runs of
`sync`, each stopped anywhere, where every listing a run fetches is `listing`, the next run
against `listing` that takes all its steps saves the reconciled map of `L` and the listing, key
by key: what one run from `L` that nothing stopped saves.
Source: `memdb/stash.rs` 331–427; spec §8 "Set-diff correctness"
Kind: P -/
theorem sync_converges_after_stopped_runs {w : MemDbStash I} {L : SdkSyncState I}
    (hL : MemDbStash.parseStateFile w.syncState = .ok L) (hkeys : L.WellKeyed)
    (hinj : Function.Injective (memdbFilename : I → String)) (listing : List (RemoteSdk I))
    (ops : List (Op I))
    (hops : ∀ run, Op.sync run ∈ ops → ∀ l, run.upstream = .ok l → l = listing) :
    ∃ s, MemDbStash.parseStateFile
        (runSteps (syncSteps (runOps ops w) (.ok listing)) (runOps ops w)).syncState = .ok s ∧
      ∀ k, s.sdks.lookup k = reconciled w.ignorePatterns L (remoteStateOf listing) k := by
  have h0 : Converging w.ignorePatterns (remoteStateOf listing) L w :=
    ⟨rfl, L, hL, hkeys, fun _ _ _ _ => rfl⟩
  obtain ⟨hp, s, hs, hk, hsame⟩ := runOps_preserves (fun h => let ⟨s, hs, _⟩ := h.state; ⟨s, hs⟩)
    (fun h hd => ⟨hd.3.trans h.1, by rw [hd.2]; exact h.2⟩) (fun n h => h.take hinj n) ops h0 hops
  refine ⟨syncFinal (runOps ops w).ignorePatterns s (remoteStateOf listing), ?_, fun k => ?_⟩
  · rw [syncSteps_eq hs, (runSteps_save_install _ _ _).1]; rfl
  · rw [lookup_syncFinal hk (wellKeyed_remoteStateOf listing) hinj, hp, reconciled_congr hsame]

/-- After the sample's stopped run and call, a run against the same listing that ends saves
`1`'s new entry, as one run from the sample stash would.
Source: `memdb/stash.rs` 331–427; spec §8 "Set-diff correctness"
Kind: N+ -/
theorem sync_converges_after_stopped_runs_sample :
    ∃ s, MemDbStash.parseStateFile (runSteps (syncSteps (runOps sampleStoppedOps sampleStash)
        (.ok [sampleSdk 1 "b"])) (runOps sampleStoppedOps sampleStash)).syncState = .ok s ∧
      ∀ k, s.sdks.lookup k = reconciled sampleStash.ignorePatterns
        (SdkSyncState.empty.updateSdk (sampleSdk 1 "a")) (remoteStateOf [sampleSdk 1 "b"]) k :=
  sync_converges_after_stopped_runs (w := sampleStash) rfl (by decide) memdbFilename_nat_injective _
    sampleStoppedOps
    (by simp [sampleStoppedOps])

end SymbolServer.Memdb
