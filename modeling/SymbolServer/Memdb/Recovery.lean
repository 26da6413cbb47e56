import SymbolServer.Memdb.Crash
import SymbolServer.Memdb.GetMemdb

/-!
# Damaged files over many runs, and how `sync` repairs them

A run that stops inside a download leaves the file of the identity it was downloading damaged
while `sync.state` still records the old entry (`Crash.lean`). The next run never looks at the
files: it downloads an identity again only when the listing's entry differs from the recorded
one. So the damage is repaired when the upstream entry is still the one whose download was cut
off, and stays when upstream has gone back to the recorded entry.

The proofs compare a stash with its ideal copy, whose files hold exactly the entries
`sync.state` records. Both run the same steps, since `syncSteps` reads `sync.state` and never
the files; afterwards they agree on every file a step wrote. The one-run invariant of
`Crash.lean`, applied to the ideal copy, then speaks about the real one.

* `IntactExcept` — `sync.state` reads as a well-keyed state, and every identity it records has
  its complete file, except those whose file is in a given list.
* `RepairableBy` — every recorded identity has its complete file, or a run against the given
  remote state downloads an identity into that file.
* `recorded_after_take` — wherever a run stops, a recorded identity other than the one being
  downloaded has its complete file if a step wrote it, and otherwise kept its entry and file.
* **`stash_damage_only_stopped_downloads`** — any sequence of `get_memdb` calls and runs of
  `sync`, against any listings and each stopped anywhere, leaves an intact stash intact except
  the files of the downloads the runs stopped in, at most one a run.
* `runOps_preserves` — what every stopped run against one listing keeps, and calls keep, holds
  after any sequence of them.
* **`sync_heals_after_stopped_runs`** — after `get_memdb` calls and runs against one listing,
  each stopped anywhere, the next run against that listing that ends leaves every recorded
  identity with its complete file.
-/

set_option linter.unusedSectionVars false

namespace SymbolServer.Memdb

open SdkSyncState

variable {I : Type} [SdkInfo I]

/-! ## Damage by file name -/

/-- `sync.state` reads as a well-keyed state, and every identity it records has the complete
content of its recorded entry on disk, except those whose memdb file is in `damaged`.
Source: `memdb/stash.rs` 183–198, 236–239; spec §6
Kind: D -/
def IntactExcept (w : MemDbStash I) (damaged : List String) : Prop :=
  ∃ s, MemDbStash.parseStateFile w.syncState = .ok s ∧ s.WellKeyed ∧
    ∀ x ∈ s.sdks.entries, x.1 ∉ damaged → w.files x.1 = some (.full x.2)

/-- Whether a stash is intact is decided on the state `sync.state` holds.
Source: none: infrastructure
Kind: L -/
instance (w : MemDbStash I) (damaged : List String) : Decidable (IntactExcept w damaged) :=
  match h : MemDbStash.parseStateFile w.syncState with
  | .error _ => isFalse fun ⟨_, hs, _⟩ => by rw [h] at hs; cases hs
  | .ok s =>
    decidable_of_iff (s.WellKeyed ∧
        ∀ x ∈ s.sdks.entries, x.1 ∉ damaged → w.files x.1 = some (.full x.2))
      ⟨fun hc => ⟨s, h, hc⟩, fun ⟨_, hs, hc⟩ => by rw [h] at hs; cases hs; exact hc⟩

/-- Allowing more damaged files keeps a stash intact.
Source: none: infrastructure
Kind: L -/
theorem IntactExcept.mono {w : MemDbStash I} {D D' : List String} (h : IntactExcept w D)
    (hsub : ∀ k ∈ D, k ∈ D') : IntactExcept w D' :=
  let ⟨s, hs, hk, hc⟩ := h
  ⟨s, hs, hk, fun x hx hn => hc x hx fun hm => hn (hsub _ hm)⟩

/-- Two stashes with the same files, `sync.state` and ignore patterns.
Source: none: infrastructure
Kind: D -/
structure SameDisk (a b : MemDbStash I) : Prop where
  files : a.files = b.files
  syncState : a.syncState = b.syncState
  ignorePatterns : a.ignorePatterns = b.ignorePatterns

/-- Having the same disk is transitive.
Source: none: infrastructure
Kind: L -/
theorem SameDisk.trans {a b c : MemDbStash I} (h₁ : SameDisk a b) (h₂ : SameDisk b c) :
    SameDisk a c :=
  ⟨h₁.1.trans h₂.1, h₁.2.trans h₂.2, h₁.3.trans h₂.3⟩

/-- Whether a stash is intact depends only on its files and `sync.state`.
Source: none: infrastructure
Kind: L -/
theorem IntactExcept.of_disk {w w' : MemDbStash I} {D : List String} (h : IntactExcept w D)
    (hd : SameDisk w' w) : IntactExcept w' D := by
  rw [IntactExcept, hd.files, hd.syncState]; exact h

/-! ## Files a step writes, and files it leaves -/

/-- A step that writes another file, or none, leaves the file `k` alone.
Source: `memdb/stash.rs` 236–239, 382
Kind: L -/
theorem Step.apply_files_of_ne {st : Step I} {k : String} (h : st.fileName ≠ some k)
    (w : MemDbStash I) : (st.apply w).files k = w.files k := by
  cases st with
  | create e | copy e | removeFile e =>
    exact Function.update_noteq (fun he => h (by rw [Step.fileName, he])) _ _
  | install _ | evict _ | save _ | panic => rfl

/-- What a step that writes the file `k` leaves there does not depend on what was there.
Source: `memdb/stash.rs` 236–239, 382
Kind: L -/
theorem Step.apply_files_of_eq {st : Step I} {k : String} (h : st.fileName = some k)
    (a b : MemDbStash I) : (st.apply a).files k = (st.apply b).files k := by
  cases st with
  | create e | copy e | removeFile e =>
    obtain rfl : memdbFilename e.info = k := Option.some.inj h
    simp only [Step.apply, Function.update_same]
  | install _ | evict _ | save _ | panic => cases h

/-- Steps that write other files leave file `k` as it is.
Source: none: infrastructure
Kind: L -/
theorem runSteps_files_of_forall_ne {k : String} :
    ∀ (steps : List (Step I)) (w : MemDbStash I), (∀ st ∈ steps, st.fileName ≠ some k) →
      (runSteps steps w).files k = w.files k
  | [], _, _ => rfl
  | st :: rest, w, h =>
    (runSteps_files_of_forall_ne rest _ fun st' hm => h st' (List.mem_cons_of_mem _ hm)).trans
      (st.apply_files_of_ne (h st (List.mem_cons_self _ _)) w)

/-- After steps that write the file `k`, what it holds does not depend on the stash they ran
from: the last write decides.
Source: `memdb/stash.rs` 236–239, 382
Kind: L -/
theorem runSteps_files_of_written {k : String} :
    ∀ {steps : List (Step I)}, (∃ st ∈ steps, st.fileName = some k) → ∀ a b : MemDbStash I,
      (runSteps steps a).files k = (runSteps steps b).files k
  | [], ⟨_, h, _⟩, _, _ => by cases h
  | st :: rest, ⟨st', hm, hk⟩, a, b => by
    by_cases hr : ∃ st'' ∈ rest, st''.fileName = some k
    · exact runSteps_files_of_written hr _ _
    have hst : st.fileName = some k := by
      rcases List.mem_cons.mp hm with rfl | hm
      · exact hk
      · exact absurd ⟨st', hm, hk⟩ hr
    push_neg at hr
    rw [runSteps_cons, runSteps_cons, runSteps_files_of_forall_ne rest _ hr,
      runSteps_files_of_forall_ne rest _ hr]
    exact st.apply_files_of_eq hst a b

/-- `sync.state` after some steps depends only on `sync.state` before them.
Source: none: infrastructure
Kind: L -/
theorem syncState_runSteps_congr (steps : List (Step I)) {a b : MemDbStash I}
    (h : a.syncState = b.syncState) : (runSteps steps a).syncState = (runSteps steps b).syncState := by
  rw [syncState_runSteps, syncState_runSteps, h]

/-- Steps never make a readable `sync.state` unreadable: afterwards it holds the state it held
before or one of the states they save.
Source: `memdb/stash.rs` 171–181
Kind: L -/
theorem exists_parseStateFile_runSteps {w : MemDbStash I} {L : SdkSyncState I}
    (hL : MemDbStash.parseStateFile w.syncState = .ok L) (steps : List (Step I)) :
    ∃ s, MemDbStash.parseStateFile (runSteps steps w).syncState = .ok s ∧
      (s = L ∨ Step.save s ∈ steps) := by
  rw [syncState_runSteps]
  rcases (steps.filterMap Step.savedState).eq_nil_or_concat with h | ⟨l, s, h⟩
  · exact ⟨L, by rw [h]; exact hL, .inl rfl⟩
  refine ⟨s, by rw [h, List.concat_eq_append, List.foldl_append]; rfl, .inr ?_⟩
  have hmem : s ∈ steps.filterMap Step.savedState := by
    rw [h, List.concat_eq_append]; exact List.mem_concat_self l s
  obtain ⟨st, hst, hs⟩ := List.mem_filterMap.mp hmem
  cases st <;> cases hs
  exact hst

/-- `get_local_state` touches neither the files nor `sync.state`, and keeps the ignore patterns.
Source: `memdb/stash.rs` 183–206
Kind: L -/
theorem getLocalState_keeps_disk (w : MemDbStash I) : SameDisk w.getLocalState.2 w := by
  unfold MemDbStash.getLocalState MemDbStash.readLocalState
  repeat' split
  all_goals exact ⟨rfl, rfl, rfl⟩

/-- `get_memdb` touches neither the files nor `sync.state`, and keeps the ignore patterns.
Source: `memdb/stash.rs` 183–206, 400–427
Kind: L -/
theorem getMemdb_keeps_disk (info : I) (w : MemDbStash I) : SameDisk (getMemdb info w).2 w := by
  obtain ⟨hf, hs, hi⟩ := getLocalState_keeps_disk w
  unfold getMemdb
  generalize w.getLocalState = g at hf hs hi
  obtain ⟨r, w'⟩ := g
  repeat' split
  all_goals constructor <;> simp_all

/-! ## The ideal copy -/

/-- The stash with its files replaced by the complete entries `s` records, and no others.
Source: none: infrastructure
Kind: D -/
def MemDbStash.withRecordedFiles (w : MemDbStash I) (s : SdkSyncState I) : MemDbStash I :=
  { w with files := fun k => (s.sdks.lookup k).map .full }

/-- The ideal copy runs the same steps: `syncSteps` never reads the files.
Source: `memdb/stash.rs` 331–398
Kind: L -/
theorem syncSteps_withRecordedFiles (w : MemDbStash I) (s : SdkSyncState I)
    (upstream : Except ErrorKind (List (RemoteSdk I))) :
    syncSteps (w.withRecordedFiles s) upstream = syncSteps w upstream := rfl

/-- A stash whose recorded files are all complete has them recorded complete.
Source: none: infrastructure
Kind: L -/
theorem recordedComplete_withRecordedFiles {w : MemDbStash I} {L : SdkSyncState I}
    (hL : MemDbStash.parseStateFile w.syncState = .ok L) (hkeys : L.WellKeyed) :
    RecordedComplete (w.withRecordedFiles L) none := fun s hs e he _ => by
  rw [show (w.withRecordedFiles L).syncState = w.syncState from rfl, hL] at hs
  cases hs
  show (L.sdks.lookup _).map _ = _
  rw [← getSdk_eq, hkeys.getSdk_info he]
  rfl

/-! ## One run, stopped anywhere -/

section run

variable {w : MemDbStash I} {L : SdkSyncState I}
  (hL : MemDbStash.parseStateFile w.syncState = .ok L) (hkeys : L.WellKeyed)
  (upstream : Except ErrorKind (List (RemoteSdk I))) (n : ℕ)

include hL hkeys in
/-- **What a stopped run leaves, identity by identity.** Wherever a run from a readable,
well-keyed `sync.state` stops, the state then recorded is well keyed, and each identity it
records, other than the one whose download was cut off, has its complete file if a step wrote
that file; otherwise no step wrote it, and the identity keeps both the entry and the file it had
before the run.
Source: `memdb/stash.rs` 171–181, 223–247, 331–398
Kind: L -/
theorem recorded_after_take {s : SdkSyncState I}
    (hs : MemDbStash.parseStateFile
      (runSteps ((syncSteps w upstream).take n) w).syncState = .ok s) :
    s.WellKeyed ∧ ∀ x ∈ s.sdks.entries, some x.1 ≠ pendingFile ((syncSteps w upstream).take n) →
      (runSteps ((syncSteps w upstream).take n) w).files x.1 = some (.full x.2) ∨
        (∀ st ∈ (syncSteps w upstream).take n, st.fileName ≠ some x.1) ∧ x ∈ L.sdks.entries ∧
          (runSteps ((syncSteps w upstream).take n) w).files x.1 = w.files x.1 := by
  -- the crash invariant of `Crash.lean`, for the ideal copy
  have hideal := holdsThroughout_take (holdsThroughout_syncSteps (w := w.withRecordedFiles L) hL
    hkeys (recordedComplete_withRecordedFiles hL hkeys) upstream).1 n
  rw [syncSteps_withRecordedFiles] at hideal
  obtain ⟨hwk, hc⟩ := hideal s
    (by rw [syncState_runSteps_congr (a := w.withRecordedFiles L) (b := w) _ rfl]; exact hs)
  refine ⟨hwk, fun x hx hp => ?_⟩
  have hfull := hc x.1 x.2 (AList.mem_lookup_iff.mpr hx) hp
  by_cases hw : ∃ st ∈ (syncSteps w upstream).take n, st.fileName = some x.1
  · exact .inl ((runSteps_files_of_written hw _ _).trans hfull)
  push_neg at hw
  rw [runSteps_files_of_forall_ne _ _ hw] at hfull
  refine .inr ⟨hw, AList.mem_lookup_iff.mp ?_, runSteps_files_of_forall_ne _ w hw⟩
  simpa [MemDbStash.withRecordedFiles] using hfull

end run

/-- One run, stopped anywhere, from a stash intact except `D`, leaves it intact except `D` and
the file of the download it stopped in.
Source: `memdb/stash.rs` 171–181, 223–247, 331–398
Kind: L -/
theorem IntactExcept.take {w : MemDbStash I} {D : List String} (h : IntactExcept w D)
    (upstream : Except ErrorKind (List (RemoteSdk I))) (n : ℕ) :
    IntactExcept (runSteps ((syncSteps w upstream).take n) w)
      ((pendingFile ((syncSteps w upstream).take n)).toList ++ D) := by
  obtain ⟨L, hL, hkeys, hc⟩ := h
  obtain ⟨s, hs, -⟩ := exists_parseStateFile_runSteps hL ((syncSteps w upstream).take n)
  obtain ⟨hwk, hrec⟩ := recorded_after_take hL hkeys upstream n hs
  refine ⟨s, hs, hwk, fun x hx hD => ?_⟩
  rw [List.mem_append, not_or, Option.mem_toList] at hD
  rcases hrec x hx (fun h => hD.1 h.symm) with hfull | ⟨-, hxL, hfile⟩
  · exact hfull
  · exact hfile.trans (hc x hxL hD.2)

/-! ## Any sequence of runs and calls -/

/-- The file of the download an operation stopped in: none for a `get_memdb` call.
Source: `memdb/stash.rs` 236–239, 331–398
Kind: D -/
def Op.stoppedFile : Op I → MemDbStash I → Option String
  | .get _, _ => none
  | .sync run, w => pendingFile (run.steps w)

/-- The files of the downloads the runs among `ops` stopped in, in order.
Source: `memdb/stash.rs` 236–239, 331–398
Kind: D -/
def stoppedFiles : List (Op I) → MemDbStash I → List String
  | [], _ => []
  | op :: ops, w => (op.stoppedFile w).toList ++ stoppedFiles ops (op.apply w)

/-- A run never stops in a download once it has taken all its steps: its last steps are a save
and the snapshot.
Source: `memdb/stash.rs` 393–395
Kind: L -/
theorem pendingFile_syncSteps (w : MemDbStash I)
    (upstream : Except ErrorKind (List (RemoteSdk I))) :
    pendingFile (syncSteps w upstream) = none := by
  rcases hL : MemDbStash.parseStateFile w.syncState with _ | L
  · simp only [syncSteps, hL]; rfl
  rcases upstream with err | listing
  · rw [syncSteps_fetch_error hL]; rfl
  · rw [syncSteps_eq hL, pendingFile, List.foldl_append]; rfl

/-- Operations stopped anywhere keep a stash intact except for the files they leave partial.
Source: `memdb/stash.rs` 171–261, 331–398
Kind: L -/
theorem intactExcept_runOps :
    ∀ (ops : List (Op I)) {w : MemDbStash I} {D : List String}, IntactExcept w D →
      IntactExcept (runOps ops w) (stoppedFiles ops w ++ D)
  | [], _, _, h => h
  | op :: ops, w, D, h => by
    have h1 : IntactExcept (op.apply w) ((op.stoppedFile w).toList ++ D) := by
      cases op with
      | get info => exact h.of_disk (getMemdb_keeps_disk info w)
      | sync run => exact h.take run.upstream run.stop
    refine (intactExcept_runOps ops h1).mono fun k hk => ?_
    simp only [stoppedFiles, List.mem_append] at hk ⊢
    tauto

/-- **Damage stays where runs stopped.** From a stash whose `sync.state` is readable and well
keyed and whose recorded identities all have their complete files, any sequence of `get_memdb`
calls and runs of `sync` — against any listings, each stopped anywhere by an error or a crash —
leaves `sync.state` readable and well keyed, and every identity it records with its complete
file, except the files of the downloads the runs stopped in: at most one a run, none for a run
that ends (`pendingFile_syncSteps`).
Source: `memdb/stash.rs` 171–261, 331–427
Kind: P -/
theorem stash_damage_only_stopped_downloads {w : MemDbStash I} (h : IntactExcept w [])
    (ops : List (Op I)) : IntactExcept (runOps ops w) (stoppedFiles ops w) := by
  have h' := intactExcept_runOps ops h
  rwa [List.append_nil] at h'

/-- A run against a listing where `1` changed, stopped right after `1`'s `File::create`, then a
`get_memdb(1)` call.
Source: none: test data
Kind: D -/
def sampleStoppedOps : List (Op ℕ) :=
  [.sync ⟨.ok [sampleSdk 1 "b"], 2⟩, .get 1]

/-- From the sample stash, the stopped run leaves `1`'s file damaged, and only that file.
Source: `memdb/stash.rs` 171–261, 331–427
Kind: N+ -/
theorem stash_damage_only_stopped_downloads_sample :
    stoppedFiles sampleStoppedOps sampleStash = [memdbFilename 1] ∧
      ¬ IntactExcept (runOps sampleStoppedOps sampleStash) [] ∧
      IntactExcept (runOps sampleStoppedOps sampleStash) (stoppedFiles sampleStoppedOps sampleStash) :=
  ⟨by decide, by decide, stash_damage_only_stopped_downloads (by decide) sampleStoppedOps⟩

/-! ## Repair by a run that ends -/

/-- Every identity `sync.state` records has its complete file, or a run against the remote
state `R` from this state downloads an identity into that file.
Source: `memdb/stash.rs` 339–360; spec §6
Kind: D -/
def RepairableBy (R : SdkSyncState I) (w : MemDbStash I) : Prop :=
  ∃ s, MemDbStash.parseStateFile w.syncState = .ok s ∧ s.WellKeyed ∧
    ∀ x ∈ s.sdks.entries, w.files x.1 = some (.full x.2) ∨
      ∃ y ∈ downloads w.ignorePatterns s R, memdbFilename y = x.1

/-- Whether a run can repair a stash is decided on the state `sync.state` holds.
Source: none: infrastructure
Kind: L -/
instance (R : SdkSyncState I) (w : MemDbStash I) : Decidable (RepairableBy R w) :=
  match h : MemDbStash.parseStateFile w.syncState with
  | .error _ => isFalse fun ⟨_, hs, _⟩ => by rw [h] at hs; cases hs
  | .ok s =>
    decidable_of_iff (s.WellKeyed ∧ ∀ x ∈ s.sdks.entries, w.files x.1 = some (.full x.2) ∨
        ∃ y ∈ downloads w.ignorePatterns s R, memdbFilename y = x.1)
      ⟨fun hc => ⟨s, h, hc⟩, fun ⟨_, hs, hc⟩ => by rw [h] at hs; cases hs; exact hc⟩

/-- An intact stash can be repaired by any run: every recorded file is complete already.
Source: none: infrastructure
Kind: L -/
theorem IntactExcept.repairableBy {w : MemDbStash I} (h : IntactExcept w []) (R : SdkSyncState I) :
    RepairableBy R w :=
  let ⟨s, hs, hk, hc⟩ := h
  ⟨s, hs, hk, fun x hx => .inl (hc x hx (List.not_mem_nil _))⟩

/-- Whether a run can repair a stash depends only on its disk.
Source: none: infrastructure
Kind: L -/
theorem RepairableBy.of_disk {R : SdkSyncState I} {w w' : MemDbStash I} (h : RepairableBy R w)
    (hd : SameDisk w' w) : RepairableBy R w' := by
  rw [RepairableBy, hd.files, hd.syncState, hd.ignorePatterns]; exact h

/-- Whether a run downloads `y` depends only on the entry the state holds for `y`.
Source: `memdb/stash.rs` 344–360
Kind: L -/
theorem mem_downloads_congr {p : IgnorePatterns} {s L R : SdkSyncState I} {y : I}
    (h : s.getSdk y = L.getSdk y) : y ∈ downloads p s R ↔ y ∈ downloads p L R := by
  simp only [downloads, List.mem_filter, needsSync, h]

/-- A run downloads into the file of each identity it downloads: its `create` is among the
steps.
Source: `memdb/stash.rs` 236, 349
Kind: L -/
theorem exists_write_of_mem_downloads {w : MemDbStash I} {L : SdkSyncState I}
    (hL : MemDbStash.parseStateFile w.syncState = .ok L) {listing : List (RemoteSdk I)} {y : I}
    (hy : y ∈ downloads w.ignorePatterns L (remoteStateOf listing)) :
    ∃ st ∈ syncSteps w (.ok listing), st.fileName = some (memdbFilename y) := by
  have hids := remoteIds_downloads (p := w.ignorePatterns) (L := L)
    (wellKeyed_remoteStateOf listing)
  obtain ⟨e, he, rfl⟩ := hids.found y hy
  have hc : e ∈ (downloadAll (remoteStateOf listing)
      (downloads w.ignorePatterns L (remoteStateOf listing)) L).1.filterMap Step.createdSdk := by
    rw [downloadAll_creates _ _ hids.isSome]
    exact List.mem_filterMap.mpr ⟨e.info, hy, he⟩
  obtain ⟨st, hst, hcr⟩ := List.mem_filterMap.mp hc
  refine ⟨st, (mem_syncSteps hL).mpr (.inr (.inl hst)), ?_⟩
  cases st <;> cases hcr
  rfl

/-- **A run that ends repairs what it downloads.** From a stash that is repairable by the
remote state of the listing, a run against that listing that takes all its steps leaves
`sync.state` well keyed and every identity it records with its complete file.
Source: `memdb/stash.rs` 223–247, 331–398
Kind: L -/
theorem RepairableBy.complete {w : MemDbStash I} {listing : List (RemoteSdk I)}
    (h : RepairableBy (remoteStateOf listing) w) :
    IntactExcept (runSteps (syncSteps w (.ok listing)) w) [] := by
  obtain ⟨L, hL, hkeys, hrep⟩ := h
  have hall := List.take_length (syncSteps w (.ok listing))
  obtain ⟨s, hs, -⟩ := exists_parseStateFile_runSteps hL (syncSteps w (.ok listing))
  obtain ⟨hwk, hrec⟩ :=
    recorded_after_take hL hkeys (.ok listing) (syncSteps w (.ok listing)).length (by rwa [hall])
  rw [hall, pendingFile_syncSteps] at hrec
  refine ⟨s, hs, hwk, fun x hx _ => ?_⟩
  rcases hrec x hx (Option.some_ne_none _) with hfull | ⟨hun, hxL, hfile⟩
  · exact hfull
  rcases hrep x hxL with hfull | ⟨y, hy, hyx⟩
  · exact hfile.trans hfull
  · -- the run downloads `y`, so some step wrote its file
    obtain ⟨st, hst, hk⟩ := exists_write_of_mem_downloads hL hy
    exact absurd (hyx ▸ hk) (hun st hst)

/-! ## The file being downloaded is downloaded again -/

/-- The file a download has begun to overwrite, if any, is that of an identity a run against
`R` from the state `sync.state` records downloads.
Source: `memdb/stash.rs` 223–247, 343–366
Kind: D -/
def PendingRefetched (R : SdkSyncState I) (w : MemDbStash I) (p : Option String) : Prop :=
  ∀ f, p = some f → ∀ s, MemDbStash.parseStateFile w.syncState = .ok s →
    ∃ y ∈ downloads w.ignorePatterns s R, memdbFilename y = f

/-- With nothing pending, there is nothing to refetch.
Source: none: infrastructure
Kind: L -/
theorem pendingRefetched_none {R : SdkSyncState I} {w : MemDbStash I} :
    PendingRefetched R w none := fun _ h => by cases h

/-- The steps of one download end with nothing pending.
Source: `memdb/stash.rs` 361–366
Kind: L -/
theorem foldl_pending_block (s : SdkSyncState I) (x : I) (e : RemoteSdk I) (p : Option String) :
    (fetchSteps s x e ++ (commitSdk e s).1).foldl Step.pending p = none := by
  unfold fetchSteps; split_ifs <;> rfl

/-- After one download's steps and its commit, `sync.state` holds the committed state.
Source: `memdb/stash.rs` 347–365
Kind: L -/
theorem syncState_block (s : SdkSyncState I) (x : I) (e : RemoteSdk I) (w : MemDbStash I) :
    (runSteps (fetchSteps s x e ++ (commitSdk e s).1) w).syncState = .saved (commitSdk e s).2 := by
  unfold fetchSteps; split_ifs <;> rfl

/-- All the downloads of a run together end with nothing pending.
Source: `memdb/stash.rs` 343–376
Kind: L -/
theorem foldl_pending_downloadAll {R : SdkSyncState I} :
    ∀ (ds : List I) (s : SdkSyncState I), (downloadAll R ds s).1.foldl Step.pending none = none
  | [], _ => rfl
  | x :: rest, s => by
    rcases he : R.getSdk x with _ | e
    · simp only [downloadAll, he]; rfl
    · rw [downloadAll_cons rest s he, List.foldl_append, foldl_pending_block,
        foldl_pending_downloadAll rest]

/-- One download of an identity that needs it: until its save, `sync.state` still records the
state it started from, which the identity's remote entry differs from.
Source: `memdb/stash.rs` 223–247, 343–366
Kind: L -/
theorem pendingRefetched_block {R : SdkSyncState I} {w : MemDbStash I} {s : SdkSyncState I}
    {x : I} {e : RemoteSdk I} (hw : MemDbStash.parseStateFile w.syncState = .ok s)
    (hx : x ∈ downloads w.ignorePatterns s R) (he : e.info = x) :
    HoldsThroughout (PendingRefetched R) (fetchSteps s x e ++ (commitSdk e s).1) w none := by
  have hpend : ∀ w' : MemDbStash I, w'.syncState = w.syncState →
      w'.ignorePatterns = w.ignorePatterns → PendingRefetched R w' (some (memdbFilename e.info)) :=
    fun w' hs hi f hf s' hs' => by
      rw [hs, hw] at hs'; cases hs'; cases hf
      exact ⟨x, hi ▸ hx, he ▸ rfl⟩
  unfold fetchSteps
  split_ifs
  · exact ⟨pendingRefetched_none, hpend _ rfl rfl, hpend _ rfl rfl, pendingRefetched_none,
      pendingRefetched_none⟩
  · exact ⟨pendingRefetched_none, hpend _ rfl rfl, hpend _ rfl rfl, hpend _ rfl rfl,
      pendingRefetched_none, pendingRefetched_none⟩

/-- All downloads in turn: each identity still to come needs its download against the working
copy, since the ones before it are filed under other names.
Source: `memdb/stash.rs` 343–376
Kind: L -/
theorem pendingRefetched_downloadAll {R : SdkSyncState I} :
    ∀ (ds : List I) {s : SdkSyncState I} {w : MemDbStash I}, RemoteIds R ds →
      MemDbStash.parseStateFile w.syncState = .ok s →
      (∀ y ∈ ds, y ∈ downloads w.ignorePatterns s R) →
      HoldsThroughout (PendingRefetched R) (downloadAll R ds s).1 w none
  | [], _, _, _, _, _ => pendingRefetched_none
  | x :: rest, s, w, hids, hw, hds => by
    obtain ⟨e, he, hex⟩ := hids.found x (List.mem_cons_self _ _)
    rw [downloadAll_cons rest s he]
    refine holdsThroughout_append (pendingRefetched_block hw (hds x (List.mem_cons_self _ _)) hex)
      ?_
    rw [foldl_pending_block]
    refine pendingRefetched_downloadAll rest hids.tail (by rw [syncState_block]; rfl)
      fun y hy => ?_
    have hne : memdbFilename y ≠ memdbFilename e.info := fun h =>
      (List.nodup_cons.mp hids.nodup).1 (hex ▸ h ▸ List.mem_map_of_mem _ hy)
    rw [runSteps_ignorePatterns, mem_downloads_congr (getSdk_commitSdk_of_ne hne)]
    exact hds y (List.mem_cons_of_mem _ hy)

/-- Throughout a run against a listing, the file being downloaded is one a run against the same
listing from the state then recorded would download again.
Source: `memdb/stash.rs` 331–398
Kind: L -/
theorem pendingRefetched_syncSteps {w : MemDbStash I} {L : SdkSyncState I}
    (hL : MemDbStash.parseStateFile w.syncState = .ok L) (listing : List (RemoteSdk I)) :
    HoldsThroughout (PendingRefetched (remoteStateOf listing)) (syncSteps w (.ok listing)) w none := by
  rw [syncSteps_eq hL, List.cons_append]
  refine holdsThroughout_cons.mpr ⟨pendingRefetched_none, holdsThroughout_append
    (pendingRefetched_downloadAll _ (remoteIds_downloads (wellKeyed_remoteStateOf listing)) hL
      fun _ hy => hy) ?_⟩
  rw [show Step.pending none (.install L) = none from rfl, foldl_pending_downloadAll]
  exact ⟨pendingRefetched_none, pendingRefetched_none, pendingRefetched_none⟩

/-! ## Runs against one listing keep the stash repairable -/

/-- **A stopped run keeps the stash repairable** by the listing it fetched: an identity keeps
its complete file, or was not touched and keeps its entry, or is the one being downloaded,
whose entry upstream differs from the recorded one.
Source: `memdb/stash.rs` 171–181, 223–247, 331–398
Kind: L -/
theorem RepairableBy.take {w : MemDbStash I} {listing : List (RemoteSdk I)}
    (h : RepairableBy (remoteStateOf listing) w) (n : ℕ) :
    RepairableBy (remoteStateOf listing) (runSteps ((syncSteps w (.ok listing)).take n) w) := by
  obtain ⟨L, hL, hkeys, hrep⟩ := h
  obtain ⟨s, hs, -⟩ := exists_parseStateFile_runSteps hL ((syncSteps w (.ok listing)).take n)
  obtain ⟨hwk, hrec⟩ := recorded_after_take hL hkeys (.ok listing) n hs
  have hpend := holdsThroughout_take (pendingRefetched_syncSteps hL listing) n
  refine ⟨s, hs, hwk, fun x hx => ?_⟩
  by_cases hp : some x.1 = pendingFile ((syncSteps w (.ok listing)).take n)
  · exact .inr (hpend x.1 hp.symm s hs)
  rcases hrec x hx hp with hfull | ⟨-, hxL, hfile⟩
  · exact .inl hfull
  rcases hrep x hxL with hfull | ⟨y, hy, hyx⟩
  · exact .inl (hfile.trans hfull)
  · -- untouched: the state holds the same entry for `y`, so a run still downloads it
    have hsame : s.getSdk y = L.getSdk y := by
      rw [getSdk_eq, getSdk_eq, hyx, AList.mem_lookup_iff.mpr hx, AList.mem_lookup_iff.mpr hxL]
    exact .inr ⟨y, by rwa [runSteps_ignorePatterns, mem_downloads_congr hsame], hyx⟩

/-- **Runs against one listing, and calls.** A property of the stash that implies a readable
`sync.state`, depends only on the disk, and holds wherever a run against `listing` stops, holds
after any `get_memdb` calls and runs, stopped anywhere, that fetch `listing` or fail to fetch.
Source: `memdb/stash.rs` 331–427
Kind: L -/
theorem runOps_preserves {P : MemDbStash I → Prop} {listing : List (RemoteSdk I)}
    (hread : ∀ {w}, P w → ∃ L, MemDbStash.parseStateFile w.syncState = .ok L)
    (hdisk : ∀ {w w'}, P w → SameDisk w' w → P w')
    (hrun : ∀ {w} n, P w → P (runSteps ((syncSteps w (.ok listing)).take n) w)) :
    ∀ (ops : List (Op I)) {w : MemDbStash I}, P w →
      (∀ run, Op.sync run ∈ ops → ∀ l, run.upstream = .ok l → l = listing) → P (runOps ops w)
  | [], _, h, _ => h
  | op :: ops, w, h, hops => by
    refine runOps_preserves hread hdisk hrun ops ?_ fun run hr => hops run (List.mem_cons_of_mem _ hr)
    cases op with
    | get info => exact hdisk h (getMemdb_keeps_disk info w)
    | sync run =>
      show P (runSteps ((syncSteps w run.upstream).take run.stop) w)
      rcases hu : run.upstream with err | l
      · -- a failed listing: only the snapshot is installed
        rw [syncSteps_fetch_error (hread h).choose_spec]
        cases run.stop
        · exact h
        · rw [List.take_succ_cons, List.take_nil]; exact hdisk h ⟨rfl, rfl, rfl⟩
      · obtain rfl := hops run (List.mem_cons_self _ _) l hu
        exact hrun run.stop h

/-- **`sync` heals what stopped runs broke.** From a stash whose `sync.state` is readable and
well keyed and whose recorded identities all have their complete files, after any sequence of
`get_memdb` calls and runs of `sync`, each stopped anywhere by an error or a crash, where every
listing a run fetches is `listing`, the next run against `listing` that takes all its steps
leaves `sync.state` well keyed and every identity it records with its complete file.
Source: `memdb/stash.rs` 171–261, 331–427
Kind: P -/
theorem sync_heals_after_stopped_runs {w : MemDbStash I} (h : IntactExcept w [])
    (listing : List (RemoteSdk I)) (ops : List (Op I))
    (hops : ∀ run, Op.sync run ∈ ops → ∀ l, run.upstream = .ok l → l = listing) :
    IntactExcept (runSteps (syncSteps (runOps ops w) (.ok listing)) (runOps ops w)) [] :=
  (runOps_preserves (fun h => let ⟨L, hL, _⟩ := h; ⟨L, hL⟩) (fun h hd => h.of_disk hd)
    (fun n h => h.take n) ops (h.repairableBy _) hops).complete

/-- After the sample's stopped run and call, a run against the same listing that ends repairs
`1`'s file.
Source: `memdb/stash.rs` 171–261, 331–427
Kind: N+ -/
theorem sync_heals_after_stopped_runs_sample :
    IntactExcept (runSteps (syncSteps (runOps sampleStoppedOps sampleStash) (.ok [sampleSdk 1 "b"]))
      (runOps sampleStoppedOps sampleStash)) [] :=
  sync_heals_after_stopped_runs (by decide) _ sampleStoppedOps (by simp [sampleStoppedOps])

end SymbolServer.Memdb
