import SymbolServer.Memdb.Reconcile

/-!
# What a stopped `sync` leaves on disk against what `sync.state` records

`update_sdk` downloads the entry, then `File::create`s the memdb file in place — truncating the
file of the identity it updates — and decompresses into it; the new entry is recorded by
`save_state` only after the copy. `save_state` itself writes a temporary file and renames it.
So a run stopped between the `create` of an identity and the `save` that records its new entry
leaves that identity's file truncated, half written, or holding the new entry, while
`sync.state` still records the old one; every other recorded identity keeps its complete file.

* `Step.pending`, `pendingFile` — the memdb file a download has begun to overwrite and no
  `save` has committed since: the ghost of where `sync` stopped.
* `HoldsThroughout` — a property of the stash that holds after every prefix of a list of
  steps; `holdsThroughout_take` reads it back at any stopping point.
* `holdsThroughout_block`, `holdsThroughout_downloadAll` — one download keeps the key-wise
  invariant `Consistent` after each of its steps, and so do all downloads in turn.
* **`sync_crash_truncates_recorded_file`** — the spec's crash safety fails for the memdb files:
  at the sample stash a run that stops right after the `create` of a changed identity leaves
  its recorded file incomplete.
* **`sync_stop_keeps_recorded_files`** — what holds: wherever a run stops, `sync.state` is well
  keyed and every identity it records has its complete entry on disk, except the one identity
  whose download had begun and was not yet saved; a run that ends excepts none.
-/

set_option linter.unusedSectionVars false

namespace SymbolServer.Memdb

open SdkSyncState

variable {I : Type} [SdkInfo I]

/-! ## The invariant, by identity and by key -/

/-- Every identity recorded in `sync.state`, except one whose memdb file is `except`, has on
disk the complete content of its recorded entry.
Source: `memdb/stash.rs` 183–198, 236–239; spec §6
Kind: D -/
def RecordedComplete (w : MemDbStash I) (except : Option String) : Prop :=
  ∀ s, MemDbStash.parseStateFile w.syncState = .ok s → ∀ e ∈ s.sdkValues,
    some (memdbFilename e.info) ≠ except → w.files (memdbFilename e.info) = some (.full e)

/-- The invariant is decided on the state `sync.state` holds, entry by entry.
Source: none: infrastructure
Kind: D -/
instance (w : MemDbStash I) (except : Option String) : Decidable (RecordedComplete w except) :=
  match h : MemDbStash.parseStateFile w.syncState with
  | .error _ => isTrue fun s hs => by rw [h] at hs; cases hs
  | .ok s =>
    decidable_of_iff (∀ e ∈ s.sdkValues,
        some (memdbFilename e.info) ≠ except → w.files (memdbFilename e.info) = some (.full e))
      ⟨fun hc s' hs' => by rw [h] at hs'; cases hs'; exact hc, fun hc => hc s h⟩

/-- Every key of `s`, except `except`, names a file holding its entry's complete content.
Source: none: infrastructure
Kind: D -/
def KeysComplete (files : String → Option (Blob I)) (s : SdkSyncState I)
    (except : Option String) : Prop :=
  ∀ k e, s.sdks.lookup k = some e → some k ≠ except → files k = some (.full e)

/-- The recorded state is well keyed and complete by key, except `except`.
Source: none: infrastructure
Kind: D -/
def Consistent (w : MemDbStash I) (except : Option String) : Prop :=
  ∀ s, MemDbStash.parseStateFile w.syncState = .ok s → s.WellKeyed ∧ KeysComplete w.files s except

/-- Installing a snapshot touches neither `sync.state` nor the files.
Source: `memdb/stash.rs` 208–213
Kind: L -/
theorem Consistent.install {w : MemDbStash I} {p : Option String} {s : SdkSyncState I}
    (h : Consistent w p) : Consistent ((Step.install s).apply w) p := h

/-- The invariant by key gives it by identity.
Source: none: infrastructure
Kind: L -/
theorem Consistent.recordedComplete {w : MemDbStash I} {p : Option String} (h : Consistent w p) :
    RecordedComplete w p := fun s hs e he hne => by
  obtain ⟨hk, hc⟩ := h s hs
  obtain ⟨k, hl⟩ := mem_sdkValues.mp he
  rw [hk.key_eq hl] at hne ⊢
  exact hc k e hl hne

/-- Over a well-keyed state the invariant by identity gives it by key.
Source: none: infrastructure
Kind: L -/
theorem consistent_of_recordedComplete {w : MemDbStash I} {L : SdkSyncState I} {p : Option String}
    (hL : MemDbStash.parseStateFile w.syncState = .ok L) (hkeys : L.WellKeyed)
    (h : RecordedComplete w p) : Consistent w p := fun s hs => by
  rw [hL] at hs; cases hs
  refine ⟨hkeys, fun k e hl hne => ?_⟩
  obtain rfl := hkeys.key_eq hl
  exact h _ hL e (mem_sdkValues.mpr ⟨_, hl⟩) hne

/-- Writing one file keeps every other key complete.
Source: `memdb/stash.rs` 236–239
Kind: L -/
theorem KeysComplete.update {files : String → Option (Blob I)} {s : SdkSyncState I}
    {p : Option String} {n : String} (h : KeysComplete files s p) (hp : p = none ∨ p = some n)
    (b : Option (Blob I)) : KeysComplete (Function.update files n b) s (some n) :=
  fun k e hl hne => by
    have hkn : k ≠ n := fun hk => hne (hk ▸ rfl)
    rw [Function.update_noteq hkn]
    exact h k e hl (by rcases hp with rfl | rfl <;> simp [hkn])

/-- Recording the entry whose file was just completed leaves no key pending.
Source: `memdb/stash.rs` 361–366
Kind: L -/
theorem KeysComplete.commit {files : String → Option (Blob I)} {s : SdkSyncState I}
    {e : RemoteSdk I} (h : KeysComplete files s (some (memdbFilename e.info)))
    (hf : files (memdbFilename e.info) = some (.full e)) :
    KeysComplete files (s.updateSdk e).bumpRevision none := fun k e' hl _ => by
  rw [bumpRevision_sdks, lookup_updateSdk] at hl
  split_ifs at hl with hk
  · cases hl; rw [hk]; exact hf
  · exact h k e' hl (by simpa using hk)

/-- A state whose entries are among those of a complete state is complete.
Source: none: infrastructure
Kind: L -/
theorem KeysComplete.mono {files : String → Option (Blob I)} {s t : SdkSyncState I}
    (h : KeysComplete files s none) (hst : ∀ k e, t.sdks.lookup k = some e → s.sdks.lookup k = some e) :
    KeysComplete files t none :=
  fun k e hl hne => h k e (hst k e hl) hne

/-! ## Stopping points -/

/-- The memdb file a download has begun to overwrite and no `save_state` has committed since:
`update_sdk`'s `File::create` sets it, `save_state` clears it.
Source: `memdb/stash.rs` 236, 364–365
Kind: D -/
def Step.pending : Option String → Step I → Option String
  | _, .create sdk => some (memdbFilename sdk.info)
  | _, .save _ => none
  | p, _ => p

/-- The file pending after some steps of a run.
Source: `memdb/stash.rs` 236, 364–365
Kind: D -/
def pendingFile (steps : List (Step I)) : Option String :=
  steps.foldl Step.pending none

/-- `P` holds of the stash and the pending file before the steps and after each of them.
Source: none: infrastructure
Kind: D -/
def HoldsThroughout (P : MemDbStash I → Option String → Prop) :
    List (Step I) → MemDbStash I → Option String → Prop
  | [], w, p => P w p
  | st :: rest, w, p => P w p ∧ HoldsThroughout P rest (st.apply w) (Step.pending p st)

section throughout

variable {P : MemDbStash I → Option String → Prop}

/-- What holds throughout holds wherever the steps stop.
Source: none: infrastructure
Kind: L -/
theorem holdsThroughout_take :
    ∀ {steps : List (Step I)} {w : MemDbStash I} {p : Option String}, HoldsThroughout P steps w p →
      ∀ n, P (runSteps (steps.take n) w) ((steps.take n).foldl Step.pending p)
  | [], _, _, h, n => by rw [List.take_nil]; exact h
  | _ :: _, _, _, h, 0 => h.1
  | _ :: _, _, _, h, n + 1 => holdsThroughout_take h.2 n

/-- Holding throughout steps: now, and throughout the rest from the first step's result.
Source: none: infrastructure
Kind: L -/
theorem holdsThroughout_cons {st : Step I} {rest : List (Step I)} {w : MemDbStash I}
    {p : Option String} :
    HoldsThroughout P (st :: rest) w p ↔
      P w p ∧ HoldsThroughout P rest (st.apply w) (Step.pending p st) := Iff.rfl

/-- Holding throughout two lists of steps, one after the other.
Source: none: infrastructure
Kind: L -/
theorem holdsThroughout_append :
    ∀ {A B : List (Step I)} {w : MemDbStash I} {p : Option String}, HoldsThroughout P A w p →
      HoldsThroughout P B (runSteps A w) (A.foldl Step.pending p) → HoldsThroughout P (A ++ B) w p
  | [], _, _, _, _, hB => hB
  | _ :: _, _, _, _, hA, hB => ⟨hA.1, holdsThroughout_append hA.2 hB⟩

end throughout

/-! ## One download, then all of them -/

/-- At a boundary between downloads: `sync.state` records `s`, well keyed and complete.
Source: none: infrastructure
Kind: D -/
def Settled (w : MemDbStash I) (s : SdkSyncState I) : Prop :=
  MemDbStash.parseStateFile w.syncState = .ok s ∧ s.WellKeyed ∧ KeysComplete w.files s none

/-- At a boundary between downloads the invariant holds with no exception.
Source: none: infrastructure
Kind: L -/
theorem Settled.consistent {w : MemDbStash I} {s : SdkSyncState I} (h : Settled w s) :
    Consistent w none := fun s' hs' => by
  rw [h.1] at hs'; cases hs'; exact h.2

/-- The save and the snapshot of one download, from the stash after its copy.
Source: `memdb/stash.rs` 361–366
Kind: L -/
theorem holdsThroughout_commit {w : MemDbStash I} {s : SdkSyncState I} {e : RemoteSdk I}
    (hw : MemDbStash.parseStateFile w.syncState = .ok s) (hs : s.WellKeyed)
    (hc : KeysComplete w.files s (some (memdbFilename e.info)))
    (hf : w.files (memdbFilename e.info) = some (.full e)) :
    HoldsThroughout Consistent (commitSdk e s).1 w (some (memdbFilename e.info)) ∧
      Settled (runSteps (commitSdk e s).1 w) (commitSdk e s).2 := by
  have hset : Settled ((Step.save (commitSdk e s).2).apply w) (commitSdk e s).2 :=
    ⟨rfl, hs.updateSdk e, hc.commit hf⟩
  refine ⟨⟨fun s' hs' => ?_, hset.consistent, hset.consistent⟩, hset⟩
  rw [hw] at hs'; cases hs'; exact ⟨hs, hc⟩

/-- **One download**: from a settled stash, its `create`, `copy`, eviction, save and snapshot
keep the stash consistent after each step, the file being overwritten excepted, and settle it
again on the new state with nothing pending.
Source: `memdb/stash.rs` 223–247, 343–366
Kind: L -/
theorem holdsThroughout_block {w : MemDbStash I} {s : SdkSyncState I} {x : I} {e : RemoteSdk I}
    (h : Settled w s) :
    HoldsThroughout Consistent (fetchSteps s x e ++ (commitSdk e s).1) w none ∧
      Settled (runSteps (fetchSteps s x e ++ (commitSdk e s).1) w) (commitSdk e s).2 ∧
      (fetchSteps s x e ++ (commitSdk e s).1).foldl Step.pending none = none := by
  obtain ⟨hw, hs, hc⟩ := h
  -- after `create` and after `copy` only the new entry's file has changed
  let w1 := (Step.create e).apply w
  let w2 := (Step.copy e).apply w1
  have hc1 : KeysComplete w1.files s (some (memdbFilename e.info)) := hc.update (Or.inl rfl) _
  have hc2 : KeysComplete w2.files s (some (memdbFilename e.info)) := hc1.update (Or.inr rfl) _
  have hf2 : w2.files (memdbFilename e.info) = some (.full e) := Function.update_same _ _ _
  have h1 : Consistent w1 (some (memdbFilename e.info)) := fun s' hs' => by
    rw [show w1.syncState = w.syncState from rfl, hw] at hs'; cases hs'; exact ⟨hs, hc1⟩
  unfold fetchSteps
  split_ifs
  · obtain ⟨hcommit, hset⟩ := holdsThroughout_commit (w := w2) hw hs hc2 hf2
    exact ⟨holdsThroughout_cons.mpr ⟨Settled.consistent ⟨hw, hs, hc⟩,
      holdsThroughout_cons.mpr ⟨h1, hcommit⟩⟩, hset, rfl⟩
  · -- the eviction touches neither the files nor `sync.state`
    obtain ⟨hcommit, hset⟩ := holdsThroughout_commit (w := (Step.evict x).apply w2) hw hs hc2 hf2
    exact ⟨holdsThroughout_cons.mpr ⟨Settled.consistent ⟨hw, hs, hc⟩,
      holdsThroughout_cons.mpr ⟨h1, holdsThroughout_cons.mpr ⟨hcommit.1, hcommit⟩⟩⟩, hset, rfl⟩

/-- **All downloads**: from a settled stash the downloads keep it consistent after each step,
and settle it on the working copy they leave, with nothing pending.
Source: `memdb/stash.rs` 343–376
Kind: L -/
theorem holdsThroughout_downloadAll {R : SdkSyncState I} :
    ∀ (ds : List I) {s : SdkSyncState I} {w : MemDbStash I}, Settled w s →
      HoldsThroughout Consistent (downloadAll R ds s).1 w none ∧
        Settled (runSteps (downloadAll R ds s).1 w) (downloadAll R ds s).2 ∧
        (downloadAll R ds s).1.foldl Step.pending none = none
  | [], _, _, h => ⟨h.consistent, h, rfl⟩
  | x :: rest, s, w, h => by
    rcases he : R.getSdk x with _ | e
    · simp only [downloadAll, he]; exact ⟨h.consistent, h, rfl⟩
    rw [downloadAll_cons rest s he]
    obtain ⟨hb, hset, hp⟩ := holdsThroughout_block (x := x) (e := e) h
    obtain ⟨hr, hset', hp'⟩ := holdsThroughout_downloadAll rest hset
    refine ⟨holdsThroughout_append hb (hp ▸ hr), ?_, ?_⟩
    · rw [runSteps_append]; exact hset'
    · rw [List.foldl_append, hp, hp']

/-- The final state keeps only entries of the working copy the downloads leave.
Source: `memdb/stash.rs` 378–394
Kind: L -/
theorem lookup_syncFinal_sub {p : IgnorePatterns} {L R : SdkSyncState I} {k : String}
    {e : RemoteSdk I} (h : (syncFinal p L R).sdks.lookup k = some e) :
    (downloadAll R (downloads p L R) L).2.sdks.lookup k = some e := by
  rw [syncFinal, bumpRevision_sdks, lookup_deleteLoop] at h
  split_ifs at h
  exact h

/-- Saving a part of the working copy a stash is settled on settles it on that part.
Source: `memdb/stash.rs` 171–181
Kind: L -/
theorem Settled.save {w : MemDbStash I} {s f : SdkSyncState I} (h : Settled w s)
    (hsub : ∀ {k e}, f.sdks.lookup k = some e → s.sdks.lookup k = some e) :
    Settled ((Step.save f).apply w) f :=
  ⟨rfl, wellKeyed_iff.mpr fun _ _ he => h.2.1.key_eq (hsub he), h.2.2.mono fun _ _ he => hsub he⟩

/-- The steps of a whole run keep the stash consistent after each of them, and leave nothing
pending.
Source: `memdb/stash.rs` 331–398
Kind: L -/
theorem holdsThroughout_syncSteps {w : MemDbStash I} {L : SdkSyncState I}
    (hL : MemDbStash.parseStateFile w.syncState = .ok L) (hkeys : L.WellKeyed)
    (hfiles : RecordedComplete w none) (upstream : Except ErrorKind (List (RemoteSdk I))) :
    HoldsThroughout Consistent (syncSteps w upstream) w none ∧
      pendingFile (syncSteps w upstream) = none := by
  have hcons := consistent_of_recordedComplete hL hkeys hfiles
  rcases upstream with err | listing
  · rw [syncSteps_fetch_error hL]
    exact ⟨⟨hcons, hcons⟩, rfl⟩
  rw [syncSteps_eq hL, List.cons_append]
  have hset0 : Settled ((Step.install L).apply w) L := ⟨hL, hkeys, (hcons L hL).2⟩
  obtain ⟨hD, hset, hp⟩ := holdsThroughout_downloadAll (R := remoteStateOf listing)
    (downloads w.ignorePatterns L (remoteStateOf listing)) hset0
  -- the final save records a part of the working copy, whose files are complete
  have hfinal := hset.save (f := syncFinal w.ignorePatterns L (remoteStateOf listing))
    lookup_syncFinal_sub
  refine ⟨holdsThroughout_cons.mpr ⟨hcons, holdsThroughout_append hD ?_⟩, ?_⟩
  · show HoldsThroughout Consistent _ _ (List.foldl Step.pending none _)
    rw [hp]
    exact ⟨hset.consistent, hfinal.consistent, hfinal.consistent.install⟩
  · rw [pendingFile, List.foldl_cons, List.foldl_append]; rfl

/-- The pending file is that of a `create` among the steps.
Source: `memdb/stash.rs` 236
Kind: L -/
theorem foldl_pending_eq_some :
    ∀ (steps : List (Step I)) (p : Option String) (f : String), steps.foldl Step.pending p = some f →
      p = some f ∨ ∃ sdk, Step.create sdk ∈ steps ∧ memdbFilename sdk.info = f
  | [], _, _, h => .inl h
  | st :: rest, p, f, h => by
    rcases foldl_pending_eq_some rest _ f h with h' | ⟨sdk, hm, hf⟩
    · cases st with
      | create sdk => exact .inr ⟨sdk, List.mem_cons_self _ _, Option.some.inj h'⟩
      | save _ => cases h'
      | _ => exact .inl h'
    · exact .inr ⟨sdk, List.mem_cons_of_mem _ hm, hf⟩

/-! ## Where crash safety fails, and what holds -/

/-- **A stopped download breaks the recorded file.** The sample stash records `1` with its
complete file; a run against a listing where `1` changed stops right after `update_sdk`'s
`File::create` — a failed `copy_with_progress` or a crash — and leaves `1`'s file truncated
while `sync.state` still records the old entry.
Source: `memdb/stash.rs` 223–247, 343–365
Kind: N− -/
theorem sync_crash_truncates_recorded_file :
    RecordedComplete sampleStash none ∧
      ¬ RecordedComplete
        (runSteps ((syncSteps sampleStash (.ok [sampleSdk 1 "b"])).take 2) sampleStash) none := by
  decide

/-- **What a stopped `sync` leaves on disk.** From a readable, well-keyed `sync.state` whose
every recorded identity has its complete entry on disk, wherever a run stops — on an error or
a crash after any number of steps — `sync.state` is still well keyed and every identity it
records has the complete content of its recorded entry on disk, except at most the one whose
download had begun (its `File::create` is among the steps taken) and whose new entry no save
had yet recorded; a run that ends excepts none.
Source: `memdb/stash.rs` 171–181, 223–247, 331–398
Kind: P -/
theorem sync_stop_keeps_recorded_files {w : MemDbStash I} {L : SdkSyncState I}
    (hL : MemDbStash.parseStateFile w.syncState = .ok L) (hkeys : L.WellKeyed)
    (hfiles : RecordedComplete w none) (upstream : Except ErrorKind (List (RemoteSdk I))) :
    (∀ n, let steps := (syncSteps w upstream).take n
      let w' := runSteps steps w
      (∀ s, MemDbStash.parseStateFile w'.syncState = .ok s → s.WellKeyed) ∧
        RecordedComplete w' (pendingFile steps) ∧
        ∀ f, pendingFile steps = some f →
          ∃ sdk, Step.create sdk ∈ steps ∧ memdbFilename sdk.info = f) ∧
      pendingFile (syncSteps w upstream) = none := by
  obtain ⟨hrun, hdone⟩ := holdsThroughout_syncSteps hL hkeys hfiles upstream
  refine ⟨fun n => ?_, hdone⟩
  have h := holdsThroughout_take hrun n
  refine ⟨fun s hs => (h s hs).1, h.recordedComplete, fun f hf => ?_⟩
  rcases foldl_pending_eq_some _ none f hf with h' | h'
  · cases h'
  · exact h'

/-- At the sample stash, against a listing where `1` changed, a run stopped after its first
two steps leaves `1`'s file pending, and a run that ends leaves every recorded file complete.
Source: `memdb/stash.rs` 171–181, 223–247, 331–398
Kind: N+ -/
theorem sync_stop_keeps_recorded_files_sample :
    pendingFile ((syncSteps sampleStash (.ok [sampleSdk 1 "b"])).take 2) = some (memdbFilename 1) ∧
      RecordedComplete (runSteps (syncSteps sampleStash (.ok [sampleSdk 1 "b"])) sampleStash)
        none :=
  have h := sync_stop_keeps_recorded_files (w := sampleStash) rfl (by decide) (by decide)
    (.ok [sampleSdk 1 "b"])
  ⟨rfl, by
    have hn := (h.1 (syncSteps sampleStash (.ok [sampleSdk 1 "b"])).length).2.1
    rwa [List.take_length, h.2] at hn⟩

end SymbolServer.Memdb
