import SymbolServer.Memdb.Readers

/-!
# `get_memdb` for an identity a run of `sync` leaves alone

A run of `sync` touches an identity when it downloads it, and when it drops it from the local
state because the listing no longer has it. For every other identity `x`, every state the run
saves or installs records `x`'s old entry; the run writes no file under `x`'s name and evicts
no handle of `x`. Other `get_memdb` calls only install states read from `sync.state`, which
record the same entry, and cache handles under their own identity. So a call for `x` cannot
tell that anything else runs.

* `StepLeaves`, `WorldLeaves`, `PcLeaves` — a step of `sync` that leaves `x` alone; the stash
  as far as `x` goes, against the stash `w₀` the calls started from; what a call for `x` has
  seen, in agreement with `get_memdb(x)` run alone from `w₀`.
* `syncSteps_leaves` — when the listing's entry for `x` is the one `sync.state` records, or
  `x` is ignored and listed, every step of the run leaves `x` alone.
* `GetMemdbCall.step_leaves`, `SystemLeaves.run` — a step of any call, and so every schedule,
  keeps the stash and the calls for `x` in agreement with `get_memdb(x)` alone.
* **`get_memdb_unaffected_by_sync`** — for every schedule of one run of `sync`, stopped
  anywhere, with `get_memdb` calls for any identities, every call for an identity the run
  leaves alone returns what it returns with nothing else running, and has returned once it has
  taken eight steps.
-/

set_option linter.unusedSectionVars false

namespace SymbolServer.Memdb

open SdkSyncState

variable {I : Type} [SdkInfo I]

section leaves

variable (x : I) (a : Option (RemoteSdk I))

/-- What a step of `sync` that leaves `x` alone may do: record `a` for `x`, write or remove
files under other names, evict the handles of other identities.
Source: none: infrastructure
Kind: D -/
def StepLeaves : Step I → Prop
  | .install s | .save s => s.getSdk x = a
  | .create e | .copy e | .removeFile e => memdbFilename e.info ≠ memdbFilename x
  | .evict y => y ≠ x
  | .panic => True

/-- What every call holds, whatever its identity: a state read from `sync.state` records `a`
for `x`.
Source: none: infrastructure
Kind: D -/
def PcRecords : GetMemdbPc I → Prop
  | .installState s => s.getSdk x = a
  | _ => True

/-- The stash `w` as far as `x` goes, against the stash `w₀` the calls started from: `x`'s file
as in `w₀`; the snapshot, if any, and `sync.state`, which is readable, record `a` for `x`; the
handle cached for `x` is that of `w₀` or, where `w₀` had none, the handle `get_memdb(x)`
returns from `w₀`.
Source: none: infrastructure
Kind: D -/
structure WorldLeaves (w₀ w : MemDbStash I) : Prop where
  file : w.files (memdbFilename x) = w₀.files (memdbFilename x)
  snapshot : ∀ s, w.localState = some s → s.getSdk x = a
  stateFile : ∃ s, MemDbStash.parseStateFile w.syncState = .ok s ∧ s.getSdk x = a
  cache : w.memdbs x = w₀.memdbs x ∨ w₀.memdbs x = none ∧
    ∃ m, (getMemdb x w₀).1 = .ok m ∧ w.memdbs x = some m

/-- What a call for `x` has seen agrees with `get_memdb(x)` run alone from `w₀`, where `x`'s
entry is `a`; a call that reads a snapshot or a handle back finds one; a call that has returned
returned what `get_memdb(x)` returns from `w₀`.
Source: `memdb/stash.rs` 183–206, 400–427
Kind: D -/
def PcLeaves (w₀ w : MemDbStash I) : GetMemdbPc I → Prop
  | .start => True
  | .snapshot | .readFile | .installState _ => w₀.memdbs x = none
  | .rereadSnapshot => w₀.memdbs x = none ∧ w.localState.isSome
  | .openFile => w₀.memdbs x = none ∧ a.isSome
  | .insert m =>
    w₀.memdbs x = none ∧ a.isSome ∧ MemDb.fromPath (w₀.files (memdbFilename x)) = .ok m
  | .reread => (w.memdbs x).isSome
  | .done r => r = (getMemdb x w₀).1

/-- The stash `w'` keeps the snapshot of `w`, and the handle `w` caches for `x`.
Source: none: infrastructure
Kind: D -/
def GrowsAt (w w' : MemDbStash I) : Prop :=
  (w.localState.isSome → w'.localState.isSome) ∧ ((w.memdbs x).isSome → (w'.memdbs x).isSome)

/-- The system as far as `x` goes: the stash, every call (those for `x` in agreement with
`get_memdb(x)` alone), and what is left of `sync`.
Source: none: infrastructure
Kind: D -/
structure SystemLeaves (w₀ : MemDbStash I) (sys : System I) : Prop where
  world : WorldLeaves x a w₀ sys.stash
  calls : ∀ c ∈ sys.calls, PcRecords x a c.pc ∧ (c.info = x → PcLeaves x a w₀ sys.stash c.pc)
  syncLeft : ∀ st ∈ sys.syncLeft, StepLeaves x a st

variable {x a}

/-- What a call has seen of `x` stays true once the stash has grown at `x`.
Source: none: infrastructure
Kind: L -/
theorem PcLeaves.grow {w₀ w w' : MemDbStash I} {pc : GetMemdbPc I} (h : PcLeaves x a w₀ w pc)
    (hg : GrowsAt x w w') : PcLeaves x a w₀ w' pc := by
  cases pc with
  | rereadSnapshot => exact ⟨h.1, hg.1 h.2⟩
  | reread => exact hg.2 h
  | _ => exact h

/-- The point a call reaches after reading the snapshot holds no handle yet.
Source: `memdb/stash.rs` 405–412
Kind: L -/
theorem pcRecords_afterSnapshot (c : GetMemdbCall I) (s : SdkSyncState I) :
    PcRecords x a (c.afterSnapshot s) := by
  unfold GetMemdbCall.afterSnapshot; split <;> trivial

/-! ## The answer alone, and what the stash shows of it -/

section world

variable {w₀ w : MemDbStash I}

/-- `get_memdb(x)` alone from `w₀`, where `w₀` has no handle for `x`: the handle of `x`'s file
if `x`'s entry exists, `UnknownSdk` otherwise.
Source: `memdb/stash.rs` 400–427
Kind: L -/
theorem WorldLeaves.getMemdb_fst (h₀ : WorldLeaves x a w₀ w₀) (hm : w₀.memdbs x = none) :
    (getMemdb x w₀).1 =
      if a.isSome then MemDb.fromPath (w₀.files (memdbFilename x)) else .error .unknownSdk := by
  obtain ⟨s, hs, hsx⟩ : ∃ s, w₀.getLocalState.1 = .ok s ∧ s.getSdk x = a := by
    rcases hl : w₀.localState with _ | s
    · obtain ⟨s, hp, hsx⟩ := h₀.stateFile
      exact ⟨s, by simp [MemDbStash.getLocalState, MemDbStash.readLocalState, hl, hp], hsx⟩
    · exact ⟨s, by simp [MemDbStash.getLocalState, hl], h₀.snapshot s hl⟩
  rw [getMemdb_fst_of_snapshot hm hs, hsx]

/-- A handle cached for `x` is the one `get_memdb(x)` returns from `w₀`.
Source: none: infrastructure
Kind: L -/
theorem WorldLeaves.getMemdb_of_cache (hw : WorldLeaves x a w₀ w) {m : MemDb I}
    (h : w.memdbs x = some m) : (getMemdb x w₀).1 = .ok m := by
  rcases hw.cache with h' | ⟨-, m', hm', h'⟩
  · rw [h] at h'; simp [getMemdb, ← h']
  · rw [h] at h'; cases h'; exact hm'

/-- No handle cached for `x` means `w₀` had none.
Source: none: infrastructure
Kind: L -/
theorem WorldLeaves.none_of_cache (hw : WorldLeaves x a w₀ w) (h : w.memdbs x = none) :
    w₀.memdbs x = none := by
  rcases hw.cache with h' | ⟨-, _, -, h'⟩ <;> rw [h] at h'
  exacts [h'.symm, by cases h']

/-- A call for `x` past a snapshot recording `a` for `x`.
Source: `memdb/stash.rs` 412–427
Kind: L -/
theorem afterSnapshot_leaves (h₀ : WorldLeaves x a w₀ w₀) (hm : w₀.memdbs x = none)
    {s : SdkSyncState I} (hs : s.getSdk x = a) (c : GetMemdbCall I) (hc : c.info = x) :
    PcLeaves x a w₀ w (c.afterSnapshot s) := by
  unfold GetMemdbCall.afterSnapshot
  rw [hc, hs]
  split_ifs with h
  · exact ⟨hm, h⟩
  · show _ = _
    rw [h₀.getMemdb_fst hm, if_neg h]

/-- A step of `sync` that leaves `x` alone keeps the stash as far as `x` goes, and keeps the
snapshot and `x`'s handle.
Source: `memdb/stash.rs` 171–261
Kind: L -/
theorem WorldLeaves.apply (hw : WorldLeaves x a w₀ w) {st : Step I} (hst : StepLeaves x a st) :
    WorldLeaves x a w₀ (st.apply w) ∧ GrowsAt x w (st.apply w) := by
  cases st with
  | install s => exact ⟨{ hw with snapshot := fun s' h => by cases h; exact hst }, fun _ => rfl, id⟩
  | save s => exact ⟨{ hw with stateFile := ⟨s, rfl, hst⟩ }, id, id⟩
  | create e | copy e | removeFile e =>
    exact ⟨{ hw with file := (Function.update_noteq (Ne.symm hst) _ _).trans hw.file }, id, id⟩
  | evict y =>
    have hupd : ((Step.evict y).apply w).memdbs x = w.memdbs x :=
      Function.update_noteq (Ne.symm hst) _ _
    exact ⟨{ hw with cache := by rw [hupd]; exact hw.cache }, id, by rw [hupd]; exact id⟩
  | panic => exact ⟨hw, id, id⟩

/-- **One step of a call**, for `x` or for any other identity, keeps the stash as far as `x`
goes, keeps what every call holds, keeps a call for `x` in agreement with `get_memdb(x)` alone,
and keeps the snapshot and `x`'s handle.
Source: `memdb/stash.rs` 183–206, 400–427
Kind: L -/
theorem GetMemdbCall.step_leaves (h₀ : WorldLeaves x a w₀ w₀) {c : GetMemdbCall I}
    (hw : WorldLeaves x a w₀ w) (hr : PcRecords x a c.pc)
    (hc : c.info = x → PcLeaves x a w₀ w c.pc) :
    WorldLeaves x a w₀ (c.step w).2 ∧ PcRecords x a (c.step w).1.pc ∧
      (c.info = x → PcLeaves x a w₀ (c.step w).2 (c.step w).1.pc) ∧ GrowsAt x w (c.step w).2 := by
  have hrefl : GrowsAt x w w := ⟨id, id⟩
  obtain ⟨y, pc⟩ := c
  cases pc with
  | start =>
    rcases hm : w.memdbs y with _ | m <;> simp only [GetMemdbCall.step, hm]
    · exact ⟨hw, trivial, fun (hy : y = x) => hw.none_of_cache (hy ▸ hm), hrefl⟩
    · exact ⟨hw, trivial, fun (hy : y = x) => (hw.getMemdb_of_cache (hy ▸ hm)).symm, hrefl⟩
  | snapshot =>
    rcases hs : w.localState with _ | s <;> simp only [GetMemdbCall.step, hs]
    · exact ⟨hw, trivial, hc, hrefl⟩
    · exact ⟨hw, pcRecords_afterSnapshot _ _, fun (hy : y = x) =>
        afterSnapshot_leaves h₀ (hc hy) (hw.snapshot s hs) _ hy, hrefl⟩
  | readFile =>
    obtain ⟨s, hp, hsx⟩ := hw.stateFile
    simp only [GetMemdbCall.step, hp]
    exact ⟨hw, hsx, hc, hrefl⟩
  | installState s =>
    exact ⟨{ hw with snapshot := fun s' h => by cases h; exact hr }, trivial,
      fun hy => ⟨hc hy, rfl⟩, fun _ => rfl, id⟩
  | rereadSnapshot =>
    rcases hs : w.localState with _ | s <;> simp only [GetMemdbCall.step, hs]
    · -- a call for `x` finds the snapshot it installed
      refine ⟨hw, trivial, fun hy => ?_, hrefl⟩
      have := (hc hy).2; rw [hs] at this; cases this
    · exact ⟨hw, pcRecords_afterSnapshot _ _, fun (hy : y = x) =>
        afterSnapshot_leaves h₀ (hc hy).1 (hw.snapshot s hs) _ hy, hrefl⟩
  | openFile =>
    rcases hf : MemDb.fromPath (w.files (memdbFilename y)) with e | m <;>
      simp only [GetMemdbCall.step, hf] <;> refine ⟨hw, trivial, fun (hy : y = x) => ?_, hrefl⟩ <;>
      subst hy <;> obtain ⟨hm, ha⟩ := hc rfl <;> rw [hw.file] at hf
    · show _ = _
      rw [h₀.getMemdb_fst hm, if_pos ha, hf]
    · exact ⟨hm, ha, hf⟩
  | insert m =>
    by_cases hy : y = x
    · -- the call caches the handle `get_memdb(x)` returns alone
      subst hy
      obtain ⟨hm, ha, hf⟩ := hc rfl
      have hupd : (Function.update w.memdbs y (some m)) y = some m := Function.update_same _ _ _
      refine ⟨{ hw with cache := .inr ⟨hm, m, ?_, hupd⟩ }, trivial, fun _ => ?_, id, fun _ => ?_⟩
      · rw [h₀.getMemdb_fst hm, if_pos ha, hf]
      all_goals show (Function.update w.memdbs y (some m) y).isSome; rw [hupd]; rfl
    · have hupd : ((⟨y, .insert m⟩ : GetMemdbCall I).step w).2.memdbs x = w.memdbs x :=
        Function.update_noteq (Ne.symm hy) _ _
      exact ⟨{ hw with cache := by rw [hupd]; exact hw.cache }, trivial, fun h => absurd h hy,
        id, by rw [hupd]; exact id⟩
  | reread =>
    rcases hm : w.memdbs y with _ | m <;> simp only [GetMemdbCall.step, hm]
    · -- a call for `x` finds the handle it inserted
      refine ⟨hw, trivial, fun (hy : y = x) => ?_, hrefl⟩
      have := hc hy; subst hy; rw [PcLeaves, hm] at this; cases this
    · exact ⟨hw, trivial, fun (hy : y = x) => (hw.getMemdb_of_cache (hy ▸ hm)).symm, hrefl⟩
  | done r => exact ⟨hw, hr, hc, hrefl⟩

end world

/-! ## Every schedule -/

section system

variable {w₀ : MemDbStash I} (h₀ : WorldLeaves x a w₀ w₀)

include h₀

/-- **One step of the system**, whoever moves, keeps it in agreement with `get_memdb(x)` alone.
Source: `memdb/stash.rs` 331–427
Kind: L -/
theorem SystemLeaves.step {sys : System I} (h : SystemLeaves x a w₀ sys) (ch : Choice) :
    SystemLeaves x a w₀ (sys.step ch) := by
  cases ch with
  | sync =>
    rcases hl : sys.syncLeft with _ | ⟨st, rest⟩
    · simp only [System.step, hl]; exact h
    · have hst : ∀ st' ∈ st :: rest, StepLeaves x a st' := hl ▸ h.syncLeft
      obtain ⟨hw, hg⟩ := h.world.apply (hst st (List.mem_cons_self _ _))
      simp only [System.step, hl]
      exact ⟨hw, fun c hc => ⟨(h.calls c hc).1, fun hi => ((h.calls c hc).2 hi).grow hg⟩,
        fun st' hm => hst st' (List.mem_cons_of_mem _ hm)⟩
  | call k =>
    rcases hc : sys.calls[k]? with _ | c
    · simp only [System.step, hc]; exact h
    obtain ⟨hr, hx⟩ := h.calls c (List.getElem?_mem hc)
    obtain ⟨hw, hr', hx', hg⟩ := GetMemdbCall.step_leaves h₀ h.world hr hx
    simp only [System.step, hc]
    refine ⟨hw, fun c' hm => ?_, h.syncLeft⟩
    rcases List.mem_or_eq_of_mem_set hm with hm | rfl
    · exact ⟨(h.calls c' hm).1, fun hi => ((h.calls c' hm).2 hi).grow hg⟩
    · exact ⟨hr', fun hi => hx' ((c.step_info _).symm.trans hi)⟩

/-- **Every schedule** keeps the system in agreement with `get_memdb(x)` alone.
Source: `memdb/stash.rs` 331–427
Kind: L -/
theorem SystemLeaves.run {sys : System I} (h : SystemLeaves x a w₀ sys) :
    ∀ sched : List Choice, SystemLeaves x a w₀ (sys.run sched)
  | [] => h
  | ch :: sched => (h.step h₀ ch).run sched

end system

end leaves

/-! ## The identities a run leaves alone -/

/-- The downloads of identities other than `x` leave `x` alone.
Source: `memdb/stash.rs` 343–366
Kind: L -/
theorem downloadAll_leaves {x : I} {a : Option (RemoteSdk I)}
    (hinj : Function.Injective (memdbFilename : I → String)) {R : SdkSyncState I} :
    ∀ (ds : List I) (s : SdkSyncState I), (∀ y ∈ ds, ∃ e, R.getSdk y = some e ∧ e.info = y) →
      x ∉ ds → s.getSdk x = a → ∀ st ∈ (downloadAll R ds s).1, StepLeaves x a st
  | [], _, _, _, _, st, h => by cases h
  | y :: rest, s, hf, hx, hs, st, h => by
    obtain ⟨e, he, rfl⟩ := hf y (List.mem_cons_self _ _)
    have hne : memdbFilename e.info ≠ memdbFilename x := fun h =>
      hx (hinj h ▸ List.mem_cons_self _ _)
    have hc : ((s.updateSdk e).bumpRevision).getSdk x = a := by
      rw [getSdk_bumpRevision, getSdk_updateSdk, if_neg (Ne.symm hne), hs]
    rw [downloadAll_cons rest s he, List.mem_append] at h
    rcases h with h | h
    · rcases mem_fetchSteps_commitSdk h with rfl | rfl | rfl | rfl | rfl
      exacts [hne, hne, fun h => hx (h ▸ List.mem_cons_self _ _), hc, hc]
    · exact downloadAll_leaves hinj rest _ (fun z hz => hf z (List.mem_cons_of_mem _ hz))
        (fun h => hx (List.mem_cons_of_mem _ h)) hc st h

/-- **The identities a run leaves alone**: from a readable, well-keyed `sync.state` `L`, when
the listing's entry for `x` is the one `L` records (or neither has one), or `x` is ignored and
listed, every step of the run records `L`'s entry for `x`, writes no file under `x`'s name and
evicts no handle of `x`.
Source: `memdb/stash.rs` 331–398
Kind: L -/
theorem syncSteps_leaves {w : MemDbStash I} {L : SdkSyncState I} {x : I}
    {listing : List (RemoteSdk I)} (hL : MemDbStash.parseStateFile w.syncState = .ok L)
    (hkeys : L.WellKeyed) (hinj : Function.Injective (memdbFilename : I → String))
    (hx : (remoteStateOf listing).getSdk x = L.getSdk x ∨
      sdkIsIgnored w.ignorePatterns x = true ∧ ((remoteStateOf listing).getSdk x).isSome) :
    ∀ st ∈ syncSteps w (.ok listing), StepLeaves x (L.getSdk x) st := by
  have hR := wellKeyed_remoteStateOf listing
  have hds : x ∉ downloads w.ignorePatterns L (remoteStateOf listing) := fun h => by
    have := (List.mem_filter.mp h).2
    rcases hx with hx | ⟨hi, -⟩
    · simp [needsSync, hx] at this
    · simp [needsSync, hi] at this
  -- the final state keeps `x`'s entry: listed with the same entry, ignored, or in neither
  have hfinal : (syncFinal w.ignorePatterns L (remoteStateOf listing)).getSdk x = L.getSdk x := by
    rw [getSdk_eq, lookup_syncFinal hkeys hR hinj, reconciled]
    rcases hr : (remoteStateOf listing).sdks.lookup (memdbFilename x) with _ | r
    · rcases hx with hx | ⟨-, hx⟩ <;> rw [getSdk_eq, hr] at hx
      exacts [hx, by cases hx]
    · obtain rfl : r.info = x := hinj (hR.key_eq hr)
      dsimp only
      split_ifs with hi
      · rfl
      · rcases hx with hx | ⟨hi', -⟩
        · rw [getSdk_eq, hr] at hx; exact hx
        · exact absurd hi' hi
  intro st h
  rcases (mem_syncSteps hL).mp h with rfl | h | rfl | rfl
  · rfl
  · exact downloadAll_leaves hinj _ L (remoteIds_downloads hR).found hds rfl st h
  · exact hfinal
  · exact hfinal

/-- **`sync` does not disturb the readers of identities it leaves alone.** From a readable,
well-keyed `sync.state` `L` and distinct file names, where the snapshot, if any, records `L`'s
entry for `x`, and the listing's entry for `x` is the one `L` records or `x` is ignored and
listed: for every schedule of one run of `sync` against the listing, stopped after any number
of steps, with `get_memdb` calls for any identities, every call for `x` that has returned
returned what `get_memdb(x)` returns with nothing else running, and the `k`-th call, if it is
for `x`, has returned once it has taken eight steps.
Source: `memdb/stash.rs` 183–261, 331–427
Kind: P -/
theorem get_memdb_unaffected_by_sync {w : MemDbStash I} {L : SdkSyncState I} {x : I}
    {listing : List (RemoteSdk I)} (hL : MemDbStash.parseStateFile w.syncState = .ok L)
    (hkeys : L.WellKeyed) (hinj : Function.Injective (memdbFilename : I → String))
    (hsnap : ∀ s, w.localState = some s → s.getSdk x = L.getSdk x)
    (hx : (remoteStateOf listing).getSdk x = L.getSdk x ∨
      sdkIsIgnored w.ignorePatterns x = true ∧ ((remoteStateOf listing).getSdk x).isSome)
    (n : ℕ) (infos : List I) (sched : List Choice) :
    let sys := (System.start w ⟨.ok listing, n⟩ infos).run sched
    (∀ c ∈ sys.calls, c.info = x → ∀ r, c.pc = .done r → r = (getMemdb x w).1) ∧
      ∀ k (hk : k < infos.length), infos[k] = x → 8 ≤ sched.count (.call k) →
        sys.calls[k]? = some ⟨x, .done (getMemdb x w).1⟩ := by
  intro sys
  have h₀ : WorldLeaves x (L.getSdk x) w w := ⟨rfl, hsnap, ⟨L, hL, rfl⟩, .inl rfl⟩
  have hstart : SystemLeaves x (L.getSdk x) w (System.start w ⟨.ok listing, n⟩ infos) := by
    refine ⟨h₀, fun c hc => ?_, fun st hst =>
      syncSteps_leaves hL hkeys hinj hx st (List.mem_of_mem_take hst)⟩
    obtain ⟨_, -, rfl⟩ := List.mem_map.mp hc
    exact ⟨trivial, fun _ => trivial⟩
  have h := hstart.run h₀ sched
  have hdone : ∀ c ∈ sys.calls, c.info = x → ∀ r, c.pc = .done r → r = (getMemdb x w).1 :=
    fun c hc hi r hr => by have := (h.calls c hc).2 hi; rw [hr] at this; exact this
  refine ⟨hdone, fun k hk hxk hcount => ?_⟩
  obtain ⟨r, hr⟩ := System.returns_after_eight
    (show (System.start w ⟨.ok listing, n⟩ infos).calls[k]? = some ⟨x, .start⟩ by
      simp [System.start, hk, hxk]) hcount
  rw [hdone _ (List.getElem?_mem hr) rfl r rfl] at hr
  exact hr

/-- Turns of the sample: `sync`, then the call for `2`, then the call for `1`, eight times.
Source: none: test data
Kind: D -/
def sampleSyncTurns : List Choice :=
  (List.replicate 8 [.sync, .call 1, .call 0]).flatten

/-- At the sample server, a run against a listing where `1` is unchanged and `2` is new, with a
call for `1` and one for `2` taking turns with it: the call for `1` returns what it returns
alone.
Source: `memdb/stash.rs` 183–261, 331–427
Kind: N+ -/
theorem get_memdb_unaffected_by_sync_sample :
    ((System.start sampleServing ⟨.ok [sampleSdk 1 "a", sampleSdk 2 "c"], 20⟩ [1, 2]).run
      sampleSyncTurns).calls[0]? = some ⟨1, .done (getMemdb 1 sampleServing).1⟩ :=
  (get_memdb_unaffected_by_sync (w := sampleServing) rfl (by decide) memdbFilename_nat_injective
    (fun s hs => by cases hs; rfl) (.inl (by decide)) 20 [1, 2] sampleSyncTurns).2 0
    (by decide) rfl (by decide)

end SymbolServer.Memdb
