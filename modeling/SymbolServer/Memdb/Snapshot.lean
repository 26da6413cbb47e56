import SymbolServer.Memdb.Readers

/-!
# The snapshot under interleavings: a durable state, not always the newest

The snapshot is written in two ways. `sync` installs each state right after saving it.
`get_local_state`, finding no snapshot, reads `sync.state` and installs what it read under a
later, separate write lock. So at every moment the snapshot is a state `sync.state` has held.
It is the snapshot the stash started with, the state `sync.state` held when the run began, or
a state the run has saved. Readers never see a state that was not durable. But a call that read
`sync.state` before `sync` began can install that old state after `sync` has installed its
final one. Then the snapshot lags `sync.state` until the next run of `sync`.

* `HeldBy`, `InstallsHeld` — a state `sync.state` has held while some steps ran; a list of steps
  each of whose `install`s is of such a state.
* `installsHeld_syncSteps` — every run of `sync` installs only `L` and states it saved before.
* `Durable`, `Durable.step` — the system as the steps `sync` has taken leave it: their disk,
  and a snapshot and calls' read states that `sync.state` has held.
* **`snapshot_always_durable`** — for every schedule of one run of `sync`, stopped anywhere,
  with `get_memdb` calls for any identities, the snapshot is at every moment the first one, the
  state `sync.state` held when the run began, or a state the run has saved. The sample shows
  the snapshot still holding the first state after the run has ended: a `get_memdb` for an
  identity the run added then fails with `UnknownSdk`.
-/

set_option linter.unusedSectionVars false

namespace SymbolServer.Memdb

open SdkSyncState

variable {I : Type} [SdkInfo I]

/-! ## States `sync.state` has held -/

section held

variable (L : SdkSyncState I)

/-- `s` is a state `sync.state` has held while `taken` ran from a `sync.state` holding `L`.
Source: `memdb/stash.rs` 171–181
Kind: D -/
def HeldBy (taken : List (Step I)) (s : SdkSyncState I) : Prop :=
  s = L ∨ Step.save s ∈ taken

/-- Each `install` in `steps` installs a state `sync.state` has held by then.
Source: `memdb/stash.rs` 183–213
Kind: D -/
def InstallsHeld (steps : List (Step I)) : Prop :=
  ∀ pre s post, steps = pre ++ .install s :: post → HeldBy L pre s

variable {L}

/-- A state held by some steps is held by them after more steps in front.
Source: none: infrastructure
Kind: L -/
theorem HeldBy.append_left {pre : List (Step I)} {s : SdkSyncState I} (h : HeldBy L pre s)
    (l : List (Step I)) : HeldBy L (l ++ pre) s :=
  h.imp_right fun h => List.mem_append_right l h

/-- A state held by some steps is held by them with more steps after.
Source: none: infrastructure
Kind: L -/
theorem HeldBy.append_right {pre : List (Step I)} {s : SdkSyncState I} (h : HeldBy L pre s)
    (l : List (Step I)) : HeldBy L (pre ++ l) s :=
  h.imp_right fun h => List.mem_append_left l h

/-- Two lists of steps that each install only held states do so one after the other.
Source: none: infrastructure
Kind: L -/
theorem InstallsHeld.append {l₁ l₂ : List (Step I)} (h₁ : InstallsHeld L l₁)
    (h₂ : InstallsHeld L l₂) : InstallsHeld L (l₁ ++ l₂) := by
  intro pre s post h
  rcases List.append_eq_append_iff.mp h with ⟨a, rfl, ha⟩ | ⟨c, rfl, hc⟩
  · exact (h₂ a s post ha).append_left l₁
  · rcases c with _ | ⟨st, c⟩
    · -- the `install` opens `l₂`
      exact (h₂ [] s post (by rw [List.nil_append] at hc ⊢; exact hc.symm)).imp_right
        fun h => by cases h
    · obtain ⟨rfl, rfl⟩ := List.cons_eq_cons.mp hc
      exact h₁ pre s c rfl

/-- Steps that install nothing install only held states.
Source: none: infrastructure
Kind: L -/
theorem installsHeld_of_forall {l : List (Step I)} (h : ∀ s, Step.install s ∉ l) :
    InstallsHeld L l :=
  fun pre s _ hl => absurd (hl ▸ List.mem_append_right pre (List.mem_cons_self _ _)) (h s)

/-- A commit saves the state it then installs.
Source: `memdb/stash.rs` 208–213, 361–365
Kind: L -/
theorem installsHeld_save_install (s : SdkSyncState I) :
    InstallsHeld L [.save s, .install s] := by
  intro pre s' post h
  rcases pre with _ | ⟨st, _ | ⟨st', pre⟩⟩
  · cases h
  · simp only [List.cons_append, List.nil_append, List.cons.injEq] at h
    obtain ⟨rfl, ⟨rfl⟩, -⟩ := h
    exact .inr (List.mem_singleton_self _)
  · simp at h

/-- Stopping anywhere keeps every install to a held state.
Source: none: infrastructure
Kind: L -/
theorem InstallsHeld.take {l : List (Step I)} (h : InstallsHeld L l) (n : ℕ) :
    InstallsHeld L (l.take n) := fun pre s post hl =>
  h pre s (post ++ l.drop n) ((List.take_append_drop n l).symm.trans
    (by rw [hl, List.append_assoc, List.cons_append]))

/-- The downloads install only states they saved before.
Source: `memdb/stash.rs` 343–376
Kind: L -/
theorem installsHeld_downloadAll (R : SdkSyncState I) :
    ∀ (ds : List I) (s : SdkSyncState I), InstallsHeld L (downloadAll R ds s).1
  | [], _ => installsHeld_of_forall fun _ h => List.not_mem_nil _ h
  | x :: rest, s => by
    rcases he : R.getSdk x with _ | e
    · simp only [downloadAll, he]
      exact installsHeld_of_forall fun _ h => List.not_mem_nil _ h
    rw [downloadAll_cons rest s he, commitSdk_fst]
    refine (InstallsHeld.append ?_ (installsHeld_save_install _)).append
      (installsHeld_downloadAll R rest _)
    refine installsHeld_of_forall fun s' h => ?_
    simp [fetchSteps] at h

/-- **Every run of `sync` installs only held states**: `L` first, then each state right after
saving it.
Source: `memdb/stash.rs` 183–213, 331–398
Kind: L -/
theorem installsHeld_syncSteps {w : MemDbStash I} (hL : MemDbStash.parseStateFile w.syncState = .ok L)
    (upstream : Except ErrorKind (List (RemoteSdk I))) : InstallsHeld L (syncSteps w upstream) := by
  have hfirst : InstallsHeld L [.install L] := fun pre s post h => by
    rcases pre with _ | ⟨st, pre⟩
    · cases h; exact .inl rfl
    · simp at h
  rcases upstream with err | listing
  · rw [syncSteps_fetch_error hL]; exact hfirst
  rw [syncSteps_eq hL]
  exact (hfirst.append (installsHeld_downloadAll _ _ L)).append (installsHeld_save_install _)

end held

/-! ## What a call writes to the snapshot, and what it reads -/

/-- A step of a call leaves the snapshot alone, or installs the state the call read.
Source: `memdb/stash.rs` 183–206
Kind: L -/
theorem GetMemdbCall.localState_step (c : GetMemdbCall I) (w : MemDbStash I) :
    (c.step w).2.localState = w.localState ∨
      ∃ s, c.pc = .installState s ∧ (c.step w).2.localState = some s := by
  obtain ⟨info, pc⟩ := c
  cases pc with
  | installState s => exact .inr ⟨s, rfl, rfl⟩
  | _ =>
    left
    simp only [GetMemdbCall.step]
    repeat' split
    all_goals rfl

/-- A call about to install a state has just read it from `sync.state`.
Source: `memdb/stash.rs` 183–198
Kind: L -/
theorem GetMemdbCall.eq_readFile_of_step {c : GetMemdbCall I} {w : MemDbStash I}
    {s : SdkSyncState I} (h : (c.step w).1.pc = .installState s) :
    c.pc = .readFile ∧ MemDbStash.parseStateFile w.syncState = .ok s := by
  obtain ⟨info, pc⟩ := c
  cases pc <;> simp only [GetMemdbCall.step, GetMemdbCall.afterSnapshot] at h ⊢ <;>
    (repeat' split at h) <;> simp_all

/-! ## Every schedule -/

/-- The system as the steps `taken` of `sync` leave it, from `w₀` whose `sync.state` holds `L`:
their disk; a snapshot that is the first one or a state `sync.state` has held; a call about to
install a state, installing one `sync.state` has held.
Source: none: infrastructure
Kind: D -/
structure Durable (w₀ : MemDbStash I) (L : SdkSyncState I) (taken : List (Step I))
    (sys : System I) : Prop where
  disk : SameDisk sys.stash (runSteps taken w₀)
  snapshot : ∀ s, sys.stash.localState = some s → w₀.localState = some s ∨ HeldBy L taken s
  calls : ∀ c ∈ sys.calls, ∀ s, c.pc = .installState s → HeldBy L taken s

section durable

variable {w₀ : MemDbStash I} {L : SdkSyncState I} (hL : MemDbStash.parseStateFile w₀.syncState = .ok L)
  {steps : List (Step I)} (hsteps : InstallsHeld L steps)

include hL hsteps

/-- **One step of the system**, whoever moves, keeps it as the steps `sync` has taken leave it.
Source: `memdb/stash.rs` 183–213, 331–427
Kind: L -/
theorem Durable.step {sys : System I} {taken : List (Step I)} (h1 : taken ++ sys.syncLeft = steps)
    (h : Durable w₀ L taken sys) (ch : Choice) :
    ∃ taken', taken' ++ (sys.step ch).syncLeft = steps ∧ Durable w₀ L taken' (sys.step ch) := by
  cases ch with
  | sync =>
    rcases hl : sys.syncLeft with _ | ⟨st, rest⟩
    · exact ⟨taken, by simpa only [System.step, hl] using h1, by simpa only [System.step, hl] using h⟩
    rw [hl] at h1
    simp only [System.step, hl]
    refine ⟨taken ++ [st], by simpa using h1, ⟨?_, fun s hs => ?_, fun c hc s hs =>
      (h.calls c hc s hs).append_right _⟩⟩
    · rw [runSteps_append]; exact h.disk.apply st
    · cases st with
      | install s' =>
        have hs' : s' = s := Option.some.inj hs
        subst hs'
        exact .inr ((hsteps taken s' rest h1.symm).append_right _)
      | _ => exact (h.snapshot s hs).imp_right (·.append_right _)
  | call k =>
    rcases hc : sys.calls[k]? with _ | c
    · exact ⟨taken, by simpa only [System.step, hc] using h1, by simpa only [System.step, hc] using h⟩
    simp only [System.step, hc]
    refine ⟨taken, h1, ⟨(c.step_sameDisk _).trans h.disk, fun s hs => ?_, fun c' hm s hs => ?_⟩⟩
    · -- only a call's `installState` writes the snapshot
      rcases c.localState_step sys.stash with hsame | ⟨s', hpc, hs'⟩
      · exact h.snapshot s (hsame ▸ hs)
      · rw [hs'] at hs; cases hs
        exact .inr (h.calls c (List.getElem?_mem hc) _ hpc)
    rcases List.mem_or_eq_of_mem_set hm with hm | rfl
    · exact h.calls c' hm s hs
    -- a call reads `sync.state`, which holds `L` or the last state `taken` saved
    obtain ⟨-, hp⟩ := GetMemdbCall.eq_readFile_of_step hs
    obtain ⟨t, ht, hheld⟩ := exists_parseStateFile_runSteps hL taken
    rw [h.disk.2, ht] at hp
    cases hp
    exact hheld

/-- **Every schedule** keeps the system as the steps `sync` has taken leave it.
Source: `memdb/stash.rs` 183–213, 331–427
Kind: L -/
theorem Durable.run :
    ∀ (sched : List Choice) {sys : System I} {taken : List (Step I)},
      taken ++ sys.syncLeft = steps → Durable w₀ L taken sys →
        ∃ taken', taken' ++ (sys.run sched).syncLeft = steps ∧ Durable w₀ L taken' (sys.run sched)
  | [], _, taken, h1, h => ⟨taken, h1, h⟩
  | ch :: sched, _, _, h1, h => by
    obtain ⟨taken', h1', h'⟩ := h.step hL hsteps h1 ch
    exact Durable.run sched h1' h'

end durable

/-- **The snapshot is always a durable state.** From a stash whose `sync.state` holds `L`, for
every schedule of one run of `sync`, stopped after any number of steps, with `get_memdb` calls
for any identities: at every moment, where `sync` has taken the steps `taken`, the snapshot, if
any, is the one the stash started with, `L`, or a state `taken` saved.
Source: `memdb/stash.rs` 171–213, 331–427
Kind: P -/
theorem snapshot_always_durable {w : MemDbStash I} {L : SdkSyncState I}
    (hL : MemDbStash.parseStateFile w.syncState = .ok L) (run : SyncRun I) (infos : List I)
    (sched : List Choice) :
    let sys := (System.start w run infos).run sched
    ∃ taken, taken ++ sys.syncLeft = run.steps w ∧
      ∀ s, sys.stash.localState = some s → w.localState = some s ∨ s = L ∨ Step.save s ∈ taken := by
  intro sys
  have h0 : Durable w L [] (System.start w run infos) := by
    refine ⟨⟨rfl, rfl, rfl⟩, fun s hs => .inl hs, fun c hc s hs => ?_⟩
    obtain ⟨_, -, rfl⟩ := List.mem_map.mp hc
    cases hs
  obtain ⟨taken, h1, h⟩ :=
    Durable.run hL ((installsHeld_syncSteps hL run.upstream).take run.stop) sched rfl h0
  exact ⟨taken, h1, h.snapshot⟩

/-- A `get_memdb(2)` call reads `sync.state`, which records `1` only; a whole run of `sync` then
adds `2`; the call installs what it read, and returns.
Source: none: test data
Kind: D -/
def sampleSnapshotRace : List Choice :=
  [.call 0, .call 0, .call 0] ++ List.replicate 7 .sync ++ [.call 0, .call 0, .call 0]

/-- At the sample stash with no snapshot, against a listing that adds `2`: after the race the
run has ended and `sync.state` records `2`, but the snapshot is the state read before the run,
so `get_memdb(2)` fails with `UnknownSdk`.
Source: `memdb/stash.rs` 171–213, 331–427
Kind: N+ -/
theorem snapshot_always_durable_sample :
    let sys := (System.start sampleNew ⟨.ok [sampleSdk 1 "a", sampleSdk 2 "c"], 7⟩ [2]).run
      sampleSnapshotRace
    (∃ taken, taken ++ sys.syncLeft =
        (⟨.ok [sampleSdk 1 "a", sampleSdk 2 "c"], 7⟩ : SyncRun ℕ).steps sampleNew ∧
      ∀ s, sys.stash.localState = some s → sampleNew.localState = some s ∨
        s = SdkSyncState.empty.updateSdk (sampleSdk 1 "a") ∨ Step.save s ∈ taken) ∧
    sys.syncLeft = [] ∧
    (MemDbStash.parseStateFile sys.stash.syncState).map (fun s => (s.getSdk 2).isSome) = .ok true ∧
    sys.stash.localState = some (SdkSyncState.empty.updateSdk (sampleSdk 1 "a")) ∧
    (getMemdb 2 sys.stash).1 = .error .unknownSdk :=
  ⟨snapshot_always_durable (w := sampleNew) rfl _ _ _, by decide, by decide, by decide, by decide⟩

end SymbolServer.Memdb
