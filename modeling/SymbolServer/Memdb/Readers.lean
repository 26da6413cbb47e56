import SymbolServer.Memdb.Interleaving
import SymbolServer.Memdb.Recovery

/-!
# `get_memdb` calls among themselves: each returns what it would alone

With no run of `sync` in between, `get_memdb` calls change the stash in two ways only: they
install the snapshot `sync.state` holds where there was none, and they cache handles opened from
the memdb files, which nothing writes. So in every schedule each call returns what `get_memdb`
returns when run alone from the stash the calls started from, and each call has returned once it
has taken eight steps. The calls are linearizable, and each is wait-free.

* `GetMemdbPc.rank` — a bound on the steps a call has left; every step of a call that has not
  returned lowers it, whatever the other threads do (`System.rank_run`), so a call has returned
  once it has taken eight steps (`System.returns_after_eight`).
* `ServesFrom w₀` — the stash as calls leave the stash `w₀`: files and `sync.state` untouched,
  the snapshot and each cached handle either as in `w₀` or what `get_memdb` would set there.
* `CallAgrees w₀` — what a call has seen agrees with `get_memdb` run alone from `w₀`.
* **`get_memdb_calls_linearizable`** — for every schedule of `get_memdb` calls with no `sync`,
  every call that has returned returned `getMemdb` of its identity at the starting stash, and
  every call that has taken eight steps has returned.
* `System.run_sameDisk` — calls never touch the files or `sync.state`, so under any schedule
  the disk is what the steps `sync` has taken leave.
* **`interleaved_sync_damages_only_pending`** — the crash invariant under any interleaving: at
  every moment of one run of `sync` among `get_memdb` calls, the disk is what `sync`'s steps
  so far leave, and every recorded identity has its complete file except the one `sync` is
  downloading.
-/

set_option linter.unusedSectionVars false

namespace SymbolServer.Memdb

open SdkSyncState

variable {I : Type} [SdkInfo I]

/-! ## Progress -/

/-- At most how many steps a call has left before it returns.
Source: `memdb/stash.rs` 183–206, 400–427
Kind: D -/
def GetMemdbPc.rank : GetMemdbPc I → ℕ
  | .start => 8
  | .snapshot => 7
  | .readFile => 6
  | .installState _ => 5
  | .rereadSnapshot => 4
  | .openFile => 3
  | .insert _ => 2
  | .reread => 1
  | .done _ => 0

/-- A call with no steps left has returned.
Source: none: infrastructure
Kind: L -/
theorem GetMemdbPc.eq_done_of_rank_eq_zero {pc : GetMemdbPc I} (h : pc.rank = 0) :
    ∃ r, pc = .done r := by
  cases pc <;> first | exact ⟨_, rfl⟩ | cases h

/-- After reading the snapshot a call has at most three steps left.
Source: `memdb/stash.rs` 412–427
Kind: L -/
theorem GetMemdbCall.rank_afterSnapshot (c : GetMemdbCall I) (s : SdkSyncState I) :
    (c.afterSnapshot s).rank ≤ 3 := by
  unfold GetMemdbCall.afterSnapshot; split <;> simp [GetMemdbPc.rank]

/-- A step of a call that has not returned lowers its rank; a call that has returned stays
returned.
Source: `memdb/stash.rs` 183–206, 400–427
Kind: L -/
theorem GetMemdbCall.rank_step (c : GetMemdbCall I) (w : MemDbStash I) :
    (c.step w).1.pc.rank ≤ c.pc.rank - 1 := by
  obtain ⟨info, pc⟩ := c
  have h := GetMemdbCall.rank_afterSnapshot ⟨info, pc⟩
  cases pc <;> simp only [GetMemdbCall.step] <;> (repeat' split) <;>
    first | exact (h _).trans (by simp [GetMemdbPc.rank]) | simp [GetMemdbPc.rank]

/-- One step of the system lowers the rank of the `k`-th call if it is the one that moves, and
leaves it alone otherwise.
Source: `memdb/stash.rs` 331–427
Kind: L -/
theorem System.rank_step (sys : System I) (ch : Choice) {k : ℕ} {c : GetMemdbCall I}
    (hc : sys.calls[k]? = some c) :
    ∃ c', (sys.step ch).calls[k]? = some c' ∧ c'.info = c.info ∧
      c'.pc.rank ≤ c.pc.rank - [ch].count (.call k) := by
  cases ch with
  | sync => exact ⟨c, by simp only [System.step]; split <;> exact hc, rfl, by simp [List.count_singleton']⟩
  | call j =>
    rcases hj : sys.calls[j]? with _ | d
    · -- the `j`-th call does not exist: nothing moves
      have hjk : j ≠ k := fun h => by rw [h, hc] at hj; cases hj
      exact ⟨c, by simp only [System.step, hj]; exact hc, rfl, by simp [List.count_singleton', hjk]⟩
    by_cases hjk : j = k
    · subst hjk
      rw [hc] at hj; cases hj
      refine ⟨(c.step sys.stash).1, ?_, c.step_info _, by simpa [List.count_singleton'] using c.rank_step sys.stash⟩
      simp only [System.step, hc]
      exact List.getElem?_set_self (List.getElem?_eq_some_iff.mp hc).1
    · refine ⟨c, ?_, rfl, by simp [List.count_singleton', hjk]⟩
      simp only [System.step, hj]
      rw [List.getElem?_set_ne hjk]
      exact hc

/-- **Every call progresses.** Whatever the schedule, and whatever `sync` and the other calls do
in between, each step of the `k`-th call lowers its rank until it returns.
Source: `memdb/stash.rs` 331–427
Kind: L -/
theorem System.rank_run :
    ∀ (sched : List Choice) (sys : System I) (k : ℕ) (c : GetMemdbCall I), sys.calls[k]? = some c →
      ∃ c', (sys.run sched).calls[k]? = some c' ∧ c'.info = c.info ∧
        c'.pc.rank ≤ c.pc.rank - sched.count (.call k)
  | [], _, _, c, hc => ⟨c, hc, rfl, Nat.le_refl _⟩
  | ch :: sched, sys, k, c, hc => by
    obtain ⟨c₁, h₁, hi₁, hr₁⟩ := sys.rank_step ch hc
    obtain ⟨c₂, h₂, hi₂, hr₂⟩ := System.rank_run sched _ k c₁ h₁
    refine ⟨c₂, h₂, hi₂.trans hi₁, ?_⟩
    simp only [List.count_cons, List.count_nil] at hr₁ ⊢
    omega

/-- **Every call returns within eight of its steps**, whatever runs in between.
Source: `memdb/stash.rs` 331–427
Kind: L -/
theorem System.returns_after_eight {sys : System I} {k : ℕ} {info : I}
    (hc : sys.calls[k]? = some ⟨info, .start⟩) {sched : List Choice}
    (hcount : 8 ≤ sched.count (.call k)) :
    ∃ r, (sys.run sched).calls[k]? = some ⟨info, .done r⟩ := by
  obtain ⟨⟨info', pc⟩, hc', hinfo, hrank⟩ := System.rank_run sched sys k _ hc
  obtain ⟨r, rfl⟩ := GetMemdbPc.eq_done_of_rank_eq_zero
    (Nat.eq_zero_of_le_zero (hrank.trans_eq (Nat.sub_eq_zero_of_le hcount)))
  obtain rfl : info' = info := hinfo
  exact ⟨r, hc'⟩

/-! ## What calls do to the stash -/

/-- The stash as `get_memdb` calls leave the stash `w₀`: the files and `sync.state` untouched;
the snapshot that of `w₀` or, where `w₀` had none, the state `sync.state` holds; each cached
handle that of `w₀` or, where `w₀` had none, the handle `get_memdb` returns there.
Source: `memdb/stash.rs` 183–206, 400–427
Kind: D -/
structure ServesFrom (w₀ w : MemDbStash I) : Prop where
  files : w.files = w₀.files
  syncState : w.syncState = w₀.syncState
  snapshot : w.localState = w₀.localState ∨ w₀.localState = none ∧
    ∃ s, MemDbStash.parseStateFile w₀.syncState = .ok s ∧ w.localState = some s
  cache : ∀ x, w.memdbs x = w₀.memdbs x ∨ w₀.memdbs x = none ∧
    ∃ m, (getMemdb x w₀).1 = .ok m ∧ w.memdbs x = some m

/-- What a call for `x` has seen agrees with `get_memdb(x)` run alone from `w₀`; a call that
reads a snapshot or a handle back finds one; a call that has returned returned what
`get_memdb(x)` returns from `w₀`.
Source: `memdb/stash.rs` 183–206, 400–427
Kind: D -/
def CallAgrees (w₀ w : MemDbStash I) (x : I) : GetMemdbPc I → Prop
  | .start => True
  | .snapshot => w₀.memdbs x = none
  | .readFile => w₀.memdbs x = none ∧ w₀.localState = none
  | .installState s =>
    w₀.memdbs x = none ∧ w₀.localState = none ∧ MemDbStash.parseStateFile w₀.syncState = .ok s
  | .rereadSnapshot => w₀.memdbs x = none ∧ w.localState.isSome
  | .openFile => w₀.memdbs x = none ∧ ∃ s, w₀.getLocalState.1 = .ok s ∧ (s.getSdk x).isSome
  | .insert m => w₀.memdbs x = none ∧ (∃ s, w₀.getLocalState.1 = .ok s ∧ (s.getSdk x).isSome) ∧
    MemDb.fromPath (w₀.files (memdbFilename x)) = .ok m
  | .reread => (w.memdbs x).isSome
  | .done r => r = (getMemdb x w₀).1

/-- The stash `w'` holds every snapshot and handle `w` holds.
Source: none: infrastructure
Kind: D -/
def Grows (w w' : MemDbStash I) : Prop :=
  (w.localState.isSome → w'.localState.isSome) ∧ ∀ x, (w.memdbs x).isSome → (w'.memdbs x).isSome

/-- What a call has seen still agrees with `get_memdb` alone once the stash has grown.
Source: none: infrastructure
Kind: L -/
theorem CallAgrees.grow {w₀ w w' : MemDbStash I} {x : I} {pc : GetMemdbPc I}
    (h : CallAgrees w₀ w x pc) (hg : Grows w w') : CallAgrees w₀ w' x pc := by
  cases pc with
  | rereadSnapshot => exact ⟨h.1, hg.1 h.2⟩
  | reread => exact hg.2 x h
  | _ => exact h

/-! ## The sequential answer -/

/-- `get_memdb(x)` from a stash with no handle for `x` whose snapshot, read or loaded, is `s`:
the handle of `x`'s file if `s` records `x`, and `UnknownSdk` otherwise.
Source: `memdb/stash.rs` 400–427
Kind: L -/
theorem getMemdb_fst_of_snapshot {w : MemDbStash I} {x : I} {s : SdkSyncState I}
    (hm : w.memdbs x = none) (hs : w.getLocalState.1 = .ok s) :
    (getMemdb x w).1 =
      if (s.getSdk x).isSome then MemDb.fromPath (w.files (memdbFilename x)) else .error .unknownSdk := by
  obtain ⟨hf, -, -⟩ := getLocalState_keeps_disk w
  unfold getMemdb
  rw [hm]
  generalize w.getLocalState = g at hs hf
  obtain ⟨r, w'⟩ := g
  cases hs
  dsimp only at hf ⊢
  rw [hf]
  split_ifs
  · split <;> simp_all
  · rfl

/-- With no handle and no snapshot, `get_memdb` fails as reading `sync.state` fails.
Source: `memdb/stash.rs` 183–206, 405–412
Kind: L -/
theorem getMemdb_fst_of_readFile {w : MemDbStash I} {x : I} {e : ErrorKind}
    (hm : w.memdbs x = none) (hl : w.localState = none)
    (hp : MemDbStash.parseStateFile w.syncState = .error e) : (getMemdb x w).1 = .error e := by
  simp only [getMemdb, MemDbStash.getLocalState, MemDbStash.readLocalState, hm, hl, hp]

section serves

variable {w₀ w : MemDbStash I}

/-- A handle a call finds cached is the one `get_memdb` returns from `w₀`.
Source: none: infrastructure
Kind: L -/
theorem ServesFrom.getMemdb_of_cache (hw : ServesFrom w₀ w) {x : I} {m : MemDb I}
    (h : w.memdbs x = some m) : (getMemdb x w₀).1 = .ok m := by
  rcases hw.cache x with h' | ⟨-, m', hm', h'⟩
  · rw [h] at h'; simp [getMemdb, ← h']
  · rw [h] at h'; cases h'; exact hm'

/-- A snapshot a call finds is the one `get_local_state` loads from `w₀`.
Source: none: infrastructure
Kind: L -/
theorem ServesFrom.getLocalState_of_snapshot (hw : ServesFrom w₀ w) {s : SdkSyncState I}
    (h : w.localState = some s) : w₀.getLocalState.1 = .ok s := by
  rcases hw.snapshot with h' | ⟨hl, s', hs', h'⟩
  · rw [h] at h'; simp [MemDbStash.getLocalState, ← h']
  · rw [h] at h'; cases h'
    simp [MemDbStash.getLocalState, MemDbStash.readLocalState, hl, hs']

/-- A call past its snapshot read, on the snapshot `get_local_state` loads from `w₀`.
Source: `memdb/stash.rs` 412–427
Kind: L -/
theorem afterSnapshot_agrees {x : I} {s : SdkSyncState I} (hm : w₀.memdbs x = none)
    (hs : w₀.getLocalState.1 = .ok s) (c : GetMemdbCall I) (hc : c.info = x) :
    CallAgrees w₀ w x (c.afterSnapshot s) := by
  unfold GetMemdbCall.afterSnapshot
  rw [hc]
  split_ifs with h
  · exact ⟨hm, s, hs, h⟩
  · show _ = _
    rw [getMemdb_fst_of_snapshot hm hs, if_neg h]

/-- **One step of a call** keeps the stash as calls leave `w₀`, keeps what the call has seen in
agreement with `get_memdb` run alone from `w₀`, and only adds snapshots and handles.
Source: `memdb/stash.rs` 183–206, 400–427
Kind: L -/
theorem GetMemdbCall.step_agrees {c : GetMemdbCall I} (hw : ServesFrom w₀ w)
    (hc : CallAgrees w₀ w c.info c.pc) :
    ServesFrom w₀ (c.step w).2 ∧ CallAgrees w₀ (c.step w).2 c.info (c.step w).1.pc ∧
      Grows w (c.step w).2 := by
  have hrefl : Grows w w := ⟨id, fun _ => id⟩
  obtain ⟨x, pc⟩ := c
  cases pc with
  | start =>
    rcases hm : w.memdbs x with _ | m <;> simp only [GetMemdbCall.step, hm]
    · refine ⟨hw, ?_, hrefl⟩
      rcases hw.cache x with h | ⟨-, _, -, h⟩ <;> rw [hm] at h
      exacts [h.symm, by cases h]
    · exact ⟨hw, (hw.getMemdb_of_cache hm).symm, hrefl⟩
  | snapshot =>
    rcases hs : w.localState with _ | s <;> simp only [GetMemdbCall.step, hs]
    · refine ⟨hw, ⟨hc, ?_⟩, hrefl⟩
      rcases hw.snapshot with h | ⟨-, _, -, h⟩ <;> rw [hs] at h
      exacts [h.symm, by cases h]
    · exact ⟨hw, afterSnapshot_agrees hc (hw.getLocalState_of_snapshot hs) _ rfl, hrefl⟩
  | readFile =>
    rcases hp : MemDbStash.parseStateFile w.syncState with e | s <;>
      simp only [GetMemdbCall.step, hp] <;> rw [hw.syncState] at hp
    · exact ⟨hw, (getMemdb_fst_of_readFile hc.1 hc.2 hp).symm, hrefl⟩
    · exact ⟨hw, ⟨hc.1, hc.2, hp⟩, hrefl⟩
  | installState s =>
    refine ⟨{ hw with snapshot := .inr ⟨hc.2.1, s, hc.2.2, rfl⟩ }, ⟨hc.1, rfl⟩,
      fun _ => rfl, fun _ => id⟩
  | rereadSnapshot =>
    rcases hs : w.localState with _ | s
    · rw [CallAgrees, hs] at hc; cases hc.2
    simp only [GetMemdbCall.step, hs]
    exact ⟨hw, afterSnapshot_agrees hc.1 (hw.getLocalState_of_snapshot hs) _ rfl, hrefl⟩
  | openFile =>
    obtain ⟨hm, s, hs, hrec⟩ := hc
    rcases hf : MemDb.fromPath (w.files (memdbFilename x)) with e | m <;>
      simp only [GetMemdbCall.step, hf] <;> rw [hw.files] at hf
    · exact ⟨hw, by show _ = _; rw [getMemdb_fst_of_snapshot hm hs, if_pos hrec, hf], hrefl⟩
    · exact ⟨hw, ⟨hm, ⟨s, hs, hrec⟩, hf⟩, hrefl⟩
  | insert m =>
    obtain ⟨hm, ⟨s, hs, hrec⟩, hf⟩ := hc
    refine ⟨{ hw with cache := fun y => ?_ }, by simp [CallAgrees, GetMemdbCall.step], ?_, ?_⟩
    · by_cases hy : y = x
      · subst hy
        refine .inr ⟨hm, m, by rw [getMemdb_fst_of_snapshot hm hs, if_pos hrec, hf], ?_⟩
        simp [GetMemdbCall.step]
      · simp only [GetMemdbCall.step, Function.update_noteq hy]; exact hw.cache y
    · exact id
    · intro y hy
      by_cases hyx : y = x
      · subst hyx; simp [GetMemdbCall.step]
      · simpa [GetMemdbCall.step, Function.update_noteq hyx] using hy
  | reread =>
    rcases hm : w.memdbs x with _ | m
    · rw [CallAgrees, hm] at hc; cases hc
    simp only [GetMemdbCall.step, hm]
    exact ⟨hw, (hw.getMemdb_of_cache hm).symm, hrefl⟩
  | done r => exact ⟨hw, hc, hrefl⟩

end serves

/-! ## Every schedule -/

/-- No `sync` is left to run, the stash is as calls leave `w₀`, and every call agrees with
`get_memdb` run alone from `w₀`.
Source: none: infrastructure
Kind: D -/
structure CallsAgree (w₀ : MemDbStash I) (sys : System I) : Prop where
  noSync : sys.syncLeft = []
  stash : ServesFrom w₀ sys.stash
  calls : ∀ c ∈ sys.calls, CallAgrees w₀ sys.stash c.info c.pc

/-- Every step of a schedule without `sync` keeps every call agreeing with `get_memdb` alone.
Source: `memdb/stash.rs` 405–427
Kind: L -/
theorem CallsAgree.step {w₀ : MemDbStash I} {sys : System I} (h : CallsAgree w₀ sys)
    (ch : Choice) : CallsAgree w₀ (sys.step ch) := by
  cases ch with
  | sync => simp only [System.step, h.noSync]; exact h
  | call k =>
    rcases hc : sys.calls[k]? with _ | c
    · simp only [System.step, hc]; exact h
    obtain ⟨hw, hpc, hg⟩ := GetMemdbCall.step_agrees h.stash (h.calls c (List.getElem?_mem hc))
    simp only [System.step, hc]
    refine ⟨h.noSync, hw, fun c' hm => ?_⟩
    rcases List.mem_or_eq_of_mem_set hm with hm | rfl
    · exact (h.calls c' hm).grow hg
    · rw [c.step_info]; exact hpc

/-- Every schedule without `sync` keeps every call agreeing with `get_memdb` alone.
Source: `memdb/stash.rs` 405–427
Kind: L -/
theorem CallsAgree.run {w₀ : MemDbStash I} {sys : System I} (h : CallsAgree w₀ sys) :
    ∀ sched : List Choice, CallsAgree w₀ (sys.run sched)
  | [] => h
  | ch :: sched => (h.step ch).run sched

/-- **`get_memdb` calls are linearizable and wait-free.** From any stash, with no run of `sync`,
for every schedule of any number of `get_memdb` calls: every call that has returned returned
what `get_memdb` of its identity returns when run alone from the starting stash, and the `k`-th
call has returned once it has taken eight steps.
Source: `memdb/stash.rs` 183–206, 400–427
Kind: P -/
theorem get_memdb_calls_linearizable (w₀ : MemDbStash I) (infos : List I) (sched : List Choice) :
    let sys := (⟨w₀, [], infos.map fun info => ⟨info, .start⟩⟩ : System I).run sched
    (∀ c ∈ sys.calls, ∀ r, c.pc = .done r → r = (getMemdb c.info w₀).1) ∧
      ∀ k (hk : k < infos.length), 8 ≤ sched.count (.call k) →
        sys.calls[k]? = some ⟨infos[k], .done (getMemdb infos[k] w₀).1⟩ := by
  intro sys
  let sys₀ : System I := ⟨w₀, [], infos.map fun info => ⟨info, .start⟩⟩
  have h0 : CallsAgree w₀ sys₀ := by
    refine ⟨rfl, ⟨rfl, rfl, .inl rfl, fun _ => .inl rfl⟩, fun c hc => ?_⟩
    obtain ⟨_, -, rfl⟩ := List.mem_map.mp hc
    trivial
  have h := h0.run sched
  have hdone : ∀ c ∈ sys.calls, ∀ r, c.pc = .done r → r = (getMemdb c.info w₀).1 :=
    fun c hc r hr => by have := h.calls c hc; rw [hr] at this; exact this
  refine ⟨hdone, fun k hk hcount => ?_⟩
  obtain ⟨r, hr⟩ := System.returns_after_eight
    (show sys₀.calls[k]? = some ⟨infos[k], .start⟩ by simp [sys₀, hk]) hcount
  rw [hdone _ (List.getElem?_mem hr) r rfl] at hr
  exact hr

/-! ## What calls leave on disk

Calls write neither the memdb files nor `sync.state`, so under any schedule the disk is what the
steps `sync` has taken so far leave, and the crash results of `Crash.lean` and `Recovery.lean`
hold at every moment of an interleaving. -/

/-- A step of `sync` does the same to the disk of two stashes with the same disk.
Source: `memdb/stash.rs` 171–261, 350, 382
Kind: L -/
theorem SameDisk.apply {a b : MemDbStash I} (h : SameDisk a b) (st : Step I) :
    SameDisk (st.apply a) (st.apply b) := by
  obtain ⟨hf, hs, hi⟩ := h
  cases st <;> exact ⟨by simp only [Step.apply, hf], by simp only [Step.apply, hs],
    by simp only [Step.apply, hi]⟩

/-- A step of a call touches neither the files nor `sync.state`.
Source: `memdb/stash.rs` 183–206, 400–427
Kind: L -/
theorem GetMemdbCall.step_sameDisk (c : GetMemdbCall I) (w : MemDbStash I) :
    SameDisk (c.step w).2 w := by
  unfold GetMemdbCall.step
  repeat' split
  all_goals exact ⟨rfl, rfl, rfl⟩

/-- **The disk under any schedule**: `sync` has taken a part of its steps, and the stash has the
disk those steps leave, whatever the calls did in between.
Source: `memdb/stash.rs` 331–427
Kind: L -/
theorem System.run_sameDisk (w : MemDbStash I) (steps : List (Step I)) :
    ∀ (sched : List Choice) (sys : System I) (taken : List (Step I)),
      taken ++ sys.syncLeft = steps → SameDisk sys.stash (runSteps taken w) →
      ∃ taken', taken' ++ (sys.run sched).syncLeft = steps ∧
        SameDisk (sys.run sched).stash (runSteps taken' w)
  | [], _, taken, h1, h2 => ⟨taken, h1, h2⟩
  | .sync :: sched, sys, taken, h1, h2 => by
    rcases hl : sys.syncLeft with _ | ⟨st, rest⟩
    · have hsys : sys.step .sync = sys := by simp only [System.step, hl]
      rw [System.run_cons, hsys]
      exact System.run_sameDisk w steps sched sys taken h1 h2
    · refine System.run_sameDisk w steps sched _ (taken ++ [st]) ?_ ?_
      · simp only [System.step, hl]; rw [hl] at h1; simpa using h1
      · simp only [System.step, hl]; rw [runSteps_append]; exact h2.apply st
  | .call k :: sched, sys, taken, h1, h2 => by
    refine System.run_sameDisk w steps sched _ taken ?_ ?_
    · simp only [System.step]; split <;> exact h1
    · simp only [System.step]
      split
      · exact h2
      · exact (GetMemdbCall.step_sameDisk _ sys.stash).trans h2

/-- **Crash safety under any interleaving.** From a stash whose `sync.state` is readable and well
keyed and whose recorded identities all have their complete files, for every schedule of one
run of `sync`, stopped anywhere, with any number of `get_memdb` calls, at every moment the
stash has the disk that the steps `sync` has taken leave, is still readable and well keyed, and
every identity it records has its complete file except the one whose download `sync` has begun
and not yet saved.
Source: `memdb/stash.rs` 171–261, 331–427
Kind: P -/
theorem interleaved_sync_damages_only_pending {w : MemDbStash I} (h : IntactExcept w [])
    (run : SyncRun I) (infos : List I) (sched : List Choice) :
    let sys := (System.start w run infos).run sched
    ∃ taken, taken ++ sys.syncLeft = run.steps w ∧ SameDisk sys.stash (runSteps taken w) ∧
      IntactExcept sys.stash (pendingFile taken).toList := by
  intro sys
  obtain ⟨taken, h1, hd⟩ := System.run_sameDisk w (run.steps w) sched
    (System.start w run infos) [] rfl ⟨rfl, rfl, rfl⟩
  -- what `sync` has taken is a prefix of its steps, hence of the whole run
  have htake : taken = (syncSteps w run.upstream).take (min taken.length run.stop) := by
    rw [← List.take_take, ← SyncRun.steps, ← h1, List.take_left]
  refine ⟨taken, h1, hd, ?_⟩
  have hi := h.take run.upstream (min taken.length run.stop)
  rw [← htake, List.append_nil] at hi
  exact hi.of_disk hd

/-- At the sample server, a `get_memdb(1)` call opens `1`'s file while `sync` has begun to
download `1` again: only `1`'s file is excepted.
Source: `memdb/stash.rs` 171–261, 331–427
Kind: N+ -/
theorem interleaved_sync_damages_only_pending_sample :
    let sys := (System.start sampleServing ⟨.ok [sampleSdk 1 "b"], 100⟩ [1]).run
      (sampleStaleRace.take 5)
    ∃ taken, taken ++ sys.syncLeft = SyncRun.steps ⟨.ok [sampleSdk 1 "b"], 100⟩ sampleServing ∧
      SameDisk sys.stash (runSteps taken sampleServing) ∧
      IntactExcept sys.stash (pendingFile taken).toList :=
  interleaved_sync_damages_only_pending (by decide) _ _ _

/-- Two calls for `1` and one for `2` from `MemDbStash::new` over the sample stash, taking turns
step by step.
Source: none: test schedule
Kind: D -/
def sampleTurns : List Choice :=
  (List.replicate 8 [.call 0, .call 1, .call 2]).flatten

/-- In the sample schedule both calls for `1` load the snapshot, open `1`'s file and return its
handle, and the call for `2` returns `UnknownSdk`, as each would alone.
Source: `memdb/stash.rs` 183–206, 400–427
Kind: N+ -/
theorem get_memdb_calls_linearizable_sample :
    let sys := (⟨sampleNew, [], [1, 1, 2].map fun info => ⟨info, .start⟩⟩ : System ℕ).run sampleTurns
    sys.calls[0]? = some ⟨1, .done (getMemdb 1 sampleNew).1⟩ ∧
      (getMemdb 1 sampleNew).1 = .ok ⟨sampleSdk 1 "a"⟩ ∧
      sys.calls[2]? = some ⟨2, .done (getMemdb 2 sampleNew).1⟩ ∧
      (getMemdb 2 sampleNew).1 = .error .unknownSdk :=
  ⟨(get_memdb_calls_linearizable sampleNew [1, 1, 2] sampleTurns).2 0 (by decide) (by decide),
    by decide,
    (get_memdb_calls_linearizable sampleNew [1, 1, 2] sampleTurns).2 2 (by decide) (by decide),
    by decide⟩

end SymbolServer.Memdb
