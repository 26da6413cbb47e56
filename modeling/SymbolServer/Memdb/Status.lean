import SymbolServer.Memdb.Stash

/-!
# `get_sync_status` and `SyncStatus`

* `statusCounts` — the loop of `get_sync_status` over the remote entries, with its three
  counters; `statusCounts_eq` states them as counts of the entries that are not ignored, of
  those missing locally and of those differing.
* `SyncStatus.isHealthy` — `offline || lag / total < 0.10` in `f32`. The comparison is modelled
  exactly (`f32RatioBelowTenth`): `0.10` is the binary32 value `13421773·2⁻²⁷`, a quotient
  rounds below it exactly when it is at most the midpoint `26843545·2⁻²⁸` with its even
  predecessor, and a zero total gives `0/0 = NaN` or `+∞`, both of which compare false.
-/

set_option linter.unusedSectionVars false

namespace SymbolServer.Memdb

open SdkSyncState

variable {I : Type} [SdkInfo I]

/-- Information about the health of the stash sync (`SyncStatus`).
Source: `memdb/stash.rs` 56–64
Kind: D
Fidelity: exact -/
structure SyncStatus where
  remoteTotal : UInt32
  missing : UInt32
  different : UInt32
  revision : UInt64
  offline : Bool
  deriving DecidableEq, Repr

/-- `lag`: `missing + different`, in `u32`.
Source: `memdb/stash.rs` 126–128
Kind: D
Fidelity: exact (wrapping) -/
def SyncStatus.lag (s : SyncStatus) : UInt32 :=
  s.missing + s.different

/-- `n as f32` for `n : u32`: rounded to 24 significant bits, ties to even, so exact below
`2²⁴`; `e` is the number of low bits dropped, one per binary digit beyond the 24th.
Source: `memdb/stash.rs` 135–136
Kind: D
Fidelity: exact (IEEE 754 round to nearest, ties to even) -/
def u32ToF32 (n : UInt32) : ℕ :=
  let e := (List.range 8).countP fun i => 2 ^ (24 + i) ≤ n.toNat
  let q := n.toNat / 2 ^ e
  let r := n.toNat % 2 ^ e
  (if 2 ^ e < 2 * r ∨ (2 * r = 2 ^ e ∧ q % 2 = 1) then q + 1 else q) * 2 ^ e

/-- `lag as f32 / total as f32 < 0.10`: false when the total is zero (`NaN` or `+∞`), and
otherwise true exactly when the exact quotient is at most `26843545·2⁻²⁸`, the midpoint below
the binary32 value of `0.10`.
Source: `memdb/stash.rs` 135–137
Kind: D
Fidelity: exact (IEEE 754 binary32) -/
def f32RatioBelowTenth (lag total : UInt32) : Bool :=
  let l := u32ToF32 lag
  let t := u32ToF32 total
  t ≠ 0 && l * 2 ^ 28 ≤ 26843545 * t

/-- `is_healthy`.
Source: `memdb/stash.rs` 131–139
Kind: D
Fidelity: exact -/
def SyncStatus.isHealthy (s : SyncStatus) : Bool :=
  if s.offline then true else f32RatioBelowTenth s.lag s.remoteTotal

/-- A nonzero `u32` converts to a nonzero `f32`: the dropped low bits never reach the leading
one.
Source: `memdb/stash.rs` 135–136
Kind: L -/
theorem u32ToF32_pos {n : UInt32} (hn : n ≠ 0) : 0 < u32ToF32 n := by
  have hn' : 0 < n.toNat := Nat.pos_of_ne_zero fun h => hn (UInt32.toNat.inj h)
  unfold u32ToF32
  dsimp only
  generalize he : (List.range 8).countP (fun i => 2 ^ (24 + i) ≤ n.toNat) = e
  have hle : 2 ^ e ≤ n.toNat := by
    rcases Nat.eq_zero_or_pos e with h0 | hpos
    · rwa [h0]
    · obtain ⟨i, -, hi⟩ := List.countP_pos_iff.mp (he ▸ hpos)
      have h8 : e ≤ 8 := he ▸ (List.countP_le_length _).trans (List.length_range 8).le
      calc 2 ^ e ≤ 2 ^ (24 + i) := Nat.pow_le_pow_right (by decide) (by omega)
        _ ≤ n.toNat := by simpa using hi
  have hq : 0 < n.toNat / 2 ^ e := Nat.div_pos hle (Nat.two_pow_pos e)
  split_ifs <;> exact Nat.mul_pos (by omega) (Nat.two_pow_pos e)

/-- `n as f32` is zero exactly when `n` is.
Source: `memdb/stash.rs` 135–136
Kind: L -/
theorem u32ToF32_eq_zero_iff (n : UInt32) : u32ToF32 n = 0 ↔ n = 0 :=
  ⟨fun h => by_contra fun hn => (u32ToF32_pos hn).ne' h, fun h => h ▸ rfl⟩

/-- With no lag the ratio is below `0.10` exactly when the total is not zero.
Source: `memdb/stash.rs` 135–137
Kind: L -/
theorem f32RatioBelowTenth_zero_left (total : UInt32) :
    f32RatioBelowTenth 0 total = decide (total ≠ 0) := by
  have h0 : u32ToF32 0 = 0 := rfl
  simp [f32RatioBelowTenth, h0, u32ToF32_eq_zero_iff]

/-- The three counters of `get_sync_status`.
Source: `memdb/stash.rs` 287–289
Kind: D -/
structure StatusCounts where
  remoteTotal : ℕ
  missing : ℕ
  different : ℕ
  deriving DecidableEq, Repr

/-- The loop of `get_sync_status` over the remote entries.
Source: `memdb/stash.rs` 294–306
Kind: D
Fidelity: exact -/
def statusCounts (patterns : IgnorePatterns) (localState : SdkSyncState I) :
    List (RemoteSdk I) → StatusCounts → StatusCounts
  | [], c => c
  | sdk :: rest, c =>
    if sdkIsIgnored patterns sdk.info then statusCounts patterns localState rest c
    else
      let c' : StatusCounts :=
        match localState.getSdk sdk.info with
        | some localSdk => if localSdk ≠ sdk then { c with different := c.different + 1 } else c
        | none => { c with missing := c.missing + 1 }
      statusCounts patterns localState rest { c' with remoteTotal := c'.remoteTotal + 1 }

/-- `get_sync_status`: `read_local_state` (which installs the snapshot), then the counts
against the remote state; an unreachable bucket gives an offline status with zero counts.
Source: `memdb/stash.rs` 284–324
Kind: D
Fidelity: exact -/
def getSyncStatus (upstream : Except ErrorKind (List (RemoteSdk I))) (w : MemDbStash I) :
    Except ErrorKind SyncStatus × MemDbStash I :=
  match w.readLocalState with
  | (.error e, w') => (.error e, w')
  | (.ok localState, w') =>
    match fetchRemoteState upstream with
    | .ok remote =>
      let c := statusCounts w.ignorePatterns localState remote.sdkValues ⟨0, 0, 0⟩
      (.ok ⟨.ofNat c.remoteTotal, .ofNat c.missing, .ofNat c.different,
        localState.revision.getD 0, false⟩, w')
    | .error .s3Unavailable => (.ok ⟨0, 0, 0, localState.revision.getD 0, true⟩, w')
    | .error e => (.error e, w')

/-- A remote entry that is not ignored and is absent from the local state.
Source: `memdb/stash.rs` 295–304
Kind: D -/
def isMissing (patterns : IgnorePatterns) (localState : SdkSyncState I) (sdk : RemoteSdk I) :
    Bool :=
  !sdkIsIgnored patterns sdk.info && (localState.getSdk sdk.info).isNone

/-- A remote entry that is not ignored and differs from the local one.
Source: `memdb/stash.rs` 295–301
Kind: D -/
def isDifferent (patterns : IgnorePatterns) (localState : SdkSyncState I) (sdk : RemoteSdk I) :
    Bool :=
  !sdkIsIgnored patterns sdk.info &&
    match localState.getSdk sdk.info with
    | some localSdk => localSdk != sdk
    | none => false

/-- The counters of `get_sync_status` count the entries that are not ignored, the missing
ones and the differing ones.
Source: `memdb/stash.rs` 294–306
Kind: L -/
theorem statusCounts_eq (p : IgnorePatterns) (L : SdkSyncState I) (sdks : List (RemoteSdk I)) :
    ∀ c : StatusCounts, statusCounts p L sdks c =
      ⟨c.remoteTotal + sdks.countP (fun sdk => !sdkIsIgnored p sdk.info),
        c.missing + sdks.countP (isMissing p L), c.different + sdks.countP (isDifferent p L)⟩ := by
  induction sdks with
  | nil => intro c; rfl
  | cons sdk rest ih =>
    intro c
    by_cases hi : sdkIsIgnored p sdk.info
    · simp [statusCounts, hi, ih, isMissing, isDifferent]
    · rcases hl : L.getSdk sdk.info with _ | l
      · simp [statusCounts, hi, hl, ih, isMissing, isDifferent]; omega
      · by_cases he : l = sdk
        · simp [statusCounts, hi, hl, he, ih, isMissing, isDifferent]; omega
        · simp [statusCounts, hi, hl, he, ih, isMissing, isDifferent]; omega

/-- `get_sync_status` against a listing, from a readable `sync.state`.
Source: `memdb/stash.rs` 284–324
Kind: L -/
theorem getSyncStatus_ok {w : MemDbStash I} {L : SdkSyncState I}
    (hL : MemDbStash.parseStateFile w.syncState = .ok L) (listing : List (RemoteSdk I)) :
    (getSyncStatus (.ok listing) w).1 =
      .ok ⟨.ofNat ((remoteStateOf listing).sdkValues.countP fun sdk =>
              !sdkIsIgnored w.ignorePatterns sdk.info),
            .ofNat ((remoteStateOf listing).sdkValues.countP (isMissing w.ignorePatterns L)),
            .ofNat ((remoteStateOf listing).sdkValues.countP (isDifferent w.ignorePatterns L)),
            L.revision.getD 0, false⟩ := by
  simp [getSyncStatus, MemDbStash.readLocalState, hL, statusCounts_eq]

end SymbolServer.Memdb
