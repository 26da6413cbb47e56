import Mathlib.Data.List.AList
import Mathlib.Data.List.Dedup
import Mathlib.Algebra.Group.Nat.Basic

/-!
# The stash's durable state: `RemoteSdk`, `SdkSyncState` and its keyed operations

`memdb/stash.rs` records what the local cache holds as an `SdkSyncState`: a `HashMap` from
file name to `RemoteSdk` and an optional revision. The map is an `AList` here, whose keys are
distinct as a `HashMap`'s are. The order of its entries stands for the `HashMap`'s iteration
order, which the code does not fix, so every statement of the development holds for every
order.

* `SdkInfo` — the interface of the identity type (`sdk.rs` is not among the sources): a linear
  order (its `Ord`), `memdb_filename` and `sdk_id`.
* `SdkSyncState.getSdk` / `updateSdk` / `removeSdk` — the keyed operations, each at the key
  `memdb_filename` of its argument; their lookup lemmas are `@[simp]`.
* `SdkSyncState.WellKeyed` — the key invariant of spec §3: every key is the `memdb_filename`
  of its entry's info. `fetchRemoteState` builds well-keyed states
  (`wellKeyed_remoteStateOf`), and `updateSdk` and `removeSdk` keep the invariant.
-/

set_option linter.unusedSectionVars false

namespace SymbolServer.Memdb

/-- The identity of an SDK as the stash uses it (`SdkInfo`, defined in `sdk.rs`): ordered by
its `Ord`, a linear order; stored on disk and keyed by `memdb_filename`; matched against the
ignore patterns by `sdk_id`.
Source: `memdb/stash.rs` 22, 98, 102, 106, 328, 341; spec §3
Kind: D
Fidelity: interface -/
class SdkInfo (I : Type) extends LinearOrder I where
  /-- `SdkInfo::memdb_filename`: the canonical file name, also the map key. -/
  memdbFilename : I → String
  /-- `SdkInfo::sdk_id`: the text the ignore patterns are matched against. -/
  sdkId : I → String

export SdkInfo (memdbFilename sdkId)

/-- The configured ignore patterns (`IgnorePatterns`, `utils.rs`), of which the stash uses
only `is_match`.
Source: `memdb/stash.rs` 38, 328
Kind: D
Fidelity: interface -/
structure IgnorePatterns where
  /-- `IgnorePatterns::is_match`. -/
  isMatch : String → Bool

/-- The error kinds the stash produces or passes on (`ErrorKind`, `lib.rs`): the two it
matches on, and one constructor for each other source of failure.
Source: `memdb/stash.rs` 25, 186, 191, 309, 426, 434
Kind: D
Fidelity: exact on `S3Unavailable` and `UnknownSdk` -/
inductive ErrorKind
  /-- `ErrorKind::S3Unavailable`: the bucket cannot be reached. -/
  | s3Unavailable
  /-- Any other failure of the S3 client. -/
  | s3
  /-- `ErrorKind::UnknownSdk`. -/
  | unknownSdk
  /-- An `io::Error` other than the tolerated `NotFound`s. -/
  | io
  /-- `File::open` of `sync.state` failed with another error than `NotFound`: "Error loading
  sync state". -/
  | loadSyncState
  /-- A `serde_json` error: "Parsing error on loading sync state". -/
  | parse
  /-- A memdb file that `MemDb::from_path` rejects. -/
  | badMemDb
  /-- A panic: an `unwrap` of `None`. -/
  | panic
  deriving DecidableEq, Repr

variable {I : Type} [SdkInfo I]

/-- Information about a remotely available SDK (`RemoteSdk`). Its `PartialEq` is derived, so
two values are equal exactly when all four fields are, `etag` included.
Source: `memdb/stash.rs` 42–48
Kind: D
Fidelity: exact -/
structure RemoteSdk (I : Type) where
  filename : String
  info : I
  size : UInt64
  etag : String
  deriving DecidableEq

/-- `SdkSyncState`: the map from file name to `RemoteSdk`, and the revision.
Source: `memdb/stash.rs` 50–54
Kind: D
Fidelity: exact -/
structure SdkSyncState (I : Type) where
  sdks : AList (fun _ : String => RemoteSdk I)
  revision : Option UInt64

/-- Two states are equal when their entries, in order, and their revisions are; decided on
the entries so that `decide` can evaluate it.
Source: none: infrastructure
Kind: D -/
instance {J : Type} [DecidableEq J] : DecidableEq (SdkSyncState J) := fun s t =>
  decidable_of_iff (s.sdks.entries = t.sdks.entries ∧ s.revision = t.revision) <| by
    obtain ⟨⟨_, _⟩, _⟩ := s
    obtain ⟨⟨_, _⟩, _⟩ := t
    simp

namespace SdkSyncState

/-- `Default::default()`: no SDK and no revision.
Source: `memdb/stash.rs` 50, 189
Kind: D
Fidelity: exact -/
def empty : SdkSyncState I := ⟨∅, none⟩

/-- `get_sdk`: the entry under `info`'s file name.
Source: `memdb/stash.rs` 97–99
Kind: D
Fidelity: exact -/
def getSdk (s : SdkSyncState I) (info : I) : Option (RemoteSdk I) :=
  s.sdks.lookup (memdbFilename info)

/-- `update_sdk`: insert `sdk` under its info's file name, replacing what was there.
Source: `memdb/stash.rs` 101–103
Kind: D
Fidelity: exact -/
def updateSdk (s : SdkSyncState I) (sdk : RemoteSdk I) : SdkSyncState I :=
  { s with sdks := s.sdks.insert (memdbFilename sdk.info) sdk }

/-- `remove_sdk`: drop the entry under `info`'s file name.
Source: `memdb/stash.rs` 105–107
Kind: D
Fidelity: exact -/
def removeSdk (s : SdkSyncState I) (info : I) : SdkSyncState I :=
  { s with sdks := s.sdks.erase (memdbFilename info) }

/-- `sdks()`: the entries, in the map's iteration order.
Source: `memdb/stash.rs` 109–111
Kind: D
Fidelity: exact -/
def sdkValues (s : SdkSyncState I) : List (RemoteSdk I) :=
  s.sdks.entries.map Sigma.snd

/-- `sdk_count`.
Source: `memdb/stash.rs` 113–115
Kind: D
Fidelity: exact -/
def sdkCount (s : SdkSyncState I) : Nat :=
  s.sdks.entries.length

/-- The revision bump `revision = Some(revision.unwrap_or(0) + 1)` of `sync`, in `u64`.
Source: `memdb/stash.rs` 364, 394
Kind: D
Fidelity: exact (wrapping on overflow, as a release build does) -/
def bumpRevision (s : SdkSyncState I) : SdkSyncState I :=
  { s with revision := some (s.revision.getD 0 + 1) }

/-- `get_sdk` looks the identity up under its file name.
Source: `memdb/stash.rs` 97–99
Kind: L -/
theorem getSdk_eq (s : SdkSyncState I) (info : I) :
    s.getSdk info = s.sdks.lookup (memdbFilename info) := rfl

/-- `update_sdk` inserts the entry under its identity's file name.
Source: `memdb/stash.rs` 101–103
Kind: L -/
theorem updateSdk_sdks (s : SdkSyncState I) (sdk : RemoteSdk I) :
    (s.updateSdk sdk).sdks = s.sdks.insert (memdbFilename sdk.info) sdk := rfl

/-- After `update_sdk`, the entry's own file name finds it; every other key finds what it
found before.
Source: `memdb/stash.rs` 101–103
Kind: L -/
@[simp] theorem lookup_updateSdk (s : SdkSyncState I) (sdk : RemoteSdk I) (k : String) :
    (s.updateSdk sdk).sdks.lookup k =
      if k = memdbFilename sdk.info then some sdk else s.sdks.lookup k := by
  unfold updateSdk
  split_ifs with h
  · subst h; exact AList.lookup_insert _
  · exact AList.lookup_insert_ne h

/-- After `remove_sdk`, the identity's file name finds nothing; every other key finds what it
found before.
Source: `memdb/stash.rs` 105–107
Kind: L -/
@[simp] theorem lookup_removeSdk (s : SdkSyncState I) (info : I) (k : String) :
    (s.removeSdk info).sdks.lookup k = if k = memdbFilename info then none else s.sdks.lookup k := by
  unfold removeSdk
  split_ifs with h
  · subst h; exact AList.lookup_erase _ _
  · exact AList.lookup_erase_ne h

/-- `get_sdk` after `update_sdk`: the new entry for an identity of the same file name, the old
answer otherwise.
Source: `memdb/stash.rs` 97–103
Kind: L -/
@[simp] theorem getSdk_updateSdk (s : SdkSyncState I) (sdk : RemoteSdk I) (info : I) :
    (s.updateSdk sdk).getSdk info =
      if memdbFilename info = memdbFilename sdk.info then some sdk else s.getSdk info :=
  lookup_updateSdk s sdk _

/-- `get_sdk` after `remove_sdk`: nothing for an identity of the same file name, the old answer
otherwise.
Source: `memdb/stash.rs` 97–107
Kind: L -/
@[simp] theorem getSdk_removeSdk (s : SdkSyncState I) (info' info : I) :
    (s.removeSdk info').getSdk info =
      if memdbFilename info = memdbFilename info' then none else s.getSdk info :=
  lookup_removeSdk s info' _

/-- The revision bump leaves every lookup as it was.
Source: `memdb/stash.rs` 364, 394
Kind: L -/
@[simp] theorem getSdk_bumpRevision (s : SdkSyncState I) (info : I) :
    s.bumpRevision.getSdk info = s.getSdk info := rfl

/-- `update_sdk` leaves the revision as it was.
Source: `memdb/stash.rs` 101–103
Kind: L -/
@[simp] theorem updateSdk_revision (s : SdkSyncState I) (sdk : RemoteSdk I) :
    (s.updateSdk sdk).revision = s.revision := rfl

/-- `remove_sdk` leaves the revision as it was.
Source: `memdb/stash.rs` 105–107
Kind: L -/
@[simp] theorem removeSdk_revision (s : SdkSyncState I) (info : I) :
    (s.removeSdk info).revision = s.revision := rfl

/-- The revision bump leaves the map as it was.
Source: `memdb/stash.rs` 364, 394
Kind: L -/
@[simp] theorem bumpRevision_sdks (s : SdkSyncState I) : s.bumpRevision.sdks = s.sdks := rfl

/-- The revision bump sets `revision.unwrap_or(0) + 1`, in `u64`.
Source: `memdb/stash.rs` 364, 394
Kind: L -/
@[simp] theorem bumpRevision_revision (s : SdkSyncState I) :
    s.bumpRevision.revision = some (s.revision.getD 0 + 1) := rfl

/-- The default state (`SdkSyncState::default`) finds nothing.
Source: `memdb/stash.rs` 189
Kind: L -/
@[simp] theorem empty_lookup (k : String) : (empty : SdkSyncState I).sdks.lookup k = none := rfl

/-- The values of the map are the entries found by some key.
Source: none: infrastructure
Kind: L -/
theorem mem_sdkValues {s : SdkSyncState I} {e : RemoteSdk I} :
    e ∈ s.sdkValues ↔ ∃ k, s.sdks.lookup k = some e := by
  simp only [sdkValues, List.mem_map]
  constructor
  · rintro ⟨⟨k, e⟩, hx, rfl⟩
    exact ⟨k, AList.mem_lookup_iff.mpr hx⟩
  · rintro ⟨k, hk⟩
    exact ⟨⟨k, e⟩, AList.mem_lookup_iff.mp hk, rfl⟩

/-- **The key invariant** (spec §3): every key is the `memdb_filename` of its entry's info.
Source: spec §3 "keys are always the canonical filename derived from the value's `info`"
Kind: D -/
def WellKeyed (s : SdkSyncState I) : Prop :=
  ∀ x ∈ s.sdks.entries, memdbFilename x.2.info = x.1

/-- The key invariant is decided entry by entry.
Source: none: infrastructure
Kind: D -/
instance : DecidablePred (WellKeyed (I := I)) := fun s =>
  inferInstanceAs (Decidable (∀ x ∈ s.sdks.entries, memdbFilename x.2.info = x.1))

/-- In a well-keyed state the entry found by a key is stored under its own file name.
Source: none: infrastructure
Kind: L -/
theorem WellKeyed.key_eq {s : SdkSyncState I} (hs : s.WellKeyed) {k : String} {e : RemoteSdk I}
    (h : s.sdks.lookup k = some e) : memdbFilename e.info = k :=
  hs ⟨k, e⟩ (AList.mem_lookup_iff.mp h)

/-- In a well-keyed state every value is found by `get_sdk` of its own info.
Source: none: infrastructure
Kind: L -/
theorem WellKeyed.getSdk_info {s : SdkSyncState I} (hs : s.WellKeyed) {e : RemoteSdk I}
    (he : e ∈ s.sdkValues) : s.getSdk e.info = some e := by
  obtain ⟨k, hk⟩ := mem_sdkValues.mp he
  rw [getSdk_eq, hs.key_eq hk, hk]

/-- A well-keyed state by its lookups: each key finds an entry stored under its own name.
Source: none: infrastructure
Kind: L -/
theorem wellKeyed_iff {s : SdkSyncState I} :
    s.WellKeyed ↔ ∀ k e, s.sdks.lookup k = some e → memdbFilename e.info = k :=
  ⟨fun hs _ _ => hs.key_eq, fun h x hx => h x.1 x.2 (AList.mem_lookup_iff.mpr hx)⟩

/-- In a well-keyed state the file names of the entries' identities are the keys, in order.
Source: `memdb/stash.rs` 96–111
Kind: L -/
theorem WellKeyed.filenames_eq_keys {s : SdkSyncState I} (hs : s.WellKeyed) :
    (s.sdkValues.map RemoteSdk.info).map memdbFilename = s.sdks.keys := by
  simp only [sdkValues, List.map_map, AList.keys, List.keys]
  exact List.map_congr_left fun x hx => hs x hx

/-- A well-keyed state holds each identity once.
Source: `memdb/stash.rs` 96–111
Kind: L -/
theorem WellKeyed.nodup_infos {s : SdkSyncState I} (hs : s.WellKeyed) :
    (s.sdkValues.map RemoteSdk.info).Nodup :=
  List.Nodup.of_map memdbFilename (hs.filenames_eq_keys ▸ s.sdks.keys_nodup)

/-- `update_sdk` keeps the key invariant.
Source: `memdb/stash.rs` 101–103
Kind: L -/
theorem WellKeyed.updateSdk {s : SdkSyncState I} (hs : s.WellKeyed) (sdk : RemoteSdk I) :
    (s.updateSdk sdk).WellKeyed := by
  refine wellKeyed_iff.mpr fun k e h => ?_
  rw [lookup_updateSdk] at h
  split_ifs at h with hk
  · cases h; exact hk.symm
  · exact hs.key_eq h

/-- `remove_sdk` keeps the key invariant.
Source: `memdb/stash.rs` 105–107
Kind: L -/
theorem WellKeyed.removeSdk {s : SdkSyncState I} (hs : s.WellKeyed) (info : I) :
    (s.removeSdk info).WellKeyed := by
  refine wellKeyed_iff.mpr fun k e h => ?_
  rw [lookup_removeSdk] at h
  split_ifs at h
  exact hs.key_eq h

/-- The revision bump keeps the key invariant, and only a well-keyed state bumps to one.
Source: `memdb/stash.rs` 364, 394
Kind: L -/
@[simp] theorem WellKeyed.bumpRevision_iff {s : SdkSyncState I} :
    s.bumpRevision.WellKeyed ↔ s.WellKeyed := Iff.rfl

/-- The default state is well keyed.
Source: `memdb/stash.rs` 189
Kind: L -/
theorem wellKeyed_empty : (empty : SdkSyncState I).WellKeyed := fun _ h => by cases h

end SdkSyncState

open SdkSyncState

/-- The loop of `fetch_remote_state`: each listed SDK is inserted under its info's file name,
a later one replacing an earlier one of the same name.
Source: `memdb/stash.rs` 216–219
Kind: D
Fidelity: exact -/
def insertListed (m : AList (fun _ : String => RemoteSdk I)) (listing : List (RemoteSdk I)) :
    AList (fun _ : String => RemoteSdk I) :=
  listing.foldl (fun m sdk => m.insert (memdbFilename sdk.info) sdk) m

/-- The remote state built from a listing: its SDKs by file name, and no revision.
Source: `memdb/stash.rs` 216–220
Kind: D
Fidelity: exact -/
def remoteStateOf (listing : List (RemoteSdk I)) : SdkSyncState I :=
  ⟨insertListed ∅ listing, none⟩

/-- `fetch_remote_state`: the upstream listing (`list_upstream_sdks`, whose error is passed
on) as a state.
Source: `memdb/stash.rs` 215–221
Kind: D
Fidelity: exact -/
def fetchRemoteState (upstream : Except ErrorKind (List (RemoteSdk I))) :
    Except ErrorKind (SdkSyncState I) :=
  upstream.map remoteStateOf

/-- The listing loop keeps the key invariant.
Source: `memdb/stash.rs` 217–219
Kind: L -/
theorem wellKeyed_insertListed (listing : List (RemoteSdk I)) :
    ∀ m : AList (fun _ : String => RemoteSdk I), (⟨m, none⟩ : SdkSyncState I).WellKeyed →
      (⟨insertListed m listing, none⟩ : SdkSyncState I).WellKeyed := by
  induction listing with
  | nil => exact fun _ h => h
  | cons sdk rest ih => exact fun m h => ih _ (h.updateSdk sdk)

/-- An entry inserted from a listing was already there or comes from the listing.
Source: `memdb/stash.rs` 215–221
Kind: L -/
theorem mem_of_lookup_insertListed (listing : List (RemoteSdk I)) :
    ∀ (m : AList (fun _ : String => RemoteSdk I)) {k : String} {e : RemoteSdk I},
      (insertListed m listing).lookup k = some e → m.lookup k = some e ∨ e ∈ listing := by
  induction listing with
  | nil => exact fun _ _ _ h => .inl h
  | cons sdk rest ih =>
    intro m k e h
    rcases ih _ h with h | h
    · by_cases hk : k = memdbFilename sdk.info
      · subst hk
        rw [AList.lookup_insert] at h
        cases h
        exact .inr (List.mem_cons_self _ _)
      · rw [AList.lookup_insert_ne hk] at h
        exact .inl h
    · exact .inr (List.mem_cons_of_mem _ h)

/-- Every entry of the remote state is an entry of the listing.
Source: `memdb/stash.rs` 215–221
Kind: L -/
theorem mem_listing_of_mem_remoteStateOf {listing : List (RemoteSdk I)} {e : RemoteSdk I}
    (he : e ∈ (remoteStateOf listing).sdkValues) : e ∈ listing := by
  obtain ⟨k, hk⟩ := mem_sdkValues.mp he
  rcases mem_of_lookup_insertListed listing ∅ hk with h | h
  · cases h
  · exact h

/-- **The listing loop, by the listing**: under each key the loop finds the last listed SDK
filed under that name, and what the map held before when no listed SDK is.
Source: `memdb/stash.rs` 216–219
Kind: L -/
theorem lookup_insertListed_eq (listing : List (RemoteSdk I)) :
    ∀ (m : AList (fun _ : String => RemoteSdk I)) (k : String),
      (insertListed m listing).lookup k =
        (listing.reverse.find? fun r => memdbFilename r.info == k).or (m.lookup k) := by
  induction listing with
  | nil => intro m k; rfl
  | cons sdk rest ih =>
    intro m k
    show (insertListed (m.insert (memdbFilename sdk.info) sdk) rest).lookup k = _
    rw [ih, List.reverse_cons, List.find?_append, Option.or_assoc]
    by_cases hk : memdbFilename sdk.info = k
    · subst hk; simp
    · simp [hk, AList.lookup_insert_ne (Ne.symm hk)]

/-- **`fetch_remote_state` by the listing**: the remote state finds, under each file
name, the last SDK the listing files under that name, and nothing when the listing has none.
So every listed identity is found, with the last of its entries.
Source: `memdb/stash.rs` 215–221
Kind: L -/
theorem lookup_remoteStateOf (listing : List (RemoteSdk I)) (k : String) :
    (remoteStateOf listing).sdks.lookup k =
      listing.reverse.find? fun r => memdbFilename r.info == k := by
  rw [remoteStateOf, lookup_insertListed_eq]
  exact Option.or_none

/-- The remote state of any listing is well keyed.
Source: `memdb/stash.rs` 215–221
Kind: L -/
theorem wellKeyed_remoteStateOf (listing : List (RemoteSdk I)) :
    (remoteStateOf listing).WellKeyed :=
  wellKeyed_insertListed listing ∅ wellKeyed_empty

/-- A listing that arrives becomes its remote state.
Source: `memdb/stash.rs` 215–221
Kind: L -/
@[simp] theorem fetchRemoteState_ok (listing : List (RemoteSdk I)) :
    fetchRemoteState (.ok listing) = .ok (remoteStateOf listing) := rfl

/-- `sdk_is_ignored`: the ignore patterns match the SDK's id.
Source: `memdb/stash.rs` 327–329
Kind: D
Fidelity: exact -/
def sdkIsIgnored (patterns : IgnorePatterns) (info : I) : Bool :=
  patterns.isMatch (sdkId info)

/-- Sample identities, used to evaluate the model on concrete inputs: `n : ℕ` in its usual
order, whose file name and id are the text of `n` letters `x`.
Source: none: test data
Kind: D -/
instance : SdkInfo ℕ :=
  { (inferInstance : LinearOrder ℕ) with
    memdbFilename := fun n => String.mk (List.replicate n 'x')
    sdkId := fun n => String.mk (List.replicate n 'x') }

/-- The sample identities have distinct file names.
Source: none: infrastructure
Kind: L -/
theorem memdbFilename_nat_injective : Function.Injective (memdbFilename : ℕ → String) := by
  intro a b h
  have hl : (String.mk (List.replicate a 'x')).length = (String.mk (List.replicate b 'x')).length :=
    congrArg String.length h
  simpa using hl

end SymbolServer.Memdb
