import SymbolServer.Memdb.GetMemdb
import Mathlib.Data.Prod.Lex

/-!
# `fuzzy_match_sdk_id`: the local identities ranked against a query

`fuzzy_match_sdk_id` parses the query text with `SdkInfo::from_filename`, scores every
identity of the local state against it with `get_fuzzy_match` (99999 when they do not match),
sorts the scored identities by the key `(score, candidate > target, Rev(candidate))` and
returns the first ten identities.

* `SdkInfoMatch` — the two methods of `SdkInfo` the function calls (`sdk.rs` is not among the
  sources).
* `getMemdbFromSdkId` — `get_memdb` of the identity a text names.
* `sortByKey`, `fuzzyKey`, `fuzzyMatchSdkId` — `sort_by_key`, its key, and the function.
* `fuzzyMatchSdkId_eq` — the function ranks the local identities by `rankKey`, the key of an
  identity with its own score, and keeps the first ten (`fuzzyRank`).
* `rankKey_injective` — no two identities share a key, since its last component is the
  identity; so the ranking order is a linear order and a sorted list is unique.
* **`fuzzy_match_ranks_local_identities`** — over a well-keyed local state, a query that does
  not parse gives no identity, and a parsed one the `min 10 n` least local identities in
  strictly increasing key order, whatever order the map yields its entries in; a local target
  that scores no worse than every local identity comes first.
-/

set_option linter.unusedSectionVars false

namespace SymbolServer.Memdb

open SdkSyncState

/-- The methods of the identity type that `fuzzy_match_sdk_id` calls besides its order.
Source: `memdb/stash.rs` 431, 442, 446
Kind: D
Fidelity: interface -/
class SdkInfoMatch (I : Type) where
  /-- `SdkInfo::from_filename`: the identity a text names, when it has an identity's shape. -/
  fromFilename : String → Option I
  /-- `SdkInfo::get_fuzzy_match`: how far an identity is from a target, lower being closer;
  `None` when the two do not match at all. Its integer type is not among the sources; each
  machine integer type embeds in `ℤ` with its order. -/
  getFuzzyMatch : I → I → Option ℤ

export SdkInfoMatch (fromFilename getFuzzyMatch)

/-- `get_memdb_from_sdk_id`: `get_memdb` of the identity a text names, `UnknownSdk` when the
text does not parse.
Source: `memdb/stash.rs` 429–436
Kind: D
Fidelity: exact -/
def getMemdbFromSdkId {I : Type} [SdkInfo I] [SdkInfoMatch I] (sdkId : String) (w : MemDbStash I) :
    Except ErrorKind (MemDb I) × MemDbStash I :=
  match fromFilename sdkId with
  | some sdkInfo => getMemdb sdkInfo w
  | none => (.error .unknownSdk, w)

/-- `sort_by_key`: a stable sort by a key. Insertion sort is stable, and two stable sorts by one
key agree.
Source: `memdb/stash.rs` 449
Kind: D
Fidelity: exact -/
def sortByKey {α κ : Type} [LinearOrder κ] (key : α → κ) (l : List α) : List α :=
  l.insertionSort fun a b => key a ≤ key b

variable {I : Type} [SdkInfo I] [SdkInfoMatch I]

/-- The score `other.info().get_fuzzy_match(&sdk_info).unwrap_or(99999)`.
Source: `memdb/stash.rs` 446
Kind: D
Fidelity: exact -/
def fuzzyScore (target other : I) : ℤ :=
  (getFuzzyMatch other target).getD 99999

/-- The key `(q, info > &sdk_info, Rev(info.clone()))` of a scored identity: Rust orders tuples
lexicographically and `false` before `true`, and `Rev` reverses the order.
Source: `memdb/stash.rs` 449
Kind: D
Fidelity: exact -/
def fuzzyKey (target : I) (entry : ℤ × I) : Lex (ℤ × Lex (Bool × Iᵒᵈ)) :=
  toLex (entry.1, toLex (decide (target < entry.2), OrderDual.toDual entry.2))

/-- `fuzzy_match_sdk_id`: the error of `get_local_state`, or the first ten identities of the
local state sorted by `fuzzyKey` against the parsed query, and none when the query does not
parse.
Source: `memdb/stash.rs` 438–454
Kind: D
Fidelity: exact -/
def fuzzyMatchSdkId (sdkId : String) (w : MemDbStash I) :
    Except ErrorKind (List I) × MemDbStash I :=
  match w.getLocalState with
  | (.error e, w') => (.error e, w')
  | (.ok localState, w') =>
    let rv : List (ℤ × I) :=
      match fromFilename sdkId with
      | some sdkInfo =>
        sortByKey (fuzzyKey sdkInfo)
          (localState.sdkValues.map fun other => (fuzzyScore sdkInfo other.info, other.info))
      | none => []
    (.ok ((rv.take 10).map Prod.snd), w')

/-! ## The ranking order -/

/-- The key a local identity is ranked by: `fuzzyKey` of the identity with its own score.
Source: `memdb/stash.rs` 444–449
Kind: D -/
def rankKey (target i : I) : Lex (ℤ × Lex (Bool × Iᵒᵈ)) :=
  fuzzyKey target (fuzzyScore target i, i)

/-- The ranking order: by `rankKey`.
Source: `memdb/stash.rs` 449
Kind: D -/
def RankLe (target i j : I) : Prop :=
  rankKey target i ≤ rankKey target j

/-- The ranking order is decided by comparing keys.
Source: `memdb/stash.rs` 449
Kind: L -/
instance (target : I) : DecidableRel (RankLe target) := fun i j =>
  inferInstanceAs (Decidable (rankKey target i ≤ rankKey target j))

/-- The first ten identities in the ranking order.
Source: `memdb/stash.rs` 449–453
Kind: D -/
def fuzzyRank (target : I) (ids : List I) : List I :=
  (ids.insertionSort (RankLe target)).take 10

/-- No two identities share a key: its last component is the identity itself.
Source: `memdb/stash.rs` 449
Kind: L -/
theorem rankKey_injective (target : I) : Function.Injective (rankKey target) :=
  fun _ _ h => OrderDual.toDual.injective (congrArg (fun k => (ofLex (ofLex k).2).2) h)

/-- Any two identities compare: keys are linearly ordered.
Source: `memdb/stash.rs` 449
Kind: L -/
instance (target : I) : IsTotal I (RankLe target) := ⟨fun _ _ => le_total _ _⟩

/-- The ranking order is transitive.
Source: `memdb/stash.rs` 449
Kind: L -/
instance (target : I) : IsTrans I (RankLe target) :=
  ⟨fun _ _ _ => (inferInstance : LinearOrder (Lex (ℤ × Lex (Bool × Iᵒᵈ)))).le_trans _ _ _⟩

/-- Two identities that rank alike are equal: the key ends with the identity.
Source: `memdb/stash.rs` 449
Kind: L -/
instance (target : I) : IsAntisymm I (RankLe target) :=
  ⟨fun _ _ h h' => rankKey_injective target
    ((inferInstance : LinearOrder (Lex (ℤ × Lex (Bool × Iᵒᵈ)))).le_antisymm _ _ h h')⟩

/-- A target that scores no worse than an identity ranks no later: on a tie in score, an
identity greater than the target has the greater second component, and one below it the
greater reversed third.
Source: `memdb/stash.rs` 449
Kind: L -/
theorem rankKey_le_of_score_le {target i : I}
    (h : fuzzyScore target target ≤ fuzzyScore target i) : RankLe target target i := by
  unfold RankLe rankKey fuzzyKey
  rw [Prod.Lex.le_iff]
  rcases h.lt_or_eq with h | h
  · exact .inl h
  refine .inr ⟨h, (Prod.Lex.le_iff _ _).mpr ?_⟩
  by_cases hti : target < i
  · exact .inl (by simp [hti])
  · exact .inr ⟨by simp [hti], not_lt.mp hti⟩

/-! ## What `fuzzy_match_sdk_id` computes -/

/-- **The code ranks the local identities.** Once `get_local_state` has returned a state,
`fuzzy_match_sdk_id` returns the first ten of its identities in the ranking order, and none when
the query does not parse.
Source: `memdb/stash.rs` 438–454
Kind: L -/
theorem fuzzyMatchSdkId_eq {w w' : MemDbStash I} {L : SdkSyncState I}
    (hL : w.getLocalState = (.ok L, w')) (sdkId : String) :
    fuzzyMatchSdkId sdkId w =
      (.ok ((fromFilename sdkId).elim [] fun t => fuzzyRank t (L.sdkValues.map RemoteSdk.info)),
        w') := by
  unfold fuzzyMatchSdkId
  rw [hL]
  rcases fromFilename sdkId with _ | t
  · rfl
  have hscored : L.sdkValues.map (fun other => (fuzzyScore t other.info, other.info)) =
      (L.sdkValues.map RemoteSdk.info).map fun i => (fuzzyScore t i, i) := by
    rw [List.map_map]; rfl
  simp only [Option.elim, sortByKey, fuzzyRank, hscored]
  rw [← List.map_insertionSort (RankLe t) (fun a b => fuzzyKey t a ≤ fuzzyKey t b)
    (fun i => (fuzzyScore t i, i)) _ fun _ _ _ _ => Iff.rfl, ← List.map_take, List.map_map]
  simp [Function.comp_def]

section fuzzyRank

variable {target : I} {ids : List I}

/-- At most ten identities are returned, fewer only when fewer are known.
Source: `memdb/stash.rs` 453
Kind: L -/
theorem length_fuzzyRank : (fuzzyRank target ids).length = min 10 ids.length := by
  rw [fuzzyRank, List.length_take, List.length_insertionSort]

/-- Every identity returned is one of those given.
Source: `memdb/stash.rs` 445–453
Kind: L -/
theorem mem_of_mem_fuzzyRank {i : I} (hi : i ∈ fuzzyRank target ids) : i ∈ ids :=
  (List.mem_insertionSort _).mp (List.mem_of_mem_take hi)

/-- Without duplicates, the sorted identities strictly increase in key.
Source: `memdb/stash.rs` 449
Kind: L -/
theorem pairwise_rankKey_lt (hn : ids.Nodup) :
    (ids.insertionSort (RankLe target)).Pairwise fun i j => rankKey target i < rankKey target j :=
  ((List.sorted_insertionSort _ _).and ((List.perm_insertionSort _ _).nodup_iff.mpr hn)).imp
    fun ⟨hle, hne⟩ => lt_of_le_of_ne hle ((rankKey_injective target).ne hne)

/-- Distinct identities in, no identity twice out.
Source: `memdb/stash.rs` 449–453
Kind: L -/
theorem nodup_fuzzyRank (hn : ids.Nodup) : (fuzzyRank target ids).Nodup :=
  ((List.perm_insertionSort _ _).nodup_iff.mpr hn).sublist (List.take_sublist _ _)

/-- The identities returned strictly increase in key.
Source: `memdb/stash.rs` 449–453
Kind: L -/
theorem sorted_fuzzyRank (hn : ids.Nodup) :
    (fuzzyRank target ids).Sorted fun i j => rankKey target i < rankKey target j :=
  (pairwise_rankKey_lt hn).sublist (List.take_sublist _ _)

/-- An identity among the first ten ranks before every identity left out.
Source: `memdb/stash.rs` 449–453
Kind: L -/
theorem rankKey_lt_of_mem_fuzzyRank (hn : ids.Nodup) {i j : I} (hi : i ∈ fuzzyRank target ids)
    (hj : j ∈ ids) (hj' : j ∉ fuzzyRank target ids) : rankKey target i < rankKey target j := by
  have hjS : j ∈ ids.insertionSort (RankLe target) := (List.mem_insertionSort _).mpr hj
  rw [← List.take_append_drop 10 (ids.insertionSort _), List.mem_append] at hjS
  exact (pairwise_rankKey_lt hn).rel_of_mem_take_of_mem_drop hi (hjS.resolve_left hj')

/-- The ranking depends on the identities only, not on the order they come in.
Source: `memdb/stash.rs` 444–449
Kind: L -/
theorem fuzzyRank_eq_of_perm {ids' : List I} (h : ids.Perm ids') :
    fuzzyRank target ids = fuzzyRank target ids' := by
  unfold fuzzyRank
  rw [List.eq_of_perm_of_sorted
    ((List.perm_insertionSort _ _).trans (h.trans (List.perm_insertionSort _ _).symm))
    (List.sorted_insertionSort _ _) (List.sorted_insertionSort _ _)]

/-- A target among the identities that scores no worse than each of them comes first.
Source: `memdb/stash.rs` 449
Kind: L -/
theorem head?_fuzzyRank (ht : target ∈ ids)
    (hmin : ∀ i ∈ ids, fuzzyScore target target ≤ fuzzyScore target i) :
    (fuzzyRank target ids).head? = some target := by
  have hS := List.sorted_insertionSort (RankLe target) ids
  have hmem : ∀ {i}, i ∈ ids.insertionSort (RankLe target) ↔ i ∈ ids := List.mem_insertionSort _
  rcases hc : ids.insertionSort (RankLe target) with _ | ⟨h, rest⟩
  · exact absurd (hc ▸ hmem.mpr ht) (List.not_mem_nil _)
  rw [fuzzyRank, hc, List.take_succ_cons, List.head?_cons, Option.some_inj]
  -- the head ranks no later than the target, and the target no later than the head
  have hh : h ∈ ids := hmem.mp (hc ▸ List.mem_cons_self _ _)
  rcases List.mem_cons.mp (hc ▸ hmem.mpr ht) with hth | htr
  · exact hth.symm
  · exact antisymm (List.rel_of_sorted_cons (hc ▸ hS) _ htr) (rankKey_le_of_score_le (hmin h hh))

end fuzzyRank

/-- **`fuzzy_match_sdk_id` ranks the local identities.** For every well-keyed local state that
`get_local_state` returns and every query text: a text that does not parse gives no identity;
for a parsed target `t`, the result holds `min 10 n` of the `n` local identities, strictly
increasing in `rankKey t` (the key `(score, i > t, Rev(i))`), so without duplicates, and each
ranks before every local identity left out; every well-keyed local state with the same
identities, in whatever order its map yields them, gives the same result; and when `t` is a
local identity that scores no worse than every local identity, it comes first.
Source: `memdb/stash.rs` 96–111, 438–454
Kind: P -/
theorem fuzzy_match_ranks_local_identities {w : MemDbStash I} {L : SdkSyncState I}
    (hL : w.getLocalState.1 = .ok L) (hkeys : L.WellKeyed) (sdkId : String) :
    let ids : List I := L.sdkValues.map RemoteSdk.info
    ∃ r, (fuzzyMatchSdkId sdkId w).1 = .ok r ∧
      (fromFilename sdkId = (none : Option I) → r = []) ∧
      ∀ t, fromFilename sdkId = some t →
        r.length = min 10 ids.length ∧
        r.Sorted (fun i j => rankKey t i < rankKey t j) ∧
        r.Nodup ∧
        (∀ i ∈ r, i ∈ ids) ∧
        (∀ i ∈ r, ∀ j ∈ ids, j ∉ r → rankKey t i < rankKey t j) ∧
        (∀ (w' : MemDbStash I) (L' : SdkSyncState I), w'.getLocalState.1 = .ok L' →
          L'.WellKeyed → (∀ i, i ∈ L'.sdkValues.map RemoteSdk.info ↔ i ∈ ids) →
            (fuzzyMatchSdkId sdkId w').1 = .ok r) ∧
        (t ∈ ids → (∀ i ∈ ids, fuzzyScore t t ≤ fuzzyScore t i) → r.head? = some t) := by
  intro ids
  refine ⟨_, congrArg Prod.fst (fuzzyMatchSdkId_eq (Prod.ext hL rfl) sdkId),
    fun h => by rw [h]; rfl, fun t ht => ?_⟩
  rw [ht]
  have hn : ids.Nodup := hkeys.nodup_infos
  refine ⟨length_fuzzyRank, sorted_fuzzyRank hn, nodup_fuzzyRank hn,
    fun _ => mem_of_mem_fuzzyRank, fun _ hi _ => rankKey_lt_of_mem_fuzzyRank hn hi,
    fun w' L' hL' hkeys' hsame => ?_, head?_fuzzyRank⟩
  -- the same identities in another order: a permutation, ranked alike
  rw [fuzzyMatchSdkId_eq (Prod.ext hL' rfl) sdkId, ht]
  exact congrArg Except.ok
    (fuzzyRank_eq_of_perm ((List.perm_ext_iff_of_nodup hkeys'.nodup_infos hn).mpr hsame))

/-! ## A sample -/

/-- Sample identities parse from their file names, and match the identities of their decade at
the distance between them.
Source: none: test data
Kind: D -/
instance : SdkInfoMatch ℕ where
  fromFilename s := if s.data.all (· == 'x') then some s.length else none
  getFuzzyMatch i t := if i / 10 = t / 10 then some (((i : ℤ) - t).natAbs : ℤ) else none

/-- A stash whose `sync.state` records the identities `12`, `3`, `15` and `11`, in that order.
Source: none: test data
Kind: D -/
def sampleFuzzyStash : MemDbStash ℕ :=
  MemDbStash.new (fun _ => none)
    (.saved (remoteStateOf [sampleSdk 12 "a", sampleSdk 3 "a", sampleSdk 15 "a", sampleSdk 11 "a"]))
    ⟨fun _ => false⟩

/-- Against `11`: `11` itself (score 0), `12` (score 1), `15` (score 4), then `3`, which does
not match. A query that is not a file name gives nothing.
Source: `memdb/stash.rs` 96–111, 438–454
Kind: N+ -/
example : (fuzzyMatchSdkId (memdbFilename 11) sampleFuzzyStash).1.toOption = some [11, 12, 15, 3] ∧
    (fuzzyMatchSdkId "1.2" sampleFuzzyStash).1.toOption = some [] := by
  decide

/-- The ranking at the sample stash and the query `11`, which is local and scores 0.
Source: `memdb/stash.rs` 96–111, 438–454
Kind: N+ -/
theorem fuzzy_match_ranks_local_identities_sample :
    ∃ r, (fuzzyMatchSdkId (memdbFilename 11) sampleFuzzyStash).1 = .ok r ∧ r.length = 4 ∧
      r.head? = some 11 := by
  obtain ⟨r, hr, -, h⟩ := fuzzy_match_ranks_local_identities (w := sampleFuzzyStash) rfl
    (wellKeyed_remoteStateOf _) (memdbFilename 11)
  obtain ⟨hlen, -, -, -, -, -, hhead⟩ := h 11 (by decide)
  exact ⟨r, hr, hlen.trans (by decide), hhead (by decide) (by decide)⟩

end SymbolServer.Memdb
