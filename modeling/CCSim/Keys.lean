/-
# Random keys

`cluster.c` draws keys, from all of them or from those of one partition.  A key belongs to the
partition that is its remainder (`partition_for_key`).  The uniform generator moves a random key on to
the next one of the partition, and asserts that it is one (`clusterRandomKeyOnPartition_spec`).  The
Zipfian one adds a random number to the start of a block of keys, as if the partitions held blocks;
what it returns is a key of its partition only by accident (`zipf_key_on_partition`).

The random values of the simulation library are arguments here.  `none` is a failed assertion.
-/
import CCSim.Cluster
import Mathlib.Algebra.Order.Ring.Int
import Mathlib.Data.Nat.ModEq
import Mathlib.Tactic.Ring

namespace CCSim

/-! ## 1. Configuration and assertions -/

/-- `INT_MAX`. -/
def intMax : ℕ := 2 ^ 31 - 1

/-- `UINT_MAX`. -/
def uintMax : ℕ := 2 ^ 32 - 1

/-- The number of values of `gr_key`. -/
def keySize : ℕ := 2 ^ 64

/-- What `cluster_config_t` says about keys. -/
structure KeyConfig where
  numPartitions : ℕ
  keyMax : ℕ
  numPartitions_pos : 0 < numPartitions
  numPartitions_lt : numPartitions < uintSize
  keyMax_lt : keyMax < uintSize

/-- `random_uint`, for the value that `RandomRange` returns. -/
def randomUint (min max random : ℕ) : Option ℕ :=
  if min < max ∧ max ≤ intMax then some random else none

/-- `inc_range`, for an `unsigned int`. -/
def incRange (value min max : ℕ) : ℕ :=
  if max < (value + 1) % uintSize then min else (value + 1) % uintSize

/-- The conversion of an `int` to `gr_key`. -/
def keyOfInt (random : ℤ) : ℕ := (random % keySize).toNat

variable (K : KeyConfig)

/-- `partition_for_key`. -/
def KeyConfig.partitionForKey (key : ℕ) : ℕ := key % K.numPartitions

/-! ## 2. Uniform keys -/

/-- `cluster_random_key`, for the value that `RandomRange` returns. -/
def clusterRandomKey (random : ℤ) : Option ℕ :=
  if K.keyMax = uintMax then some (keyOfInt random)
  else if K.keyMax ≤ intMax then some (keyOfInt random)
  else none

/-- `cluster_random_key_on_partition`, after the key is drawn and before the last assertion. -/
def moveToPartition (partition key : ℕ) : ℕ :=
  let p := K.partitionForKey key
  if p = partition then key
  else
    let delta :=
      if p < partition then partition - p else (K.numPartitions - p + partition) % uintSize
    let newKey := (key + delta) % keySize
    if key < newKey then
      if newKey ≤ K.keyMax then newKey else partition
    else partition

/-- `cluster_random_key_on_partition`. -/
def clusterRandomKeyOnPartition (random : ℤ) (partition : ℕ) : Option ℕ :=
  if partition < K.numPartitions then
    (clusterRandomKey K random).bind fun key =>
      let key := moveToPartition K partition key
      if partition = K.partitionForKey key then some key else none
  else none

variable {K}

/-- The key that is moved stays in range, and gets to the partition. -/
theorem moveToPartition_spec {partition key : ℕ} (hkeys : K.numPartitions ≤ K.keyMax)
    (hpartition : partition < K.numPartitions) (hkey : key ≤ K.keyMax) :
    moveToPartition K partition key ≤ K.keyMax ∧
      K.partitionForKey (moveToPartition K partition key) = partition := by
  have hself : partition ≤ K.keyMax ∧ K.partitionForKey partition = partition :=
    ⟨(hpartition.trans_le hkeys).le, Nat.mod_eq_of_lt hpartition⟩
  have hp : K.partitionForKey key < K.numPartitions := Nat.mod_lt _ K.numPartitions_pos
  have hmod : K.partitionForKey key + K.numPartitions * (key / K.numPartitions) = key :=
    Nat.mod_add_div _ _
  have hsize : 2 * uintSize ≤ keySize := by decide
  have hlt := K.keyMax_lt
  have hPlt := K.numPartitions_lt
  unfold moveToPartition
  dsimp only
  split
  · rename_i heq
    exact ⟨hkey, heq⟩
  · rename_i hne
    split <;> rename_i hless
    · -- the next key of the partition has the same quotient
      rw [Nat.mod_eq_of_lt (by omega), if_pos (by omega)]
      split
      · rename_i hle
        refine ⟨hle, ?_⟩
        have hsum : key + (partition - K.partitionForKey key) =
            partition + K.numPartitions * (key / K.numPartitions) := by omega
        rw [KeyConfig.partitionForKey, hsum, Nat.add_mul_mod_self_left, Nat.mod_eq_of_lt hpartition]
      · exact hself
    · -- or the next quotient
      have hdelta : K.numPartitions - K.partitionForKey key + partition < uintSize := by omega
      rw [Nat.mod_eq_of_lt hdelta, Nat.mod_eq_of_lt (by omega), if_pos (by omega)]
      split
      · rename_i hle
        refine ⟨hle, ?_⟩
        have hsum : key + (K.numPartitions - K.partitionForKey key + partition) =
            partition + K.numPartitions * (key / K.numPartitions + 1) := by
          rw [Nat.mul_add, Nat.mul_one]
          omega
        rw [KeyConfig.partitionForKey, hsum, Nat.add_mul_mod_self_left, Nat.mod_eq_of_lt hpartition]
      · exact hself

/-- **The uniform generator** returns a key of its partition: its last assertion holds. -/
theorem clusterRandomKeyOnPartition_spec {random : ℤ} {partition key : ℕ}
    (hkeys : K.numPartitions ≤ K.keyMax) (hpartition : partition < K.numPartitions)
    (hdrawn : clusterRandomKey K random = some key) (hkey : key ≤ K.keyMax) :
    ∃ key', clusterRandomKeyOnPartition K random partition = some key' ∧ key' ≤ K.keyMax ∧
      K.partitionForKey key' = partition := by
  obtain ⟨hle, hmod⟩ := moveToPartition_spec hkeys hpartition hkey
  refine ⟨moveToPartition K partition key, ?_, hle, hmod⟩
  rw [clusterRandomKeyOnPartition, if_pos hpartition, hdrawn, Option.bind_some]
  exact if_pos hmod.symm

/-! ## 3. Zipfian keys -/

variable (K)

/-- `cluster_random_key_zipf`, for the value that `Zipf` returns. -/
def clusterRandomKeyZipf (zipf : ℕ) : Option ℕ := if K.keyMax ≤ intMax then some zipf else none

/-- The argument of `Zipf` in `cluster_random_key_zipf_on_partition`. -/
def keysPerPartition : ℕ := K.keyMax / K.numPartitions

/-- `cluster_random_key_zipf_on_partition`, for the value that `Zipf` returns. -/
def clusterRandomKeyZipfOnPartition (partition zipf : ℕ) : Option ℕ :=
  if keysPerPartition K < intMax then
    some ((partition * keysPerPartition K + zipf) % keySize)
  else none

/-- What callers rely on: a key that there is, of the partition that they asked for. -/
def KeyOnPartition (partition : ℕ) (key : Option ℕ) : Prop :=
  ∃ k ∈ key, k ≤ K.keyMax ∧ K.partitionForKey k = partition

variable {K}

/-- The key is one that there is. -/
theorem zipf_key_le {partition zipf : ℕ} (hpartition : partition < K.numPartitions)
    (hzipf : zipf ≤ keysPerPartition K) :
    partition * keysPerPartition K + zipf ≤ K.keyMax := by
  calc partition * keysPerPartition K + zipf
      ≤ partition * keysPerPartition K + keysPerPartition K := Nat.add_le_add_left hzipf _
    _ = (partition + 1) * keysPerPartition K := (Nat.succ_mul _ _).symm
    _ ≤ K.numPartitions * keysPerPartition K := Nat.mul_le_mul_right _ hpartition
    _ ≤ K.keyMax := Nat.mul_div_le _ _

/-- When a key of the block of a partition is a key of the partition. -/
theorem zipf_key_mod {partition zipf : ℕ} (hpartition : partition < K.numPartitions)
    (hper : 0 < keysPerPartition K) :
    K.partitionForKey (partition * keysPerPartition K + zipf) = partition ↔
      K.numPartitions ∣ partition * (keysPerPartition K - 1) + zipf := by
  have hsum : partition * keysPerPartition K + zipf =
      partition + (partition * (keysPerPartition K - 1) + zipf) := by
    obtain ⟨n, hn⟩ := Nat.exists_eq_add_of_lt hper
    rw [hn, Nat.zero_add, Nat.add_sub_cancel, Nat.mul_add, Nat.mul_one]
    ring
  rw [KeyConfig.partitionForKey, hsum]
  constructor
  · intro h
    have hmod : partition + (partition * (keysPerPartition K - 1) + zipf) ≡ partition + 0
        [MOD K.numPartitions] := h.trans (Nat.mod_eq_of_lt hpartition).symm
    exact (Nat.modEq_zero_iff_dvd).mp (Nat.ModEq.add_left_cancel' partition hmod)
  · intro h
    rw [Nat.add_mod, Nat.mod_eq_zero_of_dvd h, Nat.add_zero, Nat.mod_mod,
      Nat.mod_eq_of_lt hpartition]

theorem keyOnPartition_zipf {partition zipf : ℕ} (hkeys : K.numPartitions ≤ K.keyMax)
    (hpartition : partition < K.numPartitions) (hzipf : zipf ≤ keysPerPartition K) :
    KeyOnPartition K partition (clusterRandomKeyZipfOnPartition K partition zipf) ↔
      keysPerPartition K < intMax ∧
        K.numPartitions ∣ partition * (keysPerPartition K - 1) + zipf := by
  have hper : 0 < keysPerPartition K := Nat.div_pos hkeys K.numPartitions_pos
  have hle := zipf_key_le hpartition hzipf
  have hlt : partition * keysPerPartition K + zipf < keySize :=
    (hle.trans_lt K.keyMax_lt).trans (by decide)
  unfold KeyOnPartition clusterRandomKeyZipfOnPartition
  by_cases hassert : keysPerPartition K < intMax
  · rw [if_pos hassert, Nat.mod_eq_of_lt hlt, ← zipf_key_mod hpartition hper]
    constructor
    · rintro ⟨k, ⟨⟩, -, hmod⟩
      exact ⟨hassert, hmod⟩
    · rintro ⟨-, hmod⟩
      exact ⟨_, rfl, hle, hmod⟩
  · rw [if_neg hassert]
    constructor
    · rintro ⟨k, ⟨⟩, -⟩
    · rintro ⟨h, -⟩
      exact absurd h hassert

/-- **The Zipfian generator** returns a key of the partition exactly if its assertion holds and the
number of partitions divides `p * (n - 1) + z`, where `n` is the number of keys in a block.  It does
so for all partitions and all values of `Zipf` only if there is just one partition. -/
theorem zipf_key_on_partition (K : KeyConfig) (hkeys : K.numPartitions ≤ K.keyMax) :
    (∀ partition < K.numPartitions, ∀ zipf, 1 ≤ zipf → zipf ≤ keysPerPartition K →
      (KeyOnPartition K partition (clusterRandomKeyZipfOnPartition K partition zipf) ↔
        keysPerPartition K < intMax ∧
          K.numPartitions ∣ partition * (keysPerPartition K - 1) + zipf)) ∧
    ((∀ partition < K.numPartitions, ∀ zipf, 1 ≤ zipf → zipf ≤ keysPerPartition K →
      KeyOnPartition K partition (clusterRandomKeyZipfOnPartition K partition zipf)) ↔
        K.numPartitions = 1 ∧ K.keyMax < intMax) := by
  have hper : 0 < keysPerPartition K := Nat.div_pos hkeys K.numPartitions_pos
  refine ⟨fun partition hpartition zipf _ hzipf => keyOnPartition_zipf hkeys hpartition hzipf, ?_⟩
  constructor
  · intro hall
    -- the first key of the first block is key 1, which is on partition 1 unless there is none
    obtain ⟨hassert, hdvd⟩ := (keyOnPartition_zipf hkeys K.numPartitions_pos hper).mp
      (hall 0 K.numPartitions_pos 1 le_rfl hper)
    rw [Nat.zero_mul, Nat.zero_add] at hdvd
    have hone := Nat.dvd_one.mp hdvd
    rw [keysPerPartition, hone, Nat.div_one] at hassert
    exact ⟨hone, hassert⟩
  · rintro ⟨hone, hassert⟩ partition hpartition zipf - hzipf
    refine (keyOnPartition_zipf hkeys hpartition hzipf).mpr ⟨?_, ?_⟩
    · rwa [keysPerPartition, hone, Nat.div_one]
    · rw [hone]
      exact Nat.one_dvd _

/-- Two partitions, and keys up to 4. -/
def twoPartitionKeys : KeyConfig := ⟨2, 4, by decide, by decide, by decide⟩

theorem zipf_key_on_partition_two :
    KeyOnPartition twoPartitionKeys 0 (clusterRandomKeyZipfOnPartition twoPartitionKeys 0 2) :=
  ((zipf_key_on_partition twoPartitionKeys (by decide)).1 0 (by decide) 2 (by decide)
    (by decide)).mpr ⟨by decide, by decide⟩

/-- The most frequent key for partition 0 is a key of partition 1. -/
theorem zipf_key_elsewhere :
    clusterRandomKeyZipfOnPartition twoPartitionKeys 0 1 = some 1 ∧
      twoPartitionKeys.partitionForKey 1 = 1 ∧
      ¬KeyOnPartition twoPartitionKeys 0 (clusterRandomKeyZipfOnPartition twoPartitionKeys 0 1) := by
  refine ⟨by decide, by decide, ?_⟩
  rintro ⟨k, hk, -, hmod⟩
  have hone : clusterRandomKeyZipfOnPartition twoPartitionKeys 0 1 = some 1 := by decide
  rw [hone] at hk
  cases hk
  exact absurd hmod (by decide)

end CCSim
