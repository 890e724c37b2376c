/-
# The five functions of the partition tree agree

`server.c` computes the tree of partitions in five functions: the parent of a partition, the index of
a child, the leaf test, the number of children, and the loop over the children.  They share only the
fan-out and the number of partitions.  As long as no number wraps, they describe one tree
(`partition_tree`).

`Aggregation.lean` says what is left of this when numbers wrap.
-/
import CCSim.Cluster
import Mathlib.Logic.Relation

namespace CCSim

variable {c : Cluster}

/-! ## 1. The loop over the children -/

/-- The loop of `server_foreach_children_partition` from `i` on: the partitions that it visits. -/
def foreachChildrenPartition (q : Partition c) (i : ℕ) : List ℕ :=
  if h : i ≤ lastChildId q ∧ i < c.numPartitions then
    i :: foreachChildrenPartition q ((i + 1) % uintSize)
  else []
termination_by c.numPartitions - i
decreasing_by
  have hlt := c.numPartitions_lt
  rw [Nat.mod_eq_of_lt (by omega)]
  omega

/-- `server_foreach_children_partition`. -/
def visitedPartitions (q : Partition c) : List ℕ := foreachChildrenPartition q (firstChildId q)

/-- The loop runs through an interval. -/
theorem foreachChildrenPartition_eq (q : Partition c) (i : ℕ) :
    foreachChildrenPartition q i =
      List.range' i (min (lastChildId q + 1) c.numPartitions - i) := by
  fun_induction foreachChildrenPartition q i with
  | case1 i h ih =>
    have hlt := c.numPartitions_lt
    rw [ih, Nat.mod_eq_of_lt (by omega), ← List.range'_succ]
    congr 1
    omega
  | case2 i h =>
    rw [Nat.sub_eq_zero_of_le (by omega)]
    rfl

theorem mem_visitedPartitions {q : Partition c} {i : ℕ} : i ∈ visitedPartitions q ↔
    (firstChildId q ≤ i ∧ i ≤ lastChildId q) ∧ i < c.numPartitions := by
  rw [visitedPartitions, foreachChildrenPartition_eq, List.mem_range'_1]
  omega

/-- It visits the partitions that the protocols send to. -/
theorem visitedPartitions_eq (q : Partition c) :
    visitedPartitions q = (childrenPartitions q).map Fin.val := by
  have hvisited : (visitedPartitions q).Pairwise (· < ·) := by
    rw [visitedPartitions, foreachChildrenPartition_eq]
    exact List.pairwise_lt_range'
  have hchildren : ((childrenPartitions q).map Fin.val).Pairwise (· < ·) :=
    List.pairwise_map.mpr ((List.pairwise_lt_finRange _).filter _)
  refine List.Perm.eq_of_pairwise (fun a b _ _ hab hba => absurd hab (lt_asymm hba)) hvisited
    hchildren ((List.perm_ext_iff_of_nodup hvisited.nodup hchildren.nodup).mpr fun i => ?_)
  rw [mem_visitedPartitions]
  simp only [childrenPartitions, List.mem_map, List.mem_filter, List.mem_finRange, true_and,
    Bool.and_eq_true, decide_eq_true_eq]
  constructor
  · rintro ⟨hi, hlt⟩
    exact ⟨⟨i, hlt⟩, hi, rfl⟩
  · rintro ⟨p, hp, rfl⟩
    exact ⟨hp, p.2⟩

/-! ## 2. One tree -/

section Tree

variable (h : c.numPartitions * (c.treeFanout + 1) < uintSize)

include h

/-- The numbers of the children do not wrap. -/
theorem childId_lt (q : Partition c) : q.val * c.treeFanout + c.treeFanout < uintSize := by
  have hq : (q.val + 1) * c.treeFanout ≤ c.numPartitions * (c.treeFanout + 1) :=
    Nat.mul_le_mul q.2 (Nat.le_succ _)
  rw [Nat.add_mul, Nat.one_mul] at hq
  omega

theorem firstChildId_eq (q : Partition c) : firstChildId q = q.val * c.treeFanout + 1 := by
  have hlt := childId_lt h q
  have hF := c.treeFanout_pos
  exact Nat.mod_eq_of_lt (by omega)

theorem lastChildId_eq (q : Partition c) :
    lastChildId q = q.val * c.treeFanout + c.treeFanout :=
  Nat.mod_eq_of_lt (childId_lt h q)

/-- The loop visits the partitions whose parent this is. -/
theorem mem_visitedPartitions_iff_parent {q : Partition c} {i : ℕ} : i ∈ visitedPartitions q ↔
    i < c.numPartitions ∧ i ≠ 0 ∧ parentPartitionId c i = q.val := by
  rw [mem_visitedPartitions, firstChildId_eq h, lastChildId_eq h]
  constructor
  · rintro ⟨hi, hlt⟩
    obtain ⟨hne, hparent⟩ := childOf_iff.mpr (show _ ∧ (⟨i, hlt⟩ : Partition c).val ≤ _ from hi)
    exact ⟨hlt, hne, congrArg Fin.val hparent⟩
  · rintro ⟨hlt, hne, hparent⟩
    have hchild : ChildOf (⟨i, hlt⟩ : Partition c) q := ⟨hne, Fin.ext hparent⟩
    exact ⟨childOf_iff.mp hchild, hlt⟩

/-- The number of children is the number of rounds of the loop. -/
theorem numChildrenPartitions_eq (q : Partition c) :
    numChildrenPartitions q = (visitedPartitions q).length := by
  have hF := c.treeFanout_pos
  have hFlt := c.treeFanout_lt
  have hlt := childId_lt h q
  rw [visitedPartitions, foreachChildrenPartition_eq, List.length_range', numChildrenPartitions,
    firstChildId_eq h, lastChildId_eq h]
  split
  · omega
  · split
    · -- the last node with children is filled in part
      have hrest : c.treeFanout + uintSize -
          (q.val * c.treeFanout + c.treeFanout - c.numPartitions + 1) =
            c.numPartitions - (q.val * c.treeFanout + 1) + uintSize := by omega
      rw [hrest, Nat.add_mod_right, Nat.mod_eq_of_lt (by omega)]
      omega
    · omega

theorem isLeafPartition_iff (q : Partition c) :
    isLeafPartition q = true ↔ visitedPartitions q = [] := by
  have hF := c.treeFanout_pos
  rw [visitedPartitions, foreachChildrenPartition_eq, List.range'_eq_nil_iff, isLeafPartition,
    decide_eq_true_eq, firstChildId_eq h, lastChildId_eq h]
  omega

end Tree

/-- From every partition the parents lead to partition 0. -/
theorem parents_reach_root (p : Partition c) :
    Relation.ReflTransGen (fun p q => p.val ≠ 0 ∧ parentPartition p = q) p c.root := by
  induction hp : p.val using Nat.strongRecOn generalizing p with
  | ind n ih =>
    by_cases h0 : p.val = 0
    · rw [show p = c.root from Fin.ext h0]
    · have hlt : (parentPartition p).val < p.val := ChildOf.lt ⟨h0, rfl⟩
      exact .head ⟨h0, rfl⟩ (ih _ (hp ▸ hlt) _ rfl)

/-- **The partition tree.**  Where `P * (f + 1)` does not wrap, the loop over the children of a
partition visits those whose parent it is, in increasing order; their number, the leaf test and the
indices fit; and every partition is below partition 0. -/
theorem partition_tree (c : Cluster) (h : c.numPartitions * (c.treeFanout + 1) < uintSize) :
    (∀ q : Partition c,
      (visitedPartitions q).Pairwise (· < ·) ∧
      (∀ i, i ∈ visitedPartitions q ↔
        i < c.numPartitions ∧ i ≠ 0 ∧ parentPartitionId c i = q.val) ∧
      numChildrenPartitions q = (visitedPartitions q).length ∧
      (∀ i ∈ visitedPartitions q, childPartitionIndex c i < c.treeFanout) ∧
      (∀ i ∈ visitedPartitions q, ∀ j ∈ visitedPartitions q,
        childPartitionIndex c i = childPartitionIndex c j → i = j) ∧
      (isLeafPartition q = true ↔ visitedPartitions q = [])) ∧
    ∀ p : Partition c,
      Relation.ReflTransGen (fun p q => p.val ≠ 0 ∧ parentPartition p = q) p c.root := by
  refine ⟨fun q => ⟨?_, fun i => mem_visitedPartitions_iff_parent h, numChildrenPartitions_eq h q,
    fun i _ => childPartitionIndex_lt c i, ?_, isLeafPartition_iff h q⟩, parents_reach_root⟩
  · rw [visitedPartitions, foreachChildrenPartition_eq]
    exact List.pairwise_lt_range'
  · intro i hi j hj hij
    obtain ⟨hilt, hi0, hiq⟩ := (mem_visitedPartitions_iff_parent h).mp hi
    obtain ⟨hjlt, hj0, hjq⟩ := (mem_visitedPartitions_iff_parent h).mp hj
    have hchild : ChildOf (⟨i, hilt⟩ : Partition c) q := ⟨hi0, Fin.ext hiq⟩
    have hchild' : ChildOf (⟨j, hjlt⟩ : Partition c) q := ⟨hj0, Fin.ext hjq⟩
    exact congrArg Fin.val (hchild.index_injective hchild' hij)

theorem six_pos : 0 < 6 := by
  decide

theorem uintSize_gt_one : 1 < uintSize := by
  decide

theorem uintSize_gt_two : 2 < uintSize := by
  decide

theorem uintSize_gt_six : 6 < uintSize := by
  decide

theorem interval_one_pos : (0 : ℚ) < 1 := by
  decide

/-- Six partitions with fan-out 2: the last node with children is filled in part. -/
def sixPartitions : Cluster where
  numReplicas := 1
  numPartitions := 6
  treeFanout := 2
  numCores := 1
  clockInterval := 1
  gstInterval := 1
  offset _ _ := 0
  numReplicas_pos := Nat.one_pos
  numPartitions_pos := six_pos
  treeFanout_pos := Nat.two_pos
  numReplicas_lt := uintSize_gt_one
  numPartitions_lt := uintSize_gt_six
  treeFanout_lt := uintSize_gt_two
  clockInterval_pos := interval_one_pos
  gstInterval_pos := interval_one_pos
  offset_nonneg _ _ := le_rfl

theorem partition_tree_six :
    numChildrenPartitions (⟨2, by decide⟩ : Partition sixPartitions) = 1 ∧
      (visitedPartitions (⟨2, by decide⟩ : Partition sixPartitions)).length = 1 ∧
      Relation.ReflTransGen (fun p q => p.val ≠ 0 ∧ parentPartition p = q)
        (⟨5, by decide⟩ : Partition sixPartitions) sixPartitions.root := by
  have htree := partition_tree sixPartitions (by decide)
  have hone : numChildrenPartitions (⟨2, by decide⟩ : Partition sixPartitions) = 1 := by decide
  exact ⟨hone, (htree.1 ⟨2, by decide⟩).2.2.1.symm.trans hone, htree.2 ⟨5, by decide⟩⟩

end CCSim
