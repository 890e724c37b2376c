/-
# The aggregation tree

The partitions of a data center compute the global stable time as a convergecast
(`Lib/Convergecast.lean`) on the tree of `Cluster.lean`.  This file checks what the convergecast
asks of the tree: that a partition is a leaf exactly if it has no children, that it waits for as
many children as it has, and that it tells these.

The tree functions of the source compute with `unsigned int`, so `firstChildId` and `lastChildId`
wrap at `2 ^ 32`.  For a partition to which that happens one of these facts may fail; such a
partition is stuck, which the convergecast allows.
-/
import CCSim.Cluster
import CCSim.Lib.Convergecast
import Mathlib.Order.Interval.Finset.Nat
import Mathlib.Data.Fintype.Fin

namespace CCSim

variable {c : Cluster}

/-! ## 1. The partitions of a data center -/

theorem ne_root_iff {p : Partition c} : p ≠ c.root ↔ p.val ≠ 0 :=
  not_congr Fin.ext_iff

/-- The tree of partitions, with what the source knows about it. -/
def aggregation (c : Cluster) : Convergecast (Partition c) where
  root := c.root
  parent := parentPartition
  rank p := p.val
  rank_parent _ hp := ChildOf.lt ⟨ne_root_iff.mp hp, rfl⟩
  leaf p := isLeafPartition p = true
  needed := numChildrenPartitions
  told := childrenPartitions

theorem aggregation_childOf {p q : Partition c} : (aggregation c).ChildOf p q ↔ ChildOf p q :=
  and_congr_left fun _ => ne_root_iff

/-- How many children a partition has. -/
theorem card_children (q : Partition c) : ((aggregation c).children q).card =
    min (q.val * c.treeFanout + c.treeFanout + 1) c.numPartitions -
      (q.val * c.treeFanout + 1) := by
  rw [← Nat.card_Ico, ← Finset.card_map Fin.valEmbedding]
  congr 1
  ext i
  simp only [Finset.mem_map, Convergecast.mem_children, aggregation_childOf, childOf_iff,
    Fin.valEmbedding_apply, Finset.mem_Ico, lt_min_iff]
  constructor
  · rintro ⟨p, hp, rfl⟩
    exact ⟨hp.1, Nat.lt_succ_of_le hp.2, p.2⟩
  · rintro ⟨h1, h2, h3⟩
    exact ⟨⟨i, h3⟩, ⟨h1, Nat.le_of_lt_succ h2⟩, rfl⟩

/-- The root of several partitions is not a leaf. -/
theorem root_not_leaf (h : 1 < c.numPartitions) : isLeafPartition c.root = false := by
  refine decide_eq_false (not_le.mpr ?_)
  rwa [firstChildId, show c.root.val = 0 from rfl, Nat.zero_mul, Nat.zero_add,
    Nat.mod_eq_of_lt (by decide)]

theorem mem_childrenPartitions {p q : Partition c} :
    p ∈ childrenPartitions q ↔ firstChildId q ≤ p.val ∧ p.val ≤ lastChildId q := by
  simp [childrenPartitions]

/-- A leaf tells nobody. -/
theorem childrenPartitions_leaf {q : Partition c} (hleaf : isLeafPartition q = true) :
    childrenPartitions q = [] := by
  refine List.eq_nil_iff_forall_not_mem.mpr fun p hp => ?_
  have hle : c.numPartitions ≤ firstChildId q := of_decide_eq_true hleaf
  exact absurd (hle.trans (mem_childrenPartitions.mp hp).1) (not_le.mpr p.2)

/-- A partition without a right child number is a leaf, and tells nobody. -/
theorem good_of_leaf {q : Partition c} (hleaf : isLeafPartition q = true)
    (hlarge : c.numPartitions ≤ q.val * c.treeFanout + 1) : (aggregation c).Good q where
  leaf _ := by
    rw [← Finset.card_eq_zero, card_children]
    omega
  needed h := absurd hleaf h
  mem_told p := by
    have hle : c.numPartitions ≤ firstChildId q := of_decide_eq_true hleaf
    have hp := p.2
    rw [aggregation_childOf, childOf_iff]
    show p ∈ childrenPartitions q ↔ _
    rw [mem_childrenPartitions]
    omega
  nodup_told := List.Nodup.filter _ (List.nodup_finRange _)

/-- Where the numbers of the children do not wrap, everything agrees. -/
theorem good_of_lt {q : Partition c}
    (hlt : q.val * c.treeFanout + c.treeFanout < uintSize) : (aggregation c).Good q := by
  have hF := c.treeFanout_pos
  have hcard := card_children q
  have hfirst : firstChildId q = q.val * c.treeFanout + 1 := Nat.mod_eq_of_lt (by omega)
  have hlast : lastChildId q = q.val * c.treeFanout + c.treeFanout := Nat.mod_eq_of_lt hlt
  refine ⟨fun hleaf => ?_, fun hleaf => ?_, fun p => ?_,
    List.Nodup.filter _ (List.nodup_finRange _)⟩
  · have hle : c.numPartitions ≤ firstChildId q := of_decide_eq_true hleaf
    rw [← Finset.card_eq_zero, hcard]
    omega
  · have hsmall : firstChildId q < c.numPartitions := not_le.mp fun h => hleaf (decide_eq_true h)
    show numChildrenPartitions q = _
    rw [numChildrenPartitions, hcard, hlast, if_pos hsmall]
    split
    · omega
    · have heq : c.treeFanout + uintSize -
            (q.val * c.treeFanout + c.treeFanout - c.numPartitions + 1) =
          c.treeFanout - (q.val * c.treeFanout + c.treeFanout - c.numPartitions + 1) +
            uintSize := by
        omega
      rw [heq, Nat.add_mod_right, Nat.mod_eq_of_lt (by have := c.treeFanout_lt; omega)]
      omega
  · rw [aggregation_childOf, childOf_iff]
    show p ∈ childrenPartitions q ↔ _
    rw [mem_childrenPartitions, hfirst, hlast]

/-- **A partition either knows the tree or is stuck.** -/
theorem aggregation_good_or_stuck (q : Partition c) :
    (aggregation c).Good q ∨ (aggregation c).Stuck q := by
  have hF := c.treeFanout_lt
  have hP := c.numPartitions_lt
  by_cases hlt : q.val * c.treeFanout + c.treeFanout < uintSize
  · exact .inl (good_of_lt hlt)
  by_cases hleaf : isLeafPartition q = true
  · refine .inl (good_of_leaf hleaf ?_)
    by_contra hsmall
    have hle : c.numPartitions ≤ firstChildId q := of_decide_eq_true hleaf
    rw [firstChildId, Nat.mod_eq_of_lt (by omega)] at hle
    omega
  · refine .inr ⟨hleaf, fun hsome => ?_⟩
    rw [card_children] at hsome ⊢
    -- the last child number wraps, and the partition waits for a full set of children
    have hlast : lastChildId q = q.val * c.treeFanout + c.treeFanout - uintSize := by
      rw [lastChildId, Nat.mod_eq_sub_mod (by omega), Nat.mod_eq_of_lt (by omega)]
    show _ < numChildrenPartitions q
    rw [numChildrenPartitions, if_pos (by omega)]
    omega

/-! ## 2. The flags of the children -/

/-- Only flags of children are set. -/
def FlagsOfChildren (q : Partition c) (lstReceived : ℕ → Bool) : Prop :=
  ∀ i, lstReceived i = true → ∃ p, ChildOf p q ∧ childPartitionIndex c p = i

theorem FlagsOfChildren.none (q : Partition c) : FlagsOfChildren q fun _ => false := fun _ h => by
  cases h

theorem FlagsOfChildren.set {p q : Partition c} {lstReceived : ℕ → Bool}
    (h : FlagsOfChildren q lstReceived) (hp : ChildOf p q) :
    FlagsOfChildren q (Function.update lstReceived (childPartitionIndex c p) true) := by
  intro i hi
  by_cases heq : i = childPartitionIndex c p
  · exact ⟨p, hp, heq.symm⟩
  · rw [Function.update_of_ne heq] at hi
    exact h i hi

/-- The flags that are counted are those of the children. -/
theorem length_filter_flags {q : Partition c} {lstReceived : ℕ → Bool}
    (h : FlagsOfChildren q lstReceived) :
    ((List.range c.treeFanout).filter lstReceived).length =
      (((aggregation c).children q).filter fun p : Partition c =>
        lstReceived (childPartitionIndex c p)).card := by
  rw [← List.toFinset_card_of_nodup (List.nodup_range.filter _)]
  refine (Finset.card_bij (fun (p : Partition c) _ => childPartitionIndex c p) ?_ ?_ ?_).symm
  · intro p hp
    rw [Finset.mem_filter] at hp
    rw [List.mem_toFinset, List.mem_filter, List.mem_range]
    exact ⟨childPartitionIndex_lt c p, hp.2⟩
  · intro p hp p' hp' heq
    rw [Finset.mem_filter, Convergecast.mem_children, aggregation_childOf] at hp hp'
    exact hp.1.index_injective hp'.1 heq
  · intro i hi
    rw [List.mem_toFinset, List.mem_filter] at hi
    obtain ⟨p, hp, rfl⟩ := h i hi.2
    exact ⟨p, Finset.mem_filter.mpr
      ⟨Convergecast.mem_children.mpr (aggregation_childOf.mpr hp), hi.2⟩, rfl⟩

/-- The comparison that ends a round, without the wrap. -/
theorem length_filter_eq_iff {lstReceived : ℕ → Bool} {i n : ℕ} (hi : i < c.treeFanout)
    (hflag : lstReceived i = false) (hn : n < uintSize) :
    ((List.range c.treeFanout).filter lstReceived).length = (n + uintSize - 1) % uintSize ↔
      ((List.range c.treeFanout).filter lstReceived).length + 1 = n := by
  have hF := c.treeFanout_lt
  have hlt : ((List.range c.treeFanout).filter lstReceived).length <
      (List.range c.treeFanout).length :=
    List.length_filter_lt_length_iff_exists.mpr ⟨i, List.mem_range.mpr hi, by simp [hflag]⟩
  rw [List.length_range] at hlt
  cases n with
  | zero =>
    rw [zero_add, Nat.mod_eq_of_lt (by omega)]
    omega
  | succ n =>
    rw [show n + 1 + uintSize - 1 = n + uintSize by omega, Nat.add_mod_right,
      Nat.mod_eq_of_lt (by omega)]
    omega

theorem numChildrenPartitions_lt (q : Partition c) : numChildrenPartitions q < uintSize := by
  unfold numChildrenPartitions
  split
  · exact c.treeFanout_lt
  · split
    · exact Nat.mod_lt _ (by decide)
    · decide

end CCSim
