/-
# The cluster: replicas, partitions, the aggregation tree and the clocks

`cluster.c` and the tree functions of `server/server.c`.  A server is a partition of a replica
(a data center); a client belongs to the data center and partition it was set up with and sends
every request to the server of that partition (`tied_to_partition` is always 1).  The partitions
of a data center form a tree of the configured fan-out, in which partition 0 is the root.

The tree functions compute with `unsigned int`, so their products and sums wrap at `2 ^ 32`.
`Aggregation.lean` says what that does: a partition is either `Good`, and then its leaf test, its
count of children and its broadcast agree with the tree that `server_parent_partition_id` describes,
or it is one that neither starts nor completes an aggregation.
-/
import Mathlib.Data.Fin.Basic
import Mathlib.Data.Fintype.Basic
import Mathlib.Data.List.FinRange
import Mathlib.Data.Rat.Init
import Mathlib.Algebra.Order.Field.Rat
import Mathlib.Tactic.Linarith

namespace CCSim

/-! ## 1. Configuration -/

/-- The number of values of an `unsigned int`. -/
def uintSize : ℕ := 2 ^ 32

/-- What is configured: `cluster_config_t`, the tree fan-out and the number of cores, the two
intervals, and the clock offset of every server (`clock_skew.c` draws it once, as an absolute
value). -/
structure Cluster where
  numReplicas : ℕ
  numPartitions : ℕ
  treeFanout : ℕ
  numCores : ℕ
  clockInterval : ℚ
  gstInterval : ℚ
  offset : Fin numReplicas → Fin numPartitions → ℚ
  numReplicas_pos : 0 < numReplicas
  numPartitions_pos : 0 < numPartitions
  treeFanout_pos : 0 < treeFanout
  numReplicas_lt : numReplicas < uintSize
  numPartitions_lt : numPartitions < uintSize
  treeFanout_lt : treeFanout < uintSize
  clockInterval_pos : 0 < clockInterval
  gstInterval_pos : 0 < gstInterval
  offset_nonneg : ∀ r p, 0 ≤ offset r p

abbrev Replica (c : Cluster) := Fin c.numReplicas
abbrev Partition (c : Cluster) := Fin c.numPartitions
abbrev ServerId (c : Cluster) := Replica c × Partition c

/-- A client: its data center, its partition and its number. -/
abbrev ClientId (c : Cluster) := Replica c × Partition c × ℕ

/-- Any process a message can be sent to. -/
inductive Lpid (c : Cluster)
  | server (s : ServerId c)
  | client (k : ClientId c)
  deriving DecidableEq

abbrev Key := ℕ
abbrev Value := ℕ

variable {c : Cluster}

def Cluster.replica0 (c : Cluster) : Replica c := ⟨0, c.numReplicas_pos⟩
def Cluster.root (c : Cluster) : Partition c := ⟨0, c.numPartitions_pos⟩

/-- `partition_for_key`. -/
def partitionForKey (c : Cluster) (key : Key) : Partition c :=
  ⟨key % c.numPartitions, Nat.mod_lt _ c.numPartitions_pos⟩

/-- `gr_lpid_for_key`: the server of the own data center that holds a key. -/
def lpidForKey (self : ServerId c) (key : Key) : ServerId c := (self.1, partitionForKey c key)

/-- The assertion of `gr_get_value_at` and `gr_put_value`: the key is held by this server. -/
def ownsKey (self : ServerId c) (key : Key) : Bool := decide (lpidForKey self key = self)

/-- The server a client sends all its requests to. -/
def ClientId.server (k : ClientId c) : ServerId c := (k.1, k.2.1)

/-- Where the answer to a client's request goes: back to the client, or to the server that
forwarded the request. -/
def replyTo (client : ClientId c) (proxy : Option (ServerId c)) : Lpid c :=
  match proxy with
  | none => .client client
  | some s => .server s

/-- `server_clock_skew`. -/
def Cluster.clock (c : Cluster) (s : ServerId c) (now : ℚ) : ℚ := now + c.offset s.1 s.2

/-- `foreach_replica`, less the replica itself. -/
def otherReplicas (self : ServerId c) : List (ServerId c) :=
  ((List.finRange c.numReplicas).filter (· ≠ self.1)).map fun r => (r, self.2)

theorem mem_otherReplicas {self s : ServerId c} :
    s ∈ otherReplicas self ↔ s.1 ≠ self.1 ∧ s.2 = self.2 := by
  simp only [otherReplicas, List.mem_map, List.mem_filter, List.mem_finRange, true_and,
    decide_eq_true_eq]
  constructor
  · rintro ⟨r, hr, rfl⟩; exact ⟨hr, rfl⟩
  · rintro ⟨h1, h2⟩; exact ⟨s.1, h1, by rw [← h2]⟩

/-! ## 2. The tree of partitions -/

/-- `server_parent_partition_id`; the source asserts that the partition is not the root. -/
def parentPartitionId (c : Cluster) (p : ℕ) : ℕ := (p - 1) / c.treeFanout

/-- `server_child_partition_index`. -/
def childPartitionIndex (c : Cluster) (p : ℕ) : ℕ := (p - 1) % c.treeFanout

/-- `server_first_child_id`. -/
def firstChildId (p : Partition c) : ℕ := (p.val * c.treeFanout + 1) % uintSize

/-- `server_last_child_id`. -/
def lastChildId (p : Partition c) : ℕ := (p.val * c.treeFanout + c.treeFanout) % uintSize

/-- `server_is_leaf_partition`. -/
def isLeafPartition (p : Partition c) : Bool := decide (c.numPartitions ≤ firstChildId p)

/-- `server_num_children_partitions`. -/
def numChildrenPartitions (p : Partition c) : ℕ :=
  if lastChildId p < c.numPartitions then c.treeFanout
  else if firstChildId p < c.numPartitions then
    (c.treeFanout + uintSize - (lastChildId p - c.numPartitions + 1)) % uintSize
  else 0

/-- The partitions `server_foreach_children_partition` visits. -/
def childrenPartitions (p : Partition c) : List (Partition c) :=
  (List.finRange c.numPartitions).filter fun i =>
    decide (firstChildId p ≤ i.val) && decide (i.val ≤ lastChildId p)

/-- The parent of a partition is a partition. -/
theorem parentPartitionId_lt (p : Partition c) : parentPartitionId c p < c.numPartitions :=
  (Nat.div_le_self _ _).trans_lt ((Nat.sub_le _ _).trans_lt p.2)

def parentPartition (p : Partition c) : Partition c := ⟨_, parentPartitionId_lt p⟩

/-- `ChildOf p q`: in the tree, `p` is a child of `q`. -/
def ChildOf (p q : Partition c) : Prop := p.val ≠ 0 ∧ parentPartition p = q

instance (p q : Partition c) : Decidable (ChildOf p q) := inferInstanceAs (Decidable (_ ∧ _))

theorem childOf_iff {p q : Partition c} :
    ChildOf p q ↔ q.val * c.treeFanout + 1 ≤ p.val ∧
      p.val ≤ q.val * c.treeFanout + c.treeFanout := by
  have hF := c.treeFanout_pos
  simp only [ChildOf, parentPartition, Fin.ext_iff, parentPartitionId]
  constructor
  · rintro ⟨h0, hq⟩
    have h1 := Nat.div_mul_le_self (p.val - 1) c.treeFanout
    have h2 := Nat.lt_div_mul_add hF (a := p.val - 1)
    rw [hq] at h1 h2
    omega
  · rintro ⟨h1, h2⟩
    refine ⟨by omega, ?_⟩
    apply Nat.div_eq_of_lt_le
    · omega
    · rw [Nat.add_mul]; omega

/-- A child has a larger number than its parent. -/
theorem ChildOf.lt {p q : Partition c} (h : ChildOf p q) : q.val < p.val := by
  have := (childOf_iff.mp h).1
  have hF := c.treeFanout_pos
  nlinarith

/-- Two children of one parent have different indices. -/
theorem ChildOf.index_injective {p p' q : Partition c} (h : ChildOf p q) (h' : ChildOf p' q)
    (hi : childPartitionIndex c p = childPartitionIndex c p') : p = p' := by
  have hp := congrArg Fin.val h.2
  have hp' := congrArg Fin.val h'.2
  simp only [parentPartition, parentPartitionId] at hp hp'
  have e := Nat.div_add_mod (p.val - 1) c.treeFanout
  have e' := Nat.div_add_mod (p'.val - 1) c.treeFanout
  simp only [childPartitionIndex] at hi
  rw [hp, hi] at e
  rw [hp'] at e'
  have := h.1
  have := h'.1
  exact Fin.ext (by omega)

theorem childPartitionIndex_lt (c : Cluster) (p : ℕ) : childPartitionIndex c p < c.treeFanout :=
  Nat.mod_lt _ c.treeFanout_pos

end CCSim
