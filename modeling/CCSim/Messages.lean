/-
# The layout of the messages

A message of variable length is a `struct` with one to four arrays behind it, in one buffer.  How
long the buffer is, the constructor computes (`messages/macros.h`, and by hand in
`messages/grv.c`); where an array begins, its accessor macro computes from the counts in the
structure (`messages/gr.h`, `messages/grv.h`).  Here a message is the bytes of its buffer, as on
x86-64: `size_t` has 64 bits, and an access need not be aligned.

`message_layout` says that both agree, for all fourteen messages and all counts: the arrays lie end
to end behind the structure, the last one ends at `message.size`, and elements that are stored
through the accessors, in whatever order, are loaded from a copy of `message.size` bytes.
-/
import CCSim.Cluster
import CCSim.Lib.Layout

namespace CCSim

/-! ## 1. Types and structures -/

def uint8T : CType := ⟨1, 1, Nat.one_pos⟩
def intT : CType := ⟨4, 4, by decide⟩
def unsignedIntT : CType := ⟨4, 4, by decide⟩
def uint64T : CType := ⟨8, 8, by decide⟩
def doubleT : CType := ⟨8, 8, by decide⟩
def sizeT : CType := ⟨8, 8, by decide⟩
def lpidT : CType := unsignedIntT
def replicaT : CType := unsignedIntT
def grTsp : CType := doubleT
def grGst : CType := doubleT
def grValue : CType := uint8T
def grKey : CType := uint64T

/-- `GR_SIMULATED_VALUE_SIZE` -/
def grSimulatedValueSize : ℕ := 64

/-- The names of the members. -/
inductive Member
  | size | simulatedSize | clientLpid | proxyLpid | fromLpid | key | value | gst
  | requestId | rotxId | sourceReplica | previousSourceReplica | leafPartitionId
  | updateTimestamp | updateTime | updateTimeNoSkew | previousUpdateTime | snapshotTime
  | dependencyTime
  | numKeys | numValues | gstVectorSize | dependencyVectorSize | lstVectorSize
  deriving DecidableEq

abbrev CStruct := List (Member × CType)

/-- `MESSAGE_STRUCT_START` -/
def messageStructStart : CStruct := [(.size, sizeT), (.simulatedSize, sizeT)]

/-- An accessor macro: `((type *) (request + 1))`, or the address after the `count` elements of
another array. -/
inductive Accessor
  | behind (type : CType)
  | after (before : Accessor) (count : Member) (type : CType)

def Accessor.type : Accessor → CType
  | .behind type => type
  | .after _ _ type => type

/-- Where the array begins; the counts are read from the structure. -/
def Accessor.offset (s : CStruct) (buf : Bytes) : Accessor → Option ℕ
  | .behind _ => some (sizeofStruct s)
  | .after before count _ =>
    match before.offset s buf, loadMember s buf count with
    | some pos, some n => some (pos + n * before.type.size)
    | _, _ => none

/-- `accessor(request)[i]` -/
def Accessor.load (s : CStruct) (a : Accessor) (i : ℕ) (buf : Bytes) : Option Bytes :=
  match a.offset s buf with
  | none => none
  | some pos => readBytes buf (pos + i * a.type.size) a.type.size

/-- `accessor(request)[i] = v`, `v` being the bytes of the value. -/
def Accessor.store (s : CStruct) (a : Accessor) (i : ℕ) (v buf : Bytes) : Option Bytes :=
  match a.offset s buf with
  | none => none
  | some pos => writeBytes buf (pos + i * a.type.size) v

/-! ## 2. Constructors -/

/-- `size_t` wraps. -/
def sizeMax : ℕ := 2 ^ 64

/-- What all constructors do once they have computed the size; `junk` is what `malloc` returns. -/
def newMessage (s : CStruct) (size simulatedSize : ℕ) (counts : List (Member × ℕ))
    (junk : ℕ → UInt8) : Option Bytes :=
  storeMembers s (counts ++ [(.size, size), (.simulatedSize, simulatedSize % sizeMax)])
    ((List.range size).map junk)

/-- `new_struct_with_1_trailer` -/
def newStructWith1Trailer (s : CStruct) (additionalSize : ℕ) (countMember : Member)
    (trailingType : CType) (simulatedElementSize count : ℕ) (junk : ℕ → UInt8) : Option Bytes :=
  newMessage s ((sizeofStruct s + count * trailingType.size) % sizeMax)
    (sizeofStruct s + additionalSize + count * simulatedElementSize) [(countMember, count)] junk

/-- `new_struct_with_2_trailer` -/
def newStructWith2Trailer (s : CStruct) (additionalSize : ℕ)
    (countMember1 : Member) (trailingType1 : CType) (simulatedSize1 : ℕ)
    (countMember2 : Member) (trailingType2 : CType) (simulatedSize2 : ℕ)
    (count1 count2 : ℕ) (junk : ℕ → UInt8) : Option Bytes :=
  newMessage s
    ((sizeofStruct s + count1 * trailingType1.size + count2 * trailingType2.size) % sizeMax)
    (sizeofStruct s + additionalSize + count1 * simulatedSize1 + count2 * simulatedSize2)
    [(countMember1, count1), (countMember2, count2)] junk

/-! ## 3. The messages of gr -/

def grGetSnapshotRequestT : CStruct := messageStructStart ++
  [(.requestId, unsignedIntT), (.clientLpid, lpidT), (.gst, grTsp), (.numKeys, unsignedIntT)]

def grGetSnapshotRequestKeys : Accessor := .behind grKey

def grGetSnapshotRequestNew (numKeys : ℕ) : (ℕ → UInt8) → Option Bytes :=
  newStructWith1Trailer grGetSnapshotRequestT 0 .numKeys grKey grKey.size numKeys

def grGetSnapshotResponseT : CStruct := messageStructStart ++
  [(.requestId, unsignedIntT), (.gst, grTsp), (.updateTimestamp, grTsp), (.numValues, unsignedIntT)]

def grGetSnapshotResponseValues : Accessor := .behind grValue

def grGetSnapshotResponseNew (numValues : ℕ) : (ℕ → UInt8) → Option Bytes :=
  newStructWith1Trailer grGetSnapshotResponseT 0 .numValues grValue grSimulatedValueSize numValues

def grGetRotxRequestT : CStruct := messageStructStart ++
  [(.clientLpid, lpidT), (.dependencyTime, grTsp), (.numKeys, unsignedIntT), (.gst, grTsp)]

def grGetRotxRequestKeys : Accessor := .behind grKey

def grGetRotxRequestNew (numKeys : ℕ) : (ℕ → UInt8) → Option Bytes :=
  newStructWith1Trailer grGetRotxRequestT 0 .numKeys grKey grKey.size numKeys

def grGetRotxResponseT : CStruct := messageStructStart ++
  [(.numValues, unsignedIntT), (.gst, grTsp), (.updateTimestamp, grTsp)]

def grGetRotxResponseValues : Accessor := .behind grValue

def grGetRotxResponseNew (numValues : ℕ) : (ℕ → UInt8) → Option Bytes :=
  newStructWith1Trailer grGetRotxResponseT 0 .numValues grValue grSimulatedValueSize numValues

/-! ## 4. The messages of grv -/

def grvGetRequestT : CStruct := messageStructStart ++
  [(.clientLpid, lpidT), (.proxyLpid, lpidT), (.key, grKey), (.gstVectorSize, unsignedIntT)]

def grvGetRequestGstVector : Accessor := .behind grTsp

def grvGetRequestNew (gstVectorSize : ℕ) : (ℕ → UInt8) → Option Bytes :=
  newStructWith1Trailer grvGetRequestT 0 .gstVectorSize grTsp grTsp.size gstVectorSize

def grvGetResponseT : CStruct := messageStructStart ++
  [(.clientLpid, lpidT), (.sourceReplica, replicaT), (.gstVectorSize, unsignedIntT), (.gst, grGst),
    (.updateTimestamp, grTsp), (.value, grValue)]

def grvGetResponseGstVector : Accessor := .behind grTsp

def grvGetResponseNew (gstVectorSize : ℕ) : (ℕ → UInt8) → Option Bytes :=
  newStructWith1Trailer grvGetResponseT (grSimulatedValueSize - grValue.size) .gstVectorSize grTsp
    grTsp.size gstVectorSize

def grvPutRequestT : CStruct := messageStructStart ++
  [(.clientLpid, lpidT), (.proxyLpid, lpidT), (.key, grKey), (.value, grValue),
    (.dependencyVectorSize, unsignedIntT)]

def grvPutRequestDependencyVector : Accessor := .behind grTsp

def grvPutRequestNew (dependencyVectorSize : ℕ) : (ℕ → UInt8) → Option Bytes :=
  newStructWith1Trailer grvPutRequestT (grSimulatedValueSize - grValue.size) .dependencyVectorSize
    grTsp grTsp.size dependencyVectorSize

def grvReplicaUpdateT : CStruct := messageStructStart ++
  [(.key, grKey), (.value, grValue), (.updateTime, grTsp), (.updateTimeNoSkew, grTsp),
    (.sourceReplica, replicaT), (.previousUpdateTime, grTsp), (.previousSourceReplica, replicaT),
    (.dependencyVectorSize, unsignedIntT)]

def grvReplicaUpdateDependencyVector : Accessor := .behind grTsp

def grvReplicaUpdateNew (dependencyVectorSize : ℕ) : (ℕ → UInt8) → Option Bytes :=
  newStructWith1Trailer grvReplicaUpdateT (grSimulatedValueSize - grValue.size - grTsp.size)
    .dependencyVectorSize grTsp grTsp.size dependencyVectorSize

def grvGstFromRootT : CStruct := messageStructStart ++
  [(.gstVectorSize, unsignedIntT), (.gst, grTsp)]

def grvGstFromRootGstVector : Accessor := .behind grTsp

def grvGstFromRootNew (gstVectorSize : ℕ) : (ℕ → UInt8) → Option Bytes :=
  newStructWith1Trailer grvGstFromRootT 0 .gstVectorSize grTsp grTsp.size gstVectorSize

def grvLstFromLeafT : CStruct := messageStructStart ++
  [(.leafPartitionId, unsignedIntT), (.lstVectorSize, unsignedIntT)]

def grvLstFromLeafLstVector : Accessor := .behind grTsp

def grvLstFromLeafNew (lstVectorSize : ℕ) : (ℕ → UInt8) → Option Bytes :=
  newStructWith1Trailer grvLstFromLeafT 0 .lstVectorSize grTsp grTsp.size lstVectorSize

def grvSliceRequestT : CStruct := messageStructStart ++
  [(.fromLpid, lpidT), (.snapshotTime, grTsp), (.rotxId, unsignedIntT), (.numKeys, unsignedIntT),
    (.gstVectorSize, unsignedIntT)]

def grvSliceRequestKeys : Accessor := .behind grKey
def grvSliceRequestKeyIds : Accessor := .after grvSliceRequestKeys .numKeys unsignedIntT
def grvSliceRequestGstVector : Accessor := .after grvSliceRequestKeyIds .numKeys grTsp

def grvSliceRequestNew (numKeys gstVectorSize : ℕ) (junk : ℕ → UInt8) : Option Bytes :=
  let size := (sizeofStruct grvSliceRequestT + numKeys * grKey.size + numKeys * unsignedIntT.size +
    gstVectorSize * grTsp.size) % sizeMax
  newMessage grvSliceRequestT size size [(.numKeys, numKeys), (.gstVectorSize, gstVectorSize)] junk

def grvSliceResponseT : CStruct := messageStructStart ++
  [(.rotxId, unsignedIntT), (.numValues, unsignedIntT)]

def grvSliceResponseKeyIds : Accessor := .behind intT
def grvSliceResponseValues : Accessor := .after grvSliceResponseKeyIds .numValues grValue
def grvSliceResponseUpdateTimes : Accessor := .after grvSliceResponseValues .numValues grTsp
def grvSliceResponseSourceReplicas : Accessor :=
  .after grvSliceResponseUpdateTimes .numValues unsignedIntT

def grvSliceResponseNew (numValues : ℕ) (junk : ℕ → UInt8) : Option Bytes :=
  let size := (sizeofStruct grvSliceResponseT + numValues * unsignedIntT.size +
    numValues * grValue.size + numValues * grTsp.size + numValues * replicaT.size) % sizeMax
  newMessage grvSliceResponseT size (size + numValues * (grSimulatedValueSize - grValue.size))
    [(.numValues, numValues)] junk

def grvRotxRequestT : CStruct := messageStructStart ++
  [(.clientLpid, lpidT), (.dependencyTime, grTsp), (.numKeys, unsignedIntT),
    (.gstVectorSize, unsignedIntT)]

def grvRotxRequestKeys : Accessor := .behind grKey
def grvRotxRequestGstVector : Accessor := .after grvRotxRequestKeys .numKeys grTsp

def grvRotxRequestNew (numKeys gstVectorSize : ℕ) : (ℕ → UInt8) → Option Bytes :=
  newStructWith2Trailer grvRotxRequestT 0 .numKeys grKey grKey.size .gstVectorSize grTsp grTsp.size
    numKeys gstVectorSize

def grvRotxResponseT : CStruct := messageStructStart ++
  [(.numValues, unsignedIntT), (.dependencyVectorSize, unsignedIntT)]

def grvRotxResponseValues : Accessor := .behind grValue
def grvRotxResponseDependencyVector : Accessor := .after grvRotxResponseValues .numValues grTsp

def grvRotxResponseNew (numValues dependencyVectorSize : ℕ) : (ℕ → UInt8) → Option Bytes :=
  newStructWith2Trailer grvRotxResponseT 0 .numValues grValue grSimulatedValueSize
    .dependencyVectorSize grTsp grTsp.size numValues dependencyVectorSize

/-! ## 5. All messages with arrays -/

/-- A message: its structure, its constructor, called with the counts by their names, and its
arrays, each with the member that counts its elements. -/
structure VariableMessage where
  struct : CStruct
  new : (Member → ℕ) → (ℕ → UInt8) → Option Bytes
  arrays : List (Accessor × Member)

def variableMessages : List VariableMessage := [
  ⟨grGetSnapshotRequestT, fun n => grGetSnapshotRequestNew (n .numKeys),
    [(grGetSnapshotRequestKeys, .numKeys)]⟩,
  ⟨grGetSnapshotResponseT, fun n => grGetSnapshotResponseNew (n .numValues),
    [(grGetSnapshotResponseValues, .numValues)]⟩,
  ⟨grGetRotxRequestT, fun n => grGetRotxRequestNew (n .numKeys),
    [(grGetRotxRequestKeys, .numKeys)]⟩,
  ⟨grGetRotxResponseT, fun n => grGetRotxResponseNew (n .numValues),
    [(grGetRotxResponseValues, .numValues)]⟩,
  ⟨grvGetRequestT, fun n => grvGetRequestNew (n .gstVectorSize),
    [(grvGetRequestGstVector, .gstVectorSize)]⟩,
  ⟨grvGetResponseT, fun n => grvGetResponseNew (n .gstVectorSize),
    [(grvGetResponseGstVector, .gstVectorSize)]⟩,
  ⟨grvPutRequestT, fun n => grvPutRequestNew (n .dependencyVectorSize),
    [(grvPutRequestDependencyVector, .dependencyVectorSize)]⟩,
  ⟨grvReplicaUpdateT, fun n => grvReplicaUpdateNew (n .dependencyVectorSize),
    [(grvReplicaUpdateDependencyVector, .dependencyVectorSize)]⟩,
  ⟨grvGstFromRootT, fun n => grvGstFromRootNew (n .gstVectorSize),
    [(grvGstFromRootGstVector, .gstVectorSize)]⟩,
  ⟨grvLstFromLeafT, fun n => grvLstFromLeafNew (n .lstVectorSize),
    [(grvLstFromLeafLstVector, .lstVectorSize)]⟩,
  ⟨grvSliceRequestT, fun n => grvSliceRequestNew (n .numKeys) (n .gstVectorSize),
    [(grvSliceRequestKeys, .numKeys), (grvSliceRequestKeyIds, .numKeys),
      (grvSliceRequestGstVector, .gstVectorSize)]⟩,
  ⟨grvSliceResponseT, fun n => grvSliceResponseNew (n .numValues),
    [(grvSliceResponseKeyIds, .numValues), (grvSliceResponseValues, .numValues),
      (grvSliceResponseUpdateTimes, .numValues), (grvSliceResponseSourceReplicas, .numValues)]⟩,
  ⟨grvRotxRequestT, fun n => grvRotxRequestNew (n .numKeys) (n .gstVectorSize),
    [(grvRotxRequestKeys, .numKeys), (grvRotxRequestGstVector, .gstVectorSize)]⟩,
  ⟨grvRotxResponseT, fun n => grvRotxResponseNew (n .numValues) (n .dependencyVectorSize),
    [(grvRotxResponseValues, .numValues),
      (grvRotxResponseDependencyVector, .dependencyVectorSize)]⟩]

/-- An element is the number of its array and its index; `load` gets its bytes. -/
def VariableMessage.load (m : VariableMessage) (buf : Bytes) (e : ℕ × ℕ) : Option Bytes :=
  match m.arrays[e.1]? with
  | none => none
  | some (a, _) => a.load m.struct e.2 buf

def VariableMessage.store (m : VariableMessage) (buf : Bytes) (e : ℕ × ℕ) (v : Bytes) :
    Option Bytes :=
  match m.arrays[e.1]? with
  | none => none
  | some (a, _) => a.store m.struct e.2 v buf

/-- One element after the other is stored. -/
def VariableMessage.storeAll (m : VariableMessage) : List ((ℕ × ℕ) × Bytes) → Bytes → Option Bytes
  | [], buf => some buf
  | (e, v) :: ws, buf =>
    match m.store buf e v with
    | none => none
    | some buf' => m.storeAll ws buf'

/-- The message has this element, and its bytes are as many as these. -/
def VariableMessage.Fits (m : VariableMessage) (counts : Member → ℕ) (e : ℕ × ℕ) (v : Bytes) :
    Prop :=
  ∃ a c, m.arrays[e.1]? = some (a, c) ∧ e.2 < counts c ∧ v.length = a.type.size

/-- The arrays lie end to end, from `pos` to `stop`. -/
def EndToEnd (s : CStruct) (buf : Bytes) (counts : Member → ℕ) :
    ℕ → List (Accessor × Member) → ℕ → Prop
  | pos, [], stop => pos = stop
  | pos, (a, c) :: l, stop =>
    a.offset s buf = some pos ∧ EndToEnd s buf counts (pos + counts c * a.type.size) l stop

/-! ## 6. Accessors -/

variable {s : CStruct} {buf buf' : Bytes} {counts : Member → ℕ} {pos stop : ℕ}
  {l : List (Accessor × Member)} {m : VariableMessage}

/-- The counts and the element sizes of the arrays. -/
def arraySizes (counts : Member → ℕ) (l : List (Accessor × Member)) : List (ℕ × ℕ) :=
  l.map fun x => (counts x.2, x.1.type.size)

/-- Each accessor goes on from the one before it, over as many elements as that array has. -/
def FollowOn : Option (Accessor × Member) → List (Accessor × Member) → Prop
  | _, [] => True
  | none, (a, c) :: l => a = .behind a.type ∧ FollowOn (some (a, c)) l
  | some (b, n), (a, c) :: l => a = .after b n a.type ∧ FollowOn (some (a, c)) l

theorem endToEnd_of_followOn_after {b : Accessor} {n : Member} (hl : FollowOn (some (b, n)) l)
    (hb : b.offset s buf = some pos) (hn : loadMember s buf n = some (counts n))
    (hcounts : ∀ x ∈ l, loadMember s buf x.2 = some (counts x.2)) :
    EndToEnd s buf counts (pos + counts n * b.type.size) l
      (arraysEnd (pos + counts n * b.type.size) (arraySizes counts l)) := by
  induction l generalizing b n pos with
  | nil => rfl
  | cons x l ih =>
    obtain ⟨a, c⟩ := x
    have ha : a.offset s buf = some (pos + counts n * b.type.size) := by
      rw [hl.1, Accessor.offset, hb, hn]
    exact ⟨ha, ih hl.2 ha (hcounts _ List.mem_cons_self)
      fun x hx => hcounts x (List.mem_cons_of_mem _ hx)⟩

theorem endToEnd_of_followOn (hl : FollowOn none l)
    (hcounts : ∀ x ∈ l, loadMember s buf x.2 = some (counts x.2)) :
    EndToEnd s buf counts (sizeofStruct s) l
      (arraysEnd (sizeofStruct s) (arraySizes counts l)) := by
  cases l with
  | nil => rfl
  | cons x l =>
    obtain ⟨a, c⟩ := x
    have ha : a.offset s buf = some (sizeofStruct s) := by rw [hl.1, Accessor.offset]
    exact ⟨ha, endToEnd_of_followOn_after hl.2 ha (hcounts _ List.mem_cons_self)
      fun x hx => hcounts x (List.mem_cons_of_mem _ hx)⟩

theorem EndToEnd.stop_eq (h : EndToEnd s buf counts pos l stop) :
    stop = arraysEnd pos (arraySizes counts l) := by
  induction l generalizing pos with
  | nil => exact h.symm
  | cons x l ih => exact ih h.2

theorem EndToEnd.offset {k : ℕ} {a : Accessor} {c : Member}
    (h : EndToEnd s buf counts pos l stop) (hk : l[k]? = some (a, c)) :
    a.offset s buf = some (arrayStart pos (arraySizes counts l) k) := by
  induction l generalizing pos k with
  | nil => cases hk
  | cons x l ih =>
    cases k with
    | zero =>
      cases hk
      exact h.1
    | succ k => exact ih h.2 hk

/-- Accessors look at the structure only. -/
theorem Accessor.offset_congr (h : ∀ c, loadMember s buf' c = loadMember s buf c) (a : Accessor) :
    a.offset s buf' = a.offset s buf := by
  induction a with
  | behind type => rfl
  | after before count type ih => rw [Accessor.offset, Accessor.offset, ih, h]

theorem EndToEnd.congr (h : EndToEnd s buf counts pos l stop)
    (hsame : ∀ c, loadMember s buf' c = loadMember s buf c) :
    EndToEnd s buf' counts pos l stop := by
  induction l generalizing pos with
  | nil => exact h
  | cons x l ih => exact ⟨(Accessor.offset_congr hsame _).trans h.1, ih h.2⟩

/-! ## 7. Constructors -/

/-- The structure begins with the sizes, and has these counts. -/
def Headed (s : CStruct) (members : List Member) : Prop :=
  memberAt Member.size s 0 = some (0, sizeT) ∧
    memberAt Member.simulatedSize s 0 = some (8, sizeT) ∧
    (∀ c ∈ members, (memberAt c s 0).map Prod.snd = some unsignedIntT) ∧
    (members ++ [Member.size, Member.simulatedSize]).Nodup ∧ sizeofStruct s < uintSize

instance (s : CStruct) (members : List Member) : Decidable (Headed s members) :=
  inferInstanceAs (Decidable (_ ∧ _ ∧ _ ∧ _ ∧ _))

/-- A new message has its size, and the counts it was made with. -/
theorem newMessage_spec {members : List Member} {size : ℕ} (hs : Headed s members)
    (hcounts : ∀ c, counts c < uintSize) (hle : sizeofStruct s ≤ size) (hsize : size < sizeMax)
    (simulatedSize : ℕ) (junk : ℕ → UInt8) :
    ∃ buf, newMessage s size simulatedSize (members.map fun c => (c, counts c)) junk = some buf ∧
      buf.length = size ∧ loadMember s buf Member.size = some size ∧
      ∀ c ∈ members, loadMember s buf c = some (counts c) := by
  obtain ⟨hfirst, hsecond, hmembers, hnodup, -⟩ := hs
  have hlength : ((List.range size).map junk).length = size := by
    rw [List.length_map, List.length_range]
  let stored : List (Member × ℕ) := members.map (fun c => (c, counts c)) ++
    [(.size, size), (.simulatedSize, simulatedSize % sizeMax)]
  have hdistinct : (stored.map Prod.fst).Nodup := by
    have hnames : stored.map Prod.fst = members ++ [.size, .simulatedSize] := by
      rw [List.map_append, List.map_map]
      exact congrArg (· ++ _) (List.map_id members)
    rwa [hnames]
  have hthere : ∀ e ∈ stored, ∃ off t, memberAt e.1 s 0 = some (off, t) ∧
      e.2 < 256 ^ t.size := by
    intro e he
    rcases List.mem_append.mp he with he | he
    · obtain ⟨c, hc, rfl⟩ := List.mem_map.mp he
      obtain ⟨⟨off, t⟩, hat, ht⟩ := Option.map_eq_some_iff.mp (hmembers c hc)
      refine ⟨off, t, hat, ?_⟩
      rw [show t = unsignedIntT from ht]
      exact (hcounts c).trans_eq (by decide)
    · rw [List.mem_cons, List.mem_singleton] at he
      rcases he with rfl | rfl
      · exact ⟨0, sizeT, hfirst, hsize.trans_eq (by decide)⟩
      · exact ⟨8, sizeT, hsecond, (Nat.mod_lt _ (by decide)).trans_eq (by decide)⟩
  obtain ⟨buf, hstore, hlength', hload, -⟩ :=
    storeMembers_spec hdistinct hthere (hlength.symm ▸ hle)
  refine ⟨buf, hstore, hlength'.trans hlength, ?_, fun c hc => ?_⟩
  · exact hload _ (List.mem_append_right _ List.mem_cons_self)
  · exact hload _ (List.mem_append_left _ (List.mem_map_of_mem hc))

/-- What the constructor of a message and its accessors have to agree on. -/
structure VariableMessage.Agrees (m : VariableMessage) : Prop where
  followOn : FollowOn none m.arrays
  new : ∀ counts : Member → ℕ, (∀ c, counts c < uintSize) → ∀ junk, ∃ buf,
    m.new counts junk = some buf ∧
      buf.length = arraysEnd (sizeofStruct m.struct) (arraySizes counts m.arrays) ∧
      loadMember m.struct buf Member.size = some buf.length ∧
      ∀ x ∈ m.arrays, loadMember m.struct buf x.2 = some (counts x.2)

/-- They do if the constructor computes where the last array ends. -/
theorem agrees_of_size {new : (Member → ℕ) → (ℕ → UInt8) → Option Bytes}
    {size simulatedSize : (Member → ℕ) → ℕ} {members : List Member}
    (hnew : ∀ counts junk, new counts junk =
      newMessage s (size counts) (simulatedSize counts) (members.map fun c => (c, counts c)) junk)
    (hs : Headed s members) (hl : FollowOn none l) (hmembers : ∀ x ∈ l, x.2 ∈ members)
    (hsize : ∀ counts : Member → ℕ, (∀ c, counts c < uintSize) →
      size counts = arraysEnd (sizeofStruct s) (arraySizes counts l) ∧ size counts < sizeMax) :
    VariableMessage.Agrees ⟨s, new, l⟩ := by
  refine ⟨hl, fun counts hcounts junk => ?_⟩
  obtain ⟨heq, hlt⟩ := hsize counts hcounts
  obtain ⟨buf, hbuf, hlength, hload, hloads⟩ := newMessage_spec hs hcounts
    (heq ▸ le_arraysEnd _ _) hlt (simulatedSize counts) junk
  refine ⟨buf, (hnew counts junk).trans hbuf, hlength.trans heq, ?_, fun x hx => ?_⟩
  · rw [hlength]
    exact hload
  · exact hloads _ (hmembers x hx)

/-- A count times the size of an element does not wrap. -/
theorem count_mul_lt {n : ℕ} (hn : n < uintSize) {t : CType} (ht : t.size ≤ 8) :
    n * t.size < 2 ^ 35 :=
  calc n * t.size ≤ n * 8 := Nat.mul_le_mul_left n ht
    _ < uintSize * 8 := Nat.mul_lt_mul_of_pos_right hn (by decide)
    _ = 2 ^ 35 := by decide

theorem agrees_1 {c : Member} {t t' : CType} {additional simulated : ℕ} (hs : Headed s [c])
    (ht : t.size ≤ 8) (heq : t.size = t'.size) :
    VariableMessage.Agrees ⟨s, fun n => newStructWith1Trailer s additional c t simulated (n c),
      [(.behind t', c)]⟩ := by
  refine agrees_of_size (fun _ _ => rfl) hs ⟨rfl, trivial⟩ (by simp) fun counts hcounts => ?_
  have hstruct : sizeofStruct s < 2 ^ 32 := hs.2.2.2.2
  have hcount := count_mul_lt (hcounts c) ht
  rw [Nat.mod_eq_of_lt (by rw [sizeMax]; omega), heq]
  refine ⟨rfl, ?_⟩
  rw [sizeMax, ← heq]
  omega

theorem agrees_2 {c₁ c₂ : Member} {t₁ t₂ t₁' t₂' : CType} {additional simulated₁ simulated₂ : ℕ}
    (hs : Headed s [c₁, c₂]) (ht₁ : t₁.size ≤ 8) (ht₂ : t₂.size ≤ 8) (heq₁ : t₁.size = t₁'.size)
    (heq₂ : t₂.size = t₂'.size) :
    VariableMessage.Agrees ⟨s, fun n => newStructWith2Trailer s additional c₁ t₁ simulated₁ c₂ t₂
      simulated₂ (n c₁) (n c₂), [(.behind t₁', c₁), (.after (.behind t₁') c₁ t₂', c₂)]⟩ := by
  refine agrees_of_size (fun _ _ => rfl) hs ⟨rfl, rfl, trivial⟩ (by simp) fun counts hcounts => ?_
  have hstruct : sizeofStruct s < 2 ^ 32 := hs.2.2.2.2
  have hcount₁ := count_mul_lt (hcounts c₁) ht₁
  have hcount₂ := count_mul_lt (hcounts c₂) ht₂
  rw [Nat.mod_eq_of_lt (by rw [sizeMax]; omega), heq₁, heq₂]
  refine ⟨rfl, ?_⟩
  rw [sizeMax, ← heq₁, ← heq₂]
  omega

theorem agrees_sliceRequest : VariableMessage.Agrees ⟨grvSliceRequestT,
    fun n => grvSliceRequestNew (n .numKeys) (n .gstVectorSize),
    [(grvSliceRequestKeys, .numKeys), (grvSliceRequestKeyIds, .numKeys),
      (grvSliceRequestGstVector, .gstVectorSize)]⟩ := by
  have hheaded : Headed grvSliceRequestT [.numKeys, .gstVectorSize] := by decide
  refine agrees_of_size (fun _ _ => rfl) hheaded ⟨rfl, rfl, rfl, trivial⟩ (by simp)
    fun counts hcounts => ?_
  have hstruct : sizeofStruct grvSliceRequestT = 48 := by decide
  have hkeys := count_mul_lt (hcounts .numKeys) (t := grKey) (by decide)
  have hids := count_mul_lt (hcounts .numKeys) (t := unsignedIntT) (by decide)
  have hvector := count_mul_lt (hcounts .gstVectorSize) (t := grTsp) (by decide)
  rw [Nat.mod_eq_of_lt (by rw [sizeMax, hstruct]; omega)]
  refine ⟨rfl, ?_⟩
  rw [sizeMax, hstruct]
  omega

theorem agrees_sliceResponse : VariableMessage.Agrees ⟨grvSliceResponseT,
    fun n => grvSliceResponseNew (n .numValues),
    [(grvSliceResponseKeyIds, .numValues), (grvSliceResponseValues, .numValues),
      (grvSliceResponseUpdateTimes, .numValues),
      (grvSliceResponseSourceReplicas, .numValues)]⟩ := by
  have hheaded : Headed grvSliceResponseT [.numValues] := by decide
  refine agrees_of_size (fun _ _ => rfl) hheaded ⟨rfl, rfl, rfl, rfl, trivial⟩ (by simp)
    fun counts hcounts => ?_
  have hstruct : sizeofStruct grvSliceResponseT = 24 := by decide
  have hids := count_mul_lt (hcounts .numValues) (t := unsignedIntT) (by decide)
  have hvalues := count_mul_lt (hcounts .numValues) (t := grValue) (by decide)
  have htimes := count_mul_lt (hcounts .numValues) (t := grTsp) (by decide)
  have hreplicas := count_mul_lt (hcounts .numValues) (t := replicaT) (by decide)
  rw [Nat.mod_eq_of_lt (by rw [sizeMax, hstruct]; omega)]
  refine ⟨rfl, ?_⟩
  rw [sizeMax, hstruct]
  omega

/-- **All fourteen constructors agree with their accessors.** -/
theorem agrees_of_mem (hm : m ∈ variableMessages) : m.Agrees := by
  simp only [variableMessages, List.mem_cons, List.not_mem_nil, or_false] at hm
  rcases hm with rfl | rfl | rfl | rfl | rfl | rfl | rfl | rfl | rfl | rfl | rfl | rfl | rfl | rfl
  · exact agrees_1 (by decide) (by decide) rfl
  · exact agrees_1 (by decide) (by decide) rfl
  · exact agrees_1 (by decide) (by decide) rfl
  · exact agrees_1 (by decide) (by decide) rfl
  · exact agrees_1 (by decide) (by decide) rfl
  · exact agrees_1 (by decide) (by decide) rfl
  · exact agrees_1 (by decide) (by decide) rfl
  · exact agrees_1 (by decide) (by decide) rfl
  · exact agrees_1 (by decide) (by decide) rfl
  · exact agrees_1 (by decide) (by decide) rfl
  · exact agrees_sliceRequest
  · exact agrees_sliceResponse
  · exact agrees_2 (by decide) (by decide) (by decide) rfl rfl
  · exact agrees_2 (by decide) (by decide) (by decide) rfl rfl

/-! ## 8. Elements -/

/-- What is written behind the structure does not change it. -/
theorem loadMember_congr
    (h : ∀ p n, p + n ≤ sizeofStruct s → readBytes buf' p n = readBytes buf p n) (c : Member) :
    loadMember s buf' c = loadMember s buf c := by
  rw [loadMember, loadMember]
  cases hc : memberAt c s 0 with
  | none => rfl
  | some at' =>
    dsimp only
    rw [h _ _ (memberAt_le_sizeof hc)]

/-- Where an element is, and that it is in the buffer. -/
theorem EndToEnd.element {size : ℕ} {e : ℕ × ℕ} {a : Accessor} {c : Member}
    (h : EndToEnd s buf counts pos l size) (hk : l[e.1]? = some (a, c)) (hi : e.2 < counts c) :
    (arraySizes counts l)[e.1]? = some (counts c, a.type.size) ∧
      arrayStart pos (arraySizes counts l) e.1 + e.2 * a.type.size + a.type.size ≤ size := by
  have hsize : (arraySizes counts l)[e.1]? = some (counts c, a.type.size) := by
    rw [arraySizes, List.getElem?_map, hk, Option.map_some]
  refine ⟨hsize, ?_⟩
  have hend := arrayStart_add_le_end pos hsize
  have helement := element_le hi a.type.size
  rw [h.stop_eq]
  omega

/-- **One element is stored**: it is loaded again, all others and the structure stay. -/
theorem store_spec {e : ℕ × ℕ} {v : Bytes}
    (h : EndToEnd m.struct buf counts (sizeofStruct m.struct) m.arrays buf.length)
    (hv : m.Fits counts e v) :
    ∃ buf', m.store buf e v = some buf' ∧ buf'.length = buf.length ∧
      (∀ c, loadMember m.struct buf' c = loadMember m.struct buf c) ∧ m.load buf' e = some v ∧
      ∀ e' v', m.Fits counts e' v' → e' ≠ e → m.load buf' e' = m.load buf e' := by
  obtain ⟨a, c, hk, hi, hlength⟩ := hv
  obtain ⟨hsize, hle⟩ := h.element hk hi
  have hoffset := h.offset hk
  obtain ⟨buf', hwrite, hlength', hread, hframe⟩ :=
    @writeBytes_spec buf v (arrayStart (sizeofStruct m.struct) (arraySizes counts m.arrays) e.1 +
      e.2 * a.type.size) (by rwa [hlength])
  rw [hlength] at hread hframe
  have hstruct : ∀ c, loadMember m.struct buf' c = loadMember m.struct buf c := by
    refine loadMember_congr fun p n hpn => hframe p n (.inl (hpn.trans ?_))
    exact (le_arrayStart _ _ _).trans (Nat.le_add_right _ _)
  refine ⟨buf', ?_, hlength', hstruct, ?_, fun e' v' hv' hne => ?_⟩
  · simp only [VariableMessage.store, hk, Accessor.store, hoffset]
    exact hwrite
  · simp only [VariableMessage.load, hk, Accessor.load, Accessor.offset_congr hstruct, hoffset]
    exact hread
  · obtain ⟨a', c', hk', hi', -⟩ := hv'
    obtain ⟨hsize', -⟩ := h.element hk' hi'
    simp only [VariableMessage.load, hk', Accessor.load, Accessor.offset_congr hstruct,
      h.offset hk']
    exact hframe _ _ (element_disjoint hsize' hi' hsize hi hne)

/-- **Any stores**: of each element the last value stored is loaded. -/
theorem storeAll_spec {ws : List ((ℕ × ℕ) × Bytes)}
    (h : EndToEnd m.struct buf counts (sizeofStruct m.struct) m.arrays buf.length)
    (hws : ∀ w ∈ ws, m.Fits counts w.1 w.2) :
    ∃ buf', m.storeAll ws buf = some buf' ∧ buf'.length = buf.length ∧
      ∀ e v, m.Fits counts e v → m.load buf' e = (ws.reverse.lookup e).or (m.load buf e) := by
  induction ws generalizing buf with
  | nil => exact ⟨buf, rfl, rfl, fun _ _ _ => rfl⟩
  | cons w ws ih =>
    obtain ⟨e₀, v₀⟩ := w
    obtain ⟨buf₁, hstore, hlength₁, hstruct, hload₁, hframe⟩ :=
      store_spec h (hws _ List.mem_cons_self)
    have h₁ := h.congr hstruct
    rw [← hlength₁] at h₁
    obtain ⟨buf', hrest, hlength, hload⟩ := ih h₁ fun w hw => hws w (List.mem_cons_of_mem _ hw)
    refine ⟨buf', ?_, hlength.trans hlength₁, fun e v hv => ?_⟩
    · simp only [VariableMessage.storeAll, hstore]
      exact hrest
    · rw [hload e v hv, List.reverse_cons, List.lookup_append, Option.or_assoc, List.lookup_cons]
      by_cases he : e = e₀
      · subst he
        rw [beq_self_eq_true, hload₁]
        rfl
      · rw [beq_eq_false_iff_ne.mpr he, hframe e v hv he]
        rfl

/-- **The layout of the messages.**  For every message with arrays and all counts: the constructor
allocates `message.size` bytes; the arrays that the accessors address lie end to end from the end of
the structure to the end of the buffer, so no two have a byte in common; and whatever elements are
stored through the accessors, in whatever order, from a copy of `message.size` bytes each is loaded
as it was stored last. -/
theorem message_layout (hm : m ∈ variableMessages) (counts : Member → ℕ)
    (hcounts : ∀ c, counts c < uintSize) (junk : ℕ → UInt8) :
    ∃ buf size, m.new counts junk = some buf ∧ buf.length = size ∧
      loadMember m.struct buf Member.size = some size ∧
      EndToEnd m.struct buf counts (sizeofStruct m.struct) m.arrays size ∧
      (∀ (k k' : ℕ) (a a' : Accessor) (c c' : Member), k < k' → m.arrays[k]? = some (a, c) →
        m.arrays[k']? = some (a', c') → ∃ pos pos', a.offset m.struct buf = some pos ∧
          a'.offset m.struct buf = some pos' ∧ pos + counts c * a.type.size ≤ pos') ∧
      ∀ ws : List ((ℕ × ℕ) × Bytes), (∀ w ∈ ws, m.Fits counts w.1 w.2) →
        ∃ buf', m.storeAll ws buf = some buf' ∧
          ∀ e v, m.Fits counts e v →
            m.load (buf'.take size) e = (ws.reverse.lookup e).or (m.load buf e) := by
  obtain ⟨hfollow, hnew⟩ := agrees_of_mem hm
  obtain ⟨buf, hbuf, hlength, hsize, hloads⟩ := hnew counts hcounts junk
  have hends := endToEnd_of_followOn hfollow hloads
  rw [← hlength] at hends
  refine ⟨buf, buf.length, hbuf, rfl, hsize, hends, fun k k' a a' c c' hlt hk hk' => ?_,
    fun ws hws => ?_⟩
  · have hsizes : (arraySizes counts m.arrays)[k]? = some (counts c, a.type.size) := by
      rw [arraySizes, List.getElem?_map, hk, Option.map_some]
    exact ⟨_, _, hends.offset hk, hends.offset hk', arrayStart_add_le _ hsizes hlt⟩
  · obtain ⟨buf', hstore, hlength', hload⟩ := storeAll_spec hends hws
    refine ⟨buf', hstore, fun e v hv => ?_⟩
    rw [← hlength', List.take_length]
    exact hload e v hv

/-- Three values: `24 + 3 * (4 + 1 + 8 + 4)` bytes. -/
theorem message_layout_slice : ∃ buf size,
    grvSliceResponseNew 3 (fun _ => 0) = some buf ∧ buf.length = size ∧
      loadMember grvSliceResponseT buf Member.size = some size ∧ size = 75 := by
  obtain ⟨buf, size, hnew, hlength, hsize, hends, -⟩ :=
    message_layout (m := ⟨grvSliceResponseT, fun n => grvSliceResponseNew (n .numValues),
      [(grvSliceResponseKeyIds, .numValues), (grvSliceResponseValues, .numValues),
        (grvSliceResponseUpdateTimes, .numValues),
        (grvSliceResponseSourceReplicas, .numValues)]⟩)
      (by simp [variableMessages]) (fun _ => 3) (fun _ => by decide) fun _ => 0
  exact ⟨buf, size, hnew, hlength, hsize, hends.stop_eq⟩

end CCSim
