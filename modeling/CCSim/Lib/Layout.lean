/-
# Structures and arrays in a buffer of bytes

What a C program does to a `struct` with arrays behind it, in one buffer: bytes are read and written
at an offset (`readBytes`, `writeBytes`), unsigned integers are little-endian (`encodeNat`), the
members of a structure are padded to their alignment (`memberAt`, `sizeofStruct`), and arrays with
elements of different sizes follow each other (`arrayStart`).  Members and elements are disjoint
(`memberAt_disjoint`, `element_disjoint`), so what is written to one of them is what is read from
it, and all others stay.  Any alignment of an access is allowed.
-/
import Mathlib.Data.List.Basic
import Mathlib.Algebra.Order.Group.Nat

namespace CCSim

/-! ## 1. Bytes -/

abbrev Bytes := List UInt8

/-- The `n` bytes from `pos` on, if the buffer has them. -/
def readBytes (buf : Bytes) (pos n : ℕ) : Option Bytes :=
  if pos + n ≤ buf.length then some ((buf.drop pos).take n) else none

def writeBytes (buf : Bytes) (pos : ℕ) (bytes : Bytes) : Option Bytes :=
  if pos + bytes.length ≤ buf.length then
    some (buf.take pos ++ (bytes ++ buf.drop (pos + bytes.length)))
  else none

/-- What is written is read, and what is read elsewhere stays. -/
theorem writeBytes_spec {buf bytes : Bytes} {pos : ℕ} (h : pos + bytes.length ≤ buf.length) :
    ∃ buf', writeBytes buf pos bytes = some buf' ∧ buf'.length = buf.length ∧
      readBytes buf' pos bytes.length = some bytes ∧
      ∀ p n, p + n ≤ pos ∨ pos + bytes.length ≤ p → readBytes buf' p n = readBytes buf p n := by
  have htake : (buf.take pos).length = pos := List.length_take_of_le (by omega)
  have hlength : (buf.take pos ++ (bytes ++ buf.drop (pos + bytes.length))).length =
      buf.length := by
    rw [List.length_append, List.length_append, htake, List.length_drop]
    omega
  refine ⟨_, if_pos h, hlength, ?_, fun p n hpn => ?_⟩
  · rw [readBytes, hlength, if_pos h, List.drop_left' htake, List.take_left]
  · rw [readBytes, readBytes, hlength]
    split
    · congr 1
      rename_i hn
      rcases hpn with hbefore | hafter
      · rw [List.drop_append_of_le_length (by omega), List.take_append_of_le_length
          (by rw [List.length_drop]; omega), List.drop_take, List.take_take,
          Nat.min_eq_left (by omega)]
      · congr 1
        obtain ⟨d, rfl⟩ := Nat.exists_eq_add_of_le hafter
        rw [← List.append_assoc, ← List.drop_drop, List.drop_left', List.drop_drop]
        rw [List.length_append, htake]
    · rfl

/-! ## 2. Unsigned integers -/

/-- The `n` bytes of `x`, the lowest first. -/
def encodeNat : ℕ → ℕ → Bytes
  | 0, _ => []
  | n + 1, x => UInt8.ofNat x :: encodeNat n (x / 256)

def decodeNat : Bytes → ℕ
  | [] => 0
  | b :: bytes => b.toNat + 256 * decodeNat bytes

@[simp] theorem length_encodeNat (n x : ℕ) : (encodeNat n x).length = n := by
  induction n generalizing x with
  | zero => rfl
  | succ n ih => rw [encodeNat, List.length_cons, ih]

theorem decodeNat_encodeNat {n x : ℕ} (h : x < 256 ^ n) : decodeNat (encodeNat n x) = x := by
  induction n generalizing x with
  | zero =>
    obtain rfl : x = 0 := by simpa using h
    rfl
  | succ n ih =>
    have hdiv : x / 256 < 256 ^ n := by
      rw [Nat.div_lt_iff_lt_mul (by decide), ← Nat.pow_succ]
      exact h
    rw [encodeNat, decodeNat, ih hdiv, UInt8.toNat_ofNat']
    exact Nat.mod_add_div x 256

/-! ## 3. Structures -/

/-- The size and the alignment of a type. -/
structure CType where
  size : ℕ
  align : ℕ
  align_pos : 0 < align
  deriving DecidableEq

variable {M : Type} [DecidableEq M]

/-- The next multiple of `a`. -/
def roundUp (n a : ℕ) : ℕ := (n + a - 1) / a * a

theorem le_roundUp {a : ℕ} (ha : 0 < a) (n : ℕ) : n ≤ roundUp n a := by
  have hdiv := Nat.div_add_mod (n + a - 1) a
  have hmod := Nat.mod_lt (n + a - 1) ha
  rw [roundUp, Nat.mul_comm]
  omega

/-- Where a member is, and its type, in a structure of which `pos` bytes are laid out. -/
def memberAt (m : M) : List (M × CType) → ℕ → Option (ℕ × CType)
  | [], _ => none
  | (m', t) :: s, pos =>
    if m' = m then some (roundUp pos t.align, t)
    else memberAt m s (roundUp pos t.align + t.size)

/-- Where the last member ends. -/
def membersEnd : List (M × CType) → ℕ → ℕ
  | [], pos => pos
  | (_, t) :: s, pos => membersEnd s (roundUp pos t.align + t.size)

def structAlign : List (M × CType) → ℕ
  | [] => 1
  | (_, t) :: s => max t.align (structAlign s)

/-- `sizeof` -/
def sizeofStruct (s : List (M × CType)) : ℕ := roundUp (membersEnd s 0) (structAlign s)

variable {s : List (M × CType)} {m m' : M} {pos off off' : ℕ} {t t' : CType}

omit [DecidableEq M] in
theorem le_membersEnd (s : List (M × CType)) (pos : ℕ) : pos ≤ membersEnd s pos := by
  induction s generalizing pos with
  | nil => exact Nat.le_refl _
  | cons x s ih =>
    have hround := le_roundUp x.2.align_pos pos
    have hend := ih (roundUp pos x.2.align + x.2.size)
    rw [membersEnd]
    omega

omit [DecidableEq M] in
theorem structAlign_pos (s : List (M × CType)) : 0 < structAlign s := by
  induction s with
  | nil => exact Nat.zero_lt_one
  | cons x s ih => exact Nat.lt_of_lt_of_le ih (Nat.le_max_right _ _)

/-- A member is behind what is laid out, and in the structure. -/
theorem memberAt_bounds (h : memberAt m s pos = some (off, t)) :
    pos ≤ off ∧ off + t.size ≤ membersEnd s pos := by
  induction s generalizing pos with
  | nil => cases h
  | cons x s ih =>
    obtain ⟨m', t'⟩ := x
    have hround := le_roundUp t'.align_pos pos
    rw [memberAt] at h
    rw [membersEnd]
    split at h
    · cases h
      exact ⟨hround, le_membersEnd _ _⟩
    · obtain ⟨hpos, hend⟩ := ih h
      exact ⟨by omega, hend⟩

theorem memberAt_le_sizeof (h : memberAt m s 0 = some (off, t)) : off + t.size ≤ sizeofStruct s :=
  (memberAt_bounds h).2.trans (le_roundUp (structAlign_pos s) _)

/-- Different members have no byte in common. -/
theorem memberAt_disjoint (h : memberAt m s pos = some (off, t))
    (h' : memberAt m' s pos = some (off', t')) (hne : m ≠ m') :
    off + t.size ≤ off' ∨ off' + t'.size ≤ off := by
  induction s generalizing pos with
  | nil => cases h
  | cons x s ih =>
    rw [memberAt] at h h'
    split at h
    · rename_i hx
      rw [if_neg (fun hx' => hne (hx.symm.trans hx'))] at h'
      cases h
      exact .inl (memberAt_bounds h').1
    · split at h'
      · cases h'
        exact .inr (memberAt_bounds h).1
      · exact ih h h'

/-- `ptr->m` -/
def loadMember (s : List (M × CType)) (buf : Bytes) (m : M) : Option ℕ :=
  match memberAt m s 0 with
  | none => none
  | some (off, t) => (readBytes buf off t.size).map decodeNat

/-- `ptr->m = x` -/
def storeMember (s : List (M × CType)) (buf : Bytes) (m : M) (x : ℕ) : Option Bytes :=
  match memberAt m s 0 with
  | none => none
  | some (off, t) => writeBytes buf off (encodeNat t.size x)

/-- One assignment after the other. -/
def storeMembers (s : List (M × CType)) : List (M × ℕ) → Bytes → Option Bytes
  | [], buf => some buf
  | (m, x) :: l, buf =>
    match storeMember s buf m x with
    | none => none
    | some buf' => storeMembers s l buf'

variable {buf buf' : Bytes} {x : ℕ}

/-- What is stored in a member is loaded from it, and all others stay. -/
theorem storeMember_spec (hm : memberAt m s 0 = some (off, t)) (hx : x < 256 ^ t.size)
    (hbuf : sizeofStruct s ≤ buf.length) :
    ∃ buf', storeMember s buf m x = some buf' ∧ buf'.length = buf.length ∧
      loadMember s buf' m = some x ∧ ∀ m' ≠ m, loadMember s buf' m' = loadMember s buf m' := by
  have hle := (memberAt_le_sizeof hm).trans hbuf
  obtain ⟨buf', hwrite, hlength, hread, hframe⟩ :=
    @writeBytes_spec buf (encodeNat t.size x) off (by rwa [length_encodeNat])
  rw [length_encodeNat] at hread hframe
  refine ⟨buf', ?_, hlength, ?_, fun m' hne => ?_⟩
  · rw [storeMember, hm]
    exact hwrite
  · simp only [loadMember, hm, hread, Option.map_some, decodeNat_encodeNat hx]
  · rw [loadMember, loadMember]
    cases hm' : memberAt m' s 0 with
    | none => rfl
    | some at' =>
      dsimp only
      rw [hframe _ _ (memberAt_disjoint hm' hm hne)]

/-- After assignments to different members each has its value. -/
theorem storeMembers_spec {l : List (M × ℕ)} (hl : (l.map Prod.fst).Nodup)
    (hm : ∀ e ∈ l, ∃ off t, memberAt e.1 s 0 = some (off, t) ∧ e.2 < 256 ^ t.size)
    (hbuf : sizeofStruct s ≤ buf.length) :
    ∃ buf', storeMembers s l buf = some buf' ∧ buf'.length = buf.length ∧
      (∀ e ∈ l, loadMember s buf' e.1 = some e.2) ∧
      ∀ m ∉ l.map Prod.fst, loadMember s buf' m = loadMember s buf m := by
  induction l generalizing buf with
  | nil =>
    refine ⟨buf, rfl, rfl, fun e he => ?_, fun m _ => rfl⟩
    cases he
  | cons e l ih =>
    obtain ⟨hhead, htail⟩ := List.nodup_cons.mp hl
    obtain ⟨off, t, he, hx⟩ := hm e List.mem_cons_self
    obtain ⟨buf₁, hstore, hlength₁, hload₁, hframe₁⟩ := storeMember_spec he hx hbuf
    obtain ⟨buf', hrest, hlength, hload, hframe⟩ :=
      ih htail (fun e he => hm e (List.mem_cons_of_mem _ he)) (hlength₁ ▸ hbuf)
    refine ⟨buf', ?_, hlength.trans hlength₁, fun e' he' => ?_, fun m' hm' => ?_⟩
    · simp only [storeMembers, hstore]
      exact hrest
    · rcases List.mem_cons.mp he' with rfl | he'
      · rw [hframe _ hhead]
        exact hload₁
      · exact hload e' he'
    · rw [List.map_cons, List.mem_cons, not_or] at hm'
      rw [hframe _ hm'.2, hframe₁ _ hm'.1]

/-! ## 4. Arrays -/

/-- Where array `k` starts, of arrays with so many elements of such a size, from `base` on. -/
def arrayStart (base : ℕ) : List (ℕ × ℕ) → ℕ → ℕ
  | [], _ => base
  | _ :: _, 0 => base
  | (n, size) :: l, k + 1 => arrayStart (base + n * size) l k

/-- Where the last array ends. -/
def arraysEnd (base : ℕ) : List (ℕ × ℕ) → ℕ
  | [] => base
  | (n, size) :: l => arraysEnd (base + n * size) l

variable {base k k' i i' n n' size size' : ℕ} {l : List (ℕ × ℕ)}

theorem le_arraysEnd (base : ℕ) (l : List (ℕ × ℕ)) : base ≤ arraysEnd base l := by
  induction l generalizing base with
  | nil => exact Nat.le_refl _
  | cons a l ih => exact (Nat.le_add_right _ _).trans (ih _)

theorem le_arrayStart (base : ℕ) (l : List (ℕ × ℕ)) (k : ℕ) : base ≤ arrayStart base l k := by
  induction l generalizing base k with
  | nil =>
    rw [arrayStart]
  | cons a l ih =>
    cases k with
    | zero => exact Nat.le_refl _
    | succ k => exact (Nat.le_add_right _ _).trans (ih _ _)

/-- An array is before the next one. -/
theorem arrayStart_add_le (base : ℕ) (h : l[k]? = some (n, size)) (hk : k < k') :
    arrayStart base l k + n * size ≤ arrayStart base l k' := by
  induction l generalizing base k k' with
  | nil => cases h
  | cons a l ih =>
    obtain ⟨k', rfl⟩ := Nat.exists_eq_succ_of_ne_zero (Nat.ne_zero_of_lt hk)
    cases k with
    | zero =>
      cases h
      exact le_arrayStart _ _ _
    | succ k => exact ih _ h (Nat.lt_of_succ_lt_succ hk)

theorem arrayStart_add_le_end (base : ℕ) (h : l[k]? = some (n, size)) :
    arrayStart base l k + n * size ≤ arraysEnd base l := by
  induction l generalizing base k with
  | nil => cases h
  | cons a l ih =>
    cases k with
    | zero =>
      cases h
      exact le_arraysEnd _ _
    | succ k => exact ih _ h

/-- An element is in its array. -/
theorem element_le (hi : i < n) (size : ℕ) : i * size + size ≤ n * size := by
  rw [← Nat.succ_mul]
  exact Nat.mul_le_mul_right size hi

/-- Different elements have no byte in common. -/
theorem element_disjoint (h : l[k]? = some (n, size)) (hi : i < n)
    (h' : l[k']? = some (n', size')) (hi' : i' < n') (hne : (k, i) ≠ (k', i')) :
    arrayStart base l k + i * size + size ≤ arrayStart base l k' + i' * size' ∨
      arrayStart base l k' + i' * size' + size' ≤ arrayStart base l k + i * size := by
  have hle := element_le hi size
  have hle' := element_le hi' size'
  rcases Nat.lt_trichotomy k k' with hk | hk | hk
  · have hbefore := arrayStart_add_le base h hk
    left
    omega
  · subst hk
    rw [h] at h'
    cases h'
    have hii : i ≠ i' := fun hii => hne (by rw [hii])
    rcases Nat.lt_or_gt_of_ne hii with hlt | hlt
    · have hbefore := element_le hlt size
      left
      omega
    · have hbefore := element_le hlt size
      right
      omega
  · have hbefore := arrayStart_add_le base h' hk
    right
    omega

end CCSim
