/-
# Rounds of the global stable time

Both protocols compute their stable times in the same rounds: the events of a data center that
have to do with it are the tokens of a convergecast on its partitions, and what the servers have
received and computed so far is the rest of its state (`RoundView.state`).  `GstWork` lists what a
handler may do to these.  If every handler does one of these things, a run of the program is a run
of the convergecast in every data center (`RoundView.sound`).
-/
import CCSim.Aggregation
import CCSim.Setup
import CCSim.Refinement
import Mathlib.Algebra.BigOperators.Fin
import Mathlib.Data.Fintype.BigOperators

namespace CCSim

variable {c : Cluster} {E σ κ χ V : Type}

/-! ## 1. What is seen of a program -/

/-- What is seen of a program: the flags and the minimum of a server, the token that an event of a
partition stands for, what a server contributes when it handles an event, and the events in which
the root reads the minimum. -/
structure RoundView (c : Cluster) (E σ V : Type) where
  lstReceived : σ → ℕ → Bool
  minimum : σ → V
  token : Partition c → E → Option (RoundToken (Partition c) V)
  contributed : ServerId c → σ → E → List V
  reads : E → Bool

namespace RoundView

variable (view : RoundView c E σ V)

/-- The token that an event in flight stands for, with its server. -/
def tokenAt : (ServerId c ⊕ ClientId c) × E → Option (ServerId c × RoundToken (Partition c) V)
  | (.inl s, e) => (view.token s.2 e).map (s, ·)
  | (.inr _, _) => none

/-- The event has nothing to do with the rounds. -/
def Ignores (e : E) : Prop := ∀ p, view.token p e = none

/-- What belongs to one data center. -/
def tokenOf (r : Replica c) (x : ServerId c × RoundToken (Partition c) V) :
    Option (RoundToken (Partition c) V) :=
  if x.1.1 = r then some x.2 else none

/-- The tokens of one data center. -/
def tokens (r : Replica c) (events : Multiset ((ServerId c ⊕ ClientId c) × E)) :
    Multiset (RoundToken (Partition c) V) :=
  (events.filterMap view.tokenAt).filterMap (tokenOf r)

/-- What a server contributes in a handler call. -/
def contributedIn (s : ServerId c) : Act (ServerId c) (ClientId c) E σ κ → List V
  | .server s' _ e st _ => if s' = s then view.contributed s st e else []
  | .client _ _ _ _ _ => []

/-- What a server has contributed, the latest value first. -/
def contributions (s : ServerId c) (h : List (Act (ServerId c) (ClientId c) E σ κ)) : List V :=
  h.flatMap (view.contributedIn s)

/-- A server reads the minimum in this handler call. -/
def readsIn (s : ServerId c) : Act (ServerId c) (ClientId c) E σ κ → Bool
  | .server s' _ e _ _ => decide (s' = s) && view.reads e
  | .client _ _ _ _ _ => false

/-- How many minima the root of a data center has read. -/
def rounds (r : Replica c) (h : List (Act (ServerId c) (ClientId c) E σ κ)) : ℕ :=
  h.countP (view.readsIn (r, c.root))

/-- The state of the rounds of a data center. -/
def state (r : Replica c) (M : Mail (ServerId c) (ClientId c) E σ κ)
    (h : List (Act (ServerId c) (ClientId c) E σ κ)) : RoundState (Partition c) V where
  heard p := !decide (p = c.root) &&
    view.lstReceived (M.server (r, parentPartition p)) (childPartitionIndex c p)
  minimum q := view.minimum (M.server (r, q))
  contributions p := view.contributions (r, p) h
  read := view.rounds r h
  tokens := view.tokens r M.events

/-- A value is on its way to the parent, only the root closes rounds, and a result is where it is
told.  A data center with a single partition has no rounds. -/
def Placed : ServerId c × RoundToken (Partition c) V → Prop
  | (s, .up p _) => p ≠ c.root ∧ parentPartition p = s.2
  | (s, .closed) => s.2 = c.root ∧ 1 < c.numPartitions
  | (s, .down p) => p = s.2 ∧ 1 < c.numPartitions
  | _ => True

end RoundView

/-! ## 2. What a handler may do -/

variable (view : RoundView c E σ V)

/-- The minimum when the value `v` has been noted. -/
def RoundView.noted [LinearOrder V] (st : σ) (v : V) : V :=
  if ((List.range c.treeFanout).filter (view.lstReceived st)).length = 0 ∨ v < view.minimum st
  then v else view.minimum st

/-- What a handler of the server `s` may do to the rounds. -/
inductive GstWork [LinearOrder V] (s : ServerId c) (st : σ) (e : E)
    (r : Outcome (ServerId c) (ClientId c) E σ) : Prop
  | other (he : view.token s.2 e = none) (hflags : view.lstReceived r.state = view.lstReceived st)
      (hmin : view.minimum r.state = view.minimum st)
      (hnew : (r.placed s).filterMap view.tokenAt = [])
      (hc : view.contributed s st e = []) (hr : view.reads e = false)
  | same (t : RoundToken (Partition c) V) (he : view.token s.2 e = some t)
      (hflags : view.lstReceived r.state = view.lstReceived st)
      (hmin : view.minimum r.state = view.minimum st)
      (hnew : (r.placed s).filterMap view.tokenAt = [(s, t)])
      (hc : view.contributed s st e = []) (hr : view.reads e = false)
  | start (v : V) (he : view.token s.2 e = some (.start s.2)) (hleaf : isLeafPartition s.2 = true)
      (hroot : s.2 ≠ c.root) (hflags : view.lstReceived r.state = view.lstReceived st)
      (hmin : view.minimum r.state = view.minimum st)
      (hnew : (r.placed s).filterMap view.tokenAt = [((s.1, parentPartition s.2), .up s.2 v)])
      (hc : view.contributed s st e = [v]) (hr : view.reads e = false)
  | note (p : Partition c) (v : V) (he : view.token s.2 e = some (.up p v))
      (hheard : view.lstReceived st (childPartitionIndex c p) = false)
      (hflags : view.lstReceived r.state =
        Function.update (view.lstReceived st) (childPartitionIndex c p) true)
      (hmin : view.minimum r.state = view.noted st v)
      (hnew : (r.placed s).filterMap view.tokenAt = [])
      (hc : view.contributed s st e = []) (hr : view.reads e = false)
  | complete (p : Partition c) (v w : V) (he : view.token s.2 e = some (.up p v))
      (hheard : view.lstReceived st (childPartitionIndex c p) = false)
      (hlast : ((List.range c.treeFanout).filter (view.lstReceived st)).length =
        (numChildrenPartitions s.2 + uintSize - 1) % uintSize)
      (hflags : view.lstReceived r.state = fun _ => false)
      (hmin : view.minimum r.state = min w (view.noted st v))
      (hnew : (r.placed s).filterMap view.tokenAt = [if s.2 = c.root then (s, .closed)
        else ((s.1, parentPartition s.2), .up s.2 (min w (view.noted st v)))])
      (hc : view.contributed s st e = [w]) (hr : view.reads e = false)
  | readMinimum (he : view.token s.2 e = some .closed)
      (hflags : view.lstReceived r.state = view.lstReceived st)
      (hmin : view.minimum r.state = view.minimum st)
      (hnew : (r.placed s).filterMap view.tokenAt = [(s, .down s.2)])
      (hc : view.contributed s st e = []) (hr : view.reads e = true)
  | tell (he : view.token s.2 e = some (.down s.2)) (hleaf : isLeafPartition s.2 = false)
      (hflags : view.lstReceived r.state = view.lstReceived st)
      (hmin : view.minimum r.state = view.minimum st)
      (hnew : (r.placed s).filterMap view.tokenAt =
        (childrenPartitions s.2).map fun p => ((s.1, p), .down p))
      (hc : view.contributed s st e = []) (hr : view.reads e = false)
  | restart (he : view.token s.2 e = some (.down s.2)) (hleaf : isLeafPartition s.2 = true)
      (hflags : view.lstReceived r.state = view.lstReceived st)
      (hmin : view.minimum r.state = view.minimum st)
      (hnew : (r.placed s).filterMap view.tokenAt = [(s, .start s.2)])
      (hc : view.contributed s st e = []) (hr : view.reads e = false)

/-! ## 3. A run is a run of the convergecast -/

namespace RoundView

variable {view} {s : ServerId c} {r : Replica c}

theorem tokens_cons_none {x : (ServerId c ⊕ ClientId c) × E} (hx : view.tokenAt x = none)
    (events : Multiset ((ServerId c ⊕ ClientId c) × E)) :
    view.tokens r (x ::ₘ events) = view.tokens r events := by
  rw [tokens, Multiset.filterMap_cons_none _ _ hx, tokens]

theorem tokens_cons {x : (ServerId c ⊕ ClientId c) × E}
    {y : ServerId c × RoundToken (Partition c) V} (hx : view.tokenAt x = some y)
    (events : Multiset ((ServerId c ⊕ ClientId c) × E)) :
    view.tokens r (x ::ₘ events) =
      (((tokenOf r y).toList : List _) : Multiset _) + view.tokens r events := by
  rw [tokens, Multiset.filterMap_cons_some _ _ _ hx]
  cases hy : tokenOf r y with
  | none => rw [Multiset.filterMap_cons_none _ _ hy, tokens, Option.toList_none,
      Multiset.coe_nil, zero_add]
  | some t => rw [Multiset.filterMap_cons_some _ _ _ hy, tokens, Option.toList_some,
      Multiset.coe_singleton, Multiset.singleton_add]

theorem tokens_add (events events' : Multiset ((ServerId c ⊕ ClientId c) × E)) :
    view.tokens r (events + events') = view.tokens r events + view.tokens r events' := by
  simp only [tokens, Multiset.filterMap_add]

theorem tokens_coe {l : List ((ServerId c ⊕ ClientId c) × E)}
    {l' : List (ServerId c × RoundToken (Partition c) V)} (h : l.filterMap view.tokenAt = l') :
    view.tokens r (l : Multiset _) = (l'.filterMap (tokenOf r) : List _) := by
  rw [tokens, Multiset.filterMap_coe, h, Multiset.filterMap_coe]

theorem tokenAt_ignored {x : (ServerId c ⊕ ClientId c) × E} (h : view.Ignores x.2) :
    view.tokenAt x = none := by
  obtain ⟨s | k, e⟩ := x
  · exact congrArg (Option.map _) (h s.2)
  · rfl

theorem outs_ignored {outs : List (Out (ServerId c) (ClientId c) E)}
    (h : ∀ o ∈ outs, view.Ignores o.event) :
    (outs.map fun o => (o.place s, o.event)).filterMap view.tokenAt = [] := by
  refine List.filterMap_eq_nil_iff.mpr fun x hx => ?_
  obtain ⟨o, ho, rfl⟩ := List.mem_map.mp hx
  exact tokenAt_ignored (h o ho)

/-- A handler that leaves no token behind. -/
theorem placed_ignored {out : Outcome (ServerId c) (ClientId c) E σ}
    (houts : ∀ o ∈ out.outs, view.Ignores o.event)
    (hcont : ∀ e ∈ out.cont.event?, view.Ignores e) :
    (out.placed s).filterMap view.tokenAt = [] := by
  rw [Outcome.placed, List.filterMap_append, outs_ignored houts, List.nil_append]
  refine List.filterMap_eq_nil_iff.mpr fun x hx => ?_
  obtain ⟨e, he, rfl⟩ := List.mem_map.mp hx
  exact tokenAt_ignored (hcont e (Option.mem_toList.mp he))

theorem forall_mem_singleton_ignored {o : Out (ServerId c) (ClientId c) E}
    (ho : view.Ignores o.event) : ∀ o' ∈ [o], view.Ignores o'.event := by
  intro o' ho'
  rw [List.mem_singleton.mp ho']
  exact ho

theorem next_ignored {e : E} (he : view.Ignores e) : ∀ e' ∈ some e, view.Ignores e' := by
  rintro _ ⟨⟩
  exact he

theorem nothing_ignored : ∀ e' ∈ (none : Option E), view.Ignores e' := by
  rintro _ ⟨⟩

/-- A handler that only goes on to another event. -/
theorem cont_ignored {state : σ} {noTime : Bool} {cont : Cont E}
    (hcont : ∀ e ∈ cont.event?, view.Ignores e) :
    (({ state := state, noTime := noTime, cont := cont } :
      Outcome (ServerId c) (ClientId c) E σ).placed s).filterMap view.tokenAt = [] :=
  placed_ignored (List.forall_mem_nil _) hcont

/-- A handler that only sends something. -/
theorem out_ignored {state : σ} {noTime : Bool} {o : Out (ServerId c) (ClientId c) E}
    (ho : view.Ignores o.event) :
    (({ state := state, outs := [o], noTime := noTime } :
      Outcome (ServerId c) (ClientId c) E σ).placed s).filterMap view.tokenAt = [] :=
  placed_ignored (forall_mem_singleton_ignored ho) nothing_ignored

/-- A message that stands for a token is sent to every partition of a list. -/
theorem filterMap_tokenAt {f : Partition c → (ServerId c ⊕ ClientId c) × E}
    {g : Partition c → ServerId c × RoundToken (Partition c) V}
    (h : ∀ p, view.tokenAt (f p) = some (g p)) (l : List (Partition c)) :
    (l.map f).filterMap view.tokenAt = l.map g := by
  rw [List.filterMap_map, show view.tokenAt ∘ f = fun p => some (g p) from funext h,
    List.filterMap_eq_map']

theorem filterMap_tokenOf (l : List (Partition c)) :
    (l.map fun p => (((r, p), .down p) : ServerId c × RoundToken (Partition c) V)).filterMap
      (tokenOf r) = l.map .down := by
  induction l with
  | nil => rfl
  | cons p l ih => simp [tokenOf, ih]

/-- What a partition has heard is what its flags say. -/
theorem heardFrom_state {M : Mail (ServerId c) (ClientId c) E σ κ}
    {h : List (Act (ServerId c) (ClientId c) E σ κ)} {q : Partition c}
    (hflags : FlagsOfChildren q (view.lstReceived (M.server (r, q)))) :
    ((aggregation c).heardFrom (view.state r M h) q).card =
      ((List.range c.treeFanout).filter (view.lstReceived (M.server (r, q)))).length := by
  rw [length_filter_flags hflags]
  congr 1
  refine Finset.filter_congr fun p hp => ?_
  rw [Convergecast.mem_children, aggregation_childOf] at hp
  have hroot : decide (p = c.root) = false := decide_eq_false (ne_root_iff.mpr hp.1)
  simp only [state, hroot, hp.2, Bool.not_false, Bool.true_and]

section Serve

variable {M : Mail (ServerId c) (ClientId c) E σ κ} {e : E} {t : ℚ} {q : Partition c}
  {out : Outcome (ServerId c) (ClientId c) E σ} {mail : Multiset ((ServerId c ⊕ ClientId c) × E)}
  {h : List (Act (ServerId c) (ClientId c) E σ κ)}

/-- The mail after a server has handled an event. -/
def served (M : Mail (ServerId c) (ClientId c) E σ κ) (s : ServerId c) (t : ℚ)
    (out : Outcome (ServerId c) (ClientId c) E σ)
    (mail : Multiset ((ServerId c ⊕ ClientId c) × E)) : Mail (ServerId c) (ClientId c) E σ κ :=
  ⟨t, Function.update M.server s out.state, M.client, mail + ((out.placed s : List _) : Multiset _)⟩

/-- The rounds of a data center after a server of it has handled an event. -/
theorem state_served : view.state r (served M (r, q) t out mail)
      (.server (r, q) t e (M.server (r, q)) out :: h) =
    { heard := fun p => if parentPartition p = q then !decide (p = c.root) &&
          view.lstReceived out.state (childPartitionIndex c p) else (view.state r M h).heard p
      minimum := Function.update (view.state r M h).minimum q (view.minimum out.state)
      contributions := Function.update (view.state r M h).contributions q
        (view.contributed (r, q) (M.server (r, q)) e ++ (view.state r M h).contributions q)
      read := (view.state r M h).read + if q = c.root ∧ view.reads e = true then 1 else 0
      tokens := view.tokens r mail + view.tokens r (out.placed (r, q) : Multiset _) } := by
  have hne : ∀ {p}, p ≠ q → (r, p) ≠ (r, q) := fun hp h => hp (Prod.mk.inj h).2
  ext1
  · funext p
    by_cases hp : parentPartition p = q
    · simp only [state, served, hp, Function.update_self, if_true]
    · simp only [state, served, if_neg hp, Function.update_of_ne (hne hp)]
  · funext p
    by_cases hp : p = q
    · subst hp
      simp only [state, served, Function.update_self]
    · simp only [state, served, Function.update_of_ne hp, Function.update_of_ne (hne hp)]
  · funext p
    by_cases hp : p = q
    · subst hp
      simp [state, contributions, contributedIn]
    · simp [state, contributions, contributedIn, hp, Ne.symm hp]
  · by_cases hq : q = c.root <;> by_cases hr : view.reads e = true <;>
      simp [state, rounds, readsIn, hq, hr]
  · exact tokens_add _ _

/-- The rounds do not change when a client handles an event. -/
theorem state_client {k : ClientId c} {st : κ}
    {a : κ × List (Out (ServerId c) (ClientId c) E)} {client : ClientId c → κ}
    {events : Multiset ((ServerId c ⊕ ClientId c) × E)}
    (htokens : view.tokens r events = view.tokens r M.events) :
    view.state r ⟨t, M.server, client, events⟩ (.client k t e st a :: h) = view.state r M h := by
  ext1
  · rfl
  · rfl
  · simp [state, contributions, contributedIn]
  · simp [state, rounds, readsIn]
  · exact htokens

/-- The other data centers notice nothing. -/
theorem state_served_of_ne {s : ServerId c} (hs : s.1 ≠ r)
    (htokens : view.tokens r (mail + ((out.placed s : List _) : Multiset _)) =
      view.tokens r M.events) :
    view.state r (served M s t out mail) (.server s t e (M.server s) out :: h) =
      view.state r M h := by
  have hne : ∀ p, (r, p) ≠ s := fun p h => hs (congrArg Prod.fst h.symm)
  ext1
  · funext p
    simp only [state, served, Function.update_of_ne (hne _)]
  · funext p
    simp only [state, served, Function.update_of_ne (hne _)]
  · funext p
    simp [state, contributions, contributedIn, Ne.symm (hne p)]
  · simp [state, rounds, readsIn, Ne.symm (hne _)]
  · exact htokens

end Serve

end RoundView

variable {view} [LinearOrder V] {s : ServerId c} {st : σ} {e : E}
  {out : Outcome (ServerId c) (ClientId c) E σ}

/-- What a handler leaves behind stays in its data center. -/
theorem GstWork.tokens_center (hw : GstWork view s st e out)
    {y : ServerId c × RoundToken (Partition c) V}
    (hy : y ∈ (out.placed s).filterMap view.tokenAt) : y.1.1 = s.1 := by
  cases hw with
  | other _ _ _ hnew => rw [hnew] at hy; cases hy
  | note _ _ _ _ _ _ hnew => rw [hnew] at hy; cases hy
  | same _ _ _ _ hnew => rw [hnew, List.mem_singleton] at hy; rw [hy]
  | start _ _ _ _ _ _ hnew => rw [hnew, List.mem_singleton] at hy; rw [hy]
  | readMinimum _ _ _ hnew => rw [hnew, List.mem_singleton] at hy; rw [hy]
  | restart _ _ _ _ hnew => rw [hnew, List.mem_singleton] at hy; rw [hy]
  | complete _ _ _ _ _ _ _ _ hnew =>
    rw [hnew, List.mem_singleton] at hy
    rw [hy]
    split <;> rfl
  | tell _ _ _ _ hnew =>
    rw [hnew] at hy
    obtain ⟨p, -, rfl⟩ := List.mem_map.mp hy
    rfl

/-- The flags stay flags of children. -/
theorem GstWork.flags (hw : GstWork view s st e out)
    (hplaced : ∀ t, view.token s.2 e = some t → RoundView.Placed (s, t))
    (h : FlagsOfChildren s.2 (view.lstReceived st)) :
    FlagsOfChildren s.2 (view.lstReceived out.state) := by
  cases hw with
  | other _ hflags => rwa [hflags]
  | same _ _ hflags => rwa [hflags]
  | start _ _ _ _ hflags => rwa [hflags]
  | readMinimum _ hflags => rwa [hflags]
  | tell _ _ hflags => rwa [hflags]
  | restart _ _ hflags => rwa [hflags]
  | complete _ _ _ _ _ _ hflags =>
    rw [hflags]
    exact .none _
  | note p v he _ hflags =>
    obtain ⟨hroot, hparent⟩ := hplaced _ he
    rw [hflags]
    exact h.set ⟨ne_root_iff.mp hroot, hparent⟩

/-- What a handler leaves behind is well placed. -/
theorem GstWork.placed (hw : GstWork view s st e out)
    (hplaced : ∀ t, view.token s.2 e = some t → RoundView.Placed (s, t)) :
    ∀ y ∈ (out.placed s).filterMap view.tokenAt, RoundView.Placed y := by
  intro y hy
  cases hw with
  | other _ _ _ hnew => rw [hnew] at hy; cases hy
  | note _ _ _ _ _ _ hnew => rw [hnew] at hy; cases hy
  | same t he _ _ hnew =>
    rw [hnew, List.mem_singleton] at hy
    rw [hy]
    exact hplaced t he
  | start v _ _ hroot _ _ hnew =>
    rw [hnew, List.mem_singleton] at hy
    rw [hy]
    exact ⟨hroot, rfl⟩
  | readMinimum he _ _ hnew =>
    rw [hnew, List.mem_singleton] at hy
    rw [hy]
    exact ⟨rfl, (hplaced _ he).2⟩
  | restart _ _ _ _ hnew =>
    rw [hnew, List.mem_singleton] at hy
    rw [hy]
    trivial
  | complete p v _ he _ _ _ _ hnew =>
    have hp : p.val ≠ 0 := ne_root_iff.mp (hplaced _ he).1
    rw [hnew, List.mem_singleton] at hy
    rw [hy]
    split
    · rename_i hroot
      exact ⟨hroot, (Nat.one_le_iff_ne_zero.mpr hp).trans_lt p.2⟩
    · rename_i hroot
      exact ⟨hroot, rfl⟩
  | tell he _ _ _ hnew =>
    rw [hnew] at hy
    obtain ⟨p, -, rfl⟩ := List.mem_map.mp hy
    exact ⟨rfl, (hplaced _ he).2⟩

theorem Convergecast.Step.of_eq {N : Type} [DecidableEq N] [Fintype N] {G : Convergecast N}
    {A B B' : RoundState N V} (hs : G.Step A B') (h : B = B') : G.Step A B := h ▸ hs

section Sim

variable {M : Mail (ServerId c) (ClientId c) E σ κ} {t : ℚ} {r : Replica c} {q : Partition c}
  {mail : Multiset ((ServerId c ⊕ ClientId c) × E)}
  {h : List (Act (ServerId c) (ClientId c) E σ κ)}

omit [LinearOrder V] in
theorem RoundView.heard_root : (view.state r M h).heard c.root = false := by
  simp [RoundView.state]

omit [LinearOrder V] in
/-- The flags are as before. -/
theorem RoundView.heard_same (hflags : view.lstReceived out.state =
    view.lstReceived (M.server (r, q))) (p : Partition c) :
    (if parentPartition p = q then !decide (p = c.root) &&
      view.lstReceived out.state (childPartitionIndex c p) else (view.state r M h).heard p) =
        (view.state r M h).heard p := by
  split
  · rename_i hp
    simp only [RoundView.state, hflags, hp]
  · rfl

omit [LinearOrder V] in
/-- The flag of `p` has been set. -/
theorem RoundView.heard_set {p : Partition c} (hroot : p ≠ c.root) (hp : parentPartition p = q)
    (hflags : view.lstReceived out.state = Function.update (view.lstReceived (M.server (r, q)))
      (childPartitionIndex c p) true) (p' : Partition c) :
    (if parentPartition p' = q then !decide (p' = c.root) &&
      view.lstReceived out.state (childPartitionIndex c p') else (view.state r M h).heard p') =
        Function.update (view.state r M h).heard p true p' := by
  by_cases hpp : p' = p
  · subst hpp
    simp [hp, hroot, hflags]
  · rw [Function.update_of_ne hpp]
    by_cases hp' : parentPartition p' = q
    · by_cases hroot' : p' = c.root
      · subst hroot'
        simp [RoundView.state]
      · have hindex : childPartitionIndex c p' ≠ childPartitionIndex c p := fun heq =>
          hpp (ChildOf.index_injective ⟨ne_root_iff.mp hroot', hp'⟩
            ⟨ne_root_iff.mp hroot, hp⟩ heq)
        simp [RoundView.state, hp', hflags, Function.update_of_ne hindex]
    · rw [if_neg hp']

omit [LinearOrder V] in
/-- All flags have been reset. -/
theorem RoundView.heard_reset (hflags : view.lstReceived out.state = fun _ => false)
    (p : Partition c) :
    (if parentPartition p = q then !decide (p = c.root) &&
      view.lstReceived out.state (childPartitionIndex c p) else (view.state r M h).heard p) =
        if (aggregation c).ChildOf p q then false else (view.state r M h).heard p := by
  by_cases hp : parentPartition p = q
  · by_cases hroot : p = c.root
    · subst hroot
      rw [RoundView.heard_root, ite_self]
      simp
    · have hchild : (aggregation c).ChildOf p q := ⟨hroot, hp⟩
      simp [hp, hflags, hchild]
  · have hchild : ¬(aggregation c).ChildOf p q := fun h => hp h.2
    rw [if_neg hp, if_neg hchild]

theorem RoundView.noted_state {p : Partition c} {v : V} (hp : parentPartition p = q)
    (hflags : FlagsOfChildren q (view.lstReceived (M.server (r, q)))) :
    (aggregation c).noted (view.state r M h) p v = view.noted (M.server (r, q)) v := by
  have hparent : (aggregation c).parent p = q := hp
  rw [Convergecast.noted, hparent, RoundView.heardFrom_state hflags]
  rfl

/-- **A handler call is a step of the convergecast**, or changes nothing. -/
theorem GstWork.sim (hw : GstWork view (r, q) (M.server (r, q)) e out)
    (hev : M.events = (.inl (r, q), e) ::ₘ mail)
    (hflags : FlagsOfChildren q (view.lstReceived (M.server (r, q))))
    (hplaced : ∀ t, view.token q e = some t → RoundView.Placed ((r, q), t)) :
    view.state r (RoundView.served M (r, q) t out mail)
        (.server (r, q) t e (M.server (r, q)) out :: h) = view.state r M h ∨
      (aggregation c).Step (view.state r M h) (view.state r (RoundView.served M (r, q) t out mail)
        (.server (r, q) t e (M.server (r, q)) out :: h)) := by
  have hsome : ∀ {x}, view.token q e = some x →
      (view.state r M h).tokens = x ::ₘ view.tokens r mail := by
    intro x hx
    have hat : view.tokenAt (.inl (r, q), e) = some ((r, q), x) := by
      simp [RoundView.tokenAt, hx]
    show view.tokens r M.events = _
    rw [hev, RoundView.tokens_cons hat, RoundView.tokenOf, if_pos rfl]
    rfl
  have hminimum : ∀ {st' : σ}, view.minimum st' = view.minimum (M.server (r, q)) →
      Function.update (view.state r M h).minimum q (view.minimum st') =
        (view.state r M h).minimum := by
    intro st' hst
    rw [hst]
    exact Function.update_eq_self q _
  have hnothing : view.contributed (r, q) (M.server (r, q)) e = [] →
      Function.update (view.state r M h).contributions q
        (view.contributed (r, q) (M.server (r, q)) e ++ (view.state r M h).contributions q) =
          (view.state r M h).contributions := by
    intro hc
    rw [hc, List.nil_append, Function.update_eq_self]
  have hunread : view.reads e = false → (view.state r M h).read +
      (if q = c.root ∧ view.reads e = true then 1 else 0) = (view.state r M h).read := by
    intro hr
    rw [hr]
    simp
  rw [RoundView.state_served]
  cases hw with
  | other he hf hm hnew hc hr =>
    have hat : view.tokenAt (.inl (r, q), e) = none := by simp [RoundView.tokenAt, he]
    refine .inl (RoundState.ext (funext (RoundView.heard_same hf)) (hminimum hm) (hnothing hc)
      (hunread hr) ?_)
    show _ = view.tokens r M.events
    rw [hev, RoundView.tokens_cons_none hat, RoundView.tokens_coe hnew]
    simp
  | same x he hf hm hnew hc hr =>
    refine .inl (RoundState.ext (funext (RoundView.heard_same hf)) (hminimum hm) (hnothing hc)
      (hunread hr) ?_)
    rw [hsome he, RoundView.tokens_coe hnew, ← Multiset.singleton_add]
    simp [RoundView.tokenOf, add_comm]
  | start v he hleaf hroot hf hm hnew hc hr =>
    refine .inr (.of_eq (.start (hsome he) hleaf hroot v) (RoundState.ext
      (funext (RoundView.heard_same hf)) (hminimum hm) ?_ (hunread hr) ?_))
    · rw [hc]
      rfl
    · rw [RoundView.tokens_coe hnew, Convergecast.start, ← Multiset.singleton_add]
      simp [RoundView.tokenOf, add_comm]
  | note p v he hheard hf hm hnew hc hr =>
    obtain ⟨hroot, hp⟩ := hplaced _ he
    have hheard' : (view.state r M h).heard p = false := by
      simp [RoundView.state, hp, hheard]
    refine .inr (.of_eq (.note (hsome he) hheard') (RoundState.ext
      (funext (RoundView.heard_set hroot hp hf)) ?_ (hnothing hc) (hunread hr) ?_))
    · rw [hm, Convergecast.note, RoundView.noted_state hp hflags]
      exact congrArg (Function.update _ · _) hp.symm
    · rw [RoundView.tokens_coe hnew, Convergecast.note]
      simp
  | complete p v w he hheard hlast hf hm hnew hc hr =>
    obtain ⟨hroot, hp⟩ := hplaced _ he
    have hheard' : (view.state r M h).heard p = false := by
      simp [RoundView.state, hp, hheard]
    have hlast' : ((aggregation c).heardFrom (view.state r M h) q).card + 1 =
        (aggregation c).needed q := by
      rw [RoundView.heardFrom_state hflags]
      exact (length_filter_eq_iff (childPartitionIndex_lt c p) hheard
        (numChildrenPartitions_lt q)).mp hlast
    refine .inr (.of_eq (.complete (hsome he) hheard' hp hlast' w) (RoundState.ext
      (funext (RoundView.heard_reset hf)) ?_ ?_ (hunread hr) ?_))
    · rw [hm, Convergecast.complete, RoundView.noted_state hp hflags]
    · rw [hc]
      rfl
    · rw [RoundView.tokens_coe hnew, Convergecast.complete, RoundView.noted_state hp hflags,
        ← Multiset.singleton_add]
      by_cases hq : q = c.root
      · rw [if_pos hq, if_pos (show q = (aggregation c).root from hq)]
        simp [RoundView.tokenOf, add_comm]
      · rw [if_neg hq, if_neg (show q ≠ (aggregation c).root from hq)]
        simp [RoundView.tokenOf, add_comm]
  | readMinimum he hf hm hnew hc hr =>
    have hq : q = c.root := (hplaced _ he).1
    refine .inr (.of_eq (.readMinimum (hsome he)) (RoundState.ext
      (funext (RoundView.heard_same hf)) (hminimum hm) (hnothing hc) ?_ ?_))
    · rw [if_pos ⟨hq, hr⟩]
      rfl
    · rw [RoundView.tokens_coe hnew, Convergecast.readMinimum, ← Multiset.singleton_add, hq]
      simp [RoundView.tokenOf, add_comm]
      rfl
  | tell he hleaf hf hm hnew hc hr =>
    have hleaf' : ¬(aggregation c).leaf q := by
      show ¬isLeafPartition q = true
      rw [hleaf]
      exact Bool.false_ne_true
    refine .inr (.of_eq (.tell (hsome he) hleaf') (RoundState.ext
      (funext (RoundView.heard_same hf)) (hminimum hm) (hnothing hc) (hunread hr) ?_))
    rw [RoundView.tokens_coe hnew, RoundView.filterMap_tokenOf]
    exact add_comm _ _
  | restart he hleaf hf hm hnew hc hr =>
    refine .inr (.of_eq (.restart (hsome he) hleaf) (RoundState.ext
      (funext (RoundView.heard_same hf)) (hminimum hm) (hnothing hc) (hunread hr) ?_))
    rw [RoundView.tokens_coe hnew, Convergecast.restart, ← Multiset.singleton_add]
    simp [RoundView.tokenOf, add_comm]

end Sim

/-! ## 4. Runs -/

/-- What is known in every state of a run. -/
structure RoundView.Kept (view : RoundView c E σ V) (M : Mail (ServerId c) (ClientId c) E σ κ)
    (h : List (Act (ServerId c) (ClientId c) E σ κ)) : Prop where
  flags : ∀ s, FlagsOfChildren s.2 (view.lstReceived (M.server s))
  placed : ∀ x ∈ M.events, ∀ y, view.tokenAt x = some y → RoundView.Placed y
  sound : ∀ r, (aggregation c).Sound (view.state r M h)

section Runs

variable {P : Program (ServerId c) (ClientId c) E σ κ χ}
  {Q : Act (ServerId c) (ClientId c) E σ κ → Prop}
  {M₀ M : Mail (ServerId c) (ClientId c) E σ κ} {mail : Multiset ((ServerId c ⊕ ClientId c) × E)}
  {h : List (Act (ServerId c) (ClientId c) E σ κ)} {t : ℚ}

/-- A handler call keeps what is known. -/
theorem GstWork.kept (hw : GstWork view s (M.server s) e out)
    (hev : M.events = (.inl s, e) ::ₘ mail) (hM : view.Kept M h) :
    view.Kept (RoundView.served M s t out mail) (.server s t e (M.server s) out :: h) := by
  have hplaced : ∀ x, view.token s.2 e = some x → RoundView.Placed (s, x) := fun x hx =>
    hM.placed _ (by rw [hev]; exact Multiset.mem_cons_self _ _) _
      (by rw [RoundView.tokenAt, hx, Option.map_some])
  refine ⟨fun s' => ?_, fun x hx y hy => ?_, fun r => ?_⟩
  · by_cases hs : s' = s
    · subst hs
      simp only [RoundView.served, Function.update_self]
      exact hw.flags hplaced (hM.flags s')
    · simp only [RoundView.served, Function.update_of_ne hs]
      exact hM.flags s'
  · rcases Multiset.mem_add.mp hx with hx | hx
    · exact hM.placed x (by rw [hev]; exact Multiset.mem_cons_of_mem hx) y hy
    · exact hw.placed hplaced y (List.mem_filterMap.mpr ⟨x, Multiset.mem_coe.mp hx, hy⟩)
  · by_cases hr : s.1 = r
    · subst hr
      rcases hw.sim hev (hM.flags s) hplaced with heq | hstep
      · rw [heq]
        exact hM.sound s.1
      · exact (hM.sound s.1).step aggregation_good_or_stuck hstep
    · have hother : ∀ y : ServerId c × RoundToken (Partition c) V, y.1.1 = s.1 →
          RoundView.tokenOf r y = none := fun y hy => if_neg (by rw [hy]; exact hr)
      have hnew : view.tokens r ((out.placed s : List _) : Multiset _) = 0 := by
        rw [RoundView.tokens, Multiset.filterMap_coe, Multiset.filterMap_coe,
          Multiset.coe_eq_zero, List.filterMap_eq_nil_iff]
        exact fun y hy => hother y (hw.tokens_center hy)
      have hold : view.tokens r M.events = view.tokens r mail := by
        rw [hev]
        cases hx : view.token s.2 e with
        | none => exact RoundView.tokens_cons_none (by rw [RoundView.tokenAt, hx]; rfl) mail
        | some x =>
          rw [RoundView.tokens_cons (y := (s, x)) (by rw [RoundView.tokenAt, hx]; rfl),
            hother (s, x) rfl, Option.toList_none, Multiset.coe_nil, zero_add]
      rw [RoundView.state_served_of_ne hr (by rw [RoundView.tokens_add, hnew, add_zero, hold])]
      exact hM.sound r

/-- **If every handler does one of these things, every state of a run is sound.** -/
theorem RoundView.kept
    (hserve : ∀ {s t st e out}, P.serve s t st e = some out →
      (∀ x, view.token s.2 e = some x → RoundView.Placed (s, x)) → GstWork view s st e out)
    (hclient : ∀ {k t x st e r}, P.client k t x st e = some r →
      ∀ y ∈ placedOfClient k r.2, view.tokenAt y = none)
    (hM₀ : view.Kept M₀ []) (hr : Mail.Run P Q M₀ M h) : view.Kept M h := by
  induction hr with
  | nil => exact hM₀
  | @cons M _ h _ _ hstep _ ih =>
    cases hstep with
    | @serve s _ e _ _ hev _ hout =>
      refine (hserve hout fun x hx => ?_).kept hev ih
      exact ih.placed _ (by rw [hev]; exact Multiset.mem_cons_self _ _) _
        (by rw [RoundView.tokenAt, hx, Option.map_some])
    | wait => exact ⟨ih.flags, ih.placed, ih.sound⟩
    | @client k t x e r mail hev _ hout =>
      have hnew := hclient hout
      refine ⟨ih.flags, fun x hx y hy => ?_, fun r' => ?_⟩
      · rcases Multiset.mem_add.mp hx with hx | hx
        · exact ih.placed x (by rw [hev]; exact Multiset.mem_cons_of_mem hx) y hy
        · rw [hnew x (Multiset.mem_coe.mp hx)] at hy
          cases hy
      · have htokens : view.tokens r' (mail + ((placedOfClient k r.2 : List _) : Multiset _)) =
            view.tokens r' M.events := by
          rw [RoundView.tokens_add, hev, RoundView.tokens_cons_none rfl, RoundView.tokens_coe
            (List.filterMap_eq_nil_iff.mpr hnew)]
          exact add_zero _
        exact (congrArg (aggregation c).Sound (RoundView.state_client htokens)).mpr (ih.sound r')

end Runs

/-! ### The start -/

section Start

theorem sum_allServers (f : ServerId c → ℤ) : ((allServers c).map f).sum = ∑ s, f s := by
  rw [allServers, List.map_flatMap, List.flatMap_def, List.sum_flatten, Fintype.sum_prod_type,
    Fin.sum_univ_def]
  simp only [List.map_map, Fin.sum_univ_def, Function.comp_def]

/-- What a server is to do at the start. -/
def serverMail (startGst clockTick : E) (s : ServerId c) : List ((ServerId c ⊕ ClientId c) × E) :=
  (if isLeafPartition s.2 then [(.inl s, startGst)] else []) ++ [(.inl s, clockTick)]

variable {setup : Setup c E} {server : σ} {client : κ} {locks : ℕ}
  {startGst clockTick clientTick : E}

theorem Setup.mail_events :
    (setup.world server client locks startGst clockTick clientTick).config.mail.events =
      (((allServers c).flatMap (serverMail startGst clockTick) ++
        setup.clients.map fun x => (.inr x.2, clientTick) : List ((ServerId c ⊕ ClientId c) × E)) :
          Multiset _) := by
  have hitems : ∀ s, ((setup.world server client locks startGst clockTick clientTick).servers
      s).cpu.items = 0 := by
    intro s
    simp [Setup.world, CpuState.items]
  have hserver : ∀ s : ServerId c, ((serverEvents startGst clockTick s).filterMap
      fun ev => ev.2.task ev.1).filterMap Task.placed? = serverMail startGst clockTick s := by
    intro s
    unfold serverEvents serverMail
    split <;> rfl
  have hclients : ((setup.clients.map fun x : ℚ × ClientId c =>
      (x.1, (.client x.2 clientTick : Target (ServerId c) (ClientId c) E))).filterMap
        fun ev => ev.2.task ev.1).filterMap Task.placed? =
          setup.clients.map fun x => (.inr x.2, clientTick) := by
    induction setup.clients with
    | nil => rfl
    | cons x l ih => simpa [Target.task, Task.placed?] using ih
  simp only [Config.mail, World.config, hitems, Multiset.map_zero, Finset.sum_const_zero,
    Multiset.add_zero]
  simp only [eventTasks, Setup.world, Multiset.filterMap_coe, List.filterMap_append, hclients,
    List.filterMap_flatMap, hserver]

omit [LinearOrder V] in
/-- A sum over the tokens of a data center. -/
theorem RoundView.sum_tokens {r : Replica c} (f : RoundToken (Partition c) V → ℤ)
    (events : Multiset ((ServerId c ⊕ ClientId c) × E)) : ((view.tokens r events).map f).sum =
      (events.map fun x => ((view.tokenAt x).bind (RoundView.tokenOf r)).elim 0 f).sum := by
  induction events using Multiset.induction with
  | empty => rfl
  | cons x events ih =>
    rw [Multiset.map_cons, Multiset.sum_cons, ← ih]
    cases hx : view.tokenAt x with
    | none =>
      rw [RoundView.tokens_cons_none hx, Option.bind_none, Option.elim_none, zero_add]
    | some y =>
      rw [RoundView.tokens_cons hx, Multiset.map_add, Multiset.sum_add, Option.bind_some]
      cases RoundView.tokenOf r y <;> simp

/-- **At the start every leaf is about to start the first round.** -/
theorem RoundView.kept_start (hflags : ∀ i, view.lstReceived server i = false)
    (hstart : ∀ p, view.token p startGst = some (.start p))
    (htick : ∀ p, view.token p clockTick = none) :
    view.Kept (setup.world server client locks startGst clockTick clientTick).config.mail [] := by
  have htokens : ∀ x ∈ (setup.world server client locks startGst clockTick
      clientTick).config.mail.events, ∀ y, view.tokenAt x = some y → y.2 = .start y.1.2 := by
    intro x hx y hy
    rcases Setup.mem_mail hx with ⟨s, rfl, -⟩ | ⟨s, rfl⟩ | ⟨k, rfl⟩
    · rw [RoundView.tokenAt, hstart] at hy
      cases hy
      rfl
    · rw [RoundView.tokenAt, htick] at hy
      cases hy
    · cases hy
  refine ⟨fun s i hi => ?_, fun x hx y hy => ?_, fun r => Convergecast.Initial.sound
    ⟨fun p => ?_, fun p => rfl, rfl, fun t ht => ?_, fun p hp => ?_⟩⟩
  · exact absurd ((hflags i).symm.trans hi) Bool.false_ne_true
  · obtain ⟨s, token⟩ := y
    obtain rfl : token = .start s.2 := htokens x hx _ hy
    trivial
  · exact (congrArg (_ && ·) (hflags _)).trans (Bool.and_false _)
  · obtain ⟨y, hy, ht⟩ := (Multiset.mem_filterMap _ _).mp ht
    obtain ⟨x, hx, hy⟩ := (Multiset.mem_filterMap _ _).mp hy
    unfold tokenOf at ht
    split at ht
    · cases ht
      exact ⟨y.1.2, htokens x hx y hy⟩
    · cases ht
  · have hserver : ∀ s : ServerId c, ((serverMail startGst clockTick s).map fun x =>
        ((view.tokenAt x).bind (RoundView.tokenOf r)).elim 0 (RoundToken.startAt · p)).sum =
          if s = (r, p) then 1 else 0 := by
      rintro ⟨r', q⟩
      have hleaf : isLeafPartition p = true := hp
      unfold serverMail
      by_cases hr : r' = r
      · subst hr
        by_cases hq : q = p
        · subst hq
          simp [hleaf, RoundView.tokenAt, RoundView.tokenOf, hstart, htick, RoundToken.startAt]
        · split <;> simp [RoundView.tokenAt, RoundView.tokenOf, hstart, htick, hq,
            RoundToken.startAt, Ne.symm hq]
      · split <;> simp [RoundView.tokenAt, RoundView.tokenOf, hstart, htick, hr]
    have hsum : ((allServers c).map fun s => if s = (r, p) then (1 : ℤ) else 0).sum = 1 := by
      rw [sum_allServers, Finset.sum_ite_eq' Finset.univ, if_pos (Finset.mem_univ _)]
    have hclients : ((setup.clients.map fun x => ((.inr x.2, clientTick) :
        (ServerId c ⊕ ClientId c) × E)).map fun x =>
          ((view.tokenAt x).bind (RoundView.tokenOf r)).elim 0 (RoundToken.startAt · p)).sum = 0 := by
      rw [List.map_map]
      exact List.sum_eq_zero fun y hy => by
        obtain ⟨x, -, rfl⟩ := List.mem_map.mp hy
        rfl
    show ((view.tokens r _).map _).sum = 1
    rw [RoundView.sum_tokens, Setup.mail_events, Multiset.map_coe, Multiset.sum_coe,
      List.map_append, List.sum_append, hclients, add_zero, List.map_flatMap, List.flatMap_def,
      List.sum_flatten, List.map_map]
    rw [← hsum]
    exact congrArg List.sum (List.map_congr_left fun s _ => hserver s)

end Start

/-! ## 5. What follows for a run -/

section Law

variable {P : Program (ServerId c) (ClientId c) E σ κ χ}
  {M : Mail (ServerId c) (ClientId c) E σ κ}
  {h : List (Act (ServerId c) (ClientId c) E σ κ)}

/-- The law of the rounds in a data center `r`, after the handler calls `h`. -/
structure RoundLaw (view : RoundView c E σ V) (r : Replica c)
    (M : Mail (ServerId c) (ClientId c) E σ κ)
    (h : List (Act (ServerId c) (ClientId c) E σ κ)) : Prop where
  /-- The assertions on a value that arrives hold. -/
  asserted : ∀ q e p v, (.inl (r, q), e) ∈ M.events → view.token q e = some (.up p v) →
    p ≠ c.root ∧ view.lstReceived (M.server (r, q)) (childPartitionIndex c p) = false
  /-- A partition contributes to a round when its parent has closed the one before, and the parent
  closes a round when all its children have contributed to it. -/
  ahead : ∀ p, p ≠ c.root →
    (view.contributions (r, parentPartition p) h).length ≤ (view.contributions (r, p) h).length ∧
      (view.contributions (r, p) h).length ≤
        (view.contributions (r, parentPartition p) h).length + 1
  /-- When the root is about to read the minimum, every partition has contributed once to this round
  and to each one before it, and the minimum is the one of this round. -/
  read : ∀ e, (.inl (r, c.root), e) ∈ M.events → view.token c.root e = some .closed →
    (∀ p, (view.contributions (r, p) h).length = view.rounds r h + 1) ∧
      IsLeast {v | ∃ p, (view.contributions (r, p) h).head? = some v}
        (view.minimum (M.server (r, c.root)))

omit [LinearOrder V] in
theorem RoundView.mem_tokens {r : Replica c} {q : Partition c} {x : RoundToken (Partition c) V}
    (hev : (.inl (r, q), e) ∈ M.events) (hx : view.token q e = some x) :
    x ∈ (view.state r M h).tokens := by
  refine (Multiset.mem_filterMap _ _).mpr ⟨((r, q), x), ?_, if_pos rfl⟩
  exact (Multiset.mem_filterMap _ _).mpr ⟨_, hev, by rw [RoundView.tokenAt, hx]; rfl⟩

theorem RoundView.Kept.law (hM : view.Kept M h) (r : Replica c) : RoundLaw view r M h := by
  obtain ⟨hflow, hvalues⟩ := hM.sound r
  refine ⟨fun q e p v hev hx => ?_, fun p hp => hflow.ahead_parent hp, fun e hev hx => ?_⟩
  · obtain ⟨hroot, hparent⟩ := hM.placed _ hev ((r, q), .up p v)
      (by rw [RoundView.tokenAt, hx]; rfl)
    have hheard := hflow.not_heard (RoundView.mem_tokens hev hx)
    simp only [RoundView.state, hparent, decide_eq_false hroot, Bool.not_false,
      Bool.true_and] at hheard
    exact ⟨hroot, hheard⟩
  · have hclosed : .closed ∈ (view.state r M h).tokens := RoundView.mem_tokens hev hx
    refine ⟨fun p => hflow.length_of_closed hclosed p, ?_⟩
    have hleast := hvalues.closed hclosed
    have hlatest : (view.state r M h).latest (fun _ => True) =
        {v | ∃ p, (view.contributions (r, p) h).head? = some v} := by
      ext v
      exact exists_congr fun p => Iff.of_eq (true_and _)
    rwa [hlatest] at hleast

end Law

end CCSim
