/-
# The network interface of one sender

`network_send` keeps two kinds of times: until when the interface is busy, which is shared by all
destinations, and when the last message to each destination arrives.  What relates them is that no
destination expects a message later than one that would be sent next (`NetworkState.InOrder`): the
time to which the interface is busy never goes down, whatever `now` the callers pass, and the delay
to a destination is fixed.  So the assertion of `network_send` never fails, the interface transmits
one message after the other, and messages to one destination arrive in the order in which they were
sent (`network_fifo`).
-/
import CCSim.Kernel
import Mathlib.Order.Interval.Set.Disjoint

namespace CCSim

variable {N : Type} [DecidableEq N]

/-! ## 1. Calls of `network_send` -/

/-- The arguments of `network_send` that differ from call to call. -/
structure NetworkCall (N : Type) where
  toLpid : N
  now : ℚ
  simulatedSize : ℕ

/-- A message that was sent: when its transmission starts and ends, and when it arrives. -/
structure Transmission (N : Type) where
  call : NetworkCall N
  start : ℚ
  finish : ℚ
  reception : ℚ

/-- The time it takes to transmit a message. -/
def transmissionTime (conf : NetworkConfig N) (fromLpid : N) (simulatedSize : ℕ) : ℚ :=
  simulatedSize / conf.transmissionRates fromLpid

/-- One call after the other.  A transmission ends when the interface is free again. -/
def networkSendAll (conf : NetworkConfig N) (fromLpid : N) :
    NetworkState N → List (NetworkCall N) → Option (NetworkState N × List (Transmission N))
  | state, [] => some (state, [])
  | state, call :: calls => do
    let (state, when_) ← networkSend conf state fromLpid call.toLpid call.now call.simulatedSize
    let (state', sent) ← networkSendAll conf fromLpid state calls
    let start := state.busyUntil - transmissionTime conf fromLpid call.simulatedSize
    pure (state', ⟨call, start, state.busyUntil, when_⟩ :: sent)

/-- No destination expects a message later than one that is sent next would arrive. -/
def NetworkState.InOrder (conf : NetworkConfig N) (fromLpid : N) (state : NetworkState N) : Prop :=
  ∀ toLpid, ∀ delay ∈ conf.networkDelay fromLpid toLpid,
    state.lastReceptionTime toLpid ≤ state.busyUntil + delay

/-! ## 2. One call -/

variable {conf : NetworkConfig N} {fromLpid : N} {state state' : NetworkState N}

omit [DecidableEq N] in
theorem transmissionTime_nonneg (hrate : 0 < conf.transmissionRates fromLpid) (size : ℕ) :
    0 ≤ transmissionTime conf fromLpid size :=
  div_nonneg (Nat.cast_nonneg size) hrate.le

omit [DecidableEq N] in
/-- A new interface expects nothing. -/
theorem NetworkState.InOrder.init (hdelay : ∀ toLpid, ∀ delay ∈ conf.networkDelay fromLpid toLpid,
    0 ≤ delay) : NetworkState.InOrder conf fromLpid {} := by
  intro toLpid delay hmem
  rw [zero_add]
  exact hdelay toLpid delay hmem

/-- **One call of `network_send`.**  It transmits when the interface is free, and not before `now`;
the message arrives not before the last one to its destination. -/
theorem networkSend_inOrder (hrate : 0 < conf.transmissionRates fromLpid)
    (hstate : state.InOrder conf fromLpid) (call : NetworkCall N) {delay : ℚ}
    (hmem : conf.networkDelay fromLpid call.toLpid = some delay) (hdelay : 0 ≤ delay) :
    ∃ state', networkSend conf state fromLpid call.toLpid call.now call.simulatedSize =
        some (state', state'.busyUntil + delay) ∧ state'.InOrder conf fromLpid ∧
      state'.busyUntil =
        max state.busyUntil call.now + transmissionTime conf fromLpid call.simulatedSize := by
  have htime := transmissionTime_nonneg hrate call.simulatedSize
  have hmax : (if state.busyUntil < call.now then call.now else state.busyUntil) =
      max state.busyUntil call.now := by
    split
    · rename_i hlt
      exact (max_eq_right hlt.le).symm
    · rename_i hle
      exact (max_eq_left (not_lt.mp hle)).symm
  set busyUntil := max state.busyUntil call.now +
    transmissionTime conf fromLpid call.simulatedSize with hbusy
  have hle : state.busyUntil ≤ busyUntil := by
    have := le_max_left state.busyUntil call.now
    linarith
  have hlast : state.lastReceptionTime call.toLpid ≤ busyUntil + delay := by
    have := hstate _ _ hmem
    linarith
  refine ⟨⟨busyUntil, Function.update state.lastReceptionTime call.toLpid (busyUntil + delay)⟩,
    ?_, ?_, rfl⟩
  · simp only [transmissionTime] at hbusy
    simp only [networkSend, hmem, Option.bind_eq_bind, Option.bind_some, hmax, hdelay, hrate,
      ← hbusy, hlast, guard, if_true, Option.pure_def]
  · intro toLpid delay' hmem'
    by_cases hto : toLpid = call.toLpid
    · subst hto
      cases hmem.symm.trans hmem'
      dsimp only
      rw [Function.update_self]
    · dsimp only
      rw [Function.update_of_ne hto]
      have := hstate _ _ hmem'
      linarith

/-! ## 3. All calls -/

/-- What is sent from a state of the interface. -/
structure Transmits (conf : NetworkConfig N) (fromLpid : N) (state : NetworkState N)
    (calls : List (NetworkCall N)) (sent : List (Transmission N)) : Prop where
  calls : sent.map Transmission.call = calls
  after : ∀ x ∈ sent, state.busyUntil ≤ x.start
  own : ∀ x ∈ sent, x.call.now ≤ x.start ∧
    x.finish = x.start + transmissionTime conf fromLpid x.call.simulatedSize ∧
      conf.networkDelay fromLpid x.call.toLpid = some (x.reception - x.finish)
  order : sent.Pairwise fun x y => x.finish ≤ y.start

/-- **Every sequence of calls.**  By induction, from any state in order. -/
theorem networkSendAll_transmits (hrate : 0 < conf.transmissionRates fromLpid)
    (calls : List (NetworkCall N))
    (hdelay : ∀ call ∈ calls, ∃ delay ∈ conf.networkDelay fromLpid call.toLpid, 0 ≤ delay) :
    ∀ state : NetworkState N, state.InOrder conf fromLpid → ∃ state' sent,
      networkSendAll conf fromLpid state calls = some (state', sent) ∧
        Transmits conf fromLpid state calls sent := by
  induction calls with
  | nil =>
    intro state _
    exact ⟨state, [], rfl, rfl, List.forall_mem_nil _, List.forall_mem_nil _, .nil⟩
  | cons call calls ih =>
    intro state hstate
    obtain ⟨delay, hmem, hpos⟩ := hdelay call List.mem_cons_self
    obtain ⟨state₁, hsend, hstate₁, hbusy⟩ := networkSend_inOrder hrate hstate call hmem hpos
    obtain ⟨state₂, sent, hall, hsent⟩ :=
      ih (fun call' hcall' => hdelay call' (List.mem_cons_of_mem call hcall')) state₁ hstate₁
    have hnow := le_max_right state.busyUntil call.now
    have hold := le_max_left state.busyUntil call.now
    have htime := transmissionTime_nonneg hrate call.simulatedSize
    refine ⟨state₂, ⟨call, state₁.busyUntil - transmissionTime conf fromLpid call.simulatedSize,
      state₁.busyUntil, state₁.busyUntil + delay⟩ :: sent, ?_, ?_, ?_, ?_, ?_⟩
    · simp only [networkSendAll, hsend, hall, Option.bind_eq_bind, Option.bind_some,
        Option.pure_def]
    · rw [List.map_cons, hsent.calls]
    · refine List.forall_mem_cons.mpr ⟨?_, fun x hx => ?_⟩
      · dsimp only
        linarith
      · have := hsent.after x hx
        linarith
    · refine List.forall_mem_cons.mpr ⟨⟨?_, ?_, ?_⟩, hsent.own⟩
      · dsimp only
        linarith
      · dsimp only
        linarith
      · dsimp only
        rw [add_sub_cancel_left]
        exact hmem
    · exact List.pairwise_cons.mpr ⟨hsent.after, hsent.order⟩

/-- **The network interface.**  Whatever is sent, and whenever, the assertion of `network_send`
holds in every call.  Every message is transmitted from its `now` or later, for the time its size
takes, and it arrives after the delay to its destination; no two transmissions overlap; and messages
to one destination arrive in the order of the calls, one at least its transmission time after the
other. -/
theorem network_fifo (hrate : 0 < conf.transmissionRates fromLpid)
    (hdelay : ∀ toLpid, ∀ delay ∈ conf.networkDelay fromLpid toLpid, 0 ≤ delay)
    (calls : List (NetworkCall N))
    (hlinked : ∀ call ∈ calls, (conf.networkDelay fromLpid call.toLpid).isSome) :
    ∃ state sent, networkSendAll conf fromLpid {} calls = some (state, sent) ∧
      sent.map Transmission.call = calls ∧
      (∀ x ∈ sent, x.call.now ≤ x.start ∧
        x.finish = x.start + transmissionTime conf fromLpid x.call.simulatedSize ∧
          conf.networkDelay fromLpid x.call.toLpid = some (x.reception - x.finish)) ∧
      (sent.Pairwise fun x y => Set.Ico x.start x.finish ∩ Set.Ico y.start y.finish = ∅) ∧
      sent.Pairwise fun x y => x.call.toLpid = y.call.toLpid →
        x.reception + transmissionTime conf fromLpid y.call.simulatedSize ≤ y.reception := by
  have hsome : ∀ call ∈ calls, ∃ delay ∈ conf.networkDelay fromLpid call.toLpid, 0 ≤ delay := by
    intro call hcall
    obtain ⟨delay, hmem⟩ := Option.isSome_iff_exists.mp (hlinked call hcall)
    exact ⟨delay, hmem, hdelay _ _ hmem⟩
  obtain ⟨state, sent, hall, hsent⟩ :=
    networkSendAll_transmits hrate calls hsome {} (.init hdelay)
  refine ⟨state, sent, hall, hsent.calls, hsent.own, ?_, ?_⟩
  · refine hsent.order.imp fun {x y} hxy => ?_
    exact (Set.Ico_disjoint_Ico.mpr ((min_le_left _ _).trans (le_max_of_le_right hxy))).inter_eq
  · refine hsent.order.imp_of_mem fun {x y} hx hy hxy hto => ?_
    obtain ⟨-, -, hxdelay⟩ := hsent.own x hx
    obtain ⟨-, hyfinish, hydelay⟩ := hsent.own y hy
    have hsame := Option.some.inj (hxdelay.symm.trans (hto ▸ hydelay))
    linarith

/-- A sender with two destinations, a near one and a far one. -/
def nearAndFar : NetworkConfig Bool where
  networkDelay _ toLpid := some (if toLpid then 1 else 5)
  transmissionRates _ := 10

/-- Three messages to two destinations; the `now` of the second is before that of the first. -/
theorem network_fifo_three : ∃ state sent,
    networkSendAll nearAndFar false {} [⟨true, 3, 20⟩, ⟨false, 1, 10⟩, ⟨true, 2, 5⟩] =
      some (state, sent) ∧ sent.Pairwise fun x y =>
        x.call.toLpid = y.call.toLpid → x.reception ≤ y.reception := by
  have hrate : 0 < nearAndFar.transmissionRates false := by
    norm_num [nearAndFar]
  have hdelay : ∀ toLpid, ∀ delay ∈ nearAndFar.networkDelay false toLpid, 0 ≤ delay := by
    rintro (_ | _) delay ⟨⟩ <;> norm_num
  obtain ⟨state, sent, hall, -, -, -, horder⟩ := network_fifo hrate hdelay
    [⟨true, 3, 20⟩, ⟨false, 1, 10⟩, ⟨true, 2, 5⟩] (by simp [nearAndFar])
  refine ⟨state, sent, hall, horder.imp fun {x y} hxy hto => ?_⟩
  have := hxy hto
  have := transmissionTime_nonneg hrate y.call.simulatedSize
  linarith

end CCSim
