/-
# Requests and answers, whatever the protocol

A client that has made a request waits for the answer, and makes no other request before
(`client_begin_request`, `client_finish_request`).  At any time the request is in one place: in a
message, in a slot of a server, or in the answer.  A protocol is looked at here through a
`RequestView`, which says what is a trace of whose request; if its handlers give away every trace
that they get, and clients ask and learn as the source has it (`RequestView.Lawful`), then in every
run there is one trace of every request that was not answered yet, and none of any other
(`Mail.Run.requests_kept`).
-/
import CCSim.Routes
import CCSim.Lib.Gather
import Mathlib.Algebra.BigOperators.Pi
import Mathlib.Algebra.Order.BigOperators.Group.Finset

namespace CCSim

variable {c : Cluster} {E σ κ : Type}

/-! ## 1. Views -/

/-- How requests are read off the events and states of a protocol. -/
structure RequestView (c : Cluster) (E σ κ : Type) where
  /-- The kind of request that an event is. -/
  requestKind : E → Option RequestKind
  /-- The kind of request that an event answers. -/
  responseKind : E → Option RequestKind
  /-- Whose request an event is a trace of, at the place where it is. -/
  about : (ServerId c ⊕ ClientId c) × E → Option (ClientId c × RequestKind)
  /-- The number of slots of a server that hold a request of this kind of this client. -/
  held : σ → ClientId c × RequestKind → ℤ
  /-- `request_time` is not -1. -/
  waits : κ → Bool
  tick : E
  /-- The key and the proxy of a GET or a PUT. -/
  routing : E → Option (Key × Option (ServerId c))
  /-- The client that an answer names. -/
  names : E → Option (ClientId c)

/-- What a workload may decide: delays are not negative. -/
def Decision.Valid : Decision → Prop
  | .tick delay => 0 ≤ delay
  | _ => True

namespace RequestView

variable (view : RequestView c E σ κ)

/-- What an event weighs: 1 for the request that it is a trace of. -/
def weight (x : (ServerId c ⊕ ClientId c) × E) (y : ClientId c × RequestKind) : ℤ :=
  if view.about x = some y then 1 else 0

/-- The requests that a client makes in a handler call. -/
def requests (k : ClientId c) : Act (ServerId c) (ClientId c) E σ κ → List RequestKind
  | .client k' _ _ _ r => if k' = k then r.2.filterMap fun o => view.requestKind o.event else []
  | .server _ _ _ _ _ => []

/-- The answers that a client receives in a handler call. -/
def responses (k : ClientId c) : Act (ServerId c) (ClientId c) E σ κ → List RequestKind
  | .client k' _ e _ _ => if k' = k then (view.responseKind e).toList else []
  | .server _ _ _ _ _ => []

/-- What a client has asked for and was not answered yet. -/
def outstanding (k : ClientId c) :
    List (Act (ServerId c) (ClientId c) E σ κ) → Option RequestKind :=
  pending (fun a => (view.requests k a).head?) fun a => !(view.responses k a).isEmpty

/-- A client is owed an answer to what is outstanding. -/
def owed (h : List (Act (ServerId c) (ClientId c) E σ κ)) (y : ClientId c × RequestKind) : ℤ :=
  if view.outstanding y.1 h = some y.2 then 1 else 0

/-- What a client makes of an event, with what it waits for before and after: an answer that it waits
for, or a tick. -/
inductive Learns (k : ClientId c) (before : Bool) : E → Bool → Prop
  | tick : Learns k before view.tick before
  | answer {e : E} {kind : RequestKind} (hkind : view.responseKind e = some kind)
      (habout : view.about (.inr k, e) = some (k, kind)) (hbefore : before = true) :
      Learns k before e false

/-- What a client then hands over: nothing, a tick for itself, or a request to its server if it does
not wait. -/
inductive Sends (k : ClientId c) (before : Bool) :
    Bool → List (Out (ServerId c) (ClientId c) E) → Prop
  | nothing : Sends k before before []
  | tick (delay : ℚ) : Sends k before before [.self delay view.tick]
  | request {e : E} {kind : RequestKind} (hidle : before = false)
      (hkind : view.requestKind e = some kind)
      (habout : view.about (.inl k.server, e) = some (k, kind)) :
      Sends k before true [.toServer k.server e]

/-- What a client may be asked to handle: a tick when it does not wait, an answer when it does. -/
def Expects (waits : Bool) (e : E) : Prop :=
  e = view.tick ∧ waits = false ∨ (view.responseKind e).isSome ∧ waits = true

/-- The clients of a protocol ask and learn as the source has it. -/
structure Lawful (P : Program (ServerId c) (ClientId c) E σ κ Decision) : Prop where
  held_nonneg : ∀ st y, 0 ≤ view.held st y
  tick_request : view.requestKind view.tick = none
  tick_response : view.responseKind view.tick = none
  tick_about : ∀ k, view.about (.inr k, view.tick) = none
  answer_about : ∀ {k e kind}, view.responseKind e = some kind →
    view.about (.inr k, e) = some (k, kind)
  client : ∀ {k t x st e r}, P.client k t x st e = some r → ∃ learnt,
    view.Learns k (view.waits st) e learnt ∧ view.Sends k learnt (view.waits r.1) r.2
  enabled : ∀ {k t x st e}, x.Valid → view.Expects (view.waits st) e →
    (P.client k t x st e).isSome

/-- What a handler of a server does with requests: it gives away every trace that it gets, and what
it sends to a client is an answer to this client. -/
structure Serves (s : ServerId c) (st : σ) (e : E)
    (r : Outcome (ServerId c) (ClientId c) E σ) : Prop where
  books : ((r.placed s).map view.weight).sum + view.held r.state =
    view.weight (.inl s, e) + view.held st
  answers : ∀ x ∈ r.placed s, ∀ k, x.1 = .inr k → ∃ kind,
    view.responseKind x.2 = some kind ∧ view.about x = some (k, kind)

/-- The clients that ticks in flight are for. -/
def woken : (ServerId c ⊕ ClientId c) × E → Option (ClientId c)
  | (.inl _, _) => none
  | (.inr k, e) => if (view.responseKind e).isSome then none else some k

/-- What is true of requests in every state of every run. -/
structure Kept (M : Mail (ServerId c) (ClientId c) E σ κ)
    (h : List (Act (ServerId c) (ClientId c) E σ κ)) : Prop where
  /-- One trace of what is outstanding, and none of anything else. -/
  trace : (M.events.map view.weight).sum + ∑ s, view.held (M.server s) = view.owed h
  waits : ∀ k, view.waits (M.client k) = (view.outstanding k h).isSome
  /-- A client that waits is not woken, and one that does not is woken once. -/
  woken : ∀ k, (M.events.filterMap view.woken).count k + (view.waits (M.client k)).toNat ≤ 1
  counts : ∀ k kind, (h.flatMap (view.requests k)).count kind =
    (h.flatMap (view.responses k)).count kind + if view.outstanding k h = some kind then 1 else 0
  clients : ∀ k e, (.inr k, e) ∈ M.events → e = view.tick ∨ ∃ kind,
    view.responseKind e = some kind ∧ view.about (.inr k, e) = some (k, kind)

/-- The state in which a simulation starts. -/
structure Starts (M₀ : Mail (ServerId c) (ClientId c) E σ κ) : Prop where
  held : ∀ s, view.held (M₀.server s) = 0
  about : ∀ x ∈ M₀.events, view.about x = none
  waits : ∀ k, view.waits (M₀.client k) = false
  woken : ∀ k, (M₀.events.filterMap view.woken).count k ≤ 1
  clients : ∀ k e, (.inr k, e) ∈ M₀.events → e = view.tick

/-! ## 2. What a handler call changes -/

section Calls

variable {view} {k k' : ClientId c} {s : ServerId c} {t : ℚ} {st st' : κ} {e : E}
  {before after : Bool} {outs : List (Out (ServerId c) (ClientId c) E)}
  {h : List (Act (ServerId c) (ClientId c) E σ κ)}

/-- What a client is owed that has asked for this. -/
def owes (k : ClientId c) (asked : Option RequestKind) : ClientId c × RequestKind → ℤ :=
  asked.elim 0 fun kind => Pi.single (k, kind) 1

theorem weight_eq (x : (ServerId c ⊕ ClientId c) × E) :
    view.weight x = (view.about x).elim 0 fun y => Pi.single y 1 := by
  funext y
  rw [weight]
  cases view.about x with
  | none => rfl
  | some y' => simp [Pi.single_apply, eq_comm]

theorem weight_none {x : (ServerId c ⊕ ClientId c) × E} (hx : view.about x = none) :
    view.weight x = 0 := by
  rw [weight_eq, hx]
  rfl

theorem weight_some {x : (ServerId c ⊕ ClientId c) × E} {kind : RequestKind}
    (hx : view.about x = some (k, kind)) : view.weight x = owes k (some kind) := by
  funext y
  rw [weight, hx, owes, Option.elim_some, Pi.single_apply]
  simp [eq_comm]

theorem weight_nonneg (x : (ServerId c ⊕ ClientId c) × E) (y : ClientId c × RequestKind) :
    0 ≤ view.weight x y := by
  unfold weight
  split <;> decide

theorem outstanding_server {t : ℚ} {e : E} {st : σ}
    {r : Outcome (ServerId c) (ClientId c) E σ} :
    view.outstanding k (.server s t e st r :: h) = view.outstanding k h := rfl

theorem outstanding_other (hk : k' ≠ k) :
    view.outstanding k (.client k' t e st (st', outs) :: h) = view.outstanding k h :=
  pending_of_neither (by simp [requests, hk]) (by simp [responses, hk])

/-- How what a client has asked for changes. -/
theorem outstanding_client :
    view.outstanding k (.client k t e st (st', outs) :: h) =
      ((outs.filterMap fun o => view.requestKind o.event).head?).or
        (if (view.responseKind e).isSome then none else view.outstanding k h) := by
  simp only [outstanding, pending, requests, responses, if_true]
  cases view.responseKind e <;> rfl

/-- A client changes what it is owed itself. -/
theorem owed_client :
    view.owed (.client k t e st (st', outs) :: h) + owes k (view.outstanding k h) =
      view.owed h + owes k (view.outstanding k (.client k t e st (st', outs) :: h)) := by
  have hsame : ∀ (h : List (Act (ServerId c) (ClientId c) E σ κ)) kind,
      owes k (view.outstanding k h) (k, kind) = view.owed h (k, kind) := by
    intro h kind
    rw [owed]
    cases view.outstanding k h with
    | none => rfl
    | some kind' => simp [owes, Pi.single_apply, eq_comm]
  have hzero : ∀ (asked : Option RequestKind) {k' : ClientId c} {kind : RequestKind}, k' ≠ k →
      owes k asked (k', kind) = 0 := by
    intro asked k' kind hk
    cases asked with
    | none => rfl
    | some kind' => simp [owes, hk]
  funext y
  obtain ⟨k', kind⟩ := y
  rw [Pi.add_apply, Pi.add_apply]
  by_cases hk : k' = k
  · subst hk
    rw [hsame, hsame, add_comm]
  · rw [hzero _ hk, hzero _ hk, owed, owed, outstanding_other (Ne.symm hk)]

/-- What a client hands over is one request, or none. -/
theorem Sends.cases {P : Program (ServerId c) (ClientId c) E σ κ Decision}
    (hview : view.Lawful P) (hs : view.Sends k before after outs) :
    after = before ∧ outs.filterMap (fun o => view.requestKind o.event) = [] ∧
        ((placedOfClient k outs).map view.weight).sum = 0 ∨
      ∃ kind, before = false ∧ after = true ∧
        outs.filterMap (fun o => view.requestKind o.event) = [kind] ∧
          ((placedOfClient k outs).map view.weight).sum = owes k (some kind) := by
  cases hs with
  | nothing => exact .inl ⟨rfl, rfl, rfl⟩
  | tick delay =>
    refine .inl ⟨rfl, by simp [Out.event, hview.tick_request], ?_⟩
    simp [placedOfClient, Out.placeOfClient, Out.event, weight_none (hview.tick_about k)]
  | @request e kind hidle hkind habout =>
    refine .inr ⟨kind, hidle, rfl, by simp [Out.event, hkind], ?_⟩
    simp [placedOfClient, Out.placeOfClient, Out.event, weight_some habout]

/-- What a client learns is an answer, or nothing. -/
theorem Learns.cases {P : Program (ServerId c) (ClientId c) E σ κ Decision}
    (hview : view.Lawful P) (hl : view.Learns k before e after) :
    after = before ∧ e = view.tick ∧ view.responseKind e = none ∧ view.weight (.inr k, e) = 0 ∨
      ∃ kind, after = false ∧ before = true ∧ view.responseKind e = some kind ∧
        view.about (.inr k, e) = some (k, kind) := by
  cases hl with
  | tick => exact .inl ⟨rfl, rfl, hview.tick_response, weight_none (hview.tick_about k)⟩
  | answer hkind habout hbefore => exact .inr ⟨_, rfl, hbefore, hkind, habout⟩

theorem woken_tick (hnone : view.responseKind e = none) : view.woken (.inr k, e) = some k := by
  rw [RequestView.woken, hnone]
  rfl

theorem woken_answer {kind : RequestKind} (hkind : view.responseKind e = some kind) :
    view.woken (.inr k, e) = none := by
  rw [RequestView.woken, hkind]
  rfl

/-- A client that does not wait wakes itself, or waits then. -/
theorem Sends.woken_le {P : Program (ServerId c) (ClientId c) E σ κ Decision}
    (hview : view.Lawful P) (hs : view.Sends k false after outs) :
    ((placedOfClient k outs : Multiset _).filterMap view.woken).count k + after.toNat ≤ 1 := by
  cases hs with
  | nothing => exact Nat.zero_le _
  | tick delay =>
    have hone : (placedOfClient k [.self delay view.tick]).filterMap view.woken = [k] :=
      List.filterMap_cons_some (woken_tick hview.tick_response)
    rw [Multiset.filterMap_coe, hone]
    simp
  | @request e =>
    exact le_rfl

/-- It does not wake others. -/
theorem Sends.woken_other (hs : view.Sends k before after outs) (hk : k' ≠ k) :
    ((placedOfClient k outs : Multiset _).filterMap view.woken).count k' = 0 := by
  refine Multiset.count_eq_zero.mpr fun hmem => ?_
  obtain ⟨x, hx, hwoken⟩ := (Multiset.mem_filterMap _ _).mp hmem
  cases hs with
  | nothing => cases hx
  | tick delay =>
    rw [List.mem_singleton.mp hx] at hwoken
    simp only [Out.placeOfClient, RequestView.woken] at hwoken
    split at hwoken
    · cases hwoken
    · exact hk (Option.some.inj hwoken).symm
  | request =>
    rw [List.mem_singleton.mp hx] at hwoken
    cases hwoken

end Calls

end RequestView

/-! ## 3. Every run -/

section Runs

variable {view : RequestView c E σ κ} {P : Program (ServerId c) (ClientId c) E σ κ Decision}
  {Q : Act (ServerId c) (ClientId c) E σ κ → Prop} {M₀ M : Mail (ServerId c) (ClientId c) E σ κ}
  {h : List (Act (ServerId c) (ClientId c) E σ κ)}

/-- A client waits for what it has asked for. -/
theorem Mail.Run.waits_eq (hview : view.Lawful P) (hwaits : ∀ k, view.waits (M₀.client k) = false)
    (hr : Mail.Run P Q M₀ M h) (k : ClientId c) :
    view.waits (M.client k) = (view.outstanding k h).isSome := by
  induction hr with
  | nil => exact hwaits k
  | @cons M M' h a hrun hstep hq ih =>
    cases hstep with
    | serve => exact ih
    | wait => exact ih
    | @client k' t x e r mail hev ht hasked =>
      obtain ⟨st', outs⟩ := r
      rw [Option.toList_some, List.singleton_append]
      by_cases hk : k' = k
      · subst hk
        obtain ⟨learnt, hlearns, hsends⟩ := hview.client hasked
        dsimp only at hsends ⊢
        rw [Function.update_self, RequestView.outstanding_client]
        rcases hsends.cases hview with ⟨hsame, hnil, -⟩ | ⟨kind, -, hafter, hone, -⟩
        · rw [hnil, hsame]
          rcases hlearns.cases hview with ⟨rfl, -, hnone, -⟩ | ⟨kind, rfl, -, hsome, -⟩
          · rw [hnone]
            exact ih
          · rw [hsome]
            rfl
        · rw [hone, hafter]
          rfl
      · rw [RequestView.outstanding_other hk]
        dsimp only
        rw [Function.update_of_ne (Ne.symm hk)]
        exact ih

/-- Clients are sent ticks, by themselves, and answers. -/
theorem Mail.Run.client_events (hview : view.Lawful P) (hstart : view.Starts M₀)
    (hserves : ∀ {M h s t e r}, Mail.Run P Q M₀ M h → (.inl s, e) ∈ M.events →
      P.serve s t (M.server s) e = some r → view.Serves s (M.server s) e r)
    (hr : Mail.Run P Q M₀ M h) (k : ClientId c) (e : E) (he : (.inr k, e) ∈ M.events) :
    e = view.tick ∨ ∃ kind, view.responseKind e = some kind ∧
      view.about (.inr k, e) = some (k, kind) := by
  refine (hr.flow_all (fun _ _ _ => True) (fun _ _ _ => True) (fun _ x => ∀ k, x.1 = .inr k →
    x.2 = view.tick ∨ ∃ kind, view.responseKind x.2 = some kind ∧ view.about x = some (k, kind))
    id id id (fun hrun hmem hserve _ _ => ⟨trivial, fun x hx k hk =>
      .inr ((hserves hrun hmem hserve).answers x hx k hk)⟩) ?_ (fun _ => trivial) (fun _ => trivial)
    ?_).2.2 _ he k rfl
  · intro M h k t x e r hrun hasked _ _
    obtain ⟨learnt, -, hsends⟩ := hview.client hasked
    refine ⟨trivial, fun y hy k' hk' => ?_⟩
    generalize r.2 = outs at hsends hy
    generalize view.waits r.1 = after at hsends
    cases hsends with
    | nothing => cases hy
    | tick delay =>
      rw [List.mem_singleton.mp hy]
      exact .inl rfl
    | request =>
      rw [List.mem_singleton.mp hy] at hk'
      cases hk'
  · rintro ⟨p, e⟩ hx k rfl
    exact .inl (hstart.clients k e hx)

/-- The traces of one request, entry by entry. -/
theorem RequestView.trace_apply
    (htrace : (M.events.map view.weight).sum + ∑ s, view.held (M.server s) = view.owed h)
    (y : ClientId c × RequestKind) : (M.events.map fun x => view.weight x y).sum +
      ∑ s, view.held (M.server s) y = view.owed h y := by
  have hat := congrFun htrace y
  rwa [Pi.add_apply, Pi.multiset_sum_apply, Multiset.map_map, Finset.sum_apply] at hat

theorem RequestView.sum_weight_nonneg (events : Multiset ((ServerId c ⊕ ClientId c) × E))
    (y : ClientId c × RequestKind) : 0 ≤ (events.map fun x => view.weight x y).sum := by
  refine Multiset.sum_nonneg fun z hz => ?_
  obtain ⟨x, -, rfl⟩ := Multiset.mem_map.mp hz
  exact weight_nonneg x y

theorem RequestView.one_le_sum_weight {events : Multiset ((ServerId c ⊕ ClientId c) × E)}
    {x : (ServerId c ⊕ ClientId c) × E} (hx : x ∈ events) {y : ClientId c × RequestKind}
    (habout : view.about x = some y) : 1 ≤ (events.map fun x => view.weight x y).sum := by
  obtain ⟨rest, rfl⟩ := Multiset.exists_cons_of_mem hx
  have hone : view.weight x y = 1 := if_pos habout
  have hrest : 0 ≤ (rest.map fun x => view.weight x y).sum :=
    RequestView.sum_weight_nonneg rest y
  rw [Multiset.map_cons, Multiset.sum_cons, hone]
  omega

/-- An answer on its way to its client is to what the client has asked for. -/
theorem RequestView.outstanding_of_about (hheld : ∀ st y, 0 ≤ view.held st y)
    (htrace : (M.events.map view.weight).sum + ∑ s, view.held (M.server s) = view.owed h)
    {x : (ServerId c ⊕ ClientId c) × E} (hx : x ∈ M.events) {k : ClientId c} {kind : RequestKind}
    (habout : view.about x = some (k, kind)) : view.outstanding k h = some kind := by
  have hat := RequestView.trace_apply htrace (k, kind)
  have hsum : 0 ≤ ∑ s, view.held (M.server s) (k, kind) :=
    Finset.sum_nonneg fun s _ => hheld _ _
  have hone := RequestView.one_le_sum_weight hx habout
  by_contra hne
  rw [owed, if_neg hne] at hat
  omega

theorem RequestView.owed_le_one (y : ClientId c × RequestKind) : view.owed h y ≤ 1 := by
  unfold owed
  split <;> decide

/-- Nothing else in flight is about the client. -/
theorem RequestView.alone (hheld : ∀ st y, 0 ≤ view.held st y)
    (htrace : (M.events.map view.weight).sum + ∑ s, view.held (M.server s) = view.owed h)
    {x y : (ServerId c ⊕ ClientId c) × E} {rest : Multiset ((ServerId c ⊕ ClientId c) × E)}
    (hev : M.events = x ::ₘ rest) (hy : y ∈ rest) {k : ClientId c} {kind kind' : RequestKind}
    (hx : view.about x = some (k, kind)) : view.about y ≠ some (k, kind') := by
  intro habout
  have hmem : ∀ {z}, z ∈ rest → z ∈ M.events := fun hz => hev ▸ Multiset.mem_cons_of_mem hz
  have hsame := RequestView.outstanding_of_about hheld htrace (hmem hy) habout
  rw [RequestView.outstanding_of_about hheld htrace (hev ▸ Multiset.mem_cons_self _ _) hx] at hsame
  cases hsame
  have hat := RequestView.trace_apply htrace (k, kind)
  have hone : view.weight x (k, kind) = 1 := if_pos hx
  have hrest := RequestView.one_le_sum_weight hy habout
  have hsum : 0 ≤ ∑ s, view.held (M.server s) (k, kind) :=
    Finset.sum_nonneg fun s _ => hheld _ _
  have hle := view.owed_le_one (h := h) (k, kind)
  rw [hev, Multiset.map_cons, Multiset.sum_cons, hone] at hat
  omega

/-- And no slot holds a request of the client. -/
theorem RequestView.not_held (hheld : ∀ st y, 0 ≤ view.held st y)
    (htrace : (M.events.map view.weight).sum + ∑ s, view.held (M.server s) = view.owed h)
    {x : (ServerId c ⊕ ClientId c) × E} (hmem : x ∈ M.events) {k : ClientId c}
    {kind : RequestKind} (hx : view.about x = some (k, kind)) (s : ServerId c)
    (kind' : RequestKind) : view.held (M.server s) (k, kind') = 0 := by
  have hsum := Finset.single_le_sum (f := fun s => view.held (M.server s) (k, kind'))
    (fun s _ => hheld _ _) (Finset.mem_univ s)
  have hat := RequestView.trace_apply htrace (k, kind')
  have hevents : 0 ≤ (M.events.map fun x => view.weight x (k, kind')).sum :=
    RequestView.sum_weight_nonneg M.events (k, kind')
  have hnonneg := hheld (M.server s) (k, kind')
  have hle := view.owed_le_one (h := h) (k, kind')
  by_contra hne
  by_cases hkind : view.outstanding k h = some kind'
  · rw [RequestView.outstanding_of_about hheld htrace hmem hx] at hkind
    cases hkind
    have hone := RequestView.one_le_sum_weight hmem hx
    omega
  · rw [owed, if_neg hkind] at hat
    omega

/-- **Every trace is passed on.** -/
theorem Mail.Run.trace (hview : view.Lawful P) (hheld : ∀ s, view.held (M₀.server s) = 0)
    (habout : ∀ x ∈ M₀.events, view.about x = none)
    (hwaits : ∀ k, view.waits (M₀.client k) = false)
    (hserves : ∀ {M h s t e r}, Mail.Run P Q M₀ M h → (.inl s, e) ∈ M.events →
      P.serve s t (M.server s) e = some r → view.Serves s (M.server s) e r)
    (hr : Mail.Run P Q M₀ M h) :
    (M.events.map view.weight).sum + ∑ s, view.held (M.server s) = view.owed h := by
  refine hr.ledger view.weight (fun _ => view.held) view.owed
    (fun hrun hmem _ hserve => ⟨(hserves hrun hmem hserve).books, rfl⟩) ?_ ?_
  · intro M h k t x e r hrun hmem htrace hasked
    obtain ⟨st', outs⟩ := r
    obtain ⟨learnt, hlearns, hsends⟩ := hview.client hasked
    have hasks := hrun.waits_eq hview hwaits k
    have howed : view.owed (.client k t e (M.client k) (st', outs) :: h) + _ = _ :=
      RequestView.owed_client
    -- the client is owed something else afterwards, and gets and sends just that
    suffices hbooks : ((placedOfClient k outs).map view.weight).sum +
        RequestView.owes k (view.outstanding k h) = view.weight (.inr k, e) +
          RequestView.owes k (view.outstanding k (.client k t e (M.client k) (st', outs) :: h)) by
      rw [← sub_eq_zero] at hbooks howed ⊢
      rw [← sub_eq_zero.mpr (hbooks.trans howed.symm)]
      abel
    rw [RequestView.outstanding_client]
    rcases hlearns.cases hview with ⟨hsame, -, hnone, hzero⟩ | ⟨kind, hlearnt, -, hkind, habout⟩
    · rw [hnone, hzero]
      rcases hsends.cases hview with ⟨-, hnil, hnothing⟩ | ⟨kind, hidle, -, hone, howes⟩
      · rw [hnil, hnothing]
        rfl
      · rw [hsame, hasks] at hidle
        rw [hone, howes, Option.not_isSome_iff_eq_none.mp (Bool.eq_false_iff.mp hidle)]
        exact (add_zero _).trans (zero_add _).symm
    · rw [hkind, RequestView.weight_some habout,
        RequestView.outstanding_of_about hview.held_nonneg htrace hmem habout]
      rcases hsends.cases hview with ⟨-, hnil, hnothing⟩ | ⟨kind', -, -, hone, howes⟩
      · rw [hnil, hnothing]
        exact (zero_add _).trans (add_zero _).symm
      · rw [hone, howes]
        exact add_comm _ _
  · have hev : (M₀.events.map view.weight).sum = 0 := by
      refine Multiset.sum_eq_zero fun y hy => ?_
      obtain ⟨x, hx, rfl⟩ := Multiset.mem_map.mp hy
      exact RequestView.weight_none (habout x hx)
    rw [hev, Finset.sum_eq_zero fun s _ => hheld s]
    rfl

/-- A client that waits is not woken, and one that does not is woken once. -/
theorem Mail.Run.woken (hview : view.Lawful P) (hstart : view.Starts M₀)
    (hserves : ∀ {M h s t e r}, Mail.Run P Q M₀ M h → (.inl s, e) ∈ M.events →
      P.serve s t (M.server s) e = some r → view.Serves s (M.server s) e r)
    (hr : Mail.Run P Q M₀ M h) (k : ClientId c) :
    (M.events.filterMap view.woken).count k + (view.waits (M.client k)).toNat ≤ 1 := by
  induction hr with
  | nil =>
    rw [hstart.waits]
    exact hstart.woken k
  | @cons M M' h a hrun hstep hq ih =>
    cases hstep with
    | wait => exact ih
    | @serve s t e r mail hev ht hserve =>
      have hmem : (.inl s, e) ∈ M.events := by rw [hev]; exact Multiset.mem_cons_self _ _
      -- what the server sends to clients are answers, and wakes nobody
      have hnone : ((r.placed s : List _) : Multiset _).filterMap view.woken = 0 := by
        refine Multiset.eq_zero_of_forall_notMem fun k' hk' => ?_
        obtain ⟨x, hx, hwoken⟩ := (Multiset.mem_filterMap _ _).mp hk'
        obtain ⟨p | k'', e'⟩ := x
        · cases hwoken
        · obtain ⟨kind, hkind, -⟩ := (hserves hrun hmem hserve).answers _
            (Multiset.mem_coe.mp hx) k'' rfl
          rw [RequestView.woken_answer hkind] at hwoken
          cases hwoken
      rw [hev, Multiset.filterMap_cons_none _ _ rfl] at ih
      rw [Multiset.filterMap_add, hnone, add_zero]
      exact ih
    | @client k' t x e r mail hev ht hasked =>
      obtain ⟨st', outs⟩ := r
      obtain ⟨learnt, hlearns, hsends⟩ := hview.client hasked
      rw [hev] at ih
      rw [Multiset.filterMap_add, Multiset.count_add]
      by_cases hk : k' = k
      · subst hk
        dsimp only at hsends ⊢
        rw [Function.update_self]
        -- what it was woken by, or waited for, was this event
        obtain ⟨rfl, hnone⟩ : learnt = false ∧ (mail.filterMap view.woken).count k' = 0 := by
          rcases hlearns.cases hview with ⟨rfl, rfl, hnone, -⟩ | ⟨kind, rfl, hwaits, hkind, -⟩
          · rw [Multiset.filterMap_cons_some _ _ _ (RequestView.woken_tick hnone),
              Multiset.count_cons_self] at ih
            refine ⟨?_, by omega⟩
            cases hw : view.waits (M.client k') with
            | false => rfl
            | true =>
              rw [hw, Bool.toNat_true] at ih
              omega
          · rw [Multiset.filterMap_cons_none _ _ (RequestView.woken_answer hkind), hwaits,
              Bool.toNat_true] at ih
            exact ⟨rfl, by omega⟩
        rw [hnone, zero_add]
        exact hsends.woken_le hview
      · dsimp only at hsends ⊢
        rw [Function.update_of_ne (Ne.symm hk), hsends.woken_other (Ne.symm hk), add_zero]
        refine le_trans (Nat.add_le_add_right ?_ _) ih
        exact Multiset.count_le_of_le _ (Multiset.filterMap_le_filterMap _ (Multiset.le_cons_self _ _))

/-- **There is one answer for every request**, except for what is outstanding, and it is of the same
kind. -/
theorem Mail.Run.counts (hview : view.Lawful P) (hstart : view.Starts M₀)
    (hserves : ∀ {M h s t e r}, Mail.Run P Q M₀ M h → (.inl s, e) ∈ M.events →
      P.serve s t (M.server s) e = some r → view.Serves s (M.server s) e r)
    (hr : Mail.Run P Q M₀ M h) (k : ClientId c) (kind : RequestKind) :
    (h.flatMap (view.requests k)).count kind = (h.flatMap (view.responses k)).count kind +
      if view.outstanding k h = some kind then 1 else 0 := by
  induction hr with
  | nil => rfl
  | @cons M M' h a hrun hstep hq ih =>
    cases hstep with
    | wait => exact ih
    | serve => exact ih
    | @client k' t x e r mail hev ht hasked =>
      obtain ⟨st', outs⟩ := r
      rw [Option.toList_some, List.singleton_append, List.flatMap_cons, List.flatMap_cons,
        List.count_append, List.count_append]
      by_cases hk : k' = k
      · subst hk
        have hmem : (.inr k', e) ∈ M.events := by rw [hev]; exact Multiset.mem_cons_self _ _
        obtain ⟨learnt, hlearns, hsends⟩ := hview.client hasked
        have hwaits := hrun.waits_eq hview hstart.waits k'
        rw [RequestView.outstanding_client]
        simp only [RequestView.requests, RequestView.responses, if_true]
        rcases hlearns.cases hview with ⟨hsame, -, hnone, -⟩ | ⟨kind₁, -, -, hkind, habout⟩
        · rw [hnone]
          rcases hsends.cases hview with ⟨-, hnil, -⟩ | ⟨kind₂, hidle, -, hone, -⟩
          · rw [hnil, ih]
            simp
          · rw [hsame, hwaits] at hidle
            rw [Option.not_isSome_iff_eq_none.mp (Bool.eq_false_iff.mp hidle)] at ih
            rw [hone, ih]
            simp [List.count_singleton, add_comm]
        · rw [RequestView.outstanding_of_about hview.held_nonneg
            (hrun.trace hview hstart.held hstart.about hstart.waits hserves) hmem habout] at ih
          rw [hkind]
          rcases hsends.cases hview with ⟨-, hnil, -⟩ | ⟨kind₂, -, -, hone, -⟩
          · rw [hnil, ih]
            simp [List.count_singleton, add_comm]
          · rw [hone, ih]
            simp [List.count_singleton, add_comm]
      · rw [RequestView.outstanding_other hk]
        simp only [RequestView.requests, RequestView.responses, if_neg hk, List.count_nil, zero_add]
        exact ih

/-- **In every run there is one trace of every request that was not answered yet.** -/
theorem Mail.Run.requests_kept (hview : view.Lawful P) (hstart : view.Starts M₀)
    (hserves : ∀ {M h s t e r}, Mail.Run P Q M₀ M h → (.inl s, e) ∈ M.events →
      P.serve s t (M.server s) e = some r → view.Serves s (M.server s) e r)
    (hr : Mail.Run P Q M₀ M h) : view.Kept M h where
  trace := hr.trace hview hstart.held hstart.about hstart.waits hserves
  waits := hr.waits_eq hview hstart.waits
  woken := hr.woken hview hstart hserves
  counts := hr.counts hview hstart hserves
  clients := hr.client_events hview hstart hserves

/-- A client gets what it expects. -/
theorem RequestView.Kept.expects (hview : view.Lawful P) (hM : view.Kept M h) {k : ClientId c}
    {e : E} (he : (.inr k, e) ∈ M.events) : view.Expects (view.waits (M.client k)) e := by
  rcases hM.clients k e he with rfl | ⟨kind, hkind, habout⟩
  · have hmem : k ∈ M.events.filterMap view.woken :=
      (Multiset.mem_filterMap _ _).mpr ⟨_, he, woken_tick hview.tick_response⟩
    have hone := Multiset.one_le_count_iff_mem.mpr hmem
    have hle := hM.woken k
    refine .inl ⟨rfl, ?_⟩
    cases hw : view.waits (M.client k) with
    | false => rfl
    | true =>
      rw [hw, Bool.toNat_true] at hle
      omega
  · refine .inr ⟨by rw [hkind]; rfl, ?_⟩
    rw [hM.waits, RequestView.outstanding_of_about hview.held_nonneg hM.trace he habout]
    rfl

end Runs

/-! ## 4. The start -/

/-- At the start, the clients that are woken are those of the setup. -/
theorem Setup.woken (view : RequestView c E σ κ) (setup : Setup c E) (server : σ) (client : κ)
    (locks : ℕ) (startGst clockTick clientTick : E)
    (htick : view.responseKind clientTick = none) :
    (setup.world server client locks startGst clockTick clientTick).config.mail.events.filterMap
      view.woken = (setup.clients.map Prod.snd : List (ClientId c)) := by
  have hitems : ∀ s, ((setup.world server client locks startGst clockTick clientTick).servers
      s).cpu.items = 0 := by
    intro s
    simp [Setup.world, CpuState.items]
  have hpool : (setup.world server client locks startGst clockTick clientTick).config.pool =
      eventTasks ((allServers c).flatMap (serverEvents startGst clockTick) ++
        setup.clients.map fun x => (x.1, .client x.2 clientTick)) := by
    simp only [World.config, hitems, Multiset.map_zero, Finset.sum_const_zero, Multiset.add_zero]
    rfl
  rw [Config.mail, hpool, eventTasks, Multiset.filterMap_coe, Multiset.filterMap_coe,
    List.filterMap_filterMap, List.filterMap_filterMap, List.filterMap_append, List.filterMap_map]
  have hservers : ((allServers c).flatMap (serverEvents startGst clockTick)).filterMap
      (fun ev => (ev.2.task ev.1).bind fun x => x.placed?.bind view.woken) = [] := by
    refine List.filterMap_eq_nil_iff.mpr fun ev hev => ?_
    obtain ⟨s, -, hev⟩ := List.mem_flatMap.mp hev
    rcases List.mem_append.mp hev with hev | hev
    · split at hev
      · obtain rfl := List.mem_singleton.mp hev
        rfl
      · cases hev
    · obtain rfl := List.mem_singleton.mp hev
      rfl
  rw [hservers, List.nil_append, ← List.filterMap_eq_map]
  refine congrArg _ (List.filterMap_congr fun x _ => ?_)
  exact RequestView.woken_tick htick

/-! ## 5. Discipline -/

/-- `network_send` finds a delay for what is handed over, whatever the delays are. -/
def Out.Travels (x : ServerId c ⊕ ClientId c) : Out (ServerId c) (ClientId c) E → Prop
  | .toServer s _ =>
    ∀ d : NetworkDelays c, ∃ delay, d.networkDelay x (.inl s) = some delay ∧ 0 ≤ delay
  | .toClient k _ =>
    ∀ d : NetworkDelays c, ∃ delay, d.networkDelay x (.inr k) = some delay ∧ 0 ≤ delay
  | .self _ _ => True

/-- What a server may hand over: it travels, and clients are sent answers. -/
structure RequestView.MaySend (view : RequestView c E σ κ) (s : ServerId c)
    (o : Out (ServerId c) (ClientId c) E) : Prop where
  travels : o.Travels (.inl s)
  answers : ∀ k e, o = .toClient k e → (view.responseKind e).isSome

namespace RequestView.MaySend

variable {view : RequestView c E σ κ} {s s' : ServerId c} {k : ClientId c} {e : E}

/-- A server is connected to its replica, and to its partition in the other replicas. -/
theorem replica (h : s'.1 = s.1) : view.MaySend s (.toServer s' e) :=
  ⟨Linked.networkDelay (.inl h), by rintro k e ⟨⟩⟩

theorem partition (h : s'.2 = s.2) : view.MaySend s (.toServer s' e) :=
  ⟨Linked.networkDelay (.inr h), by rintro k e ⟨⟩⟩

/-- It is connected to its clients. -/
theorem client (h : k.server = s) (he : (view.responseKind e).isSome) :
    view.MaySend s (.toClient k e) :=
  ⟨Linked.networkDelay (x := .inl s) h, by rintro _ _ ⟨⟩; exact he⟩

theorem self {delay : ℚ} : view.MaySend s (.self delay e) :=
  ⟨trivial, by rintro k e ⟨⟩⟩

end RequestView.MaySend

/-- What is sent to a client is an answer to this client. -/
theorem RequestView.Lawful.answers {view : RequestView c E σ κ}
    {P : Program (ServerId c) (ClientId c) E σ κ Decision} (hview : view.Lawful P) {s : ServerId c}
    {r : Outcome (ServerId c) (ClientId c) E σ} (hsend : ∀ o ∈ r.outs, view.MaySend s o) :
    ∀ x ∈ r.placed s, ∀ k, x.1 = .inr k → ∃ kind,
      view.responseKind x.2 = some kind ∧ view.about x = some (k, kind) := by
  refine Outcome.forall_placed (fun o ho k hk => ?_) (by rintro e - k ⟨⟩)
  cases o with
  | toServer s' e => cases hk
  | self delay e => cases hk
  | toClient k' e =>
    cases hk
    obtain ⟨kind, hkind⟩ := Option.isSome_iff_exists.mp ((hsend _ ho).answers k e rfl)
    exact ⟨kind, hkind, hview.answer_about hkind⟩

/-- **Discipline.**  Requests and answers in a state, after the handler calls `h`. -/
structure RequestView.Disciplined (view : RequestView c E σ κ)
    (P : Program (ServerId c) (ClientId c) E σ κ Decision) (M : Mail (ServerId c) (ClientId c) E σ κ)
    (h : List (Act (ServerId c) (ClientId c) E σ κ)) : Prop where
  /-- Every request has been answered once, or is the one that is outstanding. -/
  counts : ∀ k kind, (h.flatMap (view.requests k)).count kind =
    (h.flatMap (view.responses k)).count kind + if view.outstanding k h = some kind then 1 else 0
  /-- What is outstanding is in one place: in flight, or in a slot. -/
  trace : ∀ k kind, (M.events.map fun x => view.weight x (k, kind)).sum +
    ∑ s, view.held (M.server s) (k, kind) = if view.outstanding k h = some kind then 1 else 0
  /-- An answer is to what its client has asked for. -/
  answer : ∀ k e kind, (.inr k, e) ∈ M.events → view.responseKind e = some kind →
    view.outstanding k h = some kind ∧ ∀ k' ∈ view.names e, k' = k
  /-- The assertions of `client_begin_request` and `client_finish_request` hold. -/
  client : ∀ k e, (.inr k, e) ∈ M.events → ∀ t x, x.Valid →
    (P.client k t x (M.client k) e).isSome
  /-- A GET or a PUT that has to be forwarded has no proxy yet. -/
  forward : ∀ s e key proxy, (.inl s, e) ∈ M.events → view.routing e = some (key, proxy) →
    lpidForKey s key ≠ s → proxy = none
  /-- No message is sent to a process that is `DISCONNECTED`. -/
  fromServer : ∀ s e t r, (.inl s, e) ∈ M.events → P.serve s t (M.server s) e = some r →
    ∀ o ∈ r.outs, o.Travels (.inl s)
  fromClient : ∀ k e t x r, (.inr k, e) ∈ M.events → P.client k t x (M.client k) e = some r →
    ∀ o ∈ r.2, o.Travels (.inr k)

/-- What is left to prove of a protocol. -/
theorem RequestView.Kept.disciplined {view : RequestView c E σ κ}
    {P : Program (ServerId c) (ClientId c) E σ κ Decision} {M : Mail (ServerId c) (ClientId c) E σ κ}
    {h : List (Act (ServerId c) (ClientId c) E σ κ)} (hview : view.Lawful P) (hM : view.Kept M h)
    (hnames : ∀ k e, (.inr k, e) ∈ M.events → ∀ k' ∈ view.names e, k' = k)
    (hforward : ∀ s e key proxy, (.inl s, e) ∈ M.events → view.routing e = some (key, proxy) →
      lpidForKey s key ≠ s → proxy = none)
    (hserver : ∀ s e t r, (.inl s, e) ∈ M.events → P.serve s t (M.server s) e = some r →
      ∀ o ∈ r.outs, o.Travels (.inl s)) : view.Disciplined P M h where
  counts := hM.counts
  trace k kind := RequestView.trace_apply hM.trace (k, kind)
  answer k e kind he hkind := by
    refine ⟨?_, hnames k e he⟩
    rcases hM.clients k e he with rfl | ⟨kind', hkind', habout⟩
    · rw [hview.tick_response] at hkind
      cases hkind
    · rw [hkind] at hkind'
      cases hkind'
      exact outstanding_of_about hview.held_nonneg hM.trace he habout
  client k e he t x hx := hview.enabled hx (hM.expects hview he)
  forward := hforward
  fromServer := hserver
  fromClient k e t x r he hasked := by
    obtain ⟨learnt, -, hsends⟩ := hview.client hasked
    generalize r.2 = outs at hsends
    generalize view.waits r.1 = after at hsends
    have hserver : Linked (.inr k : ServerId c ⊕ ClientId c) (.inl k.server) := rfl
    cases hsends with
    | nothing => exact List.forall_mem_nil _
    | tick => exact List.forall_mem_singleton.mpr trivial
    | request => exact List.forall_mem_singleton.mpr hserver.networkDelay

end CCSim
