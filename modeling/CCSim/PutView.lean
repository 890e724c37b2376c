/-
# Versions and what they depend on, whatever the protocol

A version depends on those that the client who wrote it had read or written before, and on what these
depend on (`PutView.Before`).  A PUT brings the latest of their times along.  The server compares it
with its clock and stamps the version with its clock in a later event, when it has got the lock; so a
version is later than all it depends on, however long that takes and whatever the clocks are
(`TimedMail.Run.before_lt`).  A PUT whose time is still ahead of the clock comes back when the clock
has reached it, and is not deferred again (`TimedMail.Run.deferred_once`).

Both rest on one invariant, `PutView.Causal`: what a client has learned is not later than its bound,
its PUT in flight is not earlier, and a PUT that waits for the lock is due when the clock is past it.
That the bound stays where it is while a PUT is under way is known of requests (`RequestView`), and
that the slot of a PUT stays what it is, of ids (`StateView`).
-/
import CCSim.Lib.TimedMail
import CCSim.Replicas.Tracking
import CCSim.RequestView
import CCSim.StateView

namespace CCSim

variable {c : Cluster} {E σ κ O : Type}

/-! ## 1. Views -/

/-- What matters here of a PUT: its client and its key, and the latest time that it depends on. -/
structure PutTime (c : Cluster) where
  client : ClientId c
  key : Key
  time : ℚ

/-- The version that was read, if there was one. -/
def readVersion {D : Type} (key : Key) (item : Option (Item (Replica c) D)) :
    List (Version (Replica c)) := (item.map (Item.version key)).toList

theorem readVersion_time {D : Type} {key : Key} {item : Option (Item (Replica c) D)}
    {v : Version (Replica c)} (hv : v ∈ readVersion key item) :
    v.updateTime = updateTimeOf item := by
  cases item with
  | none => cases hv
  | some item =>
    cases List.mem_singleton.mp hv
    rfl

/-- How PUTs are read off the events and states of a protocol. -/
structure PutView (c : Cluster) (E σ κ O : Type) where
  requests : RequestView c E σ κ
  states : StateView c E σ O
  /-- A PUT that no server has opened yet. -/
  request : E → Option (PutTime c)
  /-- A PUT gets its lock, with the id of its slot. -/
  locked : E → Option ℕ
  /-- The client of a PUT in a slot, its key and its value. -/
  writer : O → Option (ClientId c × Key × Value)
  /-- The latest time that a client depends on. -/
  bound : κ → ℚ
  /-- The versions that an answer tells of: what was read, or what was written. -/
  told : E → List (Version (Replica c))

namespace PutView

variable (view : PutView c E σ κ O)

/-- The version that a handler call writes, and for whom: a PUT gets its lock. -/
def writes : Act (ServerId c) (ClientId c) E σ κ → Option (ClientId c × Version (Replica c))
  | .server s t e st _ => (view.locked e).bind fun id => (view.states.object st .put id).bind fun o =>
      (view.writer o).map fun y => (y.1, ⟨y.2.1, y.2.2, c.clock s t, s.1⟩)
  | .client _ _ _ _ _ => none

/-- The versions that a client gets to know in a handler call. -/
def learned (k : ClientId c) : Act (ServerId c) (ClientId c) E σ κ → List (Version (Replica c))
  | .client k' _ e _ _ => if k' = k then view.told e else []
  | .server _ _ _ _ _ => []

/-- `view.Before h v w`: in a run with the handler calls `h`, the client that wrote `w` had read or
written `v` before, or something that depends on `v`. -/
inductive Before (h : List (Act (ServerId c) (ClientId c) E σ κ)) :
    Version (Replica c) → Version (Replica c) → Prop
  | direct {later past : List (Act (ServerId c) (ClientId c) E σ κ)}
      {a b : Act (ServerId c) (ClientId c) E σ κ} {k : ClientId c} {v w : Version (Replica c)}
      (hh : h = later ++ a :: past) (hw : view.writes a = some (k, w)) (hb : b ∈ past)
      (hv : v ∈ view.learned k b) : Before h v w
  | trans {u v w : Version (Replica c)} (huv : Before h u v) (hvw : Before h v w) : Before h u w

/-- A handler call puts off a PUT of the client. -/
def defers (k : ClientId c) : Act (ServerId c) (ClientId c) E σ κ → Bool
  | .server _ _ e _ r => (view.request e).any (fun q => decide (q.client = k)) &&
      r.outs.any fun o => match o with
        | .self _ e' => (view.request e').isSome
        | _ => false
  | .client _ _ _ _ _ => false

/-- The client sends a PUT. -/
def sends (k : ClientId c) : Act (ServerId c) (ClientId c) E σ κ → Bool
  | .client k' _ _ _ r => decide (k' = k) && r.2.any fun o => (view.request o.event).isSome
  | .server _ _ _ _ _ => false

/-- The last PUT of the client has been put off. -/
def deferred (k : ClientId c) : List (Act (ServerId c) (ClientId c) E σ κ) → Prop
  | [] => False
  | a :: h => view.defers k a = true ∨ view.sends k a = false ∧ deferred k h

/-- What a server does with a PUT that it has not opened: it forwards it to the server of the key, or
it puts it off until its clock reaches the time. -/
inductive Passes (s : ServerId c) (t : ℚ) (q : PutTime c) : Out (ServerId c) (ClientId c) E → Prop
  | forward {e : E} (hkey : lpidForKey s q.key ≠ s) : Passes s t q (.toServer (lpidForKey s q.key) e)
  | defer {e : E} (hkey : lpidForKey s q.key = s) (hlt : c.clock s t < q.time) :
      Passes s t q (.self (q.time - c.clock s t) e)

/-- What a handler of a server does with PUTs: it passes them on as they are, and before one asks for
its lock its time was compared with the clock. -/
structure Serves (s : ServerId c) (t : ℚ) (e : E) (r : Outcome (ServerId c) (ClientId c) E σ) :
    Prop where
  out : ∀ o ∈ r.outs, view.locked o.event = none ∧ ∀ q ∈ view.request o.event,
    view.request e = some q ∧ Passes s t q o
  cont : ∀ e' ∈ r.cont.event?, view.request e' = none
  opens : ∀ e' ∈ r.cont.event?, ∀ id ∈ view.locked e', (∃ m lock, r.cont = .lock m lock e') ∧
    ∃ q, view.request e = some q ∧ q.time ≤ c.clock s t ∧
      ∀ o ∈ view.states.object r.state .put id, ∀ y ∈ view.writer o, y.1 = q.client

/-- A handler that leaves behind neither a PUT that is not opened nor one that is to be stamped. -/
theorem Serves.none {view : PutView c E σ κ O} {s : ServerId c} {t : ℚ} {e : E}
    {r : Outcome (ServerId c) (ClientId c) E σ}
    (h : ∀ x ∈ r.placed s, view.request x.2 = none ∧ view.locked x.2 = none) :
    view.Serves s t e r where
  out o ho := by
    obtain ⟨hrequest, hlocked⟩ := h _ (Outcome.mem_placed.mpr (.inl ⟨o, ho, rfl⟩))
    refine ⟨hlocked, fun q hq => ?_⟩
    rw [hrequest] at hq
    cases hq
  cont e' he' := (h _ (Outcome.mem_placed.mpr (.inr ⟨e', he', rfl⟩))).1
  opens e' he' id hid := by
    rw [(h _ (Outcome.mem_placed.mpr (.inr ⟨e', he', rfl⟩))).2] at hid
    cases hid

/-- What is known of PUTs without looking at a run. -/
structure Lawful (P : Program (ServerId c) (ClientId c) E σ κ Decision) : Prop where
  requests : view.requests.Lawful P
  about : ∀ {p e q}, view.request e = some q → view.requests.about (p, e) = some (q.client, .put)
  refers : ∀ {s e id}, view.locked e = some id → view.states.refers (.inl s, e) = some ⟨s, .put, id⟩
  held : ∀ {st id o y}, view.states.object st .put id = some o → view.writer o = some y →
    1 ≤ view.requests.held st (y.1, .put)
  grows : ∀ {k t x st e r}, P.client k t x st e = some r → view.bound st ≤ view.bound r.1 ∧
    (view.requests.responseKind e = none → view.bound r.1 = view.bound st)
  asks : ∀ {k t x st e r o}, P.client k t x st e = some r → o ∈ r.2 → view.locked o.event = none ∧
    ∀ q ∈ view.request o.event, q.client = k ∧ view.bound r.1 ≤ q.time

/-- An answer does not tell of versions that are later than the bound of the client who gets it. -/
def Honest (P : Program (ServerId c) (ClientId c) E σ κ Decision)
    (M : Mail (ServerId c) (ClientId c) E σ κ) : Prop :=
  ∀ k e t x r, (.inr k, e) ∈ M.events → P.client k t x (M.client k) e = some r →
    ∀ v ∈ view.told e, v.updateTime ≤ view.bound r.1

/-- **The invariant.** -/
structure Causal (T : TimedMail (ServerId c) (ClientId c) E σ κ)
    (h : List (Act (ServerId c) (ClientId c) E σ κ)) : Prop where
  learned : ∀ k, ∀ a ∈ h, ∀ v ∈ view.learned k a, v.updateTime ≤ view.bound (T.client k)
  request : ∀ x ∈ T.events, ∀ q ∈ view.request x.2.2, view.bound (T.client q.client) ≤ q.time
  locked : ∀ d s e, (d, .inl s, e) ∈ T.events → ∀ id ∈ view.locked e,
    ∀ o ∈ view.states.object (T.server s) .put id, ∀ y ∈ view.writer o,
      view.bound (T.client y.1) < c.clock s d
  deferred : ∀ k, view.deferred k h → ∀ x ∈ T.events, ∀ q ∈ view.request x.2.2, q.client = k →
    ∃ s, x.2.1 = .inl s ∧ lpidForKey s q.key = s ∧ q.time ≤ c.clock s x.1

end PutView

/-! ## 2. One step -/

section Steps

variable {view : PutView c E σ κ O} {P : Program (ServerId c) (ClientId c) E σ κ Decision}
  {T T' : TimedMail (ServerId c) (ClientId c) E σ κ} {h : List (Act (ServerId c) (ClientId c) E σ κ)}

namespace PutView

/-- The requests in flight are those that their clients are owed. -/
def Traced (view : PutView c E σ κ O) (M : Mail (ServerId c) (ClientId c) E σ κ)
    (h : List (Act (ServerId c) (ClientId c) E σ κ)) : Prop :=
  (M.events.map view.requests.weight).sum + ∑ s, view.requests.held (M.server s) =
    view.requests.owed h

/-- The object in the slot that a PUT in flight refers to is not changed by a step that leaves the
PUT in flight. -/
theorem kept_object (hview : view.Lawful P) {s : ServerId c} {e : E} {id : ℕ}
    (hlocked : view.locked e = some id) (hmem : (.inl s, e) ∈ T.mail.events)
    (hmem' : (.inl s, e) ∈ T'.mail.events)
    (hhandled : view.states.Handled T.mail T'.mail ⟨s, .put, id⟩) :
    view.states.object (T'.server s) .put id = view.states.object (T.server s) .put id := by
  have hrefers := hview.refers (s := s) hlocked
  cases hhandled with
  | same hsame => exact hsame
  | taken _ hunreferred => exact absurd hrefers (hunreferred.events _ hmem)
  | freed _ _ hunreferred => exact absurd hrefers (hunreferred.events _ hmem')

/-- What a handler leaves behind for PUTs that are not opened. -/
theorem Serves.request_new {s : ServerId c} {t : ℚ} {e : E}
    {r : Outcome (ServerId c) (ClientId c) E σ} (hserves : view.Serves s t e r)
    {x : ℚ × (ServerId c ⊕ ClientId c) × E} (hx : r.Due s t x) {q : PutTime c}
    (hq : view.request x.2.2 = some q) : view.request e = some q ∧
      (lpidForKey s q.key ≠ s ∨ lpidForKey s q.key = s ∧ c.clock s t < q.time ∧ x.2.1 = .inl s ∧
        q.time ≤ c.clock s x.1) := by
  cases hx with
  | @out o u ho hu =>
    obtain ⟨hreq, hpass⟩ := (hserves.out o ho).2 q hq
    refine ⟨hreq, ?_⟩
    cases hpass with
    | forward hkey => exact .inl hkey
    | defer hkey hlt =>
      refine .inr ⟨hkey, hlt, rfl, ?_⟩
      simp only [Out.earliest, Cluster.clock] at hu ⊢
      linarith
  | @lock m id e' u hcont hu =>
    have hnone := hserves.cont e' (by rw [hcont]; rfl)
    exact absurd hq (by rw [hnone]; exact nofun)
  | @unlock m id e' u hcont hu =>
    have hnone := hserves.cont e' (by rw [hcont]; rfl)
    exact absurd hq (by rw [hnone]; exact nofun)

/-- What a handler leaves behind for a PUT that is to be stamped. -/
theorem Serves.locked_new {s s' : ServerId c} {t d : ℚ} {e e' : E}
    {r : Outcome (ServerId c) (ClientId c) E σ} (hserves : view.Serves s t e r)
    (hx : r.Due s t (d, .inl s', e')) {id : ℕ} (hid : view.locked e' = some id) :
    s = s' ∧ t < d ∧ ∃ q, view.request e = some q ∧ q.time ≤ c.clock s t ∧
      ∀ o ∈ view.states.object r.state .put id, ∀ y ∈ view.writer o, y.1 = q.client := by
  generalize hx' : (d, (.inl s' : ServerId c ⊕ ClientId c), e') = x at hx
  cases hx with
  | @out o u ho hu =>
    have hevent : e' = o.event := congrArg (fun x => x.2.2) hx'
    have hnone := (hserves.out o ho).1
    rw [← hevent, hid] at hnone
    cases hnone
  | @lock m lid e'' u hcont hu =>
    cases hx'
    exact ⟨rfl, hu, (hserves.opens e' (by rw [hcont]; rfl) id hid).2⟩
  | @unlock m lid e'' u hcont hu =>
    cases hx'
    obtain ⟨⟨m', lock', hlock⟩, -⟩ := hserves.opens e' (by rw [hcont]; rfl) id hid
    rw [hcont] at hlock
    cases hlock

/-- A PUT that is put off is one that its own server has put off. -/
theorem Serves.of_defers {k : ClientId c} {s : ServerId c} {t : ℚ} {e : E} {st : σ}
    {r : Outcome (ServerId c) (ClientId c) E σ} (hserves : view.Serves s t e r)
    (h : view.defers k (.server s t e st r) = true) :
    ∃ q, view.request e = some q ∧ q.client = k ∧ lpidForKey s q.key = s ∧
      c.clock s t < q.time := by
  simp only [defers, Bool.and_eq_true, Option.any_eq_true, decide_eq_true_eq,
    List.any_eq_true] at h
  obtain ⟨⟨q, hq, hk⟩, o, ho, hsome⟩ := h
  cases o with
  | toServer => cases hsome
  | toClient => cases hsome
  | self delay e' =>
    obtain ⟨q', hq'⟩ := Option.isSome_iff_exists.mp hsome
    obtain ⟨hreq, hpass⟩ := (hserves.out _ ho).2 q' hq'
    cases hq.symm.trans hreq
    cases hpass with
    | defer hkey hlt => exact ⟨q, hq, hk, hkey, hlt⟩

/-- **A handler call of a server keeps the invariant.** -/
theorem Causal.serve (hview : view.Lawful P) (hT : view.Causal T h)
    (htrace : view.Traced T.mail h) {s : ServerId c} {d t : ℚ} {e : E}
    {r : Outcome (ServerId c) (ClientId c) E σ}
    {rest new : Multiset (ℚ × (ServerId c ⊕ ClientId c) × E)}
    (hev : T.events = (d, .inl s, e) ::ₘ rest) (hd : d ≤ t)
    (hserves : view.Serves s t e r) (hdue : ∀ x ∈ new, r.Due s t x)
    (hT' : T' = ⟨t, Function.update T.server s r.state, T.client, rest + new⟩)
    (hhandled : ∀ slot, view.states.Handled T.mail T'.mail slot) :
    view.Causal T' (.server s t e (T.server s) r :: h) := by
  have hmem : (d, .inl s, e) ∈ T.events := hev ▸ Multiset.mem_cons_self _ _
  have hrest : ∀ {x}, x ∈ rest → x ∈ T.events := fun hx => hev ▸ Multiset.mem_cons_of_mem hx
  have hclient : T'.client = T.client := by rw [hT']
  have hcases : ∀ {x}, x ∈ T'.events → x ∈ rest ∨ x ∈ new := by
    intro x hx
    rw [hT'] at hx
    exact Multiset.mem_add.mp hx
  refine ⟨fun k a ha v hv => ?_, fun x hx q hq => ?_, fun d' s' e' hx id hid o ho y hy => ?_,
    fun k hk x hx q hq hqk => ?_⟩
  · rw [hclient]
    rcases List.mem_cons.mp ha with rfl | ha
    · cases hv
    · exact hT.learned k a ha v hv
  · rw [hclient]
    rcases hcases hx with hx | hx
    · exact hT.request x (hrest hx) q hq
    · exact hT.request _ hmem q (hserves.request_new (hdue x hx) hq).1
  · rw [hclient]
    rcases hcases hx with hold | hnew
    · -- it waited before, and its slot is what it was
      rw [kept_object hview hid (TimedMail.mem_mail (hrest hold)) (TimedMail.mem_mail hx)
        (hhandled _)] at ho
      exact hT.locked d' s' e' (hrest hold) id hid o ho y hy
    · obtain ⟨rfl, hlt, q, hq, hle, hwriter⟩ :=
        hserves.locked_new (hdue _ hnew) hid
      rw [hT'] at ho
      dsimp only at ho
      rw [Function.update_self] at ho
      rw [hwriter o ho y hy]
      calc view.bound (T.client q.client) ≤ q.time := hT.request _ hmem q hq
        _ ≤ c.clock s t := hle
        _ < c.clock s d' := clock_lt s hlt
  · rcases hk with hk | ⟨-, hk⟩
    · -- it is put off now, and there is no other
      obtain ⟨q₀, hq₀, hk₀, hkey₀, hlt₀⟩ := hserves.of_defers hk
      rcases hcases hx with hold | hnew
      · obtain ⟨dx, px, ex⟩ := x
        have hmail : T.mail.events = (.inl s, e) ::ₘ rest.map Prod.snd := by
          rw [TimedMail.mail, hev, Multiset.map_cons]
        have habout := hview.about (p := px) hq
        rw [hqk] at habout
        exact absurd habout (RequestView.alone hview.requests.held_nonneg htrace hmail
          (Multiset.mem_map_of_mem Prod.snd hold) (hk₀ ▸ hview.about hq₀))
      · obtain ⟨hreq, hpass⟩ := hserves.request_new (hdue x hnew) hq
        cases hq₀.symm.trans hreq
        rcases hpass with hne | ⟨hkey, -, hplace, hle⟩
        · exact absurd hkey₀ hne
        · exact ⟨s, hplace, hkey, hle⟩
    · -- it was put off before, and is not again
      rcases hcases hx with hold | hnew
      · exact hT.deferred k hk x (hrest hold) q hq hqk
      · obtain ⟨hreq, hpass⟩ := hserves.request_new (hdue x hnew) hq
        obtain ⟨s', hs', hkey, hle⟩ := hT.deferred k hk _ hmem q hreq hqk
        cases hs'
        rcases hpass with hne | ⟨-, hlt, -⟩
        · exact absurd hkey hne
        · have hclock := clock_mono s hd
          dsimp only at hle
          linarith

/-- **A handler call of a client keeps the invariant.** -/
theorem Causal.client (hview : view.Lawful P) (hT : view.Causal T h)
    (htrace : view.Traced T.mail h) (hhonest : view.Honest P T.mail) {k₀ : ClientId c} {d t : ℚ}
    {x₀ : Decision} {e : E} {r : κ × List (Out (ServerId c) (ClientId c) E)}
    {rest new : Multiset (ℚ × (ServerId c ⊕ ClientId c) × E)}
    (hev : T.events = (d, .inr k₀, e) ::ₘ rest)
    (hasked : P.client k₀ t x₀ (T.client k₀) e = some r)
    (hnew : new.map Prod.snd = ((placedOfClient k₀ r.2 : List _) : Multiset _))
    (hT' : T' = ⟨t, T.server, Function.update T.client k₀ r.1, rest + new⟩) :
    view.Causal T' (.client k₀ t e (T.client k₀) r :: h) := by
  have hmem : (d, .inr k₀, e) ∈ T.events := hev ▸ Multiset.mem_cons_self _ _
  have hrest : ∀ {x}, x ∈ rest → x ∈ T.events := fun hx => hev ▸ Multiset.mem_cons_of_mem hx
  have hself : T'.client k₀ = r.1 := by
    rw [hT']
    exact Function.update_self _ _ _
  have hother : ∀ {k}, k ≠ k₀ → T'.client k = T.client k := by
    intro k hk
    rw [hT']
    exact Function.update_of_ne hk _ _
  have hmail : T.mail.events = (.inr k₀, e) ::ₘ rest.map Prod.snd := by
    rw [TimedMail.mail, hev, Multiset.map_cons]
  obtain ⟨hgrow, hsame⟩ := hview.grows hasked
  have hout : ∀ {x}, x ∈ new → ∃ o ∈ r.2, (o.placeOfClient k₀, o.event) = x.2 := by
    intro x hx
    have hplaced : x.2 ∈ ((placedOfClient k₀ r.2 : List _) : Multiset _) :=
      hnew ▸ Multiset.mem_map_of_mem Prod.snd hx
    exact List.mem_map.mp (Multiset.mem_coe.mp hplaced)
  have hcases : ∀ {x}, x ∈ T'.events → x ∈ rest ∨ x ∈ new := by
    intro x hx
    rw [hT'] at hx
    exact Multiset.mem_add.mp hx
  -- an answer tells the client that nothing else is under way for it
  have hanswer : view.requests.responseKind e = none ∨
      ∃ kind, view.requests.about (.inr k₀, e) = some (k₀, kind) := by
    cases hkind : view.requests.responseKind e with
    | none => exact .inl rfl
    | some kind => exact .inr ⟨kind, hview.requests.answer_about hkind⟩
  refine ⟨fun k a ha v hv => ?_, fun x hx q hq => ?_, fun d' s' e' hx id hid o ho y hy => ?_,
    fun k hk x hx q hq hqk => ?_⟩
  · by_cases hk : k = k₀
    · subst hk
      rw [hself]
      rcases List.mem_cons.mp ha with rfl | ha
      · rw [PutView.learned, if_pos rfl] at hv
        exact hhonest k e t x₀ r (TimedMail.mem_mail hmem) hasked v hv
      · exact (hT.learned k a ha v hv).trans hgrow
    · rw [hother hk]
      rcases List.mem_cons.mp ha with rfl | ha
      · rw [PutView.learned, if_neg (Ne.symm hk)] at hv
        cases hv
      · exact hT.learned k a ha v hv
  · rcases hcases hx with hold | hnew
    · have hle := hT.request x (hrest hold) q hq
      by_cases hk : q.client = k₀
      · rw [hk, hself]
        rcases hanswer with hnone | ⟨kind, habout⟩
        · rw [hsame hnone, ← hk]
          exact hle
        · obtain ⟨dx, px, ex⟩ := x
          exact absurd (hk ▸ hview.about (p := px) hq)
            (RequestView.alone hview.requests.held_nonneg htrace hmail
              (Multiset.mem_map_of_mem Prod.snd hold) habout)
      · rw [hother hk]
        exact hle
    · obtain ⟨o, ho, hox⟩ := hout hnew
      rw [← hox] at hq
      obtain ⟨hk, hle⟩ := (hview.asks hasked ho).2 q hq
      rw [hk, hself]
      exact hle
  · rcases hcases hx with hold | hnew
    · have hserver : T'.server = T.server := by rw [hT']
      rw [hserver] at ho
      have hlt := hT.locked d' s' e' (hrest hold) id hid o ho y hy
      by_cases hk : y.1 = k₀
      · rw [hk, hself]
        rcases hanswer with hnone | ⟨kind, habout⟩
        · rw [hsame hnone, ← hk]
          exact hlt
        · have hzero := RequestView.not_held hview.requests.held_nonneg htrace
            (TimedMail.mem_mail hmem) habout s' .put
          have hone := hview.held ho hy
          rw [hk] at hone
          change view.requests.held (T.server s') (k₀, .put) = 0 at hzero
          omega
      · rw [hother hk]
        exact hlt
    · obtain ⟨o', ho', hox⟩ := hout hnew
      have hevent : o'.event = e' := congrArg Prod.snd hox
      have hnone := (hview.asks hasked ho').1
      rw [hevent] at hnone
      rw [hnone] at hid
      cases hid
  · rcases hk with hk | ⟨hsent, hk⟩
    · cases hk
    rcases hcases hx with hold | hnew
    · exact hT.deferred k hk x (hrest hold) q hq hqk
    · obtain ⟨o, ho, hox⟩ := hout hnew
      have hevent : o.event = x.2.2 := congrArg Prod.snd hox
      have hq' : view.request o.event = some q := hevent ▸ hq
      have hk₀ := ((hview.asks hasked ho).2 q hq').1
      have hsends : view.sends k (.client k₀ t e (T.client k₀) r) = true := by
        rw [sends, Bool.and_eq_true, decide_eq_true_eq, List.any_eq_true]
        exact ⟨hk₀.symm.trans hqk, o, ho, by rw [hq']; rfl⟩
      rw [hsends] at hsent
      cases hsent

end PutView

end Steps

/-! ## 3. Every run -/

section Runs

variable {view : PutView c E σ κ O} {P : Program (ServerId c) (ClientId c) E σ κ Decision}
  {T₀ T : TimedMail (ServerId c) (ClientId c) E σ κ} {h : List (Act (ServerId c) (ClientId c) E σ κ)}

/-- What is known of the runs that start in `M₀`. -/
structure PutView.Known (view : PutView c E σ κ O)
    (P : Program (ServerId c) (ClientId c) E σ κ Decision)
    (M₀ : Mail (ServerId c) (ClientId c) E σ κ) : Prop where
  lawful : view.Lawful P
  fresh : ∀ x ∈ M₀.events, view.request x.2 = none ∧ view.locked x.2 = none
  traced : ∀ {M h}, Mail.Run P (fun _ => True) M₀ M h → view.Traced M h
  stale : ∀ {M h}, Mail.Run P (fun _ => True) M₀ M h → view.states.NeverStale P M₀ M h
  honest : ∀ {M h}, Mail.Run P (fun _ => True) M₀ M h → view.Honest P M
  serves : ∀ {M h s t e r}, Mail.Run P (fun _ => True) M₀ M h → (.inl s, e) ∈ M.events →
    P.serve s t (M.server s) e = some r → view.Serves s t e r

/-- **The invariant holds in every state.** -/
theorem TimedMail.Run.causal (hview : view.Known P T₀.mail) (hr : TimedMail.Run P T₀ T h) :
    view.Causal T h := by
  induction hr with
  | nil =>
    have hnone : ∀ {x}, x ∈ T₀.events → view.request x.2.2 = none ∧ view.locked x.2.2 = none :=
      fun hx => hview.fresh _ (Multiset.mem_map_of_mem Prod.snd hx)
    refine ⟨fun _ a ha => absurd ha List.not_mem_nil, fun x hx q hq => ?_,
      fun d s e hx id hid => ?_, fun _ hk => False.elim hk⟩
    · exact absurd hq (by rw [(hnone hx).1]; exact nofun)
    · exact absurd hid (by rw [(hnone hx).2]; exact nofun)
  | @cons T T' h a hrun hstep ih =>
    have hhandled := (hview.stale hrun.mail).handled _ _ hstep.mail
    cases hstep with
    | serve hev ht hd hserve hnew hdue =>
      have hmem : (_, .inl _, _) ∈ T.events := hev ▸ Multiset.mem_cons_self _ _
      exact ih.serve hview.lawful (hview.traced hrun.mail) hev hd
        (hview.serves hrun.mail (TimedMail.mem_mail hmem) hserve) hdue rfl hhandled
    | client hev ht hd hasked hnew =>
      exact ih.client hview.lawful (hview.traced hrun.mail) (hview.honest hrun.mail) hev hasked
        hnew rfl
    | wait ht => exact ⟨ih.learned, ih.request, ih.locked, ih.deferred⟩

/-- **A version is later than all it depends on.** -/
theorem TimedMail.Run.before_lt (hview : view.Known P T₀.mail) (hr : TimedMail.Run P T₀ T h)
    {v w : Version (Replica c)} (hb : view.Before h v w) : v.updateTime < w.updateTime := by
  induction hb with
  | trans _ _ ih ih' => exact ih.trans ih'
  | @direct later past a b k v w hh hw hb hv =>
    obtain ⟨N, N', hrun, hstep⟩ := hr.before hh
    have hcausal := hrun.causal hview
    cases hstep with
    | client => cases hw
    | @serve s d t e r rest new hev ht hd hserve hnew hdue =>
      simp only [PutView.writes, Option.bind_eq_some_iff, Option.map_eq_some_iff] at hw
      obtain ⟨id, hid, o, ho, y, hy, hyw⟩ := hw
      cases hyw
      have hmem : (d, .inl s, e) ∈ N.events := hev ▸ Multiset.mem_cons_self _ _
      calc v.updateTime ≤ view.bound (N.client y.1) := hcausal.learned _ _ hb v hv
        _ < c.clock s d := hcausal.locked d s e hmem id hid o ho y hy
        _ ≤ c.clock s t := clock_mono s hd

/-- If a PUT of a client has been put off, and the client has not sent another one, no server puts
off a PUT of the client. -/
theorem TimedMail.Run.deferred_once (hview : view.Known P T₀.mail) (hr : TimedMail.Run P T₀ T h)
    {k : ClientId c} {later past : List (Act (ServerId c) (ClientId c) E σ κ)}
    {a : Act (ServerId c) (ClientId c) E σ κ} (hh : h = later ++ a :: past)
    (hdefers : view.defers k a = true) : ¬view.deferred k past := by
  intro hk
  obtain ⟨N, N', hrun, hstep⟩ := hr.before hh
  cases hstep with
  | client => cases hdefers
  | @serve s d t e r rest new hev ht hd hserve hnew hdue =>
    have hmem : (d, .inl s, e) ∈ N.events := hev ▸ Multiset.mem_cons_self _ _
    have hserves := hview.serves hrun.mail (TimedMail.mem_mail hmem) hserve
    obtain ⟨q, hq, hqk, hkey, hlt⟩ := hserves.of_defers hdefers
    obtain ⟨s', hs', -, hle⟩ := (hrun.causal hview).deferred k hk _ hmem q hq hqk
    cases hs'
    have hclock := clock_mono s hd
    dsimp only at hle
    linarith

theorem PutView.deferred_append {k : ClientId c}
    {mid past : List (Act (ServerId c) (ClientId c) E σ κ)}
    {a : Act (ServerId c) (ClientId c) E σ κ} (ha : view.defers k a = true)
    (hmid : ∀ b ∈ mid, view.sends k b = false) : view.deferred k (mid ++ a :: past) := by
  induction mid with
  | nil => exact .inl ha
  | cons b mid ih =>
    exact .inr ⟨hmid b List.mem_cons_self, ih fun b' hb' => hmid b' (List.mem_cons_of_mem b hb')⟩

end Runs

end CCSim
