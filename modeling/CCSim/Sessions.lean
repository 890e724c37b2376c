/-
# Session guarantees

What a client can rely on in its own sequence of requests.  In `gr` it never sees an older version
of a key than one it has seen before (`gr_reads_monotonic`), and it sees what it has written
(`gr_reads_own_writes`), unless the PUT was discarded: a PUT that finds a later version of the key
is answered as any other, but writes nothing, and the later version need not be visible yet
(`gr_write_not_seen`).

A client has one request under way at a time, so what is returned later was also asked for later.
-/
import CCSim.Gr.Sessions
import CCSim.Grv.Coverage

namespace CCSim

variable {c : Cluster}

/-! ## 1. `gr` -/

theorem GrSaw.of_mem {k : ClientId c} {h : List (GrAct c)} {a : GrAct c} (ha : a ∈ h) {key : Key}
    {u : ℚ} (hret : (key, u) ∈ grReturned k a) : GrSaw k h key u := by
  induction h with
  | nil => cases ha
  | cons b h ih =>
    rcases List.mem_cons.mp ha with rfl | ha
    · exact .read hret
    · exact .later (ih ha)

theorem GrSaw.append {k : ClientId c} {h : List (GrAct c)} {key : Key} {u : ℚ}
    (hs : GrSaw k h key u) (l : List (GrAct c)) : GrSaw k (l ++ h) key u := by
  induction l with
  | nil => exact hs
  | cons b l ih => exact .later ih

/-- What holds of every element and those behind it holds pairwise. -/
theorem pairwise_of_split {α : Type} {R : α → α → Prop} {l : List α}
    (h : ∀ l₂ a l₁, l = l₂ ++ a :: l₁ → ∀ b ∈ l₁, R a b) : l.Pairwise R := by
  induction l with
  | nil => exact .nil
  | cons a l ih =>
    refine List.pairwise_cons.mpr ⟨h [] a l rfl, ih fun l₂ b l₁ hl => ?_⟩
    exact h (a :: l₂) b l₁ (by rw [hl]; rfl)

/-- **Monotonic reads.**  Of two versions of a key that a client is returned by GETs or
transactions, the later one is not older. -/
theorem gr_reads_monotonic {setup : Setup c (GrEvent c)} {C : GrCond c} {W : GrWorld c}
    {h : List (GrAct c)} (hrun : World.Run (grProgram c) setup.conf C (grWorld setup) W h)
    (k : ClientId c) :
    h.Pairwise fun later earlier => ∀ key u u', (key, u) ∈ grReturned k earlier →
      (key, u') ∈ grReturned k later → u ≤ u' :=
  pairwise_of_split fun _ _ _ hh _ hb _ _ _ hu hu' =>
    gr_sees_again hrun.config hh (GrSaw.of_mem hb hu) hu'

/-- A GET, a transaction, a PUT and a GET of key 0, by one client. -/
def sessionRun : List (Choice Decision) :=
  choices
    [(5, 0), (4, 0), (4, 1), (5, 0), (4, 0), (4, 1), (4, 0), (4, 0), (4, 0), (4, 1), (5, 0), (4, 1),
      (5, 0), (1, 0), (2, 0), (3, 0), (3, 0), (3, 2), (3, 2), (5, 0), (7, 0), (2, 1), (7, 0),
      (2, 0), (3, 0), (5, 0), (5, 0), (5, 0), (5, 0), (4, 0), (4, 0), (4, 0), (4, 2), (6, 0),
      (4, 0), (4, 0), (5, 0), (5, 0), (5, 0), (4, 1), (5, 0), (4, 0)]
    [(1, .get 0), (4, .rotx [0]), (29, .put 0 7), (34, .get 0)] []

theorem gr_reads_monotonic_rotx :
    ∃ W h, World.Run (grProgram pair) (pairSetup _).conf (fun _ _ => True) (grWorld (pairSetup _))
        W h ∧
      h.flatMap (grReturned (clientAt pair 0 0 0)) = [(0, 32 / 25), (0, 0), (0, 0)] ∧
      h.Pairwise fun later earlier => ∀ key u u',
        (key, u) ∈ grReturned (clientAt pair 0 0 0) earlier →
          (key, u') ∈ grReturned (clientAt pair 0 0 0) later → u ≤ u' := by
  obtain ⟨W, h, hrun, hseen⟩ := World.Run.of_replay (grProgram pair) (pairSetup _).conf
    (grWorld (pairSetup _)) Cond.tested_true sessionRun
    (fun x => decide (x.2.flatMap (grReturned (clientAt pair 0 0 0)) =
      [(0, 32 / 25), (0, 0), (0, 0)])) (by decide +kernel)
  exact ⟨W, h, hrun, of_decide_eq_true hseen, gr_reads_monotonic hrun _⟩

/-- **Read your writes.**  After a client has received the answer to a PUT that was not discarded,
no version of the key that it is returned is older. -/
theorem gr_reads_own_writes {setup : Setup c (GrEvent c)} {C : GrCond c} {W : GrWorld c}
    {h h₁ h₂ : List (GrAct c)}
    (hrun : World.Run (grProgram c) setup.conf C (grWorld setup) W h) {k : ClientId c} {t : ℚ}
    {response : GrPutResponse c} {st : GrClientState c} {r : GrClientState c × List (GrOut c)}
    (hh : h = h₂ ++ .client k t (.putResponse response) st r :: h₁) {item : GrItem c}
    (hput : GrPut h₁ (lpidForKey k.server response.written.key) response.written.key item)
    (htime : item.updateTime = response.updateTimestamp) :
    ∀ a ∈ h₂, ∀ u', (response.written.key, u') ∈ grReturned k a →
      response.updateTimestamp ≤ u' := by
  intro a ha u' hret
  obtain ⟨l₁, l₂, rfl⟩ := List.append_of_mem ha
  rw [List.append_assoc, List.cons_append] at hh
  exact gr_sees_again hrun.config hh ((GrSaw.wrote hput htime).append l₂) hret

/-- Before the last `n` handler calls the client was answered a PUT of the key, the first one that
was put into the store of its server. -/
def grWrote (k : ClientId c) (key : Key) (n : ℕ) (h : List (GrAct c)) : Bool :=
  match h.drop n with
  | .client k' _ (.putResponse response) _ _ :: h₁ =>
    decide (k' = k ∧ response.written.key = key) && h₁.any fun a => match a with
      | .server s _ (.putRequestLocked _) st r => decide (s = lpidForKey k.server key) &&
        (match r.state.store key, st.store key with
        | [item], [] => decide (item.updateTime = response.updateTimestamp)
        | _, _ => false)
      | _ => false
  | _ => false

theorem grPut_of_grWrote {k : ClientId c} {key : Key} {n : ℕ} {h : List (GrAct c)}
    (hw : grWrote k key n h = true) : ∃ t response st r h₁ item,
      h = h.take n ++ .client k t (.putResponse response) st r :: h₁ ∧
        response.written.key = key ∧ GrPut h₁ (lpidForKey k.server key) key item ∧
          item.updateTime = response.updateTimestamp := by
  have hsplit := List.take_append_drop n h
  unfold grWrote at hw
  split at hw
  · rename_i k' t response st r h₁ hdrop
    simp only [Bool.and_eq_true, decide_eq_true_eq, List.any_eq_true] at hw
    obtain ⟨⟨rfl, hkey⟩, a, ha, hput⟩ := hw
    split at hput
    · rename_i s t₀ id st₀ r₀
      simp only [Bool.and_eq_true, decide_eq_true_eq] at hput
      obtain ⟨rfl, hput⟩ := hput
      split at hput
      · rename_i item hnew hold
        rw [hdrop] at hsplit
        exact ⟨t, response, st, r, h₁, item, hsplit.symm, hkey,
          ⟨t₀, id, st₀, r₀, ha, by rw [hnew, hold]⟩, of_decide_eq_true hput⟩
      · cases hput
    · cases hput
  · cases hw

theorem gr_reads_own_writes_put :
    ∃ W h, World.Run (grProgram pair) (pairSetup _).conf (fun _ _ => True) (grWorld (pairSetup _))
        W h ∧ ∃ h₁ h₂ t response st r,
      h = h₂ ++ .client (clientAt pair 0 0 0) t (.putResponse response) st r :: h₁ ∧
        h₂.flatMap (grReturned (clientAt pair 0 0 0)) = [(0, 32 / 25)] ∧
        ∀ a ∈ h₂, ∀ u', (response.written.key, u') ∈ grReturned (clientAt pair 0 0 0) a →
          response.updateTimestamp ≤ u' := by
  obtain ⟨W, h, hrun, hseen⟩ := World.Run.of_replay (grProgram pair) (pairSetup _).conf
    (grWorld (pairSetup _)) Cond.tested_true sessionRun
    (fun x => grWrote (clientAt pair 0 0 0) 0 5 x.2 &&
      decide ((x.2.take 5).flatMap (grReturned (clientAt pair 0 0 0)) = [(0, 32 / 25)]))
    (by decide +kernel)
  rw [Bool.and_eq_true, decide_eq_true_eq] at hseen
  obtain ⟨t, response, st, r, h₁, item, hh, hkey, hput, htime⟩ := grPut_of_grWrote hseen.1
  exact ⟨W, h, hrun, h₁, h.take 5, t, response, st, r, hh, hseen.2,
    gr_reads_own_writes hrun hh (by rw [hkey]; exact hput) htime⟩

/-- The clock of the second replica is ahead, and its client starts first. -/
def aheadSetup (E : Type) : Setup skewedPair E :=
  smallSetup E (1 / 10) (pairSetup E).start_le_clockInterval (pairSetup E).start_le_gstInterval
    [(4 / 5, clientAt skewedPair 0 0 0), (9 / 20, clientAt skewedPair 1 0 0)] (by decide +kernel)

/-- A PUT at the second replica, whose update reaches the first one, and then a PUT and a GET
there. -/
def discardedRun : List (Choice Decision) :=
  choices
    [(5, 0), (5, 0), (5, 0), (5, 2), (7, 0), (5, 0), (5, 0), (5, 0), (5, 0), (5, 0), (4, 0), (4, 0),
      (4, 0), (4, 1), (5, 0), (1, 2), (2, 2), (2, 0), (4, 0), (6, 0), (2, 0), (3, 0), (5, 0),
      (5, 0), (4, 1), (5, 0), (4, 0)]
    [(0, .put 0 8), (10, .put 0 7), (17, .get 0)] []

/-- In the last handler call, the client is returned a version of the key that is older than one it
has written. -/
def grForgets (k : ClientId c) (key : Key) (h : List (GrAct c)) : Bool :=
  match h with
  | [] => false
  | a :: h' => (grReturned k a).any fun x => decide (x.1 = key) && h'.any fun b => match b with
    | .client k' _ (.putResponse response) _ _ =>
      decide (k' = k ∧ response.written.key = key ∧ x.2 < response.updateTimestamp)
    | _ => false

/-- A PUT that was discarded need not be seen. -/
theorem gr_write_not_seen :
    ¬∀ (c : Cluster) (setup : Setup c (GrEvent c)) (W : GrWorld c) (h : List (GrAct c)),
      World.Run (grProgram c) setup.conf (fun _ _ => True) (grWorld setup) W h →
      ∀ (h₁ h₂ : List (GrAct c)) k t response st r,
        h = h₂ ++ .client k t (.putResponse response) st r :: h₁ →
        ∀ a ∈ h₂, ∀ u', (response.written.key, u') ∈ grReturned k a →
          response.updateTimestamp ≤ u' := by
  intro hall
  obtain ⟨W, h, hrun, hseen⟩ := World.Run.of_replay (grProgram skewedPair) (aheadSetup _).conf
    (grWorld (aheadSetup _)) Cond.tested_true discardedRun
    (fun x => grForgets (clientAt skewedPair 0 0 0) 0 x.2) (by decide +kernel)
  cases h with
  | nil => cases hseen
  | cons a h' =>
    obtain ⟨⟨key, u'⟩, hret, hseen⟩ := List.any_eq_true.mp hseen
    simp only [Bool.and_eq_true, decide_eq_true_eq, List.any_eq_true] at hseen
    obtain ⟨rfl, b, hb, hseen⟩ := hseen
    split at hseen
    · rename_i k' t response st r
      obtain ⟨rfl, hkey, hlt⟩ := of_decide_eq_true hseen
      obtain ⟨l₁, h₁, rfl⟩ := List.append_of_mem hb
      refine absurd (hall _ _ _ _ hrun h₁ (a :: l₁) _ t response st r rfl a
        List.mem_cons_self u' ?_) (not_le.mpr hlt)
      rw [hkey]
      exact hret
    · cases hseen

end CCSim
