/-
# A sequential server

A server that works on one thing at a time, as a specification.  What arrives starts a chain of
handler calls, if the server is at rest, and else waits.  A call says with what its chain goes on;
when a chain is over the server takes what has waited longest, or rests.

`Sequential.Run.chains` and `Sequential.Run.inOrder` are what such a server guarantees: calls of
different chains do not mix, and chains start in order of arrival.
-/
import Mathlib.Data.List.Chain

namespace CCSim

variable {E : Type}

/-! ## 1. The server -/

/-- One call of a handler, and with what its chain goes on. -/
structure Call (E : Type) where
  event : E
  next : Option E
  deriving DecidableEq

/-- What waits, in order of arrival, and what comes next in the chain that is under way. -/
structure Sequential (E : Type) where
  waiting : List E
  chain : Option (Option E)

/-- A server at rest. -/
def Sequential.atRest : Sequential E := ⟨[], none⟩

/-- One step, with what arrives and the call that is made in it. -/
inductive Sequential.Step : Sequential E → Option E → Option (Call E) → Sequential E → Prop
  | start (e : E) (n : Option E) :
      Sequential.Step ⟨[], none⟩ (some e) (some ⟨e, n⟩) ⟨[], some n⟩
  | queue (w : List E) (c : Option E) (e : E) :
      Sequential.Step ⟨w, some c⟩ (some e) none ⟨w ++ [e], some c⟩
  | goOn (w : List E) (e : E) (n : Option E) :
      Sequential.Step ⟨w, some (some e)⟩ none (some ⟨e, n⟩) ⟨w, some n⟩
  | next (w : List E) (e : E) (n : Option E) :
      Sequential.Step ⟨e :: w, some none⟩ none (some ⟨e, n⟩) ⟨w, some n⟩
  | rest : Sequential.Step ⟨[], some none⟩ none none ⟨[], none⟩

/-- A run, with what arrived and the calls that were made, the latest first. -/
inductive Sequential.Run : List E → List (Call E) → Sequential E → Prop
  | nil : Sequential.Run [] [] .atRest
  | cons {arrived : List E} {calls : List (Call E)} {q q' : Sequential E} {a : Option E}
      {c : Option (Call E)} (hrun : Sequential.Run arrived calls q)
      (hstep : Sequential.Step q a c q') :
      Sequential.Run (a.toList ++ arrived) (c.toList ++ calls) q'

/-! ## 2. What it guarantees -/

/-- What the latest call goes on with. -/
def goesOn (calls : List (Call E)) : Option E := calls.head?.bind Call.next

/-- The events with which chains started, the latest first: those of the calls that no call
before them goes on with. -/
def starts : List (Call E) → List E
  | [] => []
  | c :: calls => if (goesOn calls).isNone then c.event :: starts calls else starts calls

/-- `c` is what the call `b` before it goes on with, if `b` goes on. -/
def Call.Follows (c b : Call E) : Prop := ∀ e ∈ b.next, c.event = e

/-- The specification in terms of what arrived and what was called. -/
structure Sequential.Explained (arrived : List E) (calls : List (Call E)) (q : Sequential E) :
    Prop where
  goesOn : CCSim.goesOn calls = q.chain.join
  idle : q.chain = none → q.waiting = []
  chains : calls.IsChain Call.Follows
  inOrder : arrived = q.waiting.reverse ++ starts calls

/-- A call that the calls before it allow extends the chains. -/
theorem isChain_cons {c : Call E} {calls : List (Call E)} (h : calls.IsChain Call.Follows)
    (hc : ∀ e ∈ goesOn calls, c.event = e) : (c :: calls).IsChain Call.Follows := by
  cases calls with
  | nil => exact .singleton c
  | cons b calls => exact .cons_cons hc h

/-- Every step keeps the explanation. -/
theorem Sequential.Step.explained {arrived : List E} {calls : List (Call E)}
    {q q' : Sequential E} {a : Option E} {c : Option (Call E)} (hstep : Sequential.Step q a c q')
    (h : Sequential.Explained arrived calls q) :
    Sequential.Explained (a.toList ++ arrived) (c.toList ++ calls) q' := by
  have hgo := h.goesOn
  have horder := h.inOrder
  cases hstep with
  | start e n =>
    refine ⟨rfl, by simp, isChain_cons h.chains (by simp [hgo]), ?_⟩
    simpa [starts, hgo] using horder
  | queue w n e =>
    refine ⟨hgo, by simp, h.chains, ?_⟩
    simpa using horder
  | goOn w e n =>
    refine ⟨rfl, by simp, isChain_cons h.chains (by simp [hgo]), ?_⟩
    simpa [starts, hgo] using horder
  | next w e n =>
    refine ⟨rfl, by simp, isChain_cons h.chains (by simp [hgo]), ?_⟩
    simpa [starts, hgo] using horder
  | rest => exact ⟨hgo, fun _ => rfl, h.chains, horder⟩

theorem Sequential.Run.explained {arrived : List E} {calls : List (Call E)} {q : Sequential E}
    (hrun : Sequential.Run arrived calls q) : Sequential.Explained arrived calls q := by
  induction hrun with
  | nil => exact ⟨rfl, fun _ => rfl, .nil, rfl⟩
  | cons _ hstep ih => exact hstep.explained ih

/-- **Chains do not mix**: the call after one that goes on is what it goes on with. -/
theorem Sequential.Run.chains {arrived : List E} {calls : List (Call E)} {q : Sequential E}
    (hrun : Sequential.Run arrived calls q) : calls.IsChain Call.Follows :=
  hrun.explained.chains

/-- **Chains start in order of arrival**, and what has not started waits in that order. -/
theorem Sequential.Run.inOrder {arrived : List E} {calls : List (Call E)} {q : Sequential E}
    (hrun : Sequential.Run arrived calls q) : arrived = q.waiting.reverse ++ starts calls :=
  hrun.explained.inOrder

end CCSim
