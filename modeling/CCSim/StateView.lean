/-
# State ids, whatever the protocol

A server keeps the requests that it works on in the slots of a `ptr_array_t`, and refers to them by
the number of the slot: in the events it ends a handler with, in the messages it sends, and in other
slots.  A slot is taken again once it is free, so an id must not outlive the object that it was issued
for.  A protocol is looked at here through a `StateView`.  What has to be proved of it in every state of
a run is little: ids refer to slots in use, and a handler that changes what is in a slot takes a free
one or frees it.  The rest follows (`Mail.Run.never_stale`): when a slot is taken or has been freed
nothing refers to it, so every id is for the object that is in its slot.
-/
import CCSim.Cluster
import CCSim.Lib.Gather
import CCSim.Lib.Mail

namespace CCSim

variable {c : Cluster} {E σ κ χ O : Type}

/-! ## 1. Slots -/

/-- What servers keep in slots, an array for each of them. -/
inductive StateKind
  | get
  | put
  | snapshot
  | rotx
  deriving DecidableEq

/-- A slot of a server. -/
structure Slot (c : Cluster) where
  server : ServerId c
  kind : StateKind
  id : ℕ
  deriving DecidableEq

/-- How ids and slots are read off the events and states of a protocol. -/
structure StateView (c : Cluster) (E σ O : Type) where
  /-- The slot whose id an event carries, at the place where it is. -/
  refers : (ServerId c ⊕ ClientId c) × E → Option (Slot c)
  /-- What was written into the object of a slot when it was made. -/
  object : σ → StateKind → ℕ → Option O
  /-- The id of the slot is in an object of another slot. -/
  carried : σ → StateKind → ℕ → Prop
  /-- The object needs no event: it is a transaction that waits for the stable time, or has no
  keys. -/
  idle : σ → StateKind → ℕ → Prop

namespace StateView

variable (view : StateView c E σ O)

/-- What is in a slot. -/
def objectAt (M : Mail (ServerId c) (ClientId c) E σ κ) (slot : Slot c) : Option O :=
  view.object (M.server slot.server) slot.kind slot.id

/-- The object that a handler call puts into a free slot. -/
def made (slot : Slot c) : Act (ServerId c) (ClientId c) E σ κ → Option O
  | .server s _ _ st r =>
    if s = slot.server ∧ (view.object st slot.kind slot.id).isNone then
      view.object r.state slot.kind slot.id
    else none
  | .client _ _ _ _ _ => none

/-- A handler call frees a slot in use. -/
def freed (slot : Slot c) : Act (ServerId c) (ClientId c) E σ κ → Bool
  | .server s _ _ st r => decide (s = slot.server) && (view.object st slot.kind slot.id).isSome &&
      (view.object r.state slot.kind slot.id).isNone
  | .client _ _ _ _ _ => false

/-- Nothing in flight and no other object carries the id of the slot. -/
structure Unreferred (M : Mail (ServerId c) (ClientId c) E σ κ) (slot : Slot c) : Prop where
  events : ∀ x ∈ M.events, view.refers x ≠ some slot
  objects : ¬view.carried (M.server slot.server) slot.kind slot.id

/-- The object in a slot is the one that all ids of the slot were issued for: a handler call put it
there when nothing carried the id, and no call since then has taken or freed the slot. -/
inductive Issued (P : Program (ServerId c) (ClientId c) E σ κ χ)
    (M₀ M : Mail (ServerId c) (ClientId c) E σ κ) (h : List (Act (ServerId c) (ClientId c) E σ κ))
    (slot : Slot c) : Prop
  | intro {later past : List (Act (ServerId c) (ClientId c) E σ κ)}
      {a : Act (ServerId c) (ClientId c) E σ κ} {N : Mail (ServerId c) (ClientId c) E σ κ} {x : O}
      (hh : h = later ++ a :: past) (hrun : Mail.Run P (fun _ => True) M₀ N past)
      (hunreferred : view.Unreferred N slot) (hmade : view.made slot a = some x)
      (hsince : ∀ b ∈ later, view.made slot b = none ∧ view.freed slot b = false)
      (hobject : view.objectAt M slot = some x)

/-- What a handler call does with a slot of its server: nothing, or it takes it when it is free and
nothing carries its id, or it frees the object in it and leaves nothing that carries its id. -/
inductive Handled (M M' : Mail (ServerId c) (ClientId c) E σ κ) (slot : Slot c) : Prop
  | same (hsame : view.objectAt M' slot = view.objectAt M slot)
  | taken (hfree : view.objectAt M slot = none) (hunreferred : view.Unreferred M slot)
      (hlive : (view.objectAt M' slot).isSome)
  | freed (hlive : (view.objectAt M slot).isSome) (hfree : view.objectAt M' slot = none)
      (hunreferred : view.Unreferred M' slot)

/-- **Ids are never stale.**  In a state `M` of a run, after the handler calls `h`. -/
structure NeverStale (P : Program (ServerId c) (ClientId c) E σ κ χ)
    (M₀ M : Mail (ServerId c) (ClientId c) E σ κ)
    (h : List (Act (ServerId c) (ClientId c) E σ κ)) : Prop where
  /-- An id in flight, or in an object, is for the object in its slot. -/
  events : ∀ x ∈ M.events, ∀ slot ∈ view.refers x, view.Issued P M₀ M h slot
  objects : ∀ slot, view.carried (M.server slot.server) slot.kind slot.id →
    view.Issued P M₀ M h slot
  /-- A step takes slots that are free, and frees objects that nothing refers to any more. -/
  handled : ∀ a M', Mail.Step P M a M' → ∀ slot, view.Handled M M' slot
  /-- What was put into a slot was freed once, or is still there. -/
  counts : ∀ slot, (h.filterMap (view.made slot)).length =
    (h.countP (view.freed slot)) + (view.objectAt M slot).toList.length
  /-- No object is forgotten. -/
  kept : ∀ slot, (view.objectAt M slot).isSome → ¬view.Unreferred M slot ∨
    view.idle (M.server slot.server) slot.kind slot.id

/-- What has to be proved of a protocol, in a state of a run: nothing refers to a free slot, and
something refers to a slot in use. -/
structure Accounted (M : Mail (ServerId c) (ClientId c) E σ κ) : Prop where
  free : ∀ slot, view.objectAt M slot = none → view.Unreferred M slot
  kept : ∀ slot, (view.objectAt M slot).isSome → ¬view.Unreferred M slot ∨
    view.idle (M.server slot.server) slot.kind slot.id

/-- And of every handler call: what is in a slot is not replaced. -/
def Keeps (st st' : σ) : Prop :=
  ∀ kind id, view.object st' kind id = view.object st kind id ∨ view.object st kind id = none ∨
    view.object st' kind id = none

variable {view} {M : Mail (ServerId c) (ClientId c) E σ κ} {slot : Slot c}

theorem Accounted.live (hM : view.Accounted M) (hreferred : ¬view.Unreferred M slot) :
    (view.objectAt M slot).isSome := by
  by_contra hfree
  exact hreferred (hM.free slot (Option.not_isSome_iff_eq_none.mp hfree))

end StateView

/-! ## 2. Every run -/

section Runs

variable {view : StateView c E σ O} {P : Program (ServerId c) (ClientId c) E σ κ χ}
  {M₀ M M' : Mail (ServerId c) (ClientId c) E σ κ}
  {h : List (Act (ServerId c) (ClientId c) E σ κ)} {slot : Slot c}
  {a : Option (Act (ServerId c) (ClientId c) E σ κ)}

/-- How a step changes what is in a slot: not at all, or it is a handler call that takes the slot or
frees it. -/
inductive StateView.Moves (view : StateView c E σ O) (slot : Slot c) (before after : Option O) :
    Option (Act (ServerId c) (ClientId c) E σ κ) → Prop
  | same {a : Option (Act (ServerId c) (ClientId c) E σ κ)} (hsame : after = before)
      (hmade : ∀ b ∈ a, view.made slot b = none) (hfreed : ∀ b ∈ a, view.freed slot b = false) :
      Moves view slot before after a
  | made {b : Act (ServerId c) (ClientId c) E σ κ} {x : O} (hbefore : before = none)
      (hafter : after = some x) (hmade : view.made slot b = some x)
      (hfreed : view.freed slot b = false) : Moves view slot before after (some b)
  | freed {b : Act (ServerId c) (ClientId c) E σ κ} {x : O} (hbefore : before = some x)
      (hafter : after = none) (hmade : view.made slot b = none)
      (hfreed : view.freed slot b = true) : Moves view slot before after (some b)

theorem StateView.Keeps.moves {s : ServerId c} {t : ℚ} {e : E} {st : σ}
    {r : Outcome (ServerId c) (ClientId c) E σ} (hkeeps : view.Keeps st r.state)
    (hs : slot.server = s) :
    view.Moves (κ := κ) slot (view.object st slot.kind slot.id)
      (view.object r.state slot.kind slot.id) (some (.server s t e st r)) := by
  have hcases := hkeeps slot.kind slot.id
  cases hbefore : view.object st slot.kind slot.id with
  | none =>
    cases hafter : view.object r.state slot.kind slot.id with
    | none =>
      exact .same rfl (by simp [StateView.made, hafter]) (by simp [StateView.freed, hbefore])
    | some x =>
      exact .made rfl rfl (by simp [StateView.made, hbefore, hafter, hs])
        (by simp [StateView.freed, hbefore])
  | some x =>
    cases hafter : view.object r.state slot.kind slot.id with
    | none =>
      exact .freed rfl rfl (by simp [StateView.made, hbefore])
        (by simp [StateView.freed, hbefore, hafter, hs])
    | some y =>
      rw [hbefore, hafter] at hcases
      have hsame : some y = some x := by simpa using hcases
      exact .same hsame (by simp [StateView.made, hbefore]) (by simp [StateView.freed, hafter])

/-- **The step lemma.** -/
theorem Mail.Step.moves (hs : Mail.Step P M a M')
    (hkeeps : ∀ {s t e r}, (.inl s, e) ∈ M.events → P.serve s t (M.server s) e = some r →
      view.Keeps (M.server s) r.state) (slot : Slot c) :
    view.Moves slot (view.objectAt M slot) (view.objectAt M' slot) a := by
  cases hs with
  | wait => exact .same rfl (by rintro _ ⟨⟩) (by rintro _ ⟨⟩)
  | client =>
    refine .same rfl ?_ ?_ <;>
    · rintro _ ⟨⟩
      rfl
  | @serve s t e r mail hev ht hserve =>
    by_cases hserver : slot.server = s
    · have hmoves := (hkeeps (by rw [hev]; exact Multiset.mem_cons_self _ _) hserve).moves
        (κ := κ) (t := t) (e := e) hserver
      simp only [StateView.objectAt, hserver, Function.update_self]
      exact hmoves
    · refine .same ?_ ?_ ?_
      · simp only [StateView.objectAt, Function.update_of_ne hserver]
      · rintro _ ⟨⟩
        simp [StateView.made, Ne.symm hserver]
      · rintro _ ⟨⟩
        simp [StateView.freed, Ne.symm hserver]

/-- What is in a slot is what the last handler call that took it has put there. -/
theorem Mail.Run.issued (hstart : ∀ slot, view.objectAt M₀ slot = none)
    (haccounted : ∀ {M h}, Mail.Run P (fun _ => True) M₀ M h → view.Accounted M)
    (hkeeps : ∀ {M h s t e r}, Mail.Run P (fun _ => True) M₀ M h → (.inl s, e) ∈ M.events →
      P.serve s t (M.server s) e = some r → view.Keeps (M.server s) r.state)
    (hr : Mail.Run P (fun _ => True) M₀ M h) (hslot : (view.objectAt M slot).isSome) :
    view.Issued P M₀ M h slot := by
  induction hr with
  | nil =>
    rw [hstart] at hslot
    cases hslot
  | @cons M M' h a hrun hstep hq ih =>
    cases hstep.moves (fun hmem hserve => hkeeps hrun hmem hserve) slot with
    | same hsame hmade hfreed =>
      obtain ⟨rfl, hbefore, hunreferred, hnew, hsince, hobject⟩ := ih (hsame ▸ hslot)
      refine .intro (List.append_assoc _ _ _).symm hbefore hunreferred hnew (fun b hb => ?_)
        (hsame.trans hobject)
      rcases List.mem_append.mp hb with hb | hb
      · exact ⟨hmade b (Option.mem_toList.mp hb), hfreed b (Option.mem_toList.mp hb)⟩
      · exact hsince b hb
    | made hbefore hafter hmade =>
      exact .intro rfl hrun ((haccounted hrun).free slot hbefore) hmade (List.forall_mem_nil _) hafter
    | freed _ hafter =>
      rw [hafter] at hslot
      cases hslot

/-- What was put into a slot was freed once, or is still there. -/
theorem Mail.Run.made_length (hstart : ∀ slot, view.objectAt M₀ slot = none)
    (hkeeps : ∀ {M h s t e r}, Mail.Run P (fun _ => True) M₀ M h → (.inl s, e) ∈ M.events →
      P.serve s t (M.server s) e = some r → view.Keeps (M.server s) r.state)
    (hr : Mail.Run P (fun _ => True) M₀ M h) (slot : Slot c) :
    (h.filterMap (view.made slot)).length =
      (h.countP (view.freed slot)) + (view.objectAt M slot).toList.length := by
  induction hr with
  | nil =>
    rw [hstart]
    rfl
  | @cons M M' h a hrun hstep hq ih =>
    cases hstep.moves (fun hmem hserve => hkeeps hrun hmem hserve) slot with
    | same hsame hmade hfreed =>
      rw [hsame]
      cases a with
      | none => exact ih
      | some b =>
        have hone := hmade b rfl
        have htwo := hfreed b rfl
        simp only [Option.toList_some, List.singleton_append, List.countP_cons, htwo,
          List.filterMap_cons, hone, ih]
        rfl
    | made hbefore hafter hmade hfreed =>
      rw [hbefore] at ih
      simp only [Option.toList_some, List.singleton_append, List.countP_cons, hfreed,
        List.filterMap_cons, hmade, hafter, List.length_cons, ih]
      rfl
    | freed hbefore hafter hmade hfreed =>
      rw [hbefore] at ih
      simp only [Option.toList_some, List.singleton_append, List.countP_cons, hfreed,
        List.filterMap_cons, hmade, hafter, ih]
      rfl

/-- **In every run ids are never stale**, if in all its states they refer to slots in use and no
handler call replaces what is in a slot. -/
theorem Mail.Run.never_stale (hstart : ∀ slot, view.objectAt M₀ slot = none)
    (haccounted : ∀ {M h}, Mail.Run P (fun _ => True) M₀ M h → view.Accounted M)
    (hkeeps : ∀ {M h s t e r}, Mail.Run P (fun _ => True) M₀ M h → (.inl s, e) ∈ M.events →
      P.serve s t (M.server s) e = some r → view.Keeps (M.server s) r.state)
    (hr : Mail.Run P (fun _ => True) M₀ M h) : view.NeverStale P M₀ M h where
  events x hx slot hslot := hr.issued hstart haccounted hkeeps
    ((haccounted hr).live fun hunreferred => hunreferred.events x hx hslot)
  objects slot hcarried := hr.issued hstart haccounted hkeeps
    ((haccounted hr).live fun hunreferred => hunreferred.objects hcarried)
  handled a M' hstep slot := by
    have hnext : view.Accounted M' := haccounted (hr.cons hstep fun _ _ => trivial)
    cases hstep.moves (fun hmem hserve => hkeeps hr hmem hserve) slot with
    | same hsame => exact .same hsame
    | made hbefore hafter => exact .taken hbefore ((haccounted hr).free slot hbefore) (hafter ▸ rfl)
    | freed hbefore hafter => exact .freed (hbefore ▸ rfl) hafter (hnext.free slot hafter)
  counts := hr.made_length hstart hkeeps
  kept := (haccounted hr).kept

end Runs

end CCSim
