/-
# Lock calls are tail calls, but for one

A handler that has asked for a lock, or given one back, goes on in an event of its own, and CPU
time it uses after that is not charged to this event.  The CPU functions mean to forbid it: they
assert that `lock_called` is not set; but nothing ever sets it, so a breach is silent.

`gr` keeps to the rule.  `grv` breaks it where a server forwards a GET
(`grv_process_get_request`): there `gr` returns after `cpu_lock_lock`, and `grv` falls through to
`grv_update_gst_vector`, which the handler with the lock calls again.
-/
import CCSim.Gr.Calls
import CCSim.Grv.Calls
import CCSim.Replay

namespace CCSim

/-- **Lock calls are tail calls.**  After a handler of `gr` has called `cpu_lock_lock` or
`cpu_lock_unlock`, it neither uses CPU time nor hands anything over, and makes no other lock call.
The same holds in `grv` except for the forwarding of a GET with a newer vector, where it fails. -/
theorem lock_calls_last (c : Cluster) (ignoreInitialSeconds : ℚ) (keys : List Key)
    (self : ServerId c) :
    (∀ (sizes : Sizes (GrEvent c)) (st : GrServerState c) (e : GrEvent c),
      LocksLast (grCalls sizes ignoreInitialSeconds keys self st e)) ∧
    ∀ (sizes : Sizes (GrvEvent c)) (st : GrvServerState c) (e : GrvEvent c),
      LocksLast (grvCalls sizes ignoreInitialSeconds keys self st e) ↔ ¬GrvGoesOn self st e :=
  ⟨fun _ _ e => grCalls_locksLast e, fun _ _ e => grvCalls_locksLast_iff e⟩

/-- A client of partition 0 asks for key 1, which partition 1 holds, and knows a newer vector. -/
def newerGet : GrvGetRequest duo where
  client := clientAt duo 0 0 0
  proxy := none
  key := 1
  gstVector _ := 1
  past := []

/-- The server forwards the request, asks for the lock, and then uses CPU time. -/
theorem forwarding_goes_on :
    (grvProcessEvent (serverAt duo 0 0) (grvInitState duo) (.getRequest newerGet)).isSome ∧
      ¬LocksLast (grvCalls (byteSizes _) 0 [] (serverAt duo 0 0) (grvInitState duo)
        (.getRequest newerGet)) := by
  refine ⟨by decide +kernel, fun hlast => ?_⟩
  exact (grvCalls_locksLast_iff _).mp hlast ⟨by decide +kernel, rfl, by decide +kernel⟩

end CCSim
