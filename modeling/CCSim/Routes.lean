/-
# Between whom messages travel

The network delays are `DISCONNECTED` until the `INIT` events of servers and clients set them
(`server_init`, `client_init`, `network_set_delay`): a server is connected to the servers of its
replica and to those of its partition, a client to the server of its partition, which is the one it is
tied to.  What is routed along these links is a request of a client: it is at the server of the
client, or that server, its proxy, has forwarded it to the server that holds the key.
-/
import CCSim.Setup

namespace CCSim

variable {c : Cluster}

/-! ## 1. The delays -/

/-- The parameters of the network that are delays. -/
structure NetworkDelays (c : Cluster) where
  intraDatacenterDelay : ℚ
  selfDelay : ℚ
  interDatacenterDelay : Replica c → Replica c → ℚ
  intra_nonneg : 0 ≤ intraDatacenterDelay
  self_nonneg : 0 ≤ selfDelay
  inter_nonneg : ∀ r r', 0 ≤ interDatacenterDelay r r'

/-- `network_delay` after all `INIT` events, `none` being `DISCONNECTED`. -/
def NetworkDelays.networkDelay (d : NetworkDelays c) :
    ServerId c ⊕ ClientId c → ServerId c ⊕ ClientId c → Option ℚ
  | .inl s, .inl s' =>
    if s' = s then some d.selfDelay
    else if s'.1 = s.1 then some d.intraDatacenterDelay
    else if s'.2 = s.2 then some (d.interDatacenterDelay s.1 s'.1)
    else none
  | .inl s, .inr k => if k.server = s then some d.intraDatacenterDelay else none
  | .inr k, .inl s => if k.server = s then some d.intraDatacenterDelay else none
  | .inr _, .inr _ => none

/-- The processes that are connected. -/
def Linked : ServerId c ⊕ ClientId c → ServerId c ⊕ ClientId c → Prop
  | .inl s, .inl s' => s'.1 = s.1 ∨ s'.2 = s.2
  | .inl s, .inr k => k.server = s
  | .inr k, .inl s => k.server = s
  | .inr _, .inr _ => False

/-- Connected processes have a delay, and it is not negative. -/
theorem Linked.networkDelay {x y : ServerId c ⊕ ClientId c} (h : Linked x y)
    (d : NetworkDelays c) : ∃ delay, d.networkDelay x y = some delay ∧ 0 ≤ delay := by
  cases x with
  | inl s =>
    cases y with
    | inl s' =>
      simp only [NetworkDelays.networkDelay]
      split
      · exact ⟨_, rfl, d.self_nonneg⟩
      · split
        · exact ⟨_, rfl, d.intra_nonneg⟩
        · rename_i hreplica
          exact ⟨_, if_pos (h.resolve_left hreplica), d.inter_nonneg _ _⟩
    | inr k => exact ⟨_, if_pos h, d.intra_nonneg⟩
  | inr k =>
    cases y with
    | inl s => exact ⟨_, if_pos h, d.intra_nonneg⟩
    | inr k' => exact h.elim

/-! ## 2. Requests -/

/-- What a client may ask for. -/
inductive RequestKind
  | get
  | put
  | rotx
  deriving DecidableEq

/-- A request for a key is at the server of its client, or has been forwarded by it to the server
that holds the key. -/
def Routed (s : ServerId c) (client : ClientId c) (proxy : Option (ServerId c)) (key : Key) : Prop :=
  match proxy with
  | none => s = client.server
  | some s' => s' = client.server ∧ s = lpidForKey s' key

/-- Where an answer is sent: to the client, from its own server, or to its own server. -/
def RepliesTo (s : ServerId c) (client : ClientId c) (lpid : Lpid c) : Prop :=
  (lpid = .client client ∧ s = client.server) ∨ (lpid = .server client.server ∧ s.1 = client.1)

section Routed

variable {s : ServerId c} {client : ClientId c} {proxy : Option (ServerId c)} {key : Key}

theorem Routed.replica (h : Routed s client proxy key) : s.1 = client.1 := by
  cases proxy with
  | none => exact congrArg Prod.fst h
  | some s' =>
    obtain ⟨rfl, rfl⟩ := h
    rfl

/-- A request that is forwarded has not been forwarded before. -/
theorem Routed.forward (h : Routed s client none key) :
    Routed (lpidForKey s key) client (some s) key := ⟨h, rfl⟩

/-- **A request is forwarded at most once.** -/
theorem Routed.proxy_eq_none (h : Routed s client proxy key) (hkey : lpidForKey s key ≠ s) :
    proxy = none := by
  cases proxy with
  | none => rfl
  | some s' =>
    obtain ⟨-, rfl⟩ := h
    exact absurd rfl hkey

theorem Routed.repliesTo (h : Routed s client proxy key) :
    RepliesTo s client (replyTo client proxy) := by
  have hreplica := h.replica
  cases proxy with
  | none => exact .inl ⟨rfl, h⟩
  | some s' =>
    obtain ⟨rfl, rfl⟩ := h
    exact .inr ⟨rfl, hreplica⟩

/-- An answer goes along a link. -/
theorem RepliesTo.linked {lpid : Lpid c} (h : RepliesTo s client lpid) :
    (∀ k, lpid = .client k → Linked (.inl s) (.inr k)) ∧
      ∀ s', lpid = .server s' → Linked (.inl s : ServerId c ⊕ ClientId c) (.inl s') := by
  rcases h with ⟨rfl, hs⟩ | ⟨rfl, hs⟩
  · exact ⟨by rintro k ⟨⟩; exact hs.symm, by rintro s' ⟨⟩⟩
  · exact ⟨by rintro k ⟨⟩, by rintro s' ⟨⟩; exact .inl hs.symm⟩

end Routed

end CCSim
