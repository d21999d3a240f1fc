import MobileIP.Router
import MobileIP.RouteRuns

/-! The agents' routers as a whole: the check of the header, the classifier `regs`, the routing
table and what is connected to its outputs. The results are about the way of a datagram from
the home agent through the tunnel to the network of the foreign agent. -/
namespace MobileIP

open LittleEndian OnesComplement VectorSearch LinearIPLookup

/-- The pattern `src or dst udp port 434`. It needs the first fragment, and the bytes that it
compares. -/
def registrationPort (p : Packet) : Bool :=
  let t := ipPayload p
  (ipHeader p).ipP == 17 && fragOffset p == 0 &&
    (decide (2 ≤ t.length) && u16At t 0 == htons 434 || decide (4 ≤ t.length) && u16At t 2 == htons 434)

/-- The pattern `icmp type unreachable`. -/
def icmpUnreachable (p : Packet) : Bool :=
  let t := ipPayload p
  (ipHeader p).ipP == 1 && fragOffset p == 0 && decide (1 ≤ t.length) && byteAt t 0 == 3

/-- Where a packet leaves a router: on one of its networks, at its host, or at an `ICMPError`. -/
inductive Outlet where
  | privateNet
  | publicNet
  | host
  | redirect
  | problem (oi : ℕ)
  | expired
  | tooBig
  deriving DecidableEq, Repr

/-- A packet from a link, behind `Strip(14)`, and what the router reads beside it. -/
structure Arrival where
  packet : Packet
  ether : Ether
  annos : Annos
  ms : UInt32
  random : UInt16
  rand : ℕ

/-- The parameters of an agent's script; each address comes with the mask of its network. -/
structure Agent where
  privateAddress : IPAddress
  privateMask : IPAddress
  publicAddress : IPAddress
  publicMask : IPAddress
  gateway : IPAddress

def PathOutput.errors (r : PathOutput) : List (Outlet × Packet) :=
  r.redirects.map (fun q => (.redirect, q)) ++ (r.problems.map (fun e => (.problem e.2, e.1)) ++
    (r.expired.map (fun q => (.expired, q)) ++ r.tooBig.map (fun q => (.tooBig, q))))

namespace Agent

def routes (a : Agent) : List (Option RouteWords) :=
  [some ⟨a.privateAddress, 0xFFFFFFFF, 0, 0⟩, some ⟨a.publicAddress, 0xFFFFFFFF, 0, 0⟩,
    some ⟨a.privateAddress, a.privateMask, 0, 1⟩, some ⟨a.publicAddress, a.publicMask, 0, 2⟩,
    some ⟨0, 0, a.gateway, 2⟩]

def table (a : Agent) : LinearIPLookup := (configure 3 a.routes).1

def privatePath (a : Agent) : ForwardPath := ⟨a.privateAddress, 1⟩

def publicPath (a : Agent) : ForwardPath := ⟨a.publicAddress, 2⟩

end Agent

structure HomeRouter where
  table : LinearIPLookup
  ha : HA

namespace HomeRouter

def start (a : Agent) : HomeRouter := ⟨a.table, ⟨a.privateAddress, []⟩⟩

/-- `Agent[0]` and `Agent[1]` behind the private path. -/
def tunnel (a : Agent) (ha : HA) (q : Packet) : List (Outlet × Packet) :=
  let acts := HA.push ha q
  (outputs 0 acts).map (fun q => (.privateNet, q)) ++
    ((outputs 1 acts).flatMap (fun q => outputs 0 (Encapsulator.push ha a.publicAddress q))).map
      (fun q => (.publicNet, q))

/-- The outputs of `rt`. -/
def forward (a : Agent) (ha : HA) (x : Arrival) (port : ℤ) (p : Packet) : List (Outlet × Packet) :=
  if port = 0 then [(.host, p)]
  else if port = 1 then
    let r := a.privatePath.run x.annos x.ms x.random p
    r.sent.flatMap (tunnel a ha) ++ r.errors
  else
    let r := a.publicPath.run x.annos x.ms x.random p
    r.sent.map (fun q => (.publicNet, q)) ++ r.errors

def step (a : Agent) (s : HomeRouter) (x : Arrival) : HomeRouter × List (Outlet × Packet) :=
  match CheckIPHeader.simpleAction x.packet with
  | none => (s, [])
  | some (p, _) =>
    if registrationPort p then
      let r := RegRep.push s.ha p
      ({ s with ha := r.1 }, (outputs 0 r.2).map (fun q => (.privateNet, q)) ++
        (outputs 1 r.2).map (fun q => (.publicNet, q)))
    else
      let r := LinearIPLookup.push s.table p
      ({ s with table := r.1 }, r.2.toList.flatMap (fun o => forward a s.ha x o.1 o.2))

end HomeRouter

structure ForeignRouter where
  table : LinearIPLookup
  fa : FA

namespace ForeignRouter

inductive Input where
  | packet (x : Arrival)
  -- the timer of `Relay`
  | tick

def start (a : Agent) : ForeignRouter := ⟨a.table, ⟨a.publicAddress, [], []⟩⟩

/-- `rt[0]`: a packet of the tunnel loses its outer header and is checked once more. -/
def arrived (p : Packet) : List (Outlet × Packet) :=
  let acts := CheckEncap.push p
  (outputs 0 acts).flatMap (fun q =>
      ((CheckIPHeader.simpleAction (StripIPHeader.simpleAction q (headerLength q))).map
        (fun r => (.privateNet, r.1))).toList) ++
    (outputs 1 acts).map (fun q => (.host, q))

def forward (a : Agent) (x : Arrival) (port : ℤ) (p : Packet) : List (Outlet × Packet) :=
  if port = 0 then arrived p
  else if port = 1 then
    let r := a.privatePath.run x.annos x.ms x.random p
    r.sent.map (fun q => (.privateNet, q)) ++ r.errors
  else
    let r := a.publicPath.run x.annos x.ms x.random p
    r.sent.map (fun q => (.publicNet, q)) ++ r.errors

/-- A packet enters `rt`. -/
def route (a : Agent) (x : Arrival) (table : LinearIPLookup) (p : Packet) :
    LinearIPLookup × List (Outlet × Packet) :=
  let r := LinearIPLookup.push table p
  (r.1, r.2.toList.flatMap (fun o => forward a x o.1 o.2))

/-- The two outputs of `Relay`. -/
def relayed (a : Agent) (x : Arrival) (table : LinearIPLookup) (acts : List Action) :
    LinearIPLookup × List (Outlet × Packet) :=
  let replies := (outputs 0 acts).filterMap SetIPChecksum.simpleAction
  let requests := (outputs 1 acts).filterMap (fun q => SetIPChecksum.simpleAction q.strip)
  (Runs.final (route a x) table requests,
    replies.map (fun q => (.privateNet, q)) ++ Runs.trace (route a x) table requests)

def step (a : Agent) (relay : Relay) (s : ForeignRouter) :
    Input → ForeignRouter × List (Outlet × Packet)
  | .packet x =>
    match CheckIPHeader.simpleAction x.packet with
    | none => (s, [])
    | some (p, _) =>
      if registrationPort p || icmpUnreachable p then
        let r := Relay.push relay s.fa x.rand (p.frame x.ether.bytes)
        let t := relayed a x s.table r.2
        (⟨t.1, r.1⟩, t.2)
      else
        let t := route a x s.table p
        ({ s with table := t.1 }, t.2)
  | .tick =>
    let r := Relay.runTimer s.fa
    ({ s with fa := r.1 },
      ((outputs 0 r.2).filterMap SetIPChecksum.simpleAction).map (fun q => (.privateNet, q)))

end ForeignRouter

/-- The address that a configured route covers. -/
theorem listed_covers {noutputs : ℕ} {q : Prefix} {v : NextHop} {w : RouteWords} {dst : IPAddress}
    (hl : listed noutputs q (some w) = some v) (hc : matchesPrefix dst q.1 q.2 = true) :
    dst &&& w.mask = w.addr &&& w.mask ∧ q.2 = w.mask := by
  unfold listed at hl
  rw [Option.bind_some] at hl
  split_ifs at hl with hq
  rw [← hq.2.2, matchesPrefix_iff] at hc
  refine ⟨?_, by rw [← hq.2.2]; rfl⟩
  change dst &&& w.mask = w.addr &&& w.mask &&& w.mask at hc
  rw [hc, UInt32.and_assoc, UInt32.and_self]

/-- A configured route is for its own prefix. -/
theorem listed_own {noutputs : ℕ} {w : RouteWords} (h0 : 0 ≤ w.port) (hn : w.port < noutputs) :
    listed noutputs (w.addr &&& w.mask, w.mask) (some w) = some (w.gw, w.port) := by
  unfold listed
  rw [Option.bind_some, if_pos ⟨h0, hn, rfl⟩]

theorem listed_default {noutputs : ℕ} {gw : IPAddress} {port : ℤ} (h0 : 0 ≤ port) (hn : port < noutputs) :
    listed noutputs (0, 0) (some ⟨0, 0, gw, port⟩) = some (gw, port) := by
  have h := listed_own (w := ⟨0, 0, gw, port⟩) h0 hn
  rw [UInt32.and_zero] at h
  exact h

theorem listed_other {noutputs : ℕ} {q : Prefix} {w : RouteWords} (h : w.mask ≠ q.2) :
    listed noutputs q (some w) = none := by
  unfold listed
  rw [Option.bind_some, if_neg]
  rintro ⟨-, -, rfl⟩
  exact h rfl

theorem listed_host {noutputs : ℕ} {q : Prefix} {v : NextHop} {addr gw dst : IPAddress} {port : ℤ}
    (hl : listed noutputs q (some ⟨addr, 0xFFFFFFFF, gw, port⟩) = some v)
    (hc : matchesPrefix dst q.1 q.2 = true) : dst = addr := by
  have hones : ∀ x : IPAddress, x &&& 0xFFFFFFFF = x := fun x => UInt32.and_neg_one
  have hm := (listed_covers hl hc).1
  rw [hones, hones] at hm
  exact hm

/-- The route of a router's own address leads to its host. -/
theorem listed_self {noutputs : ℕ} (h0 : 0 < noutputs) (addr : IPAddress) :
    listed noutputs (addr, 0xFFFFFFFF) (some ⟨addr, 0xFFFFFFFF, 0, 0⟩) = some (0, 0) := by
  have hones : addr &&& 0xFFFFFFFF = addr := UInt32.and_neg_one
  have hport : (0 : ℤ) < noutputs := by omega
  unfold listed
  rw [Option.bind_some, if_pos ⟨Int.le_refl 0, hport, Prod.ext hones rfl⟩]

namespace LinearIPLookup

variable {noutputs : ℕ} {routes : List (Option RouteWords)} {s : LinearIPLookup}

/-- A table with the configured routes, whatever it has cached. -/
structure Keeps (noutputs : ℕ) (routes : List (Option RouteWords)) (s : LinearIPLookup) : Prop where
  inv : Inv noutputs s
  routes : live s.t = mapConfigure noutputs routes

theorem keeps_configure (noutputs : ℕ) (routes : List (Option RouteWords)) :
    Keeps noutputs routes (configure noutputs routes).1 :=
  ⟨inv_configure noutputs routes, configure_refines noutputs routes⟩

theorem Keeps.push (h : Keeps noutputs routes s) (p : Packet) :
    Keeps noutputs routes (LinearIPLookup.push s p).1 := by
  obtain ⟨hinv, ht, -⟩ := h.inv.push_spec p
  exact ⟨hinv, by rw [ht, h.routes]⟩

/-- A router whose steps do nothing to its table but look up in it keeps the routes. -/
theorem Keeps.run {σ ι ω : Type*} (step : σ → ι → σ × List ω) (table : σ → LinearIPLookup) (s₀ : σ)
    (h₀ : Keeps noutputs routes (table s₀))
    (hstep : ∀ s i, Keeps noutputs routes (table s) → Keeps noutputs routes (table (step s i).1))
    (inputs : List ι) : Keeps noutputs routes (table (Runs.final step s₀ inputs)) :=
  Runs.history_invariant step s₀ (fun _ _ s => Keeps noutputs routes (table s)) h₀
    (fun _ i h => hstep _ i h) inputs

/-- What is for a router's own address goes to its host. -/
theorem Keeps.to_self (h : Keeps noutputs routes s) (p : Packet) (h0 : p.dstIpAnno ≠ 0)
    (hown : mapConfigure noutputs routes (p.dstIpAnno, 0xFFFFFFFF) = some (0, 0)) :
    (LinearIPLookup.push s p).2 = some (0, p) := by
  have hrouted := h.inv.pushPlain_routed p (Or.inl h0)
  rw [h.routes] at hrouted
  rw [(h.inv.push_spec p).2.2]
  refine hrouted.decided (p.dstIpAnno, 0xFFFFFFFF) (0, 0) hown ((matchesPrefix_iff _ _ _).mpr rfl) ?_
  intro q' v' _ _
  rw [maskAsSpecific_iff, UInt32.and_comm]
  exact UInt32.and_neg_one

end LinearIPLookup

namespace Agent

variable {a : Agent} {s : LinearIPLookup}

theorem keeps_table (a : Agent) : Keeps 3 a.routes a.table := by
  unfold table
  exact keeps_configure 3 a.routes

/-- The address of a host on the private network. -/
structure Serves (a : Agent) (dst : IPAddress) : Prop where
  nonzero : dst ≠ 0
  inside : dst &&& a.privateMask = a.privateAddress &&& a.privateMask
  other : dst ≠ a.privateAddress ∧ dst ≠ a.publicAddress
  outside : dst &&& a.publicMask ≠ a.publicAddress &&& a.publicMask

theorem mem_routes {w : Option RouteWords} (h : w ∈ a.routes) :
    w = some ⟨a.privateAddress, 0xFFFFFFFF, 0, 0⟩ ∨ w = some ⟨a.publicAddress, 0xFFFFFFFF, 0, 0⟩ ∨
      w = some ⟨a.privateAddress, a.privateMask, 0, 1⟩ ∨
      w = some ⟨a.publicAddress, a.publicMask, 0, 2⟩ ∨ w = some ⟨0, 0, a.gateway, 2⟩ := by
  unfold routes at h
  simpa using h

/-- What the routes that cover an address say about it. -/
theorem covering {dst : IPAddress} {q : Prefix} {v : NextHop} (h : mapConfigure 3 a.routes q = some v)
    (hc : matchesPrefix dst q.1 q.2 = true) :
    dst = a.privateAddress ∨ dst = a.publicAddress ∨ q.2 = a.privateMask ∨
      dst &&& a.publicMask = a.publicAddress &&& a.publicMask ∨ q.2 = 0 := by
  rw [mapConfigure_apply] at h
  obtain ⟨w, hw, hl⟩ := List.exists_of_findSome?_eq_some h
  rcases mem_routes hw with rfl | rfl | rfl | rfl | rfl
  · exact Or.inl (listed_host hl hc)
  · exact Or.inr (Or.inl (listed_host hl hc))
  · exact Or.inr (Or.inr (Or.inl (listed_covers hl hc).2))
  · exact Or.inr (Or.inr (Or.inr (Or.inl (listed_covers hl hc).1)))
  · exact Or.inr (Or.inr (Or.inr (Or.inr (listed_covers hl hc).2)))

theorem to_private (h : Keeps 3 a.routes s) (p : Packet) (hd : a.Serves p.dstIpAnno) :
    (LinearIPLookup.push s p).2 = some (1, p) := by
  have hrouted := h.inv.pushPlain_routed p (Or.inl hd.nonzero)
  rw [h.routes] at hrouted
  rw [(h.inv.push_spec p).2.2]
  refine hrouted.decided (a.privateAddress &&& a.privateMask, a.privateMask) (0, 1) ?_ ?_ ?_
  · -- neither of the host routes is for the whole network
    have hhost (x : IPAddress) : listed 3 (a.privateAddress &&& a.privateMask, a.privateMask)
        (some ⟨x, 0xFFFFFFFF, 0, 0⟩) = none := by
      refine listed_other ?_
      intro hm
      dsimp only at hm
      have hin := hd.inside
      rw [← hm] at hin
      exact hd.other.1 ((UInt32.and_neg_one).symm.trans (hin.trans UInt32.and_neg_one))
    have hown : listed 3 (a.privateAddress &&& a.privateMask, a.privateMask)
        (some ⟨a.privateAddress, a.privateMask, 0, 1⟩) = some (0, 1) :=
      listed_own (show (0 : ℤ) ≤ 1 by decide) (show (1 : ℤ) < 3 by decide)
    rw [mapConfigure_apply]
    unfold Agent.routes
    rw [List.findSome?_cons, hhost, List.findSome?_cons, hhost, List.findSome?_cons, hown]
  · rw [matchesPrefix_iff, hd.inside, UInt32.and_assoc, UInt32.and_self]
  · intro q' v' hq' hc'
    rcases covering hq' hc' with h1 | h1 | h1 | h1 | h1
    · exact absurd h1 hd.other.1
    · exact absurd h1 hd.other.2
    · rw [h1]
      exact maskAsSpecific_refl _
    · exact absurd h1 hd.outside
    · rw [h1, maskAsSpecific_iff]
      exact UInt32.and_zero

theorem to_self (h : Keeps 3 a.routes s) (p : Packet) (hd : p.dstIpAnno = a.publicAddress)
    (h0 : a.publicAddress ≠ 0) : (LinearIPLookup.push s p).2 = some (0, p) := by
  apply h.to_self p (by rw [hd]; exact h0)
  rw [hd, mapConfigure_apply]
  unfold Agent.routes
  rw [List.findSome?_cons]
  -- the route of the private address comes first if the two addresses are the same
  cases hfirst : listed 3 (a.publicAddress, 0xFFFFFFFF) (some ⟨a.privateAddress, 0xFFFFFFFF, 0, 0⟩) with
  | some v =>
    unfold listed at hfirst
    rw [Option.bind_some] at hfirst
    split_ifs at hfirst
    exact hfirst.symm
  | none =>
    dsimp only
    rw [List.findSome?_cons, listed_self (by decide)]

end Agent

namespace HomeRouter

theorem keeps_run (a : Agent) (inputs : List Arrival) :
    Keeps 3 a.routes (Runs.final (step a) (start a) inputs).table := by
  refine Keeps.run (step a) HomeRouter.table (start a) ?_ ?_ inputs
  · unfold start
    dsimp only
    exact a.keeps_table
  · intro s x h
    unfold step
    cases CheckIPHeader.simpleAction x.packet with
    | none => exact h
    | some r =>
      dsimp only
      split_ifs
      · exact h
      · exact h.push r.1

end HomeRouter

namespace ForeignRouter

theorem keeps_route (a : Agent) (x : Arrival) (requests : List Packet) (table : LinearIPLookup)
    (h : Keeps 3 a.routes table) : Keeps 3 a.routes (Runs.final (route a x) table requests) :=
  Keeps.run (route a x) id table h (fun _ q h => h.push q) requests

theorem keeps_run (a : Agent) (relay : Relay) (inputs : List Input) :
    Keeps 3 a.routes (Runs.final (step a relay) (start a) inputs).table := by
  refine Keeps.run (step a relay) ForeignRouter.table (start a) ?_ ?_ inputs
  · unfold start
    dsimp only
    exact a.keeps_table
  · intro s i h
    cases i with
    | tick => exact h
    | packet x =>
      unfold step
      dsimp only
      cases CheckIPHeader.simpleAction x.packet with
      | none => exact h
      | some r =>
        dsimp only
        split_ifs
        · exact keeps_route a x _ _ h
        · exact h.push r.1

end ForeignRouter

theorem Checked.wellFormed {p : Packet} (h : Checked p) (hlen : p.data.length ≤ 65515) : WellFormed p :=
  ⟨h.version, h.header, h.header_le, h.total, hlen, h.checksum⟩

/-- The header of a checked packet adds nothing to the sum. -/
theorem Checked.wordSum_data {p : Packet} (h : Checked p) :
    65535 ∣ wordSum p.data ↔ 65535 ∣ wordSum (ipPayload p) := by
  have heven : (p.data.take (headerLength p)).length%2 = 0 := by
    rw [List.length_take, Nat.min_eq_left h.header_le]
    unfold headerLength
    omega
  have hsplit : wordSum p.data = wordSum (p.data.take (headerLength p))+wordSum (ipPayload p) := by
    rw [← wordSum_append _ _ heven]
    exact congrArg wordSum (List.take_append_drop _ _).symm
  have hle := wordSum_le (p.data.take (headerLength p))
  have h60 := headerLength_lt p
  have hlen := List.length_take_le (headerLength p) p.data
  have hhead : 65535 ∣ wordSum (p.data.take (headerLength p)) := by
    have hsum := h.checksum
    rw [clickInCksum_eq_zero_iff _ (by omega), fold16_eq_max_iff _ (by omega)] at hsum
    exact hsum.2
  rw [hsplit]
  exact (Nat.dvd_add_iff_right hhead).symm

namespace Encapsulator

variable (ha : HA) (srcIp : IPAddress) (q : Packet)

/-- An envelope passes the check at the other end exactly if the payload that it carries sums to
zero, whatever the header of the inner packet says. -/
theorem checked_encapsulate_iff (h : Checked q) (hlen : q.data.length ≤ 65515) :
    Checked (encapsulate ha srcIp q) ↔ 65535 ∣ wordSum (ipPayload q) := by
  have hwf := h.wellFormed hlen
  have hip : ipHeader (encapsulate ha srcIp q) = sentHeader ha srcIp q := ofBytes_encapsulate ha srcIp q
  have hhl : headerLength (encapsulate ha srcIp q) = 20 := by
    unfold headerLength
    rw [hip]
    rfl
  have hlength : (encapsulate ha srcIp q).data.length = 20+q.data.length := by
    rw [encapsulate_data, List.length_append, ClickIp.length_toBytes]
  rw [← h.wordSum_data, ← hwf.cksum_eq_zero_iff, ← sentHeader_verifies_iff ha srcIp q hwf]
  constructor
  · intro hc
    have hsum := hc.checksum
    rw [hhl, take_encapsulate] at hsum
    exact hsum
  · intro hsum
    refine ⟨by rw [hip]; rfl, by rw [hip]; exact Nat.le_refl 5, by omega, ?_, ?_⟩
    · rw [hip, hlength]
      exact sentHeader_ipLen ha srcIp q hwf
    · rw [hhl, take_encapsulate]
      exact hsum

/-- What `CheckIPHeader` makes of an envelope. -/
theorem check_encapsulate (h : Checked q) (hlen : q.data.length ≤ 65515) :
    CheckIPHeader.simpleAction (encapsulate ha srcIp q) =
      if 65535 ∣ wordSum (ipPayload q) then some (encapsulate ha srcIp q, 20) else none := by
  have hiff := checked_encapsulate_iff ha srcIp q h hlen
  have hip : ipHeader (encapsulate ha srcIp q) = sentHeader ha srcIp q := ofBytes_encapsulate ha srcIp q
  have hhl : headerLength (encapsulate ha srcIp q) = 20 := by
    unfold headerLength
    rw [hip]
    rfl
  split_ifs with hsum
  · have hanno : (ipHeader (encapsulate ha srcIp q)).ipDst = (encapsulate ha srcIp q).dstIpAnno := by
      rw [hip]
      rfl
    rw [(hiff.mpr hsum).passes, hhl, hanno]
  · cases hcheck : CheckIPHeader.simpleAction (encapsulate ha srcIp q) with
    | none => rfl
    | some r =>
      obtain ⟨hc, -, -, hdata, -⟩ := CheckIPHeader_spec _ r.1 r.2 hcheck
      have htotal : (ntohs (ipHeader (encapsulate ha srcIp q)).ipLen).toNat =
          (encapsulate ha srcIp q).data.length := by
        rw [hip, sentHeader_ipLen ha srcIp q (h.wellFormed hlen), encapsulate_data, List.length_append,
          ClickIp.length_toBytes]
      rw [htotal, List.take_length] at hdata
      -- the packet that was let through is the envelope itself
      exact absurd (hiff.mp (hc.of_data hdata.symm)) hsum

end Encapsulator

/-- The home agent has a binding of a node, and the first one is for a care-of address. -/
def HA.BoundTo (ha : HA) (node careOf : IPAddress) : Prop :=
  (firstMatch (fun mi => mi.address == node) ha.mobilityBindings).map (fun r => r.2.careOfAddress) =
    some careOf

instance (ha : HA) (node careOf : IPAddress) : Decidable (ha.BoundTo node careOf) :=
  inferInstanceAs (Decidable (_ = _))

theorem HomeRouter.tunnel_bound (a : Agent) (ha : HA) (q : Packet) (careOf : IPAddress)
    (h : ha.BoundTo (ipHeader q).ipDst careOf) :
    tunnel a ha q = [(.publicNet, Encapsulator.encapsulate ha a.publicAddress q)] ∧
      (Encapsulator.encapsulate ha a.publicAddress q).dstIpAnno = careOf := by
  obtain ⟨⟨i, mi⟩, hfirst, hcare⟩ := Option.map_eq_some_iff.mp h
  have hpush : HA.push ha q = [.forward 1 q] := by
    unfold HA.push
    dsimp only
    rw [show (ClickIp.ofBytes q.data).ipDst = (ipHeader q).ipDst from rfl, hfirst]
  constructor
  · unfold tunnel
    rw [hpush]
    rfl
  · change Encapsulator.getDestinationIp ha (ipHeader q).ipDst = careOf
    unfold Encapsulator.getDestinationIp
    rw [hfirst]
    exact hcare

/-- What is connected to `rt[0]` of the foreign agent takes the packet out of its envelope. -/
theorem ForeignRouter.arrived_envelope (ha : HA) (srcIp : IPAddress) (q : Packet) (h : Checked q)
    (hanno : q.dstIpAnno = (ipHeader q).ipDst) :
    arrived (Encapsulator.encapsulate ha srcIp q) = [(.privateNet, q)] := by
  have hip : ipHeader (Encapsulator.encapsulate ha srcIp q) = Encapsulator.sentHeader ha srcIp q :=
    Encapsulator.ofBytes_encapsulate ha srcIp q
  have hencap : CheckEncap.push (Encapsulator.encapsulate ha srcIp q) =
      [.forward 0 (Encapsulator.encapsulate ha srcIp q)] := by
    unfold CheckEncap.push
    rw [show ClickIp.ofBytes (Encapsulator.encapsulate ha srcIp q).data =
      ipHeader (Encapsulator.encapsulate ha srcIp q) from rfl, hip]
    exact if_pos rfl
  have hstrip : StripIPHeader.simpleAction (Encapsulator.encapsulate ha srcIp q)
      (headerLength (Encapsulator.encapsulate ha srcIp q)) =
        { q with dstIpAnno := (Encapsulator.encapsulate ha srcIp q).dstIpAnno } := by
    unfold StripIPHeader.simpleAction headerLength
    rw [hip]
    exact congrArg (fun d => (⟨d, _⟩ : Packet)) (Encapsulator.drop_encapsulate ha srcIp q)
  have hinner : Checked ({ q with dstIpAnno := (Encapsulator.encapsulate ha srcIp q).dstIpAnno } : Packet) :=
    h.of_data rfl
  unfold arrived
  rw [hencap]
  change ((CheckIPHeader.simpleAction (StripIPHeader.simpleAction _ _)).map _).toList ++ [] ++ [] = _
  rw [hstrip, hinner.passes]
  change [(Outlet.privateNet, (⟨q.data, (ipHeader q).ipDst⟩ : Packet))] = _
  rw [← hanno]

/-- What the foreign agent's router makes of an envelope. -/
theorem ForeignRouter.step_envelope (a : Agent) (relay : Relay) (s : ForeignRouter)
    (hkeeps : Keeps 3 a.routes s.table) (h0 : a.publicAddress ≠ 0) (ha : HA) (srcIp : IPAddress) (q : Packet)
    (h : Checked q) (hlen : q.data.length ≤ 65515) (hanno : q.dstIpAnno = (ipHeader q).ipDst)
    (hdst : (Encapsulator.encapsulate ha srcIp q).dstIpAnno = a.publicAddress) (y : Arrival)
    (hy : y.packet = Encapsulator.encapsulate ha srcIp q) :
    (step a relay s (.packet y)).2 =
      if 65535 ∣ wordSum (ipPayload q) then [(.privateNet, q)] else [] := by
  unfold step
  dsimp only
  rw [hy, Encapsulator.check_encapsulate ha srcIp q h hlen]
  split_ifs with hsum
  · dsimp only
    -- the classifier wants neither port nor type of a packet of the tunnel
    have hproto : (ipHeader (Encapsulator.encapsulate ha srcIp q)).ipP = 4 := by
      change (ClickIp.ofBytes (Encapsulator.encapsulate ha srcIp q).data).ipP = 4
      rw [Encapsulator.ofBytes_encapsulate]
      rfl
    have hreg : (registrationPort (Encapsulator.encapsulate ha srcIp q) ||
        icmpUnreachable (Encapsulator.encapsulate ha srcIp q)) = false := by
      unfold registrationPort icmpUnreachable
      dsimp only
      rw [hproto]
      rfl
    rw [hreg, if_neg Bool.false_ne_true]
    unfold route
    dsimp only
    rw [Agent.to_self hkeeps _ hdst h0]
    change forward a y 0 _ ++ [] = _
    rw [List.append_nil]
    unfold forward
    rw [if_pos rfl, arrived_envelope ha srcIp q h hanno]
  · rfl

/-- The home agent's router with a datagram for a node that is away. -/
theorem HomeRouter.step_bound (a : Agent) (s : HomeRouter) (hkeeps : Keeps 3 a.routes s.table) (x : Arrival)
    (p : Packet) (offset : ℕ) (hcheck : CheckIPHeader.simpleAction x.packet = some (p, offset))
    (hdata : registrationPort p = false) (hserves : a.Serves (ipHeader p).ipDst) (careOf : IPAddress)
    (hbound : s.ha.BoundTo (ipHeader p).ipDst careOf)
    (hsent : ∀ q ∈ (a.privatePath.run x.annos x.ms x.random p).sent, (ipHeader q).ipDst = (ipHeader p).ipDst) :
    (step a s x).2 = (a.privatePath.run x.annos x.ms x.random p).sent.map
        (fun q => (.publicNet, Encapsulator.encapsulate s.ha a.publicAddress q)) ++
      (a.privatePath.run x.annos x.ms x.random p).errors := by
  obtain ⟨-, -, hanno, -, -⟩ := CheckIPHeader_spec x.packet p offset hcheck
  unfold step
  rw [hcheck]
  dsimp only
  rw [hdata, if_neg Bool.false_ne_true]
  dsimp only
  rw [Agent.to_private hkeeps p (by rw [hanno]; exact hserves)]
  change forward a s.ha x 1 p ++ [] = _
  rw [List.append_nil]
  unfold forward
  rw [if_neg (by decide), if_pos rfl]
  dsimp only
  congr 1
  generalize (a.privatePath.run x.annos x.ms x.random p).sent = sent at hsent
  induction sent with
  | nil => rfl
  | cons q sent ih =>
    have hq := (tunnel_bound a s.ha q careOf (by rw [hsent q List.mem_cons_self]; exact hbound)).1
    rw [List.flatMap_cons, hq, List.map_cons, ih (fun q hq => hsent q (List.mem_cons_of_mem _ hq))]
    rfl

/-- The data path as a whole. Whatever the two routers have done before: a datagram for a node
that is bound to the foreign agent is sent into the tunnel, in as many fragments as the
private path makes of it, and each of them comes out on the foreign agent's network as it went
in if its payload sums to zero. All others are dropped at the end of the tunnel. A copy of what
came from the private network goes to the redirect output. -/
theorem delivered_through_tunnel (home foreign : Agent) (relay : Relay) (arrivals : List Arrival)
    (inputs : List ForeignRouter.Input) (x : Arrival) (p : Packet) (offset : ℕ)
    (hcheck : CheckIPHeader.simpleAction x.packet = some (p, offset)) (hforward : Forwardable x.annos p)
    (hdata : registrationPort p = false) (hserves : home.Serves (ipHeader p).ipDst)
    (hself : foreign.publicAddress ≠ 0)
    (hbound : (Runs.final (HomeRouter.step home) (HomeRouter.start home) arrivals).ha.BoundTo
      (ipHeader p).ipDst foreign.publicAddress) :
    let h := Runs.final (HomeRouter.step home) (HomeRouter.start home) arrivals
    let f := Runs.final (ForeignRouter.step foreign relay) (ForeignRouter.start foreign) inputs
    let r := home.privatePath.run x.annos x.ms x.random p
    Disposition home.privatePath x.annos p r ∧
      r.redirects = (if x.annos.paint = home.privatePath.color then [p] else []) ∧
      (HomeRouter.step home h x).2 = r.sent.map
        (fun q => (.publicNet, Encapsulator.encapsulate h.ha home.publicAddress q)) ++ r.errors ∧
      ∀ q ∈ r.sent, ∀ y : Arrival, y.packet = Encapsulator.encapsulate h.ha home.publicAddress q →
        (ForeignRouter.step foreign relay f (.packet y)).2 =
          if 65535 ∣ wordSum (ipPayload q) then [(.privateNet, q)] else [] := by
  intro h f r
  have hd : Disposition home.privatePath x.annos p r :=
    forward_path_disposes home.privatePath x.annos x.ms x.random p hforward
  obtain ⟨-, -, hanno, -, -⟩ := CheckIPHeader_spec x.packet p offset hcheck
  have hsent : ∀ q ∈ r.sent, Forwarded home.privatePath x.annos p q := by
    cases hd with
    | sent nonempty errors forwarded payload => exact forwarded
    | problem x oi only refused => rw [only.1]; exact fun q hq => absurd hq List.not_mem_nil
    | expired x only late => rw [only.1]; exact fun q hq => absurd hq List.not_mem_nil
    | tooBig x only big => rw [only.1]; exact fun q hq => absurd hq List.not_mem_nil
  refine ⟨hd, home.privatePath.run_redirects x.annos x.ms x.random p hforward.unicast, ?_, ?_⟩
  · exact HomeRouter.step_bound home h (HomeRouter.keeps_run home arrivals) x p offset hcheck hdata
      hserves foreign.publicAddress hbound (fun q hq => (hsent q hq).dst.1)
  · intro q hq y hy
    have hforwarded := hsent q hq
    have hsize := hforwarded.size
    have hannoq : q.dstIpAnno = (ipHeader q).ipDst := by
      rw [hforwarded.dst.2, hforwarded.dst.1, hanno]
    have hdst := (HomeRouter.tunnel_bound home h.ha q foreign.publicAddress
      (by rw [hforwarded.dst.1]; exact hbound)).2
    exact ForeignRouter.step_envelope foreign relay f (ForeignRouter.keeps_run foreign relay inputs) hself
      h.ha home.publicAddress q hforwarded.checked (by omega) hannoq hdst y hy

namespace Deployment

def homeRouter : Agent :=
  ⟨homeAgentPrivateAddress, ipv4 255 255 255 0, homeAgentPublicAddress, ipv4 255 255 255 0,
    foreignAgentPublicAddress⟩

def foreignRouter : Agent :=
  ⟨foreignAgentPrivateAddress, ipv4 255 255 255 0, foreignAgentPublicAddress, ipv4 255 255 255 0,
    homeAgentPublicAddress⟩

/-- A packet from the public network. -/
def arrival (p : Packet) : Arrival := ⟨p, default, ⟨false, 2, false⟩, 0, 0, 0⟩

/-- The mobile node's registration with the home agent, from behind the foreign agent. -/
def relayedRegistration : Packet :=
  (RegReq.makePacket info ⟨1, 1⟩ homeAgentPublicAddress 100 foreignAgentPublicAddress).2

end Deployment

/-- An echo request reaches the mobile node after it has registered. -/
theorem echo_through_tunnel :
    let p := Deployment.datagram 1 [8, 0, 0xf7, 0xfd, 0, 1, 0, 1]
    let h := Runs.final (HomeRouter.step Deployment.homeRouter) (HomeRouter.start Deployment.homeRouter)
      [Deployment.arrival Deployment.relayedRegistration]
    let f := Runs.final (ForeignRouter.step Deployment.foreignRouter Deployment.relay)
      (ForeignRouter.start Deployment.foreignRouter) []
    let r := Deployment.homeRouter.privatePath.run ⟨false, 2, false⟩ 0 0 p
    r.sent.length = 1 ∧
      (HomeRouter.step Deployment.homeRouter h (Deployment.arrival p)).2 = r.sent.map
        (fun q => (.publicNet, Encapsulator.encapsulate h.ha Deployment.homeRouter.publicAddress q)) ++
          r.errors ∧
      ∀ q ∈ r.sent, (ForeignRouter.step Deployment.foreignRouter Deployment.relay f (.packet
        (Deployment.arrival (Encapsulator.encapsulate h.ha Deployment.homeRouter.publicAddress q)))).2 =
          [(.privateNet, q)] := by
  intro p h f r
  have hp : Forwardable ⟨false, 2, false⟩ p :=
    ⟨⟨by decide, by decide, by decide, by decide, by decide⟩, rfl, by decide, by decide⟩
  obtain ⟨-, -, hhome, hforeign⟩ := delivered_through_tunnel Deployment.homeRouter Deployment.foreignRouter
    Deployment.relay [Deployment.arrival Deployment.relayedRegistration] [] (Deployment.arrival p) p 20
    (by decide) hp (by decide) ⟨by decide, by decide, by decide, by decide⟩ (by decide) (by decide)
  have hzero : ∀ q ∈ r.sent, 65535 ∣ wordSum (ipPayload q) := by decide
  refine ⟨by decide, hhome, ?_⟩
  intro q hq
  have hout := hforeign q hq
    (Deployment.arrival (Encapsulator.encapsulate h.ha Deployment.homeRouter.publicAddress q)) rfl
  rw [if_pos (hzero q hq)] at hout
  exact hout

end MobileIP
