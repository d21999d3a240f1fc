import MobileIP.ReturnPath

/-! An echo request of the corresponding node and the answer to it: through the home agent and the
tunnel to a node that is away, and back by the foreign agent's router. -/
namespace MobileIP

open LittleEndian OnesComplement VectorSearch LinearIPLookup

/-- A packet without options and of at most 1500 bytes, which a path sends on in one piece. -/
structure Small (annos : Annos) (p : Packet) : Prop where
  checked : Checked p
  unicast : annos.broadcast = false
  plain : headerLength p = 20
  ttl : 1 < (ipHeader p).ipTtl.toNat
  size : p.data.length ≤ 1500
  first : fragOffset p = 0

theorem Small.forwardable {annos : Annos} {p : Packet} (h : Small annos p) : Forwardable annos p := by
  refine ⟨h.checked, h.unicast, ?_, IPGWOptions.shortTimestamp_plain h.plain⟩
  have hsize := h.size
  unfold ipPayload
  rw [h.first, List.length_drop]
  omega

/-- What is the same at the two ends of a path. -/
structure Passed (path : ForwardPath) (annos : Annos) (p q : Packet) : Prop where
  forwarded : Forwarded path annos p q
  plain : headerLength q = 20
  payload : ipPayload q = ipPayload p
  first : fragOffset q = 0

theorem ForwardPath.run_small (path : ForwardPath) (annos : Annos) (ms : UInt32) (random : UInt16) (p : Packet)
    (h : Small annos p) :
    ∃ q, (path.run annos ms random p).sent = [q] ∧ (path.run annos ms random p).expired = [] ∧
      (path.run annos ms random p).tooBig = [] ∧ Passed path annos p q := by
  have hok := IPGWOptions.simpleAction_plain ⟨path.address, [path.address]⟩ ms h.plain
  obtain ⟨hfixed, -, -, -, sum, hfheader⟩ := FixIPSrc.keeps path.address annos.fixIpSrc p h.checked
  obtain ⟨q, hdec, hq, hqheader, -, -, -⟩ := DecIPTTL.simpleAction_checked
    (FixIPSrc.simpleAction path.address annos.fixIpSrc p) hfixed (by rw [hfheader]; exact h.ttl)
  have hheader : (ipHeader q).ipHl = (ipHeader p).ipHl ∧ (ipHeader q).ipLen = (ipHeader p).ipLen ∧
      (ipHeader q).ipOff = (ipHeader p).ipOff := by
    rw [hqheader, hfheader]
    exact ⟨rfl, rfl, rfl⟩
  have hsize : q.data.length ≤ 1500 := by
    have htotal := hq.total
    rw [hheader.2.1, h.checked.total] at htotal
    have hle := h.size
    omega
  -- the length is that of the packet before, so no fragments are made
  have hwhole : IPFragmenter.push ForwardPath.fragmenter random q = [.forward 0 q] := if_pos hsize
  have hrun : (path.run annos ms random p).sent = [q] ∧ (path.run annos ms random p).expired = [] ∧
      (path.run annos ms random p).tooBig = [] := by
    unfold ForwardPath.run ForwardPath.finish
    rw [h.unicast, if_neg Bool.false_ne_true, hok]
    dsimp only
    rw [hdec]
    change (outputs 0 (IPFragmenter.push fragmenter random q) ++ [] = [q]) ∧ _ ∧
      (outputs 1 (IPFragmenter.push fragmenter random q) ++ [] = [])
    rw [hwhole]
    exact ⟨rfl, rfl, rfl⟩
  refine ⟨q, hrun.1, hrun.2.1, hrun.2.2, ?_⟩
  have hplain : headerLength q = 20 := by
    unfold headerLength
    rw [hheader.1]
    exact h.plain
  cases forward_path_disposes path annos ms random p h.forwardable with
  | sent nonempty errors forwarded payload =>
    rw [hrun.1] at forwarded payload
    refine ⟨forwarded q List.mem_cons_self, hplain, ?_, (same_offset hheader.2.2).1.trans h.first⟩
    rw [← payload]
    exact (List.append_nil _).symm
  | problem x oi only refused => exact absurd (hrun.1.symm.trans only.1) (List.cons_ne_nil _ _)
  | expired x only late => exact absurd (hrun.1.symm.trans only.1) (List.cons_ne_nil _ _)
  | tooBig x only big => exact absurd (hrun.1.symm.trans only.1) (List.cons_ne_nil _ _)

namespace Agent

variable {a : Agent} {s : LinearIPLookup}

/-- An address that is reached by the public network. -/
structure Leaves (a : Agent) (dst : IPAddress) : Prop where
  nonzero : dst ≠ 0
  other : dst ≠ a.privateAddress ∧ dst ≠ a.publicAddress
  outside : dst &&& a.privateMask ≠ a.privateAddress &&& a.privateMask

theorem to_public (h : Keeps 3 a.routes s) (p : Packet) (hd : a.Leaves p.dstIpAnno) :
    ∃ hop, (LinearIPLookup.push s p).2 = some (2, { p with dstIpAnno := hop }) := by
  have hrouted := h.inv.pushPlain_routed p (Or.inl hd.nonzero)
  rw [h.routes] at hrouted
  rw [(h.inv.push_spec p).2.2]
  cases hout : pushPlain s p with
  | none =>
    -- the default route covers every address
    rw [hout] at hrouted
    cases hm : mapConfigure 3 a.routes (0, 0) with
    | none =>
      rw [mapConfigure_apply, List.findSome?_eq_none_iff] at hm
      have hlast := hm (some ⟨0, 0, a.gateway, 2⟩) (by unfold Agent.routes; simp)
      have hown : listed 3 (0, 0) (some ⟨0, 0, a.gateway, 2⟩) = some (a.gateway, 2) :=
        listed_default (by decide) (by decide)
      rw [hown] at hlast
      cases hlast
    | some v =>
      have hno := hrouted (0, 0) v hm
      have hyes : matchesPrefix p.dstIpAnno 0 0 = true := by
        rw [matchesPrefix_iff, UInt32.and_zero, UInt32.and_zero]
      exact absurd (hno.symm.trans hyes) Bool.false_ne_true
  | some o =>
    rw [hout] at hrouted
    obtain ⟨q, v, hbest, rfl⟩ := hrouted
    have hlive := hbest.live
    rw [mapConfigure_apply] at hlive
    obtain ⟨w, hw, hl⟩ := List.exists_of_findSome?_eq_some hlive
    have hv (w : RouteWords) (hl : listed 3 q (some w) = some v) : v.2 = w.port := by
      unfold listed at hl
      rw [Option.bind_some] at hl
      split_ifs at hl
      rw [← Option.some.inj hl]
    -- only the last two routes may cover the address
    have hport : v.2 = 2 := by
      rcases mem_routes hw with rfl | rfl | rfl | rfl | rfl
      · exact absurd (listed_host hl hbest.covers) hd.other.1
      · exact absurd (listed_host hl hbest.covers) hd.other.2
      · exact absurd (listed_covers hl hbest.covers).1 hd.outside
      · exact hv _ hl
      · exact hv _ hl
    rw [hport]
    by_cases hgw : v.1 ≠ 0
    · exact ⟨v.1, by rw [if_pos hgw]⟩
    · exact ⟨p.dstIpAnno, by rw [if_neg hgw]⟩

end Agent

/-- The next hop has nothing to do with what a path can do with a packet. -/
theorem Small.of_data {annos : Annos} {p q : Packet} (h : Small annos p) (hd : q.data = p.data) : Small annos q := by
  have hchecked := h.checked.of_data hd
  obtain ⟨-, h2, h3, h4, h5, h6⟩ := h
  unfold headerLength fragOffset ipHeader at *
  rw [← hd] at h3 h4 h5 h6
  exact ⟨hchecked, h2, h3, h4, h5, h6⟩

theorem HomeRouter.tunnels_small (a : Agent) (s : HomeRouter) (hkeeps : Keeps 3 a.routes s.table) (x : Arrival)
    (p : Packet) (offset : ℕ) (hcheck : CheckIPHeader.simpleAction x.packet = some (p, offset))
    (hsmall : Small x.annos p) (hdata : registrationPort p = false) (hserves : a.Serves (ipHeader p).ipDst)
    (careOf : IPAddress) (hbound : s.ha.BoundTo (ipHeader p).ipDst careOf) :
    ∃ q, (.publicNet, Encapsulator.encapsulate s.ha a.publicAddress q) ∈ (step a s x).2 ∧
      Passed a.privatePath x.annos p q := by
  obtain ⟨q, hsent, -, -, hq⟩ := a.privatePath.run_small x.annos x.ms x.random p hsmall
  have hstep := step_bound a s hkeeps x p offset hcheck hdata hserves careOf hbound (by
    intro f hf
    rw [hsent, List.mem_singleton] at hf
    rw [hf]
    exact hq.forwarded.dst.1)
  refine ⟨q, ?_, hq⟩
  rw [hstep, hsent]
  exact List.mem_cons_self

/-- What is neither a registration nor an error leaves the foreign agent by its public network. -/
theorem ForeignRouter.step_leaves (a : Agent) (relay : Relay) (s : ForeignRouter) (hkeeps : Keeps 3 a.routes s.table)
    (w : Arrival) (p : Packet) (hw : w.packet = p) (hsmall : Small w.annos p) (hicmp : (ipHeader p).ipP = 1)
    (htype : byteAt (ipPayload p) 0 = 0) (hleaves : a.Leaves (ipHeader p).ipDst) :
    ∃ hop g, (.publicNet, g) ∈ (step a relay s (.packet w)).2 ∧
      Passed a.publicPath w.annos { p with dstIpAnno := hop } g := by
  obtain ⟨hop, hpush⟩ := Agent.to_public hkeeps { p with dstIpAnno := (ipHeader p).ipDst } hleaves
  obtain ⟨g, hsent, -, -, hg⟩ := a.publicPath.run_small w.annos w.ms w.random
    { p with dstIpAnno := hop } (hsmall.of_data rfl)
  refine ⟨hop, g, ?_, hg⟩
  have hclass : (registrationPort { p with dstIpAnno := (ipHeader p).ipDst } ||
      icmpUnreachable { p with dstIpAnno := (ipHeader p).ipDst }) = false := by
    have hother : icmpUnreachable p = false := by
      unfold icmpUnreachable
      dsimp only
      rw [htype, Bool.and_eq_false_iff]
      exact Or.inr rfl
    rw [Bool.or_eq_false_iff]
    exact ⟨NodeRouter.registrationPort_icmp (p := { p with dstIpAnno := (ipHeader p).ipDst }) hicmp, hother⟩
  unfold step
  dsimp only
  rw [hw, hsmall.checked.passes]
  dsimp only
  rw [hclass, if_neg Bool.false_ne_true]
  unfold route
  dsimp only
  rw [hpush]
  change _ ∈ forward a w 2 _ ++ []
  rw [List.append_nil]
  unfold forward
  rw [if_neg (by decide), if_neg (by decide)]
  dsimp only
  rw [hsent]
  exact List.mem_cons_self

theorem NodeRouter.forward_small (n : Node) (mn : MNInfo) (x : Arrival) (p : Packet) (h : Small x.annos p) :
    ∃ q, forward n mn x p = [(.privateNet, mn.push q)] ∧ Passed n.path x.annos p q := by
  obtain ⟨q, hsent, hexpired, hbig, hq⟩ := n.path.run_small x.annos x.ms x.random p h
  have hplain := n.path.problems_plain x.annos x.ms x.random p h.plain
  refine ⟨q, ?_, hq⟩
  unfold forward PathOutput.errors
  dsimp only
  rw [hsent, hplain, hexpired, hbig]
  rfl

/-- A small request has a small answer. -/
theorem ICMPPingResponder.Answers.small {p q : Packet} (ha : Answers p q) (hp : Checked p)
    (hsize : p.data.length ≤ 1500) (annos : Annos) (hcast : annos.broadcast = false)
    (hlen : headerLength q = 20) : Small annos q := by
  obtain ⟨-, httl, -⟩ := ha.forwardable q.dstIpAnno annos hcast hlen
  have htotal := ha.checked.total
  rw [ha.header] at htotal
  change (ntohs (ipHeader p).ipLen).toNat = _ at htotal
  rw [hp.total] at htotal
  have hoff : fragOffset q = 0 := by
    unfold fragOffset
    rw [ha.header]
    exact (show 8*((ntohs 0).toNat%8192) = 0 by decide)
  exact ⟨ha.checked, hcast, hlen, httl, by omega, hoff⟩

/-- The answer to the request `q` as the node sends it. -/
structure Reply (n : Node) (q e : Packet) : Prop where
  checked : Checked e
  plain : headerLength e = 20
  first : fragOffset e = 0
  size : e.data.length ≤ 1500
  src : (ipHeader e).ipSrc = n.address
  dst : (ipHeader e).ipDst = (ipHeader q).ipSrc
  protocol : (ipHeader e).ipP = 1
  ttl : (ipHeader e).ipTtl.toNat = 254
  payload : ipPayload e = ICMPPingResponder.answerMessage (ipPayload q)

theorem Reply.of_data {n : Node} {q e e' : Packet} (h : Reply n q e) (hd : e'.data = e.data) : Reply n q e' := by
  have hchecked := h.checked.of_data hd
  obtain ⟨-, h2, h3, h4, h5, h6, h7, h8, h9⟩ := h
  unfold ipPayload headerLength fragOffset ipHeader at *
  rw [← hd] at h2 h3 h4 h5 h6 h7 h8 h9
  exact ⟨hchecked, h2, h3, h4, h5, h6, h7, h8, h9⟩

/-- A small request, from the network to the host and back to the network. -/
theorem NodeRouter.answers_small {n : Node} {s : NodeRouter} (hkeeps : Keeps 2 n.routes s.table) {q : Packet}
    (hq : Checked q) (hself : q.dstIpAnno = (ipHeader q).ipDst) (hecho : ICMPPingResponder.Echo q)
    (hplain : headerLength q = 20) (hsize : q.data.length ≤ 1500) (hdst : (ipHeader q).ipDst = n.address)
    (h0 : n.address ≠ 0) (hsrc : n.Remote (ipHeader q).ipSrc) (hg : n.gateway ≠ 0) (z : Arrival) (now : ℕ)
    (draw : Draw) (hz : z.packet = q) :
    let r := step n s (.packet z now draw)
    r.2 = [(.host, q)] ∧ ∃ a, ICMPPingResponder.simpleAction q = some a ∧
      ∀ (u : Arrival) (now' : ℕ) (draw' : Draw), u.packet = a → u.annos.broadcast = false →
        ∃ e, (step n r.1 (.packet u now' draw')).2 = [(.privateNet, e)] ∧
          e.dstIpAnno = (if s.mobile.mn.connected then s.mobile.mn.foreignAgent else n.gateway) ∧
          Reply n q e := by
  intro r
  have hcheck : CheckIPHeader.simpleAction z.packet = some (q, headerLength q) := by
    rw [hz, hq.passes, ← hself]
  obtain ⟨hhost, a, ha, hanswer, hlen, hsends⟩ := host_answers hkeeps z now draw hcheck hecho hplain hdst h0
    hsrc hg
  refine ⟨hhost, a, ha, ?_⟩
  intro u now' draw' hu hcast
  obtain ⟨e, hforward, he⟩ := forward_small n s.mobile.mn u { a with dstIpAnno := n.gateway }
    ((hanswer.small hq hsize u.annos hcast hlen).of_data rfl)
  obtain ⟨hec, hesize, ⟨hedst, heanno⟩, hesrc, heproto, hettl⟩ := he.forwarded
  have haheader : ipHeader ({ a with dstIpAnno := n.gateway } : Packet) =
    ICMPPingResponder.answerHeader (ipHeader q) := hanswer.header
  rw [haheader] at hedst hesrc heproto hettl
  refine ⟨s.mobile.mn.push e, (hsends u now' draw' hu).trans hforward, by rw [MNInfo.push_anno, heanno], ?_⟩
  refine Reply.of_data ⟨hec, he.plain, he.first, hesize, ?_, hedst, heproto.trans hecho.2.1, ?_, ?_⟩
    (MNInfo.push_data _ _)
  · rw [hesrc]
    split_ifs
    · rfl
    · exact hdst
  · have h255 : (ipHeader e).ipTtl.toNat+1 = 255 := hettl
    omega
  · rw [he.payload]
    exact hanswer.message

/-- An answer of the node, from the foreign agent's network to the public one. -/
theorem ForeignRouter.returns_reply (a : Agent) (relay : Relay) (s : ForeignRouter)
    (hkeeps : Keeps 3 a.routes s.table) {n : Node} {q e : Packet} (h : Reply n q e) (hleaves : a.Leaves (ipHeader q).ipSrc) (w : Arrival)
    (hw : w.packet = e) (hcast : w.annos.broadcast = false) (hfix : w.annos.fixIpSrc = false) :
    ∃ g, (.publicNet, g) ∈ (step a relay s (.packet w)).2 ∧ Checked g ∧ (ipHeader g).ipSrc = n.address ∧
      (ipHeader g).ipDst = (ipHeader q).ipSrc ∧
      ipPayload g = ICMPPingResponder.answerMessage (ipPayload q) := by
  have hsmall : Small w.annos e := ⟨h.checked, hcast, h.plain, by rw [h.ttl]; decide, h.size, h.first⟩
  obtain ⟨hop, g, hout, hg⟩ := step_leaves a relay s hkeeps w e hw hsmall h.protocol
    (by rw [h.payload]; rfl) (by rw [h.dst]; exact hleaves)
  obtain ⟨hgc, -, ⟨hgdst, -⟩, hgsrc, -, -⟩ := hg.forwarded
  rw [hfix, if_neg Bool.false_ne_true] at hgsrc
  exact ⟨g, hout, hgc, hgsrc.trans h.src, hgdst.trans h.dst, hg.payload.trans h.payload⟩

/-- There and back. Whatever the three routers have done before: a small echo request for a node that is
bound to the foreign agent and connected through it goes through the tunnel and comes out of it as
it was sent into it, the node's host answers it, the answer's next hop is the foreign agent, and it
leaves the foreign agent's router by the public network, with the addresses the other way round, the
data of the request and a right checksum. -/
theorem echo_round_trip (home foreign : Agent) (relay : Relay) (n : Node) (lifetime : UInt16)
    (arrivals : List Arrival) (inputs inputs' : List ForeignRouter.Input) (nodeInputs : List NodeRouter.Input)
    (x : Arrival) (p : Packet) (offset : ℕ)
    (hcheck : CheckIPHeader.simpleAction x.packet = some (p, offset)) (hsmall : Small x.annos p)
    (hfix : x.annos.fixIpSrc = false) (hecho : ICMPPingResponder.Echo p)
    (hsum : 65535 ∣ wordSum (ipPayload p)) (hdst : (ipHeader p).ipDst = n.address)
    (hserves : home.Serves n.address) (hself : foreign.publicAddress ≠ 0)
    (hbound : (Runs.final (HomeRouter.step home) (HomeRouter.start home) arrivals).ha.BoundTo
      n.address foreign.publicAddress)
    (hconnected : (Runs.final (NodeRouter.step n) (NodeRouter.start n lifetime) nodeInputs).mobile.mn.connected =
      true)
    (hagent : (Runs.final (NodeRouter.step n) (NodeRouter.start n lifetime) nodeInputs).mobile.mn.foreignAgent =
      foreign.privateAddress)
    (hsrc : n.Remote (ipHeader p).ipSrc) (hg : n.gateway ≠ 0) (hleaves : foreign.Leaves (ipHeader p).ipSrc) :
    let h := Runs.final (HomeRouter.step home) (HomeRouter.start home) arrivals
    let f := Runs.final (ForeignRouter.step foreign relay) (ForeignRouter.start foreign) inputs
    let f' := Runs.final (ForeignRouter.step foreign relay) (ForeignRouter.start foreign) inputs'
    let s := Runs.final (NodeRouter.step n) (NodeRouter.start n lifetime) nodeInputs
    ∃ q, (.publicNet, Encapsulator.encapsulate h.ha home.publicAddress q) ∈ (HomeRouter.step home h x).2 ∧
      (∀ y : Arrival, y.packet = Encapsulator.encapsulate h.ha home.publicAddress q →
        (ForeignRouter.step foreign relay f (.packet y)).2 = [(.privateNet, q)]) ∧
      ∀ (z : Arrival) (now : ℕ) (draw : Draw), z.packet = q →
        let r := NodeRouter.step n s (.packet z now draw)
        r.2 = [(.host, q)] ∧ ∃ a, ICMPPingResponder.simpleAction q = some a ∧
          ∀ (u : Arrival) (now' : ℕ) (draw' : Draw), u.packet = a → u.annos.broadcast = false →
            ∃ e, (NodeRouter.step n r.1 (.packet u now' draw')).2 = [(.privateNet, e)] ∧
              e.dstIpAnno = foreign.privateAddress ∧
              ∀ w : Arrival, w.packet = e → w.annos.broadcast = false → w.annos.fixIpSrc = false →
                ∃ g, (.publicNet, g) ∈ (ForeignRouter.step foreign relay f' (.packet w)).2 ∧ Checked g ∧
                  (ipHeader g).ipSrc = n.address ∧ (ipHeader g).ipDst = (ipHeader p).ipSrc ∧
                  ipPayload g = ICMPPingResponder.answerMessage (ipPayload p) ∧
                  65535 ∣ wordSum (ipPayload g) := by
  intro h f f' s
  have hnode : Keeps 2 n.routes s.table := NodeRouter.keeps_run n lifetime nodeInputs
  obtain ⟨-, -, hanno, -, -⟩ := CheckIPHeader_spec x.packet p offset hcheck
  -- to the foreign agent's network
  obtain ⟨q, hout, hq⟩ := HomeRouter.tunnels_small home h (HomeRouter.keeps_run home arrivals) x p offset hcheck
    hsmall (NodeRouter.registrationPort_icmp hecho.2.1) (by rw [hdst]; exact hserves) foreign.publicAddress
    (by rw [hdst]; exact hbound)
  obtain ⟨hqc, hqsize, ⟨hqdst, hqanno⟩, hqsrc, hqproto, -⟩ := hq.forwarded
  rw [hdst] at hqdst
  rw [hfix, if_neg Bool.false_ne_true] at hqsrc
  have hqself : q.dstIpAnno = (ipHeader q).ipDst := by rw [hqanno, hanno, hdst, hqdst]
  have hqecho : ICMPPingResponder.Echo q := by
    unfold ICMPPingResponder.Echo
    rw [hq.payload, hqproto]
    exact hecho
  refine ⟨q, hout, ?_, ?_⟩
  · intro y hy
    have hcare := (HomeRouter.tunnel_bound home h.ha q foreign.publicAddress (by rw [hqdst]; exact hbound)).2
    have hstep := ForeignRouter.step_envelope foreign relay f (ForeignRouter.keeps_run foreign relay inputs)
      hself h.ha home.publicAddress q hqc (by omega) hqself hcare y hy
    rw [hq.payload, if_pos hsum] at hstep
    exact hstep
  intro z now draw hz
  obtain ⟨hhost, a, ha, hanswer⟩ := NodeRouter.answers_small hnode hqc hqself hqecho hq.plain hqsize hqdst
    hserves.nonzero (by rw [hqsrc]; exact hsrc) hg z now draw hz
  refine ⟨hhost, a, ha, ?_⟩
  intro u now' draw' hu hcast
  obtain ⟨e, hstep, hnext, hreply⟩ := hanswer u now' draw' hu hcast
  -- the node sends by the agent that it is connected through, not by its gateway
  rw [hconnected, if_pos rfl, hagent] at hnext
  refine ⟨e, hstep, hnext, ?_⟩
  intro w hw hwcast hwfix
  obtain ⟨g, hgout, hgc, hgsrc, hgdst, hgpay⟩ := ForeignRouter.returns_reply foreign relay f'
    (ForeignRouter.keeps_run foreign relay inputs') hreply (by rw [hqsrc]; exact hleaves) w hw hwcast hwfix
  rw [hq.payload] at hgpay
  refine ⟨g, hgout, hgc, hgsrc, hgdst.trans hqsrc, hgpay, ?_⟩
  have h8 := hecho.1
  rw [hgpay, Nat.dvd_iff_mod_eq_zero, ICMPPingResponder.wordSum_answerMessage _ (by omega),
    ← Nat.dvd_iff_mod_eq_zero]
  exact hsum

/-- The corresponding node's first echo request, after the node has registered from the foreign
network. -/
theorem echo_there_and_back :
    let p := Deployment.datagram 1 [8, 0, 0xf7, 0xfd, 0, 1, 0, 1]
    let h := Runs.final (HomeRouter.step Deployment.homeRouter) (HomeRouter.start Deployment.homeRouter)
      [Deployment.arrival Deployment.relayedRegistration]
    let f := Runs.final (ForeignRouter.step Deployment.foreignRouter Deployment.relay)
      (ForeignRouter.start Deployment.foreignRouter) []
    let s := Runs.final (NodeRouter.step Deployment.mobileNode) (NodeRouter.start Deployment.mobileNode 0)
      Deployment.nodeRun
    let sendsBack := fun q a => NodeRouter.step Deployment.mobileNode
      (NodeRouter.step Deployment.mobileNode s (.packet (Deployment.arrival q) 7 ⟨3, 3⟩)).1
      (.packet (Deployment.arrival a) 8 ⟨4, 4⟩)
    ∃ q a e g, (.publicNet, Encapsulator.encapsulate h.ha Deployment.homeRouter.publicAddress q) ∈
        (HomeRouter.step Deployment.homeRouter h (Deployment.arrival p)).2 ∧
      (ForeignRouter.step Deployment.foreignRouter Deployment.relay f (.packet (Deployment.arrival
        (Encapsulator.encapsulate h.ha Deployment.homeRouter.publicAddress q)))).2 = [(.privateNet, q)] ∧
      ICMPPingResponder.simpleAction q = some a ∧ (sendsBack q a).2 = [(.privateNet, e)] ∧
      e.dstIpAnno = Deployment.foreignAgentPrivateAddress ∧
      (.publicNet, g) ∈ (ForeignRouter.step Deployment.foreignRouter Deployment.relay f
        (.packet (Deployment.arrival e))).2 ∧
      (ipHeader g).ipDst = Deployment.correspondingNodeAddress ∧
      ipPayload g = [0, 0, 0xff, 0xfd, 0, 1, 0, 1] := by
  intro p h f s sendsBack
  have hmn : (Runs.final (NodeRouter.step Deployment.mobileNode) (NodeRouter.start Deployment.mobileNode 0)
      Deployment.nodeRun).mobile.mn.connected = true ∧
    (Runs.final (NodeRouter.step Deployment.mobileNode) (NodeRouter.start Deployment.mobileNode 0)
      Deployment.nodeRun).mobile.mn.foreignAgent = Deployment.foreignRouter.privateAddress := by
    decide +kernel
  obtain ⟨q, hto, hin, hnode⟩ := echo_round_trip Deployment.homeRouter Deployment.foreignRouter Deployment.relay
    Deployment.mobileNode 0 [Deployment.arrival Deployment.relayedRegistration] [] [] Deployment.nodeRun
    (Deployment.arrival p) p 20 (by decide)
    ⟨⟨by decide, by decide, by decide, by decide, by decide⟩, rfl, by decide, by decide, by decide, by decide⟩
    rfl (by decide) (by decide) (by decide) ⟨by decide, by decide, by decide, by decide⟩ (by decide) (by decide)
    hmn.1 hmn.2 ⟨by decide, by decide, by decide⟩ (by decide) ⟨by decide, by decide, by decide⟩
  obtain ⟨-, a, ha, hsends⟩ := hnode (Deployment.arrival q) 7 ⟨3, 3⟩ rfl
  obtain ⟨e, hfrom, hnext, hback⟩ := hsends (Deployment.arrival a) 8 ⟨4, 4⟩ rfl rfl
  obtain ⟨g, hout, -, -, hdst, hpay, -⟩ := hback (Deployment.arrival e) rfl rfl rfl
  refine ⟨q, a, e, g, hto, hin _ rfl, ha, hfrom, hnext, hout, ?_, ?_⟩
  · rw [hdst]
    decide
  · rw [hpay]
    decide

end MobileIP
