import MobileIP.Fragmentation
import MobileIP.GatewayOptions

/-! The forwarding path that the scripts repeat for every interface: options, source fix, time
to live and fragmentation, with an error output for each of them. -/
namespace MobileIP

open LittleEndian OnesComplement

/-- The annotations that the path reads, other than the next destination. -/
structure Annos where
  -- set by `HostEtherFilter`: a link-level broadcast or multicast
  broadcast : Bool
  -- the interface on which the packet came in
  paint : UInt8
  -- set by `ICMPError`
  fixIpSrc : Bool
  deriving DecidableEq, Repr

/-- Where the packets of a path go. -/
structure PathOutput where
  sent : List Packet
  redirects : List Packet
  problems : List (Packet × ℕ)
  expired : List Packet
  tooBig : List Packet

/-- An interface of a router: its address and the colour of what comes in on it. -/
structure ForwardPath where
  address : IPAddress
  color : UInt8

def ForwardPath.fragmenter : IPFragmenter := ⟨1500, true, by decide, by decide⟩

/-- What is behind `IPGWOptions` on the path. -/
def ForwardPath.finish (path : ForwardPath) (annos : Annos) (random : UInt16) (p : Packet) :
    PathOutput :=
  let p := FixIPSrc.simpleAction path.address annos.fixIpSrc p
  let acts := DecIPTTL.simpleAction p
  let live := outputs 0 acts
  { sent := live.flatMap (fun q => outputs 0 (IPFragmenter.push fragmenter random q))
    redirects := []
    problems := []
    expired := outputs 1 acts
    tooBig := live.flatMap (fun q => outputs 1 (IPFragmenter.push fragmenter random q)) }

/-- `DropBroadcasts -> PaintTee -> IPGWOptions -> FixIPSrc -> DecIPTTL -> IPFragmenter(1500)`. -/
def ForwardPath.run (path : ForwardPath) (annos : Annos) (ms : UInt32) (random : UInt16) (p : Packet) :
    PathOutput :=
  if annos.broadcast then ⟨[], [], [], [], []⟩
  else
    let redirects := if annos.paint = path.color then [p] else []
    match IPGWOptions.simpleAction ⟨path.address, [path.address]⟩ ms p with
    | .error e => ⟨[], redirects, [e], [], []⟩
    | .ok p => { path.finish annos random p with redirects := redirects }

/-- Only what came in on the path's own interface is worth a redirect. -/
theorem ForwardPath.run_redirects (path : ForwardPath) (annos : Annos) (ms : UInt32) (random : UInt16)
    (p : Packet) (hcast : annos.broadcast = false) :
    (path.run annos ms random p).redirects = if annos.paint = path.color then [p] else [] := by
  unfold ForwardPath.run
  rw [hcast, if_neg Bool.false_ne_true]
  dsimp only
  cases IPGWOptions.simpleAction ⟨path.address, [path.address]⟩ ms p with
  | error e => rfl
  | ok q => rfl

/-- What every packet that a path sends on shares with the packet that came in. -/
structure Forwarded (path : ForwardPath) (annos : Annos) (p q : Packet) : Prop where
  checked : Checked q
  size : q.data.length ≤ 1500
  dst : (ipHeader q).ipDst = (ipHeader p).ipDst ∧ q.dstIpAnno = p.dstIpAnno
  src : (ipHeader q).ipSrc = if annos.fixIpSrc then path.address else (ipHeader p).ipSrc
  protocol : (ipHeader q).ipP = (ipHeader p).ipP
  ttl : (ipHeader q).ipTtl.toNat+1 = (ipHeader p).ipTtl.toNat

theorem FixIPSrc.keeps (myIp : IPAddress) (anno : Bool) (p : Packet) (h : Checked p) :
    let q := FixIPSrc.simpleAction myIp anno p
    Checked q ∧ ipPayload q = ipPayload p ∧ ipOptions q = ipOptions p ∧ q.dstIpAnno = p.dstIpAnno ∧
      ∃ sum, ipHeader q =
        { ipHeader p with ipSrc := if anno then myIp else (ipHeader p).ipSrc, ipSum := sum } := by
  unfold FixIPSrc.simpleAction
  cases anno with
  | false => exact ⟨h, rfl, rfl, rfl, _, rfl⟩
  | true =>
    have hopts := length_ipOptions p h.header_le
    have h60 := headerLength_lt p
    have hset := options_payload_setHeader p
      (ClickIp.resum { ipHeader p with ipSrc := myIp } (ipOptions p)) rfl h.twenty_le
    rw [if_pos rfl]
    refine ⟨?_, hset.2.2, hset.2.1, rfl, ?_⟩
    · exact h.setHeader (ClickIp.resum { ipHeader p with ipSrc := myIp } (ipOptions p)) rfl rfl rfl
        (clickInCksum_resum _ _ (by omega))
    · rw [ipHeader_setHeader]
      exact ⟨_, rfl⟩

/-- A packet that fits is sent as it is, and one that does not is sent in fragments or, if it
must not be fragmented, handed to the error output. -/
theorem fragmenter_disposes (random : UInt16) (q : Packet) (h : Checked q)
    (hbound : fragOffset q+(ipPayload q).length ≤ 65536) :
    let sent := outputs 0 (IPFragmenter.push ForwardPath.fragmenter random q)
    let tooBig := outputs 1 (IPFragmenter.push ForwardPath.fragmenter random q)
    (sent = [] ∧ tooBig = [q] ∧ dontFragment q = true) ∨
      (tooBig = [] ∧ sent ≠ [] ∧ (sent.map ipPayload).flatten = ipPayload q ∧
        ∀ x ∈ sent, Checked x ∧ x.data.length ≤ 1500 ∧ (ipHeader x).ipSrc = (ipHeader q).ipSrc ∧
          (ipHeader x).ipDst = (ipHeader q).ipDst ∧ x.dstIpAnno = q.dstIpAnno ∧
          (ipHeader x).ipP = (ipHeader q).ipP ∧ (ipHeader x).ipTtl = (ipHeader q).ipTtl) := by
  dsimp only
  by_cases hfits : q.data.length ≤ 1500
  · have hpush : IPFragmenter.push ForwardPath.fragmenter random q = [.forward 0 q] := if_pos hfits
    rw [hpush]
    refine Or.inr ⟨rfl, List.cons_ne_nil _ _, List.append_nil _, ?_⟩
    intro x hx
    obtain rfl := List.mem_singleton.mp hx
    exact ⟨h, hfits, rfl, rfl, rfl, rfl, rfl⟩
  · have h60 := headerLength_lt q
    cases hdf : dontFragment q with
    | true =>
      have hset : (ipHeader q).ipOff &&& htons ipDf ≠ 0 :=
        (and_df_iff _).mpr (by unfold dontFragment at hdf; exact beq_iff_eq.mp hdf)
      have hpush : IPFragmenter.push ForwardPath.fragmenter random q = [.forward 1 q] := by
        unfold IPFragmenter.push IPFragmenter.fragment
        rw [if_neg (show ¬ q.data.length ≤ ForwardPath.fragmenter.mtu from hfits)]
        exact if_pos (Or.inl ⟨hset, rfl⟩)
      rw [hpush]
      exact Or.inl ⟨rfl, rfl, rfl⟩
    | false =>
      have hfrag : IPFragmenter.Fragmentable ForwardPath.fragmenter q :=
        ⟨h, Nat.lt_of_not_le hfits, by change _+8 ≤ 1500; omega, Or.inl hdf, hbound⟩
      obtain ⟨hcontinues, hone⟩ := hfrag.continues random
      have hflat := hcontinues.flatten
      rw [List.drop_zero] at hflat
      refine Or.inr ⟨hone, ?_, hflat, ?_⟩
      · intro hnil
        rw [hnil] at hflat
        have hlen := hfrag.lengths.2.2.2.1
        rw [← hflat] at hlen
        simp at hlen
      · intro x hx
        obtain ⟨pre, post, heq⟩ := List.append_of_mem hx
        rw [heq] at hcontinues
        have hf := hcontinues.split
        exact ⟨hf.checked, hf.size, hf.addresses.1, hf.addresses.2.1, hf.addresses.2.2, hf.protocol.1,
          hf.protocol.2.2⟩

/-- A packet that the path has to forward: checked, no broadcast, an offset within the
thirteen bits, and no timestamp option that is too short for its flags. -/
structure Forwardable (annos : Annos) (p : Packet) : Prop where
  checked : Checked p
  unicast : annos.broadcast = false
  bound : fragOffset p+(ipPayload p).length ≤ 65536
  stamps : IPGWOptions.shortTimestamp (headerLength p) p.data (headerLength p) 20 = false

/-- What one path makes of one packet. -/
inductive Disposition (path : ForwardPath) (annos : Annos) (p : Packet) (r : PathOutput) : Prop where
  | sent (nonempty : r.sent ≠ []) (errors : r.problems = [] ∧ r.expired = [] ∧ r.tooBig = [])
      (forwarded : ∀ q ∈ r.sent, Forwarded path annos p q)
      (payload : (r.sent.map ipPayload).flatten = ipPayload p)
  | problem (q : Packet) (oi : ℕ) (only : r.sent = [] ∧ r.expired = [] ∧ r.tooBig = [])
      (refused : r.problems = [(q, oi)])
  | expired (q : Packet) (only : r.sent = [] ∧ r.problems = [] ∧ r.tooBig = [])
      (late : r.expired = [q] ∧ (ipHeader p).ipTtl.toNat ≤ 1)
  | tooBig (q : Packet) (only : r.sent = [] ∧ r.problems = [] ∧ r.expired = [])
      (big : r.tooBig = [q] ∧ dontFragment p = true)

theorem same_offset {p q : Packet} (h : (ipHeader q).ipOff = (ipHeader p).ipOff) :
    fragOffset q = fragOffset p ∧ dontFragment q = dontFragment p := by
  unfold fragOffset dontFragment
  rw [h]
  exact ⟨rfl, rfl⟩

theorem ForwardPath.finish_disposes (path : ForwardPath) (annos : Annos) (random : UInt16) (p : Packet)
    (h : Checked p) (hbound : fragOffset p+(ipPayload p).length ≤ 65536) :
    Disposition path annos p (path.finish annos random p) := by
  obtain ⟨hfixed, hfpay, -, hfanno, sum, hfheader⟩ := FixIPSrc.keeps path.address annos.fixIpSrc p h
  unfold ForwardPath.finish
  dsimp only
  generalize FixIPSrc.simpleAction path.address annos.fixIpSrc p = q at *
  have httl : (ipHeader q).ipTtl = (ipHeader p).ipTtl := by rw [hfheader]
  rcases Nat.lt_or_ge 1 (ipHeader p).ipTtl.toNat with hlive | hdead
  · obtain ⟨x, hsent, hx, hxheader, -, hxpay, hxanno⟩ :=
      DecIPTTL.simpleAction_checked q hfixed (by rw [httl]; exact hlive)
    have hxttl : (ipHeader x).ipTtl.toNat+1 = (ipHeader p).ipTtl.toNat := by
      have hb := (ipHeader p).ipTtl.toNat_lt
      rw [hxheader, ← httl]
      change ((ipHeader q).ipTtl-1).toNat+1 = _
      rw [httl, UInt8.toNat_sub, UInt8.toNat_one]
      omega
    have hoff : (ipHeader x).ipOff = (ipHeader p).ipOff := by
      rw [hxheader]
      change (ipHeader q).ipOff = _
      rw [hfheader]
    obtain ⟨hxoff, hxdf⟩ := same_offset hoff
    have hpay : ipPayload x = ipPayload p := hxpay.trans hfpay
    rw [hsent]
    rcases fragmenter_disposes random x hx (by rw [hxoff, hpay]; exact hbound) with
      ⟨hs, hbig, hdf⟩ | ⟨hbig, hs, hflat, hall⟩
    · refine .tooBig x ⟨?_, rfl, rfl⟩ ⟨?_, by rw [← hxdf]; exact hdf⟩
      · exact (List.append_nil _).trans hs
      · exact (List.append_nil _).trans hbig
    · have hsentEq : (outputs 0 [.forward 0 x]).flatMap
          (fun q => outputs 0 (IPFragmenter.push fragmenter random q)) =
            outputs 0 (IPFragmenter.push fragmenter random x) := List.append_nil _
      refine .sent ?_ ⟨rfl, rfl, ?_⟩ ?_ ?_
      · rw [hsentEq]
        exact hs
      · exact (List.append_nil _).trans hbig
      · intro y hy
        rw [hsentEq] at hy
        obtain ⟨hc, hsize, hsrc, hdst, hanno, hproto, hyttl⟩ := hall y hy
        refine ⟨hc, hsize, ⟨?_, ?_⟩, ?_, ?_, by rw [hyttl]; exact hxttl⟩
        · rw [hdst, hxheader]
          change (ipHeader q).ipDst = _
          rw [hfheader]
        · rw [hanno, hxanno, hfanno]
        · rw [hsrc, hxheader]
          change (ipHeader q).ipSrc = _
          rw [hfheader]
        · rw [hproto, hxheader]
          change (ipHeader q).ipP = _
          rw [hfheader]
      · rw [hsentEq, hflat, hpay]
  · have hsent : DecIPTTL.simpleAction q = [.forward 1 q] := by
      unfold DecIPTTL.simpleAction
      rw [httl, if_pos hdead]
    rw [hsent]
    exact .expired q ⟨rfl, rfl, rfl⟩ ⟨rfl, hdead⟩

/-- No packet is lost on a forwarding path, and none is sent twice: it goes on, in as many
fragments as it takes, with a valid header and the same payload, or exactly one error output
gets it. -/
theorem forward_path_disposes (path : ForwardPath) (annos : Annos) (ms : UInt32) (random : UInt16)
    (p : Packet) (h : Forwardable annos p) :
    Disposition path annos p (path.run annos ms random p) := by
  unfold ForwardPath.run
  rw [h.unicast, if_neg Bool.false_ne_true]
  dsimp only
  cases hopt : IPGWOptions.simpleAction ⟨path.address, [path.address]⟩ ms p with
  | error e => exact .problem e.1 e.2 ⟨rfl, rfl, rfl⟩ rfl
  | ok q =>
    obtain ⟨hq, hpay, -, hanno, sum, hheader⟩ :=
      IPGWOptions.simpleAction_keeps ⟨path.address, [path.address]⟩ ms p q h.checked h.stamps hopt
    have hoff := same_offset (p := p) (q := q) (by rw [hheader])
    have hd := path.finish_disposes annos random q hq (by rw [hoff.1, hpay]; exact h.bound)
    dsimp only
    cases hd with
    | sent nonempty errors forwarded payload =>
      refine .sent nonempty errors ?_ (payload.trans hpay)
      intro x hx
      obtain ⟨hc, hsize, hdst, hsrc, hproto, httl⟩ := forwarded x hx
      rw [hheader] at hdst hsrc hproto httl
      rw [hanno] at hdst
      exact ⟨hc, hsize, hdst, hsrc, hproto, httl⟩
    | problem x oi only refused => exact .problem x oi only refused
    | expired x only late =>
      rw [hheader] at late
      exact .expired x only late
    | tooBig x only big =>
      rw [hoff.2] at big
      exact .tooBig x only big

end MobileIP
