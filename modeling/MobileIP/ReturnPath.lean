import MobileIP.DataPath
import MobileIP.MobileRuns

/-! The mobile node's router and the host behind it, which answers echo requests. The results are
about the way back: what the node sends while it is connected goes by the foreign agent. -/
namespace MobileIP

open LittleEndian OnesComplement VectorSearch LinearIPLookup

/-- `click_update_in_cksum`. -/
def clickUpdateInCksum (csum oldHw newHw : UInt16) : UInt16 :=
  let sum := (~~~csum).toUInt32+(~~~oldHw).toUInt32+newHw.toUInt32
  let sum := (sum &&& (0xffff : UInt32))+(sum >>> 16)
  (~~~(sum+(sum >>> 16))).toUInt16

/-- `click_update_zero_in_cksum`. -/
def clickUpdateZeroInCksum (csum : UInt16) (x : Bytes) : UInt16 :=
  if csum = 0 ∧ x.all (fun b => b == 0) = true then 0xffff else csum

namespace ICMPPingResponder

/-- The halfword of time to live and protocol. -/
def ttlWord (ttl protocol : UInt8) : UInt16 := UInt16.ofNat (ttl.toNat+256*protocol.toNat)

/-- The IP header of the answer: neither the swap of the addresses nor the two updates need the
options. -/
def answerHeader (ip : ClickIp) : ClickIp :=
  { ip with
    ipSrc := ip.ipDst
    ipDst := ip.ipSrc
    ipOff := 0
    ipTtl := 255
    ipSum := clickUpdateInCksum (clickUpdateInCksum ip.ipSum ip.ipOff 0) (ttlWord ip.ipTtl ip.ipP)
      (ttlWord 255 ip.ipP) }

/-- The ICMP message of the answer: type and code are zero. -/
def answerMessage (t : Bytes) : Bytes :=
  let sum := clickUpdateInCksum (u16At t 2) (u16At t 0) 0
  let sum := clickUpdateZeroInCksum sum ([0, 0] ++ (le16 sum ++ t.drop 4))
  [0, 0] ++ (le16 sum ++ t.drop 4)

/-- What is answered, and not killed. -/
def Echo (p : Packet) : Prop := 8 ≤ (ipPayload p).length ∧ (ipHeader p).ipP = 1 ∧ byteAt (ipPayload p) 0 = 8

instance (p : Packet) : Decidable (Echo p) := inferInstanceAs (Decidable (_ ∧ _ ∧ _))

def simpleAction (p : Packet) : Option Packet :=
  if Echo p then
    some ⟨(answerHeader (ipHeader p)).toBytes ++ (ipOptions p ++ answerMessage (ipPayload p)),
      (ipHeader p).ipSrc⟩
  else none

end ICMPPingResponder

/-- In one's-complement arithmetic, the new checksum makes up for the new halfword. -/
theorem clickUpdateInCksum_mod (csum oldHw newHw : UInt16) :
    ((clickUpdateInCksum csum oldHw newHw).toNat+newHw.toNat)%65535 = (csum.toNat+oldHw.toNat)%65535 := by
  have hc := csum.toNat_lt
  have ho := oldHw.toNat_lt
  have hn := newHw.toNat_lt
  have hsize : UInt16.size-1 = 65535 := rfl
  have hs : ((~~~csum).toUInt32+(~~~oldHw).toUInt32+newHw.toUInt32).toNat =
      65535-csum.toNat+(65535-oldHw.toNat)+newHw.toNat := by
    rw [UInt32.toNat_add, UInt32.toNat_add, UInt16.toNat_toUInt32, UInt16.toNat_toUInt32,
      UInt16.toNat_toUInt32, UInt16.toNat_not, UInt16.toNat_not, hsize]
    omega
  have hf := toNat_fold ((~~~csum).toUInt32+(~~~oldHw).toUInt32+newHw.toUInt32)
  dsimp only at hf
  rw [hs] at hf
  unfold clickUpdateInCksum
  dsimp only
  rw [UInt32.toNat_toUInt16, toNat_complement]
  generalize (~~~csum).toUInt32+(~~~oldHw).toUInt32+newHw.toUInt32 = s at hf ⊢
  generalize (s &&& (0xffff : UInt32))+(s >>> 16)+(((s &&& (0xffff : UInt32))+(s >>> 16)) >>> 16) = t at hf ⊢
  have ht : t.toNat < 4294967296 := t.toNat_lt
  -- the folded sum is the residue, but for a sum of zero
  have hfold := fold16_eq (65535-csum.toNat+(65535-oldHw.toNat)+newHw.toNat) (by omega)
  rw [← hf] at hfold
  split_ifs at hfold with h0
  · omega
  · omega

theorem clickUpdateZeroInCksum_mod (csum : UInt16) (x : Bytes) :
    (clickUpdateZeroInCksum csum x).toNat%65535 = csum.toNat%65535 := by
  unfold clickUpdateZeroInCksum
  split_ifs with h0
  · rw [h0.1]
    rfl
  · rfl

namespace ICMPPingResponder

theorem toNat_ttlWord (ttl protocol : UInt8) : (ttlWord ttl protocol).toNat = ttl.toNat+256*protocol.toNat := by
  have ht := ttl.toNat_lt
  have hp := protocol.toNat_lt
  unfold ttlWord
  rw [UInt16.toNat_ofNat']
  omega

/-- The swap of the addresses does not count. -/
theorem wordSum_answerHeader (ip : ClickIp) (opts : Bytes) :
    wordSum ((answerHeader ip).toBytes ++ opts)+(ip.ipSum.toNat+ip.ipOff.toNat+(ttlWord ip.ipTtl ip.ipP).toNat) =
      wordSum (ip.toBytes ++ opts)+((answerHeader ip).ipSum.toNat+(ttlWord 255 ip.ipP).toNat) := by
  have hlen (x : UInt32) : (le32 x).length%2 = 0 := by simp [le32, le16]
  have hswap : wordSum (le32 ip.ipDst ++ le32 ip.ipSrc) = wordSum (le32 ip.ipSrc ++ le32 ip.ipDst) := by
    rw [wordSum_append _ _ (hlen _), wordSum_append _ _ (hlen _), Nat.add_comm]
  rw [wordSum_append _ opts (by rw [ClickIp.length_toBytes]),
    wordSum_append _ opts (by rw [ClickIp.length_toBytes]), toNat_ttlWord, toNat_ttlWord]
  simp only [ClickIp.toBytes, answerHeader, wordSum_cons_cons, wordSum_append_le16, hswap, UInt16.toNat_zero]
  omega

theorem answerHeader_sum (ip : ClickIp) :
    ((answerHeader ip).ipSum.toNat+(ttlWord 255 ip.ipP).toNat)%65535 =
      (ip.ipSum.toNat+ip.ipOff.toNat+(ttlWord ip.ipTtl ip.ipP).toNat)%65535 := by
  have hoff := clickUpdateInCksum_mod ip.ipSum ip.ipOff 0
  have httl := clickUpdateInCksum_mod (clickUpdateInCksum ip.ipSum ip.ipOff 0) (ttlWord ip.ipTtl ip.ipP)
    (ttlWord 255 ip.ipP)
  rw [UInt16.toNat_zero] at hoff
  unfold answerHeader
  dsimp only
  omega

theorem answerHeader_verifies (ip : ClickIp) (opts : Bytes) (hv : ip.ipV = 4) (ho : opts.length ≤ 40)
    (h : clickInCksum (ip.toBytes ++ opts) = 0) : clickInCksum ((answerHeader ip).toBytes ++ opts) = 0 := by
  have hlen (ip : ClickIp) : wordSum (ip.toBytes ++ opts) < 4294967296 := by
    have hle := wordSum_le (ip.toBytes ++ opts)
    rw [List.length_append, ClickIp.length_toBytes] at hle
    omega
  -- a version is never zero, so neither is the sum
  have hpos := DecIPTTL.wordSum_header_pos (answerHeader ip) opts hv
  have hsum := wordSum_header (answerHeader ip) opts
  have hwords := wordSum_answerHeader ip opts
  have hmod := answerHeader_sum ip
  rw [clickInCksum_eq_zero_iff _ (hlen ip), fold16_eq_max_iff _ (hlen ip)] at h
  rw [clickInCksum_eq_zero_iff _ (hlen _), fold16_eq_max_iff _ (hlen _)]
  omega

theorem wordSum_split (t : Bytes) (h : 4 ≤ t.length) :
    wordSum t = (u16At t 0).toNat+((u16At t 2).toNat+wordSum (t.drop 4)) := by
  match t, h with
  | a :: b :: x :: y :: d, _ =>
    have ha := a.toNat_lt
    have hb := b.toNat_lt
    have hx := x.toNat_lt
    have hy := y.toNat_lt
    have h0 : (u16At (a :: b :: x :: y :: d) 0).toNat = a.toNat+256*b.toNat := by
      change (UInt16.ofNat (a.toNat+256*b.toNat)).toNat = _
      rw [UInt16.toNat_ofNat']
      omega
    have h2 : (u16At (a :: b :: x :: y :: d) 2).toNat = x.toNat+256*y.toNat := by
      change (UInt16.ofNat (x.toNat+256*y.toNat)).toNat = _
      rw [UInt16.toNat_ofNat']
      omega
    rw [wordSum_cons_cons, wordSum_cons_cons, h0, h2]
    rfl

/-- The answer has a right checksum if the request had one. -/
theorem wordSum_answerMessage (t : Bytes) (h : 4 ≤ t.length) : wordSum (answerMessage t)%65535 = wordSum t%65535 := by
  have hsum := clickUpdateInCksum_mod (u16At t 2) (u16At t 0) 0
  rw [UInt16.toNat_zero] at hsum
  unfold answerMessage
  dsimp only
  generalize clickUpdateInCksum (u16At t 2) (u16At t 0) 0 = sum at *
  have hzero := clickUpdateZeroInCksum_mod sum ([0, 0] ++ (le16 sum ++ t.drop 4))
  generalize clickUpdateZeroInCksum sum ([0, 0] ++ (le16 sum ++ t.drop 4)) = sum' at *
  have hwords : wordSum ([0, 0] ++ (le16 sum' ++ t.drop 4)) = sum'.toNat+wordSum (t.drop 4) := by
    change 0+256*0+wordSum (le16 sum' ++ t.drop 4) = _
    rw [wordSum_append_le16]
    omega
  rw [hwords, wordSum_split t h]
  omega

theorem length_answerMessage (t : Bytes) (h : 4 ≤ t.length) : (answerMessage t).length = t.length := by
  change (le16 _ ++ t.drop 4).length+1+1 = _
  rw [List.length_append, List.length_drop]
  change 2+(t.length-4)+1+1 = _
  omega

/-- What an answer is. -/
structure Answers (p q : Packet) : Prop where
  checked : Checked q
  header : ipHeader q = answerHeader (ipHeader p)
  options : ipOptions q = ipOptions p
  message : ipPayload q = answerMessage (ipPayload p)
  checksum : 65535 ∣ wordSum (ipPayload q) ↔ 65535 ∣ wordSum (ipPayload p)
  anno : q.dstIpAnno = (ipHeader q).ipDst

theorem simpleAction_answers (p : Packet) (h : Checked p) (he : Echo p) :
    ∃ q, simpleAction p = some q ∧ Answers p q := by
  have hopts := length_ipOptions p h.header_le
  have h60 := headerLength_lt p
  have h20 := h.twenty_le
  have h8 := he.1
  have hl : 4*(answerHeader (ipHeader p)).ipHl.toNat = 20+(ipOptions p).length := by
    change headerLength p = _
    omega
  obtain ⟨hip, hhl, hopt, hpay, hlen, htake⟩ := packet_parts (answerHeader (ipHeader p)) (ipOptions p)
    (answerMessage (ipPayload p)) (ipHeader p).ipSrc hl
  refine ⟨_, if_pos he, ⟨?_, ?_, ?_, ?_, ?_⟩, hip, hopt, hpay, ?_, ?_⟩
  · rw [hip]
    exact h.version
  · rw [hip]
    exact h.header
  · omega
  · have htotal := h.total
    have hsplit : p.data.length = headerLength p+(ipPayload p).length := by
      have hle := h.header_le
      unfold ipPayload
      rw [List.length_drop]
      omega
    rw [hip, hlen, length_answerMessage _ (by omega)]
    change (ntohs (ipHeader p).ipLen).toNat = _
    omega
  · rw [htake]
    refine answerHeader_verifies _ _ h.version (by omega) ?_
    rw [← take_header p h.length h20]
    exact h.checksum
  · rw [hpay, Nat.dvd_iff_mod_eq_zero, Nat.dvd_iff_mod_eq_zero, wordSum_answerMessage _ (by omega)]
  · rw [hip]
    rfl

end ICMPPingResponder

/-- `MNInfo::push`. -/
def MNInfo.push (mn : MNInfo) (p : Packet) : Packet :=
  if mn.connected then { p with dstIpAnno := mn.foreignAgent } else p

/-- The parameters of the mobile node's script; its address comes with the mask of its network. -/
structure Node where
  address : IPAddress
  mask : IPAddress
  gateway : IPAddress
  homeAgent : IPAddress

namespace Node

def routes (n : Node) : List (Option RouteWords) :=
  [some ⟨n.address, 0xFFFFFFFF, 0, 0⟩, some ⟨n.address, n.mask, 0, 1⟩, some ⟨0, 0, n.gateway, 1⟩]

def table (n : Node) : LinearIPLookup := (configure 2 n.routes).1

def path (n : Node) : ForwardPath := ⟨n.address, 1⟩

end Node

structure NodeRouter where
  table : LinearIPLookup
  mobile : Mobile

namespace NodeRouter

inductive Input where
  | packet (x : Arrival) (now : ℕ) (draw : Draw)
  -- the timers of `RegReq`, of `RegNode` and of the agent in a slot
  | tickRequests
  | tickNode (draw : Draw)
  | tickAgent (now choice : ℕ) (draw : Draw) (i : ℕ)

/-- `MNInfo` does not set its lifetime. -/
def start (n : Node) (lifetime : UInt16) : NodeRouter :=
  ⟨n.table, Mobile.configure (MNInfo.configure n.homeAgent n.address n.gateway lifetime) 3⟩

/-- The path behind `ProcessAdvertisements` and `Info`. It is that of the agents without
`PaintTee`. -/
def forward (n : Node) (mn : MNInfo) (x : Arrival) (p : Packet) : List (Outlet × Packet) :=
  let r := { n.path.run x.annos x.ms x.random p with redirects := [] }
  r.sent.map (fun q => (.privateNet, mn.push q)) ++ r.errors

def sends (s : NodeRouter) (i : Mobile.Input) : NodeRouter × List (Outlet × Packet) :=
  let r := Mobile.step s.mobile i
  ({ s with mobile := r.1 }, r.2.map (fun q => (.privateNet, q)))

/-- The outputs of `rt`. -/
def route (n : Node) (s : NodeRouter) (x : Arrival) (now : ℕ) (draw : Draw) (port : ℤ) (p : Packet) :
    NodeRouter × List (Outlet × Packet) :=
  if port = 0 then (s, [(.host, p)])
  else
    let acts := (ProcessAdvertisements.push s.mobile.pa s.mobile.mn now p).acts
    let r := sends s (.packet now draw p)
    (r.1, (outputs 0 acts).flatMap (forward n r.1.mobile.mn x) ++ r.2)

def step (n : Node) (s : NodeRouter) : Input → NodeRouter × List (Outlet × Packet)
  | .packet x now draw =>
    match CheckIPHeader.simpleAction x.packet with
    | none => (s, [])
    | some (p, _) =>
      if registrationPort p then sends s (.reply p)
      else
        let r := LinearIPLookup.push s.table p
        match r.2 with
        | none => ({ s with table := r.1 }, [])
        | some (port, q) => route n { s with table := r.1 } x now draw port q
  | .tickRequests => sends s .tickRequests
  | .tickNode draw => sends s (.tickNode draw)
  | .tickAgent now choice draw i => sends s (.tickAgent now choice draw i)

end NodeRouter

namespace Node

variable {n : Node} {s : LinearIPLookup}

/-- An address that the node reaches by its gateway only. -/
structure Remote (n : Node) (dst : IPAddress) : Prop where
  nonzero : dst ≠ 0
  other : dst ≠ n.address
  outside : dst &&& n.mask ≠ n.address &&& n.mask

theorem to_self (h : Keeps 2 n.routes s) (p : Packet) (hd : p.dstIpAnno = n.address) (h0 : n.address ≠ 0) :
    (LinearIPLookup.push s p).2 = some (0, p) := by
  apply h.to_self p (by rw [hd]; exact h0)
  rw [hd, mapConfigure_apply]
  unfold Node.routes
  rw [List.findSome?_cons, listed_self (by decide)]

theorem to_gateway (h : Keeps 2 n.routes s) (p : Packet) (hd : n.Remote p.dstIpAnno) (hg : n.gateway ≠ 0) :
    (LinearIPLookup.push s p).2 = some (1, { p with dstIpAnno := n.gateway }) := by
  have hrouted := h.inv.pushPlain_routed p (Or.inl hd.nonzero)
  rw [h.routes] at hrouted
  rw [(h.inv.push_spec p).2.2]
  have hout := hrouted.decided (0, 0) (n.gateway, 1) ?_ ?_ ?_
  · rw [hout, if_pos hg]
  · -- a network route for every address would be for this one
    have hmask : n.mask ≠ 0 := by
      intro h0
      exact hd.outside (by rw [h0, UInt32.and_zero, UInt32.and_zero])
    have hhost : listed 2 (0, 0) (some ⟨n.address, 0xFFFFFFFF, 0, 0⟩) = none :=
      listed_other (show (0xFFFFFFFF : IPAddress) ≠ 0 by decide)
    have hnet : listed 2 (0, 0) (some ⟨n.address, n.mask, 0, 1⟩) = none := listed_other hmask
    have hown : listed 2 (0, 0) (some ⟨0, 0, n.gateway, 1⟩) = some (n.gateway, 1) :=
      listed_default (by decide) (by decide)
    rw [mapConfigure_apply]
    unfold Node.routes
    rw [List.findSome?_cons, hhost, List.findSome?_cons, hnet, List.findSome?_cons, hown]
  · rw [matchesPrefix_iff, UInt32.and_zero, UInt32.and_zero]
  · intro q' v' hq' hc'
    rw [mapConfigure_apply] at hq'
    obtain ⟨w, hw, hl⟩ := List.exists_of_findSome?_eq_some hq'
    have hcases : w = some ⟨n.address, 0xFFFFFFFF, 0, 0⟩ ∨ w = some ⟨n.address, n.mask, 0, 1⟩ ∨
        w = some ⟨0, 0, n.gateway, 1⟩ := by
      unfold Node.routes at hw
      simpa using hw
    rcases hcases with rfl | rfl | rfl
    · exact absurd (listed_host hl hc') hd.other
    · exact absurd (listed_covers hl hc').1 hd.outside
    · rw [(listed_covers hl hc').2]
      exact maskAsSpecific_refl _

end Node

theorem MNInfo.push_data (mn : MNInfo) (p : Packet) : (mn.push p).data = p.data := by
  unfold MNInfo.push
  split_ifs
  · rfl
  · rfl

theorem MNInfo.push_anno (mn : MNInfo) (p : Packet) :
    (mn.push p).dstIpAnno = if mn.connected then mn.foreignAgent else p.dstIpAnno := by
  unfold MNInfo.push
  split_ifs
  · rfl
  · rfl

/-- Without options there is nothing for `IPGWOptions` to do, and nothing that it could refuse. -/
theorem IPGWOptions.simpleAction_plain (g : IPGWOptions) (ms : UInt32) {p : Packet} (h : headerLength p = 20) :
    simpleAction g ms p = .ok p :=
  if_pos (Nat.le_of_eq h)

theorem IPGWOptions.shortTimestamp_plain {p : Packet} (h : headerLength p = 20) :
    shortTimestamp (headerLength p) p.data (headerLength p) 20 = false := by
  rw [h, shortTimestamp]
  exact if_pos (Nat.le_refl 20)

theorem ForwardPath.problems_plain (path : ForwardPath) (annos : Annos) (ms : UInt32) (random : UInt16)
    (p : Packet) (h : headerLength p = 20) : (path.run annos ms random p).problems = [] := by
  unfold ForwardPath.run
  rw [IPGWOptions.simpleAction_plain ⟨path.address, [path.address]⟩ ms h]
  by_cases hb : annos.broadcast = true
  · rw [if_pos hb]
  · rw [if_neg hb]
    rfl

/-- An answer can be sent, whatever its next hop: its flags and its time to live are new. -/
theorem ICMPPingResponder.Answers.forwardable {p q : Packet} (ha : Answers p q) (hop : IPAddress)
    (annos : Annos) (hcast : annos.broadcast = false) (hlen : headerLength q = 20) :
    let q' : Packet := { q with dstIpAnno := hop }
    Forwardable annos q' ∧ 1 < (ipHeader q').ipTtl.toNat ∧ dontFragment q' = false := by
  intro q'
  have hheader : ipHeader q' = answerHeader (ipHeader p) := ha.header
  have hchecked : Checked q' := ha.checked.of_data rfl
  have hzero : (ntohs (ipHeader q').ipOff).toNat = 0 := by
    rw [hheader]
    exact (show (ntohs 0).toNat = 0 by decide)
  have hoff : fragOffset q' = 0 := by
    unfold fragOffset
    rw [hzero]
  refine ⟨⟨hchecked, hcast, ?_, IPGWOptions.shortTimestamp_plain hlen⟩, ?_, ?_⟩
  · have hlt := hchecked.length_lt
    unfold ipPayload
    rw [hoff, List.length_drop]
    omega
  · rw [hheader]
    exact (show 1 < (255 : UInt8).toNat by decide)
  · unfold dontFragment
    rw [hzero]
    rfl

namespace NodeRouter

variable (n : Node) (s : NodeRouter)

theorem route_table (x : Arrival) (now : ℕ) (draw : Draw) (port : ℤ) (p : Packet) :
    (route n s x now draw port p).1.table = s.table := by
  unfold route
  split_ifs
  · rfl
  · rfl

theorem keeps_step (h : Keeps 2 n.routes s.table) (i : Input) :
    Keeps 2 n.routes (step n s i).1.table := by
  cases i with
  | packet x now draw =>
    unfold step
    dsimp only
    cases CheckIPHeader.simpleAction x.packet with
    | none => exact h
    | some r =>
      have hpush := h.push r.1
      dsimp only
      split_ifs
      · exact h
      · cases (LinearIPLookup.push s.table r.1).2 with
        | none => exact hpush
        | some o =>
          dsimp only
          rw [route_table]
          exact hpush
  | tickRequests => exact h
  | tickNode draw => exact h
  | tickAgent now choice draw i => exact h

theorem keeps_run (lifetime : UInt16) (inputs : List Input) :
    Keeps 2 n.routes (Runs.final (step n) (start n lifetime) inputs).table :=
  Keeps.run (step n) NodeRouter.table (start n lifetime) (keeps_configure 2 n.routes)
    (fun s i h => keeps_step n s h i) inputs

variable {n} {s}

theorem step_to_host (hkeeps : Keeps 2 n.routes s.table) (x : Arrival) (now : ℕ) (draw : Draw)
    {p : Packet} {offset : ℕ}
    (hcheck : CheckIPHeader.simpleAction x.packet = some (p, offset)) (hdata : registrationPort p = false)
    (hdst : (ipHeader p).ipDst = n.address) (h0 : n.address ≠ 0) :
    step n s (.packet x now draw) =
      ({ s with table := (LinearIPLookup.push s.table p).1 }, [(.host, p)]) := by
  obtain ⟨-, -, hanno, -, -⟩ := CheckIPHeader_spec x.packet p offset hcheck
  unfold step
  dsimp only
  rw [hcheck]
  dsimp only
  rw [hdata, if_neg Bool.false_ne_true, Node.to_self hkeeps p (hanno.trans hdst) h0]
  rfl

theorem step_to_gateway (hkeeps : Keeps 2 n.routes s.table) (x : Arrival) (now : ℕ) (draw : Draw)
    {p : Packet} {offset : ℕ}
    (hcheck : CheckIPHeader.simpleAction x.packet = some (p, offset)) (hdata : registrationPort p = false)
    (hdst : n.Remote (ipHeader p).ipDst) (hg : n.gateway ≠ 0) (hadv : ¬ ProcessAdvertisements.advertises p) :
    (step n s (.packet x now draw)).2 = forward n s.mobile.mn x { p with dstIpAnno := n.gateway } := by
  obtain ⟨-, -, hanno, -, -⟩ := CheckIPHeader_spec x.packet p offset hcheck
  have hpush : ProcessAdvertisements.push s.mobile.pa s.mobile.mn now { p with dstIpAnno := n.gateway } =
      ⟨s.mobile.pa, s.mobile.mn, [], [.forward 0 { p with dstIpAnno := n.gateway }]⟩ := if_neg hadv
  unfold step
  dsimp only
  rw [hcheck]
  dsimp only
  rw [hdata, if_neg Bool.false_ne_true, Node.to_gateway hkeeps p (by rw [hanno]; exact hdst) hg]
  dsimp only
  unfold route sends Mobile.step
  rw [if_neg (by decide)]
  dsimp only
  rw [hpush]
  change forward n s.mobile.mn x _ ++ [] ++ [] = _
  rw [List.append_nil, List.append_nil]

/-- A packet without options that may be fragmented and is not about to expire is sent. -/
theorem forward_plain (mn : MNInfo) (x : Arrival) (p : Packet) (h : Forwardable x.annos p)
    (hopt : headerLength p = 20) (httl : 1 < (ipHeader p).ipTtl.toNat) (hdf : dontFragment p = false) :
    ∃ sent, forward n mn x p = sent.map (fun q => (.privateNet, mn.push q)) ∧ sent ≠ [] ∧
      (∀ q ∈ sent, Forwarded n.path x.annos p q) ∧ (sent.map ipPayload).flatten = ipPayload p := by
  have hplain := n.path.problems_plain x.annos x.ms x.random p hopt
  cases forward_path_disposes n.path x.annos x.ms x.random p h with
  | sent nonempty errors forwarded payload =>
    refine ⟨_, ?_, nonempty, forwarded, payload⟩
    unfold forward PathOutput.errors
    dsimp only
    rw [errors.1, errors.2.1, errors.2.2]
    exact List.append_nil _
  | problem q oi only refused =>
    rw [hplain] at refused
    cases refused
  | expired q only late => exact absurd httl (Nat.not_lt.mpr late.2)
  | tooBig q only big =>
    rw [hdf] at big
    exact absurd big.2 Bool.false_ne_true

theorem registrationPort_icmp {p : Packet} (h : (ipHeader p).ipP = 1) : registrationPort p = false := by
  unfold registrationPort
  dsimp only
  rw [h]
  rfl

/-- The answer of the host goes to the gateway, as far as the table is concerned. -/
theorem step_answer (hkeeps : Keeps 2 n.routes s.table) {p q : Packet} (ha : ICMPPingResponder.Answers p q)
    (hecho : ICMPPingResponder.Echo p) (hlen : headerLength q = 20) (hsrc : n.Remote (ipHeader p).ipSrc)
    (hg : n.gateway ≠ 0) (y : Arrival) (hy : y.packet = q) (now : ℕ) (draw : Draw) :
    (step n s (.packet y now draw)).2 = forward n s.mobile.mn y { q with dstIpAnno := n.gateway } := by
  have hcheck : CheckIPHeader.simpleAction y.packet = some (q, headerLength q) := by
    rw [hy, ha.checked.passes, ← ha.anno]
  -- the type of the answer is zero
  have hadv : ¬ ProcessAdvertisements.advertises q := by
    rintro ⟨-, htype, -⟩
    have hbyte : (ProcessAdvertisements.ah q).type = byteAt (ipPayload q) 0 := by
      unfold ipPayload
      rw [hlen]
      rfl
    rw [hbyte, ha.message] at htype
    exact absurd htype (show (0 : UInt8) ≠ 9 by decide)
  refine step_to_gateway hkeeps y now draw hcheck (registrationPort_icmp ?_) ?_ hg hadv
  · rw [ha.header]
    exact hecho.2.1
  · rw [ha.header]
    exact hsrc

/-- A request for the node goes to its host, and the answer of the host to the path. -/
theorem host_answers (hkeeps : Keeps 2 n.routes s.table) (x : Arrival) (now : ℕ) (draw : Draw)
    {p : Packet} {offset : ℕ}
    (hcheck : CheckIPHeader.simpleAction x.packet = some (p, offset)) (hecho : ICMPPingResponder.Echo p)
    (hplain : headerLength p = 20) (hdst : (ipHeader p).ipDst = n.address) (h0 : n.address ≠ 0)
    (hsrc : n.Remote (ipHeader p).ipSrc) (hg : n.gateway ≠ 0) :
    let r := step n s (.packet x now draw)
    r.2 = [(.host, p)] ∧ ∃ q, ICMPPingResponder.simpleAction p = some q ∧ ICMPPingResponder.Answers p q ∧
      headerLength q = 20 ∧ ∀ (y : Arrival) (now' : ℕ) (draw' : Draw), y.packet = q →
        (step n r.1 (.packet y now' draw')).2 = forward n s.mobile.mn y { q with dstIpAnno := n.gateway } := by
  intro r
  have hr : r = ({ s with table := (LinearIPLookup.push s.table p).1 }, [(.host, p)]) :=
    step_to_host hkeeps x now draw hcheck (registrationPort_icmp hecho.2.1) hdst h0
  have hnext : Keeps 2 n.routes r.1.table := by
    rw [hr]
    exact hkeeps.push p
  -- the host's answer finds the node as the request has left it
  have hmn : r.1.mobile.mn = s.mobile.mn := by rw [hr]
  obtain ⟨q, hq, ha⟩ := ICMPPingResponder.simpleAction_answers p (CheckIPHeader_spec _ _ _ hcheck).1 hecho
  have hlen : headerLength q = 20 := by
    unfold headerLength
    rw [ha.header]
    exact hplain
  refine ⟨by rw [hr], q, hq, ha, hlen, ?_⟩
  intro y now' draw' hy
  rw [← hmn]
  exact step_answer hnext ha hecho hlen hsrc hg y hy now' draw'

/-- The way back as a whole. Whatever the node's router has done before: an echo request for the node
is handed to its host, the host answers it, and the answer is sent, in as many fragments as it
takes, with the addresses the other way round. Its next hop is the foreign agent while the node is
connected, and else the gateway. -/
theorem ping_is_answered (n : Node) (lifetime : UInt16) (inputs : List Input) (x : Arrival) (now : ℕ)
    (draw : Draw) (p : Packet) (offset : ℕ)
    (hcheck : CheckIPHeader.simpleAction x.packet = some (p, offset)) (hecho : ICMPPingResponder.Echo p)
    (hplain : headerLength p = 20) (hdst : (ipHeader p).ipDst = n.address) (h0 : n.address ≠ 0)
    (hsrc : n.Remote (ipHeader p).ipSrc) (hg : n.gateway ≠ 0) :
    let s := Runs.final (step n) (start n lifetime) inputs
    let r := step n s (.packet x now draw)
    r.2 = [(.host, p)] ∧ ∃ q, ICMPPingResponder.simpleAction p = some q ∧ ICMPPingResponder.Answers p q ∧
      ∀ y now' draw', y.packet = q → y.annos.broadcast = false →
        ∃ sent, (step n r.1 (.packet y now' draw')).2 = sent.map (fun f => (.privateNet, f)) ∧ sent ≠ [] ∧
          (sent.map ipPayload).flatten = ICMPPingResponder.answerMessage (ipPayload p) ∧
          ∀ f ∈ sent, Checked f ∧ f.data.length ≤ 1500 ∧ (ipHeader f).ipSrc = n.address ∧
            (ipHeader f).ipDst = (ipHeader p).ipSrc ∧
            f.dstIpAnno = if s.mobile.mn.connected then s.mobile.mn.foreignAgent else n.gateway := by
  intro s r
  obtain ⟨hhost, q, hq, ha, hlen, hsends⟩ := host_answers (keeps_run n lifetime inputs) x now draw hcheck hecho
    hplain hdst h0 hsrc hg
  refine ⟨hhost, q, hq, ha, ?_⟩
  intro y now' draw' hy hcast
  obtain ⟨hforward, httl, hdf⟩ := ha.forwardable n.gateway y.annos hcast hlen
  obtain ⟨sent, hout, hsome, hall, hflat⟩ := forward_plain (n := n) s.mobile.mn y _ hforward hlen httl hdf
  have hpay (f : Packet) : ipPayload (s.mobile.mn.push f) = ipPayload f := by
    unfold ipPayload headerLength ipHeader
    rw [MNInfo.push_data]
  refine ⟨sent.map s.mobile.mn.push, ?_, ?_, ?_, ?_⟩
  · rw [hsends y now' draw' hy, hout, List.map_map]
    rfl
  · rw [ne_eq, List.map_eq_nil_iff]
    exact hsome
  · rw [List.map_map, ← ha.message]
    have hsame : ipPayload ∘ s.mobile.mn.push = ipPayload := funext hpay
    rw [hsame]
    exact hflat
  · intro f hf
    obtain ⟨g, hg, rfl⟩ := List.mem_map.mp hf
    obtain ⟨hc, hsize, ⟨hgdst, hanno⟩, hgsrc, -, -⟩ := hall g hg
    have hheader : ipHeader (s.mobile.mn.push g) = ipHeader g := by
      unfold ipHeader
      rw [MNInfo.push_data]
    refine ⟨hc.of_data (MNInfo.push_data _ _), by rw [MNInfo.push_data]; exact hsize, ?_, ?_, ?_⟩
    · rw [hheader, hgsrc]
      split_ifs
      · rfl
      · change (ipHeader q).ipSrc = _
        rw [ha.header]
        exact hdst
    · rw [hheader, hgdst]
      change (ipHeader q).ipDst = _
      rw [ha.header]
      rfl
    · rw [MNInfo.push_anno, hanno]

end NodeRouter

namespace Deployment

def mobileNode : Node :=
  ⟨mobileNodeAddress, ipv4 255 255 255 0, homeAgentPrivateAddress, homeAgentPublicAddress⟩

def firstOut (l : List (Outlet × Packet)) : Packet := (l.map Prod.snd).headD ⟨[], 0⟩

/-- The reply to the node's first request, after the way to the home agent and back. -/
def relayedReply : Packet :=
  let request := (RegReq.makePacket info ⟨1, 1⟩ foreignAgentPrivateAddress 100 foreignAgentPublicAddress).2
  let f := ForeignRouter.step foreignRouter relay (ForeignRouter.start foreignRouter) (.packet (arrival request))
  let h := HomeRouter.step homeRouter (HomeRouter.start homeRouter) (arrival (firstOut f.2))
  firstOut (ForeignRouter.step foreignRouter relay f.1 (.packet (arrival (firstOut h.2)))).2

/-- The node hears the foreign agent and is registered. -/
def nodeRun : List NodeRouter.Input :=
  [.packet (arrival foreignAdvertisement) 5 ⟨1, 1⟩, .packet (arrival relayedReply) 6 ⟨2, 2⟩]

end Deployment

namespace NodeRouter

theorem connected_node_answers :
    let s := Runs.final (step Deployment.mobileNode) (start Deployment.mobileNode 0) Deployment.nodeRun
    let p := Deployment.datagram 1 [8, 0, 0xf7, 0xfd, 0, 1, 0, 1]
    let r := step Deployment.mobileNode s (.packet (Deployment.arrival p) 7 ⟨3, 3⟩)
    s.mobile.mn.connected = true ∧ r.2 = [(.host, p)] ∧
      ∃ q, ICMPPingResponder.simpleAction p = some q ∧
        ∃ sent, (step Deployment.mobileNode r.1 (.packet (Deployment.arrival q) 8 ⟨4, 4⟩)).2 =
            sent.map (fun f => (.privateNet, f)) ∧ sent ≠ [] ∧
          ∀ f ∈ sent, (ipHeader f).ipDst = Deployment.correspondingNodeAddress ∧
            f.dstIpAnno = Deployment.foreignAgentPrivateAddress := by
  intro s p r
  have hmn : s.mobile.mn.connected = true ∧ s.mobile.mn.foreignAgent = Deployment.foreignAgentPrivateAddress := by
    decide +kernel
  obtain ⟨hhost, q, hq, -, hanswer⟩ := ping_is_answered Deployment.mobileNode 0 Deployment.nodeRun
    (Deployment.arrival p) 7 ⟨3, 3⟩ p 20 (by decide) (by decide) (by decide) (by decide) (by decide)
    ⟨by decide, by decide, by decide⟩ (by decide)
  obtain ⟨sent, hsent, hsome, -, hall⟩ := hanswer (Deployment.arrival q) 8 ⟨4, 4⟩ rfl rfl
  refine ⟨hmn.1, hhost, q, hq, sent, hsent, hsome, ?_⟩
  intro f hf
  obtain ⟨-, -, -, hdst, hanno⟩ := hall f hf
  rw [hdst, hanno, if_pos hmn.1, hmn.2]
  exact ⟨by decide, rfl⟩

end NodeRouter

end MobileIP
