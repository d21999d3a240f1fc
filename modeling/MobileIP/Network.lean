import MobileIP.RoundTrip
import MobileIP.Bindings

/-! The three nodes and the network between them. A message stays in flight until it
is delivered or lost, in any order; the network may answer a request with an ICMP
error. Each step reports what happened to the registration. -/
namespace MobileIP

open LittleEndian VectorSearch

namespace Network

inductive Message where
  | request (p : Packet)
  | reply (p : Packet)
  | icmp (p : Packet)
  deriving DecidableEq, Repr

def Message.packet : Message → Packet
  | .request p => p
  | .reply p => p
  | .icmp p => p

structure World extends Parties where
  net : List Message
  deriving DecidableEq, Repr

/-- What a step did: `RegReq` sent a request to `dest`, `RegRep` accepted a request,
`RegRep` added the binding of a request it accepted, `RegNode` set `_connected` on a
reply. -/
inductive Event where
  | requested (req : RegreqH) (dest : IPAddress)
  | accepted (req : RegreqH)
  | bound (req : RegreqH)
  | connected (identification : UInt64)
  deriving DecidableEq, Repr

inductive Input where
  -- an advertisement reaches `RegReq`
  | advertise (draw : Draw) (adv : Packet)
  -- `ProcessAdvertisements` changes the stored advertisements
  | store (advertisements : List (IPAddress × Packet))
  -- the message at a place is delivered to `Relay`, `RegRep` or `RegNode`, or lost
  | toRelay (i : ℕ) (rand : ℕ) (ether : Ether)
  | toHome (i : ℕ)
  | toNode (i : ℕ)
  | lose (i : ℕ)
  -- the network answers the request at a place with the ICMP message `p`
  | unreachable (i : ℕ) (p : Packet)
  -- the timers of `RegReq`, `RegNode` and `Relay`
  | tickRequests
  | tickNode (draw : Draw)
  | tickRelay

/-- The ICMP message `p` is a destination-unreachable that quotes the packet `q`, that
is its IP header and the eight bytes behind it. The routers on the way may have
changed the time to live and the header checksum. -/
def Quotes (p q : Packet) : Prop :=
  let quoted := p.data.drop (sizeofClickIp+sizeofClickIcmp)
  let origip := ClickIp.ofBytes quoted
  (ClickIp.ofBytes p.data).ipP = 1 ∧ (ClickIcmp.ofBytes (p.data.drop sizeofClickIp)).icmpType = 3 ∧
    origip = { ClickIp.ofBytes q.data with ipTtl := origip.ipTtl, ipSum := origip.ipSum } ∧
    (quoted.drop sizeofClickIp).take 8 = (q.data.drop sizeofClickIp).take 8

instance (p q : Packet) : Decidable (Quotes p q) := inferInstanceAs (Decidable (_ ∧ _ ∧ _ ∧ _))

/-- `RegNode::push` sets `_connected`: it is set afterwards even if it was not before. -/
def setsConnected (node : RegNode) (mn : MNInfo) (p : Packet) : Prop :=
  (RegNode.push node { mn with connected := false } p).2.1.connected = true

instance (node : RegNode) (mn : MNInfo) (p : Packet) : Decidable (setsConnected node mn p) :=
  inferInstanceAs (Decidable (_ = _))

def requestedEvent (p : Packet) : Event :=
  .requested (RegRep.request p) (ClickIp.ofBytes p.data).ipDst

/-- The mobile node becomes `mn` and the requests `sent` are in flight. -/
def sendRequests (w : World) (mn : MNInfo) (sent : List Packet) : World × List Event :=
  ({ w with mn := mn, net := w.net ++ sent.map .request }, sent.map requestedEvent)

def tickNode (w : World) (draw : Draw) : World × List Event :=
  -- only if the timer is scheduled
  if w.node.timer then
    let r := RegNode.runTimer w.node w.mn draw
    sendRequests { w with node := r.1 } r.2.1 (outputs 0 r.2.2.2)
  else (w, [])

/-- `Relay` takes the message `m`, which leaves `rest` in flight. Its output 1 leads
through `Strip(14)` to the home agent, its output 0 to the mobile node. -/
def toRelay (relay : Relay) (w : World) (rest : List Message) (m : Message) (rand : ℕ)
    (ether : Ether) : World :=
  let r := Relay.push relay w.fa rand (m.packet.frame ether.bytes)
  { w with
    fa := r.1
    net := rest ++ ((outputs 1 r.2).map (fun p => .request p.strip) ++ (outputs 0 r.2).map .reply) }

/-- What happens when `RegRep` takes the request `p`: it may accept it, and then it may
have added the request's binding. -/
def homeEvents (ha : HA) (p : Packet) : List Event :=
  let req := RegRep.request p
  if RegRep.accepts ha p then
    .accepted req ::
      (if (RegRep.push ha p).1.mobilityBindings = ha.mobilityBindings ++ [RegRep.newBinding req] then
        [.bound req]
      else [])
  else []

/-- `RegRep` takes the request `p`. Both of its outputs lead back to the mobile node. -/
def toHome (w : World) (rest : List Message) (p : Packet) : World × List Event :=
  let r := RegRep.push w.ha p
  ({ w with ha := r.1, net := rest ++ (outputs 0 r.2 ++ outputs 1 r.2).map .reply },
    homeEvents w.ha p)

def toNode (w : World) (rest : List Message) (p : Packet) : World × List Event :=
  let r := RegNode.push w.node w.mn p
  ({ w with node := r.1, mn := r.2.1, net := rest },
    if setsConnected w.node w.mn p then
      [.connected (RegrepH.ofBytes (p.data.drop (sizeofClickIp+sizeofClickUdp))).identification]
    else [])

def step (relay : Relay) (w : World) : Input → World × List Event
  | .advertise draw adv =>
    let r := RegReq.push w.mn draw adv
    sendRequests w r.1 (outputs 0 r.2)
  | .store advertisements => ({ w with mn := { w.mn with advertisements := advertisements } }, [])
  | .toRelay i rand ether =>
    match w.net[i]? with
    | some m => (toRelay relay w (w.net.eraseIdx i) m rand ether, [])
    | none => (w, [])
  | .toHome i =>
    match w.net[i]? with
    | some (.request p) => toHome w (w.net.eraseIdx i) p
    | _ => (w, [])
  | .toNode i =>
    match w.net[i]? with
    | some (.reply p) => toNode w (w.net.eraseIdx i) p
    | _ => (w, [])
  | .lose i => ({ w with net := w.net.eraseIdx i }, [])
  | .unreachable i p =>
    match w.net[i]? with
    | some (.request q) => if Quotes p q then ({ w with net := w.net ++ [.icmp p] }, []) else (w, [])
    | _ => (w, [])
  | .tickRequests => ({ w with mn := RegReq.runTimer w.mn }, [])
  | .tickNode draw => tickNode w draw
  | .tickRelay =>
    let r := Relay.runTimer w.fa
    ({ w with fa := r.1, net := w.net ++ (outputs 0 r.2).map .reply }, [])

/-- The transitions of the network; a delivery from a place without a fitting message
does nothing. -/
inductive Transition (relay : Relay) (w : World) : Input → World → List Event → Prop where
  | idle (i : Input) : Transition relay w i w []
  | advertise (draw : Draw) (adv : Packet) :
      Transition relay w (.advertise draw adv)
        (sendRequests w (RegReq.push w.mn draw adv).1 (outputs 0 (RegReq.push w.mn draw adv).2)).1
        (sendRequests w (RegReq.push w.mn draw adv).1 (outputs 0 (RegReq.push w.mn draw adv).2)).2
  | store (advertisements : List (IPAddress × Packet)) :
      Transition relay w (.store advertisements)
        { w with mn := { w.mn with advertisements := advertisements } } []
  | toRelay (i rand : ℕ) (ether : Ether) (m : Message) (h : w.net[i]? = some m) :
      Transition relay w (.toRelay i rand ether)
        (toRelay relay w (w.net.eraseIdx i) m rand ether) []
  | toHome (i : ℕ) (p : Packet) (h : w.net[i]? = some (.request p)) :
      Transition relay w (.toHome i) (toHome w (w.net.eraseIdx i) p).1 (homeEvents w.ha p)
  | toNode (i : ℕ) (p : Packet) (h : w.net[i]? = some (.reply p)) :
      Transition relay w (.toNode i) (toNode w (w.net.eraseIdx i) p).1
        (toNode w (w.net.eraseIdx i) p).2
  | lose (i : ℕ) : Transition relay w (.lose i) { w with net := w.net.eraseIdx i } []
  | unreachable (i : ℕ) (p q : Packet) (h : w.net[i]? = some (.request q)) (hq : Quotes p q) :
      Transition relay w (.unreachable i p) { w with net := w.net ++ [.icmp p] } []
  | tickRequests : Transition relay w .tickRequests { w with mn := RegReq.runTimer w.mn } []
  | tickNode (draw : Draw) : Transition relay w (.tickNode draw) (tickNode w draw).1 (tickNode w draw).2
  | tickRelay : Transition relay w .tickRelay
      { w with
        fa := (Relay.runTimer w.fa).1
        net := w.net ++ (outputs 0 (Relay.runTimer w.fa).2).map .reply } []

theorem step_transition (relay : Relay) (w : World) (i : Input) :
    Transition relay w i (step relay w i).1 (step relay w i).2 := by
  cases i with
  | advertise draw adv => exact .advertise draw adv
  | store advertisements => exact .store advertisements
  | toRelay i rand ether =>
    simp only [step]
    split
    · exact .toRelay i rand ether _ ‹_›
    · exact .idle _
  | toHome i =>
    simp only [step]
    split
    · exact .toHome i _ ‹_›
    · exact .idle _
  | toNode i =>
    simp only [step]
    split
    · exact .toNode i _ ‹_›
    · exact .idle _
  | lose i => exact .lose i
  | unreachable i p =>
    simp only [step]
    split
    · split_ifs with hq
      · exact .unreachable i p _ ‹_› hq
      · exact .idle _
    · exact .idle _
  | tickRequests => exact .tickRequests
  | tickNode draw => exact .tickNode draw
  | tickRelay => exact .tickRelay

structure Config where
  homeAgent : IPAddress
  homeAddress : IPAddress
  gateway : IPAddress
  lifetime : UInt16
  registrationAlmostOver : UInt32
  relay : Relay
  faAddress : IPAddress
  haAddress : IPAddress

def start (c : Config) : World where
  node := ⟨c.registrationAlmostOver, false⟩
  mn := MNInfo.configure c.homeAgent c.homeAddress c.gateway c.lifetime
  fa := ⟨c.faAddress, [], []⟩
  ha := ⟨c.haAddress, []⟩
  net := []

/-- What happened in a run, and the state that it reaches. -/
def events (c : Config) (inputs : List Input) : List Event :=
  Runs.trace (step c.relay) (start c) inputs

def reached (c : Config) (inputs : List Input) : World :=
  Runs.final (step c.relay) (start c) inputs

end Network

namespace Deployment

def config : Network.Config where
  homeAgent := homeAgentPublicAddress
  homeAddress := mobileNodeAddress
  gateway := homeAgentPrivateAddress
  lifetime := 0
  registrationAlmostOver := 3
  relay := relay
  faAddress := foreignAgentPublicAddress
  haAddress := homeAgentPrivateAddress

/-- The ICMP destination-unreachable that a router makes of the packet `q`. -/
def unreachable (code : UInt8) (q : Packet) : Packet :=
  let quoted := q.data.take 28
  let icmph : ClickIcmp := ⟨3, code, 0, 0⟩
  let icmph := { icmph with icmpCksum := clickInCksum (icmph.toBytes ++ quoted) }
  let ip := ClickIp.withSum
    { ipV := 4
      ipHl := 5
      ipTos := 0
      ipLen := htons 56
      ipId := 0
      ipOff := 0
      ipTtl := 64
      ipP := 1
      ipSum := 0
      ipSrc := correspondingNodeAddress
      ipDst := (ClickIp.ofBytes q.data).ipSrc }
  { data := ip.toBytes ++ (icmph.toBytes ++ quoted)
    dstIpAnno := ip.ipDst }

def registrationRun (draw : Draw) : List Network.Input :=
  [.advertise draw foreignAdvertisement, .toRelay 0 7 default, .toHome 0, .toRelay 0 8 default,
    .toNode 0]

/-- A registration whose relayed request is answered with host unreachable instead. -/
def unreachableRun (draw : Draw) : List Network.Input :=
  let relayed := (Relay.relayedRequest foreignAgent 7 (requestFrame mobileNodeAddress draw)).strip
  [.advertise draw foreignAdvertisement, .toRelay 0 7 default, .unreachable 0 (unreachable 1 relayed),
    .toRelay 1 8 default, .toNode 1]

/-- A registration, after which the node comes home and its deregistration is answered. -/
def homecomingRun (draw draw' : Draw) : List Network.Input :=
  registrationRun draw ++ [.advertise draw' homeAdvertisement, .toHome 0, .toNode 0]

/-- A registration, after which the node comes home and its deregistration is lost. -/
def lostDeregistrationRun (draw draw' : Draw) : List Network.Input :=
  registrationRun draw ++ [.advertise draw' homeAdvertisement, .lose 0, .tickRequests]

end Deployment

end MobileIP
