import MobileIP.Packet
import MobileIP.Library.VectorSearch

/-! The mobile node: the shared state `MNInfo`, the element `RegReq` that turns
advertisements into registration requests, and the element `RegNode` that
consumes the replies. -/
namespace MobileIP

open LittleEndian VectorSearch

structure Request where
  dest : IPAddress
  coaddress : IPAddress
  -- an `int` in the source, kept as its 32-bit pattern
  id : UInt32
  reqLt : UInt16
  remLt : UInt16
  port : UInt16
  deriving DecidableEq, Repr

structure MNInfo where
  homeAgent : IPAddress
  homeAddress : IPAddress
  gateway : IPAddress
  connected : Bool
  foreignAgent : IPAddress
  lifetime : UInt16
  advertisements : List (IPAddress × Packet)
  pending : List Request
  deriving DecidableEq, Repr

def MNInfo.configure (homeAgent homeAddress gateway : IPAddress) (lifetime : UInt16) : MNInfo where
  homeAgent := homeAgent
  homeAddress := homeAddress
  gateway := gateway
  connected := false
  foreignAgent := 0
  -- `_lifetime` has no initial value in the source, so it is a parameter here
  lifetime := lifetime
  advertisements := []
  pending := []

/-- What `make_packet` draws from outside: `rand()`, and the subseconds of the two
clocks that make up the identification. -/
structure Draw where
  rand : ℕ
  id : UInt64
  deriving DecidableEq, Repr

namespace RegReq

def sequence : UInt32 :=
  -- no function writes `_sequence`
  0

def port (draw : Draw) : UInt16 := UInt16.ofNat (draw.rand%65535)

def pendingRequest (draw : Draw) (dest : IPAddress) (lifetime : UInt16) (coaddress : IPAddress) :
    Request where
  dest := dest
  coaddress := coaddress
  id := draw.id.toUInt32
  reqLt := lifetime
  remLt := lifetime
  port := port draw

def requestIp (mn : MNInfo) (dest : IPAddress) : ClickIp :=
  ClickIp.withSum
    { ipV := 4
      ipHl := 5
      ipTos := 0
      ipLen := htons 52
      ipId := htons (UInt16.ofNat (sequence.toNat%0xFFFF+1))
      ipOff := 0
      ipTtl := 64
      ipP := 17
      ipSum := 0
      ipSrc := mn.homeAddress
      ipDst := dest }

def requestHeader (mn : MNInfo) (draw : Draw) (lifetime : UInt16) (coaddress : IPAddress) :
    RegreqH where
  type := 1
  flags := 0
  lifetime := htons lifetime
  homeAddress := mn.homeAddress
  homeAgent := mn.homeAgent
  careOfAddress := coaddress
  identification := draw.id

def requestUdp (draw : Draw) (ip : ClickIp) (rr : RegreqH) : ClickUdp :=
  ClickUdp.withSum
    { uhSport := htons (port draw)
      uhDport := htons 434
      uhUlen := htons 32
      uhSum := 0 } ip rr.toBytes

/-- `RegReq::make_packet`: the request is pending as soon as it is built. -/
def makePacket (mn : MNInfo) (draw : Draw) (dest : IPAddress) (lifetime : UInt16)
    (coaddress : IPAddress) : MNInfo × Packet :=
  let ip := requestIp mn dest
  let rr := requestHeader mn draw lifetime coaddress
  ({ mn with pending := mn.pending ++ [pendingRequest draw dest lifetime coaddress] },
    { data := udpData ip (requestUdp draw ip rr) rr.toBytes
      dstIpAnno := dest })

def aip (q : Packet) : ClickIp := ClickIp.ofBytes q.data

def ahx (q : Packet) : AdvertisementHE :=
  AdvertisementHE.ofBytes (q.data.drop (sizeofClickIp+sizeofAdvertisementH))

def home (q : Packet) : Prop := ((ahx q).flags >>> 5) &&& 1 = 1

def foreign (q : Packet) : Prop := ((ahx q).flags >>> 4) &&& 1 = 1

instance (q : Packet) : Decidable (home q) := inferInstanceAs (Decidable (_ = _))

instance (q : Packet) : Decidable (foreign q) := inferInstanceAs (Decidable (_ = _))

def push (mn : MNInfo) (draw : Draw) (q : Packet) : MNInfo × List Action :=
  let asrc := (aip q).ipSrc
  if asrc = mn.gateway then
    if mn.foreignAgent ≠ mn.gateway ∧ home q then
      -- the node counts itself home before the home agent has answered
      let mn := { mn with foreignAgent := mn.gateway, lifetime := 0 }
      let r := makePacket mn draw asrc 0 mn.homeAddress
      (r.1, [.emit 0 r.2, .kill])
    else (mn, [.kill])
  else if foreign q then
    let r := makePacket mn draw asrc (htons (ahx q).lifetime) (ahx q).address
    (r.1, [.emit 0 r.2, .kill])
  else (mn, [.kill])

def agePending : List Request → List Request
  -- an erased entry's successors move into its place, so the index of the source stays; on the
  -- remaining suffix this is a plain recursion
  | [] => []
  | r :: rest =>
    let lt := ntohs r.remLt
    if 0 < lt then { r with remLt := htons (lt-1) } :: agePending rest
    else agePending rest

def runTimer (mn : MNInfo) : MNInfo := { mn with pending := agePending mn.pending }

end RegReq

structure RegNode where
  registrationAlmostOver : UInt32
  -- whether `_timer` is scheduled
  timer : Bool
  deriving DecidableEq, Repr

namespace RegNode

def answers (iph : ClickIp) (udph : ClickUdp) (cur : Request) : Bool :=
  cur.dest == iph.ipSrc && cur.port == ntohs udph.uhDport

def register (mn : MNInfo) (recentreq : Request) (reph : RegrepH) : MNInfo :=
  -- computed in 16 bits, as in the source
  let givenLifetime := ntohs reph.lifetime
  let decLifetime := recentreq.reqLt-givenLifetime
  { mn with
    connected := true
    foreignAgent := recentreq.dest
    lifetime := recentreq.remLt-decLifetime }

/-- `RegNode::push` on a reply. -/
def push (node : RegNode) (mn : MNInfo) (p : Packet) : RegNode × MNInfo × List Action :=
  let iph := ClickIp.ofBytes p.data
  let udph := ClickUdp.ofBytes (p.data.drop sizeofClickIp)
  let reph := RegrepH.ofBytes (p.data.drop (sizeofClickIp+sizeofClickUdp))
  match firstMatch (answers iph udph) mn.pending with
  | none => (node, mn, [.kill])
  | some (recentreqit, recentreq) =>
    let erased := mn.pending.eraseIdx recentreqit
    -- a reply with a bad checksum still costs the request its entry
    if badUdpChecksum p.data then (node, { mn with pending := erased }, [.kill])
    -- both sides are narrowed to `int` before they are compared
    else if reph.identification.toUInt32 ≠ recentreq.id then (node, mn, [.kill])
    else if reph.code = 0 ∨ reph.code = 1 then
      if iph.ipSrc ≠ mn.gateway then
        ({ node with timer := true },
          { register mn recentreq reph with pending := erased }, [.kill])
      else ({ node with timer := false }, { mn with pending := erased }, [.kill])
    else (node, { mn with pending := erased }, [.kill])

/-- `RegNode::run_timer`, whose output 0 is wired to `RegReq`. The renewal is pushed
before the lifetime is tested for zero, and `RegReq` runs inside that push. The two
action lists are those of `RegNode` and of `RegReq`. -/
def runTimer (node : RegNode) (mn : MNInfo) (draw : Draw) :
    RegNode × MNInfo × List Action × List Action :=
  let node := { node with timer := true }
  if 0 < mn.lifetime then
    let mn := { mn with lifetime := mn.lifetime-1 }
    let renewal := if mn.lifetime.toUInt32 = node.registrationAlmostOver then
        mn.advertisements.lookup mn.foreignAgent
      else none
    match renewal with
    | some p =>
      let r := RegReq.push mn draw p
      (node, if r.1.lifetime = 0 then { r.1 with connected := false } else r.1, [.emit 0 p], r.2)
    | none => (node, if mn.lifetime = 0 then { mn with connected := false } else mn, [], [])
  else (node, mn, [], [])

end RegNode

end MobileIP
