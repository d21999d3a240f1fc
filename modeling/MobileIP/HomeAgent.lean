import MobileIP.Packet
import MobileIP.Library.VectorSearch

/-! The home agent: the mobility bindings, the element `RegRep` that answers
registration requests and updates them, the classifier `HA::push`, and the lookup
by which `Encapsulator` chooses the tunnel's end. -/
namespace MobileIP

open LittleEndian VectorSearch

structure MobileInfo where
  address : IPAddress
  careOfAddress : IPAddress
  identification : UInt64
  remainingLifetime : UInt8
  deriving DecidableEq, Repr

structure HA where
  address : IPAddress
  mobilityBindings : List MobileInfo
  deriving DecidableEq, Repr

def HA.push (ha : HA) (p : Packet) : List Action :=
  let dst := (ClickIp.ofBytes p.data).ipDst
  match firstMatch (fun mi => mi.address == dst) ha.mobilityBindings with
  | some _ => [.forward 1 p]
  | none => [.forward 0 p]

def Encapsulator.getDestinationIp (ha : HA) (mobileNodeAddress : IPAddress) : IPAddress :=
  match firstMatch (fun mi => mi.address == mobileNodeAddress) ha.mobilityBindings with
  | some (_, mi) => mi.careOfAddress
  | none => mobileNodeAddress

namespace RegRep

def request (q : Packet) : RegreqH :=
  RegreqH.ofBytes (q.data.drop (sizeofClickIp+sizeofClickUdp))

def checkAcceptable (ha : HA) (p : Packet) : ℕ :=
  let req := request p
  let flags := req.flags
  if flags &&& 1 = 1 ∨ (flags >>> 2) &&& 1 = 1 then 134
  else if (flags >>> 5) &&& 1 = 1 then 128
  else
    let found := (firstMatch (fun mi => mi.address == req.homeAddress) ha.mobilityBindings).isSome
    if (flags >>> 7) &&& 1 = 1 ∧ found then 135
    else if req.homeAgent = 0xffffffff then 136
    else 0

def eraseBindings (home : IPAddress) : List MobileInfo → List MobileInfo
  -- the index of the source only moves past the entries that stay
  | [] => []
  | mi :: rest =>
    if mi.address = home then eraseBindings home rest else mi :: eraseBindings home rest

def newBinding (req : RegreqH) : MobileInfo where
  address := req.homeAddress
  careOfAddress := req.careOfAddress
  identification := req.identification
  -- the field has 8 bits and takes the low byte of the raw lifetime
  remainingLifetime := req.lifetime.toUInt8

def updateBindings (ha : HA) (req : RegreqH) : HA :=
  if req.homeAddress = req.careOfAddress then
    { ha with mobilityBindings := eraseBindings req.homeAddress ha.mobilityBindings }
  else { ha with mobilityBindings := ha.mobilityBindings ++ [newBinding req] }

def replyIp (rip : ClickIp) : ClickIp :=
  ClickIp.withSum
    { ipV := 4
      ipHl := 5
      ipTos := 0
      ipLen := htons 48
      ipId := 0
      ipOff := 0
      ipTtl := 64
      ipP := 17
      ipSum := 0
      ipSrc := rip.ipDst
      ipDst := rip.ipSrc }

def replyHeader (acceptCode : ℕ) (req : RegreqH) : RegrepH where
  type := 3
  code := UInt8.ofNat acceptCode
  lifetime := req.lifetime
  homeAddress := req.homeAddress
  homeAgent := req.homeAgent
  identification := req.identification

def replyUdp (rudp : ClickUdp) (ip : ClickIp) (rep : RegrepH) : ClickUdp :=
  ClickUdp.withSum
    { uhSport := rudp.uhDport
      uhDport := rudp.uhSport
      uhUlen := htons 28
      uhSum := 0 } ip rep.toBytes

def replyPacket (acceptCode : ℕ) (q : Packet) : Packet :=
  let rip := ClickIp.ofBytes q.data
  let rudp := ClickUdp.ofBytes (q.data.drop sizeofClickIp)
  let ip := replyIp rip
  let rep := replyHeader acceptCode (request q)
  { data := udpData ip (replyUdp rudp ip rep) rep.toBytes
    dstIpAnno := ip.ipDst }

def push (ha : HA) (q : Packet) : HA × List Action :=
  let req := request q
  if req.type = 1 then
    let acceptCode := checkAcceptable ha q
    let ha := if acceptCode = 0 ∨ acceptCode = 1 then updateBindings ha req else ha
    let p := replyPacket acceptCode q
    if req.homeAddress = req.careOfAddress then (ha, [.emit 0 p, .kill])
    else (ha, [.emit 1 p, .kill])
  else (ha, [.kill])

end RegRep

end MobileIP
