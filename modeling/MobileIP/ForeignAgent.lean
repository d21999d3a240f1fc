import MobileIP.Packet
import MobileIP.Library.VectorSearch
import Mathlib.Data.Int.Notation

/-! The foreign agent: the visitor tables of `FA` and the element `Relay` that
relays requests and replies, answers for the home agent when it cannot be
reached, and ages both tables. -/
namespace MobileIP

open LittleEndian VectorSearch

structure VEntry where
  ethSrc : Bytes
  ipSrc : IPAddress
  ipDst : IPAddress
  udpSrc : UInt16
  homeAgent : IPAddress
  id : UInt64
  requestedLifetime : UInt16
  remainingLifetime : UInt16
  deriving DecidableEq, Repr

structure FA where
  address : IPAddress
  requests : List VEntry
  registrations : List (IPAddress × VEntry)
  deriving DecidableEq, Repr

structure Relay where
  privateIP : IPAddress
  -- negative if there is no limit
  registrationLimit : ℤ
  deriving DecidableEq, Repr

namespace Relay

def replyIp (ips ipd : IPAddress) : ClickIp :=
  ClickIp.withSum
    { ipV := 4
      ipHl := 5
      ipTos := 0
      ipLen := htons 48
      ipId := 0
      ipOff := 0
      ipTtl := 64
      ipP := 17
      ipSum := 0
      ipSrc := ips
      ipDst := ipd }

def replyHeader (code : UInt8) (ipd : IPAddress) (id : UInt64) (homeAgent : IPAddress) :
    RegrepH where
  type := 3
  code := code
  lifetime := 0
  homeAddress := ipd
  homeAgent := homeAgent
  identification := id

def replyUdp (udpd : UInt16) (ip : ClickIp) (rep : RegrepH) : ClickUdp :=
  ClickUdp.withSum
    { uhSport := htons 434
      uhDport := htons udpd
      uhUlen := htons 28
      uhSum := 0 } ip rep.toBytes

/-- `Relay::createRep`: a reply made by the foreign agent itself. -/
def createRep (code : UInt8) (ips ipd : IPAddress) (udpd : UInt16) (id : UInt64)
    (homeAgent : IPAddress) : Packet :=
  let ip := replyIp ips ipd
  let rep := replyHeader code ipd id homeAgent
  { data := udpData ip (replyUdp udpd ip rep) rep.toBytes
    dstIpAnno := ipd }

/-- The headers that `Relay` finds in a frame. -/
def iph (p : Packet) : Bytes := p.data.drop sizeofClickEther

def ip (p : Packet) : ClickIp := ClickIp.ofBytes (iph p)

def udp (p : Packet) : ClickUdp := ClickUdp.ofBytes ((iph p).drop sizeofClickIp)

def payload (p : Packet) : Bytes := (iph p).drop (sizeofClickIp+sizeofClickUdp)

def reqh (p : Packet) : RegreqH := RegreqH.ofBytes (payload p)

def reph (p : Packet) : RegrepH := RegrepH.ofBytes (payload p)

def icmph (p : Packet) : ClickIcmp := ClickIcmp.ofBytes ((iph p).drop sizeofClickIp)

def origip (p : Packet) : ClickIp := ClickIp.ofBytes ((iph p).drop (sizeofClickIp+sizeofClickIcmp))

def rejectCode (relay : Relay) (fa : FA) (flags : UInt8) : Option UInt8 :=
  -- a later test overrides an earlier one
  let code := if -1 < relay.registrationLimit ∧
      relay.registrationLimit ≤ fa.registrations.length then some 66 else none
  let code := if flags &&& 1 = 1 ∨ (flags >>> 2) &&& 1 = 1 then some 70 else code
  -- the comment of the source announces 72 here, but the code assigned is 70
  if (flags >>> 3) &&& 1 = 1 ∨ (flags >>> 4) &&& 1 = 1 then some 70 else code

def pendingEntry (p : Packet) : VEntry where
  ethSrc := (p.data.drop 6).take 6
  ipSrc := (ip p).ipSrc
  ipDst := (ip p).ipDst
  udpSrc := ntohs (udp p).uhSport
  homeAgent := (reqh p).homeAgent
  id := (reqh p).identification
  requestedLifetime := ntohs (reqh p).lifetime
  remainingLifetime := ntohs (reqh p).lifetime

/-- The frame of `p` with a new IP header and a new UDP header, whose checksum is
filled in; the Ethernet header and the payload are kept. -/
def rewrite (p : Packet) (ip : ClickIp) (udp : ClickUdp) : Bytes :=
  p.data.take sizeofClickEther ++ udpData ip (udp.withSum ip (payload p)) (payload p)

def relayedRequest (fa : FA) (rand : ℕ) (p : Packet) : Packet :=
  let rip : ClickIp :=
    { ip p with
      ipLen := htons (UInt16.ofNat (p.data.length-sizeofClickEther))
      ipTtl := 64
      ipSrc := fa.address
      ipDst := (reqh p).homeAgent }
  { data := rewrite p rip
      { udp p with uhSport := htons (UInt16.ofNat (rand%(65535-49152)+49152)) }
    -- the packet is not shared, so `uniqueify` returns it and the annotation is read after the
    -- destination has been set
    dstIpAnno := (reqh p).homeAgent }

def relayReq (relay : Relay) (fa : FA) (rand : ℕ) (p : Packet) : FA × List Action :=
  if badUdpChecksum (iph p) then (fa, [.kill])
  else
    match rejectCode relay fa (reqh p).flags with
    | some code =>
      -- the port is passed as the raw field, the identification as its low halfword
      let id : UInt16 := (reqh p).identification.toUInt16
      (fa, [.emit 0 (createRep code (ip p).ipDst (ip p).ipSrc (udp p).uhSport id.toUInt64
        (reqh p).homeAgent), .kill])
    | none =>
      ({ fa with requests := fa.requests ++ [pendingEntry p] },
        [.forward 1 (relayedRequest fa rand p)])

/-- What the dangling `entry` pointer reads after slot `i` was erased: the element
that moved into the slot or, when the last element was erased, the old contents,
which `erase` leaves in place. -/
def staleEntry (requests : List VEntry) (i : ℕ) (entry : VEntry) : VEntry :=
  requests.getD (i+1) entry

def updateRegistrations (registrations : List (IPAddress × VEntry)) (entry : VEntry)
    (rep : RegrepH) : List (IPAddress × VEntry) :=
  if rep.code = 0 ∨ rep.code = 1 then
    let iter := lastIndex (fun reg => reg.1 == rep.homeAddress) registrations
    if ntohs rep.lifetime ≠ 0 then
      -- the lifetime is stored in network order
      let newpair := (rep.homeAddress, { entry with remainingLifetime := rep.lifetime })
      match iter with
      | none => registrations ++ [newpair]
      | some i => registrations.set i newpair
    -- the search starts from index 0, so a node that is not registered costs another its entry
    else registrations.eraseIdx (iter.getD 0)
  else registrations

def relayedReply (relay : Relay) (p : Packet) (udpDst : UInt16) : Packet :=
  let rip : ClickIp := { ip p with ipSrc := relay.privateIP, ipDst := (reph p).homeAddress }
  -- the Ethernet header is pulled at the end
  { data := (rewrite p rip { udp p with uhDport := htons udpDst }).drop 14
    dstIpAnno := (reph p).homeAddress }

def relayRep (relay : Relay) (fa : FA) (p : Packet) : FA × List Action :=
  if badUdpChecksum (iph p) then (fa, [.kill])
  else
    match firstMatch (fun e => e.ipSrc == (reph p).homeAddress) fa.requests with
    | none => (fa, [.kill])
    | some (iteration, entry) =>
      ({ fa with
          registrations := updateRegistrations fa.registrations entry (reph p)
          requests := fa.requests.eraseIdx iteration },
        [.forward 0 (relayedReply relay p (staleEntry fa.requests iteration entry).udpSrc)])

/-- The loop of the ICMP branch, which erases at `i` and then still advances `i`, so
that the entry behind an erased one is not examined. Gives the entries that stay and
the erased ones. -/
def eraseUnreachable (ha : IPAddress) : List VEntry → List VEntry × List VEntry
  | [] => ([], [])
  | [e] => if e.homeAgent = ha then ([], [e]) else ([e], [])
  | e :: f :: rest =>
    if e.homeAgent = ha then
      let r := eraseUnreachable ha rest
      (f :: r.1, e :: r.2)
    else
      let r := eraseUnreachable ha (f :: rest)
      (e :: r.1, r.2)

def unreachableRep (code : UInt8) (ha : IPAddress) (e : VEntry) : Packet :=
  -- the source computes `error` from the ICMP code and then passes `code`
  createRep code e.ipDst e.ipSrc e.udpSrc e.id ha

def pushIcmp (fa : FA) (p : Packet) : FA × List Action :=
  -- the ICMP packet itself is neither killed nor pushed
  if (icmph p).icmpType = 3 then
    let ha := (origip p).ipDst
    let r := eraseUnreachable ha fa.requests
    ({ fa with requests := r.1 },
      r.2.map (fun e => .emit 0 (unreachableRep (icmph p).icmpCode ha e)))
  else (fa, [])

def push (relay : Relay) (fa : FA) (rand : ℕ) (p : Packet) : FA × List Action :=
  if (ip p).ipP = 1 then pushIcmp fa p
  else
    -- the type tests of the source guard only a message on the console: the size alone decides
    let pSize := p.data.length-sizeofClickEther
    if pSize = sizeofClickIp+sizeofClickUdp+sizeofRegreqH then relayReq relay fa rand p
    else if pSize = sizeofClickIp+sizeofClickUdp+sizeofRegrepH then relayRep relay fa p
    else (fa, [])

def ageRegistrations (registrations : List (IPAddress × VEntry)) : List (IPAddress × VEntry) :=
  -- the first two loops: expired registrations are erased, then the others are counted down
  (registrations.filter (fun reg => 0 < reg.2.remainingLifetime)).map
    (fun reg => (reg.1, if 0 < reg.2.remainingLifetime then
      { reg.2 with remainingLifetime := reg.2.remainingLifetime-1 } else reg.2))

/-- The third loop of `run_timer`, which stops at the first entry that has timed out:
the entries that stay and the one that was answered. The two lifetimes are compared
as promoted integers. -/
def ageRequests : List VEntry → List VEntry × Option VEntry
  | [] => ([], none)
  | e :: rest =>
    if 0 < e.requestedLifetime then
      let e' := { e with remainingLifetime := htons (ntohs e.remainingLifetime-1) }
      if 7 < (e'.requestedLifetime.toNat : ℤ)-e'.remainingLifetime.toNat then (rest, some e')
      else
        let r := ageRequests rest
        (e' :: r.1, r.2)
    else ageRequests rest

def timeoutRep (e : VEntry) : Packet :=
  -- `htonl` narrows the identification to 32 bits and swaps them
  createRep 78 e.ipDst e.ipSrc e.udpSrc (htonl e.id.toUInt32).toUInt64 e.homeAgent

def runTimer (fa : FA) : FA × List Action :=
  let r := ageRequests fa.requests
  ({ fa with registrations := ageRegistrations fa.registrations, requests := r.1 },
    r.2.toList.map (fun e => .emit 0 (timeoutRep e)))

end Relay

end MobileIP
