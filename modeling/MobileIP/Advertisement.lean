import MobileIP.HomeAgent
import MobileIP.ForeignAgent
import MobileIP.MobileNode

/-! The agents' advertisements, and the nodes as the scripts configure them. -/
namespace MobileIP

open LittleEndian

structure Advertisement where
  srcIp : IPAddress
  careOfAddress : IPAddress
  ha : Bool
  fa : Bool
  busy : Bool
  advertisementLifetime : UInt32
  registrationLifetime : UInt32
  sequenceNr : UInt16
  deriving DecidableEq, Repr

namespace Advertisement

def configure (srcIp careOfAddress : IPAddress) (ha fa busy : Bool)
    (advertisementLifetime registrationLifetime : UInt32) : Advertisement where
  srcIp := srcIp
  careOfAddress := careOfAddress
  ha := ha
  fa := fa
  busy := busy
  advertisementLifetime := advertisementLifetime
  registrationLifetime := registrationLifetime
  sequenceNr := 0

def ip (e : Advertisement) (destinationIP : IPAddress) : ClickIp :=
  -- the checksum is taken over the whole packet while everything behind the header is still zero
  let h : ClickIp :=
    { ipV := 4
      ipHl := 5
      ipTos := 0
      ipLen := htons 48
      ipId := htons e.sequenceNr
      ipOff := 0
      ipTtl := 1
      ipP := 1
      ipSum := 0
      ipSrc := e.srcIp
      ipDst := destinationIP }
  { h with ipSum := clickInCksum (h.toBytes ++ List.replicate 28 0) }

def extension (e : Advertisement) : AdvertisementHE where
  type := 16
  length := 10
  seqNr := htons e.sequenceNr
  lifetime := htons e.registrationLifetime.toUInt16
  flags := (e.busy.toUInt8 <<< 6)+(e.ha.toUInt8 <<< 5)+(e.fa.toUInt8 <<< 4)
  reserved := 0
  address := e.careOfAddress

def icmp (e : Advertisement) : AdvertisementH :=
  -- the checksum covers the extension too
  let h : AdvertisementH :=
    { type := 9
      code := 0
      checksum := 0
      addresses := 1
      addrSize := 2
      lifetime := htons e.advertisementLifetime.toUInt16
      address := e.srcIp
      preferences := 0 }
  { h with checksum := clickInCksum (h.toBytes ++ e.extension.toBytes) }

def sendPacket (e : Advertisement) (destinationIP : IPAddress) : Advertisement × Packet :=
  ({ e with sequenceNr := if e.sequenceNr < 0xffff then e.sequenceNr+1 else 256 },
    { data := (e.ip destinationIP).toBytes ++ (e.icmp.toBytes ++ e.extension.toBytes)
      dstIpAnno := destinationIP })

end Advertisement

/-! The addresses of `definitions.click` and the elements of the agents and the mobile
node, with the arguments that the scripts give them. -/
namespace Deployment

def ipv4 (a b c d : UInt8) : IPAddress :=
  UInt32.ofNat (a.toNat+256*b.toNat+65536*c.toNat+16777216*d.toNat)

def mobileNodeAddress : IPAddress := ipv4 192 168 2 1
def homeAgentPrivateAddress : IPAddress := ipv4 192 168 2 254
def homeAgentPublicAddress : IPAddress := ipv4 192 168 0 2
def correspondingNodeAddress : IPAddress := ipv4 192 168 0 1
def foreignAgentPublicAddress : IPAddress := ipv4 192 168 0 3
def foreignAgentPrivateAddress : IPAddress := ipv4 192 168 3 254

def info : MNInfo :=
  MNInfo.configure homeAgentPublicAddress mobileNodeAddress homeAgentPrivateAddress 0

def rn : RegNode := ⟨3, false⟩

def homeAgent : HA := ⟨homeAgentPrivateAddress, []⟩

def foreignAgent : FA := ⟨foreignAgentPublicAddress, [], []⟩

def relay : Relay := ⟨foreignAgentPrivateAddress, -1⟩

def homeAdvertiser : Advertisement :=
  Advertisement.configure homeAgentPrivateAddress homeAgentPublicAddress true false false 27 100

def foreignAdvertiser : Advertisement :=
  Advertisement.configure foreignAgentPrivateAddress foreignAgentPublicAddress false true false 27 100

/-- The first advertisement of each agent. -/
def homeAdvertisement : Packet := (homeAdvertiser.sendPacket 0xffffffff).2

def foreignAdvertisement : Packet := (foreignAdvertiser.sendPacket 0xffffffff).2

/-- The request of the node `home` as the foreign agent receives it. -/
def requestFrame (home : IPAddress) (draw : Draw) : Packet :=
  (RegReq.makePacket { info with homeAddress := home } draw foreignAgentPrivateAddress 100
    foreignAgentPublicAddress).2.frame (default : Ether).bytes

end Deployment

end MobileIP
