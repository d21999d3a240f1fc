import MobileIP.HomeAgent
import MobileIP.Advertisement

/-! The tunnel: `Encapsulator` at the home agent, and at the foreign agent the check
of the outer header, the test for a tunnelled packet and the removal of the header. -/
namespace MobileIP

open LittleEndian OnesComplement VectorSearch

namespace Encapsulator

def outerHeader (ha : HA) (srcIp : IPAddress) (p : Packet) : ClickIp :=
  let inneriph := ClickIp.ofBytes p.data
  { ipV := 4
    ipHl := 5
    ipTos := inneriph.ipTos
    ipLen := htons (UInt16.ofNat sizeofClickIp+ntohs inneriph.ipLen)
    ipId := 0
    ipOff := 0
    ipTtl := 200
    ipP := 4
    ipSum := 0
    ipSrc := srcIp
    ipDst := getDestinationIp ha inneriph.ipDst }

def encapsulate (ha : HA) (srcIp : IPAddress) (p : Packet) : Packet :=
  -- the checksum is taken over `packet->length()` bytes, the inner packet included
  let iph := outerHeader ha srcIp p
  let iph := { iph with ipSum := clickInCksum (iph.toBytes ++ p.data) }
  { data := iph.toBytes ++ p.data
    dstIpAnno := iph.ipDst }

def push (ha : HA) (srcIp : IPAddress) (p : Packet) : List Action :=
  [.kill, .emit 0 (encapsulate ha srcIp p)]

end Encapsulator

/-- `CheckIPHeader::simple_action` as configured in the scripts: no offset and no bad
source addresses. Gives the packet and the offset of its transport header, or drops it. -/
def CheckIPHeader.simpleAction (p : Packet) : Option (Packet × ℕ) :=
  let ip := ClickIp.ofBytes p.data
  let plen := p.data.length
  let hlen := 4*ip.ipHl.toNat
  let len := (ntohs ip.ipLen).toNat
  if plen < sizeofClickIp then none
  else if ip.ipV ≠ 4 then none
  else if hlen < sizeofClickIp then none
  else if plen < len ∨ len < hlen then none
  else if clickInCksum (p.data.take hlen) ≠ 0 then none
  else some ({ data := if len < plen then p.data.take len else p.data, dstIpAnno := ip.ipDst }, hlen)

def CheckEncap.push (packet : Packet) : List Action :=
  if (ClickIp.ofBytes packet.data).ipP = 4 then [.forward 0 packet] else [.forward 1 packet]

def StripIPHeader.simpleAction (p : Packet) (transportHeaderOffset : ℕ) : Packet :=
  { p with data := p.data.drop transportHeaderOffset }

/-- What output 1 of `HA` and the `Encapsulator` behind it send for a packet. -/
def tunnelEntrance (ha : HA) (srcIp : IPAddress) (p : Packet) : List Packet :=
  (outputs 1 (HA.push ha p)).flatMap (fun q => outputs 0 (Encapsulator.push ha srcIp q))

def tunnelExit (q : Packet) : Option Packet :=
  match CheckIPHeader.simpleAction q with
  | none => none
  | some (q, offset) => (outputs 0 (CheckEncap.push q)).head?.map
      (fun q => StripIPHeader.simpleAction q offset)

/-- An IPv4 packet of version 4 whose header and total length fit its data, and whose
header checksum verifies. -/
structure WellFormed (p : Packet) : Prop where
  version : (ClickIp.ofBytes p.data).ipV = 4
  header : 5 ≤ (ClickIp.ofBytes p.data).ipHl.toNat
  header_le : 4*(ClickIp.ofBytes p.data).ipHl.toNat ≤ p.data.length
  total : (ntohs (ClickIp.ofBytes p.data).ipLen).toNat = p.data.length
  total_le : p.data.length ≤ 65515
  checksum : clickInCksum (p.data.take (4*(ClickIp.ofBytes p.data).ipHl.toNat)) = 0

/-- The packet `q` is a proper envelope of `p`: the outer header is right, its checksum
verifies over its 20 bytes, and the foreign agent takes `p` out of it. -/
def Envelope (q p : Packet) : Prop :=
  let iph := ClickIp.ofBytes q.data
  iph.ipV = 4 ∧ iph.ipHl = 5 ∧ iph.ipP = 4 ∧ (ntohs iph.ipLen).toNat = 20+p.data.length ∧
    clickInCksum (q.data.take 20) = 0 ∧
    (tunnelExit q).map Packet.data = some p.data

instance (q p : Packet) : Decidable (Envelope q p) :=
  inferInstanceAs (Decidable (_ ∧ _ ∧ _ ∧ _ ∧ _ ∧ _))

theorem byteAt_zero_le_wordSum (d : Bytes) : (byteAt d 0).toNat ≤ wordSum d := by
  match d with
  | [] => exact Nat.zero_le _
  | [a] => exact Nat.le_refl a.toNat
  | a :: b :: d =>
    rw [wordSum_cons_cons]
    change a.toNat ≤ _
    omega

theorem WellFormed.wordSum_pos {p : Packet} (h : WellFormed p) : 0 < wordSum p.data := by
  -- the version makes the first byte at least 64
  have hle := byteAt_zero_le_wordSum p.data
  have hv : ((byteAt p.data 0).toNat/16)%16 = 4 := congrArg BitVec.toNat h.version
  omega

theorem WellFormed.wordSum_lt {p : Packet} (h : WellFormed p) : wordSum p.data < 2147549184 := by
  have hle := wordSum_le p.data
  have hlen := h.total_le
  omega

theorem WellFormed.cksum_eq_zero_iff {p : Packet} (h : WellFormed p) :
    clickInCksum p.data = 0 ↔ 65535 ∣ wordSum p.data := by
  have hlt := h.wordSum_lt
  have hpos := h.wordSum_pos
  rw [clickInCksum_eq_zero_iff _ (by omega), fold16_eq_max_iff _ (by omega)]
  exact and_iff_right hpos

namespace Encapsulator

variable (ha : HA) (srcIp : IPAddress) (p : Packet)

def sentHeader : ClickIp :=
  { outerHeader ha srcIp p with
    ipSum := clickInCksum ((outerHeader ha srcIp p).toBytes ++ p.data) }

theorem encapsulate_data : (encapsulate ha srcIp p).data = (sentHeader ha srcIp p).toBytes ++ p.data :=
  rfl

theorem ofBytes_encapsulate : ClickIp.ofBytes (encapsulate ha srcIp p).data = sentHeader ha srcIp p :=
  ClickIp.ofBytes_toBytes _ _

theorem take_encapsulate : (encapsulate ha srcIp p).data.take 20 = (sentHeader ha srcIp p).toBytes := rfl

theorem drop_encapsulate : (encapsulate ha srcIp p).data.drop 20 = p.data := rfl

theorem outerHeader_wordSum : 0 < wordSum (outerHeader ha srcIp p).toBytes ∧
    wordSum (outerHeader ha srcIp p).toBytes ≤ 655350 := by
  have hle := wordSum_le (outerHeader ha srcIp p).toBytes
  have hfirst := byteAt_zero_le_wordSum (outerHeader ha srcIp p).toBytes
  have hbyte : (byteAt (outerHeader ha srcIp p).toBytes 0).toNat = 69 := rfl
  rw [ClickIp.length_toBytes] at hle
  omega

/-- The outer checksum covers the inner packet too, so it verifies over the header
only if the inner packet adds nothing to the sum. -/
theorem sentHeader_verifies_iff (h : WellFormed p) :
    clickInCksum (sentHeader ha srcIp p).toBytes = 0 ↔ clickInCksum p.data = 0 := by
  -- the complement is taken of the sum over header and packet, the check sums the header alone
  let part := wordSum (outerHeader ha srcIp p).toBytes
  have hpart : 0 < part ∧ part ≤ 655350 := outerHeader_wordSum ha srcIp p
  have hrest := h.wordSum_lt
  have hall : wordSum ((outerHeader ha srcIp p).toBytes ++ p.data) = part+wordSum p.data :=
    wordSum_append _ p.data (by rw [ClickIp.length_toBytes])
  have hc := toNat_clickInCksum ((outerHeader ha srcIp p).toBytes ++ p.data) (by omega)
  rw [hall] at hc
  have hs : wordSum (sentHeader ha srcIp p).toBytes =
      part+(65535-fold16 (part+wordSum p.data)) := by
    rw [wordSum_ip, ← hc, Nat.add_comm]
    rfl
  rw [clickInCksum_eq_zero_iff _ (by omega), hs,
    fold16_complement_part_iff part (wordSum p.data) hpart.1 (by omega), h.cksum_eq_zero_iff]

theorem sentHeader_ipLen (h : WellFormed p) :
    (ntohs (sentHeader ha srcIp p).ipLen).toNat = 20+p.data.length := by
  have hsum : ntohs (sentHeader ha srcIp p).ipLen =
      UInt16.ofNat sizeofClickIp+ntohs (ClickIp.ofBytes p.data).ipLen :=
    ntohs_htons _
  have htotal := h.total
  have hle := h.total_le
  rw [hsum, UInt16.toNat_add, htotal]
  change (20+p.data.length)%65536 = _
  omega

theorem tunnelExit_encapsulate (h : WellFormed p)
    (hc : clickInCksum (sentHeader ha srcIp p).toBytes = 0) :
    (tunnelExit (encapsulate ha srcIp p)).map Packet.data = some p.data := by
  -- the header passes every test of `CheckIPHeader`, the length test with equality
  have hip := ofBytes_encapsulate ha srcIp p
  have hlen : (encapsulate ha srcIp p).data.length = 20+p.data.length := by
    rw [encapsulate_data, List.length_append, ClickIp.length_toBytes]
  have hcheck : CheckIPHeader.simpleAction (encapsulate ha srcIp p) =
      some (encapsulate ha srcIp p, 20) := by
    unfold CheckIPHeader.simpleAction
    dsimp only
    rw [hip, hlen, sentHeader_ipLen ha srcIp p h]
    have h1 : ¬ 20+p.data.length < sizeofClickIp := by
      change ¬ 20+p.data.length < 20
      omega
    have h2 : ¬ (sentHeader ha srcIp p).ipV ≠ 4 := not_not_intro rfl
    have h3 : ¬ 4*(sentHeader ha srcIp p).ipHl.toNat < sizeofClickIp := by
      change ¬ 20 < 20
      omega
    have h4 : ¬ (20+p.data.length < 20+p.data.length ∨
        20+p.data.length < 4*(sentHeader ha srcIp p).ipHl.toNat) := by
      change ¬ (_ ∨ 20+p.data.length < 20)
      omega
    have h5 : ¬ clickInCksum ((encapsulate ha srcIp p).data.take
        (4*(sentHeader ha srcIp p).ipHl.toNat)) ≠ 0 := not_not_intro hc
    rw [if_neg h1, if_neg h2, if_neg h3, if_neg h4, if_neg h5, if_neg (Nat.lt_irrefl _)]
    rfl
  unfold tunnelExit
  rw [hcheck]
  dsimp only
  unfold CheckEncap.push
  rw [hip, if_pos (show (sentHeader ha srcIp p).ipP = 4 from rfl)]
  exact congrArg some (drop_encapsulate ha srcIp p)

theorem envelope_encapsulate_iff (h : WellFormed p) :
    Envelope (encapsulate ha srcIp p) p ↔ clickInCksum p.data = 0 := by
  rw [← sentHeader_verifies_iff ha srcIp p h]
  unfold Envelope
  dsimp only
  rw [ofBytes_encapsulate, take_encapsulate]
  constructor
  · exact fun he => he.2.2.2.2.1
  · intro hc
    exact ⟨rfl, rfl, rfl, sentHeader_ipLen ha srcIp p h, hc, tunnelExit_encapsulate ha srcIp p h hc⟩

end Encapsulator

/-- The tunnel carries a packet for a registered node exactly if the Internet checksum
over the whole of that packet is zero. -/
theorem tunnel_round_trip_iff (ha : HA) (srcIp : IPAddress) (p : Packet) (h : WellFormed p)
    (hd : HA.push ha p = [.forward 1 p]) :
    (∃ q, tunnelEntrance ha srcIp p = [q] ∧ Envelope q p) ↔ clickInCksum p.data = 0 := by
  have hsent : tunnelEntrance ha srcIp p = [Encapsulator.encapsulate ha srcIp p] := by
    unfold tunnelEntrance
    rw [hd]
    rfl
  rw [← Encapsulator.envelope_encapsulate_iff ha srcIp p h, hsent]
  simp

def Deployment.datagram (proto : UInt8) (payload : Bytes) : Packet where
  data := (ClickIp.withSum
    { ipV := 4
      ipHl := 5
      ipTos := 0
      ipLen := htons (UInt16.ofNat (20+payload.length))
      ipId := 0
      ipOff := 0
      ipTtl := 64
      ipP := proto
      ipSum := 0
      ipSrc := correspondingNodeAddress
      ipDst := mobileNodeAddress }).toBytes ++ payload
  dstIpAnno := mobileNodeAddress

def Deployment.boundAgent : HA :=
  { homeAgent with mobilityBindings := [⟨mobileNodeAddress, foreignAgentPublicAddress, 1, 100⟩] }

/-- An ICMP echo request passes: its own checksum makes it sum to zero. -/
theorem tunnel_carries_echo :
    let p := Deployment.datagram 1 [8, 0, 0xf7, 0xfd, 0, 1, 0, 1]
    ∃ q, tunnelEntrance Deployment.boundAgent Deployment.homeAgentPublicAddress p = [q] ∧
      Envelope q p := by
  intro p
  have h : WellFormed p := ⟨by decide, by decide, by decide, by decide, by decide, by decide⟩
  exact (tunnel_round_trip_iff Deployment.boundAgent Deployment.homeAgentPublicAddress p h
    (by decide)).mpr (by decide)

/-- A UDP datagram without a checksum does not. -/
theorem tunnel_corrupts_udp :
    let p := Deployment.datagram 17 [0x13, 0x88, 0x13, 0x89, 0, 8, 0, 0]
    WellFormed p ∧ HA.push Deployment.boundAgent p = [.forward 1 p] ∧
      ¬ ∃ q, tunnelEntrance Deployment.boundAgent Deployment.homeAgentPublicAddress p = [q] ∧
        Envelope q p := by
  intro p
  refine ⟨⟨by decide, by decide, by decide, by decide, by decide, by decide⟩, by decide, ?_⟩
  rintro ⟨q, hq, he⟩
  have hbad : ∀ q ∈ tunnelEntrance Deployment.boundAgent Deployment.homeAgentPublicAddress p,
      ¬ Envelope q p := by decide
  exact hbad q (by rw [hq]; exact List.mem_singleton_self q) he

end MobileIP
