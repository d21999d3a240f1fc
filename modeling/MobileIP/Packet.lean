import MobileIP.Checksum

/-! Packets and what an element does with them. -/
namespace MobileIP

open LittleEndian

/-- A Click packet: its data and the destination address annotation. -/
structure Packet where
  data : Bytes
  dstIpAnno : IPAddress
  deriving DecidableEq, Repr

/-- One effect of a handler, in order of occurrence. The packet that was handed
to the handler is either killed or handed on; other packets are made by it. -/
inductive Action where
  -- `output(port).push` of a packet that the handler made
  | emit (port : ℕ) (p : Packet)
  -- `output(port).push` of the handler's own input packet
  | forward (port : ℕ) (p : Packet)
  -- `kill` of the input packet
  | kill
  deriving DecidableEq, Repr

def Action.sent (port : ℕ) : Action → Option Packet
  | .emit q p => if q = port then some p else none
  | .forward q p => if q = port then some p else none
  | .kill => none

/-- The packets that a handler sent to an output, in order. -/
def outputs (port : ℕ) (acts : List Action) : List Packet := acts.filterMap (Action.sent port)

@[simp] theorem outputs_nil (port : ℕ) : outputs port [] = [] := rfl

@[simp] theorem outputs_kill (port : ℕ) (acts : List Action) :
    outputs port (.kill :: acts) = outputs port acts := rfl

@[simp] theorem outputs_emit (port q : ℕ) (p : Packet) (acts : List Action) :
    outputs port (.emit q p :: acts) =
      if q = port then p :: outputs port acts else outputs port acts := by
  unfold outputs
  by_cases h : q = port
  · simp only [List.filterMap_cons, Action.sent, if_pos h]
  · simp only [List.filterMap_cons, Action.sent, if_neg h]

@[simp] theorem outputs_forward (port q : ℕ) (p : Packet) (acts : List Action) :
    outputs port (.forward q p :: acts) =
      if q = port then p :: outputs port acts else outputs port acts := by
  unfold outputs
  by_cases h : q = port
  · simp only [List.filterMap_cons, Action.sent, if_pos h]
  · simp only [List.filterMap_cons, Action.sent, if_neg h]

@[simp] theorem outputs_append (port : ℕ) (a b : List Action) :
    outputs port (a ++ b) = outputs port a ++ outputs port b :=
  List.filterMap_append

def Packet.strip (p : Packet) : Packet :=
  -- the element `Strip(14)`
  { p with data := p.data.drop sizeofClickEther }

def Packet.frame (ether : Bytes) (p : Packet) : Packet := { p with data := ether ++ p.data }

/-- An Ethernet header is 14 bytes of memory. -/
structure Ether where
  bytes : Bytes
  length_eq : bytes.length = sizeofClickEther

instance : Inhabited Ether := ⟨⟨List.replicate 14 0, rfl⟩⟩

def udpData (ip : ClickIp) (udp : ClickUdp) (payload : Bytes) : Bytes :=
  ip.toBytes ++ (udp.toBytes ++ payload)

/-- A UDP message whose checksum has been filled in. -/
def sealedData (ip : ClickIp) (udp : ClickUdp) (payload : Bytes) : Bytes :=
  udpData ip (udp.withSum ip payload) payload

@[simp] theorem drop_frame (ether : Ether) (d : Bytes) :
    (ether.bytes ++ d).drop sizeofClickEther = d :=
  List.drop_left' ether.length_eq

@[simp] theorem strip_frame (ether : Ether) (p : Packet) : (p.frame ether.bytes).strip = p := by
  simp only [Packet.strip, Packet.frame, drop_frame]

@[simp] theorem length_frame (ether : Ether) (d : Bytes) :
    (ether.bytes ++ d).length = 14+d.length := by
  rw [List.length_append, ether.length_eq]
  rfl

@[simp] theorem ofBytes_udpData (ip : ClickIp) (udp : ClickUdp) (payload : Bytes) :
    ClickIp.ofBytes (udpData ip udp payload) = ip :=
  ClickIp.ofBytes_toBytes ip _

@[simp] theorem length_udpData (ip : ClickIp) (udp : ClickUdp) (payload : Bytes) :
    (udpData ip udp payload).length = 28+payload.length := by
  simp only [udpData, List.length_append, ClickIp.length_toBytes, ClickUdp.length_toBytes]
  omega

@[simp] theorem ofBytes_sealedData (ip : ClickIp) (udp : ClickUdp) (payload : Bytes) :
    ClickIp.ofBytes (sealedData ip udp payload) = ip :=
  ofBytes_udpData ip _ payload

theorem ofBytes_drop_sealedData (ip : ClickIp) (udp : ClickUdp) (payload : Bytes) :
    ClickUdp.ofBytes ((sealedData ip udp payload).drop sizeofClickIp) = udp.withSum ip payload :=
  ClickUdp.ofBytes_toBytes _ payload

theorem drop_sealedData_payload (ip : ClickIp) (udp : ClickUdp) (payload : Bytes) :
    (sealedData ip udp payload).drop (sizeofClickIp+sizeofClickUdp) = payload := rfl

@[simp] theorem length_sealedData (ip : ClickIp) (udp : ClickUdp) (payload : Bytes) :
    (sealedData ip udp payload).length = 28+payload.length :=
  length_udpData ip _ payload

theorem pseudoDst_udpData (ip : ClickIp) (hl : ip.ipHl.toNat ≤ 6) (udp : ClickUdp)
    (payload : Bytes) : pseudoDst (udpData ip udp payload) = ip.ipDst := by
  rw [pseudoDst_short _ (by rwa [ofBytes_udpData]), ofBytes_udpData]

theorem badUdpChecksum_sealedData (ip : ClickIp) (hl : ip.ipHl = 5) (udp : ClickUdp)
    (payload : Bytes) (hp : payload.length ≤ 65536) :
    badUdpChecksum (sealedData ip udp payload) = false := by
  have hle : ip.ipHl.toNat ≤ 6 := by
    rw [hl]
    decide
  apply badUdpChecksum_withSum ip udp payload hp
  exact (pseudoDst_udpData ip hle _ payload).trans (pseudoDst_udpData ip hle _ payload).symm

theorem RegreqH.ofBytes_only (h : RegreqH) : RegreqH.ofBytes h.toBytes = h := by
  simpa using RegreqH.ofBytes_toBytes h []

theorem RegrepH.ofBytes_only (h : RegrepH) : RegrepH.ofBytes h.toBytes = h := by
  simpa using RegrepH.ofBytes_toBytes h []

end MobileIP
