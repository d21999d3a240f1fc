import MobileIP.Advertisement

/-! Agent discovery: the element `Solicitation`, by which the mobile node asks for
advertisements, and the element `CheckSolicitation`, by which an agent recognises the
question. -/
namespace MobileIP

open LittleEndian

/-- The structure has one byte of padding at its end. -/
structure SolicitationH where
  type : UInt8
  code : UInt8
  checksum : UInt16
  addresses : UInt8
  padding : UInt8
  deriving DecidableEq, Repr

def sizeofSolicitationH : ℕ := 6

def SolicitationH.toBytes (h : SolicitationH) : Bytes :=
  h.type :: h.code :: (le16 h.checksum ++ [h.addresses, h.padding])

def SolicitationH.ofBytes (d : Bytes) : SolicitationH where
  type := byteAt d 0
  code := byteAt d 1
  checksum := u16At d 2
  addresses := byteAt d 4
  padding := byteAt d 5

@[simp] theorem SolicitationH.length_toBytes (h : SolicitationH) : h.toBytes.length = 6 := rfl

theorem SolicitationH.ofBytes_toBytes (h : SolicitationH) : SolicitationH.ofBytes h.toBytes = h := by
  simp [SolicitationH.ofBytes, SolicitationH.toBytes]

structure Solicitation where
  srcAddress : IPAddress
  consequentMessages : UInt32
  maxTries : UInt32
  deriving DecidableEq, Repr

namespace Solicitation

def configure (srcAddress : IPAddress) (maxTries : UInt32) : Solicitation where
  srcAddress := srcAddress
  consequentMessages := 0
  maxTries := maxTries

def ip (e : Solicitation) : ClickIp :=
  ClickIp.withSum
    { ipV := 4
      ipHl := 5
      ipTos := 0
      ipLen := htons 26
      ipId := 0
      ipOff := 0
      ipTtl := 1
      ipP := 1
      ipSum := 0
      ipSrc := e.srcAddress
      ipDst := 0xffffffff }

def icmp : SolicitationH :=
  let h : SolicitationH :=
    { type := 10
      code := 0
      checksum := 0
      addresses := 0
      padding := 0 }
  { h with checksum := clickInCksum h.toBytes }

def packet (e : Solicitation) : Packet where
  data := e.ip.toBytes ++ icmp.toBytes
  dstIpAnno := 0xffffffff

/-- `Solicitation::run_timer`: a node that is connected or has heard of an agent starts
counting afresh. -/
def runTimer (e : Solicitation) (mn : MNInfo) : Solicitation × List Action :=
  if mn.connected ∨ mn.advertisements ≠ [] then ({ e with consequentMessages := 0 }, [])
  else if e.maxTries ≤ e.consequentMessages then (e, [])
  else ({ e with consequentMessages := e.consequentMessages+1 }, [.emit 0 e.packet])

end Solicitation

/-- `CheckSolicitation::push`, on a frame. -/
def CheckSolicitation.push (p : Packet) : List Action :=
  let iph := p.data.drop sizeofClickEther
  let ip := ClickIp.ofBytes iph
  let solh := SolicitationH.ofBytes (iph.drop sizeofClickIp)
  if ip.ipP = 1 ∧ solh.type = 10 then
    if ip.ipSrc = 0 then [.kill]
    else if clickInCksum ((iph.drop sizeofClickIp).take sizeofSolicitationH) ≠ 0 then [.kill]
    else if solh.code ≠ 0 then [.kill]
    -- the comparison is the other way round than the standard's
    else if 8+sizeofClickIp ≤ (ntohs ip.ipLen).toNat then [.kill]
    else [.forward 0 p]
  else [.forward 1 p]

theorem Solicitation.clickInCksum_icmp : clickInCksum icmp.toBytes = 0 := by
  decide

/-- An agent hears the solicitations of every node that has an address. -/
theorem CheckSolicitation.push_packet (ether : Ether) (e : Solicitation) (h : e.srcAddress ≠ 0) :
    CheckSolicitation.push (e.packet.frame ether.bytes) = [.forward 0 (e.packet.frame ether.bytes)] := by
  have hdrop : (e.packet.frame ether.bytes).data.drop sizeofClickEther =
      e.ip.toBytes ++ Solicitation.icmp.toBytes := drop_frame ether _
  have hicmp : (e.ip.toBytes ++ Solicitation.icmp.toBytes).drop sizeofClickIp =
      Solicitation.icmp.toBytes := rfl
  have htake : Solicitation.icmp.toBytes.take sizeofSolicitationH = Solicitation.icmp.toBytes := rfl
  have hlen : ¬ 8+sizeofClickIp ≤ (ntohs e.ip.ipLen).toNat := by
    change ¬ 8+sizeofClickIp ≤ (ntohs (htons 26)).toNat
    decide
  have htype : e.ip.ipP = 1 ∧ Solicitation.icmp.type = 10 := ⟨rfl, rfl⟩
  have hcode : ¬ Solicitation.icmp.code ≠ 0 := not_not_intro rfl
  have hsrc : ¬ e.ip.ipSrc = 0 := h
  -- the message is shorter than eight bytes, so even the reversed test lets it pass
  unfold CheckSolicitation.push
  simp only [hdrop, hicmp, htake, ClickIp.ofBytes_toBytes, SolicitationH.ofBytes_toBytes,
    if_pos htype, if_neg hsrc, if_neg hcode, if_neg hlen, Solicitation.clickInCksum_icmp, ne_eq,
    not_true_eq_false, if_false]

end MobileIP
