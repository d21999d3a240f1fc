import MobileIP.Advertising
import MobileIP.Library.Runs

/-! How often a mobile node solicits, and which solicitations an agent hears. -/
namespace MobileIP

open LittleEndian

namespace Solicitation

/-- The node is not connected and knows of no agent. -/
def searching (mn : MNInfo) : Prop := mn.connected = false ∧ mn.advertisements = []

instance (mn : MNInfo) : Decidable (searching mn) := inferInstanceAs (Decidable (_ ∧ _))

/-- What each tick of the timer sends. A tick is given by the state in which it finds the node,
which the other elements may have changed at will since the one before. -/
def sends (e : Solicitation) (mns : List MNInfo) : List (List Action) :=
  Runs.answers runTimer (fun _ => true) e mns

theorem runTimer_idle (e : Solicitation) (mn : MNInfo) (h : ¬ searching mn) :
    e.runTimer mn = ({ e with consequentMessages := 0 }, []) := by
  have hbusy : mn.connected ∨ mn.advertisements ≠ [] := by
    by_cases hc : mn.connected = true
    · exact Or.inl hc
    · exact Or.inr (fun hnil => h ⟨Bool.not_eq_true _ ▸ hc, hnil⟩)
  rw [runTimer, if_pos hbusy]

theorem runTimer_searching (e : Solicitation) (mn : MNInfo) (h : searching mn) :
    e.runTimer mn =
      if e.maxTries ≤ e.consequentMessages then (e, [])
      else ({ e with consequentMessages := e.consequentMessages+1 }, [.emit 0 e.packet]) := by
  have hfree : ¬ (mn.connected ∨ mn.advertisements ≠ []) := by
    rw [h.1, h.2]
    simp
  rw [runTimer, if_neg hfree]

/-- The ticks of a search that has sent `c` messages: they send until the limit is reached, and
nothing after it. -/
theorem sends_searching (e : Solicitation) (c : UInt32) (hc : c ≤ e.maxTries)
    (block : List MNInfo) (h : ∀ mn ∈ block, searching mn) :
    { e with consequentMessages := c }.sends block =
      List.replicate (min block.length (e.maxTries.toNat-c.toNat)) [.emit 0 e.packet] ++
        List.replicate (block.length-(e.maxTries.toNat-c.toNat)) [] := by
  have hlt : e.maxTries.toNat < 4294967296 := e.maxTries.toNat_lt
  induction block generalizing c with
  | nil => simp [sends, Runs.answers]
  | cons mn block ih =>
    have hmn := h mn List.mem_cons_self
    have hrest : ∀ x ∈ block, searching x := fun x hx => h x (List.mem_cons_of_mem mn hx)
    have hstep := runTimer_searching { e with consequentMessages := c } mn hmn
    have hcons : { e with consequentMessages := c }.sends (mn :: block) =
        (runTimer { e with consequentMessages := c } mn).2 ::
          (runTimer { e with consequentMessages := c } mn).1.sends block := rfl
    rw [hcons, hstep]
    dsimp only
    have hc' := UInt32.le_iff_toNat_le.mp hc
    by_cases hmax : e.maxTries ≤ c
    · -- the limit is reached, and stays reached
      have hmax' := UInt32.le_iff_toNat_le.mp hmax
      have hzero : e.maxTries.toNat-c.toNat = 0 := by omega
      rw [if_pos hmax]
      dsimp only
      rw [ih c hc hrest, hzero, Nat.min_zero, Nat.min_zero]
      rfl
    · have hmax' : c.toNat < e.maxTries.toNat := by
        rw [UInt32.le_iff_toNat_le] at hmax
        omega
      have hsucc : (c+1).toNat = c.toNat+1 := by
        rw [UInt32.toNat_add, UInt32.toNat_one]
        omega
      have hnext : c+1 ≤ e.maxTries := by
        rw [UInt32.le_iff_toNat_le, hsucc]
        omega
      have hone : min (block.length+1) (e.maxTries.toNat-c.toNat) =
          min block.length (e.maxTries.toNat-(c.toNat+1))+1 := by omega
      have htail : block.length+1-(e.maxTries.toNat-c.toNat) =
          block.length-(e.maxTries.toNat-(c.toNat+1)) := by omega
      rw [if_neg hmax]
      dsimp only
      rw [ih (c+1) hnext hrest, hsucc, List.length_cons, hone, htail]
      rfl

/-- The timer changes nothing but its counter. -/
theorem final_eq (e : Solicitation) (mns : List MNInfo) :
    ∃ c, Runs.final runTimer e mns = { e with consequentMessages := c } := by
  apply Runs.history_invariant runTimer e (fun _ _ s => ∃ c, s = { e with consequentMessages := c })
  · exact ⟨e.consequentMessages, rfl⟩
  · rintro mns mn ⟨c, hc⟩
    rw [hc]
    by_cases h : searching mn
    · rw [runTimer_searching _ mn h]
      split_ifs
      · exact ⟨c, rfl⟩
      · exact ⟨c+1, rfl⟩
    · rw [runTimer_idle _ mn h]
      exact ⟨0, rfl⟩

/-- A tick at which the node does not search starts the count afresh. -/
theorem final_idle (e : Solicitation) (h0 : e.consequentMessages = 0) (mns : List MNInfo)
    (hlast : ∀ mn ∈ mns.getLast?, ¬ searching mn) : Runs.final runTimer e mns = e := by
  have he : { e with consequentMessages := 0 } = e := by
    cases e
    cases h0
    rfl
  rcases List.eq_nil_or_concat mns with rfl | ⟨mns', mn, rfl⟩
  · rfl
  · rw [List.concat_eq_append] at hlast ⊢
    obtain ⟨c, hc⟩ := final_eq e mns'
    have hidle : ¬ searching mn := hlast mn (by simp)
    rw [Runs.final_concat, hc, runTimer_idle _ mn hidle]
    exact he

/-- A packet that asks every agent on the link for an advertisement: an ICMP message of type 10
from the address `src`, over one hop, with both of its checksums right. -/
structure Asks (src : IPAddress) (p : Packet) : Prop where
  version : (ClickIp.ofBytes p.data).ipV = 4 ∧ (ClickIp.ofBytes p.data).ipHl = 5
  length : (ntohs (ClickIp.ofBytes p.data).ipLen).toNat = p.data.length
  ttl : (ClickIp.ofBytes p.data).ipTtl = 1
  source : (ClickIp.ofBytes p.data).ipSrc = src
  destination : (ClickIp.ofBytes p.data).ipDst = 0xffffffff ∧ p.dstIpAnno = 0xffffffff
  header : clickInCksum (p.data.take sizeofClickIp) = 0
  protocol : (ClickIp.ofBytes p.data).ipP = 1
  type : (SolicitationH.ofBytes (p.data.drop sizeofClickIp)).type = 10
  code : (SolicitationH.ofBytes (p.data.drop sizeofClickIp)).code = 0
  message : clickInCksum (p.data.drop sizeofClickIp) = 0

theorem packet_asks (e : Solicitation) : Asks e.srcAddress e.packet := by
  have hip : ClickIp.ofBytes e.packet.data = e.ip := ClickIp.ofBytes_toBytes e.ip icmp.toBytes
  have hhead : e.packet.data.take sizeofClickIp = e.ip.toBytes := List.take_left' rfl
  have hmessage : e.packet.data.drop sizeofClickIp = icmp.toBytes := List.drop_left' rfl
  constructor
  · rw [hip]
    exact ⟨rfl, rfl⟩
  · rw [hip]
    change (ntohs (htons 26)).toNat = 26
    decide
  · rw [hip]
    rfl
  · rw [hip]
    rfl
  · rw [hip]
    exact ⟨rfl, rfl⟩
  · rw [hhead]
    exact clickInCksum_withSum _
  · rw [hip]
    rfl
  · rw [hmessage, SolicitationH.ofBytes_toBytes]
    rfl
  · rw [hmessage, SolicitationH.ofBytes_toBytes]
    rfl
  · rw [hmessage]
    exact clickInCksum_icmp

end Solicitation

/-- In a run of the timer every block of ticks at which the node searches, from its first tick
on, sends one solicitation a tick until the limit is reached and none after it; and the other
ticks send nothing. What is sent is a solicitation from the address configured, and every agent
on the link hears it if that address is not zero. -/
theorem solicitations_bounded (srcAddress : IPAddress) (m : UInt32) (mns : List MNInfo) :
    let e := Solicitation.configure srcAddress m
    (∀ pre block post, mns = pre ++ (block ++ post) →
      (∀ mn ∈ pre.getLast?, ¬ Solicitation.searching mn) →
      (∀ mn ∈ block, Solicitation.searching mn) →
      ((e.sends mns).drop pre.length).take block.length =
        List.replicate (min block.length m.toNat) [.emit 0 e.packet] ++
          List.replicate (block.length-min block.length m.toNat) []) ∧
    (∀ (i : ℕ) (mn : MNInfo), mns[i]? = some mn → ¬ Solicitation.searching mn →
      (e.sends mns)[i]? = some []) ∧
    Solicitation.Asks srcAddress e.packet ∧
    (srcAddress ≠ 0 → ∀ ether : Ether, CheckSolicitation.push (e.packet.frame ether.bytes) =
      [.forward 0 (e.packet.frame ether.bytes)]) := by
  intro e
  refine ⟨?_, ?_, e.packet_asks, fun h ether => CheckSolicitation.push_packet ether e h⟩
  · rintro pre block post rfl hpre hblock
    have hstart : Runs.final Solicitation.runTimer e pre = e := e.final_idle rfl pre hpre
    have hzero : m.toNat-(0 : UInt32).toNat = m.toNat := Nat.sub_zero _
    have hsends : e.sends block = _ := e.sends_searching 0 (UInt32.zero_le) block hblock
    have hlen : (e.sends pre).length = pre.length := Runs.length_answers _ e pre
    have hlen' : (e.sends block).length = block.length := Runs.length_answers _ e block
    have hall : e.sends (pre ++ (block ++ post)) =
        e.sends pre ++ (e.sends block ++
          (Runs.final Solicitation.runTimer e block).sends post) := by
      unfold Solicitation.sends
      rw [Runs.answers_append, Runs.answers_append, hstart]
    rw [hall, List.drop_left' hlen, List.take_left' hlen', hsends]
    have hmax : e.maxTries = m := rfl
    have hrest : block.length-min block.length m.toNat = block.length-m.toNat := by omega
    rw [hmax, hzero, hrest]
  · intro i mn hi hidle
    unfold Solicitation.sends
    rw [Runs.getElem?_answers _ e mns i mn hi, Solicitation.runTimer_idle _ mn hidle]

theorem solicitations_bounded_deployed :
    let e := Solicitation.configure Deployment.mobileNodeAddress 2
    let frame := e.packet.frame (default : Ether).bytes
    ((e.sends [Deployment.holding 1, Deployment.info, Deployment.info, Deployment.info]).drop 1).take 3 =
      [[.emit 0 e.packet], [.emit 0 e.packet], []] ∧
    CheckSolicitation.push frame = [.forward 0 frame] := by
  intro e frame
  obtain ⟨hblocks, -, -, hheard⟩ := solicitations_bounded Deployment.mobileNodeAddress 2
    [Deployment.holding 1, Deployment.info, Deployment.info, Deployment.info]
  refine ⟨?_, hheard (by decide) default⟩
  apply hblocks [Deployment.holding 1] [Deployment.info, Deployment.info, Deployment.info] [] rfl
  · intro mn hmn
    rw [← Option.some.inj hmn]
    rintro ⟨hc, -⟩
    cases hc
  · intro mn hmn
    have hinfo : mn = Deployment.info := by simpa using hmn
    rw [hinfo]
    exact ⟨rfl, rfl⟩

namespace CheckSolicitation

/-- The headers that the element finds in a frame. -/
def iph (p : Packet) : Bytes := p.data.drop sizeofClickEther

def ip (p : Packet) : ClickIp := ClickIp.ofBytes (iph p)

def solh (p : Packet) : SolicitationH := SolicitationH.ofBytes ((iph p).drop sizeofClickIp)

def ipLen (p : Packet) : ℕ := (ntohs (ip p).ipLen).toNat

/-- The ICMP message, as long as the IP header says. -/
def message (p : Packet) : Bytes := ((iph p).drop sizeofClickIp).take (ipLen p-sizeofClickIp)

/-- The part of it that lies under `solicitation_h`, with its padding. -/
def start (p : Packet) : Bytes := ((iph p).drop sizeofClickIp).take sizeofSolicitationH

/-- A router solicitation as RFC 1256 has it. -/
def Valid (p : Packet) : Prop :=
  (solh p).code = 0 ∧ 8 ≤ ipLen p-sizeofClickIp ∧ clickInCksum (message p) = 0

instance (p : Packet) : Decidable (Valid p) := inferInstanceAs (Decidable (_ ∧ _ ∧ _))

/-- The handler in terms of the headers: it accepts messages that are shorter than eight bytes,
and looks at six of them. -/
theorem push_eq (p : Packet) :
    push p =
      if (ip p).ipP = 1 ∧ (solh p).type = 10 then
        if (ip p).ipSrc ≠ 0 ∧ clickInCksum (start p) = 0 ∧ (solh p).code = 0 ∧ ipLen p < 28 then
          [.forward 0 p]
        else [.kill]
      else [.forward 1 p] := by
  have hlong : 8+sizeofClickIp ≤ (ntohs (ip p).ipLen).toNat ↔ ¬ ipLen p < 28 := by
    change 28 ≤ ipLen p ↔ _
    omega
  have hpush : push p =
      if (ip p).ipP = 1 ∧ (solh p).type = 10 then
        if (ip p).ipSrc = 0 then [.kill]
        else if clickInCksum (start p) ≠ 0 then [.kill]
        else if (solh p).code ≠ 0 then [.kill]
        else if 8+sizeofClickIp ≤ (ntohs (ip p).ipLen).toNat then [.kill]
        else [.forward 0 p]
      else [.forward 1 p] := rfl
  rw [hpush]
  simp only [hlong]
  by_cases htype : (ip p).ipP = 1 ∧ (solh p).type = 10
  · rw [if_pos htype, if_pos htype]
    -- the tests one after the other are their conjunction
    by_cases hsrc : (ip p).ipSrc = 0
    · simp [hsrc]
    · by_cases hsum : clickInCksum (start p) = 0
      · by_cases hcode : (solh p).code = 0
        · by_cases hlen : ipLen p < 28
          · simp [hsrc, hsum, hcode, hlen]
          · simp [hsrc, hsum, hcode, hlen]
        · simp [hsrc, hsum, hcode]
      · simp [hsrc, hsum]
  · rw [if_neg htype, if_neg htype]

end CheckSolicitation

namespace Deployment

end Deployment

end MobileIP
