import MobileIP.ProcessAdvertisements
import MobileIP.Advertisement
import MobileIP.Library.Runs

/-! How a mobile node tells from the sequence numbers that an agent was restarted. The agent
writes the number in network order, and the node compares the field as it stands. -/
namespace MobileIP

open LittleEndian VectorSearch

namespace Advertisement

theorem iph_sendPacket (e : Advertisement) (dst : IPAddress) :
    ProcessAdvertisements.iph (e.sendPacket dst).2 = e.ip dst :=
  ClickIp.ofBytes_toBytes _ _

theorem ah_sendPacket (e : Advertisement) (dst : IPAddress) :
    ProcessAdvertisements.ah (e.sendPacket dst).2 = e.icmp := by
  have hdrop : (e.sendPacket dst).2.data.drop sizeofClickIp =
      e.icmp.toBytes ++ e.extension.toBytes := rfl
  rw [ProcessAdvertisements.ah, hdrop, AdvertisementH.ofBytes_toBytes]

theorem ahe_sendPacket (e : Advertisement) (dst : IPAddress) :
    ProcessAdvertisements.ahe (e.sendPacket dst).2 = e.extension := by
  have hdrop : (e.sendPacket dst).2.data.drop (sizeofClickIp+sizeofAdvertisementH) =
      e.extension.toBytes ++ [] := by
    rw [List.append_nil]
    rfl
  rw [ProcessAdvertisements.ahe, hdrop, AdvertisementHE.ofBytes_toBytes]

theorem advertises_sendPacket (e : Advertisement) (dst : IPAddress) :
    ProcessAdvertisements.advertises (e.sendPacket dst).2 := by
  unfold ProcessAdvertisements.advertises
  rw [iph_sendPacket, ah_sendPacket, ahe_sendPacket]
  exact ⟨rfl, rfl, rfl⟩

theorem busy_sendPacket (e : Advertisement) (dst : IPAddress) :
    ProcessAdvertisements.busy (e.sendPacket dst).2 ↔ e.busy = true := by
  -- the flags of the extension are the eight combinations of the three configured ones
  have hflags : ∀ busy ha fa : Bool,
      (((busy.toUInt8 <<< 6)+(ha.toUInt8 <<< 5)+(fa.toUInt8 <<< 4)) >>> 6) &&& 1 ≠ 0 ↔
        busy = true := by
    decide
  unfold ProcessAdvertisements.busy
  rw [ahe_sendPacket]
  exact hflags e.busy e.ha e.fa

/-- The number of the `k`-th advertisement since the agent was started. -/
def number : ℕ → UInt16
  | 0 => 0
  | k+1 => if number k < 0xffff then number k+1 else 256

/-- The numbers count up once from zero, and from then on from 256. -/
theorem toNat_number (k : ℕ) :
    (number k).toNat = if k ≤ 65535 then k else 256+(k-65536)%65280 := by
  induction k with
  | zero => rfl
  | succ k ih =>
    have hmax : (0xffff : UInt16).toNat = 65535 := rfl
    -- the agent counts on, or rolls over to 256 after the last number
    by_cases hlt : number k < 0xffff
    · have hlt' := UInt16.lt_iff_toNat_lt.mp hlt
      rw [number, if_pos hlt, UInt16.toNat_add, UInt16.toNat_one]
      split_ifs at ih ⊢
      all_goals omega
    · have hlt' : ¬ (number k).toNat < (0xffff : UInt16).toNat :=
        fun h => hlt (UInt16.lt_iff_toNat_lt.mpr h)
      have h256 : (256 : UInt16).toNat = 256 := rfl
      rw [number, if_neg hlt, h256]
      split_ifs at ih ⊢
      all_goals omega

/-- One advertisement, to a destination. -/
def send (e : Advertisement) (destinationIP : IPAddress) : Advertisement × List Packet :=
  ((e.sendPacket destinationIP).1, [(e.sendPacket destinationIP).2])

/-- The advertisements of an agent, to the destinations in order. -/
def messages (e : Advertisement) (destinations : List IPAddress) : List Packet :=
  Runs.trace send e destinations

theorem messages_from (e : Advertisement) (destinations : List IPAddress) (j k : ℕ)
    (p : Packet) (hp : (messages { e with sequenceNr := number j } destinations)[k]? = some p) :
    ∃ dst, p = ({ e with sequenceNr := number (j+k) }.sendPacket dst).2 := by
  induction destinations generalizing j k with
  | nil => simp [messages, Runs.trace] at hp
  | cons dst destinations ih =>
    cases k with
    | zero => exact ⟨dst, (Option.some.inj hp).symm⟩
    | succ k =>
      -- the tail of the messages are those of an agent that has sent one more
      have hnext : messages { e with sequenceNr := number j } (dst :: destinations) =
          ({ e with sequenceNr := number j }.sendPacket dst).2 ::
            messages { e with sequenceNr := number (j+1) } destinations := rfl
      rw [hnext, List.getElem?_cons_succ] at hp
      rw [show j+(k+1) = j+1+k by omega]
      exact ih (j+1) k hp

/-- The `k`-th advertisement since the agent was started carries the `k`-th number. -/
theorem messages_number (e : Advertisement) (h0 : e.sequenceNr = 0) (destinations : List IPAddress)
    (k : ℕ) (p : Packet) (hp : (messages e destinations)[k]? = some p) :
    ∃ dst, p = ({ e with sequenceNr := number k }.sendPacket dst).2 := by
  have he : { e with sequenceNr := number 0 } = e := by
    cases e
    cases h0
    rfl
  rw [← he] at hp
  have hfrom := messages_from e destinations 0 k p hp
  rw [Nat.zero_add] at hfrom
  exact hfrom

end Advertisement

namespace ProcessAdvertisements

/-- The sequence number of an advertisement. -/
def seqNr (p : Packet) : ℕ := (ntohs (ahe p).seqNr).toNat

theorem seqNr_lt (p : Packet) : seqNr p < 65536 := UInt16.toNat_lt _

theorem seqNr_message (e : Advertisement) (k : ℕ) (dst : IPAddress) :
    seqNr ({ e with sequenceNr := Advertisement.number k }.sendPacket dst).2 =
      (Advertisement.number k).toNat := by
  rw [seqNr, Advertisement.ahe_sendPacket]
  exact congrArg UInt16.toNat (ntohs_htons _)

/-- The field of a sequence number as it stands, in terms of the number. -/
theorem toNat_raw_seqNr (p : Packet) : (ahe p).seqNr.toNat = seqNr p%256*256+seqNr p/256 := by
  have hswap := toNat_swap16 (ntohs (ahe p).seqNr)
  have hback : swap16 (ntohs (ahe p).seqNr) = (ahe p).seqNr := swap16_swap16 _
  rw [hback] at hswap
  exact hswap

/-- When an advertisement makes a connected node try to register again: its number is a
multiple of 256, and the multiple is at most the last number with its bytes swapped. -/
theorem outputs_push_connected (pa : ProcessAdvertisements) (mn : MNInfo) (now : ℕ)
    (old p : Packet) (hc : mn.connected = true)
    (hold : mn.advertisements.lookup (ah p).address = some old) (hadv : advertises p)
    (hbusy : ¬ busy p) :
    outputs 1 (push pa mn now p).acts = [p] ↔
      seqNr p%256 = 0 ∧ seqNr p/256 ≤ seqNr old%256*256+seqNr old/256 := by
  have hn := toNat_raw_seqNr p
  have hs := toNat_raw_seqNr old
  have hlt := seqNr_lt p
  have hlsn : lsn mn (ah p).address = (ahe old).seqNr := by
    rw [lsn, hold]
  have h256 : (256 : UInt16).toNat = 256 := rfl
  -- the raw field is below 256 exactly if the number has no low byte
  have hatt : attempts mn p ↔
      seqNr p%256 = 0 ∧ seqNr p/256 ≤ seqNr old%256*256+seqNr old/256 := by
    unfold attempts
    rw [hlsn, hc, UInt16.le_iff_toNat_le, UInt16.lt_iff_toNat_lt, hn, hs, h256]
    simp only [Bool.true_eq_false, false_or]
    omega
  rw [outputs_push, ← hatt]
  by_cases hall : attempts mn p
  · rw [if_pos ⟨hadv, hbusy, hall⟩]
    exact iff_of_true rfl hall
  · rw [if_neg (fun h => hall h.2.2)]
    simp [hall]

theorem outputs_push_eq_nil_iff (pa : ProcessAdvertisements) (mn : MNInfo) (now : ℕ) (p : Packet) :
    outputs 1 (push pa mn now p).acts = [] ↔ ¬ outputs 1 (push pa mn now p).acts = [p] := by
  rw [outputs_push]
  split_ifs
  · simp
  · simp

/-- What a node reads in the `k`-th advertisement since the agent was started. -/
theorem message_facts (e : Advertisement) (h0 : e.sequenceNr = 0) (hb : e.busy = false)
    (destinations : List IPAddress) (k : ℕ) (q : Packet)
    (hq : (e.messages destinations)[k]? = some q) :
    advertises q ∧ ¬ busy q ∧ (ah q).address = e.srcIp ∧
      seqNr q = if k ≤ 65535 then k else 256+(k-65536)%65280 := by
  obtain ⟨dst, rfl⟩ := e.messages_number h0 destinations k q hq
  refine ⟨Advertisement.advertises_sendPacket _ dst, ?_, ?_, ?_⟩
  · rw [Advertisement.busy_sendPacket]
    simp [hb]
  · rw [Advertisement.ah_sendPacket]
    rfl
  · rw [seqNr_message, Advertisement.toNat_number]

/-- Restart detection. A connected node that holds an advertisement of an agent with number
`s` tries to register again for one with number `n` exactly as it should if `n` is zero, or
below 256 and above `s`, or neither below 256 nor such that `n/256` could be mistaken for it.
An advertisement that comes in order starts an attempt exactly if its number is a multiple of
256 and the multiple is at most the last number with its bytes swapped; and of the first 256
advertisements after a restart only the very first one does, if the last number was not below
theirs. -/
theorem restart_detection_iff (pa : ProcessAdvertisements) (mn : MNInfo) (now : ℕ) (old : Packet)
    (hc : mn.connected = true) :
    (∀ p, advertises p → ¬ busy p → mn.advertisements.lookup (ah p).address = some old →
      ((outputs 1 (push pa mn now p).acts = [p] ↔ seqNr p < 256 ∧ seqNr p ≤ seqNr old) ↔
        seqNr p = 0 ∨ (0 < seqNr p ∧ seqNr p < 256 ∧ seqNr old < seqNr p) ∨
          (256 ≤ seqNr p ∧
            (seqNr p%256 ≠ 0 ∨ seqNr old%256*256+seqNr old/256 < seqNr p/256)))) ∧
    (∀ (e : Advertisement) (destinations : List IPAddress) (j k : ℕ) (p q : Packet),
      e.sequenceNr = 0 → e.busy = false → mn.advertisements.lookup e.srcIp = some old →
      (e.messages destinations)[j]? = some p → (e.messages destinations)[k]? = some q → j < k →
      seqNr old = seqNr p →
      seqNr q = (if k ≤ 65535 then k else 256+(k-65536)%65280) ∧
      (outputs 1 (push pa mn now q).acts = [] ↔
        seqNr q%256 ≠ 0 ∨ seqNr p%256*256+seqNr p/256 < seqNr q/256)) ∧
    (∀ (e : Advertisement) (destinations : List IPAddress) (k : ℕ) (q : Packet),
      e.sequenceNr = 0 → e.busy = false → mn.advertisements.lookup e.srcIp = some old →
      (e.messages destinations)[k]? = some q → k < 256 → seqNr q ≤ seqNr old →
      (outputs 1 (push pa mn now q).acts = [q] ↔ k = 0)) := by
  refine ⟨?_, ?_, ?_⟩
  · intro p hadv hbusy hold
    rw [outputs_push_connected pa mn now old p hc hold hadv hbusy]
    omega
  · intro e destinations j k p q h0 hb hold _ hq _ hlast
    obtain ⟨hadv, hbusy, haddr, hnum⟩ := message_facts e h0 hb destinations k q hq
    rw [← haddr] at hold
    refine ⟨hnum, ?_⟩
    rw [outputs_push_eq_nil_iff, outputs_push_connected pa mn now old q hc hold hadv hbusy, hlast]
    omega
  · intro e destinations k q h0 hb hold hq hk hle
    obtain ⟨hadv, hbusy, haddr, hnum⟩ := message_facts e h0 hb destinations k q hq
    rw [if_pos (by omega)] at hnum
    rw [← haddr] at hold
    rw [outputs_push_connected pa mn now old q hc hold hadv hbusy]
    omega

end ProcessAdvertisements

namespace Deployment

/-- The foreign agent's advertisement with the number `n`. -/
def numbered (n : UInt16) : Packet :=
  ({ foreignAdvertiser with sequenceNr := n }.sendPacket 0xffffffff).2

/-- A connected node that holds it. -/
def holding (n : UInt16) : MNInfo :=
  { info with
    connected := true
    foreignAgent := foreignAgentPrivateAddress
    lifetime := 100
    advertisements := [(foreignAgentPrivateAddress, numbered n)] }

end Deployment

namespace ProcessAdvertisements

theorem restart_detection_deployed :
    (outputs 1 (push configure (Deployment.holding 10) 0 (Deployment.numbered 0)).acts =
        [Deployment.numbered 0] ↔
      seqNr (Deployment.numbered 0) < 256 ∧ seqNr (Deployment.numbered 0) ≤ 10) := by
  have hiff := (restart_detection_iff configure (Deployment.holding 10) 0
    (Deployment.numbered 10) rfl).1 (Deployment.numbered 0) (by decide +kernel) (by decide +kernel)
    (by decide +kernel)
  have hs : seqNr (Deployment.numbered 10) = 10 := by decide +kernel
  rw [hs] at hiff
  exact hiff.mpr (Or.inl (by decide +kernel))

/-- The agent is restarted after its advertisement 10 and the node next hears its number 5,
which is ignored; without a restart, number 256 after number 255 is taken for one. -/
theorem restart_detection_wrong :
    seqNr (Deployment.numbered 5) < 256 ∧
      seqNr (Deployment.numbered 5) ≤ seqNr (Deployment.numbered 10) ∧
      outputs 1 (push configure (Deployment.holding 10) 0 (Deployment.numbered 5)).acts = [] ∧
      ¬ seqNr (Deployment.numbered 256) < 256 ∧
      outputs 1 (push configure (Deployment.holding 255) 0 (Deployment.numbered 256)).acts =
        [Deployment.numbered 256] := by
  decide +kernel

end ProcessAdvertisements

end MobileIP
