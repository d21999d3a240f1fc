import MobileIP.ARPTable
import Mathlib.Data.List.Forall2
import Mathlib.Data.List.Nodup
import Mathlib.Data.List.Perm.Basic

/-! What every operation of `ARPTable` keeps: the counters are right, the limits hold, an entry is
the only one of its address and its packets are for it. Each operation has a specification that
says where the packets have gone and which entries the new ones come from. -/
namespace MobileIP

open LittleEndian

namespace ARPTable

/-- All the packets that wait. -/
def queued (l : List ARPEntry) : List Packet := l.flatMap ARPEntry.queue

/-- What an entry knows of itself. -/
structure Sound (ae : ARPEntry) : Prop where
  count : ae.entryPacketCount = ae.queue.length
  addressed : ∀ p ∈ ae.queue, p.dstIpAnno = ae.ip
  unicast : ae.isKnown = true → ae.eth.isBroadcast = false

/-- An entry that has lost packets from the front of its queue, and nothing else. -/
def Trimmed (ae' ae : ARPEntry) : Prop :=
  ∃ n ≤ ae.queue.length,
    ae' = { ae with queue := ae.queue.drop n, entryPacketCount := ae.entryPacketCount-n }

theorem Trimmed.refl (ae : ARPEntry) : Trimmed ae ae := ⟨0, Nat.zero_le _, rfl⟩

theorem Trimmed.sound {ae' ae : ARPEntry} (h : Trimmed ae' ae) (hs : Sound ae) : Sound ae' := by
  obtain ⟨n, hn, rfl⟩ := h
  refine ⟨?_, ?_, hs.unicast⟩
  · change ae.entryPacketCount-n = (ae.queue.drop n).length
    rw [hs.count, List.length_drop]
  · intro p hp
    exact hs.addressed p (List.mem_of_mem_drop hp)

theorem Trimmed.ip {ae' ae : ARPEntry} (h : Trimmed ae' ae) : ae'.ip = ae.ip := by
  obtain ⟨n, -, rfl⟩ := h
  rfl

theorem forall₂_trimmed_refl (l : List ARPEntry) : List.Forall₂ Trimmed l l :=
  List.forall₂_same.mpr (fun ae _ => Trimmed.refl ae)

theorem map_ip_of_trimmed {l' l : List ARPEntry} (h : List.Forall₂ Trimmed l' l) :
    l'.map ARPEntry.ip = l.map ARPEntry.ip := by
  induction h with
  | nil => rfl
  | cons hae _ ih => rw [List.map_cons, List.map_cons, hae.ip, ih]

theorem mem_of_trimmed {l' l : List ARPEntry} (h : List.Forall₂ Trimmed l' l) {ae' : ARPEntry}
    (hae : ae' ∈ l') : ∃ ae ∈ l, Trimmed ae' ae := by
  induction h with
  | nil => cases hae
  | @cons a b l₁ l₂ hab _ ih =>
    rcases List.mem_cons.mp hae with rfl | hae
    · exact ⟨b, List.mem_cons_self, hab⟩
    · obtain ⟨ae, hmem, ht⟩ := ih hae
      exact ⟨ae, List.mem_cons_of_mem b hmem, ht⟩

/-- The first loop of `slim` takes away the front of the list, as far as the entries have expired
or there are too many of them. -/
theorem slimEntries_spec (c : ARPConfig) (now : UInt32) (l : List ARPEntry) (t : ARPTable) :
    let r := slimEntries c now l t
    ∃ pre, l = pre ++ r.1.age ∧ r.2 = queued pre ∧
      r.1.entryCount = t.entryCount-pre.length ∧ r.1.packetCount = t.packetCount-r.2.length ∧
      r.1.drops = t.drops+UInt32.ofNat r.2.length ∧
      (∀ ae ∈ pre, ae.expired now c.timeout = true ∨
        (c.entryCapacity ≠ 0 ∧ c.entryCapacity < t.entryCount)) ∧
      (r.1.age = [] ∨ c.entryCapacity = 0 ∨ r.1.entryCount ≤ c.entryCapacity) := by
  induction l generalizing t with
  | nil =>
    refine ⟨[], rfl, rfl, rfl, rfl, (UInt32.add_zero _).symm, ?_, Or.inl rfl⟩
    intro ae hae
    cases hae
  | cons ae rest ih =>
    rw [slimEntries]
    by_cases hold : ae.expired now c.timeout ∨ (c.entryCapacity ≠ 0 ∧ c.entryCapacity < t.entryCount)
    · rw [if_pos hold]
      dsimp only
      obtain ⟨pre, hl, hk, he, hp, hd, hpre, hfit⟩ := ih
        { t with
          packetCount := t.packetCount-ae.queue.length
          drops := t.drops+UInt32.ofNat ae.queue.length
          entryCount := t.entryCount-1 }
      dsimp only at he hp hd hpre
      refine ⟨ae :: pre, ?_, ?_, ?_, ?_, ?_, ?_, hfit⟩
      · rw [List.cons_append, ← hl]
      · rw [hk]
        rfl
      · rw [he, List.length_cons]
        omega
      · rw [hp, List.length_append]
        omega
      · rw [hd, List.length_append, UInt32.ofNat_add, UInt32.add_assoc]
      · intro x hx
        rcases List.mem_cons.mp hx with rfl | hx
        · exact hold
        · rcases hpre x hx with h | h
          · exact Or.inl h
          · exact Or.inr ⟨h.1, by omega⟩
    · rw [if_neg hold]
      refine ⟨[], rfl, rfl, rfl, rfl, (UInt32.add_zero _).symm, ?_, Or.inr ?_⟩
      · intro x hx
        cases hx
      · by_cases h0 : c.entryCapacity = 0
        · exact Or.inl h0
        · exact Or.inr (Nat.le_of_not_lt (fun hlt => hold (Or.inr ⟨h0, hlt⟩)))

theorem slimQueue_spec (capacity : ℕ) (queue : List Packet) (n : ℕ) :
    let r := slimQueue capacity queue n
    queue = r.2.1 ++ r.1 ∧ r.2.2 = n-r.2.1.length ∧ r.2.1.length ≤ n-capacity ∧
      (r.1 = [] ∨ r.2.2 ≤ capacity) := by
  induction queue generalizing n with
  | nil => exact ⟨rfl, rfl, Nat.zero_le _, Or.inl rfl⟩
  | cons p queue ih =>
    rw [slimQueue]
    by_cases hn : capacity < n
    · rw [if_pos hn]
      obtain ⟨hq, hcount, hle, hfit⟩ := ih (n-1)
      dsimp only
      refine ⟨?_, ?_, ?_, hfit⟩
      · rw [List.cons_append, ← hq]
      · rw [hcount, List.length_cons]
        omega
      · rw [List.length_cons]
        omega
    · rw [if_neg hn]
      exact ⟨rfl, rfl, Nat.zero_le _, Or.inr (Nat.le_of_not_lt hn)⟩

/-- The second loop kills from the front of the queues until the count fits. As long as the count
exceeds what waits by no more than the capacity, the loop ends within the list. -/
theorem slimPackets_spec (capacity : ℕ) (l : List ARPEntry) (n : ℕ) :
    let r := slimPackets capacity l n
    List.Forall₂ Trimmed r.1 l ∧ (queued l).Perm (r.2.1 ++ queued r.1) ∧ r.2.2 = n-r.2.1.length ∧
      r.2.1.length ≤ n-capacity ∧ (n ≤ (queued l).length+capacity → r.2.2 ≤ capacity) := by
  induction l generalizing n with
  | nil =>
    refine ⟨List.Forall₂.nil, List.Perm.refl _, rfl, Nat.zero_le _, ?_⟩
    intro hn
    rw [queued, List.flatMap_nil, List.length_nil] at hn
    change n ≤ capacity
    omega
  | cons ae rest ih =>
    rw [slimPackets]
    by_cases hn : capacity < n
    · rw [if_pos hn]
      obtain ⟨hq, hcount, hle, hfit⟩ := slimQueue_spec capacity ae.queue n
      obtain ⟨htrim, hperm, hcount', hle', hfit'⟩ := ih (slimQueue capacity ae.queue n).2.2
      dsimp only
      generalize slimQueue capacity ae.queue n = q at *
      generalize slimPackets capacity rest q.2.2 = r at *
      refine ⟨List.Forall₂.cons ⟨q.2.1.length, ?_, ?_⟩ htrim, ?_, ?_, ?_, ?_⟩
      · rw [hq, List.length_append]
        omega
      · rw [show ae.queue.drop q.2.1.length = q.1 by rw [hq, List.drop_left]]
      · -- what both parts kill comes before what both leave
        change (ae.queue ++ queued rest).Perm ((q.2.1 ++ r.2.1) ++ (q.1 ++ queued r.1))
        rw [hq, List.append_assoc, List.append_assoc]
        refine List.Perm.append_left q.2.1 ?_
        refine (List.Perm.append_left q.1 hperm).trans ?_
        rw [← List.append_assoc, ← List.append_assoc]
        exact List.Perm.append_right _ List.perm_append_comm
      · rw [hcount', List.length_append, hcount]
        omega
      · rw [List.length_append]
        omega
      · intro hroom
        apply hfit'
        change n ≤ (ae.queue ++ queued rest).length+capacity at hroom
        rw [hq, List.length_append, List.length_append] at hroom
        rcases hfit with hnil | hfit
        · rw [hnil, List.length_nil] at hroom
          omega
        · omega
    · rw [if_neg hn]
      exact ⟨forall₂_trimmed_refl _, List.Perm.refl _, rfl, Nat.zero_le _,
        fun _ => Nat.le_of_not_lt hn⟩

theorem slimCapacity_le (c : ARPConfig) (h : c.packetCapacity ≠ 0) :
    1 ≤ slimCapacity c ∧ slimCapacity c ≤ c.packetCapacity :=
  ⟨Nat.le_max_left _ _, Nat.max_le.mpr ⟨Nat.pos_of_ne_zero h, Nat.sub_le _ _⟩⟩

/-- The counters, ahead of the lists by an entry or a packet that is about to be added. -/
structure Counted (t : ARPTable) (e b : ℕ) : Prop where
  entries : t.entryCount = t.age.length+e
  packets : t.packetCount = (queued t.age).length+b

/-- What `slim` leaves: the end of the list, in which entries may have lost packets. Its second
loop does not run off the list, since the count exceeds what waits by one at most. -/
theorem slim_spec (c : ARPConfig) (now : UInt32) (t : ARPTable) (e b : ℕ) (h : Counted t e b)
    (hb : b ≤ 1) :
    let r := slim c now t
    ∃ pre post, t.age = pre ++ post ∧ List.Forall₂ Trimmed r.1.age post ∧
      (queued t.age).Perm (r.2 ++ queued r.1.age) ∧ Counted r.1 e b ∧ r.1.drops = t.drops+UInt32.ofNat r.2.length ∧
      (c.packetCapacity ≠ 0 → r.1.packetCount ≤ c.packetCapacity) ∧
      (c.entryCapacity ≠ 0 → e ≤ c.entryCapacity → r.1.entryCount ≤ c.entryCapacity) ∧
      (∀ ae ∈ pre, ae.expired now c.timeout = true ∨
        (c.entryCapacity ≠ 0 ∧ c.entryCapacity < t.entryCount)) := by
  obtain ⟨pre, hl, hk, he, hp, hd, hpre, hfit⟩ := slimEntries_spec c now t.age t
  unfold slim
  dsimp only
  generalize slimEntries c now t.age t = r at *
  have hent := h.entries
  have hpac := h.packets
  have hsplit : queued t.age = queued pre ++ queued r.1.age := by
    rw [hl]
    exact List.flatMap_append
  have hlen : t.age.length = pre.length+r.1.age.length := by
    rw [hl, List.length_append]
  have hqlen : (queued t.age).length = (queued pre).length+(queued r.1.age).length := by
    rw [hsplit, List.length_append]
  have hentry : c.entryCapacity ≠ 0 → e ≤ c.entryCapacity → r.1.entryCount ≤ c.entryCapacity := by
    intro h0 hle
    rcases hfit with hnil | hzero | hfit
    · rw [hnil, List.length_nil] at hlen
      omega
    · exact absurd hzero h0
    · exact hfit
  rw [hk] at hp hd
  by_cases hover : c.packetCapacity ≠ 0 ∧ c.packetCapacity < r.1.packetCount
  · rw [if_pos hover]
    obtain ⟨hcap1, hcap⟩ := slimCapacity_le c hover.1
    obtain ⟨htrim, hperm, hcount, hle, hdone⟩ :=
      slimPackets_spec (slimCapacity c) r.1.age r.1.packetCount
    generalize slimPackets (slimCapacity c) r.1.age r.1.packetCount = s at *
    have hplen := hperm.length_eq
    rw [List.length_append] at hplen
    refine ⟨pre, r.1.age, hl, htrim, ?_, ⟨?_, ?_⟩, ?_, ?_, hentry, hpre⟩
    · rw [hsplit, hk, List.append_assoc]
      exact List.Perm.append_left _ hperm
    · change r.1.entryCount = s.1.length+e
      rw [htrim.length_eq]
      omega
    · change s.2.2 = (queued s.1).length+b
      omega
    · change r.1.drops+UInt32.ofNat s.2.1.length = t.drops+UInt32.ofNat (r.2 ++ s.2.1).length
      rw [hk, hd, List.length_append, UInt32.ofNat_add, UInt32.add_assoc]
    · intro _
      have hfin := hdone (by omega)
      change s.2.2 ≤ c.packetCapacity
      omega
  · rw [if_neg hover]
    refine ⟨pre, r.1.age, hl, forall₂_trimmed_refl _, ?_, ⟨by omega, by omega⟩, ?_, ?_, hentry, hpre⟩
    · rw [hsplit, hk]
    · rw [hk, hd]
    · intro h0
      exact Nat.le_of_not_lt (fun hlt => hover ⟨h0, hlt⟩)

/-- Entries for different addresses, each of them in order. -/
structure Core (l : List ARPEntry) : Prop where
  nodup : (l.map ARPEntry.ip).Nodup
  sound : ∀ ae ∈ l, Sound ae

/-- The table between two operations. -/
structure Inv (c : ARPConfig) (t : ARPTable) : Prop where
  core : Core t.age
  counted : Counted t 0 0
  packetLimit : c.packetCapacity ≠ 0 → t.packetCount ≤ c.packetCapacity
  entryLimit : c.entryCapacity ≠ 0 → t.entryCount ≤ c.entryCapacity

theorem core_nil : Core [] := ⟨List.nodup_nil, fun _ hae => absurd hae List.not_mem_nil⟩

theorem inv_empty (c : ARPConfig) : Inv c empty :=
  ⟨core_nil, ⟨rfl, rfl⟩, fun _ => Nat.zero_le _, fun _ => Nat.zero_le _⟩

theorem Core.trimmed {pre post l l' : List ARPEntry} (h : Core l) (heq : l = pre ++ post)
    (htrim : List.Forall₂ Trimmed l' post) : Core l' where
  nodup := by
    have hn := h.nodup
    rw [heq, List.map_append, List.nodup_append] at hn
    rw [map_ip_of_trimmed htrim]
    exact hn.2.1
  sound := by
    intro ae' hae'
    obtain ⟨ae, hae, ht⟩ := mem_of_trimmed htrim hae'
    exact ht.sound (h.sound ae (by rw [heq]; exact List.mem_append_right pre hae))

theorem Core.concat {l : List ARPEntry} (h : Core l) (ae : ARPEntry) (hs : Sound ae)
    (hnew : ∀ x ∈ l, x.ip ≠ ae.ip) : Core (l ++ [ae]) where
  nodup := by
    rw [List.map_append, List.nodup_append]
    refine ⟨h.nodup, List.nodup_singleton _, ?_⟩
    intro a ha b hb
    obtain ⟨x, hx, rfl⟩ := List.mem_map.mp ha
    rw [List.map_singleton, List.mem_singleton] at hb
    rw [hb]
    exact hnew x hx
  sound := by
    intro x hx
    rcases List.mem_append.mp hx with hx | hx
    · exact h.sound x hx
    · rw [List.mem_singleton.mp hx]
      exact hs

theorem queued_append (pre post : List ARPEntry) : queued (pre ++ post) = queued pre ++ queued post :=
  List.flatMap_append

theorem queued_cons (ae : ARPEntry) (l : List ARPEntry) : queued (ae :: l) = ae.queue ++ queued l :=
  List.flatMap_cons

theorem queued_perm {l l' : List ARPEntry} (h : l.Perm l') : (queued l).Perm (queued l') :=
  h.flatMap_right ARPEntry.queue

/-- The entry of an address and the entries around it. -/
structure Split (t : ARPTable) (ip : IPAddress) (pre : List ARPEntry) (ae : ARPEntry)
    (post : List ARPEntry) : Prop where
  eq : t.age = pre ++ ae :: post
  here : ae.ip = ip
  before : ∀ x ∈ pre, x.ip ≠ ip
  behind : ∀ x ∈ post, x.ip ≠ ip

variable {c : ARPConfig} {now : UInt32} {t : ARPTable} {ip : IPAddress} {ae : ARPEntry}
  {pre post : List ARPEntry}

theorem split_of_find (hn : (t.age.map ARPEntry.ip).Nodup) (h : t.find ip = some ae) :
    ∃ pre post, Split t ip pre ae post := by
  obtain ⟨hae, pre, post, heq, hpre⟩ := List.find?_eq_some_iff_append.mp h
  have hip : ae.ip = ip := by simpa using hae
  refine ⟨pre, post, heq, hip, ?_, ?_⟩
  · intro x hx
    simpa using hpre x hx
  · intro x hx hxip
    rw [heq, List.map_append, List.map_cons, List.nodup_append, List.nodup_cons] at hn
    apply hn.2.1.1
    rw [hip, ← hxip]
    exact List.mem_map_of_mem hx

theorem find_eq_none_iff : t.find ip = none ↔ ∀ x ∈ t.age, x.ip ≠ ip := by
  unfold find
  rw [List.find?_eq_none]
  simp

namespace Split

theorem find (h : Split t ip pre ae post) : t.find ip = some ae := by
  unfold ARPTable.find
  rw [List.find?_eq_some_iff_append]
  refine ⟨by simp [h.here], pre, post, h.eq, ?_⟩
  intro x hx
  simpa using h.before x hx

theorem mem (h : Split t ip pre ae post) : ae ∈ t.age := by
  rw [h.eq]
  exact List.mem_append_right pre List.mem_cons_self

theorem map_other (h : ∀ x ∈ pre, x.ip ≠ ip) (f : ARPEntry → ARPEntry) :
    pre.map (fun x => if x.ip = ip then f x else x) = pre := by
  conv_rhs => rw [← List.map_id pre]
  apply List.map_congr_left
  intro x hx
  rw [if_neg (h x hx)]
  rfl

theorem modify_age (h : Split t ip pre ae post) (f : ARPEntry → ARPEntry) :
    (t.modify ip f).age = pre ++ f ae :: post := by
  unfold modify
  rw [h.eq, List.map_append, List.map_cons, map_other h.before, map_other h.behind, if_pos h.here]

theorem moveBack_age (h : Split t ip pre ae post) : (t.moveBack ip).age = (pre ++ post) ++ [ae] := by
  have hkeep {l : List ARPEntry} (hl : ∀ x ∈ l, x.ip ≠ ip) :
      l.filter (fun x => x.ip ≠ ip) = l ∧ l.filter (fun x => x.ip = ip) = [] := by
    constructor
    · rw [List.filter_eq_self]
      intro x hx
      simpa using hl x hx
    · rw [List.filter_eq_nil_iff]
      intro x hx
      simpa using hl x hx
  unfold moveBack
  rw [h.eq]
  change List.filter _ (pre ++ ae :: post) ++ List.filter _ (pre ++ ae :: post) = _
  rw [List.filter_append, List.filter_append, (hkeep h.before).1, (hkeep h.before).2,
    List.filter_cons_of_neg (by simp [h.here]), List.filter_cons_of_pos (by simp [h.here]),
    (hkeep h.behind).1, (hkeep h.behind).2, List.nil_append]

end Split

/-- The entry of an address is replaced, and may change its place. -/
theorem Core.replace {l : List ARPEntry} (h : Core t.age) (hs : Split t ip pre ae post) (ae' : ARPEntry)
    (hip : ae'.ip = ip) (hsound : Sound ae') (hperm : l.Perm (pre ++ ae' :: post)) : Core l where
  nodup := by
    have hn := h.nodup
    rw [hs.eq, List.map_append, List.map_cons, hs.here] at hn
    rw [(hperm.map ARPEntry.ip).nodup_iff, List.map_append, List.map_cons, hip]
    exact hn
  sound := by
    intro x hx
    rcases List.mem_append.mp (hperm.mem_iff.mp hx) with hx | hx
    · exact h.sound x (by rw [hs.eq]; exact List.mem_append_left _ hx)
    · rcases List.mem_cons.mp hx with rfl | hx
      · exact hsound
      · exact h.sound x (by rw [hs.eq]; exact List.mem_append_right _ (List.mem_cons_of_mem _ hx))

/-- What an operation keeps of the entries: it may make new ones, trim queues, and prolong the
life of one entry, but it does not touch an address that has been heard. -/
structure Descends (c : ARPConfig) (now : UInt32) (prolonged : Option IPAddress) (ae' ae : ARPEntry) :
    Prop where
  ip_eq : ae'.ip = ae.ip
  eth_eq : ae'.eth = ae.eth
  known_eq : ae'.isKnown = ae.isKnown
  live : ae'.liveAt = ae.liveAt ∨
    (prolonged = some ae'.ip ∧ c.timeout ≠ 0 ∧ ae'.liveAt = now-c.timeout)

section Descent

variable {who : Option IPAddress}

theorem Descends.refl (c : ARPConfig) (now : UInt32) (who : Option IPAddress) (ae : ARPEntry) :
    Descends c now who ae ae := ⟨rfl, rfl, rfl, Or.inl rfl⟩

theorem Trimmed.descends {ae' ae : ARPEntry} (h : Trimmed ae' ae) (c : ARPConfig) (now : UInt32)
    (who : Option IPAddress) : Descends c now who ae' ae := by
  obtain ⟨n, -, rfl⟩ := h
  exact ⟨rfl, rfl, rfl, Or.inl rfl⟩

theorem Descends.trans {a b d : ARPEntry} (h : Descends c now who a b) (h' : Descends c now who b d) :
    Descends c now who a d where
  ip_eq := h.ip_eq.trans h'.ip_eq
  eth_eq := h.eth_eq.trans h'.eth_eq
  known_eq := h.known_eq.trans h'.known_eq
  live := by
    rcases h.live with hl | hl
    · rcases h'.live with hl' | ⟨hi, h0, hl'⟩
      · exact Or.inl (hl.trans hl')
      · exact Or.inr ⟨by rw [hi, h.ip_eq], h0, hl.trans hl'⟩
    · exact Or.inr hl

/-- The entries of `l'` are those of `l`, or new and without an address. -/
def From (c : ARPConfig) (now : UInt32) (who : Option IPAddress) (l' l : List ARPEntry) : Prop :=
  ∀ ae' ∈ l', ae'.isKnown = false ∨ ∃ ae ∈ l, Descends c now who ae' ae

theorem From.refl (c : ARPConfig) (now : UInt32) (who : Option IPAddress) (l : List ARPEntry) :
    From c now who l l := fun ae hae => Or.inr ⟨ae, hae, Descends.refl c now who ae⟩

theorem From.trans {l l' l'' : List ARPEntry} (h : From c now who l'' l') (h' : From c now who l' l) :
    From c now who l'' l := by
  intro ae'' hae''
  rcases h ae'' hae'' with hk | ⟨ae', hae', hd⟩
  · exact Or.inl hk
  · rcases h' ae' hae' with hk | ⟨ae, hae, hd'⟩
    · exact Or.inl (by rw [hd.known_eq]; exact hk)
    · exact Or.inr ⟨ae, hae, hd.trans hd'⟩

theorem From.mono {l l' : List ARPEntry} (h : From c now none l' l) : From c now who l' l := by
  intro ae' hae'
  rcases h ae' hae' with hk | ⟨ae, hae, hd⟩
  · exact Or.inl hk
  · refine Or.inr ⟨ae, hae, hd.ip_eq, hd.eth_eq, hd.known_eq, Or.inl ?_⟩
    rcases hd.live with hl | ⟨hnone, -⟩
    · exact hl
    · cases hnone

theorem from_of_trimmed {l l' pre post : List ARPEntry} (heq : l = pre ++ post)
    (h : List.Forall₂ Trimmed l' post) : From c now who l' l := by
  intro ae' hae'
  obtain ⟨ae, hae, ht⟩ := mem_of_trimmed h hae'
  exact Or.inr ⟨ae, by rw [heq]; exact List.mem_append_right pre hae, ht.descends c now who⟩

/-- One entry is replaced, the others stay. -/
theorem Split.from_replaced {l : List ARPEntry} {ae' : ARPEntry} (hs : Split t ip pre ae post)
    (hd : Descends c now who ae' ae) (hperm : l.Perm (pre ++ ae' :: post)) : From c now who l t.age := by
  intro x hx
  rw [hs.eq]
  rcases List.mem_append.mp (hperm.mem_iff.mp hx) with hx | hx
  · exact Or.inr ⟨x, List.mem_append_left _ hx, Descends.refl c now who x⟩
  · rcases List.mem_cons.mp hx with rfl | hx
    · exact Or.inr ⟨ae, List.mem_append_right _ List.mem_cons_self, hd⟩
    · exact Or.inr ⟨x, List.mem_append_right _ (List.mem_cons_of_mem _ hx), Descends.refl c now who x⟩

end Descent

/-- An entry for the address is there afterwards, whatever had to go for it. -/
theorem Inv.ensure_spec (h : Inv c t) (now : UInt32) (ip : IPAddress) :
    let r := ensure c now t ip
    Inv c r.1 ∧ (queued t.age).Perm (r.2 ++ queued r.1.age) ∧ r.1.drops = t.drops+UInt32.ofNat r.2.length ∧
      (∃ ae, r.1.find ip = some ae ∧ (t.find ip = some ae ∨ ae = ARPEntry.new ip now)) ∧
      From c now none r.1.age t.age := by
  unfold ensure
  cases hf : t.find ip with
  | some ae =>
    exact ⟨h, List.Perm.refl _, (UInt32.add_zero _).symm, ⟨ae, hf, Or.inl rfl⟩, From.refl c now none _⟩
  | none =>
    dsimp only
    have hnew := find_eq_none_iff.mp hf
    have hent := h.counted.entries
    -- what is left once there is room, with the new entry already counted
    have hroom : ∃ l killed, ∃ n : ARPTable,
        (if c.entryCapacity ≠ 0 ∧ c.entryCapacity < t.entryCount+1 then
          slim c now { t with entryCount := t.entryCount+1 }
          else ({ t with entryCount := t.entryCount+1 }, [])) = (n, killed) ∧ n.age = l ∧
        Core l ∧ (∀ x ∈ l, x.ip ≠ ip) ∧ (queued t.age).Perm (killed ++ queued l) ∧ Counted n 1 0 ∧
        n.drops = t.drops+UInt32.ofNat killed.length ∧ (c.packetCapacity ≠ 0 → n.packetCount ≤ c.packetCapacity) ∧
        (c.entryCapacity ≠ 0 → n.entryCount ≤ c.entryCapacity) ∧ From c now none l t.age := by
      split_ifs with hover
      · obtain ⟨pre, post, heq, htrim, hperm, hcount, hdrops, hpac, hcap, -⟩ :=
          slim_spec c now { t with entryCount := t.entryCount+1 } 1 0
            ⟨by change t.entryCount+1 = t.age.length+1; omega, h.counted.packets⟩ (by decide)
        change t.age = pre ++ post at heq
        refine ⟨_, _, _, rfl, rfl, h.core.trimmed heq htrim, ?_, hperm, hcount, hdrops, hpac,
          fun h0 => hcap h0 (Nat.pos_of_ne_zero h0), from_of_trimmed heq htrim⟩
        intro x hx
        obtain ⟨ae, hae, ht⟩ := mem_of_trimmed htrim hx
        rw [ht.ip]
        exact hnew ae (by rw [heq]; exact List.mem_append_right _ hae)
      · refine ⟨t.age, [], _, rfl, rfl, h.core, hnew, List.Perm.refl _, ⟨?_, h.counted.packets⟩,
          (UInt32.add_zero _).symm, h.packetLimit, ?_, From.refl c now none _⟩
        · change t.entryCount+1 = t.age.length+1
          omega
        · intro h0
          exact Nat.le_of_not_lt (fun hlt => hover ⟨h0, hlt⟩)
    obtain ⟨l, killed, n, heq, hage, hcore, hother, hperm, hcount, hdrops, hpac, hcap, hfrom⟩ := hroom
    rw [heq]
    dsimp only
    subst hage
    have hsound : Sound (ARPEntry.new ip now) :=
      ⟨rfl, fun p hp => absurd hp List.not_mem_nil, fun hk => absurd hk Bool.false_ne_true⟩
    have hqueue : queued (n.age ++ [ARPEntry.new ip now]) = queued n.age := by
      rw [queued_append]
      exact List.append_nil _
    refine ⟨⟨hcore.concat _ hsound hother, ⟨?_, ?_⟩, hpac, hcap⟩, ?_, hdrops, ?_, ?_⟩
    · change n.entryCount = (n.age ++ [ARPEntry.new ip now]).length+0
      rw [List.length_append, hcount.entries]
      rfl
    · change n.packetCount = (queued (n.age ++ [ARPEntry.new ip now])).length+0
      rw [hqueue, hcount.packets]
    · rw [hqueue]
      exact hperm
    · have hsplit : Split { n with age := n.age ++ [ARPEntry.new ip now] } ip n.age
          (ARPEntry.new ip now) [] :=
        ⟨rfl, rfl, hother, fun x hx => absurd hx List.not_mem_nil⟩
      exact ⟨_, hsplit.find, Or.inr rfl⟩
    · intro x hx
      rcases List.mem_append.mp hx with hx | hx
      · exact hfrom x hx
      · rw [List.mem_singleton.mp hx]
        exact Or.inl rfl

theorem Counted.replaced {t' : ARPTable} {ae' : ARPEntry} {e b b' : ℕ} (h : Counted t e b)
    (hs : Split t ip pre ae post) (hperm : t'.age.Perm (pre ++ ae' :: post))
    (he : t'.entryCount = t.entryCount)
    (hp : t'.packetCount+ae.queue.length+b = t.packetCount+ae'.queue.length+b') : Counted t' e b' where
  entries := by
    have hl := h.entries
    rw [hs.eq, List.length_append, List.length_cons] at hl
    rw [hperm.length_eq, List.length_append, List.length_cons, he, hl]
  packets := by
    have hl := h.packets
    rw [hs.eq, queued_append, queued_cons, List.length_append, List.length_append] at hl
    rw [(queued_perm hperm).length_eq, queued_append, queued_cons, List.length_append, List.length_append]
    omega

/-- The entry of an address changes, but not how many packets wait. -/
theorem Inv.replaced {t' : ARPTable} {ae' : ARPEntry} (h : Inv c t) (hs : Split t ip pre ae post)
    (hip : ae'.ip = ip) (hsound : Sound ae') (hperm : t'.age.Perm (pre ++ ae' :: post))
    (he : t'.entryCount = t.entryCount)
    (hp : t'.packetCount+ae.queue.length = t.packetCount+ae'.queue.length)
    (hle : t'.packetCount ≤ t.packetCount) : Inv c t' where
  core := h.core.replace hs ae' hip hsound hperm
  counted := h.counted.replaced hs hperm he hp
  packetLimit := fun h0 => Nat.le_trans hle (h.packetLimit h0)
  entryLimit := by
    rw [he]
    exact h.entryLimit

theorem queued_split (hs : Split t ip pre ae post) :
    (queued t.age).Perm (ae.queue ++ queued (pre ++ post)) := by
  rw [hs.eq, queued_append, queued_cons, queued_append, ← List.append_assoc, ← List.append_assoc]
  exact List.Perm.append_right _ List.perm_append_comm

theorem queued_replaced {l : List ARPEntry} {ae' : ARPEntry} (hperm : l.Perm (pre ++ ae' :: post)) :
    (queued l).Perm (ae'.queue ++ queued (pre ++ post)) := by
  refine (queued_perm hperm).trans ?_
  rw [queued_append, queued_cons, queued_append, ← List.append_assoc, ← List.append_assoc]
  exact List.Perm.append_right _ List.perm_append_comm

/-- An address is heard: its entry has it from now on, and the packets still wait. -/
theorem Inv.insert_spec (h : Inv c t) (now : UInt32) (ip : IPAddress) (eth : EtherAddress) :
    let r := insert c now t ip eth
    Inv c r.1 ∧ (queued t.age).Perm (r.2 ++ queued r.1.age) ∧ r.1.drops = t.drops+UInt32.ofNat r.2.length ∧
      (∃ ae, r.1.find ip = some (learn eth now ae)) ∧
      ∀ ae' ∈ r.1.age, ae'.ip ≠ ip → ae'.isKnown = false ∨ ∃ ae ∈ t.age, Descends c now none ae' ae := by
  obtain ⟨hinv, hperm, hdrops, ⟨ae, hf, -⟩, hfrom⟩ := h.ensure_spec now ip
  obtain ⟨pre, post, hs⟩ := split_of_find hinv.core.nodup hf
  unfold insert
  dsimp only
  generalize ensure c now t ip = r at *
  have hs' : Split (r.1.modify ip (learn eth now)) ip pre (learn eth now ae) post :=
    ⟨hs.modify_age _, hs.here, hs.before, hs.behind⟩
  have hage := hs'.moveBack_age
  have hback : ((pre ++ post) ++ [learn eth now ae]).Perm (pre ++ learn eth now ae :: post) := by
    rw [List.append_assoc]
    exact List.Perm.append_left pre List.perm_append_comm
  have hsound := hinv.core.sound ae hs.mem
  have hlearn : Sound (learn eth now ae) := by
    refine ⟨hsound.count, hsound.addressed, ?_⟩
    intro hk
    exact (Bool.not_eq_true' _).mp hk
  refine ⟨?_, ?_, hdrops, ⟨ae, ?_⟩, ?_⟩
  · exact hinv.replaced hs (show (learn eth now ae).ip = ip from hs.here) hlearn (hage ▸ hback) rfl rfl
      (Nat.le_refl _)
  · refine hperm.trans (List.Perm.append_left _ ?_)
    rw [hage]
    exact (queued_split hs).trans (queued_replaced hback).symm
  · have hfinal : Split ((r.1.modify ip (learn eth now)).moveBack ip) ip (pre ++ post)
        (learn eth now ae) [] := by
      refine ⟨hage, hs.here, ?_, fun x hx => absurd hx List.not_mem_nil⟩
      intro x hx
      exact (List.mem_append.mp hx).elim (hs.before x) (hs.behind x)
    exact hfinal.find
  · intro ae' hae' hne
    rw [hage] at hae'
    apply hfrom
    rw [hs.eq]
    rcases List.mem_append.mp hae' with hmem | hmem
    · rcases List.mem_append.mp hmem with hmem | hmem
      · exact List.mem_append_left _ hmem
      · exact List.mem_append_right _ (List.mem_cons_of_mem _ hmem)
    · rw [List.mem_singleton.mp hmem] at hne
      exact absurd hs.here hne

/-- The packets that wait for an address are handed out, and no others. -/
theorem Inv.takeQueue_spec (h : Inv c t) (hf : t.find ip = some ae) :
    let r := takeQueue t ip
    Inv c r.1 ∧ r.2 = ae.queue ∧ (queued t.age).Perm (r.2 ++ queued r.1.age) ∧ r.1.drops = t.drops ∧
      r.1.find ip = some (emptied ae) ∧ ∀ ae' ∈ r.1.age, ∃ x ∈ t.age, ae' = x ∨ ae' = emptied x := by
  obtain ⟨pre, post, hs⟩ := split_of_find h.core.nodup hf
  have hsound := h.core.sound ae hs.mem
  have hage := hs.modify_age emptied
  have hlen := h.counted.packets
  rw [(queued_split hs).length_eq, List.length_append] at hlen
  unfold takeQueue
  rw [hf]
  dsimp only
  have hempty : Sound (emptied ae) :=
    ⟨rfl, fun p hp => absurd hp List.not_mem_nil, hsound.unicast⟩
  refine ⟨?_, rfl, ?_, rfl, ?_, ?_⟩
  · refine h.replaced hs (show (emptied ae).ip = ip from hs.here) hempty ?_ rfl ?_ ?_
    · exact List.Perm.of_eq hage
    · change t.packetCount-ae.entryPacketCount+ae.queue.length = t.packetCount+0
      rw [hsound.count]
      omega
    · exact Nat.sub_le _ _
  · refine (queued_split hs).trans (List.Perm.append_left _ ?_)
    exact (queued_replaced (List.Perm.of_eq hage)).symm
  · have hfinal : Split { t.modify ip emptied with packetCount := t.packetCount-ae.entryPacketCount } ip
        pre (emptied ae) post := ⟨hage, hs.here, hs.before, hs.behind⟩
    exact hfinal.find
  · intro ae' hae'
    change ae' ∈ (t.modify ip emptied).age at hae'
    rw [hage] at hae'
    rw [hs.eq]
    rcases List.mem_append.mp hae' with hmem | hmem
    · exact ⟨ae', List.mem_append_left _ hmem, Or.inl rfl⟩
    · rcases List.mem_cons.mp hmem with rfl | hmem
      · exact ⟨ae, List.mem_append_right _ List.mem_cons_self, Or.inr rfl⟩
      · exact ⟨ae', List.mem_append_right _ (List.mem_cons_of_mem _ hmem), Or.inl rfl⟩

theorem jiffiesLess_add (a timeout now : UInt32) :
    jiffiesLess (a+timeout) now = jiffiesLess a (now-timeout) := by
  unfold jiffiesLess
  rw [show a+timeout-now = a-(now-timeout) by grind]

/-- An entry that is waiting does not expire under the hands of `append_query`. -/
theorem Inv.keepAlive_spec (h : Inv c t) (now : UInt32) (hf : t.find ip = some ae) :
    let t' := keepAlive c now t ip
    Inv c t' ∧ (queued t.age).Perm (queued t'.age) ∧ t'.drops = t.drops ∧
      t'.packetCount = t.packetCount ∧ t'.entryCount = t.entryCount ∧
      (∃ live, t'.find ip = some { ae with liveAt := live } ∧
        ({ ae with liveAt := live } : ARPEntry).expired now c.timeout = false) ∧
      From c now (some ip) t'.age t.age := by
  obtain ⟨pre, post, hs⟩ := split_of_find h.core.nodup hf
  unfold keepAlive
  rw [hf]
  dsimp only
  by_cases hlate : c.timeout ≠ 0 ∧ jiffiesLess ae.liveAt (now-c.timeout)
  · rw [if_pos hlate]
    -- the list around the entry is what the two loops of the source walk over
    have hpre : t.age.takeWhile (fun x => x.ip ≠ ip) = pre := by
      rw [hs.eq, List.takeWhile_append_of_pos (by simpa using hs.before),
        List.takeWhile_cons_of_neg (by simp [hs.here]), List.append_nil]
    have hpost : (t.age.dropWhile (fun x => x.ip ≠ ip)).tail = post := by
      rw [hs.eq, List.dropWhile_append_of_pos (by simpa using hs.before),
        List.dropWhile_cons_of_neg (by simp [hs.here])]
      rfl
    rw [hpre, hpost]
    let ae' : ARPEntry := { ae with liveAt := now-c.timeout }
    let young := post.dropWhile (fun x => jiffiesLess x.liveAt (now-c.timeout))
    let old := post.takeWhile (fun x => jiffiesLess x.liveAt (now-c.timeout))
    have hcut : old ++ young = post := List.takeWhile_append_dropWhile
    have hperm : (pre ++ (old ++ ae' :: young)).Perm (pre ++ ae' :: post) := by
      refine List.Perm.append_left pre (List.perm_middle.trans ?_)
      rw [hcut]
    have hsound := h.core.sound ae hs.mem
    have hsound' : Sound ae' := ⟨hsound.count, hsound.addressed, hsound.unicast⟩
    have hinv : Inv c { t with age := pre ++ (old ++ ae' :: young) } :=
      h.replaced hs (show ae'.ip = ip from hs.here) hsound' hperm rfl rfl (Nat.le_refl _)
    have hsplit : Split { t with age := pre ++ (old ++ ae' :: young) } ip (pre ++ old) ae' young := by
      refine ⟨(List.append_assoc _ _ _).symm, hs.here, ?_, ?_⟩
      · intro x hx
        rcases List.mem_append.mp hx with hx | hx
        · exact hs.before x hx
        · exact hs.behind x (List.IsPrefix.subset ( List.takeWhile_prefix _) hx)
      · intro x hx
        exact hs.behind x ((List.dropWhile_suffix _).subset hx)
    refine ⟨hinv, ?_, rfl, rfl, rfl, ⟨_, hsplit.find, ?_⟩, ?_⟩
    · exact (queued_split hs).trans (queued_replaced hperm).symm
    · change (jiffiesLess (now-c.timeout+c.timeout) now && c.timeout != 0) = false
      rw [UInt32.sub_add_cancel]
      unfold jiffiesLess
      rw [UInt32.sub_self]
      rfl
    · have hd : Descends c now (some ip) ae' ae :=
        ⟨rfl, rfl, rfl, Or.inr ⟨congrArg some hs.here.symm, hlate.1, rfl⟩⟩
      exact hs.from_replaced hd hperm
  · rw [if_neg hlate]
    refine ⟨h, List.Perm.refl _, rfl, rfl, rfl, ⟨ae.liveAt, hf, ?_⟩,
      From.refl c now (some ip) _⟩
    change (jiffiesLess (ae.liveAt+c.timeout) now && c.timeout != 0) = false
    rw [jiffiesLess_add]
    cases hless : jiffiesLess ae.liveAt (now-c.timeout) with
    | false => rfl
    | true =>
      have h0 : c.timeout = 0 := by
        by_contra hne
        exact hlate ⟨hne, hless⟩
      rw [h0]
      rfl

theorem enqueue_fields (p : Packet) (poll : Bool) (now : UInt32) (ae : ARPEntry) :
    (enqueue p poll now ae).queue = ae.queue ++ [p] ∧
      (enqueue p poll now ae).entryPacketCount = ae.entryPacketCount+1 ∧
      (enqueue p poll now ae).ip = ae.ip ∧ (enqueue p poll now ae).eth = ae.eth ∧
      (enqueue p poll now ae).isKnown = ae.isKnown ∧ (enqueue p poll now ae).liveAt = ae.liveAt := by
  unfold enqueue
  cases poll with
  | false => exact ⟨rfl, rfl, rfl, rfl, rfl, rfl⟩
  | true => exact ⟨rfl, rfl, rfl, rfl, rfl, rfl⟩

/-- Room is made for a packet that has been counted, and the entry that waits is still there. -/
theorem Inv.room_spec (h : Inv c t) (now : UInt32) (hf : t.find ip = some ae)
    (halive : ae.expired now c.timeout = false) :
    let n := { t with packetCount := t.packetCount+1 }
    let s := if c.packetCapacity ≠ 0 ∧ c.packetCapacity < n.packetCount then slim c now n else (n, [])
    Core s.1.age ∧ Counted s.1 0 1 ∧ (queued t.age).Perm (s.2 ++ queued s.1.age) ∧
      s.1.drops = t.drops+UInt32.ofNat s.2.length ∧ (c.packetCapacity ≠ 0 → s.1.packetCount ≤ c.packetCapacity) ∧
      (c.entryCapacity ≠ 0 → s.1.entryCount ≤ c.entryCapacity) ∧
      (∃ ae', s.1.find ip = some ae' ∧ Trimmed ae' ae) ∧ From c now none s.1.age t.age := by
  intro n s
  have hcount : Counted n 0 1 := ⟨h.counted.entries, congrArg (·+1) h.counted.packets⟩
  by_cases hover : c.packetCapacity ≠ 0 ∧ c.packetCapacity < n.packetCount
  · have hs : s = slim c now n := if_pos hover
    rw [hs]
    obtain ⟨pre, post, heq, htrim, hperm, hcounted, hdrops, hpac, hcap, hgone⟩ :=
      slim_spec c now n 0 1 hcount (Nat.le_refl 1)
    change t.age = pre ++ post at heq
    refine ⟨h.core.trimmed heq htrim, hcounted, hperm, hdrops, hpac,
      fun h0 => hcap h0 (Nat.zero_le _), ?_, from_of_trimmed heq htrim⟩
    -- the entry is not among those that went
    obtain ⟨pre₁, post₁, hsplit⟩ := split_of_find h.core.nodup hf
    have hmem : ae ∈ post := by
      have hin := hsplit.mem
      rw [heq] at hin
      rcases List.mem_append.mp hin with hin | hin
      · rcases hgone ae hin with hexp | ⟨h0, hlt⟩
        · rw [halive] at hexp
          cases hexp
        · exact absurd (h.entryLimit h0) (Nat.not_le.mpr hlt)
      · exact hin
    have hips := map_ip_of_trimmed htrim
    cases hfind : (slim c now n).1.find ip with
    | none =>
      have hnot := find_eq_none_iff.mp hfind
      have hipmem : ip ∈ (slim c now n).1.age.map ARPEntry.ip := by
        rw [hips, ← hsplit.here]
        exact List.mem_map_of_mem hmem
      obtain ⟨x, hx, hxip⟩ := List.mem_map.mp hipmem
      exact absurd hxip (hnot x hx)
    | some ae' =>
      refine ⟨ae', rfl, ?_⟩
      have hae' := List.mem_of_find?_eq_some hfind
      have hip' : ae'.ip = ip := by simpa using List.find?_some hfind
      obtain ⟨x, hx, ht⟩ := mem_of_trimmed htrim hae'
      -- the address is that of one entry only
      have hxae : x = ae := by
        have hn := h.core.nodup
        apply List.inj_on_of_nodup_map hn
        · rw [heq]
          exact List.mem_append_right _ hx
        · exact hsplit.mem
        · rw [← ht.ip, hip', hsplit.here]
      rw [← hxae]
      exact ht
  · have hs : s = (n, []) := if_neg hover
    rw [hs]
    refine ⟨h.core, hcount, List.Perm.refl _, (UInt32.add_zero _).symm, ?_, h.entryLimit, ⟨ae, hf, Trimmed.refl ae⟩,
      From.refl c now none _⟩
    intro h0
    exact Nat.le_of_not_lt (fun hlt => hover ⟨h0, hlt⟩)

/-- What `append_query` does with its packet: it is in the queue, or it is not and nothing else
has happened to the packets than what the drops count. -/
theorem Inv.appendQuery_spec (h : Inv c t) (now : UInt32) (ip : IPAddress) (p : Packet)
    (hp : p.dstIpAnno = ip) :
    let r := appendQuery c now t ip p
    Inv c r.1 ∧ From c now (some ip) r.1.age t.age ∧
      match r.2.2 with
      | .queued _ => (queued t.age ++ [p]).Perm (r.2.1 ++ queued r.1.age) ∧
          r.1.drops = t.drops+UInt32.ofNat r.2.1.length
      | .full => (queued t.age).Perm (r.2.1 ++ queued r.1.age) ∧ r.1.drops = t.drops+UInt32.ofNat r.2.1.length+1
      | .again => (queued t.age).Perm (r.2.1 ++ queued r.1.age) ∧ r.1.drops = t.drops+UInt32.ofNat r.2.1.length := by
  obtain ⟨hinv, hperm, hdrops, ⟨ae, hf, -⟩, hfrom⟩ := h.ensure_spec now ip
  unfold appendQuery
  dsimp only
  generalize ensure c now t ip = r at *
  rw [hf]
  dsimp only
  by_cases hknown : ae.known now c.timeout = true
  · rw [if_pos hknown]
    exact ⟨hinv, hfrom.mono, hperm, hdrops⟩
  rw [if_neg hknown]
  obtain ⟨hinv', hperm', hdrops', hpac', -, ⟨live, hf', halive⟩, hfrom'⟩ := hinv.keepAlive_spec now hf
  generalize keepAlive c now r.1 ip = t' at *
  by_cases hfull : c.entryPacketCapacity ≠ 0 ∧ c.entryPacketCapacity ≤ ae.entryPacketCount
  · rw [if_pos hfull]
    refine ⟨⟨hinv'.core, ⟨hinv'.counted.entries, hinv'.counted.packets⟩, hinv'.packetLimit,
      hinv'.entryLimit⟩, hfrom'.trans hfrom.mono, ?_, ?_⟩
    · exact hperm.trans (List.Perm.append_left _ hperm')
    · change t'.drops+1 = _
      rw [hdrops', hdrops]
  rw [if_neg hfull]
  obtain ⟨hcore, hcount, hperm₂, hdrops₂, hpac, hcap, ⟨ae', hf₂, htrim⟩, hfrom₂⟩ :=
    hinv'.room_spec now hf' halive
  generalize (if c.packetCapacity ≠ 0 ∧ c.packetCapacity < t'.packetCount+1 then
    slim c now { t' with packetCount := t'.packetCount+1 }
    else ({ t' with packetCount := t'.packetCount+1 }, [])) = s at *
  obtain ⟨pre, post, hs⟩ := split_of_find hcore.nodup hf₂
  have hage := hs.modify_age (enqueue p (ae.allowPoll now) now)
  obtain ⟨hqueue, hcnt, hip, heth, hisKnown, hlive⟩ := enqueue_fields p (ae.allowPoll now) now ae'
  have hsound := hcore.sound ae' hs.mem
  have hsound' : Sound (enqueue p (ae.allowPoll now) now ae') := by
    refine ⟨?_, ?_, ?_⟩
    · rw [hqueue, hcnt, hsound.count, List.length_append]
      rfl
    · intro x hx
      rw [hqueue] at hx
      rw [hip]
      rcases List.mem_append.mp hx with hx | hx
      · exact hsound.addressed x hx
      · rw [List.mem_singleton.mp hx, hp, hs.here]
    · rw [hisKnown, heth]
      exact hsound.unicast
  have hiptarget : (enqueue p (ae.allowPoll now) now ae').ip = ip := hip.trans hs.here
  have hagePerm := List.Perm.of_eq hage
  refine ⟨⟨hcore.replace hs _ hiptarget hsound' hagePerm, hcount.replaced hs hagePerm rfl ?_, hpac, hcap⟩,
    ?_, ?_, ?_⟩
  · rw [hqueue, List.length_append]
    change s.1.packetCount+ae'.queue.length+1 = s.1.packetCount+(ae'.queue.length+1)+0
    omega
  · have hnew : From c now none (s.1.modify ip (enqueue p (ae.allowPoll now) now)).age s.1.age :=
      hs.from_replaced ⟨hip, heth, hisKnown, Or.inl hlive⟩ hagePerm
    exact (hnew.trans hfrom₂).mono.trans (hfrom'.trans hfrom.mono)
  · -- the packet is behind the others of its entry
    have hq : (queued s.1.age ++ [p]).Perm (queued (s.1.modify ip (enqueue p (ae.allowPoll now) now)).age) := by
      refine ((queued_split hs).append_right [p]).trans (List.Perm.trans ?_ (queued_replaced hagePerm).symm)
      rw [hqueue, List.append_assoc, List.append_assoc]
      exact List.Perm.append_left _ List.perm_append_comm
    refine ((hperm.trans (List.Perm.append_left r.2 (hperm'.trans hperm₂))).append_right [p]).trans ?_
    rw [List.append_assoc, List.append_assoc, List.append_assoc]
    exact List.Perm.append_left _ (List.Perm.append_left _ hq)
  · change s.1.drops = t.drops+UInt32.ofNat (r.2 ++ s.2).length
    rw [hdrops₂, hdrops', hdrops, List.length_append, UInt32.ofNat_add, UInt32.add_assoc]

/-- Nothing is to be tried again if the address was not known just before. -/
theorem Inv.appendQuery_ne_again (hinv : Inv c t) (now : UInt32) (ip : IPAddress) (p : Packet)
    (h : ∀ ae, t.find ip = some ae → ae.known now c.timeout = false) :
    (appendQuery c now t ip p).2.2 ≠ .again := by
  obtain ⟨-, -, -, ⟨ae, hf, horigin⟩, -⟩ := hinv.ensure_spec now ip
  have hunknown : ae.known now c.timeout = false := by
    rcases horigin with hold | rfl
    · exact h ae hold
    · rfl
  unfold appendQuery
  dsimp only
  rw [hf]
  dsimp only
  rw [hunknown, if_neg Bool.false_ne_true]
  by_cases hfull : c.entryPacketCapacity ≠ 0 ∧ c.entryPacketCapacity ≤ ae.entryPacketCount
  · rw [if_pos hfull]
    exact fun heq => Appended.noConfusion heq
  · rw [if_neg hfull]
    exact fun heq => Appended.noConfusion heq

theorem markPoll_sound (now : UInt32) {ae : ARPEntry} (h : Sound ae) : Sound (ae.markPoll now) :=
  ⟨h.count, h.addressed, h.unicast⟩

/-- A lookup changes nothing but when the address was last asked for. -/
theorem Inv.lookup_spec (h : Inv c t) (now : UInt32) (ip : IPAddress) (pollTimeout : UInt32) :
    let r := lookup c now t ip pollTimeout
    Inv c r.1 ∧ queued r.1.age = queued t.age ∧ r.1.drops = t.drops ∧ From c now none r.1.age t.age ∧
      (∀ x, r.2 = some x → ∃ ae ∈ t.age, ae.ip = ip ∧ ae.known now c.timeout = true ∧ x.1 = ae.eth) ∧
      (r.2 = none → r.1 = t ∧ ∀ ae, t.find ip = some ae → ae.known now c.timeout = false) := by
  have hrefl : From c now none t.age t.age := From.refl c now none _
  unfold lookup
  cases hf : t.find ip with
  | none =>
    refine ⟨h, rfl, rfl, hrefl, fun x hx => ?_, fun _ => ⟨rfl, fun ae hae => ?_⟩⟩
    · cases hx
    · cases hae
  | some ae =>
    obtain ⟨pre, post, hs⟩ := split_of_find h.core.nodup hf
    dsimp only
    by_cases hknown : ae.known now c.timeout = true
    · rw [if_pos hknown]
      have hanswer (poll : Bool) (x : EtherAddress × Bool) (hx : some (ae.eth, poll) = some x) :
          ∃ ae ∈ t.age, ae.ip = ip ∧ ae.known now c.timeout = true ∧ x.1 = ae.eth := by
        rw [← Option.some.inj hx]
        exact ⟨ae, hs.mem, hs.here, hknown, rfl⟩
      split_ifs
      · have hage := hs.modify_age (fun ae => ae.markPoll now)
        refine ⟨?_, ?_, rfl, ?_, hanswer true, fun hno => ?_⟩
        · exact h.replaced hs (show (ae.markPoll now).ip = ip from hs.here)
            (markPoll_sound now (h.core.sound ae hs.mem)) (List.Perm.of_eq hage) rfl rfl (Nat.le_refl _)
        · rw [hage, hs.eq, queued_append, queued_append, queued_cons, queued_cons]
          rfl
        · have hd : Descends c now none (ae.markPoll now) ae := ⟨rfl, rfl, rfl, Or.inl rfl⟩
          exact hs.from_replaced hd (List.Perm.of_eq hage)
        · cases hno
      · exact ⟨h, rfl, rfl, hrefl, hanswer false, fun hno => by cases hno⟩
    · rw [if_neg hknown]
      refine ⟨h, rfl, rfl, hrefl, fun x hx => ?_, fun _ => ⟨rfl, fun x hx => ?_⟩⟩
      · cases hx
      · rw [← Option.some.inj hx]
        exact Bool.not_eq_true _ ▸ hknown

theorem clear_spec (c : ARPConfig) (t : ARPTable) :
    Inv c t.clear.1 ∧ t.clear.2 = queued t.age ∧ t.clear.1.age = [] ∧
      t.clear.1.drops = t.drops+UInt32.ofNat t.clear.2.length :=
  ⟨⟨core_nil, ⟨rfl, rfl⟩, fun _ => Nat.zero_le _, fun _ => Nat.zero_le _⟩, rfl, rfl, rfl⟩

theorem Inv.slim_spec (h : Inv c t) (now : UInt32) :
    let r := slim c now t
    Inv c r.1 ∧ (queued t.age).Perm (r.2 ++ queued r.1.age) ∧ r.1.drops = t.drops+UInt32.ofNat r.2.length ∧
      From c now none r.1.age t.age := by
  obtain ⟨pre, post, heq, htrim, hperm, hcount, hdrops, hpac, hcap, -⟩ :=
    ARPTable.slim_spec c now t 0 0 h.counted (Nat.zero_le _)
  exact ⟨⟨h.core.trimmed heq htrim, hcount, hpac, fun h0 => hcap h0 (Nat.zero_le _)⟩, hperm, hdrops,
    from_of_trimmed heq htrim⟩

end ARPTable

end MobileIP
