import MobileIP.ARPQuerier
import MobileIP.Advertisement

/-! Runs of `ARPQuerier`: no packet is lost or sent twice, whatever comes in and in whatever order,
and a packet goes to the address that was last heard for its next hop. -/
namespace MobileIP

open LittleEndian

namespace ARPQuerier

open ARPTable

def ARPEvent.sentPacket : ARPEvent → Option Packet
  | .sent _ p => some p
  | _ => none

def ARPEvent.killedPacket : ARPEvent → Option Packet
  | .killed p => some p
  | _ => none

def sentOf (es : List ARPEvent) : List Packet := es.filterMap ARPEvent.sentPacket

def killedOf (es : List ARPEvent) : List Packet := es.filterMap ARPEvent.killedPacket

/-- The packet that an input brings. -/
def Input.given : Input → List Packet
  | .ip _ p => [p]
  | _ => []

variable {q : ARPQuerier} {now : UInt32} {s : ARPState}

theorem sentOf_killed (ps : List Packet) : sentOf (ps.map .killed) = [] := by
  induction ps with
  | nil => rfl
  | cons p ps ih => exact ih

theorem killedOf_killed (ps : List Packet) : killedOf (ps.map .killed) = ps := by
  induction ps with
  | nil => rfl
  | cons p ps ih => exact congrArg (p :: ·) ih

theorem sentOf_append (es es' : List ARPEvent) : sentOf (es ++ es') = sentOf es ++ sentOf es' :=
  List.filterMap_append

theorem killedOf_append (es es' : List ARPEvent) : killedOf (es ++ es') = killedOf es ++ killedOf es' :=
  List.filterMap_append

/-- A step accounts for what waited before and for what came in. -/
structure Accounts (q : ARPQuerier) (s : ARPState) (given : List Packet) (r : ARPState × List ARPEvent) :
    Prop where
  inv : Inv q.arpt r.1.table
  perm : (queued s.table.age ++ given).Perm (sentOf r.2 ++ (killedOf r.2 ++ queued r.1.table.age))
  drops : r.1.table.drops+r.1.drops = s.table.drops+s.drops+UInt32.ofNat (killedOf r.2).length

/-- What the first part of a step sent or killed stays so. -/
theorem Accounts.append {given given' : List Packet} {r r' : ARPState × List ARPEvent}
    (h : Accounts q s given r) (h' : Accounts q r.1 given' r') :
    Accounts q s (given ++ given') (r'.1, r.2 ++ r'.2) where
  inv := h'.inv
  perm := by
    rw [sentOf_append, killedOf_append, ← List.append_assoc]
    refine (h.perm.append_right given').trans ?_
    have hrest := (h'.perm.append_left (killedOf r.2)).append_left (sentOf r.2)
    simp only [List.append_assoc] at hrest ⊢
    refine hrest.trans (List.Perm.append_left _ ?_)
    -- what is sent later moves before what is killed earlier
    exact List.perm_append_comm_assoc _ _ _
  drops := by
    have h1 := h.drops
    have h2 := h'.drops
    rw [killedOf_append, List.length_append, UInt32.ofNat_add]
    dsimp only
    rw [h2, h1, UInt32.add_assoc]

theorem accounts_nil (h : Inv q.arpt s.table) : Accounts q s [] (s, []) :=
  ⟨h, by rw [List.append_nil]; exact List.Perm.refl _, (UInt32.add_zero _).symm⟩

/-- An operation of the table that kills packets and hands none out. -/
theorem accounts_killed {t : ARPTable} {killed : List Packet} (hinv : Inv q.arpt t)
    (hperm : (queued s.table.age).Perm (killed ++ queued t.age))
    (hdrops : t.drops = s.table.drops+UInt32.ofNat killed.length) :
    Accounts q s [] ({ s with table := t }, killed.map .killed) where
  inv := hinv
  perm := by
    rw [sentOf_killed, killedOf_killed, List.append_nil]
    exact hperm
  drops := by
    rw [killedOf_killed]
    dsimp only
    rw [hdrops]
    grind

/-- Why a packet is sent to an address. -/
def Chosen (q : ARPQuerier) (now : UInt32) (s : ARPState) (p : Packet) (eth : EtherAddress) : Prop :=
  (eth = EtherAddress.makeBroadcast ∧ (p.dstIpAnno = 0xFFFFFFFF ∨ p.dstIpAnno = q.myBcastIp)) ∨
  (eth = multicastEther p.dstIpAnno ∧ IPAddress.isMulticast p.dstIpAnno = true) ∨
  ∃ ae ∈ s.table.age, ae.ip = p.dstIpAnno ∧ ae.known now q.arpt.timeout = true ∧ eth = ae.eth

/-- The ways through `handle_ip`. -/
inductive Handled (q : ARPQuerier) (now : UInt32) (s : ARPState) (p : Packet) :
    ARPState × List ARPEvent → Prop where
  | sent (t : ARPTable) (n : UInt32) (eth : EtherAddress) (asked : List Bytes) (inv : Inv q.arpt t)
      (same : queued t.age = queued s.table.age ∧ t.drops = s.table.drops)
      (origin : From q.arpt now none t.age s.table.age) (why : Chosen q now s p eth) :
      Handled q now s p (⟨t, n, s.arpResponses, s.drops⟩, asked.map .asked ++ [.sent eth p])
  | refused (inv : Inv q.arpt s.table) : Handled q now s p ({ s with drops := s.drops+1 }, [.killed p])
  | full (t : ARPTable) (killed : List Packet) (inv : Inv q.arpt t)
      (perm : (queued s.table.age).Perm (killed ++ queued t.age))
      (drops : t.drops = s.table.drops+UInt32.ofNat killed.length+1)
      (origin : From q.arpt now (some p.dstIpAnno) t.age s.table.age) :
      Handled q now s p
        ({ s with table := t }, killed.map .killed ++ [.unknown now p.dstIpAnno, .killed p])
  | waits (t : ARPTable) (n : UInt32) (killed : List Packet) (asked : List Bytes) (inv : Inv q.arpt t)
      (perm : (queued s.table.age ++ [p]).Perm (killed ++ queued t.age))
      (drops : t.drops = s.table.drops+UInt32.ofNat killed.length)
      (origin : From q.arpt now (some p.dstIpAnno) t.age s.table.age) :
      Handled q now s p (⟨t, n, s.arpResponses, s.drops⟩,
        killed.map .killed ++ (.unknown now p.dstIpAnno :: asked.map .asked))

theorem handleIpLoop_handled (h : Inv q.arpt s.table) (now : UInt32) (fuel : ℕ) (p : Packet) :
    Handled q now s p (handleIpLoop q now (fuel+1) s p) := by
  obtain ⟨hinv, hq, hd, hfrom, hfound, hmiss⟩ := h.lookup_spec now p.dstIpAnno q.pollTimeout
  rw [handleIpLoop]
  dsimp only
  cases hl : lookup q.arpt now s.table p.dstIpAnno q.pollTimeout with
  | mk t found =>
    rw [hl] at hinv hq hd hfrom hfound hmiss
    cases found with
    | some x =>
      obtain ⟨eth, poll⟩ := x
      have hwhy : Chosen q now s p eth := Or.inr (Or.inr (hfound (eth, poll) rfl))
      cases poll with
      | true => exact .sent t _ eth [queryFor q (some eth) p.dstIpAnno] hinv ⟨hq, hd⟩ hfrom hwhy
      | false => exact .sent t _ eth [] hinv ⟨hq, hd⟩ hfrom hwhy
    | none =>
      obtain ⟨htable, hunknown⟩ := hmiss rfl
      dsimp only at htable ⊢
      by_cases hb : p.dstIpAnno = 0xFFFFFFFF ∨ p.dstIpAnno = q.myBcastIp
      · rw [if_pos hb]
        exact .sent t _ _ [] hinv ⟨hq, hd⟩ hfrom (Or.inl ⟨rfl, hb⟩)
      rw [if_neg hb]
      by_cases hm : IPAddress.isMulticast p.dstIpAnno = true
      · rw [if_pos hm]
        exact .sent t _ _ [] hinv ⟨hq, hd⟩ hfrom (Or.inr (Or.inl ⟨rfl, hm⟩))
      rw [if_neg hm, htable]
      by_cases hz : p.dstIpAnno = 0
      · rw [if_pos hz]
        exact .refused h
      rw [if_neg hz]
      obtain ⟨hinv', hfrom', hcase⟩ := h.appendQuery_spec now p.dstIpAnno p rfl
      have hno := h.appendQuery_ne_again now p.dstIpAnno p hunknown
      cases ha : appendQuery q.arpt now s.table p.dstIpAnno p with
      | mk t' rest =>
        obtain ⟨killed, how⟩ := rest
        rw [ha] at hinv' hfrom' hcase hno
        cases how with
        | again => exact absurd rfl hno
        | full => exact .full t' killed hinv' hcase.1 hcase.2 hfrom'
        | queued poll =>
          cases poll with
          | true => exact .waits t' _ killed [queryFor q none p.dstIpAnno] hinv' hcase.1 hcase.2 hfrom'
          | false => exact .waits t' _ killed [] hinv' hcase.1 hcase.2 hfrom'

theorem handleIp_handled (h : Inv q.arpt s.table) (now : UInt32) (p : Packet) :
    Handled q now s p (handleIp q now s p) := by
  unfold handleIp
  split_ifs
  · exact .refused h
  · exact handleIpLoop_handled h now 1 p

theorem ofAsked (frames : List Bytes) :
    sentOf (frames.map .asked) = [] ∧ killedOf (frames.map .asked) = [] := by
  induction frames with
  | nil => exact ⟨rfl, rfl⟩
  | cons f frames ih => exact ih

theorem handleIp_accounts (h : Inv q.arpt s.table) (now : UInt32) (p : Packet) :
    Accounts q s [p] (handleIp q now s p) := by
  have hways := handleIp_handled h now p
  generalize handleIp q now s p = r at *
  cases hways with
  | sent t n eth asked inv same _ _ =>
    refine ⟨inv, ?_, ?_⟩
    · rw [sentOf_append, killedOf_append, (ofAsked asked).1, (ofAsked asked).2, same.1]
      exact List.perm_append_comm
    · rw [killedOf_append, (ofAsked asked).2]
      dsimp only
      rw [same.2]
      exact (UInt32.add_zero _).symm
  | refused inv =>
    refine ⟨inv, List.perm_append_comm, ?_⟩
    exact (UInt32.add_assoc _ _ _).symm
  | full t killed inv perm drops _ =>
    refine ⟨inv, ?_, ?_⟩
    · rw [sentOf_append, sentOf_killed, killedOf_append, killedOf_killed]
      change (queued s.table.age ++ [p]).Perm ((killed ++ [p]) ++ queued t.age)
      rw [List.append_assoc]
      refine (perm.append_right [p]).trans ?_
      rw [List.append_assoc]
      exact List.Perm.append_left _ List.perm_append_comm
    · rw [killedOf_append, killedOf_killed, List.length_append]
      change t.drops+s.drops = s.table.drops+s.drops+UInt32.ofNat (killed.length+1)
      rw [drops, UInt32.ofNat_add]
      grind
  | waits t n killed asked inv perm drops _ =>
    have hrest : sentOf (.unknown now p.dstIpAnno :: asked.map .asked) = [] ∧
        killedOf (.unknown now p.dstIpAnno :: asked.map .asked) = [] := ofAsked asked
    refine ⟨inv, ?_, ?_⟩
    · rw [sentOf_append, sentOf_killed, killedOf_append, killedOf_killed, hrest.1, hrest.2,
        List.append_nil, List.append_nil]
      exact perm
    · rw [killedOf_append, killedOf_killed, hrest.2, List.append_nil]
      dsimp only
      rw [drops]
      grind

theorem handleIps_accounts (h : Inv q.arpt s.table) (now : UInt32) (ps : List Packet) :
    Accounts q s ps (Runs.final (handleIp q now) s ps, Runs.trace (handleIp q now) s ps) := by
  induction ps generalizing s with
  | nil => exact accounts_nil h
  | cons p ps ih =>
    have hfirst := handleIp_accounts h now p
    exact hfirst.append (ih hfirst.inv)

theorem handleResponse_accounts (h : Inv q.arpt s.table) (now : UInt32) (frame : Bytes) :
    Accounts q s [] (handleResponse q now s frame) := by
  unfold handleResponse
  split_ifs
  · exact accounts_nil h
  · dsimp only
    have hcounter : Accounts q s [] ({ s with arpResponses := s.arpResponses+1 }, []) :=
      ⟨h, by rw [List.append_nil]; exact List.Perm.refl _, (UInt32.add_zero _).symm⟩
    cases replyOf frame with
    | none => exact hcounter
    | some x =>
      obtain ⟨ipa, ena⟩ := x
      obtain ⟨hinv, hperm, hdrops, ⟨ae, hf⟩, -⟩ := h.insert_spec now ipa ena
      obtain ⟨hinv', -, hperm', hdrops', -, -⟩ := hinv.takeQueue_spec hf
      dsimp only
      generalize insert q.arpt now s.table ipa ena = r at *
      generalize takeQueue r.1 ipa = t at *
      -- the packets that waited are counted out of the table and into `handle_ip`
      have hrest := handleIps_accounts (q := q)
        (s := { s with arpResponses := s.arpResponses+1, table := t.1 }) hinv' now t.2
      generalize Runs.final (handleIp q now)
        { s with arpResponses := s.arpResponses+1, table := t.1 } t.2 = s' at *
      generalize Runs.trace (handleIp q now)
        { s with arpResponses := s.arpResponses+1, table := t.1 } t.2 = es at *
      refine ⟨hrest.inv, ?_, ?_⟩
      · rw [sentOf_append, sentOf_killed, killedOf_append, killedOf_killed, List.append_nil]
        refine hperm.trans ?_
        refine (List.Perm.append_left r.2 (hperm'.trans List.perm_append_comm)).trans ?_
        refine (List.Perm.append_left r.2 hrest.perm).trans ?_
        rw [List.nil_append, List.append_assoc]
        exact List.perm_append_comm_assoc _ _ _
      · have hd := hrest.drops
        rw [killedOf_append, killedOf_killed, List.length_append, UInt32.ofNat_add]
        dsimp only at hd ⊢
        rw [hd, hdrops', hdrops]
        grind

/-- The handler `clear` resets the element's own counters; everything else counts its drops. -/
theorem step_accounts (h : Inv q.arpt s.table) (i : Input) :
    Inv q.arpt (step q s i).1.table ∧
      (queued s.table.age ++ i.given).Perm
        (sentOf (step q s i).2 ++ (killedOf (step q s i).2 ++ queued (step q s i).1.table.age)) ∧
      (i ≠ .clear → (step q s i).1.table.drops+(step q s i).1.drops =
        s.table.drops+s.drops+UInt32.ofNat (killedOf (step q s i).2).length) := by
  have hall {r : ARPState × List ARPEvent} {given : List Packet} (ha : Accounts q s given r) :
      Inv q.arpt r.1.table ∧ (queued s.table.age ++ given).Perm
        (sentOf r.2 ++ (killedOf r.2 ++ queued r.1.table.age)) ∧
      (i ≠ .clear → r.1.table.drops+r.1.drops = s.table.drops+s.drops+UInt32.ofNat (killedOf r.2).length) :=
    ⟨ha.inv, ha.perm, fun _ => ha.drops⟩
  cases i with
  | ip now p => exact hall (handleIp_accounts h now p)
  | response now frame => exact hall (handleResponse_accounts h now frame)
  | timer now =>
    obtain ⟨hinv, hperm, hdrops, -⟩ := h.slim_spec now
    exact hall (accounts_killed hinv hperm hdrops)
  | insert now ip eth =>
    obtain ⟨hinv, hperm, hdrops, -⟩ := h.insert_spec now ip eth
    exact hall (accounts_killed hinv hperm hdrops)
  | delete now ip =>
    obtain ⟨hinv, hperm, hdrops, -⟩ := h.insert_spec now ip EtherAddress.makeBroadcast
    exact hall (accounts_killed hinv hperm hdrops)
  | clear =>
    obtain ⟨hinv, hkilled, hage, -⟩ := clear_spec q.arpt s.table
    refine ⟨hinv, ?_, fun hne => absurd rfl hne⟩
    change (queued s.table.age ++ []).Perm (sentOf (s.table.clear.2.map .killed) ++
      (killedOf (s.table.clear.2.map .killed) ++ queued s.table.clear.1.age))
    rw [sentOf_killed, killedOf_killed, hage, hkilled]
    exact List.Perm.refl _

/-- No packet is lost and none is sent twice: of the packets that came in, each has been sent once,
or killed, or it waits for an address. The drops count what was killed, modulo 2^32, the table counts
what waits, and it keeps to its limits. -/
theorem no_packet_is_lost (q : ARPQuerier) (inputs : List Input) :
    let s := Runs.final (step q) start inputs
    let es := Runs.trace (step q) start inputs
    (inputs.flatMap Input.given).Perm (sentOf es ++ (killedOf es ++ queued s.table.age)) ∧
      (Input.clear ∉ inputs → s.table.drops+s.drops = UInt32.ofNat (killedOf es).length) ∧
      s.table.packetCount = (queued s.table.age).length ∧ s.table.entryCount = s.table.age.length ∧
      (q.arpt.packetCapacity ≠ 0 → s.table.packetCount ≤ q.arpt.packetCapacity) ∧
      (q.arpt.entryCapacity ≠ 0 → s.table.entryCount ≤ q.arpt.entryCapacity) := by
  have hrun := Runs.history_invariant (step q) start
    (fun is es s => Inv q.arpt s.table ∧
      (is.flatMap Input.given).Perm (sentOf es ++ (killedOf es ++ queued s.table.age)) ∧
      (Input.clear ∉ is → s.table.drops+s.drops = UInt32.ofNat (killedOf es).length))
    ⟨inv_empty q.arpt, List.Perm.refl _, fun _ => rfl⟩ ?_ inputs
  · obtain ⟨hinv, hperm, hdrops⟩ := hrun
    exact ⟨hperm, hdrops, hinv.counted.packets, hinv.counted.entries, hinv.packetLimit, hinv.entryLimit⟩
  · rintro is i ⟨hinv, hperm, hdrops⟩
    obtain ⟨hinv', hperm', hdrops'⟩ := step_accounts hinv i
    refine ⟨hinv', ?_, ?_⟩
    · rw [List.flatMap_append, List.flatMap_singleton, sentOf_append, killedOf_append]
      refine (hperm.append_right i.given).trans ?_
      simp only [List.append_assoc]
      refine List.Perm.append_left _ ?_
      exact (List.Perm.append_left _ hperm').trans (List.perm_append_comm_assoc _ _ _)
    · intro hno
      have h1 := hdrops (fun hmem => hno (List.mem_append_left _ hmem))
      have h2 := hdrops' (fun heq => hno (List.mem_append_right _ (by rw [heq]; exact List.mem_singleton_self _)))
      rw [killedOf_append, List.length_append, UInt32.ofNat_add, h2, h1]

/-- What an input tells about an address, and when. -/
def Input.news : Input → Option (IPAddress × EtherAddress × UInt32)
  | .response now frame => (replyOf frame).map (fun x => (x.1, x.2, now))
  | .insert now addr eth => some (addr, eth, now)
  | .delete now addr => some (addr, EtherAddress.makeBroadcast, now)
  | _ => none

def Input.time : Input → UInt32
  | .ip now _ => now
  | .response now _ => now
  | .timer now => now
  | .insert now _ _ => now
  | .delete now _ => now
  | .clear => 0

/-- The address that was last heard for each IP address, and when. -/
def record (m : IPAddress → Option (EtherAddress × UInt32)) (i : Input) :
    IPAddress → Option (EtherAddress × UInt32) :=
  match i.news with
  | some (ip, x) => Function.update m ip (some x)
  | none => m

def latest (inputs : List Input) : IPAddress → Option (EtherAddress × UInt32) :=
  inputs.foldl record (fun _ => none)

/-- What the table knows is what was last heard. An entry lives from then on, or it has been
kept on this side of expiring for a packet that had to wait. -/
def Heard (c : ARPConfig) (m : IPAddress → Option (EtherAddress × UInt32)) (log : List ARPEvent)
    (l : List ARPEntry) : Prop :=
  ∀ ae ∈ l, ae.isKnown = true → ∃ since, m ae.ip = some (ae.eth, since) ∧
    (ae.liveAt = since ∨ ∃ b, ARPEvent.unknown b ae.ip ∈ log ∧ ae.liveAt = b-c.timeout)

/-- The destination of a packet that is sent at a time: the broadcast address, that of a group, or
what was last heard. The last one is not older than the timeout, unless the address was found to
be unknown at the same time. -/
def Right (q : ARPQuerier) (m : IPAddress → Option (EtherAddress × UInt32)) (log : List ARPEvent)
    (now : UInt32) (dst : EtherAddress) (p : Packet) : Prop :=
  (dst = EtherAddress.makeBroadcast ∧ (p.dstIpAnno = 0xFFFFFFFF ∨ p.dstIpAnno = q.myBcastIp)) ∨
  (dst = multicastEther p.dstIpAnno ∧ IPAddress.isMulticast p.dstIpAnno = true) ∨
  ∃ since, m p.dstIpAnno = some (dst, since) ∧
    (q.arpt.timeout = 0 ∨ jiffiesLess (since+q.arpt.timeout) now = false ∨
      ∃ b, ARPEvent.unknown b p.dstIpAnno ∈ log ∧ jiffiesLess b now = false)

variable {m : IPAddress → Option (EtherAddress × UInt32)} {log : List ARPEvent}

theorem Heard.of_from {c : ARPConfig} {l l' : List ARPEntry} {who : Option IPAddress}
    (h : Heard c m log l) (hf : From c now who l' l) (es : List ARPEvent)
    (hwho : ∀ ip, who = some ip → ARPEvent.unknown now ip ∈ es) : Heard c m (log ++ es) l' := by
  intro ae' hae' hk
  rcases hf ae' hae' with hno | ⟨ae, hae, hd⟩
  · rw [hno] at hk
    cases hk
  · obtain ⟨since, hm, hlive⟩ := h ae hae (by rw [← hd.known_eq]; exact hk)
    refine ⟨since, by rw [hd.ip_eq, hd.eth_eq]; exact hm, ?_⟩
    rcases hd.live with hl | ⟨hw, -, hl⟩
    · rcases hlive with hs | ⟨b, hb, hs⟩
      · exact Or.inl (hl.trans hs)
      · exact Or.inr ⟨b, by rw [hd.ip_eq]; exact List.mem_append_left _ hb, hl.trans hs⟩
    · exact Or.inr ⟨now, List.mem_append_right _ (hwho ae'.ip hw), hl⟩

/-- An address that the table gives out is the right one. -/
theorem Heard.right {ae : ARPEntry} (h : Heard q.arpt m log s.table.age) (hae : ae ∈ s.table.age)
    (hk : ae.known now q.arpt.timeout = true) (p : Packet) (hp : ae.ip = p.dstIpAnno)
    (es : List ARPEvent) : Right q m (log ++ es) now ae.eth p := by
  unfold ARPEntry.known ARPEntry.expired at hk
  rw [Bool.and_eq_true, Bool.not_eq_true', Bool.and_eq_false_iff] at hk
  obtain ⟨since, hm, hlive⟩ := h ae hae hk.1
  refine Or.inr (Or.inr ⟨since, by rw [← hp]; exact hm, ?_⟩)
  rcases hk.2 with hless | h0
  · rcases hlive with hs | ⟨b, hb, hs⟩
    · exact Or.inr (Or.inl (by rw [← hs]; exact hless))
    · rw [hs, UInt32.sub_add_cancel] at hless
      exact Or.inr (Or.inr ⟨b, by rw [← hp]; exact List.mem_append_left _ hb, hless⟩)
  · exact Or.inl (by simpa using h0)

theorem mem_killed {dst : EtherAddress} {p : Packet} (ps : List Packet) :
    ARPEvent.sent dst p ∉ ps.map .killed := by
  intro h
  obtain ⟨x, -, hx⟩ := List.mem_map.mp h
  cases hx

theorem mem_asked {dst : EtherAddress} {p : Packet} (frames : List Bytes) :
    ARPEvent.sent dst p ∉ frames.map .asked := by
  intro h
  obtain ⟨x, -, hx⟩ := List.mem_map.mp h
  cases hx

/-- One packet: the table still knows what was last heard, and what is sent is sent there. -/
theorem handleIp_heard (h : Inv q.arpt s.table) (hh : Heard q.arpt m log s.table.age) (now : UInt32)
    (p : Packet) :
    Heard q.arpt m (log ++ (handleIp q now s p).2) (handleIp q now s p).1.table.age ∧
      ∀ dst p', .sent dst p' ∈ (handleIp q now s p).2 →
        Right q m (log ++ (handleIp q now s p).2) now dst p' := by
  have hways := handleIp_handled h now p
  generalize handleIp q now s p = r at *
  cases hways with
  | sent t n eth asked inv same origin why =>
    refine ⟨hh.of_from origin _ (fun ip hip => by cases hip), ?_⟩
    intro dst p' hmem
    rcases List.mem_append.mp hmem with hmem | hmem
    · exact absurd hmem (mem_asked asked)
    · obtain ⟨rfl, rfl⟩ := ARPEvent.sent.inj (List.mem_singleton.mp hmem)
      rcases why with hb | hm | ⟨ae, hae, hip, hk, rfl⟩
      · exact Or.inl hb
      · exact Or.inr (Or.inl hm)
      · exact hh.right hae hk p' hip _
  | refused inv =>
    refine ⟨hh.of_from (From.refl q.arpt now none _) _ (fun ip hip => by cases hip), ?_⟩
    intro dst p' hmem
    cases List.mem_singleton.mp hmem
  | full t killed inv perm drops origin =>
    refine ⟨hh.of_from origin _ ?_, ?_⟩
    · rintro ip hip
      rw [← Option.some.inj hip]
      exact List.mem_append_right _ List.mem_cons_self
    · intro dst p' hmem
      rcases List.mem_append.mp hmem with hmem | hmem
      · exact absurd hmem (mem_killed killed)
      · rcases List.mem_cons.mp hmem with heq | hmem
        · cases heq
        · cases List.mem_singleton.mp hmem
  | waits t n killed asked inv perm drops origin =>
    refine ⟨hh.of_from origin _ ?_, ?_⟩
    · rintro ip hip
      rw [← Option.some.inj hip]
      exact List.mem_append_right _ List.mem_cons_self
    · intro dst p' hmem
      rcases List.mem_append.mp hmem with hmem | hmem
      · exact absurd hmem (mem_killed killed)
      · rcases List.mem_cons.mp hmem with heq | hmem
        · cases heq
        · exact absurd hmem (mem_asked asked)

theorem handleIps_heard (h : Inv q.arpt s.table) (hh : Heard q.arpt m log s.table.age) (now : UInt32)
    (ps : List Packet) :
    Heard q.arpt m (log ++ Runs.trace (handleIp q now) s ps) (Runs.final (handleIp q now) s ps).table.age ∧
      ∀ dst p, .sent dst p ∈ Runs.trace (handleIp q now) s ps →
        Right q m (log ++ Runs.trace (handleIp q now) s ps) now dst p := by
  induction ps generalizing s log with
  | nil =>
    refine ⟨?_, fun dst p hmem => absurd hmem List.not_mem_nil⟩
    rw [Runs.trace, List.append_nil]
    exact hh
  | cons p ps ih =>
    obtain ⟨hh', hright⟩ := handleIp_heard h hh now p
    obtain ⟨hheard, hrest⟩ := ih (handleIp_accounts h now p).inv hh'
    rw [List.append_assoc] at hheard hrest
    refine ⟨hheard, ?_⟩
    intro dst x hmem
    rcases List.mem_append.mp hmem with hmem | hmem
    · -- the log only grows
      rcases hright dst x hmem with hb | hm | ⟨since, hm, h0 | hl | ⟨b, hb, hl⟩⟩
      · exact Or.inl hb
      · exact Or.inr (Or.inl hm)
      · exact Or.inr (Or.inr ⟨since, hm, Or.inl h0⟩)
      · exact Or.inr (Or.inr ⟨since, hm, Or.inr (Or.inl hl)⟩)
      · refine Or.inr (Or.inr ⟨since, hm, Or.inr (Or.inr ⟨b, ?_, hl⟩)⟩)
        rw [Runs.trace, ← List.append_assoc]
        exact List.mem_append_left _ hb
    · exact hrest dst x hmem

theorem insert_heard (h : Inv q.arpt s.table) (hh : Heard q.arpt m log s.table.age) (now : UInt32)
    (ip : IPAddress) (eth : EtherAddress) (es : List ARPEvent) :
    Heard q.arpt (Function.update m ip (some (eth, now))) (log ++ es)
      (insert q.arpt now s.table ip eth).1.age := by
  obtain ⟨hinv, -, -, ⟨ae₀, hf⟩, hothers⟩ := h.insert_spec now ip eth
  intro ae hae hk
  by_cases hip : ae.ip = ip
  · have hae₀ : ae = learn eth now ae₀ := by
      refine List.inj_on_of_nodup_map hinv.core.nodup hae (List.mem_of_find?_eq_some hf) ?_
      have hip₀ : (learn eth now ae₀).ip = ip := by simpa using List.find?_some hf
      rw [hip, hip₀]
    refine ⟨now, ?_, Or.inl (by rw [hae₀]; rfl)⟩
    rw [hip, Function.update_self, hae₀]
    rfl
  · rcases hothers ae hae hip with hno | ⟨x, hx, hd⟩
    · rw [hno] at hk
      cases hk
    · obtain ⟨since, hm, hlive⟩ := hh x hx (by rw [← hd.known_eq]; exact hk)
      have hl : ae.liveAt = x.liveAt := by
        rcases hd.live with hl | ⟨hnone, -⟩
        · exact hl
        · cases hnone
      refine ⟨since, ?_, ?_⟩
      · rw [Function.update_of_ne hip, hd.ip_eq, hd.eth_eq]
        exact hm
      · rw [hl, hd.ip_eq]
        exact hlive.imp_right (fun ⟨b, hb, hs⟩ => ⟨b, List.mem_append_left _ hb, hs⟩)

theorem record_news (m : IPAddress → Option (EtherAddress × UInt32)) (i : Input) (ip : IPAddress)
    (eth : EtherAddress) (now : UInt32) (h : i.news = some (ip, eth, now)) :
    record m i = Function.update m ip (some (eth, now)) := by
  unfold record
  rw [h]

theorem record_none (m : IPAddress → Option (EtherAddress × UInt32)) (i : Input) (h : i.news = none) :
    record m i = m := by
  unfold record
  rw [h]

theorem handleResponse_heard (h : Inv q.arpt s.table) (hh : Heard q.arpt m log s.table.age) (now : UInt32)
    (frame : Bytes) :
    let m' := record m (.response now frame)
    let r := handleResponse q now s frame
    Heard q.arpt m' (log ++ r.2) r.1.table.age ∧
      ∀ dst p, .sent dst p ∈ r.2 → Right q m' (log ++ r.2) now dst p := by
  intro m' r
  have hidle (hnews : replyOf frame = none) (s' : ARPState) (hs : s'.table = s.table) (hr : r = (s', [])) :
      Heard q.arpt m' (log ++ r.2) r.1.table.age ∧
        ∀ dst p, .sent dst p ∈ r.2 → Right q m' (log ++ r.2) now dst p := by
    have hm : m' = m := record_none m _ (Option.map_eq_none_iff.mpr hnews)
    rw [hr, hm]
    dsimp only
    rw [List.append_nil, hs]
    exact ⟨hh, fun dst p hmem => absurd hmem List.not_mem_nil⟩
  by_cases hshort : frame.length < sizeofClickEther+sizeofClickEtherArp
  · refine hidle ?_ s rfl ?_
    · unfold replyOf isArp
      dsimp only
      rw [decide_eq_false (Nat.not_le.mpr hshort)]
      exact if_neg (fun hb => Bool.false_ne_true hb.1)
    · change handleResponse q now s frame = _
      unfold handleResponse
      rw [if_pos hshort]
  cases hreply : replyOf frame with
  | none =>
    refine hidle hreply { s with arpResponses := s.arpResponses+1 } rfl ?_
    change handleResponse q now s frame = _
    unfold handleResponse
    rw [if_neg hshort, hreply]
  | some x =>
    obtain ⟨ipa, ena⟩ := x
    have hm : m' = Function.update m ipa (some (ena, now)) :=
      record_news m _ ipa ena now (Option.map_eq_some_iff.mpr ⟨(ipa, ena), hreply, rfl⟩)
    obtain ⟨hinv, -, -, ⟨ae, hf⟩, -⟩ := h.insert_spec now ipa ena
    have hheard := insert_heard h hh now ipa ena ((insert q.arpt now s.table ipa ena).2.map .killed)
    obtain ⟨hinv', -, -, -, -, hsame⟩ := hinv.takeQueue_spec hf
    -- handing out the packets does not touch what the entries know
    have htaken : Heard q.arpt m' (log ++ (insert q.arpt now s.table ipa ena).2.map .killed)
        (takeQueue (insert q.arpt now s.table ipa ena).1 ipa).1.age := by
      intro ae' hae' hk
      rw [hm]
      obtain ⟨x, hx, rfl | rfl⟩ := hsame ae' hae'
      · exact hheard ae' hx hk
      · exact hheard x hx hk
    have hrest := handleIps_heard (q := q)
      (s := { s with
        arpResponses := s.arpResponses+1
        table := (takeQueue (insert q.arpt now s.table ipa ena).1 ipa).1 }) hinv' htaken now
      (takeQueue (insert q.arpt now s.table ipa ena).1 ipa).2
    rw [List.append_assoc] at hrest
    have hr : r = (Runs.final (handleIp q now) { s with
        arpResponses := s.arpResponses+1
        table := (takeQueue (insert q.arpt now s.table ipa ena).1 ipa).1 }
        (takeQueue (insert q.arpt now s.table ipa ena).1 ipa).2,
      (insert q.arpt now s.table ipa ena).2.map .killed ++ Runs.trace (handleIp q now) { s with
        arpResponses := s.arpResponses+1
        table := (takeQueue (insert q.arpt now s.table ipa ena).1 ipa).1 }
        (takeQueue (insert q.arpt now s.table ipa ena).1 ipa).2) := by
      change handleResponse q now s frame = _
      unfold handleResponse
      rw [if_neg hshort, hreply]
    rw [hr]
    refine ⟨hrest.1, ?_⟩
    intro dst p hmem
    rcases List.mem_append.mp hmem with hmem | hmem
    · exact absurd hmem (mem_killed _)
    · exact hrest.2 dst p hmem

/-- One step: what is heard goes into the table before the packets that wait for it go out. -/
theorem step_heard (h : Inv q.arpt s.table) (hh : Heard q.arpt m log s.table.age) (i : Input) :
    Heard q.arpt (record m i) (log ++ (step q s i).2) (step q s i).1.table.age ∧
      ∀ dst p, .sent dst p ∈ (step q s i).2 →
        Right q (record m i) (log ++ (step q s i).2) i.time dst p := by
  cases i with
  | ip now p =>
    rw [record_none m _ rfl]
    exact handleIp_heard h hh now p
  | response now frame => exact handleResponse_heard h hh now frame
  | timer now =>
    obtain ⟨-, -, -, hfrom⟩ := h.slim_spec now
    rw [record_none m _ rfl]
    exact ⟨hh.of_from hfrom _ (fun ip hip => by cases hip), fun _ _ hmem => absurd hmem (mem_killed _)⟩
  | insert now ip eth =>
    rw [record_news m _ ip eth now rfl]
    exact ⟨insert_heard h hh now ip eth _, fun _ _ hmem => absurd hmem (mem_killed _)⟩
  | delete now ip =>
    rw [record_news m _ ip EtherAddress.makeBroadcast now rfl]
    exact ⟨insert_heard h hh now ip EtherAddress.makeBroadcast _,
      fun _ _ hmem => absurd hmem (mem_killed _)⟩
  | clear =>
    obtain ⟨-, -, hage, -⟩ := clear_spec q.arpt s.table
    rw [record_none m _ rfl]
    refine ⟨?_, fun _ _ hmem => absurd hmem (mem_killed _)⟩
    intro ae hae
    change ae ∈ s.table.clear.1.age at hae
    rw [hage] at hae
    exact absurd hae List.not_mem_nil

/-- Whatever came in, and in whatever order, a packet goes out to the address that was last heard
for its next hop, by a reply or from a handler. -/
theorem addressed_to_the_latest (q : ARPQuerier) (inputs : List Input) (i : Input) (dst : EtherAddress)
    (p : Packet) (hsent : .sent dst p ∈ (step q (Runs.final (step q) start inputs) i).2) :
    Right q (latest (inputs ++ [i])) (Runs.trace (step q) start (inputs ++ [i])) i.time dst p := by
  have hrun := Runs.history_invariant (step q) start
    (fun is es s => Inv q.arpt s.table ∧ Heard q.arpt (latest is) es s.table.age)
    ⟨inv_empty q.arpt, fun ae hae => absurd hae List.not_mem_nil⟩
    (fun is i hi => ⟨(step_accounts hi.1 i).1, by
      rw [latest, List.foldl_append]
      exact (step_heard hi.1 hi.2 i).1⟩) inputs
  rw [Runs.trace_concat, latest, List.foldl_append]
  exact (step_heard hrun.1 hrun.2 i).2 dst p hsent

end ARPQuerier

namespace Deployment

open ARPQuerier

def homeAgentEther : EtherAddress := ⟨0x5000, 0x85BA, 0xB284⟩
def foreignAgentEther : EtherAddress := ⟨0x5000, 0x85BA, 0xB484⟩

/-- The querier of the home agent on the public network. -/
def homeQuerier : ARPQuerier := configure homeAgentPublicAddress (ipv4 255 255 255 0) homeAgentEther

/-- A packet on its way to the foreign agent. -/
def tunnelled : Packet := { homeAdvertisement with dstIpAnno := foreignAgentPublicAddress }

/-- The foreign agent's answer. -/
def foreignReply : Bytes :=
  arpFrame homeAgentEther foreignAgentEther 2 foreignAgentEther foreignAgentPublicAddress homeAgentEther
    homeAgentPublicAddress

end Deployment

namespace ARPQuerier

open Deployment

theorem addressed_to_foreign_agent :
    Right homeQuerier (latest [.ip 0 tunnelled, .response 10 foreignReply])
      (Runs.trace (step homeQuerier) start [.ip 0 tunnelled, .response 10 foreignReply]) 10
      foreignAgentEther tunnelled :=
  addressed_to_the_latest homeQuerier [.ip 0 tunnelled] (.response 10 foreignReply) foreignAgentEther
    tunnelled (by decide +kernel)

/-- The address has expired, so that the first packet has to wait. As its entry is kept on this
side of expiring, the address is known again for the second packet, which overtakes the first. -/
example :
    let run := Runs.trace (step homeQuerier) start
      [.response 0 foreignReply, .ip 300001 tunnelled, .ip 300001 tunnelled]
    run = [.unknown 300001 foreignAgentPublicAddress,
      .asked (queryFor homeQuerier none foreignAgentPublicAddress), .sent foreignAgentEther tunnelled] := by
  decide +kernel

end ARPQuerier

end MobileIP
