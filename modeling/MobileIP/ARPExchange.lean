import MobileIP.ARPRuns

/-! A query, the answer of `ARPResponder`, and what the answer sets free. -/
namespace MobileIP

open LittleEndian

theorem EtherAddress.isBroadcast_of_isGroup {e : EtherAddress} (h : e.isGroup = false) :
    e.isBroadcast = false := by
  unfold isGroup at h
  unfold isBroadcast
  rw [beq_eq_false_iff_ne] at h ⊢
  have h0 := e.d0.toNat_lt
  have h1 := e.d1.toNat_lt
  have h2 := e.d2.toNat_lt
  omega

theorem length_arpFrame (dhost shost : EtherAddress) (op : UInt16) (sha : EtherAddress) (spa : IPAddress)
    (tha : EtherAddress) (tpa : IPAddress) :
    (arpFrame dhost shost op sha spa tha tpa).length = sizeofClickEther+sizeofClickEtherArp := rfl

/-- The reader of a frame finds what the writer put into it. -/
theorem ofBytes_arpFrame (dhost shost : EtherAddress) (op : UInt16) (sha : EtherAddress) (spa : IPAddress)
    (tha : EtherAddress) (tpa : IPAddress) :
    ClickEtherArp.ofBytes ((arpFrame dhost shost op sha spa tha tpa).drop sizeofClickEther) =
      ⟨htons 1, htons 0x0800, 6, 4, htons op, sha, spa, tha, tpa⟩ := by
  have hlen : (ClickEther.toBytes ⟨dhost, shost, htons 0x0806⟩).length = sizeofClickEther := rfl
  unfold arpFrame
  rw [← hlen, List.drop_left, ← List.append_nil (ClickEtherArp.toBytes _), ClickEtherArp.ofBytes_toBytes]

theorem isArp_arpFrame (dhost shost : EtherAddress) (op : UInt16) (sha : EtherAddress) (spa : IPAddress)
    (tha : EtherAddress) (tpa : IPAddress) : isArp op (arpFrame dhost shost op sha spa tha tpa) = true := by
  have hether : ClickEther.ofBytes (arpFrame dhost shost op sha spa tha tpa) =
      ⟨dhost, shost, htons 0x0806⟩ := ClickEther.ofBytes_toBytes _ _
  unfold isArp
  rw [ofBytes_arpFrame, hether, length_arpFrame]
  simp

namespace ARPTable

/-- The packets that wait for an address. -/
def waiting (t : ARPTable) (ip : IPAddress) : List Packet := ((t.find ip).map ARPEntry.queue).getD []

variable {c : ARPConfig} {t : ARPTable} {ip ip' : IPAddress} {ae : ARPEntry}

theorem find_modify (t : ARPTable) (ip ip' : IPAddress) (f : ARPEntry → ARPEntry)
    (hf : ∀ ae, (f ae).ip = ae.ip) :
    (t.modify ip f).find ip' = (t.find ip').map (fun ae => if ae.ip = ip then f ae else ae) := by
  have hsame : (fun ae : ARPEntry => ae.ip == ip') ∘ (fun ae => if ae.ip = ip then f ae else ae) =
      fun ae => ae.ip == ip' := by
    funext ae
    dsimp only [Function.comp]
    split_ifs
    · rw [hf]
    · rfl
  unfold find modify
  dsimp only
  rw [List.find?_map, hsame]

theorem find_moveBack (t : ARPTable) (ip ip' : IPAddress) : (t.moveBack ip).find ip' = t.find ip' := by
  unfold find moveBack
  dsimp only
  rw [List.find?_append, List.find?_filter, List.find?_filter]
  by_cases hip : ip' = ip
  · -- the entry is behind the others
    have hno : t.age.find? (fun a => decide (decide (a.ip ≠ ip) = true ∧ (a.ip == ip') = true)) = none := by
      rw [List.find?_eq_none]
      intro ae _ h
      simp [hip] at h
    rw [hno, Option.none_or]
    congr 1
    funext ae
    simp [hip, beq_eq_decide]
  · have hno : t.age.find? (fun a => decide (decide (a.ip = ip) = true ∧ (a.ip == ip') = true)) = none := by
      rw [List.find?_eq_none]
      intro ae _ h
      simp only [decide_eq_true_eq, beq_iff_eq] at h
      exact hip (h.2.symm.trans h.1)
    rw [hno, Option.or_none]
    congr 1
    funext ae
    by_cases h : ae.ip = ip'
    · simp [h, hip]
    · simp [h]

theorem waiting_modify (t : ARPTable) (ip ip' : IPAddress) (f : ARPEntry → ARPEntry)
    (hf : ∀ ae, (f ae).ip = ae.ip) (hq : ∀ ae, (f ae).queue = ae.queue) :
    (t.modify ip f).waiting ip' = t.waiting ip' := by
  unfold waiting
  rw [find_modify t ip ip' f hf, Option.map_map]
  congr 2
  funext ae
  dsimp only [Function.comp]
  split_ifs
  · exact hq ae
  · rfl

/-- The entry of an address after `insert`, new or not. -/
theorem find_insert (h : Inv c t) (now : UInt32) (ip : IPAddress) (eth : EtherAddress) :
    ∃ ae, (insert c now t ip eth).1.find ip = some (learn eth now ae) ∧ ae.queue = t.waiting ip := by
  obtain ⟨-, -, -, ⟨ae, hf, hae⟩, -⟩ := h.ensure_spec now ip
  have hip : ae.ip = ip := by simpa using List.find?_some hf
  refine ⟨ae, ?_, ?_⟩
  · unfold insert
    dsimp only
    rw [find_moveBack, find_modify _ ip ip (learn eth now) (fun _ => rfl), hf, Option.map_some, if_pos hip]
  · unfold waiting
    rcases hae with hold | hnew
    · rw [hold]
      rfl
    · cases hf₀ : t.find ip with
      | none =>
        rw [hnew]
        rfl
      | some ae₀ =>
        -- `ensure` has left the table as it was
        have hsame : (ensure c now t ip).1 = t := by
          unfold ensure
          rw [hf₀]
        rw [hsame, hf₀] at hf
        rw [Option.some.inj hf]
        rfl

/-- With an entry for the address, `insert` moves no packet. -/
theorem insert_of_find (hf : t.find ip = some ae) (now : UInt32) (eth : EtherAddress) :
    (insert c now t ip eth).2 = [] ∧ ∀ ip', (insert c now t ip eth).1.waiting ip' = t.waiting ip' := by
  unfold insert ensure
  rw [hf]
  dsimp only
  refine ⟨rfl, fun ip' => ?_⟩
  unfold waiting
  rw [find_moveBack]
  exact waiting_modify t ip ip' (learn eth now) (fun _ => rfl) (fun _ => rfl)

theorem takeQueue_of_find (hf : t.find ip = some ae) :
    (takeQueue t ip).2 = ae.queue ∧ (takeQueue t ip).1.find ip = some (emptied ae) ∧
      ∀ ip', (takeQueue t ip).1.waiting ip' = if ip' = ip then [] else t.waiting ip' := by
  have hip : ae.ip = ip := by simpa using List.find?_some hf
  have hfind (ip' : IPAddress) : (takeQueue t ip).1.find ip' =
      (t.find ip').map (fun ae => if ae.ip = ip then emptied ae else ae) := by
    rw [← find_modify t ip ip' emptied (fun _ => rfl)]
    unfold takeQueue
    rw [hf]
    rfl
  refine ⟨by unfold takeQueue; rw [hf], by rw [hfind, hf, Option.map_some, if_pos hip], fun ip' => ?_⟩
  unfold waiting
  rw [hfind]
  cases hf' : t.find ip' with
  | none => rw [Option.map_none, Option.map_none, Option.getD_none, ite_self]
  | some x =>
    have hx : x.ip = ip' := by simpa using List.find?_some hf'
    rw [Option.map_some, Option.map_some, hx, Option.map_some]
    split_ifs
    · rfl
    · rfl

/-- What was just heard is known. -/
theorem known_learn {eth : EtherAddress} {timeout : UInt32} (now : UInt32) (ae : ARPEntry)
    (heth : eth.isBroadcast = false) (ht : timeout.toNat < 0x80000000) :
    (learn eth now ae).known now timeout = true := by
  have hlive : jiffiesLess (now+timeout) now = false := by
    unfold jiffiesLess
    have hdiff : now+timeout-now = timeout := by
      rw [UInt32.add_comm, UInt32.add_sub_cancel]
    rw [hdiff]
    exact decide_eq_false (by omega)
  unfold ARPEntry.known ARPEntry.expired learn
  dsimp only
  rw [heth, hlive]
  rfl

end ARPTable

namespace ARPQuerier

open ARPTable

variable {q : ARPQuerier} {s : ARPState} {ip : IPAddress}

def ARPEvent.sentTo : ARPEvent → Option (EtherAddress × Packet)
  | .sent dst p => some (dst, p)
  | _ => none

/-- The packets that go out, with their destinations. -/
def sentTo (es : List ARPEvent) : List (EtherAddress × Packet) := es.filterMap ARPEvent.sentTo

theorem sentTo_append (es es' : List ARPEvent) : sentTo (es ++ es') = sentTo es ++ sentTo es' :=
  List.filterMap_append

theorem sentTo_killed (ps : List Packet) : sentTo (ps.map .killed) = [] := by
  induction ps with
  | nil => rfl
  | cons p ps ih => exact ih

/-- The address is known at a time, and nothing has been moved since `t`. -/
structure Resolved (q : ARPQuerier) (now : UInt32) (ip : IPAddress) (eth : EtherAddress) (t t' : ARPTable) :
    Prop where
  known : ∃ ae, t'.find ip = some ae ∧ ae.eth = eth ∧ ae.known now q.arpt.timeout = true
  waiting : ∀ ip', t'.waiting ip' = t.waiting ip'

/-- A packet for a known address goes out at once. -/
theorem handleIp_resolved {eth : EtherAddress} {t : ARPTable} (hmy : q.myIp ≠ 0) (now : UInt32)
    (h : Resolved q now ip eth t s.table) (p : Packet) (hp : p.dstIpAnno = ip) :
    sentTo (handleIp q now s p).2 = [(eth, p)] ∧ killedOf (handleIp q now s p).2 = [] ∧
      Resolved q now ip eth t (handleIp q now s p).1.table := by
  obtain ⟨ae, hf, heth, hk⟩ := h.known
  have hip : ae.ip = ip := by simpa using List.find?_some hf
  unfold handleIp
  rw [if_neg hmy, handleIpLoop, hp]
  dsimp only
  by_cases hpoll : q.pollTimeout ≠ 0 ∧ !jiffiesLess now (ae.liveAt+q.pollTimeout) ∧ ae.allowPoll now
  · -- it is time to ask again
    have hl : lookup q.arpt now s.table ip q.pollTimeout =
        (s.table.modify ip (fun ae => ae.markPoll now), some (eth, true)) := by
      unfold lookup
      rw [hf]
      dsimp only
      rw [if_pos hk, if_pos hpoll, heth]
    rw [hl]
    refine ⟨rfl, rfl, ⟨ae.markPoll now, ?_, heth, hk⟩, ?_⟩
    · dsimp only
      rw [find_modify s.table ip ip (fun ae => ae.markPoll now) (fun _ => rfl), hf, Option.map_some, if_pos hip]
    · intro ip'
      rw [← h.waiting ip']
      exact waiting_modify s.table ip ip' (fun ae => ae.markPoll now) (fun _ => rfl) (fun _ => rfl)
  · have hl : lookup q.arpt now s.table ip q.pollTimeout = (s.table, some (eth, false)) := by
      unfold lookup
      rw [hf]
      dsimp only
      rw [if_pos hk, if_neg hpoll, heth]
    rw [hl]
    exact ⟨rfl, rfl, h⟩

theorem handleIps_resolved {eth : EtherAddress} {t : ARPTable} (hmy : q.myIp ≠ 0) (now : UInt32)
    (ps : List Packet) (h : Resolved q now ip eth t s.table) (hps : ∀ p ∈ ps, p.dstIpAnno = ip) :
    sentTo (Runs.trace (handleIp q now) s ps) = ps.map (fun p => (eth, p)) ∧
      killedOf (Runs.trace (handleIp q now) s ps) = [] ∧
      Resolved q now ip eth t (Runs.final (handleIp q now) s ps).table := by
  induction ps generalizing s with
  | nil => exact ⟨rfl, rfl, h⟩
  | cons p ps ih =>
    obtain ⟨hsent, hkilled, hres⟩ := handleIp_resolved hmy now h p (hps p List.mem_cons_self)
    obtain ⟨hsent', hkilled', hres'⟩ := ih hres (fun x hx => hps x (List.mem_cons_of_mem p hx))
    rw [Runs.trace, Runs.final, sentTo_append, killedOf_append, hsent, hkilled, hsent', hkilled']
    exact ⟨rfl, rfl, hres'⟩

/-- The answer to a query, as the querier reads it. -/
theorem replyOf_answer (q : ARPQuerier) (v : List ARPResponder.Entry) (ip : IPAddress) (ena : EtherAddress)
    (hlook : ARPResponder.lookup v ip = some ena) (hgroup : ena.isGroup = false) :
    ∃ reply, ARPResponder.simpleAction v (queryFor q none ip) = .ok reply ∧
      replyOf reply = some (ip, ena) ∧ reply.length = sizeofClickEther+sizeofClickEtherArp := by
  refine ⟨arpFrame q.myEn ena 2 ena ip q.myEn q.myIp, ?_, ?_, rfl⟩
  · unfold ARPResponder.simpleAction queryFor
    dsimp only
    rw [isArp_arpFrame, ofBytes_arpFrame, if_pos rfl]
    dsimp only
    rw [hlook]
  · unfold replyOf
    dsimp only
    rw [isArp_arpFrame, ofBytes_arpFrame]
    dsimp only
    rw [hgroup]
    rfl

theorem inv_of_run (q : ARPQuerier) (inputs : List Input) :
    Inv q.arpt (Runs.final (step q) start inputs).table :=
  Runs.history_invariant (step q) start (fun _ _ s => Inv q.arpt s.table) (inv_empty q.arpt)
    (fun _ i hi => (step_accounts hi i).1) inputs

/-- What a reply sets free. Where nothing waits, it may make room for a new entry. -/
theorem handleResponse_releases {ena : EtherAddress} {reply : Bytes} (hmy : q.myIp ≠ 0)
    (ht : q.arpt.timeout.toNat < 0x80000000) (h : Inv q.arpt s.table) (now : UInt32)
    (hlen : reply.length = sizeofClickEther+sizeofClickEtherArp) (hreply : replyOf reply = some (ip, ena))
    (hgroup : ena.isGroup = false) :
    sentTo (handleResponse q now s reply).2 = (s.table.waiting ip).map (fun p => (ena, p)) ∧
      (s.table.waiting ip ≠ [] → killedOf (handleResponse q now s reply).2 = [] ∧
        ∀ ip', (handleResponse q now s reply).1.table.waiting ip' =
          if ip' = ip then [] else s.table.waiting ip') := by
  have hshort : ¬ reply.length < sizeofClickEther+sizeofClickEtherArp := by omega
  have hinv := (h.insert_spec now ip ena).1
  obtain ⟨ae, hf, hqueue⟩ := find_insert h now ip ena
  obtain ⟨htake, hempty, hwait⟩ := takeQueue_of_find hf
  replace htake : (takeQueue (insert q.arpt now s.table ip ena).1 ip).2 = s.table.waiting ip := htake.trans hqueue
  have hknown : (emptied (learn ena now ae)).known now q.arpt.timeout = true :=
    known_learn now ae (EtherAddress.isBroadcast_of_isGroup hgroup) ht
  have hto (p : Packet) (hp : p ∈ s.table.waiting ip) : p.dstIpAnno = ip := by
    have hip : (learn ena now ae).ip = ip := by simpa using List.find?_some hf
    rw [← hqueue] at hp
    rw [← hip]
    exact (hinv.core.sound _ (List.mem_of_find?_eq_some hf)).addressed p hp
  have hres₀ : Resolved q now ip ena (takeQueue (insert q.arpt now s.table ip ena).1 ip).1
      (takeQueue (insert q.arpt now s.table ip ena).1 ip).1 :=
    ⟨⟨_, hempty, rfl, hknown⟩, fun _ => rfl⟩
  have hrest := handleIps_resolved (q := q) (s := { s with
    arpResponses := s.arpResponses+1
    table := (takeQueue (insert q.arpt now s.table ip ena).1 ip).1 }) hmy now (s.table.waiting ip) hres₀ hto
  obtain ⟨hsent, hkilled, hres⟩ := hrest
  unfold handleResponse
  rw [if_neg hshort, hreply]
  dsimp only
  rw [htake, sentTo_append, sentTo_killed, hsent, killedOf_append, killedOf_killed, hkilled]
  refine ⟨rfl, fun hsome => ?_⟩
  cases hf₀ : s.table.find ip with
  | none =>
    refine absurd ?_ hsome
    unfold waiting
    rw [hf₀]
    rfl
  | some ae₀ =>
    obtain ⟨hnone, hsame⟩ := insert_of_find (c := q.arpt) hf₀ now ena
    refine ⟨by rw [hnone]; rfl, fun ip' => ?_⟩
    rw [hres.waiting, hwait, hsame]

/-- In every state that a run reaches, a query for an address has an answer from the responder of
that address. The answer sets free the packets that wait for the address, in their order and
with the address of the responder, and it moves no other packet. -/
theorem answer_releases (q : ARPQuerier) (v : List ARPResponder.Entry) (inputs : List Input) (now : UInt32)
    (ip : IPAddress) (ena : EtherAddress) (hmy : q.myIp ≠ 0) (ht : q.arpt.timeout.toNat < 0x80000000)
    (hlook : ARPResponder.lookup v ip = some ena) (hgroup : ena.isGroup = false) :
    let s := Runs.final (step q) start inputs
    ∃ reply, ARPResponder.simpleAction v (queryFor q none ip) = .ok reply ∧
      sentTo (step q s (.response now reply)).2 = (s.table.waiting ip).map (fun p => (ena, p)) ∧
      (s.table.waiting ip ≠ [] → killedOf (step q s (.response now reply)).2 = [] ∧
        ∀ ip', (step q s (.response now reply)).1.table.waiting ip' =
          if ip' = ip then [] else s.table.waiting ip') := by
  intro s
  obtain ⟨reply, hanswer, hreply, hlen⟩ := replyOf_answer q v ip ena hlook hgroup
  exact ⟨reply, hanswer, handleResponse_releases hmy ht (inv_of_run q inputs) now hlen hreply hgroup⟩

/-- The home agent learns the address of the foreign agent, for the packet that waits. -/
theorem foreign_agent_answers :
    let s := Runs.final (step Deployment.homeQuerier) start [.ip 0 Deployment.tunnelled]
    ∃ reply, ARPResponder.simpleAction
        [⟨Deployment.foreignAgentPublicAddress, 0xFFFFFFFF, Deployment.foreignAgentEther⟩]
        (queryFor Deployment.homeQuerier none Deployment.foreignAgentPublicAddress) = .ok reply ∧
      sentTo (step Deployment.homeQuerier s (.response 10 reply)).2 =
        [(Deployment.foreignAgentEther, Deployment.tunnelled)] := by
  intro s
  have hwaits : s.table.waiting Deployment.foreignAgentPublicAddress = [Deployment.tunnelled] := by
    decide +kernel
  obtain ⟨reply, hanswer, hsent, -⟩ := answer_releases Deployment.homeQuerier
    [⟨Deployment.foreignAgentPublicAddress, 0xFFFFFFFF, Deployment.foreignAgentEther⟩]
    [.ip 0 Deployment.tunnelled] 10 Deployment.foreignAgentPublicAddress Deployment.foreignAgentEther
    (by decide) (by decide) (by decide) (by decide)
  refine ⟨reply, hanswer, hsent.trans ?_⟩
  rw [hwaits]
  rfl

end ARPQuerier

end MobileIP
