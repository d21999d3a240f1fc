import MobileIP.Agreement

/-! The way home of the mobile node. Where the node counts itself home, waits for nothing and
nothing is in flight, the last request that the home agent accepted decides whether a binding
is left. -/
namespace MobileIP

open LittleEndian VectorSearch

namespace Network

def Event.acceptedRequest : Event → Option RegreqH
  | .accepted req => some req
  | _ => none

theorem acceptedRequest_homeEvents (ha : HA) (p : Packet) :
    (homeEvents ha p).filterMap Event.acceptedRequest =
      if RegRep.accepts ha p then [RegRep.request p] else [] := by
  unfold homeEvents
  dsimp only
  split_ifs <;> rfl

theorem acceptedRequest_requestedEvent (sent : List Packet) :
    (sent.map requestedEvent).filterMap Event.acceptedRequest = [] := by
  rw [List.filterMap_eq_nil_iff]
  intro e he
  obtain ⟨p, -, rfl⟩ := List.mem_map.mp he
  rfl

/-- The home agent changes by the requests that it accepts, and by nothing else. -/
theorem ha_transition (relay : Relay) (w w' : World) (i : Input) (new : List Event)
    (ht : Transition relay w i w' new) :
    w'.ha = (new.filterMap Event.acceptedRequest).foldl RegRep.updateBindings w.ha := by
  cases ht with
  | toHome j p hm =>
    rw [acceptedRequest_homeEvents]
    change (RegRep.push w.ha p).1 = _
    rw [RegRep.push_fst]
    split_ifs <;> rfl
  | advertise draw adv =>
    change w.ha = ((outputs 0 _).map requestedEvent |>.filterMap Event.acceptedRequest).foldl _ _
    rw [acceptedRequest_requestedEvent]
    rfl
  | tickNode draw =>
    unfold tickNode
    split_ifs
    · change w.ha = ((outputs 0 _).map requestedEvent |>.filterMap Event.acceptedRequest).foldl _ _
      rw [acceptedRequest_requestedEvent]
      rfl
    · rfl
  | toNode j p hm =>
    unfold toNode
    dsimp only
    split_ifs <;> rfl
  | idle | store | toRelay | lose | unreachable | tickRequests | tickRelay => rfl

theorem ha_run (c : Config) (inputs : List Input) :
    (reached c inputs).ha =
      ((events c inputs).filterMap Event.acceptedRequest).foldl RegRep.updateBindings
        ⟨c.haAddress, []⟩ := by
  apply Runs.history_invariant (step c.relay) (start c) (fun _ es w =>
    w.ha = (es.filterMap Event.acceptedRequest).foldl RegRep.updateBindings ⟨c.haAddress, []⟩)
  · rfl
  · intro inputs i ih
    rw [ha_transition c.relay _ _ i _ (step_transition c.relay _ i), List.filterMap_append,
      List.foldl_append, ih]

/-- The node came home by a deregistration that it sent to its gateway, and it has not connected
since. -/
def CameHome (c : Config) (es : List Event) : Prop :=
  ∃ before req after, es = before ++ .requested req c.gateway :: after ∧
    req.homeAddress = c.homeAddress ∧ req.careOfAddress = c.homeAddress ∧
    ∀ identification, Event.connected identification ∉ after

theorem CameHome.append {c : Config} {es : List Event} (h : CameHome c es) (new : List Event)
    (hnew : ∀ identification, Event.connected identification ∉ new) : CameHome c (es ++ new) := by
  obtain ⟨before, req, after, rfl, hhome, hco, hafter⟩ := h
  refine ⟨before, req, after ++ new, by simp, hhome, hco, ?_⟩
  intro identification hmem
  rcases List.mem_append.mp hmem with hmem | hmem
  · exact hafter identification hmem
  · exact hnew identification hmem

/-- The home agent accepts only what the mobile node has sent. -/
def Issued (before : List Event) : Event → Prop
  | .accepted req => ∃ dest, Event.requested req dest ∈ before
  | _ => True

/-- What holds of the registration messages in every run, whatever the agents answer. -/
structure Traced (c : Config) (es : List Event) (foreignAgent : IPAddress)
    (net : List Message) : Prop where
  own : ∀ req dest, Event.requested req dest ∈ es → req.homeAddress = c.homeAddress
  net : ∀ m ∈ net, Carries (fun _ => True) es m
  issued : Runs.Preceded Issued es
  -- `_foreign_agent` is zero before anything has happened
  home : foreignAgent = c.gateway → c.gateway = 0 ∨ CameHome c es

section Traced

variable {c : Config} {es : List Event} {foreignAgent : IPAddress} {net : List Message}

theorem Traced.next (h : Traced c es foreignAgent net) (new : List Event)
    (foreignAgent' : IPAddress) (net' : List Message)
    (hown : ∀ req dest, Event.requested req dest ∈ new → req.homeAddress = c.homeAddress)
    (hnet : ∀ m ∈ net', Carries (fun _ => True) (es ++ new) m)
    (hissued : Runs.Preceded Issued (es ++ new))
    (hhome : foreignAgent' = c.gateway →
      (foreignAgent = c.gateway ∧ ∀ identification, Event.connected identification ∉ new) ∨
        CameHome c (es ++ new)) :
    Traced c (es ++ new) foreignAgent' net' where
  own := by
    intro req dest hmem
    rcases List.mem_append.mp hmem with hmem | hmem
    · exact h.own req dest hmem
    · exact hown req dest hmem
  net := hnet
  issued := hissued
  home := by
    intro hfa
    rcases hhome hfa with ⟨hold, hnew⟩ | hcame
    · exact (h.home hold).imp id (fun hcame => hcame.append new hnew)
    · exact Or.inr hcame

/-- A step that reports nothing and leaves the node's agent as it is. -/
theorem Traced.quiet (h : Traced c es foreignAgent net) (net' : List Message)
    (hnet : ∀ m ∈ net', Carries (fun _ => True) (es ++ []) m) :
    Traced c (es ++ []) foreignAgent net' := by
  apply h.next
  · simp
  · exact hnet
  · simpa using h.issued
  · exact fun hfa => Or.inl ⟨hfa, by simp⟩

theorem Traced.advertise {mn : MNInfo} (h : Traced c es mn.foreignAgent net)
    (hg : mn.gateway = c.gateway) (hh : mn.homeAddress = c.homeAddress) (draw : Draw)
    (adv : Packet) :
    let r := RegReq.push mn draw adv
    let new := (outputs 0 r.2).map requestedEvent
    r.1.gateway = c.gateway ∧ r.1.homeAddress = c.homeAddress ∧
      ∀ net', (∀ m ∈ net', Carries (fun _ => True) (es ++ new) m) →
        Traced c (es ++ new) r.1.foreignAgent net' := by
  dsimp only
  rcases push_sends mn draw adv with
    ⟨hmn, hout⟩ | ⟨mn₁, dest, lifetime, co, hmn, hout, hev, hgw, hhome, -, hagent⟩
  · rw [hmn, hout]
    exact ⟨hg, hh, h.quiet⟩
  · let rr := RegReq.requestHeader mn₁ draw lifetime co
    have hrr : rr.homeAddress = c.homeAddress := hhome.trans hh
    rw [hmn, hout, List.map_singleton, hev]
    refine ⟨hgw.trans hg, hrr, fun net' hnet => h.next _ _ net' ?_ hnet ?_ ?_⟩
    · intro req dest' hmem
      obtain ⟨rfl, -⟩ := Event.requested.inj (List.mem_singleton.mp hmem)
      exact hrr
    · exact h.issued.concat _ trivial
    · intro hfa
      rcases hagent with hsame | ⟨-, hdest, hco⟩
      · exact Or.inl ⟨hsame.symm.trans hfa, by simp⟩
      · -- the node changes its agent with the deregistration that it sends
        right
        refine ⟨es, rr, [], ?_, hrr, hco.trans hh, by simp⟩
        rw [hdest, hg]

end Traced

def Provenance (c : Config) (es : List Event) (w : World) : Prop :=
  w.mn.gateway = c.gateway ∧ w.mn.homeAddress = c.homeAddress ∧
    Traced c es w.mn.foreignAgent w.net

/-- `RegNode` changes its agent only where it connects, and then not to the gateway. -/
theorem push_foreignAgent (node : RegNode) (mn : MNInfo) (p : Packet) :
    ((RegNode.push node mn p).2.1.foreignAgent = mn.foreignAgent ∧ ¬ setsConnected node mn p) ∨
      (RegNode.push node mn p).2.1.foreignAgent ≠ mn.gateway := by
  unfold setsConnected RegNode.push
  dsimp only
  cases hf : firstMatch (RegNode.answers (ClickIp.ofBytes p.data)
      (ClickUdp.ofBytes (p.data.drop sizeofClickIp))) mn.pending with
  | none => exact Or.inl ⟨rfl, Bool.false_ne_true⟩
  | some x =>
    obtain ⟨i, r⟩ := x
    have hdest : r.dest = (ClickIp.ofBytes p.data).ipSrc :=
      ((RegNode.answers_iff _ _ r).mp (firstMatch_getElem? _ mn.pending i r hf).2).1
    dsimp only
    split_ifs with hsum hid hcode hsrc
    · exact Or.inl ⟨rfl, not_false⟩
    · exact Or.inl ⟨rfl, not_false⟩
    · right
      change r.dest ≠ mn.gateway
      rw [hdest]
      exact hsrc
    · exact Or.inl ⟨rfl, not_false⟩
    · exact Or.inl ⟨rfl, not_false⟩

theorem issued_homeEvents {es : List Event} (h : Runs.Preceded Issued es) (ha : HA) (p : Packet)
    (ok : RegrepH → Prop) (hp : Carries ok es (.request p)) :
    Runs.Preceded Issued (es ++ homeEvents ha p) := by
  obtain ⟨ip, udp, req, a, dest, rfl, -, -, -, hreq⟩ := hp
  have hrequest : RegRep.request (sealedPacket ip udp req.toBytes a) = req :=
    RegreqH.ofBytes_only req
  unfold homeEvents
  dsimp only
  rw [hrequest]
  split_ifs
  · rw [List.append_cons]
    apply (h.concat (.accepted req) ⟨dest, hreq⟩).append
    intro e he before
    rw [List.mem_singleton.mp he]
    trivial
  · exact h.concat (.accepted req) ⟨dest, hreq⟩
  · rw [List.append_nil]
    exact h

theorem traced_transition {c : Config} {es : List Event} {w w' : World} {relay : Relay} {i : Input}
    {new : List Event} (h : Provenance c es w) (ht : Transition relay w i w' new) :
    ∀ m ∈ w'.net, Carries (fun _ => True) (es ++ new) m := by
  refine carries_transition _ (fun _ _ => trivial) ht ?_ (fun _ _ _ _ _ _ _ _ => trivial) ?_
  · exact fun m hm => (h.2.2.net m hm).mono (fun _ hok => hok) (List.subset_append_left _ _)
  · rintro p hp - q hq
    obtain ⟨ip, udp, req, a, dest, rfl, -, -, htype, -⟩ := h.2.2.net _ hp
    rw [outputs_toHome w.ha ip udp req a htype, List.mem_singleton] at hq
    rw [hq]
    exact carries_reply _ _ _ _ _ _ rfl rfl trivial

/-- No step needs to be sound for this. -/
theorem provenance_transition {c : Config} {es : List Event} {w : World} (h : Provenance c es w)
    (relay : Relay) (i : Input) (w' : World) (new : List Event)
    (ht : Transition relay w i w' new) : Provenance c (es ++ new) w' := by
  have hnet := traced_transition h ht
  obtain ⟨hg, hh, htraced⟩ := h
  cases ht with
  | idle | store | toRelay | lose | unreachable | tickRequests | tickRelay =>
    exact ⟨hg, hh, htraced.quiet _ hnet⟩
  | advertise draw adv =>
    obtain ⟨hgateway, hhome, hkeeps⟩ := htraced.advertise hg hh draw adv
    exact ⟨hgateway, hhome, hkeeps _ hnet⟩
  | toHome j p hm =>
    have hnot : ∀ e ∈ homeEvents w.ha p, (∀ req dest, e ≠ .requested req dest) ∧
        ∀ identification, e ≠ .connected identification := by
      intro e he
      simp only [homeEvents] at he
      split_ifs at he
      · rcases List.mem_pair.mp he with rfl | rfl <;> exact ⟨by simp, by simp⟩
      · rw [List.mem_singleton.mp he]
        exact ⟨by simp, by simp⟩
      · cases he
    refine ⟨hg, hh, htraced.next _ _ _ ?_ hnet (issued_homeEvents htraced.issued w.ha p _
      (htraced.net _ (List.mem_of_getElem? hm))) ?_⟩
    · exact fun req dest hmem => absurd rfl ((hnot _ hmem).1 req dest)
    · exact fun hfa => Or.inl ⟨hfa, fun identification hmem => (hnot _ hmem).2 identification rfl⟩
  | toNode j p hm =>
    obtain ⟨hg', hh', -⟩ := RegNode.push_frame w.node w.mn p
    refine ⟨hg'.trans hg, hh'.trans hh, htraced.next _ _ _ ?_ hnet ?_ ?_⟩
    · intro req dest hmem
      simp only [toNode] at hmem
      split_ifs at hmem <;> simp at hmem
    · apply htraced.issued.append
      intro e he before
      simp only [toNode] at he
      split_ifs at he
      · rw [List.mem_singleton.mp he]
        trivial
      · cases he
    · intro hfa
      rcases push_foreignAgent w.node w.mn p with ⟨hsame, hnot⟩ | hne
      · refine Or.inl ⟨hsame.symm.trans hfa, ?_⟩
        intro identification hmem
        simp only [toNode, if_neg hnot] at hmem
        cases hmem
      · exact absurd (hfa.trans hg.symm) hne
  | tickNode draw =>
    unfold tickNode at hnet ⊢
    by_cases htimer : w.node.timer = true
    · rw [if_pos htimer] at hnet ⊢
      rcases RegNode.runTimer_cases w.node w.mn draw with ⟨mn', hr, -, hg', hh', hfa⟩ | ⟨adv, conn, -, hr⟩
      · rw [hr] at hnet ⊢
        rw [← hfa] at htraced
        exact ⟨hg'.trans hg, hh'.trans hh, htraced.quiet _ hnet⟩
      · rw [hr] at hnet ⊢
        have hold : Traced c es { w.mn with lifetime := w.mn.lifetime-1 }.foreignAgent w.net := htraced
        obtain ⟨hgateway, hhome, hkeeps⟩ := hold.advertise hg hh draw adv
        exact ⟨hgateway, hhome, hkeeps _ hnet⟩
    · rw [if_neg htimer] at hnet ⊢
      exact ⟨hg, hh, htraced.quiet _ hnet⟩

theorem provenance_run (c : Config) (inputs : List Input) :
    Provenance c (events c inputs) (reached c inputs) := by
  apply Runs.history_invariant (step c.relay) (start c) (fun _ es w => Provenance c es w)
  · refine ⟨rfl, rfl, by simp, by simp [start], Runs.preceded_nil Issued, ?_⟩
    intro hfa
    exact Or.inl hfa.symm
  · intro inputs i h
    exact provenance_transition h c.relay i _ _ (step_transition c.relay _ i)

theorem own_accepted {c : Config} {es : List Event} {w : World} (h : Provenance c es w)
    (req : RegreqH) (hreq : Event.accepted req ∈ es) : req.homeAddress = c.homeAddress := by
  obtain ⟨before, after, rfl⟩ := List.append_of_mem hreq
  obtain ⟨dest, hsent⟩ := h.2.2.issued before _ after rfl
  exact h.2.2.own req dest (List.mem_append_left _ hsent)

/-- The last request that the home agent accepted is a deregistration that the mobile node had
sent. -/
def DeregisteredLast (c : Config) (es : List Event) : Prop :=
  ∃ before req after, es = before ++ .accepted req :: after ∧
    (∃ dest, Event.requested req dest ∈ before) ∧ req.homeAddress = c.homeAddress ∧
    req.careOfAddress = c.homeAddress ∧ ∀ later, Event.accepted later ∉ after

theorem acceptedRequest_eq_some_iff (e : Event) (req : RegreqH) :
    e.acceptedRequest = some req ↔ e = .accepted req := by
  cases e <;> simp [Event.acceptedRequest]

theorem filterMap_acceptedRequest_eq_nil_iff (es : List Event) :
    es.filterMap Event.acceptedRequest = [] ↔ ∀ req, Event.accepted req ∉ es := by
  rw [List.filterMap_eq_nil_iff]
  constructor
  · intro h req hreq
    have hnone := h _ hreq
    cases hnone
  · intro h e he
    cases hr : e.acceptedRequest with
    | none => rfl
    | some req =>
      rw [(acceptedRequest_eq_some_iff e req).mp hr] at he
      exact absurd he (h req)

theorem no_binding_iff (c : Config) (inputs : List Input) :
    (∀ mi ∈ (reached c inputs).ha.mobilityBindings, mi.address ≠ c.homeAddress) ↔
      (∀ req, Event.accepted req ∉ events c inputs) ∨ DeregisteredLast c (events c inputs) := by
  have hprov := provenance_run c inputs
  let rs := (events c inputs).filterMap Event.acceptedRequest
  have hown : ∀ req ∈ rs, req.homeAddress = c.homeAddress := by
    intro req hreq
    obtain ⟨e, he, hr⟩ := List.mem_filterMap.mp hreq
    rw [(acceptedRequest_eq_some_iff e req).mp hr] at he
    exact own_accepted hprov req he
  -- every request that was accepted is the node's
  have hall : rs.filter (fun req => req.homeAddress == c.homeAddress) = rs := by
    rw [List.filter_eq_self]
    exact fun req hreq => beq_iff_eq.mpr (hown req hreq)
  rw [← HA.careOf_eq_nil_iff, ha_run, HA.careOf_foldl]
  refine (visits_eq_nil_iff c.homeAddress rs).trans ?_
  rw [hall]
  constructor
  · intro hlast
    cases hl : rs.getLast? with
    | none => exact Or.inl ((filterMap_acceptedRequest_eq_nil_iff _).mp (List.getLast?_eq_none_iff.mp hl))
    | some req =>
      have hco := hlast req hl
      have hhome := hown req (List.mem_of_getLast? hl)
      obtain ⟨before, e, after, hes, he, hafter⟩ :=
        (Runs.getLast?_filterMap_eq_some_iff _ _ _).mp hl
      rw [(acceptedRequest_eq_some_iff e req).mp he] at hes
      refine Or.inr ⟨before, req, after, hes, hprov.2.2.issued _ _ _ hes, hhome,
        hco.symm.trans hhome, ?_⟩
      rw [← filterMap_acceptedRequest_eq_nil_iff]
      exact List.filterMap_eq_nil_iff.mpr hafter
  · rintro (hnone | ⟨before, req, after, hes, -, hhome, hco, hafter⟩) r hr
    · have hnil : rs = [] := (filterMap_acceptedRequest_eq_nil_iff _).mpr hnone
      rw [hnil] at hr
      cases hr
    · have hlast : rs.getLast? = some req := by
        refine (Runs.getLast?_filterMap_eq_some_iff _ _ _).mpr ⟨before, _, after, hes, rfl, ?_⟩
        exact List.filterMap_eq_nil_iff.mp ((filterMap_acceptedRequest_eq_nil_iff after).mpr hafter)
      rw [hlast] at hr
      rw [← Option.some.inj hr, hhome, hco]

/-- The node counts itself home and waits for nothing, and no request is in flight. -/
structure Resting (w : World) : Prop where
  home : w.mn.foreignAgent = w.mn.gateway
  pending : w.mn.pending = []
  net : ∀ p, Message.request p ∉ w.net

theorem push_silent (mn : MNInfo) (draw : Draw) (adv : Packet)
    (h : ∀ req dest, Event.requested req dest ∉
      (outputs 0 (RegReq.push mn draw adv).2).map requestedEvent) :
    (RegReq.push mn draw adv).1 = mn ∧ outputs 0 (RegReq.push mn draw adv).2 = [] := by
  rcases push_sends mn draw adv with hsilent | ⟨mn₁, dest, lifetime, co, -, hout, hev, -⟩
  · exact hsilent
  · rw [hout, List.map_singleton, hev] at h
    exact absurd (List.mem_singleton_self _) (h _ _)

theorem resting_tickNode {w : World} (h : Resting w) (draw : Draw)
    (hnew : ∀ req dest, Event.requested req dest ∉ (tickNode w draw).2) :
    Resting (tickNode w draw).1 ∧ (tickNode w draw).1.ha = w.ha := by
  unfold tickNode at hnew ⊢
  by_cases ht : w.node.timer = true
  · rw [if_pos ht] at hnew ⊢
    rcases RegNode.runTimer_cases w.node w.mn draw with
      ⟨mn', hr, hp, hg, -, hfa⟩ | ⟨adv, conn, -, hr⟩
    · rw [hr]
      refine ⟨⟨hfa.trans (h.home.trans hg.symm), hp.trans h.pending, ?_⟩, rfl⟩
      simpa [sendRequests] using h.net
    · rw [hr] at hnew ⊢
      obtain ⟨hmn, hout⟩ := push_silent { w.mn with lifetime := w.mn.lifetime-1 } draw adv hnew
      dsimp only
      rw [hmn, hout]
      exact ⟨⟨h.home, h.pending, by simpa [sendRequests] using h.net⟩, rfl⟩
  · rw [if_neg ht]
    exact ⟨h, rfl⟩

/-- While the node sends nothing, it stays home and the home agent's bindings stay what they are. -/
theorem resting_transition {c : Config} {es : List Event} {w : World} (h : Resting w)
    (hprov : Provenance c es w) (relay : Relay) (i : Input) (w' : World) (new : List Event)
    (ht : Transition relay w i w' new) (hnew : ∀ req dest, Event.requested req dest ∉ new) :
    Resting w' ∧ w'.ha = w.ha := by
  have hrest (j : ℕ) : ∀ p, Message.request p ∉ w.net.eraseIdx j :=
    fun p hp => h.net p (List.mem_of_mem_eraseIdx hp)
  cases ht with
  | idle => exact ⟨h, rfl⟩
  | advertise draw adv =>
    obtain ⟨hmn, hout⟩ := push_silent w.mn draw adv hnew
    rw [hmn, hout]
    exact ⟨⟨h.home, h.pending, by simpa [sendRequests] using h.net⟩, rfl⟩
  | store advertisements => exact ⟨⟨h.home, h.pending, h.net⟩, rfl⟩
  | toRelay j rand ether m hm =>
    have hmem : m ∈ w.net := List.mem_of_getElem? hm
    obtain ⟨-, -, hquiet⟩ := carries_toRelay (fun _ => True) (fun _ _ => trivial) es relay w.fa rand
      ether m (hprov.2.2.net m hmem) (fun _ _ _ _ => trivial)
    have hout := hquiet (fun p hp => h.net p (hp ▸ hmem))
    refine ⟨⟨h.home, h.pending, ?_⟩, rfl⟩
    intro p hp
    simp only [toRelay, hout, List.map_nil, List.nil_append, List.mem_append, List.mem_map] at hp
    rcases hp with hp | ⟨q, -, hq⟩
    · exact hrest j p hp
    · cases hq
  | toHome j p hm => exact absurd (List.mem_of_getElem? hm) (h.net p)
  | toNode j p hm =>
    have hpush : (RegNode.push w.node w.mn p).2.1 = w.mn := by
      unfold RegNode.push
      rw [h.pending]
      rfl
    refine ⟨⟨?_, ?_, hrest j⟩, rfl⟩
    · change (RegNode.push w.node w.mn p).2.1.foreignAgent = (RegNode.push w.node w.mn p).2.1.gateway
      rw [hpush]
      exact h.home
    · change (RegNode.push w.node w.mn p).2.1.pending = []
      rw [hpush]
      exact h.pending
  | lose j => exact ⟨⟨h.home, h.pending, hrest j⟩, rfl⟩
  | unreachable j p q hm hq => exact absurd (List.mem_of_getElem? hm) (h.net q)
  | tickRequests =>
    refine ⟨⟨h.home, ?_, h.net⟩, rfl⟩
    change RegReq.agePending w.mn.pending = []
    rw [h.pending]
    rfl
  | tickNode draw => exact resting_tickNode h draw hnew
  | tickRelay =>
    refine ⟨⟨h.home, h.pending, ?_⟩, rfl⟩
    intro p hp
    rcases List.mem_append.mp hp with hp | hp
    · exact h.net p hp
    · obtain ⟨q, -, hq⟩ := List.mem_map.mp hp
      cases hq

theorem resting_run (c : Config) (inputs : List Input) (h : Resting (reached c inputs))
    (more : List Input)
    (hnew : ∀ req dest, Event.requested req dest ∉ Runs.trace (step c.relay) (reached c inputs) more) :
    Resting (reached c (inputs ++ more)) ∧
      (reached c (inputs ++ more)).ha = (reached c inputs).ha := by
  have hrun := Runs.history_invariant (step c.relay) (reached c inputs)
    (fun is new w => (∀ req dest, Event.requested req dest ∉ new) →
      w = reached c (inputs ++ is) ∧ Resting w ∧ w.ha = (reached c inputs).ha) ?_ ?_ more
  · obtain ⟨hw, hresting, hha⟩ := hrun hnew
    rw [← hw]
    exact ⟨hresting, hha⟩
  · intro _
    rw [List.append_nil]
    exact ⟨rfl, h, rfl⟩
  · intro is i ih hnew
    obtain ⟨hw, hresting, hha⟩ := ih (fun req dest hmem => hnew req dest (List.mem_append_left _ hmem))
    have hprov := provenance_run c (inputs ++ is)
    rw [← hw] at hprov
    obtain ⟨hnext, hsame⟩ := resting_transition hresting hprov c.relay i _ _
      (step_transition c.relay _ i) (fun req dest hmem => hnew req dest (List.mem_append_right _ hmem))
    refine ⟨?_, hnext, hsame.trans hha⟩
    rw [hw, ← List.append_assoc]
    exact (Runs.final_concat (step c.relay) (start c) (inputs ++ is) i).symm

/-- Home agreement. Where the mobile node counts itself home, waits for nothing and no
registration message is in flight, it has come home by a deregistration; the home agent holds no
binding for it exactly if the last of the node's requests that reached it and was accepted is a
deregistration, or none was; and this stays so as long as the node sends nothing. -/
theorem home_agreement_iff (c : Config) (inputs : List Input)
    (hhome : (reached c inputs).mn.foreignAgent = (reached c inputs).mn.gateway)
    (hpending : (reached c inputs).mn.pending = []) (hnet : (reached c inputs).net = []) :
    (c.gateway ≠ 0 → CameHome c (events c inputs)) ∧
    ((∀ mi ∈ (reached c inputs).ha.mobilityBindings, mi.address ≠ c.homeAddress) ↔
      (∀ req, Event.accepted req ∉ events c inputs) ∨ DeregisteredLast c (events c inputs)) ∧
    ∀ more, (∀ req dest,
        Event.requested req dest ∉ Runs.trace (step c.relay) (reached c inputs) more) →
      (reached c (inputs ++ more)).mn.foreignAgent = (reached c (inputs ++ more)).mn.gateway ∧
      (reached c (inputs ++ more)).ha = (reached c inputs).ha := by
  have hprov := provenance_run c inputs
  have hresting : Resting (reached c inputs) := ⟨hhome, hpending, by simp [hnet]⟩
  refine ⟨?_, no_binding_iff c inputs, ?_⟩
  · intro hgateway
    exact (hprov.2.2.home (hhome.trans hprov.1)).resolve_left hgateway
  · intro more hnew
    obtain ⟨hlater, hha⟩ := resting_run c inputs hresting more hnew
    exact ⟨hlater.home, hha⟩

theorem home_agreement_deployed :
    let inputs := Deployment.homecomingRun ⟨4711, 1⟩ ⟨4712, 2⟩
    CameHome Deployment.config (events Deployment.config inputs) ∧
      DeregisteredLast Deployment.config (events Deployment.config inputs) ∧
      (reached Deployment.config (inputs ++ [.tickRelay])).ha.mobilityBindings = [] := by
  intro inputs
  obtain ⟨hcame, hiff, hstays⟩ := home_agreement_iff Deployment.config inputs (by decide +kernel)
    (by decide +kernel) (by decide +kernel)
  refine ⟨hcame (by decide), (hiff.mp (by decide +kernel)).resolve_left ?_, ?_⟩
  · intro hnone
    have haccepted : (events Deployment.config inputs).filterMap Event.acceptedRequest ≠ [] := by
      decide +kernel
    exact haccepted ((filterMap_acceptedRequest_eq_nil_iff _).mpr hnone)
  · have hquiet : Runs.trace (step Deployment.config.relay) (reached Deployment.config inputs)
        [.tickRelay] = [] := rfl
    have hsame := (hstays [.tickRelay] (by simp [hquiet])).2
    rw [hsame]
    decide +kernel

/-- The mobile node is home and waits for nothing, nothing is in flight, and the home
agent still has its binding. -/
theorem binding_outlives_lost_deregistration :
    let w := reached Deployment.config (Deployment.lostDeregistrationRun ⟨4711, 1⟩ ⟨4712, 2⟩)
    w.mn.foreignAgent = w.mn.gateway ∧ w.mn.pending = [] ∧ w.net = [] ∧
      ¬ ∀ mi ∈ w.ha.mobilityBindings, mi.address ≠ w.mn.homeAddress := by
  decide +kernel

end Network

end MobileIP
