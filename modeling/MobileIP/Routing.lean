import MobileIP.RouteTable

/-! What the routing table stands for: a finite map from prefixes to gateways and outputs, in
which a lookup finds the most specific route for an address. -/
namespace MobileIP

open VectorSearch

namespace LinearIPLookup

/-- The invariant of the vector of routes. Its first two parts are those that `check` tests. -/
structure TableInv (noutputs : ℕ) (t : List IPRoute) : Prop where
  next : ∀ (i j : ℕ) (e e' : IPRoute), t[i]? = some e → t[j]? = some e' → i < j → j < e.extra →
    e.real = true → e'.real = true → e.containsRoute e' = false
  nodup : ∀ (i j : ℕ) (e e' : IPRoute), t[i]? = some e → t[j]? = some e' → e.real = true →
    e.holds e' = true → i = j
  dead : ∀ e ∈ t, e.real = false → e.addr = 0 ∧ e.mask = 0xFFFFFFFF
  normal : ∀ e ∈ t, e.addr &&& e.mask = e.addr
  port : ∀ e ∈ t, e.real = true → 0 ≤ e.port ∧ e.port < noutputs

/-- A route as `run_command` lets it through. -/
structure Valid (noutputs : ℕ) (r : IPRoute) : Prop where
  normal : r.addr &&& r.mask = r.addr
  port : 0 ≤ r.port ∧ r.port < noutputs

theorem Valid.real {noutputs : ℕ} {r : IPRoute} (h : Valid noutputs r) : r.real = true := by
  have hport := h.port
  unfold IPRoute.real
  rw [decide_eq_true_iff]
  omega

theorem tableInv_nil (noutputs : ℕ) : TableInv noutputs [] := by
  constructor <;> simp

variable {noutputs : ℕ} {t : List IPRoute}

theorem TableInv.contains_real (h : TableInv noutputs t) (a : IPAddress)
    (ha : a ≠ 0 ∨ ∀ e ∈ t, e.real = true) (e : IPRoute) (he : e ∈ t) (hc : e.contains a = true) :
    e.real = true := by
  rcases ha with ha | ha
  · by_contra hreal
    exact ha (e.contains_zero_of_killed a (h.dead e he (Bool.not_eq_true _ ▸ hreal)) hc)
  · exact ha e he

/-- Two routes for the same address with the same mask are the same route. -/
theorem TableInv.eq_of_mask_eq (h : TableInv noutputs t) (a : IPAddress) (i j : ℕ) (e e' : IPRoute)
    (hi : t[i]? = some e) (hj : t[j]? = some e') (hr : e.real = true) (hr' : e'.real = true)
    (hc : e.contains a = true) (hc' : e'.contains a = true) (hm : e'.mask = e.mask) : i = j := by
  apply h.nodup i j e e' hi hj hr
  have hn := h.normal e (List.mem_of_getElem? hi)
  have hn' := h.normal e' (List.mem_of_getElem? hj)
  have hm1 := (matchesPrefix_iff a e.addr e.mask).mp hc
  have hm2 := (matchesPrefix_iff a e'.addr e'.mask).mp hc'
  have haddr : e'.addr = e.addr := by
    rw [← hn', ← hn, ← hm1, ← hm2, hm]
  unfold IPRoute.holds IPRoute.samePrefix
  rw [hr', haddr, hm, beq_self_eq_true, beq_self_eq_true]
  rfl

theorem lookupEntry_eq_none_iff (t : List IPRoute) (a : IPAddress) :
    lookupEntry t a = none ↔ ∀ e ∈ t, e.contains a = false := by
  unfold lookupEntry
  cases hm : firstMatch (fun r => r.contains a) t with
  | none => simpa using (firstMatch_eq_none_iff _ t).mp hm
  | some found =>
    have hget := firstMatch_getElem? _ t found.1 found.2 hm
    simp only [reduceCtorEq, false_iff]
    intro hall
    have hfalse := hall found.2 (List.mem_of_getElem? hget.1)
    rw [hget.2] at hfalse
    cases hfalse

/-- The entry that a lookup finds is a route for the address, and no other route for it has a
mask that is as specific. -/
theorem TableInv.lookupEntry_best (h : TableInv noutputs t) (a : IPAddress)
    (ha : a ≠ 0 ∨ ∀ e ∈ t, e.real = true) (k : ℕ) (hk : lookupEntry t a = some k) :
    ∃ e, t[k]? = some e ∧ e.real = true ∧ e.contains a = true ∧
      ∀ (j : ℕ) (e' : IPRoute), t[j]? = some e' → e'.real = true → e'.contains a = true →
        maskAsSpecific e'.mask e.mask = true → j = k := by
  unfold lookupEntry at hk
  cases hm : firstMatch (fun r => r.contains a) t with
  | none =>
    rw [hm] at hk
    cases hk
  | some found =>
    obtain ⟨i, r⟩ := found
    obtain ⟨pre, post, ht, hlen, hrc, hpre⟩ := firstMatch_split _ t i r hm
    have hi : t[i]? = some r := (firstMatch_getElem? _ t i r hm).1
    rw [hm] at hk
    dsimp only at hk
    let hit : ℕ → Bool := fun j => (routeAt t j).contains a
    let le : ℕ → ℕ → Bool := fun found j => maskAsSpecific (routeAt t j).mask (routeAt t found).mask
    let js := List.range' r.extra (t.length-r.extra)
    have hk : Climb.climb hit le js i = k := Option.some.inj hk
    have hrefl : ∀ i, le i i = true := fun i => maskAsSpecific_refl _
    have htrans : ∀ i j k, le i j = true → le j k = true → le i k = true :=
      fun i j k hij hjk => maskAsSpecific_trans _ _ _ hjk hij
    have hri : routeAt t i = r := routeAt_of_getElem? t i r hi
    -- the result stands in the table and is a route for the address
    obtain ⟨e, he, hec⟩ : ∃ e, t[k]? = some e ∧ e.contains a = true := by
      rcases Climb.climb_mem hit le js i with hsame | ⟨hmem, hhit⟩
      · rw [hk] at hsame
        rw [hsame]
        exact ⟨r, hi, hrc⟩
      · rw [hk] at hmem hhit
        have hb := List.mem_range'_1.mp hmem
        have hlt : k < t.length := by omega
        refine ⟨t[k], List.getElem?_eq_getElem hlt, ?_⟩
        rw [← routeAt_of_getElem? t k _ (List.getElem?_eq_getElem hlt)]
        exact hhit
    have hreal := h.contains_real a ha e (List.mem_of_getElem? he) hec
    have hke : routeAt t k = e := routeAt_of_getElem? t k e he
    have hup : maskAsSpecific e.mask r.mask = true := by
      have hle := Climb.le_climb hit le hrefl htrans js i
      rw [hk] at hle
      simpa only [le, hri, hke] using hle
    refine ⟨e, he, hreal, hec, ?_⟩
    intro j e' hj hr' hc' hm'
    have hje : routeAt t j = e' := routeAt_of_getElem? t j e' hj
    -- enough that the two masks agree
    suffices hback : maskAsSpecific e.mask e'.mask = true from
      (h.eq_of_mask_eq a k j e e' he hj hreal hr' hec hc'
        (maskAsSpecific_antisymm _ _ hm' hback)).symm
    have hjlt := (List.getElem?_eq_some_iff.mp hj).1
    rcases Nat.lt_trichotomy j i with hlt | rfl | hgt
    · -- before the first match there is none
      have hmem : e' ∈ pre := by
        rw [ht, List.getElem?_append_left (by omega)] at hj
        exact List.mem_of_getElem? hj
      rw [hpre e' hmem] at hc'
      cases hc'
    · rw [Option.some.inj (hj.symm.trans hi)]
      exact hup
    · rcases Nat.lt_or_ge j r.extra with hskip | hscan
      · -- an entry that the pointer skips is no more specific than the first match
        have hnot := h.next i j r e' hi hj hgt hskip
          (h.contains_real a ha r (List.mem_of_getElem? hi) hrc) hr'
        have hyes := r.containsRoute_of_contains e' a hrc hc' (maskAsSpecific_trans _ _ _ hm' hup)
        rw [hnot] at hyes
        cases hyes
      · have hmem : j ∈ js := List.mem_range'_1.mpr ⟨hscan, by omega⟩
        have hmax := Climb.climb_maximal hit le hrefl htrans js i j hmem
          (by simpa only [hit, hje] using hc') (by simpa only [le, hk, hke, hje] using hm')
        simpa only [le, hk, hke, hje] using hmax

theorem getElem?_place (t : List IPRoute) (found : ℕ) (r : IPRoute) (hf : found ≤ t.length) (i : ℕ) :
    (place t found r)[i]? =
      if i < found then t[i]?.map (repoint found r)
      else if i = found then some { r with extra := nextPointer t found r }
      else t[i]? := by
  have hlen : ((t.take found).map (repoint found r)).length = found := by
    rw [List.length_map, List.length_take_of_le hf]
  unfold place
  split_ifs with hlt heq
  · rw [List.getElem?_append_left (by omega), List.getElem?_map, List.getElem?_take_of_lt hlt]
  · rw [List.getElem?_append_right (by omega), hlen, heq, Nat.sub_self]
    rfl
  · rw [List.getElem?_append_right (by omega), hlen]
    obtain ⟨d, rfl⟩ : ∃ d, i = found+1+d := ⟨i-found-1, by omega⟩
    rw [show found+1+d-found = d+1 by omega, List.getElem?_cons_succ, List.getElem?_drop]

theorem repoint_eq (found : ℕ) (r e : IPRoute) :
    repoint found r e = { e with extra := (repoint found r e).extra } := by
  unfold repoint
  split_ifs
  · rfl
  · rfl

theorem repoint_containsRoute (found : ℕ) (r e e' : IPRoute) :
    (repoint found r e).containsRoute e' = e.containsRoute e' := by
  rw [repoint_eq]
  rfl

theorem containsRoute_repoint (found : ℕ) (r e e' : IPRoute) :
    e.containsRoute (repoint found r e') = e.containsRoute e' := by
  rw [repoint_eq]
  rfl

/-- An entry of a table with a new route is the new one or an old one, whose pointer may
have moved. -/
theorem place_cases (t : List IPRoute) (found : ℕ) (r : IPRoute) (hf : found ≤ t.length) (i : ℕ)
    (e : IPRoute) (h : (place t found r)[i]? = some e) :
    (i = found ∧ e = { r with extra := nextPointer t found r }) ∨
      (i < found ∧ ∃ x, t[i]? = some x ∧ e = repoint found r x) ∨ (found < i ∧ t[i]? = some e) := by
  rw [getElem?_place t found r hf] at h
  split_ifs at h with hlt heq
  · obtain ⟨x, hx, rfl⟩ := Option.map_eq_some_iff.mp h
    exact Or.inr (Or.inl ⟨hlt, x, hx, rfl⟩)
  · exact Or.inl ⟨heq, (Option.some.inj h).symm⟩
  · exact Or.inr (Or.inr ⟨by omega, h⟩)

/-- Everything of an entry but its pointer comes from the new route or from an old entry
elsewhere. -/
theorem place_origin (t : List IPRoute) (found : ℕ) (r : IPRoute) (hf : found ≤ t.length) (i : ℕ)
    (e : IPRoute) (h : (place t found r)[i]? = some e) :
    ∃ x n, e = { x with extra := n } ∧ (i = found ∧ x = r ∨ i ≠ found ∧ t[i]? = some x) := by
  rcases place_cases t found r hf i e h with ⟨hi, he⟩ | ⟨hi, x, hx, he⟩ | ⟨hi, he⟩
  · exact ⟨r, _, he, Or.inl ⟨hi, rfl⟩⟩
  · refine ⟨x, e.extra, ?_, Or.inr ⟨by omega, hx⟩⟩
    rw [he]
    exact repoint_eq found r x
  · exact ⟨e, e.extra, rfl, Or.inr ⟨by omega, he⟩⟩

theorem nextPointer_skips (t : List IPRoute) (found : ℕ) (r : IPRoute) (j : ℕ) (e : IPRoute)
    (hj : t[j]? = some e) (hlt : found < j) (hn : j < nextPointer t found r) (he : e.real = true) :
    r.containsRoute e = false := by
  obtain ⟨d, rfl⟩ : ∃ d, j = found+1+d := ⟨j-found-1, by omega⟩
  have hd : (t.drop (found+1))[d]? = some e := by
    rw [List.getElem?_drop]
    exact hj
  unfold nextPointer at hn
  cases hm : firstMatch (fun e => r.containsRoute e && e.real) (t.drop (found+1)) with
  | none =>
    have hnone := (firstMatch_eq_none_iff _ _).mp hm e (List.mem_of_getElem? hd)
    rwa [he, Bool.and_true] at hnone
  | some k =>
    obtain ⟨pre, post, hsplit, hlen, -, hpre⟩ := firstMatch_split _ _ k.1 k.2 hm
    rw [hm] at hn
    dsimp only at hn
    rw [hsplit, List.getElem?_append_left (by omega)] at hd
    have hnone := hpre e (List.mem_of_getElem? hd)
    rwa [he, Bool.and_true] at hnone

theorem repoint_extra_le (found : ℕ) (r e : IPRoute) (h : e.containsRoute r = true) :
    (repoint found r e).extra ≤ found := by
  unfold repoint
  split_ifs with hlt
  · exact Nat.le_refl found
  · rw [h, Bool.true_and, decide_eq_true_iff] at hlt
    exact Nat.le_of_not_lt hlt

theorem repoint_extra_le_extra (found : ℕ) (r e : IPRoute) : (repoint found r e).extra ≤ e.extra := by
  unfold repoint
  split_ifs with hlt
  · have hboth := Bool.and_eq_true_iff.mp hlt
    exact Nat.le_of_lt (decide_eq_true_iff.mp hboth.2)
  · exact Nat.le_refl _

theorem TableInv.place (h : TableInv noutputs t) {r : IPRoute} {found : ℕ} (hs : FreeSlot r t found)
    (hr : Valid noutputs r) : TableInv noutputs (place t found r) := by
  have hmem (e : IPRoute) (he : e ∈ LinearIPLookup.place t found r) :
      ∃ x n, e = { x with extra := n } ∧ (x = r ∨ x ∈ t) := by
    obtain ⟨i, hi⟩ := List.mem_iff_getElem?.mp he
    obtain ⟨x, n, hx, ⟨-, horigin⟩ | ⟨-, horigin⟩⟩ := place_origin t found r hs.le i e hi
    · exact ⟨x, n, hx, Or.inl horigin⟩
    · exact ⟨x, n, hx, Or.inr (List.mem_of_getElem? horigin)⟩
  constructor
  · intro i j e e' hi hj hij hjn hre hre'
    rcases place_cases t found r hs.le j e' hj with ⟨rfl, rfl⟩ | ⟨hjf, x', hx', rfl⟩ | ⟨hjf, hx'⟩
    · -- the new route: a pointer that could have skipped it was pulled back
      rcases place_cases t j r hs.le i e hi with ⟨hif, -⟩ | ⟨-, x, hx, rfl⟩ | ⟨hif, -⟩
      · omega
      · by_contra hc
        have hcontains : x.containsRoute r = true := by
          rw [repoint_containsRoute] at hc
          exact Bool.not_eq_false _ ▸ hc
        have hle := repoint_extra_le j r x hcontains
        omega
      · omega
    · rcases place_cases t found r hs.le i e hi with ⟨hif, -⟩ | ⟨-, x, hx, rfl⟩ | ⟨hif, -⟩
      · omega
      · have hle := repoint_extra_le_extra found r x
        have hold := h.next i j x x' hx hx' hij (by omega) (hs.full i x (by omega) hx)
          (hs.full j x' hjf hx')
        rwa [repoint_containsRoute, containsRoute_repoint]
      · omega
    · rcases place_cases t found r hs.le i e hi with ⟨hif, rfl⟩ | ⟨hif, x, hx, rfl⟩ | ⟨hif, hx⟩
      · exact nextPointer_skips t found r j e' hx' hjf hjn hre'
      · have hle := repoint_extra_le_extra found r x
        have hold := h.next i j x e' hx hx' hij (by omega) (hs.full i x hif hx) hre'
        rwa [repoint_containsRoute]
      · exact h.next i j e e' hx hx' hij hjn hre hre'
  · intro i j e e' hi hj hre hholds
    obtain ⟨x, n, rfl, horigin⟩ := place_origin t found r hs.le i e hi
    obtain ⟨x', n', rfl, horigin'⟩ := place_origin t found r hs.le j e' hj
    have hxx : x.holds x' = true := hholds
    have hsame : x'.addr = x.addr ∧ x'.mask = x.mask := by
      simpa [IPRoute.holds, IPRoute.samePrefix] using (Bool.and_eq_true_iff.mp hxx).2
    rcases horigin with ⟨hif, rfl⟩ | ⟨-, hx⟩ <;> rcases horigin' with ⟨hjf, rfl⟩ | ⟨-, hx'⟩
    · rw [hif, hjf]
    · have habsent := hs.absent x' (List.mem_of_getElem? hx')
      rw [hxx] at habsent
      cases habsent
    · have habsent := hs.absent x (List.mem_of_getElem? hx)
      have hxreal : x.real = true := hre
      have hheld : x'.holds x = true := by
        unfold IPRoute.holds IPRoute.samePrefix
        rw [hxreal, hsame.1, hsame.2, beq_self_eq_true, beq_self_eq_true]
        rfl
      rw [hheld] at habsent
      cases habsent
    · exact h.nodup i j x x' hx hx' hre hxx
  · intro e he hreal
    obtain ⟨x, n, rfl, rfl | hx⟩ := hmem e he
    · have hx : x.real = false := hreal
      rw [hr.real] at hx
      cases hx
    · exact h.dead x hx hreal
  · intro e he
    obtain ⟨x, n, rfl, rfl | hx⟩ := hmem e he
    · exact hr.normal
    · exact h.normal x hx
  · intro e he hreal
    obtain ⟨x, n, rfl, rfl | hx⟩ := hmem e he
    · exact hr.port
    · exact h.port x hx hreal

theorem set_cases (t : List IPRoute) (i : ℕ) (x : IPRoute) (j : ℕ) (e : IPRoute)
    (h : (t.set i x)[j]? = some e) : (j = i ∧ e = x) ∨ (j ≠ i ∧ t[j]? = some e) := by
  rw [List.getElem?_set] at h
  split_ifs at h with hij hlt
  · exact Or.inl ⟨hij.symm, (Option.some.inj h).symm⟩
  · exact Or.inr ⟨fun hji => hij hji.symm, h⟩

theorem TableInv.kill (h : TableInv noutputs t) (i : ℕ) (old : IPRoute) :
    TableInv noutputs (t.set i old.kill) := by
  have hmem (e : IPRoute) (he : e ∈ t.set i old.kill) : e = old.kill ∨ e ∈ t := by
    exact (List.mem_or_eq_of_mem_set he).symm
  -- a killed entry is not real, so every other entry is as it was
  have hlive (j : ℕ) (e : IPRoute) (hj : (t.set i old.kill)[j]? = some e) (hr : e.real = true) :
      t[j]? = some e := by
    rcases set_cases t i old.kill j e hj with ⟨-, rfl⟩ | ⟨-, hj⟩
    · cases hr
    · exact hj
  constructor
  · intro j k e e' hj hk hjk hn hr hr'
    exact h.next j k e e' (hlive j e hj hr) (hlive k e' hk hr') hjk hn hr hr'
  · intro j k e e' hj hk hr hholds
    exact h.nodup j k e e' (hlive j e hj hr) (hlive k e' hk (Bool.and_eq_true_iff.mp hholds).1) hr hholds
  · intro e he hr
    rcases hmem e he with rfl | he
    · exact ⟨rfl, rfl⟩
    · exact h.dead e he hr
  · intro e he
    rcases hmem e he with rfl | he
    · exact UInt32.zero_and
    · exact h.normal e he
  · intro e he hr
    rcases hmem e he with rfl | he
    · cases hr
    · exact h.port e he hr

/-- The new gateway and output of `set` in the slot of the prefix. -/
theorem TableInv.replace (h : TableInv noutputs t) (i : ℕ) (old r : IPRoute) (hi : t[i]? = some old)
    (ho : old.real = true) (hr : Valid noutputs r) :
    TableInv noutputs (t.set i { old with gw := r.gw, port := r.port }) := by
  have hnew : ({ old with gw := r.gw, port := r.port } : IPRoute).real = true := hr.real
  -- prefix and pointer of every entry, and that it is real, are as before
  have hold (j : ℕ) (e : IPRoute)
      (hj : (t.set i { old with gw := r.gw, port := r.port })[j]? = some e) :
      ∃ x, t[j]? = some x ∧ x.addr = e.addr ∧ x.mask = e.mask ∧ x.extra = e.extra ∧ x.real = e.real := by
    rcases set_cases t i _ j e hj with ⟨rfl, rfl⟩ | ⟨-, hj⟩
    · exact ⟨old, hi, rfl, rfl, rfl, ho.trans hnew.symm⟩
    · exact ⟨e, hj, rfl, rfl, rfl, rfl⟩
  constructor
  · intro j k e e' hj hk hjk hn hr hr'
    obtain ⟨x, hx, ha, hm, he, hre⟩ := hold j e hj
    obtain ⟨x', hx', ha', hm', he', hre'⟩ := hold k e' hk
    have hnext := h.next j k x x' hx hx' hjk (by omega) (hre.trans hr) (hre'.trans hr')
    unfold IPRoute.containsRoute at hnext ⊢
    rwa [ha, hm, ha', hm'] at hnext
  · intro j k e e' hj hk hr hholds
    obtain ⟨x, hx, ha, hm, he, hre⟩ := hold j e hj
    obtain ⟨x', hx', ha', hm', he', hre'⟩ := hold k e' hk
    apply h.nodup j k x x' hx hx' (hre.trans hr)
    unfold IPRoute.holds IPRoute.samePrefix at hholds ⊢
    rwa [ha, hm, ha', hm', hre']
  · intro e he hreal
    rcases List.mem_or_eq_of_mem_set he with he | rfl
    · exact h.dead e he hreal
    · rw [hnew] at hreal
      cases hreal
  · intro e he
    rcases List.mem_or_eq_of_mem_set he with he | rfl
    · exact h.normal e he
    · exact h.normal old (List.mem_of_getElem? hi)
  · intro e he hreal
    rcases List.mem_or_eq_of_mem_set he with he | rfl
    · exact h.port e he hreal
    · exact hr.port

/-- A prefix as `cp_ip_route` stores it: an address and its mask. -/
abbrev Prefix := IPAddress × IPAddress

/-- What a route says: its gateway and its output. -/
abbrev NextHop := IPAddress × ℤ

/-- The map that the table stands for. -/
def live (t : List IPRoute) (p : Prefix) : Option NextHop :=
  (t.find? (fun e => e.real && (e.addr, e.mask) == p)).map (fun e => (e.gw, e.port))

theorem TableInv.live_eq_some_iff (h : TableInv noutputs t) (p : Prefix) (v : NextHop) :
    live t p = some v ↔ ∃ (i : ℕ) (e : IPRoute), t[i]? = some e ∧ e.real = true ∧
      (e.addr, e.mask) = p ∧ (e.gw, e.port) = v := by
  unfold live
  rw [Option.map_eq_some_iff]
  constructor
  · rintro ⟨e, he, rfl⟩
    have hfound : (e.real && (e.addr, e.mask) == p) = true := by simpa using List.find?_some he
    have hp := Bool.and_eq_true_iff.mp hfound
    obtain ⟨i, hi⟩ := List.mem_iff_getElem?.mp (List.mem_of_find?_eq_some he)
    exact ⟨i, e, hi, hp.1, beq_iff_eq.mp hp.2, rfl⟩
  · rintro ⟨i, e, hi, hreal, rfl, rfl⟩
    have hp : (e.real && (e.addr, e.mask) == (e.addr, e.mask)) = true := by
      rw [hreal, beq_self_eq_true]
      rfl
    have hsome : (t.find? (fun x => x.real && (x.addr, x.mask) == (e.addr, e.mask))).isSome = true :=
      List.find?_isSome.mpr ⟨e, List.mem_of_getElem? hi, hp⟩
    obtain ⟨x, hx⟩ := Option.isSome_iff_exists.mp hsome
    have hfound : (x.real && (x.addr, x.mask) == (e.addr, e.mask)) = true := by
      simpa using List.find?_some hx
    have hxp := Bool.and_eq_true_iff.mp hfound
    obtain ⟨j, hj⟩ := List.mem_iff_getElem?.mp (List.mem_of_find?_eq_some hx)
    have hsame := Prod.mk.inj (beq_iff_eq.mp hxp.2)
    have hholds : e.holds x = true := by
      unfold IPRoute.holds IPRoute.samePrefix
      rw [hxp.1, hsame.1, hsame.2, beq_self_eq_true, beq_self_eq_true]
      rfl
    have hij := h.nodup i j e x hi hj hreal hholds
    subst hij
    rw [Option.some.inj (hi.symm.trans hj)]
    refine ⟨x, ?_, rfl⟩
    rw [hsame.1, hsame.2]
    exact hx

/-- A slot changes, and all other entries keep what they say: the map changes at the prefix of
the slot alone. -/
theorem live_update {t' : List IPRoute} (h : TableInv noutputs t) (h' : TableInv noutputs t')
    (i : ℕ) (p : Prefix) (v : Option NextHop)
    (hothers : ∀ j e, j ≠ i → t'[j]? = some e → ∃ n, t[j]? = some { e with extra := n })
    (hothers' : ∀ j e, j ≠ i → t[j]? = some e → ∃ n, t'[j]? = some { e with extra := n })
    (hslot : ∀ e, t[i]? = some e → e.real = true → (e.addr, e.mask) = p)
    (hnot : ∀ j e, j ≠ i → t[j]? = some e → e.real = true → (e.addr, e.mask) ≠ p)
    (hnew : ∀ w, v = some w ↔
      ∃ e, t'[i]? = some e ∧ e.real = true ∧ (e.addr, e.mask) = p ∧ (e.gw, e.port) = w)
    (hnew' : ∀ e, t'[i]? = some e → e.real = true → (e.addr, e.mask) = p) :
    live t' = Function.update (live t) p v := by
  funext q
  apply Option.ext
  intro w
  rw [h'.live_eq_some_iff, Function.update_apply]
  split_ifs with hq
  · subst hq
    rw [hnew w]
    constructor
    · rintro ⟨j, e, hj, hr, hp, hw⟩
      by_cases hji : j = i
      · subst hji
        exact ⟨e, hj, hr, hp, hw⟩
      · obtain ⟨n, hn⟩ := hothers j e hji hj
        exact absurd hp (hnot j { e with extra := n } hji hn hr)
    · rintro ⟨e, he⟩
      exact ⟨i, e, he⟩
  · rw [h.live_eq_some_iff]
    constructor
    · rintro ⟨j, e, hj, hr, hp, hw⟩
      by_cases hji : j = i
      · subst hji
        exact absurd (hp.symm.trans (hnew' e hj hr)) hq
      · obtain ⟨n, hn⟩ := hothers j e hji hj
        exact ⟨j, _, hn, hr, hp, hw⟩
    · rintro ⟨j, e, hj, hr, hp, hw⟩
      by_cases hji : j = i
      · subst hji
        exact absurd (hp.symm.trans (hslot e hj hr)) hq
      · obtain ⟨n, hn⟩ := hothers' j e hji hj
        exact ⟨j, _, hn, hr, hp, hw⟩

theorem ne_of_not_holds {r e : IPRoute} (h : r.holds e = false) (he : e.real = true) :
    (e.addr, e.mask) ≠ (r.addr, r.mask) := by
  intro hp
  have hsame := Prod.mk.inj hp
  unfold IPRoute.holds IPRoute.samePrefix at h
  rw [he, hsame.1, hsame.2, beq_self_eq_true, beq_self_eq_true] at h
  cases h

theorem eq_of_holds {r e : IPRoute} (h : r.holds e = true) :
    e.real = true ∧ (e.addr, e.mask) = (r.addr, r.mask) := by
  have hboth := Bool.and_eq_true_iff.mp h
  have hsame := Bool.and_eq_true_iff.mp hboth.2
  exact ⟨hboth.1, Prod.ext (beq_iff_eq.mp hsame.1) (beq_iff_eq.mp hsame.2)⟩

theorem TableInv.live_place (h : TableInv noutputs t) {r : IPRoute} {found : ℕ} (hs : FreeSlot r t found)
    (hr : Valid noutputs r) :
    live (LinearIPLookup.place t found r) =
      Function.update (live t) (r.addr, r.mask) (some (r.gw, r.port)) := by
  have hnew : (LinearIPLookup.place t found r)[found]? =
      some { r with extra := nextPointer t found r } := by
    rw [getElem?_place t found r hs.le, if_neg (Nat.lt_irrefl found), if_pos rfl]
  apply live_update h (h.place hs hr) found
  · intro j e hj he
    obtain ⟨x, n, rfl, ⟨hf, -⟩ | ⟨-, hx⟩⟩ := place_origin t found r hs.le j e he
    · exact absurd hf hj
    · exact ⟨x.extra, hx⟩
  · intro j e hj he
    rw [getElem?_place t found r hs.le]
    split_ifs with hlt
    · refine ⟨(repoint found r e).extra, ?_⟩
      rw [he, Option.map_some, ← repoint_eq]
    · exact ⟨e.extra, he⟩
  · intro e he hreal
    rw [hs.slot e he] at hreal
    cases hreal
  · intro j e _ he hreal
    exact ne_of_not_holds (hs.absent e (List.mem_of_getElem? he)) hreal
  · intro w
    rw [hnew]
    constructor
    · intro hw
      exact ⟨_, rfl, hr.real, rfl, Option.some.inj hw⟩
    · rintro ⟨e, he, -, -, hw⟩
      rw [← hw, ← Option.some.inj he]
  · intro e he _
    rw [hnew] at he
    rw [← Option.some.inj he]

theorem TableInv.others (h : TableInv noutputs t) (i : ℕ) (old : IPRoute) (hi : t[i]? = some old)
    (ho : old.real = true) (j : ℕ) (e : IPRoute) (hj : j ≠ i) (he : t[j]? = some e)
    (hr : e.real = true) : (e.addr, e.mask) ≠ (old.addr, old.mask) := by
  apply ne_of_not_holds ?_ hr
  by_contra hholds
  exact hj (h.nodup i j old e hi he ho (Bool.not_eq_false _ ▸ hholds)).symm

theorem getElem?_set_ne {i j : ℕ} (x : IPRoute) (h : j ≠ i) : (t.set i x)[j]? = t[j]? :=
  List.getElem?_set_ne (fun hij => h hij.symm)

theorem TableInv.live_kill (h : TableInv noutputs t) (i : ℕ) (old : IPRoute) (hi : t[i]? = some old)
    (ho : old.real = true) :
    live (t.set i old.kill) = Function.update (live t) (old.addr, old.mask) none := by
  have hlt := (List.getElem?_eq_some_iff.mp hi).1
  have hnew : (t.set i old.kill)[i]? = some old.kill := List.getElem?_set_self hlt
  apply live_update h (h.kill i old) i
  · intro j e hj he
    exact ⟨e.extra, by rwa [getElem?_set_ne old.kill hj] at he⟩
  · intro j e hj he
    exact ⟨e.extra, by rwa [getElem?_set_ne old.kill hj]⟩
  · intro e he _
    rw [Option.some.inj (he.symm.trans hi)]
  · intro j e hj he hreal
    exact h.others i old hi ho j e hj he hreal
  · intro w
    rw [hnew]
    constructor
    · intro hw
      cases hw
    · rintro ⟨e, he, hreal, -⟩
      rw [← Option.some.inj he] at hreal
      cases hreal
  · intro e he hreal
    rw [hnew] at he
    rw [← Option.some.inj he] at hreal
    cases hreal

theorem TableInv.live_replace (h : TableInv noutputs t) (i : ℕ) (old r : IPRoute)
    (hi : t[i]? = some old) (ho : old.real = true) (hr : Valid noutputs r) :
    live (t.set i { old with gw := r.gw, port := r.port }) =
      Function.update (live t) (old.addr, old.mask) (some (r.gw, r.port)) := by
  have hlt := (List.getElem?_eq_some_iff.mp hi).1
  have hnew : (t.set i { old with gw := r.gw, port := r.port })[i]? =
      some { old with gw := r.gw, port := r.port } := List.getElem?_set_self hlt
  apply live_update h (h.replace i old r hi ho hr) i
  · intro j e hj he
    exact ⟨e.extra, by rwa [getElem?_set_ne _ hj] at he⟩
  · intro j e hj he
    exact ⟨e.extra, by rwa [getElem?_set_ne _ hj]⟩
  · intro e he _
    rw [Option.some.inj (he.symm.trans hi)]
  · intro j e hj he hreal
    exact h.others i old hi ho j e hj he hreal
  · intro w
    rw [hnew]
    constructor
    · intro hw
      exact ⟨_, rfl, hr.real, rfl, Option.some.inj hw⟩
    · rintro ⟨e, he, -, -, hw⟩
      rw [← hw, ← Option.some.inj he]
  · intro e he _
    rw [hnew] at he
    rw [← Option.some.inj he]

end LinearIPLookup

end MobileIP
