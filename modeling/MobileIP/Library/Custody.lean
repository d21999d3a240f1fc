import Mathlib.Data.List.Count
import Mathlib.Data.List.Nodup
import Mathlib.Data.List.Perm.Basic
import Mathlib.Tactic.Common

/-! References that a program is given or makes, and has to release once each. At any time a
reference that was handed out has been released, is kept somewhere, or is lost; the rules say how
the account moves on when a reference is received, handed on or released. -/
namespace Custody

variable {ρ : Type*} {held released kept lost : List ρ}

/-- Every reference that was handed out is in one place. -/
structure Accounted (held released kept lost : List ρ) : Prop where
  nodup : held.Nodup
  perm : held.Perm (released ++ (kept ++ lost))

theorem accounted_nil : Accounted ([] : List ρ) [] [] [] := ⟨List.nodup_nil, List.Perm.refl _⟩

namespace Accounted

theorem nodup_concat (h : Accounted held released kept lost) (r : ρ) (hr : r ∉ held) :
    (held ++ [r]).Nodup := by
  rw [List.nodup_append]
  refine ⟨h.nodup, List.nodup_singleton r, ?_⟩
  intro a ha b hb
  rw [List.mem_singleton.mp hb]
  exact fun heq => hr (heq ▸ ha)

/-- A new reference is kept. -/
theorem keep (h : Accounted held released kept lost) (r : ρ) (hr : r ∉ held) :
    Accounted (held ++ [r]) released (r :: kept) lost where
  nodup := h.nodup_concat r hr
  perm := by
    have hcons : (held ++ [r]).Perm (r :: (released ++ (kept ++ lost))) :=
      List.perm_append_comm.trans (h.perm.cons r)
    exact hcons.trans List.perm_middle.symm

/-- A new reference is released at once. -/
theorem pass (h : Accounted held released kept lost) (r : ρ) (hr : r ∉ held) :
    Accounted (held ++ [r]) (released ++ [r]) kept lost where
  nodup := h.nodup_concat r hr
  perm := by
    have hcons : (held ++ [r]).Perm (r :: (released ++ (kept ++ lost))) :=
      List.perm_append_comm.trans (h.perm.cons r)
    rw [List.append_assoc]
    exact hcons.trans List.perm_middle.symm

/-- A new reference is lost. -/
theorem lose (h : Accounted held released kept lost) (r : ρ) (hr : r ∉ held) :
    Accounted (held ++ [r]) released kept (lost ++ [r]) where
  nodup := h.nodup_concat r hr
  perm := by
    rw [← List.append_assoc kept, ← List.append_assoc released]
    exact h.perm.append_right [r]

/-- Some of the kept references are released. -/
theorem release (h : Accounted held released kept lost) (out rest : List ρ)
    (hkept : kept.Perm (out ++ rest)) : Accounted held (released ++ out) rest lost where
  nodup := h.nodup
  perm := by
    refine h.perm.trans ?_
    rw [List.append_assoc, ← List.append_assoc out]
    exact (hkept.append_right lost).append_left released

variable [DecidableEq ρ]

theorem count_eq_one (h : Accounted held released kept lost) (r : ρ) (hr : r ∈ held) :
    released.count r+kept.count r+lost.count r = 1 := by
  have hone := List.count_eq_one_of_mem h.nodup hr
  rw [h.perm.count_eq, List.count_append, List.count_append] at hone
  omega

/-- If everything that is kept is released `n` times in the end, each reference has been
released exactly once only if nothing was lost, and `n` is one or nothing was kept. -/
theorem each_once_iff (h : Accounted held released kept lost) (n : ℕ) :
    (∀ r ∈ held, (released ++ (List.replicate n kept).flatten).count r = 1) ↔
      lost = [] ∧ (kept = [] ∨ n = 1) := by
  have hcount (r : ρ) : (released ++ (List.replicate n kept).flatten).count r =
      released.count r+n*kept.count r := by
    simp [List.count_append, List.count_flatten]
  constructor
  · intro hall
    constructor
    · -- a lost reference is released by nobody
      by_contra hne
      obtain ⟨r, hr⟩ := List.exists_mem_of_ne_nil lost hne
      have hheld : r ∈ held := h.perm.mem_iff.mpr (by simp [hr])
      have hone := h.count_eq_one r hheld
      have hpos := List.count_pos_iff.mpr hr
      have hfinal := hall r hheld
      have hkept : kept.count r = 0 := by omega
      rw [hcount, hkept] at hfinal
      omega
    · by_cases hnil : kept = []
      · exact Or.inl hnil
      · right
        obtain ⟨r, hr⟩ := List.exists_mem_of_ne_nil kept hnil
        have hheld : r ∈ held := h.perm.mem_iff.mpr (by simp [hr])
        have hone := h.count_eq_one r hheld
        have hpos := List.count_pos_iff.mpr hr
        have hfinal := hall r hheld
        have hkept : kept.count r = 1 := by omega
        rw [hcount, hkept] at hfinal
        omega
  · rintro ⟨rfl, hn⟩ r hr
    have hone := h.count_eq_one r hr
    rw [List.count_nil] at hone
    rw [hcount]
    rcases hn with rfl | rfl
    · rw [List.count_nil] at hone ⊢
      omega
    · omega

end Accounted

/-- The entry of a key and the entries of the other keys are all that an association list
holds. -/
theorem perm_lookup_filter {κ : Type*} [DecidableEq κ] (l : List (κ × ρ))
    (hn : (l.map Prod.fst).Nodup) (k : κ) :
    (l.map Prod.snd).Perm
      ((l.lookup k).toList ++ (l.filter (fun x => x.1 ≠ k)).map Prod.snd) := by
  induction l with
  | nil => exact List.Perm.refl _
  | cons x l ih =>
    obtain ⟨hx, hl⟩ := List.nodup_cons.mp hn
    by_cases hk : x.1 = k
    · -- no other entry has the key
      have hrest : l.filter (fun y => y.1 ≠ k) = l := by
        rw [List.filter_eq_self]
        intro y hy
        have hne : y.1 ≠ k := by
          intro heq
          apply hx
          rw [hk, ← heq]
          exact List.mem_map_of_mem hy
        simpa using hne
      rw [List.filter_cons_of_neg (by simp [hk]), hrest]
      have hlook : (x :: l).lookup k = some x.2 := by
        rw [← hk]
        exact List.lookup_cons_self
      rw [hlook]
      exact List.Perm.refl _
    · have hlook : (x :: l).lookup k = l.lookup k := by
        have hne : (k == x.1) = false := by simpa using Ne.symm hk
        rw [List.lookup_cons, hne]
      rw [List.filter_cons_of_pos (by simp [hk]), hlook, List.map_cons, List.map_cons]
      exact ((ih hl).cons x.2).trans List.perm_middle.symm

end Custody
