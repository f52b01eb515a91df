import Mathlib.Algebra.Order.BigOperators.Group.List
import Mathlib.Algebra.Order.Field.Basic
import Mathlib.Tactic.Linarith

/-!
# A clock that stands still in pauses

Pauses one after the other, each excused up to a cap.  A pause that has no end yet goes on.

* `excusedBy`            what a pause has taken off the clock by a time;
* `excused`              what all of them have;
* `excused_lipschitz`    the clock stands still or runs, and never runs back;
* `excused_settled`      pauses that are over are excused once and for all.
-/

set_option linter.unusedSectionVars false

namespace Pauses

variable {K : Type*} [Field K] [LinearOrder K] [IsStrictOrderedRing K]

structure Pause (K : Type*) where
  start : K
  ended : Option K

/-- a time, but no later than the end -/
def upTo (t : K) : Option K → K
  | none => t
  | some e => min t e

/-- what a pause has taken off by a time; nothing before it has started -/
def excusedBy (cap t : K) (p : Pause K) : K := if p.start ≤ t then min (upTo t p.ended - p.start) cap else 0

def excused (cap : K) (ps : List (Pause K)) (t : K) : K := (ps.map (excusedBy cap t)).sum

/-- one after the other -/
structure Sequential (ps : List (Pause K)) : Prop where
  apart : ps.Pairwise fun p q => ∃ e, p.ended = some e ∧ e ≤ q.start
  forward : ∀ p ∈ ps, ∀ e ∈ p.ended, p.start ≤ e

section
variable {cap t t' x : K} {p : Pause K} {ps : List (Pause K)} {e : Option K}

theorem upTo_le (t : K) (e : Option K) : upTo t e ≤ t := by
  cases e with
  | none => exact le_rfl
  | some e => exact min_le_left t e

theorem upTo_mono (h : t' ≤ t) (e : Option K) : upTo t' e ≤ upTo t e := by
  cases e with
  | none => exact h
  | some e => exact min_le_min_right e h

theorem upTo_lipschitz (h : t' ≤ t) (e : Option K) : upTo t e - upTo t' e ≤ t - t' := by
  cases e with
  | none => exact le_rfl
  | some e =>
    show min t e - min t' e ≤ t - t'
    rcases min_cases t' e with ⟨hmin, -⟩ | ⟨hmin, -⟩
    · rw [hmin]
      exact sub_le_sub_right (min_le_left t e) t'
    · rw [hmin]
      linarith [min_le_right t e]

theorem clip_mono (h : t' ≤ t) : min (max 0 t') cap ≤ min (max 0 t) cap := min_le_min_right cap (max_le_max_left 0 h)

theorem clip_lipschitz (h : t' ≤ t) : min (max 0 t) cap - min (max 0 t') cap ≤ t - t' := by
  rcases min_cases (max 0 t') cap with ⟨hmin, -⟩ | ⟨hmin, -⟩
  · rw [hmin]
    have hle := min_le_left (max 0 t) cap
    have hmax : max 0 t ≤ max 0 t' + (t - t') := max_le (by linarith [le_max_left 0 t']) (by linarith [le_max_right 0 t'])
    linarith
  · rw [hmin]
    linarith [min_le_right (max 0 t) cap]

/-- what a pause has taken off, in one formula -/
theorem excusedBy_eq (hcap : 0 ≤ cap) (h : ∀ e ∈ p.ended, p.start ≤ e) :
    excusedBy cap t p = min (max 0 (upTo t p.ended - p.start)) cap := by
  unfold excusedBy
  split_ifs with hstart
  · have hpos : p.start ≤ upTo t p.ended := by
      cases he : p.ended with
      | none => exact hstart
      | some e => exact le_min hstart (h e he)
    rw [max_eq_right (sub_nonneg.mpr hpos)]
  · have hneg : upTo t p.ended - p.start ≤ 0 := sub_nonpos.mpr ((upTo_le t p.ended).trans (not_le.mp hstart).le)
    rw [max_eq_left hneg, min_eq_left hcap]

theorem excusedBy_nonneg (hcap : 0 ≤ cap) (h : ∀ e ∈ p.ended, p.start ≤ e) : 0 ≤ excusedBy cap t p := by
  rw [excusedBy_eq hcap h]
  exact le_min (le_max_left 0 _) hcap

theorem excusedBy_mono (hcap : 0 ≤ cap) (h : ∀ e ∈ p.ended, p.start ≤ e) (ht : t' ≤ t) : excusedBy cap t' p ≤ excusedBy cap t p := by
  rw [excusedBy_eq hcap h, excusedBy_eq hcap h]
  exact clip_mono (sub_le_sub_right (upTo_mono ht _) _)

theorem excusedBy_lipschitz (hcap : 0 ≤ cap) (h : ∀ e ∈ p.ended, p.start ≤ e) (ht : t' ≤ t) :
    excusedBy cap t p - excusedBy cap t' p ≤ t - t' := by
  rw [excusedBy_eq hcap h, excusedBy_eq hcap h]
  calc min (max 0 (upTo t p.ended - p.start)) cap - min (max 0 (upTo t' p.ended - p.start)) cap
      ≤ (upTo t p.ended - p.start) - (upTo t' p.ended - p.start) := clip_lipschitz (sub_le_sub_right (upTo_mono ht _) _)
    _ = upTo t p.ended - upTo t' p.ended := sub_sub_sub_cancel_right ..
    _ ≤ t - t' := upTo_lipschitz ht _

/-- nothing before it starts -/
theorem excusedBy_before (hcap : 0 ≤ cap) (h : ∀ e ∈ p.ended, p.start ≤ e) (ht : t ≤ p.start) : excusedBy cap t p = 0 := by
  rw [excusedBy_eq hcap h, max_eq_left (by linarith [upTo_le t p.ended]), min_eq_left hcap]

/-- nothing more after its end -/
theorem excusedBy_after {m : K} (hm : p.ended = some m) (hp : p.start ≤ m) (ht : m ≤ t) : excusedBy cap t p = excusedBy cap m p := by
  unfold excusedBy
  rw [if_pos (hp.trans ht), if_pos hp, hm]
  show min (min t m - p.start) cap = min (min m m - p.start) cap
  rw [min_eq_right ht, min_self]

theorem excused_cons (p : Pause K) (ps : List (Pause K)) (t : K) : excused cap (p :: ps) t = excusedBy cap t p + excused cap ps t :=
  List.sum_cons

theorem excused_append (ps qs : List (Pause K)) (t : K) : excused cap (ps ++ qs) t = excused cap ps t + excused cap qs t := by
  unfold excused
  rw [List.map_append, List.sum_append]

theorem excused_before (hcap : 0 ≤ cap) (h : ∀ p ∈ ps, ∀ e ∈ p.ended, p.start ≤ e) (ht : ∀ p ∈ ps, t ≤ p.start) : excused cap ps t = 0 := by
  refine List.sum_eq_zero fun y hy => ?_
  obtain ⟨p, hp, rfl⟩ := List.mem_map.mp hy
  exact excusedBy_before hcap (h p hp) (ht p hp)

theorem Sequential.tail (h : Sequential (p :: ps)) : Sequential ps :=
  ⟨(List.pairwise_cons.mp h.apart).2, fun q hq => h.forward q (List.mem_cons_of_mem _ hq)⟩

theorem Sequential.left {qs : List (Pause K)} (h : Sequential (ps ++ qs)) : Sequential ps :=
  ⟨(List.pairwise_append.mp h.apart).1, fun p hp => h.forward p (List.mem_append_left _ hp)⟩

/-- **The clock never runs back.** -/
theorem excused_lipschitz (hcap : 0 ≤ cap) (h : Sequential ps) (ht : t' ≤ t) :
    excused cap ps t' ≤ excused cap ps t ∧ excused cap ps t - excused cap ps t' ≤ t - t' := by
  induction ps generalizing t t' with
  | nil => exact ⟨le_rfl, (sub_self _).le.trans (sub_nonneg.mpr ht)⟩
  | cons p ps ih =>
    have hforward := h.forward p List.mem_cons_self
    have hmono := fun {u u' : K} (hu : u' ≤ u) => excusedBy_mono hcap hforward hu
    have hlip := fun {u u' : K} (hu : u' ≤ u) => excusedBy_lipschitz hcap hforward hu
    rw [excused_cons, excused_cons]
    cases hp : p.ended with
    | none =>
      -- a pause without an end is the last one
      have hlast : ps = [] := by
        refine List.eq_nil_iff_forall_not_mem.mpr fun q hq => ?_
        obtain ⟨e, he, -⟩ := (List.pairwise_cons.mp h.apart).1 q hq
        cases hp.symm.trans he
      rw [hlast]
      show excusedBy cap t' p + 0 ≤ excusedBy cap t p + 0 ∧ excusedBy cap t p + 0 - (excusedBy cap t' p + 0) ≤ t - t'
      rw [add_zero, add_zero]
      exact ⟨hmono ht, hlip ht⟩
    | some m =>
      have hlater : ∀ q ∈ ps, m ≤ q.start := by
        intro q hq
        obtain ⟨e, he, hle⟩ := (List.pairwise_cons.mp h.apart).1 q hq
        obtain rfl := Option.some.inj (hp.symm.trans he)
        exact hle
      have hzero : ∀ u, u ≤ m → excused cap ps u = 0 := fun u hu =>
        excused_before hcap h.tail.forward fun q hq => hu.trans (hlater q hq)
      have hdone : ∀ u, m ≤ u → excusedBy cap u p = excusedBy cap m p := fun u hu => excusedBy_after hp (hforward m hp) hu
      rcases le_total t m with htm | hmt
      · rw [hzero t htm, hzero t' (ht.trans htm), add_zero, add_zero]
        exact ⟨hmono ht, hlip ht⟩
      rcases le_total m t' with hmt' | htm'
      · obtain ⟨hle, hdiff⟩ := ih h.tail ht
        rw [hdone t hmt, hdone t' hmt']
        exact ⟨add_le_add_right hle _, by linarith⟩
      · obtain ⟨hle, hdiff⟩ := ih h.tail hmt
        have hle' := hmono htm'
        have hdiff' := hlip htm'
        rw [hzero m le_rfl] at hle hdiff
        rw [hdone t hmt, hzero t' htm']
        exact ⟨by linarith, by linarith⟩

/-- pauses that are over -/
theorem excused_settled (h : ∀ p ∈ ps, ∃ e, p.ended = some e ∧ p.start ≤ e ∧ e ≤ x) (hx : x ≤ t) : excused cap ps t = excused cap ps x := by
  unfold excused
  refine congrArg List.sum (List.map_congr_left fun p hp => ?_)
  obtain ⟨e, he, hforward, hle⟩ := h p hp
  rw [excusedBy_after he hforward (hle.trans hx), excusedBy_after he hforward hle]

theorem Sequential.snoc (h : Sequential ps) (hdone : ∀ q ∈ ps, ∃ e, q.ended = some e ∧ e ≤ p.start) (hp : ∀ e ∈ p.ended, p.start ≤ e) :
    Sequential (ps ++ [p]) := by
  refine ⟨List.pairwise_append.mpr ⟨h.apart, List.pairwise_singleton .., fun q hq r hr => ?_⟩, fun q hq => ?_⟩
  · obtain rfl := List.mem_singleton.mp hr
    exact hdone q hq
  · rcases List.mem_append.mp hq with hq | hq
    · exact h.forward q hq
    · obtain rfl := List.mem_singleton.mp hq
      exact hp

end

end Pauses
