import ArmControl.Rt.ReferenceSelection

/-!
# A revision joins the running curve without a step

A replacement commit is accepted only when the new curve repeats, byte for byte, the old knots
from its own first knot up to the protected cut (`prefixMatches`).  The new curve may drop any
number of consumed knots and add any suffix after the cut.

* `SharedRun`           the retained segments, as the scan of `prefixMatches` finds them;
* `SharedRun.sample_eq` on a retained segment both curves evaluate alike, although the two
                        evaluations may use different formulas (end knot or interior);
* `commit_continuous`   the theorem about `commit`.
-/

namespace ArmControl.Rt
namespace ReferenceSelection

/-! ## a revision joins the running curve -/

theorem findKnot_spec {old : NativeReference} {x : F64} {i : ℕ} (h : findKnot old x = some i) :
    i < old.k ∧ old.times i = x := by
  have scan : ∀ (l : List ℕ) (acc : Option ℕ),
      l.foldl (fun acc i => if old.times i = x then some i else acc) acc = some i →
      acc = some i ∨ (i ∈ l ∧ old.times i = x) := by
    intro l
    induction l with
    | nil => intro acc hacc; exact Or.inl hacc
    | cons a l ih =>
      intro acc hacc
      rcases ih _ hacc with h1 | ⟨h1, h2⟩
      · dsimp only at h1
        split at h1
        · rename_i ha
          injection h1 with h1
          subst h1
          exact Or.inr ⟨List.mem_cons_self, ha⟩
        · exact Or.inl h1
      · exact Or.inr ⟨List.mem_cons_of_mem _ h1, h2⟩
  rcases scan _ _ h with h1 | ⟨h1, h2⟩
  · cases h1
  · exact ⟨List.mem_range.mp h1, h2⟩

theorem knotEq_spec {old next : NativeReference} {i j : ℕ} (h : knotEq old next i j = true) :
    old.times i = next.times j ∧ ∀ m, m < old.n → old.q i m = next.q j m ∧ old.v i m = next.v j m := by
  simp only [knotEq, Bool.and_eq_true, beq_iff_eq, List.all_eq_true, List.mem_range] at h
  exact h

/-- the retained part of a revision: `stop - first` segments of the old curve, byte for byte the
first segments of the new one -/
structure SharedRun (old next : NativeReference) (first stop : ℕ) : Prop where
  lt : first < stop
  inOld : stop < old.k
  inNext : stop - first < next.k
  times : ∀ j, j ≤ stop - first → old.times (first + j) = next.times j
  knots : ∀ j, j ≤ stop - first → ∀ m, m < old.n →
    old.q (first + j) m = next.q j m ∧ old.v (first + j) m = next.v j m

theorem prefixMatches_spec {s : ReferenceSelection} {c : AdmittedReference} {cut : F64} {at_ : ℚ}
    (h : s.prefixMatches c cut at_ = true) :
    s.selected.curve.n = c.curve.n ∧ s.selected.curve.hermite = true ∧ c.curve.hermite = true ∧
      Value.lt (.fin at_) (c.curve.times 0).value = false ∧ Value.lt (.fin at_) cut.value = true ∧
      ∃ first stop, s.selected.curve.times stop = cut ∧
        SharedRun s.selected.curve c.curve first stop := by
  unfold prefixMatches at h
  dsimp only at h
  split_ifs at h with h1 h2
  rw [not_or, not_or, not_or, not_or] at h1
  obtain ⟨hn, hh1, hh2, -, -⟩ := h1
  rw [not_or] at h2
  split at h
  case h_1 first stop hf hs =>
    split_ifs at h with h3
    rw [not_or, not_le, not_le] at h3
    simp only [List.all_eq_true, List.mem_range] at h
    obtain ⟨hsk, hst⟩ := findKnot_spec hs
    refine ⟨by simpa using hn, by simpa using hh1, by simpa using hh2, by simpa using h2.1,
      by simpa using h2.2, first, stop, hst, h3.1, hsk, h3.2, fun j hj => ?_, fun j hj => ?_⟩
    · exact (knotEq_spec (h j (by omega))).1
    · exact (knotEq_spec (h j (by omega))).2
  case h_2 => simp at h

section
variable {old next : NativeReference} {first stop : ℕ} (R : SharedRun old next first stop)
include R

theorem SharedRun.time {j : ℕ} (hj : j ≤ stop - first) : old.time (first + j) = next.time j := by
  simp only [NativeReference.time, R.times j hj]

theorem SharedRun.pos {j m : ℕ} (hj : j ≤ stop - first) (hm : m < old.n) :
    old.pos (first + j) m = next.pos j m ∧ old.vel (first + j) m = next.vel j m := by
  obtain ⟨hq, hv⟩ := R.knots j hj m hm
  simp only [NativeReference.pos, NativeReference.vel, hq, hv, and_self]

/-- **On a shared segment both curves have the same position and velocity**, endpoints included,
and the same acceleration inside the knot range of the new curve. -/
theorem SharedRun.sample_eq (ho : old.validReference = true) (hn : next.validReference = true)
    (hho : old.hermite = true) (hhn : next.hermite = true) {j m : ℕ} {t : ℚ}
    (hj : j < stop - first) (hm : m < old.n) (h1 : next.time j ≤ t)
    (h2 : t ≤ next.time (j + 1)) :
    (next.sample t).q m = (old.sample t).q m ∧ (next.sample t).v m = (old.sample t).v m ∧
      (next.time 0 < t → t < next.time (j + 1) → (next.sample t).a m = (old.sample t).a m) := by
  have inOld := R.inOld
  have inNext := R.inNext
  have ej := R.time (show j ≤ stop - first by omega)
  have ej' : old.time (first + j + 1) = next.time (j + 1) := R.time (show j + 1 ≤ stop - first by omega)
  obtain ⟨p0, v0⟩ := R.pos (show j ≤ stop - first by omega) hm
  obtain ⟨p1, v1⟩ : old.pos (first + j + 1) m = next.pos (j + 1) m ∧
      old.vel (first + j + 1) m = next.vel (j + 1) m :=
    R.pos (show j + 1 ≤ stop - first by omega) hm
  have ko : first + j + 1 < old.k := by omega
  have kn : j + 1 < next.k := by omega
  obtain ⟨hq, hv⟩ := NativeReference.sample_seg hn hhn kn h1 h2 m
  obtain ⟨hq', hv'⟩ := NativeReference.sample_seg ho hho ko (ej.trans_le h1)
    (h2.trans_eq ej'.symm) m
  rw [ej, ej', p0, p1, v0, v1] at hq' hv'
  refine ⟨hq.trans hq'.symm, hv.trans hv'.symm, fun h0 h3 => ?_⟩
  have hpos : old.time 0 < t := by
    refine lt_of_le_of_lt ?_ h0
    rw [← R.time (Nat.zero_le _)]
    exact NativeReference.time_le ho (by omega) (by omega)
  have ha := NativeReference.sample_acc hn hhn kn h0 h1 h3 m
  have ha' := NativeReference.sample_acc ho hho ko hpos (ej.trans_le h1)
    (h3.trans_eq ej'.symm) m
  rw [ej, ej', p0, p1, v0, v1] at ha'
  exact ha.trans ha'.symm

/-- the shared segments cover the phases from the first new knot to the cut -/
theorem SharedRun.exists_seg (hn : next.validReference = true) {t : ℚ} (h1 : next.time 0 ≤ t)
    (h2 : t ≤ old.time stop) :
    ∃ j, j < stop - first ∧ next.time j ≤ t ∧ t ≤ next.time (j + 1) ∧
      (t < old.time stop → t < next.time (j + 1)) := by
  have hlt := R.lt
  have hend : old.time stop = next.time (stop - first) := by
    have := R.time (le_refl (stop - first))
    rwa [show first + (stop - first) = stop by omega] at this
  rw [hend] at h2 ⊢
  rcases lt_or_eq_of_le h2 with h | h
  · obtain ⟨j, hj, ha, hb⟩ := NativeReference.exists_seg (show 0 < stop - first by omega) h1 h
    exact ⟨j, hj, ha, le_of_lt hb, fun _ => hb⟩
  · refine ⟨stop - first - 1, by omega, ?_, ?_, fun hc => absurd hc (by rw [h]; exact lt_irrefl _)⟩
    · rw [h]
      exact NativeReference.time_le hn (by omega) R.inNext
    · rw [show stop - first - 1 + 1 = stop - first by omega, h]

end

theorem accept_phase {s : ReferenceSelection} {c : ReferenceCommit} {now : ℕ}
    (he : c.request.expectedRevision ≠ 0) (t : ℕ) : (s.accept c now).phase t = s.phase t := by
  simp [accept, phase, he]

/-- **A revision joins the running curve without a step.**  When a replacement commit succeeds at
phase `at`, the clock keeps its anchor, and up to the protected cut the new curve has the old
curve's positions and velocities; the accelerations agree strictly inside. -/
theorem commit_continuous (s s' : ReferenceSelection) (c : ReferenceCommit) (now g : ℕ)
    (hold : s.selected.curve.validReference = true)
    (hnew : c.admitted.curve.validReference = true)
    (he : c.request.expectedRevision ≠ 0) (h : s.commit c now g = (.ok, s')) :
    let cut := c.request.protectedUntil
    cut.isFinite = true ∧ s.phase now < cut.rat ∧
      s'.anchorNs = s.anchorNs ∧ (∀ t, s'.phase t = s.phase t) ∧
      s'.selected = c.admitted ∧ s'.selected.curve.n = s.selected.curve.n ∧
      (∀ t j, s.phase now ≤ t → t ≤ cut.rat → j < s.selected.curve.n →
        (s'.selected.curve.sample t).q j = (s.selected.curve.sample t).q j ∧
        (s'.selected.curve.sample t).v j = (s.selected.curve.sample t).v j) ∧
      (∀ t j, s'.selected.curve.time 0 < t → t < cut.rat → j < s.selected.curve.n →
        (s'.selected.curve.sample t).a j = (s.selected.curve.sample t).a j) := by
  intro cut
  obtain ⟨hr, rfl⟩ := commit_ok h
  have hp : s.prefixMatches c.admitted cut (s.phase now) = true := by
    rcases (commitResult_ok hr).2.2.2 with ⟨h0, -⟩ | ⟨-, -, -, -, hp⟩
    · exact absurd h0 he
    · exact hp
  obtain ⟨hn, hho, hhn, hfirst, hcut, first, stop, hstop, R⟩ := prefixMatches_spec hp
  -- the cut is a knot of the old curve, so it is finite
  have hfin : cut.isFinite = true := by
    have := NativeReference.finite_time hold R.inOld
    rwa [hstop] at this
  have hcutv : cut.rat = s.selected.curve.time stop := by
    simp only [NativeReference.time, hstop, cut]
  have hlt : s.phase now < cut.rat := by
    rw [F64.value_of_finite hfin] at hcut
    simpa using hcut
  have hat : c.admitted.curve.time 0 ≤ s.phase now := by
    have h0 := NativeReference.finite_time hnew (show 0 < c.admitted.curve.k by
      have := NativeReference.two_le_k hnew; omega)
    rw [F64.value_of_finite h0] at hfirst
    simpa [NativeReference.time] using hfirst
  refine ⟨hfin, hlt, by simp [accept, he], accept_phase he, rfl, hn.symm, ?_, ?_⟩
  · intro t j h1 h2 hj
    obtain ⟨i, hi, ha, hb, -⟩ := R.exists_seg hnew (le_trans hat h1) (by rw [← hcutv]; exact h2)
    obtain ⟨hq, hv, -⟩ := R.sample_eq hold hnew hho hhn hi hj ha hb
    exact ⟨hq, hv⟩
  · intro t j h1 h2 hj
    rw [hcutv] at h2
    obtain ⟨i, hi, ha, hb, hc⟩ := R.exists_seg hnew (le_of_lt h1) (le_of_lt h2)
    exact (R.sample_eq hold hnew hho hhn hi hj ha hb).2.2 h1 (hc h2)

/-! ### a concrete handover -/

/-- the doubles `0.0`, `1.0`, `2.0`, `3.0` -/
def second : ℕ → F64
  | 0 => ⟨0⟩
  | 1 => ⟨0x3FF0000000000000⟩
  | 2 => ⟨0x4000000000000000⟩
  | _ => ⟨0x4008000000000000⟩

/-- one joint at unit speed through `k` knots, one second apart from second `i` on -/
def unitLine (i k : ℕ) : NativeReference where
  n := 1
  k := k
  hermite := true
  times j := second (i + j)
  q j _ := second (i + j)
  v _ _ := second 1

/-- reference 5, revision 1: the line from 0 s to 2 s -/
def lineRunning : ReferenceSelection where
  selected := { identity := { sessionId := 7, armEpoch := 1 }, curve := unitLine 0 3 }
  info := { referenceId := 5, revision := 1, status := .running }
  session := 7
  epoch := 1
  highestId := 5

/-- its revision 2: the line from 1 s to 3 s, protected up to 2 s -/
def lineRevision : ReferenceCommit where
  admitted :=
    { identity := { sessionId := 7, armEpoch := 1, referenceId := 5, expectedRevision := 1
                    revision := 2 }
      curve := unitLine 1 3 }
  request := { sessionId := 7, armEpoch := 1, referenceId := 5, expectedRevision := 1
               revision := 2, protectedUntil := second 2, latestPhase := second 2 }

theorem commit_continuous_line :
    (lineRunning.commit lineRevision 1200000000 0).1 = .ok ∧
      ∀ t, lineRunning.phase 1200000000 ≤ t → t ≤ (second 2).rat →
        ((unitLine 1 3).sample t).q 0 = ((unitLine 0 3).sample t).q 0 := by
  have hok : (lineRunning.commit lineRevision 1200000000 0).1 = .ok := by decide +kernel
  refine ⟨hok, fun t h1 h2 => ?_⟩
  obtain ⟨-, -, -, -, hsel, -, hpos, -⟩ := commit_continuous lineRunning
    (lineRunning.commit lineRevision 1200000000 0).2 lineRevision 1200000000 0
    (by decide +kernel) (by decide +kernel) (by decide) (Prod.ext hok rfl)
  rw [hsel] at hpos
  exact (hpos t 0 h1 h2 (by decide)).1

end ReferenceSelection

end ArmControl.Rt
