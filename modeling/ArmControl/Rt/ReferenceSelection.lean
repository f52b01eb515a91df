import ArmControl.Rt.Protocol

/-!
# Reference selection: the RT thread's selected curve and its phase (`reference_selection.hpp`)

`ReferenceSelection` is the RT loop's own record of the selected reference: the admitted curve,
the clock anchor of its phase, and one high-water mark `highestId` that stands for every id the
epoch has used up.  Operations as the source has them:

* `reset`      a new (session, epoch) forgets everything;
* `commit`     select a new reference, or a revision of the selected one;
* `retire`     cancel the selected reference and burn a pending id;
* `evaluate`   move the phase, classify END and UNDERFLOW, sample the curve.

`commit` is cut into its checks (`commitResult`, in the source's order) and its effect (`accept`).
-/

namespace ArmControl.Rt

structure AdmittedReference where
  identity : ReferenceBeginPayload := {}
  curve : NativeReference := {}
  sealedAtNs : ℕ := 0
  deriving Inhabited

structure ReferenceCommit where
  admitted : AdmittedReference := {}
  request : ReferenceCommitPayload := {}
  ticket : ℕ := 0
  cancelGeneration : ℕ := 0
  deriving Inhabited

structure ReferenceSelectionInfo where
  referenceId : ℕ := 0
  revision : ℕ := 0
  status : ReferenceStatus := .none
  phase : ℚ := 0
  sessionId : ℕ := 0
  armEpoch : ℕ := 0
  deriving DecidableEq, Inhabited

structure ReferenceSelection where
  selected : AdmittedReference := {}
  info : ReferenceSelectionInfo := {}
  session : ℕ := 0
  anchorNs : ℕ := 0
  highestId : ℕ := 0
  admittedAtNs : ℕ := 0
  protectedUntil : F64 := .zero
  envelopeSeen : Bool := false
  retiredByExpiry : Bool := false
  epoch : ℕ := 0
  deriving Inhabited

namespace ReferenceSelection

def reset (s : ReferenceSelection) (session epoch : ℕ) : ReferenceSelection :=
  if s.session = session ∧ s.epoch = epoch then s
  else
    { s with
      session := session, epoch := epoch, highestId := 0
      info := { sessionId := session, armEpoch := epoch }
      admittedAtNs := 0, envelopeSeen := false, retiredByExpiry := false
      protectedUntil := .zero }

def active (s : ReferenceSelection) : Bool :=
  s.info.status == .running || s.info.status == .ended

def markEnvelope (s : ReferenceSelection) : ReferenceSelection := { s with envelopeSeen := true }

/-- reference seconds since the anchor -/
def phase (s : ReferenceSelection) (now : ℕ) : ℚ :=
  if s.anchorNs ≤ now then ((now - s.anchorNs : ℕ) : ℚ) / 1000000000 else 0

/-- the last knot of `old` whose time has the bits `x` (the source's scan keeps the last match) -/
def findKnot (old : NativeReference) (x : F64) : Option ℕ :=
  (List.range old.k).foldl (fun acc i => if old.times i = x then some i else acc) none

/-- knot `i` of `old` and knot `j` of `next` are the same bytes -/
def knotEq (old next : NativeReference) (i j : ℕ) : Bool :=
  old.times i == next.times j &&
    (List.range old.n).all fun m => old.q i m == next.q j m && old.v i m == next.v j m

def prefixMatches (s : ReferenceSelection) (candidate : AdmittedReference) (cut : F64)
    (at_ : ℚ) : Bool :=
  let old := s.selected.curve
  let next := candidate.curve
  if old.n ≠ next.n ∨ old.hermite = false ∨ next.hermite = false ∨
      s.selected.identity.modelDigest ≠ candidate.identity.modelDigest ∨
      s.selected.identity.jointOrderHash ≠ candidate.identity.jointOrderHash then false
  else if Value.lt (.fin at_) (next.times 0).value = true ∨
      Value.lt (.fin at_) cut.value = false then false
  else
    match findKnot old (next.times 0), findKnot old cut with
    | some first, some stop =>
      if stop ≤ first ∨ next.k ≤ stop - first then false
      else (List.range (stop - first + 1)).all fun j => knotEq old next (first + j) j
    | _, _ => false

/-- the identity part of `commit` -/
def identityOk (s : ReferenceSelection) (c : ReferenceCommit) : Bool :=
  let b := c.admitted.identity
  let p := c.request
  p.sessionId == s.session && b.sessionId == s.session && s.session != 0 &&
    p.armEpoch == s.epoch && b.armEpoch == s.epoch && s.epoch != 0 &&
    p.uploadId == b.uploadId && p.referenceId == b.referenceId &&
    p.revision == b.revision && p.expectedRevision == b.expectedRevision

/-- a nonzero selection budget is spent -/
def budgetSpent (c : ReferenceCommit) (now : ℕ) : Bool :=
  c.request.selectionBudgetNs != 0 &&
    (c.admitted.sealedAtNs == 0 || decide (now < c.admitted.sealedAtNs) ||
      decide (c.request.selectionBudgetNs ≤ now - c.admitted.sealedAtNs))

/-- every check of `commit`, in the source's order -/
def commitResult (s : ReferenceSelection) (c : ReferenceCommit) (now cancelGeneration : ℕ) :
    ReferenceResult :=
  let p := c.request
  if s.identityOk c = false then .identity
  else if c.cancelGeneration ≠ cancelGeneration then .retired
  else if budgetSpent c now = true then .late
  else if p.expectedRevision = 0 then
    if p.referenceId ≤ s.highestId then .retired
    else if s.active = true ∧ s.info.status ≠ .ended then .busy
    else if (c.admitted.curve.times 0).value ≠ .fin 0 then .malformed
    else .ok
  else if s.active = false ∨ p.referenceId ≠ s.info.referenceId ∨
      p.expectedRevision ≠ s.info.revision then .revision
  else if Value.le p.latestPhase.value (.fin (s.phase now)) = true then .late
  else if s.prefixMatches c.admitted p.protectedUntil (s.phase now) = false then .prefixMismatch
  else .ok

/-- the state after a commit that passed every check -/
def accept (s : ReferenceSelection) (c : ReferenceCommit) (now : ℕ) : ReferenceSelection :=
  let p := c.request
  let anchored := { s with anchorNs := if p.expectedRevision = 0 then now else s.anchorNs }
  { anchored with
    admittedAtNs := now
    envelopeSeen := false
    retiredByExpiry := false
    protectedUntil := p.protectedUntil
    selected := c.admitted
    highestId := p.referenceId
    info := { referenceId := p.referenceId, revision := p.revision, status := .running
              phase := anchored.phase now, sessionId := s.session, armEpoch := s.epoch } }

def commit (s : ReferenceSelection) (c : ReferenceCommit) (now cancelGeneration : ℕ) :
    ReferenceResult × ReferenceSelection :=
  let result := s.commitResult c now cancelGeneration
  (result, if result = .ok then s.accept c now else s)

def retire (s : ReferenceSelection) (pendingId : ℕ) (expired : Bool) : ReferenceSelection :=
  { s with
    highestId := max s.highestId pendingId
    retiredByExpiry := s.retiredByExpiry || expired
    info := if s.active then { s.info with status := .cancelled } else s.info }

/-- the last knot time of the selected curve -/
def endTime (s : ReferenceSelection) : ℚ := s.selected.curve.time (s.selected.curve.k - 1)

/-- END: the end point at rest -/
def restPoint (s : ReferenceSelection) : Point :=
  { s.selected.curve.sample s.endTime with v := fun _ => 0, a := fun _ => 0 }

/-- the state and, when a point was written to `out`, the point -/
def evaluate (s : ReferenceSelection) (now : ℕ) : ReferenceSelection × Option Point :=
  if s.active = false then (s, none)
  else
    let at_ := s.phase now
    let moved := { s.info with phase := min at_ s.endTime }
    if s.endTime ≤ at_ then
      if s.selected.identity.terminal = false then
        ({ s with info := { moved with status := .underflow } }, none)
      else ({ s with info := { moved with status := .ended } }, some s.restPoint)
    else ({ s with info := moved }, some (s.selected.curve.sample at_))

/-! ## inversion -/

theorem commit_ok {s s' : ReferenceSelection} {c : ReferenceCommit} {now g : ℕ}
    (h : s.commit c now g = (.ok, s')) : s.commitResult c now g = .ok ∧ s' = s.accept c now := by
  simp only [commit, Prod.mk.injEq] at h
  obtain ⟨hr, hs⟩ := h
  rw [if_pos hr] at hs
  exact ⟨hr, hs.symm⟩

theorem commit_not_ok {s : ReferenceSelection} {c : ReferenceCommit} {now g : ℕ}
    (h : s.commitResult c now g ≠ .ok) : (s.commit c now g).2 = s := by
  simp only [commit, if_neg h]

theorem commit_fst (s : ReferenceSelection) (c : ReferenceCommit) (now g : ℕ) :
    (s.commit c now g).1 = s.commitResult c now g := rfl

/-- **What a successful commit has passed**: identity, cancel generation and budget, and then
either the rules of a new reference or those of a revision. -/
theorem commitResult_ok {s : ReferenceSelection} {c : ReferenceCommit} {now g : ℕ}
    (h : s.commitResult c now g = .ok) :
    s.identityOk c = true ∧ c.cancelGeneration = g ∧ budgetSpent c now = false ∧
      ((c.request.expectedRevision = 0 ∧ s.highestId < c.request.referenceId ∧
          (s.active = true → s.info.status = .ended)) ∨
       (c.request.expectedRevision ≠ 0 ∧ s.active = true ∧
          c.request.referenceId = s.info.referenceId ∧
          c.request.expectedRevision = s.info.revision ∧
          s.prefixMatches c.admitted c.request.protectedUntil (s.phase now) = true)) := by
  unfold commitResult at h
  dsimp only at h
  split_ifs at h with h1 h2 h3 h4 h5 h6 h7 h8 h9 h10
  · refine ⟨by simpa using h1, by simpa using h2, by simpa using h3, Or.inl ⟨h4, not_le.mp h5, ?_⟩⟩
    intro ha
    by_contra hc
    exact h6 ⟨ha, hc⟩
  · rw [not_or, not_or, not_not, not_not] at h8
    exact ⟨by simpa using h1, by simpa using h2, by simpa using h3,
      Or.inr ⟨h4, by simpa using h8.1, h8.2.1, h8.2.2, by simpa using h10⟩⟩

end ReferenceSelection

end ArmControl.Rt
