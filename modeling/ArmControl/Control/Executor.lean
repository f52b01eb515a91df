import Mathlib.Algebra.Order.Field.Basic
import Mathlib.Data.List.GetD
import ArmControl.Lib.Effect
import ArmControl.Lib.NdArray
import ArmControl.Lib.Numerals

/-!
# Gains (`control/trajectory_executor.py`)

* `gainError`                why a pair of gains may not be a control law;
* `JointTrajectoryExecutor`  the gains and tolerances that the executor holds, `new` its constructor;
* `setGains`                 installs a control law, or raises;
* `Gains.Damped`             no joint is sprung without being damped, and both vectors have their length.

An array is a shape with its entries, `none` an entry that is not finite.  Feedforward torque is left out.
-/

set_option linter.unusedSectionVars false

namespace ArmControl.Control
open Effect

/-- an array of floats; `none` is a NaN or an infinity -/
abbrev Gains (K : Type) := NdArray (Option K)

/-- why `gain_error` refuses -/
inductive GainError (K : Type) where
  | shapes (kp kd : ℕ)
  | notFinite
  | negative
  | undamped (joints : List ℕ) (kp : List K)
  deriving DecidableEq

/-- `render` prints a float -/
def GainError.text {K : Type} (render : K → String) : GainError K → String
  | .shapes kp kd => s!"kp shape ({kp},) != kd shape ({kd},)"
  | .notFinite => "gains must be finite"
  | .negative => "gains must be nonnegative"
  | .undamped joints kp =>
    s!"joint(s) {joints} have stiffness with zero damping (kp={kp.map render}, kd=0) — an undamped spring rings; " ++
      "set kd > 0 or kp = 0"

section
variable {K : Type} [Field K] [LinearOrder K] {n : ℕ}

namespace Gains

/-- every entry is finite -/
def isFinite (a : Gains K) : Bool := a.data.all Option.isSome

/-- an entry is negative -/
def negative (a : Gains K) : Bool := a.data.any fun x => x.any (· < 0)

/-- the entry of a joint -/
def joint (a : Gains K) (j : ℕ) : Option K := a.data.getD j none

/-- a joint with stiffness and without damping -/
def undamped (kp kd : Gains K) (j : ℕ) : Bool := (kp.joint j).any (0 < ·) && (kd.joint j).any (· ≤ 0)

end Gains

/-- reject positive stiffness with zero damping -/
def gainError (kp kd : Gains K) : Option (GainError K) :=
  if kp.data.length ≠ kd.data.length then some (.shapes kp.data.length kd.data.length)
  else if !(kp.isFinite && kd.isFinite) then some .notFinite
  else if kp.negative || kd.negative then some .negative
  else
    let undamped := (List.range kp.data.length).filter (Gains.undamped kp kd)
    if undamped ≠ [] then some (.undamped undamped (undamped.filterMap kp.joint)) else none

/-! ## the executor -/

/-- what the constructor and `set_gains` raise -/
inductive GainsRefused (K : Type) where
  | constructed (name : String) (n : ℕ)
  | law (e : GainError K)
  | shape (name : String) (given expected : List ℕ)
  deriving DecidableEq

structure JointTrajectoryExecutor (K : Type) where
  kp : Gains K
  kd : Gains K
  donePosTol : K
  doneVelTol : K
  /-- metres and radians at the hand -/
  donePoseTol : Option (K × K) := none
  deriving DecidableEq

namespace JointTrajectoryExecutor

/-- the constructor over `n` joints -/
def new (n : ℕ) (kpDefault kdDefault : Gains K) (donePosTol doneVelTol : K) (donePoseTol : Option (K × K)) :
    Except (GainsRefused K) (JointTrajectoryExecutor K) :=
  if kpDefault.shape ≠ [n] then .error (.constructed "kp_default" n)
  else if kdDefault.shape ≠ [n] then .error (.constructed "kd_default" n)
  else match gainError kpDefault kdDefault with
    | some e => .error (.law e)
    | none => .ok ⟨kpDefault, kdDefault, donePosTol, doneVelTol, donePoseTol⟩

def checkGains (kp kd : Option (Gains K)) : EStateM (GainsRefused K) (JointTrajectoryExecutor K) PUnit := do
  let x ← get
  match gainError (kp.getD x.kp) (kd.getD x.kd) with
  | some e => throw (.law e)
  | none => pure ⟨⟩

def setKp (kp : Option (Gains K)) : EStateM (GainsRefused K) (JointTrajectoryExecutor K) PUnit := do
  let x ← get
  match kp with
  | none => pure ⟨⟩
  | some kp => if kp.shape = x.kp.shape then set { x with kp := kp } else throw (.shape "kp" kp.shape x.kp.shape)

def setKd (kd : Option (Gains K)) : EStateM (GainsRefused K) (JointTrajectoryExecutor K) PUnit := do
  let x ← get
  match kd with
  | none => pure ⟨⟩
  | some kd => if kd.shape = x.kd.shape then set { x with kd := kd } else throw (.shape "kd" kd.shape x.kd.shape)

/-- install a control law; refuses stiffness without damping -/
def setGains (kp kd : Option (Gains K)) : EStateM (GainsRefused K) (JointTrajectoryExecutor K) PUnit := do
  checkGains kp kd
  setKp kp
  setKd kd

end JointTrajectoryExecutor

/-! ## no undamped spring -/

/-- both vectors have a value for each of `n` joints, and every sprung joint is damped -/
structure Gains.Damped (n : ℕ) (kp kd : Gains K) : Prop where
  kpShape : kp.shape = [n]
  kdShape : kd.shape = [n]
  damped : ∀ j < n, ∀ k ∈ kp.joint j, 0 < k → ∃ d ∈ kd.joint j, 0 < d

/-- the gains of an executor are a control law over `n` joints -/
structure JointTrajectoryExecutor.Lawful (n : ℕ) (x : JointTrajectoryExecutor K) : Prop where
  kpShape : x.kp.shape = [n]
  kdShape : x.kd.shape = [n]
  law : gainError x.kp x.kd = none

/-- what a pair that `gain_error` passes has -/
theorem gainError_eq_none {kp kd : Gains K} (h : gainError kp kd = none) :
    kp.data.length = kd.data.length ∧ (kp.isFinite ∧ kd.isFinite) ∧ ∀ j < kp.data.length, ¬ Gains.undamped kp kd j := by
  unfold gainError at h
  dsimp only at h
  split_ifs at h with hlength hfinite hnegative hundamped
  refine ⟨not_not.mp hlength, ?_, fun j hj hu => ?_⟩
  · simpa using hfinite
  · have hempty := not_not.mp hundamped
    rw [List.filter_eq_nil_iff] at hempty
    exact hempty j (List.mem_range.mpr hj) hu

theorem Gains.joint_of_finite {a : Gains K} (h : a.isFinite) {j : ℕ} (hj : j < a.data.length) :
    ∃ x, a.joint j = some x := by
  unfold Gains.isFinite at h
  rw [List.all_eq_true] at h
  have hsome := h a.data[j] (List.getElem_mem hj)
  rw [Option.isSome_iff_exists] at hsome
  obtain ⟨x, hx⟩ := hsome
  refine ⟨x, ?_⟩
  unfold Gains.joint
  rw [List.getD_eq_getElem _ _ hj, hx]

theorem NdArray.length_of_shape {α : Type} {a : NdArray α} (h : a.shape = [n]) : a.data.length = n := by
  rw [a.sized, h, List.prod_singleton]

namespace JointTrajectoryExecutor
variable {x : JointTrajectoryExecutor K}

theorem Lawful.damped (h : x.Lawful n) : Gains.Damped n x.kp x.kd where
  kpShape := h.kpShape
  kdShape := h.kdShape
  damped := by
    intro j hj k hk hpos
    obtain ⟨hlength, ⟨-, hfinite⟩, hdamped⟩ := gainError_eq_none h.law
    have hjp : j < x.kp.data.length := by rw [NdArray.length_of_shape h.kpShape]; exact hj
    obtain ⟨d, hd⟩ := Gains.joint_of_finite hfinite (hlength ▸ hjp)
    refine ⟨d, hd, ?_⟩
    by_contra hle
    apply hdamped j hjp
    unfold Gains.undamped
    rw [hd, Option.mem_def.mp hk]
    simp [hpos, not_lt.mp hle]

/-- **A constructed executor has no undamped spring.** -/
theorem new_lawful {kp kd : Gains K} {pos vel : K} {pose : Option (K × K)} (h : new n kp kd pos vel pose = .ok x) :
    x.Lawful n := by
  unfold new at h
  split_ifs at h with hkp hkd
  split at h
  · cases h
  · rename_i hlaw
    obtain rfl := Except.ok.inj h
    exact ⟨not_not.mp hkp, not_not.mp hkd, hlaw⟩

theorem checkGains_ends (kp kd : Option (Gains K)) :
    Ends (fun _ y => y = x ∧ gainError (kp.getD x.kp) (kd.getD x.kd) = none)
      (fun _ y => y = x ∧ gainError (kp.getD x.kp) (kd.getD x.kd) ≠ none) (checkGains kp kd) x := by
  unfold checkGains
  rw [ends_bind, ends_get]
  cases hlaw : gainError (kp.getD x.kp) (kd.getD x.kd) with
  | none => exact ⟨rfl, rfl⟩
  | some e => exact ⟨rfl, nofun⟩

theorem setKp_ends (kp : Option (Gains K)) :
    Ends (fun _ y => y = { x with kp := kp.getD x.kp } ∧ y.kp.shape = x.kp.shape)
      (fun _ y => y = x ∧ ∃ p ∈ kp, p.shape ≠ x.kp.shape) (setKp kp) x := by
  unfold setKp
  rw [ends_bind, ends_get]
  cases kp with
  | none => exact ⟨rfl, rfl⟩
  | some kp =>
    refine ends_ite (fun h => ?_) fun h => ?_
    · exact ⟨rfl, h⟩
    · exact ⟨rfl, kp, rfl, h⟩

theorem setKd_ends (kd : Option (Gains K)) :
    Ends (fun _ y => y = { x with kd := kd.getD x.kd } ∧ y.kd.shape = x.kd.shape)
      (fun _ y => y = x ∧ ∃ d ∈ kd, d.shape ≠ x.kd.shape) (setKd kd) x := by
  unfold setKd
  rw [ends_bind, ends_get]
  cases kd with
  | none => exact ⟨rfl, rfl⟩
  | some kd =>
    refine ends_ite (fun h => ?_) fun h => ?_
    · exact ⟨rfl, h⟩
    · exact ⟨rfl, kd, rfl, h⟩

/-- the pair passes, its stiffness fits the executor and is another one, and its damping does not fit -/
def Torn (x : JointTrajectoryExecutor K) (kp kd : Option (Gains K)) : Prop :=
  ∃ p ∈ kp, ∃ d ∈ kd, gainError p d = none ∧ p.shape = x.kp.shape ∧ p ≠ x.kp ∧ d.shape ≠ x.kd.shape

/-- all that `set_gains` does: a law is installed whole, nothing is changed, or only the stiffness is -/
theorem setGains_ends (kp kd : Option (Gains K)) :
    Ends
      (fun _ y => y = { x with kp := kp.getD x.kp, kd := kd.getD x.kd } ∧ y.kp.shape = x.kp.shape ∧
        y.kd.shape = x.kd.shape ∧ gainError y.kp y.kd = none)
      (fun _ y => y = x ∨ (∃ p ∈ kp, gainError p (kd.getD x.kd) = none ∧ p.shape = x.kp.shape ∧
        ∃ d ∈ kd, d.shape ≠ x.kd.shape ∧ y = { x with kp := p }))
      (setGains kp kd) x := by
  unfold setGains
  rw [ends_bind]
  refine (checkGains_ends kp kd).mono (fun _ y hy => ?_) fun _ y hy => Or.inl hy.1
  obtain ⟨rfl, hlaw⟩ := hy
  rw [ends_bind]
  refine (setKp_ends kp).mono (fun _ z hz => ?_) fun _ z hz => Or.inl hz.1
  obtain ⟨rfl, hkp⟩ := hz
  refine (setKd_ends kd).mono (fun _ w hw => ?_) fun _ w hw => ?_
  · obtain ⟨rfl, hkd⟩ := hw
    exact ⟨rfl, hkp, hkd, hlaw⟩
  · obtain ⟨rfl, d, hd, hshape⟩ := hw
    cases kp with
    | none => exact Or.inl rfl
    | some p => exact Or.inr ⟨p, rfl, hlaw, hkp, d, hd, hshape, rfl⟩

/-- a call that raises changes nothing, exactly when it is not torn -/
theorem setGains_whole (kp kd : Option (Gains K)) :
    Ends (fun _ _ => True) (fun _ y => y = x) (setGains kp kd) x ↔ ¬ x.Torn kp kd := by
  constructor
  · rintro h ⟨p, hp, d, hd, hpass, hkp, hne, hkd⟩
    rw [Option.mem_def] at hp hd
    subst hp hd
    have hraises : setGains (some p) (some d) x = .error (.shape "kd" d.shape x.kd.shape) { x with kp := p } := by
      have hcheck : checkGains (some p) (some d) x = .ok ⟨⟩ x := by
        unfold checkGains
        rw [Effect.get_bind]
        dsimp only [Option.getD_some]
        rw [hpass]
        rfl
      have hset : setKp (some p) x = .ok ⟨⟩ { x with kp := p } := by
        unfold setKp
        rw [Effect.get_bind]
        dsimp only
        rw [if_pos hkp]
        rfl
      have hthrow : setKd (some d) { x with kp := p } = .error (.shape "kd" d.shape x.kd.shape) { x with kp := p } := by
        unfold setKd
        rw [Effect.get_bind]
        dsimp only
        rw [if_neg hkd]
        rfl
      unfold setGains
      show EStateM.bind _ _ x = _
      rw [EStateM.bind, hcheck]
      show EStateM.bind _ _ x = _
      rw [EStateM.bind, hset]
      exact hthrow
    unfold Ends at h
    rw [hraises] at h
    exact hne (congrArg JointTrajectoryExecutor.kp h)
  · intro hwhole
    refine (setGains_ends kp kd).mono (fun _ _ _ => trivial) fun _ y hy => ?_
    rcases hy with rfl | ⟨p, hp, hpass, hkp, d, hd, hkd, rfl⟩
    · rfl
    · rw [Option.mem_def.mp hd, Option.getD_some] at hpass
      by_cases hne : p = x.kp
      · rw [hne]
      · exact absurd ⟨p, hp, d, hd, hpass, hkp, hne, hkd⟩ hwhole

/-- a call that is not torn keeps a lawful executor lawful -/
theorem Lawful.setGains (h : x.Lawful n) {kp kd : Option (Gains K)} (hwhole : ¬ x.Torn kp kd) :
    Ends (fun _ y => y.Lawful n) (fun _ y => y = x) (setGains kp kd) x := by
  refine ((setGains_ends kp kd).and ((setGains_whole kp kd).mpr hwhole)).mono (fun _ y hy => ?_) fun _ y hy => hy.2
  obtain ⟨⟨-, hkp, hkd, hlaw⟩, -⟩ := hy
  exact ⟨hkp.trans h.kpShape, hkd.trans h.kdShape, hlaw⟩

end JointTrajectoryExecutor

end

end ArmControl.Control
