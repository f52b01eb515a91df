import ArmControl.Lib.ValueArith

/-!
# Vectors of values

A vector is a list of values; the operations are the elementwise ones of `numpy`.

* `Value.div`          the quotient, with the infinities and NaN as IEEE 754 has them (zero has no sign here);
* `finites`            the rational entries of a vector without NaN and infinities;
* `maxAbs`             `numpy.max(numpy.abs(x))`: a NaN wins.
-/

namespace Value

def div : Value → Value → Value
  | .fin a, .fin b => if b = 0 then (if a = 0 then .nan else .inf (decide (a < 0))) else .fin (a / b)
  | .fin _, .inf _ => .fin 0
  | .inf a, .fin b => .inf (a != decide (b < 0))
  | _, _ => .nan

instance : Div Value := ⟨div⟩

theorem fin_div (a : ℚ) {b : ℚ} (h : b ≠ 0) : Value.fin a / .fin b = .fin (a / b) := if_neg h

/-- the rational number that a value is -/
def rat? : Value → Option ℚ
  | .fin q => some q
  | _ => none

theorem rat?_eq_some {x : Value} {q : ℚ} : x.rat? = some q ↔ x = .fin q := by
  cases x with
  | nan => exact ⟨nofun, nofun⟩
  | inf neg => exact ⟨nofun, nofun⟩
  | fin r => exact ⟨fun h => congrArg _ (Option.some.inj h), fun h => congrArg _ (Value.fin.inj h)⟩

end Value

namespace Vec

def add (x y : List Value) : List Value := x.zipWith (· + ·) y

def sub (x y : List Value) : List Value := x.zipWith (· - ·) y

def scale (s : Value) (x : List Value) : List Value := x.map (s * ·)

def zeros (n : ℕ) : List Value := List.replicate n (.fin 0)

/-- `numpy.isfinite(x).all()` -/
def isFinite (x : List Value) : Bool := x.all Value.isFinite

def ofRat (x : List ℚ) : List Value := x.map .fin

/-- the rational entries, when there is no other entry -/
def finites : List Value → Option (List ℚ)
  | [] => some []
  | x :: xs => do
    let q ← x.rat?
    let qs ← finites xs
    some (q :: qs)

def maxAbs (x : List Value) : Value := x.foldl (fun m y => m.maximum y.abs) (.fin 0)

/-- `numpy.clip(x, -bound, bound)` -/
def clipTo (bound : List ℚ) (x : List Value) : List Value :=
  x.zipWith (fun y b => y.clip (.fin (-b)) (.fin b)) bound

@[simp] theorem length_ofRat (x : List ℚ) : (ofRat x).length = x.length := List.length_map _

theorem finites_eq_some {x : List Value} {q : List ℚ} : finites x = some q ↔ x = ofRat q := by
  induction x generalizing q with
  | nil =>
    cases q with
    | nil => exact ⟨fun _ => rfl, fun _ => rfl⟩
    | cons r q => exact ⟨nofun, nofun⟩
  | cons y x ih =>
    cases q with
    | nil =>
      refine ⟨fun h => ?_, nofun⟩
      obtain ⟨r, -, hr⟩ := Option.bind_eq_some_iff.mp h
      obtain ⟨rs, -, hrs⟩ := Option.bind_eq_some_iff.mp hr
      cases hrs
    | cons r q =>
      constructor
      · intro h
        obtain ⟨a, ha, hr⟩ := Option.bind_eq_some_iff.mp h
        obtain ⟨as, has, heq⟩ := Option.bind_eq_some_iff.mp hr
        obtain ⟨rfl, rfl⟩ := List.cons.inj (Option.some.inj heq)
        rw [Value.rat?_eq_some.mp ha, ih.mp has]
        rfl
      · intro h
        obtain ⟨rfl, hx⟩ := List.cons.inj h
        show (Value.rat? (.fin r) >>= fun a => finites x >>= fun as => some (a :: as)) = _
        rw [ih.mpr hx]
        rfl

theorem isFinite_iff {x : List Value} : isFinite x = true ↔ ∃ q, x = ofRat q := by
  constructor
  · intro h
    induction x with
    | nil => exact ⟨[], rfl⟩
    | cons y x ih =>
      have hboth : (y.isFinite && isFinite x) = true := h
      obtain ⟨hy, hx⟩ := Bool.and_eq_true_iff.mp hboth
      obtain ⟨r, rfl⟩ := Value.isFinite_iff.mp hy
      obtain ⟨q, rfl⟩ := ih hx
      exact ⟨r :: q, rfl⟩
  · rintro ⟨q, rfl⟩
    unfold isFinite ofRat
    rw [List.all_map, List.all_eq_true]
    exact fun _ _ => rfl

/-! ## finite results -/

/-- the entries of a finite sum are finite -/
theorem eq_ofRat_of_add {x y : List Value} {p : List ℚ} (hlen : x.length = y.length) (h : add x y = ofRat p) :
    ∃ a b, x = ofRat a ∧ y = ofRat b ∧ a.length = b.length ∧ p = a.zipWith (· + ·) b := by
  induction x generalizing y p with
  | nil =>
    cases y with
    | nil =>
      cases p with
      | nil => exact ⟨[], [], rfl, rfl, rfl, rfl⟩
      | cons r p => cases h
    | cons v y => cases hlen
  | cons u x ih =>
    cases y with
    | nil => cases hlen
    | cons v y =>
      cases p with
      | nil => cases h
      | cons r p =>
        obtain ⟨hhead, htail⟩ := List.cons.inj (show (u + v) :: add x y = .fin r :: ofRat p from h)
        obtain ⟨a, b, rfl, rfl, rfl⟩ := Value.eq_fin_of_add hhead
        obtain ⟨as, bs, rfl, rfl, hl, rfl⟩ := ih (Nat.succ.inj hlen) htail
        exact ⟨a :: as, b :: bs, rfl, rfl, congrArg Nat.succ hl, rfl⟩

theorem eq_ofRat_of_scale {x : List Value} {k : Value} {p : List ℚ} (h : (x.map fun d => d * k) = ofRat p) :
    ∃ a, x = ofRat a := by
  induction x generalizing p with
  | nil => exact ⟨[], rfl⟩
  | cons u x ih =>
    cases p with
    | nil => cases h
    | cons r p =>
      obtain ⟨hhead, htail⟩ := List.cons.inj (show (u * k) :: x.map (fun d => d * k) = .fin r :: ofRat p from h)
      obtain ⟨a, b, rfl, rfl, -⟩ := Value.eq_fin_of_mul hhead
      obtain ⟨as, rfl⟩ := ih htail
      exact ⟨a :: as, rfl⟩

/-- what is added to a vector is the distance to it -/
theorem dist_add {a b : List ℚ} (hlen : a.length = b.length) {l : ℚ} (hb : ∀ d ∈ b, |d| ≤ l) :
    (a.zipWith (· + ·) b).length = a.length ∧ ∀ x ∈ (a.zipWith (· + ·) b).zip a, |x.1 - x.2| ≤ l := by
  refine ⟨by rw [List.length_zipWith, hlen, min_self], ?_⟩
  induction a generalizing b with
  | nil => exact nofun
  | cons u a ih =>
    cases b with
    | nil => cases hlen
    | cons v b =>
      intro x hx
      rcases List.mem_cons.mp (show x ∈ (u + v, u) :: (a.zipWith (· + ·) b).zip a from hx) with rfl | hx
      · rw [add_sub_cancel_left]
        exact hb v List.mem_cons_self
      · exact ih (Nat.succ.inj hlen) (fun d hd => hb d (List.mem_cons_of_mem _ hd)) x hx

/-- a bound of the absolute entries, met by the fold from `m` -/
theorem foldl_maxAbs (d : List ℚ) (m : ℚ) :
    ∃ r : ℚ, (ofRat d).foldl (fun (m : Value) y => m.maximum y.abs) (Value.fin m) = .fin r ∧ m ≤ r ∧ ∀ x ∈ d, |x| ≤ r := by
  induction d generalizing m with
  | nil => exact ⟨m, rfl, le_rfl, nofun⟩
  | cons y d ih =>
    have hstep : (Value.fin m).maximum (Value.fin y).abs = .fin (max m |y|) := by
      show (if (Value.fin |y|).lt (.fin m) then Value.fin m else .fin |y|) = _
      rw [Value.lt_fin]
      split_ifs with h
      · rw [max_eq_left (of_decide_eq_true h).le]
      · rw [max_eq_right (not_lt.mp (of_decide_eq_false (Bool.eq_false_of_not_eq_true h)))]
    obtain ⟨r, hr, hm, hd⟩ := ih (max m |y|)
    refine ⟨r, ?_, (le_max_left _ _).trans hm, fun x hx => ?_⟩
    · show (ofRat d).foldl _ ((Value.fin m).maximum (Value.fin y).abs) = _
      rw [hstep, hr]
    · rcases List.mem_cons.mp hx with rfl | hx
      · exact (le_max_right _ _).trans hm
      · exact hd x hx

theorem maxAbs_ofRat (d : List ℚ) : ∃ r, maxAbs (ofRat d) = .fin r ∧ 0 ≤ r ∧ ∀ x ∈ d, |x| ≤ r := foldl_maxAbs d 0

end Vec
