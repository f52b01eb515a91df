import ArmControl.RemoteRt.Protocol
import ArmControl.Rt.UploadIntegrity

/-!
# The rows of an upload (`RtBackend.upload_reference`)

The client lays a trajectory out knot by knot: the time, the positions, and the velocities if it has
any, eight bytes each.

* `Trajectory.admissible`   the client's own checks;
* `Trajectory.body`         the bytes;
* `Trajectory.native`       the same doubles as a native reference;
* `decodeCurve_body`        the server's parse of the bytes gives exactly these doubles.
-/

namespace ArmControl.RemoteRt
open ArmControl.Rt Bytes

/-- what `upload_reference` reads of a trajectory -/
structure Trajectory where
  times : List F64
  positions : List (List F64)
  velocities : Option (List (List F64)) := none
  deriving DecidableEq, Inhabited

namespace Trajectory

variable (t : Trajectory)

def knots : ℕ := t.times.length

/-- the columns of one knot -/
def width (n : ℕ) : ℕ := 1 + n + if t.velocities.isSome then n else 0

/-- `k` rows of `n` doubles -/
def shaped (k n : ℕ) (rows : List (List F64)) : Bool := rows.length == k && rows.all (·.length == n)

def row (i : ℕ) : List F64 :=
  (t.times[i]?).toList ++ (t.positions[i]?).getD [] ++ ((t.velocities.getD [])[i]?).getD []

/-- `np.concatenate([times[:, None], q, velocity], axis=1)` -/
def rows : List (List F64) := (List.range t.knots).map t.row

def increasing : List F64 → Bool
  | x :: y :: rest => Value.lt x.value y.value && increasing (y :: rest)
  | _ => true

/-- the checks of `upload_reference` -/
def admissible (n : ℕ) : Bool :=
  decide (2 ≤ t.knots) && decide (t.knots ≤ maxReferenceKnots) && shaped t.knots n t.positions &&
    t.velocities.all (shaped t.knots n) && t.rows.all (·.all F64.isFinite) &&
    !t.times.head?.any (fun x => Value.lt x.value (.fin 0)) && increasing t.times

/-- `rows.astype('<f8').tobytes()` -/
def body : List Byte := t.rows.flatten.flatMap fun x => ofNat 8 x.bits.toNat

/-- the trajectory's doubles -/
def native (n : ℕ) : NativeReference where
  n := n
  k := t.knots
  hermite := t.velocities.isSome
  times := fun i => (t.times[i]?).getD .zero
  q := fun i j => ((t.positions[i]?).bind (·[j]?)).getD .zero
  v := fun i j => (((t.velocities.getD [])[i]?).bind (·[j]?)).getD .zero

end Trajectory

/-! ## the parse of the rows -/

theorem slice_words (xs : List F64) (i : ℕ) (x : F64) (hx : xs[i]? = some x) :
    slice (xs.flatMap fun x => ofNat 8 x.bits.toNat) (8 * i) 8 = ofNat 8 x.bits.toNat := by
  induction xs generalizing i with
  | nil => simp at hx
  | cons y ys ih =>
    rw [List.flatMap_cons]
    cases i with
    | zero =>
      obtain rfl := Option.some.inj hx
      exact slice_field 8 _ _
    | succ i =>
      rw [slice_skip (by omega), show 8 * (i + 1) - 8 = 8 * i by omega]
      exact ih i hx

theorem length_words (xs : List F64) : (xs.flatMap fun x => ofNat 8 x.bits.toNat).length = 8 * xs.length := by
  induction xs with
  | nil => rfl
  | cons x xs ih =>
    rw [List.flatMap_cons, List.length_append, length_ofNat, ih, List.length_cons]
    omega

/-- the double at a word of the bytes -/
theorem readF64_words {xs : List F64} {i : ℕ} {x : F64} (hx : xs[i]? = some x) :
    ReferenceUpload.readF64 (xs.flatMap fun x => ofNat 8 x.bits.toNat) (8 * i) = x := by
  obtain ⟨hi, -⟩ := List.getElem?_eq_some_iff.mp hx
  have hlen := length_words xs
  have hbits := x.bits.isLt
  unfold ReferenceUpload.readF64
  rw [Upload.readF64_fold _ _ _ (by omega), slice_words xs i x hx, nat_ofNat, Nat.mod_eq_of_lt (by omega)]
  rw [BitVec.ofNat_toNat, BitVec.setWidth_eq]

/-- a cell of a table of rows of one width -/
theorem flatten_cell {α : Type*} {rows : List (List α)} {w : ℕ} (hw : ∀ r ∈ rows, r.length = w) (i c : ℕ)
    (hc : c < w) : rows.flatten[i * w + c]? = (rows[i]?).bind (·[c]?) := by
  induction rows generalizing i with
  | nil => simp
  | cons r rows ih =>
    have hr := hw r (by simp)
    rw [List.flatten_cons]
    cases i with
    | zero =>
      rw [List.getElem?_append_left (by omega)]
      simp
    | succ i =>
      rw [List.getElem?_append_right (by rw [hr, Nat.succ_mul]; omega), hr,
        show (i + 1) * w + c - w = i * w + c by rw [Nat.succ_mul]; omega]
      exact ih (fun r' hr' => hw r' (by simp [hr'])) i

/-- the shape that the checks leave -/
structure Shape (t : Trajectory) (n : ℕ) : Prop where
  positions : t.positions.length = t.knots ∧ ∀ r ∈ t.positions, r.length = n
  velocities : ∀ vs ∈ t.velocities, vs.length = t.knots ∧ ∀ r ∈ vs, r.length = n

section
variable {t : Trajectory} {n i : ℕ}

theorem shaped_iff {k : ℕ} {rows : List (List F64)} :
    Trajectory.shaped k n rows = true ↔ rows.length = k ∧ ∀ r ∈ rows, r.length = n := by
  simp [Trajectory.shaped]

theorem shape_of_admissible (h : t.admissible n = true) : Shape t n := by
  simp only [Trajectory.admissible, Bool.and_eq_true] at h
  obtain ⟨⟨⟨⟨⟨-, hq⟩, hv⟩, -⟩, -⟩, -⟩ := h
  refine ⟨shaped_iff.mp hq, fun vs hvs => ?_⟩
  rw [Option.mem_def.mp hvs] at hv
  exact shaped_iff.mp hv

/-- the columns of a row -/
theorem row_cells (h : Shape t n) (hi : i < t.knots) : ∃ x q v, t.times[i]? = some x ∧ t.positions[i]? = some q ∧
    q.length = n ∧ ((t.velocities.getD [])[i]?).getD [] = v ∧ v.length = (if t.velocities.isSome then n else 0) ∧
    t.row i = x :: (q ++ v) := by
  have hx := List.getElem?_eq_getElem (l := t.times) hi
  have hi' : i < t.positions.length := by rw [h.positions.1]; exact hi
  have hq := List.getElem?_eq_getElem (l := t.positions) hi'
  refine ⟨_, _, _, hx, hq, h.positions.2 _ (List.getElem_mem hi'), rfl, ?_, ?_⟩
  · cases hv : t.velocities with
    | none => rfl
    | some vs =>
      obtain ⟨hlen, hrows⟩ := h.velocities vs hv
      have hi'' : i < vs.length := by rw [hlen]; exact hi
      show ((vs[i]?).getD []).length = n
      rw [List.getElem?_eq_getElem hi'']
      exact hrows _ (List.getElem_mem hi'')
  · rw [Trajectory.row, hx, hq]
    rfl

theorem row_length (h : Shape t n) (hi : i < t.knots) : (t.row i).length = t.width n := by
  obtain ⟨x, q, v, -, -, hq, -, hv, hrow⟩ := row_cells h hi
  rw [hrow, List.length_cons, List.length_append, hq, hv, Trajectory.width]
  omega

theorem rows_length (h : Shape t n) : ∀ r ∈ t.rows, r.length = t.width n := by
  intro r hr
  obtain ⟨i, hi, rfl⟩ := List.mem_map.mp hr
  exact row_length h (List.mem_range.mp hi)

/-- the double in column `c` of row `i` is read from its place in the bytes -/
theorem readF64_cell (h : Shape t n) (hi : i < t.knots) {c at_ : ℕ} {x : F64} (hc : (t.row i)[c]? = some x)
    (hat : at_ = 8 * (i * t.width n + c)) : ReferenceUpload.readF64 t.body at_ = x := by
  obtain ⟨hc', -⟩ := List.getElem?_eq_some_iff.mp hc
  rw [hat]
  apply readF64_words
  rw [flatten_cell (rows_length h) i c (by rw [← row_length h hi]; exact hc')]
  show (t.rows[i]?).bind _ = _
  rw [Trajectory.rows, List.getElem?_map, List.getElem?_range hi]
  exact hc

/-- outside of a table there is nothing -/
theorem cell_none {rows : List (List F64)} {k j : ℕ} (hk : rows.length = k) (hn : ∀ r ∈ rows, r.length = n)
    (hij : ¬ (i < k ∧ j < n)) : (rows[i]?).bind (·[j]?) = none := by
  by_cases hi : i < rows.length
  · rw [List.getElem?_eq_getElem hi, Option.bind_some]
    apply List.getElem?_eq_none
    rw [hn _ (List.getElem_mem hi)]
    by_contra hj
    exact hij ⟨hk ▸ hi, not_le.mp hj⟩
  · rw [List.getElem?_eq_none (not_lt.mp hi)]
    rfl

/-- **The server parses the trajectory's own doubles.** -/
theorem decodeCurve_body (h : Shape t n) {b : ReferenceBeginPayload} (hn : b.n = n) (hk : b.knots = t.knots)
    (hh : b.hermite = t.velocities.isSome) : ReferenceUpload.decodeCurve b t.body = t.native n := by
  have hstride : 8 + 8 * b.n * (if b.hermite then 2 else 1) = 8 * t.width n := by
    rw [hn, hh, Trajectory.width]
    split <;> omega
  unfold ReferenceUpload.decodeCurve Trajectory.native
  dsimp only
  rw [hstride, hn, hk, hh]
  congr 1
  · funext i
    split
    · rename_i hi
      obtain ⟨x, q, v, hx, -, -, -, -, hrow⟩ := row_cells h hi
      rw [hx]
      exact readF64_cell h hi (c := 0) (by rw [hrow]; rfl) (by ring)
    · rename_i hi
      rw [List.getElem?_eq_none (not_lt.mp hi)]
      rfl
  · funext i j
    split
    · rename_i hij
      obtain ⟨x, q, v, -, hq, hqn, -, -, hrow⟩ := row_cells h hij.1
      have hj : j < q.length := by rw [hqn]; exact hij.2
      rw [hq, Option.bind_some, List.getElem?_eq_getElem hj]
      refine readF64_cell h hij.1 (c := 1 + j) ?_ (by ring)
      rw [hrow, Nat.add_comm, List.getElem?_cons_succ, List.getElem?_append_left hj, List.getElem?_eq_getElem hj]
      rfl
    · rename_i hij
      rw [cell_none h.positions.1 h.positions.2 hij]
      rfl
  · funext i j
    cases hv : t.velocities with
    | none => simp
    | some vs =>
      obtain ⟨hlen, hrows⟩ := h.velocities vs hv
      split
      · rename_i hij
        obtain ⟨x, q, v, -, -, hqn, hvi, hvn, hrow⟩ := row_cells h hij.2.1
        rw [hv] at hvi hvn
        have hj : j < v.length := by rw [hvn]; exact hij.2.2
        have hi' : i < vs.length := by rw [hlen]; exact hij.2.1
        have hvi' : vs[i]? = some v := by
          rw [← hvi, Option.getD_some, List.getElem?_eq_getElem hi']
          rfl
        rw [Option.getD_some, hvi', Option.bind_some, List.getElem?_eq_getElem hj]
        refine readF64_cell h hij.2.1 (c := 1 + n + j) ?_ (by ring)
        rw [hrow, show 1 + n + j = n + j + 1 by omega, List.getElem?_cons_succ,
          List.getElem?_append_right (by omega), hqn, Nat.add_sub_cancel_left, List.getElem?_eq_getElem hj]
        rfl
      · rename_i hij
        rw [Option.getD_some, cell_none hlen hrows fun hc => hij ⟨rfl, hc⟩]
        rfl

end

end ArmControl.RemoteRt
